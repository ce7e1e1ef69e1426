import Specimen.Proofs.Inference.Traversal
import Specimen.Proofs.Roundtrip.Projection

/-! From a sample to dataclasses and back to a document. Once the emitted module is loaded and its
annotations denote what they name, the class of the root shows every key of the root record again, down to
the last nested one, under both loop policies. -/
namespace Specimen
open Emission (dataclassModule)
open Inference (GraphRun infer)
open Json (Document)
open Loading (enterModule)

namespace Inference.GraphRun
variable {digest : Fingerprint.Digest} {nameSpace rootName : Text} {shape : Shape} {fields : List Field}
  {builder : Builder} {print : Text} {graph : TypeGraph}

private theorem isInhabited (run : GraphRun digest nameSpace rootName shape fields builder print graph)
    (hex : digest.IsHexadecimal) : graph.IsInhabited where
  keys := (run.wellFormed hex).keys
  types _ hr field hf null := run.typed hr field hf (congrArg TypeRef.innermost null)

end Inference.GraphRun

/-- What projecting the class of a record gives under both loop policies: the members show the keys of the
record in their order, and the document represents the record and conforms to it. -/
structure World.Restores (world : World) (graph : TypeGraph) (widen : Bool) (record : RecordType)
    (root : ClassRef) (members : List ReflectedMember) (document : Document) : Prop where
  projects : ∀ loops formatting, world.project ⟨.declaredOnly, loops, formatting⟩ root =
    .ok (members, document.mapNames .str)
  keys : members.map (·.jsonName) = record.fields.map fun field => .str field.key
  represents : graph.Represents (.object record.name) document
  conforms : graph.Conforms widen (.object record.name) document

section Restores
variable {world : World} {moduleName : Text} {first : Nat} {records : List RecordType} {graph : TypeGraph}

/-- The class of every record of a loaded module restores it. -/
private theorem World.restores_of_loaded (loaded : Loading.IsLoaded world moduleName first records)
    (outside : moduleName ≠ StandardClass.builtinModule) (annotates : world.Annotates moduleName records)
    (layered : TypeGraph.Layered records)
    (finds : ∀ record ∈ records, graph.find? record.name = some record) (inhabited : graph.IsInhabited)
    (widen : Bool) {k : Nat} {record : RecordType} (hk : records[k]? = some record) :
    ∃ members document, world.Restores graph widen record (.declared (first + k)) members document := by
  obtain ⟨-, members, reflected, shows⟩ := exists_members loaded outside annotates hk
  obtain ⟨documents, trail, expands, quiet, keys, values⟩ :=
    @isExpanded_of_loaded _ _ _ _ graph .declaredOnly loaded outside annotates layered finds k record hk
      [.declared (first + k)] (fun c hc => ⟨k, Nat.le_refl k, List.mem_singleton.mp hc⟩) members
      world.memory shows
  have projects := World.Projects.expanded (reflected .declaredOnly world.memory) expands
  have represents : graph.Represents (.object record.name) (.object documents) :=
    .object (finds record (List.mem_of_getElem? hk)) keys values
  refine ⟨members, .object documents, fun loops formatting => ?_, jsonNames_eq shows, represents,
    represents.conforms inhabited nofun widen⟩
  rw [mapNames_object]
  cases loops with
  | ignore => exact projects.project_ignore formatting
  | error => exact (projects.project_error formatting).trans (World.reported_quiet quiet _)

end Restores

section Checks

/-- Whether a type denotes this, where these names are bound. -/
def TypeRef.isDenoted (names : Bindings) : TypeRef → Referent → Bool
  | .null, .cls (.standard .any) | .any, .cls (.standard .any) => true
  | .scalar kind, .cls (.standard s) => s = kind.standardClass
  | .object name, .cls (.declared index) =>
    match List.lookup name names with
    | some (.cls c) => c = .declared index
    | _ => false
  | .array element, .generic false (.standard .list) [d] => isDenoted names element d
  | _, _ => false

private theorem TypeRef.denotes_of_isDenoted {names : Bindings} {type : TypeRef} {d : Referent}
    (h : type.isDenoted names d = true) : type.Denotes names d := by
  fun_induction TypeRef.isDenoted names type d with
  | case1 => exact .null
  | case2 => exact .any
  | case3 kind s => exact of_decide_eq_true h ▸ .scalar kind
  | case4 name index c found =>
    rw [of_decide_eq_true h] at found
    exact .object found
  | case6 element d ih => exact .array (ih h)
  | case5 => cases h
  | case7 => cases h

/-- Whether the annotation of a field denotes this, where these names are bound. -/
def Field.isDenoted (names : Bindings) (field : Field) : Referent → Bool
  | .union false [d, .cls (.standard .noneType)] => field.optional && field.type.isDenoted names d
  | d => !field.optional && field.type.isDenoted names d

private theorem Field.denotes_of_isDenoted {names : Bindings} {field : Field} {d : Referent}
    (h : field.isDenoted names d = true) : field.Denotes names d := by
  rw [isDenoted.eq_def] at h
  split at h
  · obtain ⟨omitted, type⟩ := (Bool.and_eq_true _ _).mp h
    exact .optional omitted (TypeRef.denotes_of_isDenoted type)
  · obtain ⟨given, type⟩ := (Bool.and_eq_true _ _).mp h
    exact .required (by simpa using given) (TypeRef.denotes_of_isDenoted type)

/-- Whether the annotations of the classes of records denote the types of the fields. -/
def World.isAnnotated (world : World) (moduleName : Text) (records : List RecordType) : Bool :=
  records.all fun record => match List.lookup record.name (world.namesOf moduleName) with
    | some (.cls c) => ((Emission.attributeNames record.fields).zip record.fields).all fun pair =>
        match List.lookup pair.1 (world.ownAnnotations c).entries with
        | some d => pair.2.isDenoted (world.namesOf moduleName) d
        | none => false
    | _ => true

private theorem World.annotates_of_isAnnotated {world : World} {moduleName : Text} {records : List RecordType}
    (h : world.isAnnotated moduleName records = true) : world.Annotates moduleName records := by
  intro record hr c hc pair hp
  have hrecord := List.all_eq_true.mp h record hr
  rw [hc] at hrecord
  have hpair := List.all_eq_true.mp hrecord pair hp
  split at hpair
  · rename_i d hd
    exact ⟨d, hd, Field.denotes_of_isDenoted hpair⟩
  · cases hpair

/-- Whether the dataclasses of records load as a module where their annotations denote the types. -/
def World.loadsAnnotated (world : World) (moduleName : Text) (records : List RecordType) : Bool :=
  match (enterModule (fun _ => return ()) (dataclassModule moduleName records)).run.run world with
  | (.ok _, loaded) => loaded.isAnnotated moduleName records
  | _ => false

private theorem World.exists_loaded_of_loadsAnnotated {world : World} {moduleName : Text}
    {records : List RecordType} (h : world.loadsAnnotated moduleName records = true) :
    ∃ loaded, Gives (enterModule (fun _ => return ()) (dataclassModule moduleName records)) world ()
      loaded ∧ loaded.Annotates moduleName records := by
  rw [loadsAnnotated] at h
  split at h
  · rename_i loaded gives
    exact ⟨loaded, gives, annotates_of_isAnnotated h⟩
  · cases h

end Checks

/-- Every sample's root record is restored by the class that is emitted for it, in every module that
loads and whose annotations denote the types of the fields. -/
theorem infer_restores {sample : Document} (h : Json.IsSample sample) (widen : Bool)
    (nameSpace rootName : Text) :
    ∃ result records record, infer widen nameSpace rootName sample = .ok result ∧
      result.graph.dependencyOrder = .ok records ∧
      result.graph.find? result.graph.rootName = some record ∧
      ∀ importOne moduleName world loaded, moduleName ≠ StandardClass.builtinModule →
        Gives (enterModule importOne (dataclassModule moduleName records)) world () loaded →
        loaded.Annotates moduleName records →
        ∃ root members document,
          List.lookup result.graph.rootName (loaded.namesOf moduleName) = some (.cls root) ∧
            loaded.Restores result.graph widen record root members document := by
  have hex := Fingerprint.sha256_isHexadecimal
  obtain ⟨result, _, _, _, hresult, run⟩ := Inference.inferWith_run hex h widen nameSpace rootName
  have wellFormed := run.wellFormed hex
  obtain ⟨nested, root, hrecords, hname⟩ := wellFormed.rootLast
  have hroot : root ∈ result.graph.records := by simp [hrecords]
  obtain ⟨records, order, hperm, layered⟩ :=
    TypeGraph.dependencyOrder_layered (run.layered hex) (hname ▸ List.mem_map_of_mem hroot)
  have finds : ∀ record ∈ records, result.graph.find? record.name = some record := fun record hr =>
    TypeGraph.find?_of_mem wellFormed.names (hperm.mem_iff.mp hr)
  have hin := hperm.mem_iff.mpr hroot
  refine ⟨result, records, root, hresult, order, hname ▸ finds root hin,
    fun importOne moduleName world loaded outside loads annotates => ?_⟩
  have isLoaded := Loading.enterModule_loaded loads layered.nodup
  obtain ⟨k, hk⟩ := List.mem_iff_getElem?.mp hin
  obtain ⟨members, document, restores⟩ :=
    World.restores_of_loaded isLoaded outside annotates layered finds (run.isInhabited hex) widen hk
  exact ⟨_, members, document, hname ▸ isLoaded.bound k root hk, restores⟩

/-- An array of records as an optional field, loaded where nothing but the standard modules is. -/
theorem infer_restores_items :
    let sample : Document := .array
      [.object [("a", .array [.object [("x", .number "1")]])], .object []]
    Json.IsSample sample ∧ ∃ result records record loaded root members document,
      infer true "" "Root" sample = .ok result ∧ result.graph.dependencyOrder = .ok records ∧
      result.graph.find? result.graph.rootName = some record ∧
      Gives (enterModule (fun _ => return ()) (dataclassModule "generated" records)) Library.world ()
        loaded ∧
      loaded.Annotates "generated" records ∧
      List.lookup result.graph.rootName (loaded.namesOf "generated") = some (.cls root) ∧
      loaded.Restores result.graph true record root members document := by
  intro sample
  have h : Json.IsSample sample := ⟨by decide, by decide, by decide⟩
  obtain ⟨result, records, record, hresult, order, found, restores⟩ := infer_restores h true "" "Root"
  have loads : ((infer true "" "Root" sample).toOption.bind
      (·.graph.dependencyOrder.toOption)).any (Library.world.loadsAnnotated "generated") = true := by
    decide +kernel
  rw [hresult, Except.toOption, Option.bind_some, order, Except.toOption, Option.any_some] at loads
  obtain ⟨loaded, gives, annotates⟩ := World.exists_loaded_of_loadsAnnotated loads
  obtain ⟨root, members, document, bound, restored⟩ :=
    restores (fun _ => return ()) "generated" Library.world loaded (by decide) gives annotates
  exact ⟨h, result, records, record, loaded, root, members, document, hresult, order, found, gives,
    annotates, bound, restored⟩

end Specimen
