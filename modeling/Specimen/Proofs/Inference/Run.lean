import Specimen.Proofs.Inference.Placement
import Specimen.Proofs.Schema.Digest

/-! A naming pass never fails on a sample, and what every step of it keeps: names and fingerprints of
records stay distinct, and each record stands for the placements that got its name. -/
namespace Specimen.Inference
open Fingerprint (Digest)
open Naming (Scope IsNameOf)
open Shape (IsKeySet objectsIn objectsInFields)
open Text (IsDecimal IsHexLetter)

/-- Named fields fit the fields of a shape: same keys in the same order, names claimed in this order,
optional where the field may be missing or was only ever null, and types that lead into the graph. -/
structure Fits (scope : Scope) (graph : TypeGraph) (shapes : List (Text × Shape × Bool))
    (fields : List Field) : Prop where
  marks : (fields.map fun field => (field.key, field.optional)) =
    shapes.map fun shape => (shape.1, shape.2.2 || shape.2.1.isNull)
  names : fields.map (·.name) = scope.claimEach (shapes.map (·.1))
  named : ∀ field ∈ fields, IsNameOf field.key field.name
  known : ∀ field ∈ fields, graph.Knows field.type

theorem Fits.keys {scope : Scope} {graph : TypeGraph} {shapes : List (Text × Shape × Bool)}
    {fields : List Field} (h : Fits scope graph shapes fields) :
    fields.map (·.key) = shapes.map (·.1) := by
  have := congrArg (List.map Prod.fst) h.marks
  simpa [List.map_map, Function.comp_def] using this

/-- What a naming pass keeps, after it has met the placements of the log. -/
structure Sound (digest : Digest) (log : List Placement) (builder : Builder) : Prop where
  names : (builder.graph.records.map (·.name)).Nodup
  prints : (builder.graph.records.map (·.fingerprint)).Nodup
  taken : ∀ record ∈ builder.graph.records, builder.scope.isTaken record.name = true
  rootTaken : builder.scope.isTaken builder.graph.rootName = true
  rootFree : ∀ record ∈ builder.graph.records, record.name ≠ builder.graph.rootName
  made : ∀ record ∈ builder.graph.records, ∃ p ∈ log, p.name = record.name ∧
    p.fields = record.fields ∧ digest p.canonical = .ok record.fingerprint
  placed : ∀ p ∈ log, p.graph.Grows builder.graph ∧ Fits .empty p.graph p.shapes p.fields ∧
    IsKeySet (p.shapes.map (·.1)) ∧
    ∃ record ∈ builder.graph.records, record.name = p.name ∧
      digest p.canonical = .ok record.fingerprint

section Step
variable {digest : Digest} {log : List Placement} {builder : Builder}

theorem Sound.hexadecimal (hex : digest.IsHexadecimal) (sound : Sound digest log builder) :
    ∀ record ∈ builder.graph.records, ∀ c ∈ record.fingerprint, IsDecimal c ∨ IsHexLetter c := by
  intro record hr
  obtain ⟨p, -, -, -, hp⟩ := sound.made record hr
  exact hex.hexadecimal _ _ hp

/-- Fields that fit have a fingerprint. -/
private theorem exists_fingerprint (hex : digest.IsHexadecimal) (sound : Sound digest log builder)
    {shapes : List (Text × Shape × Bool)} {fields : List Field}
    (fits : Fits .empty builder.graph shapes fields) (keys : IsKeySet (shapes.map (·.1))) :
    ∃ print, digest (canonicalOf builder.graph fields) = .ok print := by
  refine hex.total _ (@Fingerprint.encodable_canonical
    (fun print => ∀ c ∈ print, IsDecimal c ∨ IsHexLetter c) _ (fun _ h => h) ?_ ?_)
  · intro signature hs
    obtain ⟨field, hf, rfl⟩ := List.mem_map.mp hs
    exact ⟨fits.named field hf, isTypeKey_typeText (sound.hexadecimal hex) (fits.known field hf)⟩
  · intro signature hs
    obtain ⟨field, hf, rfl⟩ := List.mem_map.mp hs
    exact keys.encodable _ (fits.keys ▸ List.mem_map_of_mem hf)

/-- A record whose fingerprint the graph has takes the name that goes with it. -/
private theorem sound_shared (sound : Sound digest log builder) {p : Placement}
    (graph : p.graph = builder.graph) (fits : Fits .empty p.graph p.shapes p.fields)
    (keys : IsKeySet (p.shapes.map (·.1))) {record : RecordType}
    (hr : record ∈ builder.graph.records) (name : record.name = p.name)
    (print : digest p.canonical = .ok record.fingerprint) :
    Sound digest (log ++ [p]) builder where
  names := sound.names
  prints := sound.prints
  taken := sound.taken
  rootTaken := sound.rootTaken
  rootFree := sound.rootFree
  made other ho := (sound.made other ho).imp fun _ h => ⟨List.mem_append_left _ h.1, h.2⟩
  placed q hq := by
    rcases List.mem_append.mp hq with hq | hq
    · exact sound.placed q hq
    · rw [List.mem_singleton.mp hq]
      exact ⟨graph ▸ .refl _, fits, keys, record, hr, name, print⟩

/-- A record of a new fingerprint is added under a new name. -/
private theorem sound_added (sound : Sound digest log builder) {p : Placement}
    (graph : p.graph = builder.graph) (fits : Fits .empty p.graph p.shapes p.fields)
    (keys : IsKeySet (p.shapes.map (·.1))) {r : RecordType}
    (name : r.name = p.name) (fields : r.fields = p.fields)
    (print : digest p.canonical = .ok r.fingerprint)
    (fresh : ∀ other ∈ builder.graph.records, other.fingerprint ≠ r.fingerprint)
    {base : Text} (claimed : (builder.scope.claim base).1 = r.name) :
    Sound digest (log ++ [p])
      ⟨{ builder.graph with records := builder.graph.records ++ [r] },
        (builder.scope.claim base).2⟩ := by
  have hfree : builder.scope.isTaken r.name = false :=
    claimed ▸ Scope.claim_fresh builder.scope base
  have hgrows := builder.graph.grows_added r
  have hne : ∀ other ∈ builder.graph.records, other.name ≠ r.name := fun other ho he => by
    rw [← he, sound.taken other ho] at hfree
    cases hfree
  refine ⟨TypeGraph.nodup_added sound.names hne, TypeGraph.nodup_added sound.prints fresh, ?_, ?_, ?_,
    ?_, ?_⟩
  · intro other ho
    rcases List.mem_append.mp ho with ho | ho
    · exact Scope.isTaken_claim.mpr (.inr (sound.taken other ho))
    · rw [List.mem_singleton.mp ho]
      exact Scope.isTaken_claim.mpr (.inl claimed.symm)
  · exact Scope.isTaken_claim.mpr (.inr sound.rootTaken)
  · intro other ho
    rcases List.mem_append.mp ho with ho | ho
    · exact sound.rootFree other ho
    · rw [List.mem_singleton.mp ho]
      intro he
      rw [he, sound.rootTaken] at hfree
      cases hfree
  · intro other ho
    rcases List.mem_append.mp ho with ho | ho
    · exact (sound.made other ho).imp fun _ h => ⟨List.mem_append_left _ h.1, h.2⟩
    · rw [List.mem_singleton.mp ho]
      exact ⟨p, by simp, name.symm, fields.symm, print⟩
  · intro q hq
    rcases List.mem_append.mp hq with hq | hq
    · obtain ⟨hg, hf, hk, other, ho, hrest⟩ := sound.placed q hq
      exact ⟨hg.trans hgrows, hf, hk, other, hgrows.mem ho, hrest⟩
    · rw [List.mem_singleton.mp hq]
      exact ⟨graph ▸ hgrows, fits, keys, r, by simp, name, print⟩

/-- Placing a record never fails, and gives it the name of a record of the graph. -/
theorem placeRecord_run (hex : digest.IsHexadecimal) (sound : Sound digest log builder)
    {shapes : List (Text × Shape × Bool)} {fields : List Field}
    (fits : Fits .empty builder.graph shapes fields) (keys : IsKeySet (shapes.map (·.1)))
    (requested : Text) :
    ∃ name after, placeRecord digest requested fields builder = .ok (name, after) ∧
      builder.graph.Grows after.graph ∧
      Sound digest (log ++ [⟨shapes, fields, builder.graph, name⟩]) after := by
  obtain ⟨print, hprint⟩ := exists_fingerprint hex sound fits keys
  have hfingerprint := fingerprintOf_ok fits.known hprint
  cases hfind : builder.graph.findFingerprint? print with
  | some record =>
    have hp : record.fingerprint = print := by simpa using List.find?_some hfind
    have hplace : placeRecord digest requested fields builder = .ok (record.name, builder) := by
      simp only [placeRecord, hfingerprint, bind, Except.bind, hfind]
      rfl
    refine ⟨record.name, builder, hplace, .refl _, ?_⟩
    exact sound_shared sound (p := ⟨shapes, fields, builder.graph, record.name⟩) rfl fits keys
      (List.mem_of_find?_eq_some hfind) rfl (hp ▸ hprint)
  | none =>
    cases hclaim : builder.scope.claim (Naming.normalize requested) with
    | mk name scope =>
      have hfree := Scope.claim_fresh builder.scope (Naming.normalize requested)
      rw [hclaim] at hfree
      have hfresh : ∀ other ∈ builder.graph.records, other.name ≠ name := fun other ho he => by
        rw [← he, sound.taken other ho] at hfree
        cases hfree
      let record : RecordType := ⟨name, builder.graph.nameSpace, fields, print⟩
      have hadd : builder.graph.add record =
          .ok { builder.graph with records := builder.graph.records ++ [record] } :=
        TypeGraph.add_of_fresh hfresh
      have hplace : placeRecord digest requested fields builder = .ok (name,
          ⟨{ builder.graph with records := builder.graph.records ++ [record] }, scope⟩) := by
        simp only [placeRecord, hfingerprint, bind, Except.bind, hfind, hclaim, addRecord]
        rw [hadd]
        rfl
      refine ⟨name, _, hplace, builder.graph.grows_added record, ?_⟩
      have hnew : ∀ other ∈ builder.graph.records, other.fingerprint ≠ print := by
        simpa using List.find?_eq_none.mp hfind
      have hadded := sound_added sound (p := ⟨shapes, fields, builder.graph, name⟩) rfl fits keys
        (r := record) rfl rfl hprint hnew (congrArg Prod.fst hclaim)
      rwa [hclaim] at hadded

end Step

/-- Naming a shape gives this type and this builder, and keeps what a naming pass keeps. -/
structure TypeRun (digest : Digest) (log : List Placement) (requested : Text) (builder : Builder)
    (shape : Shape) (type : TypeRef) (after : Builder) : Prop where
  ran : nameType digest requested builder shape = .ok (type, after)
  grows : builder.graph.Grows after.graph
  sound : Sound digest (log ++ typePlacements digest requested builder shape) after
  known : after.graph.Knows type
  objects : (typePlacements digest requested builder shape).map (·.shapes) = shape.objectsIn
  given : Given (typePlacements digest requested builder shape) type shape
  inner : ∀ p ∈ typePlacements digest requested builder shape,
    AllGiven (typePlacements digest requested builder shape) p.fields p.shapes

/-- The same of the fields of an object. -/
structure FieldsRun (digest : Digest) (log : List Placement) (scope : Scope) (builder : Builder)
    (shapes : List (Text × Shape × Bool)) (fields : List Field) (after : Builder) : Prop where
  ran : nameFields digest scope builder shapes = .ok (fields, after)
  grows : builder.graph.Grows after.graph
  sound : Sound digest (log ++ fieldPlacements digest scope builder shapes) after
  fits : Fits scope after.graph shapes fields
  objects : (fieldPlacements digest scope builder shapes).map (·.shapes) = objectsInFields shapes
  given : AllGiven (fieldPlacements digest scope builder shapes) fields shapes
  inner : ∀ p ∈ fieldPlacements digest scope builder shapes,
    AllGiven (fieldPlacements digest scope builder shapes) p.fields p.shapes

section Run
variable {digest : Digest}

private theorem typeRun_plain {log : List Placement} {requested : Text} {builder : Builder}
    (sound : Sound digest log builder) {shape : Shape} {type : TypeRef}
    (ran : nameType digest requested builder shape = .ok (type, builder))
    (placements : typePlacements digest requested builder shape = [])
    (objects : shape.objectsIn = []) (target : type.target? = none) (given : Given [] type shape) :
    TypeRun digest log requested builder shape type builder where
  ran := ran
  grows := .refl _
  sound := by rwa [placements, List.append_nil]
  known := TypeGraph.knows_of_target?_eq_none target
  objects := by rw [placements, objects, List.map_nil]
  given := by rwa [placements]
  inner := by simp [placements]

private theorem fieldsRun_cons {log : List Placement} {scope : Scope} {builder inner after : Builder}
    {key : Text} {shape : Shape} {missing : Bool} {rest : List (Text × Shape × Bool)}
    {type : TypeRef} {fields : List Field}
    (head : TypeRun digest log (scope.claimNormalized key).1 builder shape type inner)
    (tail : FieldsRun digest
      (log ++ typePlacements digest (scope.claimNormalized key).1 builder shape)
      (scope.claimNormalized key).2 inner rest fields after) :
    FieldsRun digest log scope builder ((key, shape, missing) :: rest)
      (⟨key, (scope.claimNormalized key).1, type, missing || shape.isNull⟩ :: fields) after := by
  have hplacements : fieldPlacements digest scope builder ((key, shape, missing) :: rest) =
      typePlacements digest (scope.claimNormalized key).1 builder shape ++
        fieldPlacements digest (scope.claimNormalized key).2 inner rest := by
    rw [fieldPlacements, head.ran]
  refine ⟨?_, head.grows.trans tail.grows, ?_, ⟨?_, ?_, ?_, ?_⟩, ?_, ?_, ?_⟩
  · simp only [nameFields, head.ran, bind, Except.bind, tail.ran]
    rfl
  · rw [hplacements, ← List.append_assoc]
    exact tail.sound
  · rw [List.map_cons, List.map_cons, tail.fits.marks]
  · rw [List.map_cons, List.map_cons, Scope.claimEach, tail.fits.names]
  · intro field hf
    rcases List.mem_cons.mp hf with rfl | hf
    · exact Naming.isNameOf_claim scope key
    · exact tail.fits.named field hf
  · intro field hf
    rcases List.mem_cons.mp hf with rfl | hf
    · exact head.known.grows tail.grows
    · exact tail.fits.known field hf
  · rw [hplacements, List.map_append, head.objects, tail.objects, objectsInFields]
  · rw [hplacements]
    intro field hf
    rcases List.mem_cons.mp hf with rfl | hf
    · exact ⟨(key, shape, missing), List.mem_cons_self, rfl, rfl,
        head.given.mono (List.subset_append_left _ _)⟩
    · obtain ⟨own, ho, given⟩ := tail.given.mono (List.subset_append_right _ _) field hf
      exact ⟨own, List.mem_cons_of_mem _ ho, given⟩
  · rw [hplacements]
    intro p hp
    rcases List.mem_append.mp hp with hp | hp
    · exact (head.inner p hp).mono (List.subset_append_left _ _)
    · exact (tail.inner p hp).mono (List.subset_append_right _ _)

private theorem typeRun_object {log : List Placement} {requested : Text} {builder inner : Builder}
    (hex : digest.IsHexadecimal) {shapes : List (Text × Shape × Bool)} {fields : List Field}
    (keys : IsKeySet (shapes.map (·.1)))
    (run : FieldsRun digest log .empty builder shapes fields inner) :
    ∃ type after, TypeRun digest log requested builder (.object shapes) type after := by
  obtain ⟨name, after, hplace, hgrows, hsound⟩ :=
    placeRecord_run hex run.sound run.fits keys requested
  have hplacements : typePlacements digest requested builder (.object shapes) =
      fieldPlacements digest .empty builder shapes ++ [⟨shapes, fields, inner.graph, name⟩] := by
    simp only [typePlacements, run.ran, hplace]
  refine ⟨.object name, after, ?_, run.grows.trans hgrows, ?_, ?_, ?_, ?_, ?_⟩
  · simp only [nameType, run.ran, bind, Except.bind, hplace]
    rfl
  · rw [hplacements, ← List.append_assoc]
    exact hsound
  · obtain ⟨-, -, -, record, hr, hname, -⟩ :=
      hsound.placed _ (List.mem_append_right _ (List.mem_singleton_self _))
    have hfind := TypeGraph.find?_of_mem hsound.names hr
    rw [hname] at hfind
    exact TypeGraph.knows_object hfind
  · rw [hplacements, List.map_append, run.objects, objectsIn]
    rfl
  · rw [hplacements]
    exact @Given.object _ ⟨shapes, fields, inner.graph, name⟩ (by simp)
  · rw [hplacements]
    intro p hp
    rcases List.mem_append.mp hp with hp | hp
    · exact (run.inner p hp).mono (List.subset_append_left _ _)
    · rw [List.mem_singleton.mp hp]
      exact run.given.mono (List.subset_append_left _ _)

mutual

/-- Naming a shape never fails. -/
theorem nameType_run (hex : digest.IsHexadecimal) : ∀ (shape : Shape) (requested : Text)
    (builder : Builder) (log : List Placement), (∀ fields ∈ shape.objectsIn, IsKeySet (fields.map (·.1))) →
    Sound digest log builder →
    ∃ type after, TypeRun digest log requested builder shape type after
  | .null, _, builder, _, _, sound =>
    ⟨.any, builder, typeRun_plain sound rfl rfl rfl rfl .null⟩
  | .any, _, builder, _, _, sound =>
    ⟨.any, builder, typeRun_plain sound rfl rfl rfl rfl .any⟩
  | .scalar kind, _, builder, _, _, sound =>
    ⟨.scalar kind, builder, typeRun_plain sound rfl rfl rfl rfl (.scalar kind)⟩
  | .array none, _, builder, _, _, sound =>
    ⟨.array .any, builder, typeRun_plain sound rfl rfl rfl rfl .emptyArray⟩
  | .array (some element), requested, builder, log, keys, sound => by
    obtain ⟨type, after, run⟩ :=
      nameType_run hex element (Naming.singularize requested) builder log keys sound
    refine ⟨.array type, after, ?_, run.grows, run.sound, run.known, run.objects, .array run.given,
      run.inner⟩
    simp only [nameType, run.ran, bind, Except.bind]
    rfl
  | .object shapes, requested, builder, log, keys, sound => by
    obtain ⟨fields, inner, run⟩ := nameFields_run hex shapes .empty builder log
      (fun fields hf => keys fields (List.mem_append_left _ hf)) sound
    exact typeRun_object hex (keys shapes (List.mem_append_right _ (by simp))) run

/-- Naming the fields of an object never fails. -/
theorem nameFields_run (hex : digest.IsHexadecimal) : ∀ (shapes : List (Text × Shape × Bool))
    (scope : Scope) (builder : Builder) (log : List Placement),
    (∀ fields ∈ objectsInFields shapes, IsKeySet (fields.map (·.1))) →
    Sound digest log builder →
    ∃ fields after, FieldsRun digest log scope builder shapes fields after
  | [], _, builder, _, _, sound =>
    ⟨[], builder, rfl, .refl _, by rwa [fieldPlacements, List.append_nil],
      ⟨rfl, rfl, by simp, by simp⟩, rfl, by simp [AllGiven], by simp [fieldPlacements]⟩
  | (key, shape, missing) :: rest, scope, builder, log, keys, sound => by
    obtain ⟨type, inner, head⟩ := nameType_run hex shape (scope.claimNormalized key).1 builder log
      (fun fields hf => keys fields (List.mem_append_left _ hf)) sound
    obtain ⟨fields, after, tail⟩ := nameFields_run hex rest (scope.claimNormalized key).2 inner _
      (fun fields hf => keys fields (List.mem_append_right _ hf)) head.sound
    exact ⟨_, after, fieldsRun_cons head tail⟩

end

end Run

section Given
variable {digest : Digest} {log : List Placement} {builder : Builder}

/-- A type given for a shape has its structure, when the name of each record met leads to its fields. -/
theorem Sound.realizes (sound : Sound digest log builder)
    (inner : ∀ p ∈ log, AllGiven log p.fields p.shapes) {graph : TypeGraph}
    (stands : ∀ p ∈ log, p.Stands graph) {type : TypeRef} {shape : Shape}
    (given : Given log type shape) : graph.Realizes type shape := by
  induction given using Given.shapeRec with
  | null => exact .null
  | any => exact .any
  | scalar kind => exact .scalar kind
  | emptyArray => exact .emptyArray
  | array element ih => exact .array ih
  | @object p met ih =>
    obtain ⟨record, hf, same⟩ := stands p met
    obtain ⟨-, fits, keys, -⟩ := sound.placed p met
    refine TypeGraph.realizes_object hf same fits.keys keys.nodup fun field hfield => ?_
    obtain ⟨own, ho, given⟩ := inner p met field hfield
    exact ⟨own, ho, given.key, given.optional, ih own ho given.type⟩

end Given

section Graph
variable {digest : Digest}

theorem sound_start (digest : Digest) (nameSpace rootName : Text) (rootIsArray : Bool) :
    Sound digest [] (start nameSpace rootName rootIsArray) where
  names := List.nodup_nil
  prints := List.nodup_nil
  taken := by simp [start, TypeGraph.empty]
  rootTaken := Scope.isTaken_claim.mpr (.inl rfl)
  rootFree := by simp [start, TypeGraph.empty]
  made := by simp [start, TypeGraph.empty]
  placed := by simp

/-- Naming gives a shape this graph: the root record stands behind those of the nested ones. -/
structure GraphRun (digest : Digest) (nameSpace rootName : Text) (shape : Shape) (fields : List Field)
    (builder : Builder) (print : Text) (graph : TypeGraph) : Prop where
  ran : graphOf digest nameSpace rootName shape = .ok graph
  run : FieldsRun digest [] .empty (start nameSpace rootName (rootFields shape).2)
    (rootFields shape).1 fields builder
  keys : IsKeySet ((rootFields shape).1.map (·.1))
  printed : digest (canonicalOf builder.graph fields) = .ok print
  added : graph = { builder.graph with records := builder.graph.records ++
    [⟨builder.graph.rootName, builder.graph.nameSpace, fields, print⟩] }

namespace GraphRun
variable {nameSpace rootName : Text} {shape : Shape} {fields : List Field} {builder : Builder}
  {print : Text} {graph : TypeGraph}

theorem grows (run : GraphRun digest nameSpace rootName shape fields builder print graph) :
    builder.graph.Grows graph := by
  rw [run.added]
  exact TypeGraph.grows_added _ _

theorem rootIsArray (run : GraphRun digest nameSpace rootName shape fields builder print graph) :
    graph.rootIsArray = (rootFields shape).2 := by
  rw [run.grows.rootIsArray, run.run.grows.rootIsArray]
  rfl

/-- A record of another name than the root's is one of a placement. -/
theorem mem_of_ne (run : GraphRun digest nameSpace rootName shape fields builder print graph)
    {record : RecordType} (hr : record ∈ graph.records) (hne : record.name ≠ graph.rootName) :
    record ∈ builder.graph.records := by
  rw [run.added] at hr hne
  rcases List.mem_append.mp hr with hr | hr
  · exact hr
  · exact absurd (by rw [List.mem_singleton.mp hr]) hne

/-- The root's name leads to the fields of the root. -/
theorem found (run : GraphRun digest nameSpace rootName shape fields builder print graph) :
    ∃ record, graph.find? graph.rootName = some record ∧ record.fields = fields := by
  rw [run.added]
  exact ⟨_, @TypeGraph.find?_of_fresh _ ⟨builder.graph.rootName, builder.graph.nameSpace, fields,
    print⟩ run.run.sound.rootFree, rfl⟩

/-- The root record has the structure of the root, when the name of each nested one leads to its
fields. -/
theorem realizes (run : GraphRun digest nameSpace rootName shape fields builder print graph)
    (stands : ∀ p ∈ fieldPlacements digest .empty (start nameSpace rootName (rootFields shape).2)
      (rootFields shape).1, p.Stands graph) :
    graph.Realizes (.object graph.rootName) (.object (rootFields shape).1) := by
  obtain ⟨record, hf, hfields⟩ := run.found
  refine TypeGraph.realizes_object hf (fun _ => by rw [hfields]) run.run.fits.keys run.keys.nodup
    fun field hfield => ?_
  obtain ⟨own, ho, given⟩ := run.run.given field hfield
  exact ⟨own, ho, given.key, given.optional, run.run.sound.realizes run.run.inner stands given.type⟩

end GraphRun

/-- What holds of the names of every object in a shape holds of those of its root and of the objects in that,
if it holds of the wrapper's. -/
theorem forall_rootFields {p : List Text → Prop} (wrapper : p [wrapperKey]) {shape : Shape} :
    (p ((rootFields shape).1.map (·.1)) ∧ ∀ fields ∈ objectsInFields (rootFields shape).1, p (fields.map (·.1))) ↔
      ∀ fields ∈ shape.objectsIn, p (fields.map (·.1)) := by
  have wrapped : (p (([(wrapperKey, shape, false)] : List (Text × Shape × Bool)).map (·.1)) ∧
      ∀ fields ∈ objectsInFields [(wrapperKey, shape, false)], p (fields.map (·.1))) ↔
      ∀ fields ∈ shape.objectsIn, p (fields.map (·.1)) := by
    simp [objectsInFields, wrapper]
  have record (inner : List (Text × Shape × Bool)) : (p (inner.map (·.1)) ∧
      ∀ fields ∈ objectsInFields inner, p (fields.map (·.1))) ↔
      ∀ fields ∈ (Shape.object inner).objectsIn, p (fields.map (·.1)) := by
    simp [objectsIn, or_imp, forall_and, and_comm]
  rcases shape with _ | _ | kind | (_ | (_ | _ | kind | element | inner)) | inner
  all_goals first | exact record _ | exact wrapped

theorem isKeySet_wrapper : IsKeySet [wrapperKey] := ⟨by simp, by simp [wrapperKey]⟩

/-- A graph in which the root stands behind sound records is valid. -/
private theorem validate_root {log : List Placement} {builder : Builder} {fields : List Field}
    (sound : Sound digest log builder) (known : ∀ field ∈ fields, builder.graph.Knows field.type)
    (nameSpace print : Text) :
    ({ builder.graph with records := builder.graph.records ++
      [⟨builder.graph.rootName, nameSpace, fields, print⟩] } : TypeGraph).validate = .ok () := by
  have hgrows := builder.graph.grows_added ⟨builder.graph.rootName, nameSpace, fields, print⟩
  refine @TypeGraph.validate_ok _ ⟨builder.graph.rootName, nameSpace, fields, print⟩ ?_ ?_
  · exact TypeGraph.find?_of_fresh sound.rootFree
  · intro record hr field hf
    rcases List.mem_append.mp hr with hr | hr
    · obtain ⟨p, hp, -, hfields, -⟩ := sound.made record hr
      obtain ⟨hg, hfits, -⟩ := sound.placed p hp
      exact (hfits.known field (hfields ▸ hf)).grows (hg.trans hgrows)
    · rw [List.mem_singleton.mp hr] at hf
      exact (known field hf).grows hgrows

theorem graphOf_eq (digest : Digest) (nameSpace rootName : Text) {shape : Shape}
    {begin : Builder} (h : start nameSpace rootName (rootFields shape).2 = begin) :
    graphOf digest nameSpace rootName shape = do
      let (fields, builder) ← nameFields digest .empty begin (rootFields shape).1
      let fingerprint ← fingerprintOf digest builder.graph fields
      let builder ← addRecord builder begin.graph.rootName fingerprint fields
      orGraphFault builder.graph.validate
      return builder.graph := by
  subst h
  rfl

/-- Every shape with orderly objects gets a graph. -/
private theorem graphOf_run (hex : digest.IsHexadecimal) {shape : Shape}
    (keys : ∀ fields ∈ shape.objectsIn, IsKeySet (fields.map (·.1))) (nameSpace rootName : Text) :
    ∃ fields builder print graph,
      GraphRun digest nameSpace rootName shape fields builder print graph := by
  obtain ⟨hroot, hinner⟩ := (forall_rootFields isKeySet_wrapper).mpr keys
  obtain ⟨fields, builder, run⟩ := nameFields_run hex (rootFields shape).1 .empty
    (start nameSpace rootName (rootFields shape).2) [] hinner (sound_start digest _ _ _)
  obtain ⟨print, hprint⟩ := exists_fingerprint hex run.sound run.fits hroot
  refine ⟨fields, builder, print, _, ?_, run, hroot, hprint, rfl⟩
  have hadd : builder.graph.add ⟨builder.graph.rootName, builder.graph.nameSpace, fields, print⟩ =
      .ok { builder.graph with records := builder.graph.records ++
        [⟨builder.graph.rootName, builder.graph.nameSpace, fields, print⟩] } :=
    TypeGraph.add_of_fresh run.sound.rootFree
  rw [graphOf_eq digest nameSpace rootName rfl, run.ran, ← run.grows.rootName]
  simp only [bind, Except.bind, fingerprintOf_ok run.fits.known hprint, addRecord]
  rw [hadd]
  simp only [orGraphFault, Except.mapError, pure, Except.pure]
  rw [validate_root run.sound run.fits.known]

/-- Inference gives a document the graph of its shape, where the objects in that are orderly. -/
theorem inferWith_of_keys (hex : digest.IsHexadecimal) {document : Json.Document} {widen : Bool}
    (shallow : document.depth ≤ Json.documentNesting)
    (keys : ∀ fields ∈ (Shape.ofDocument widen "$" document).1.objectsIn, IsKeySet (fields.map (·.1)))
    (nameSpace rootName : Text) :
    ∃ result fields builder print, inferWith digest widen nameSpace rootName document = .ok result ∧
      GraphRun digest nameSpace rootName (Shape.ofDocument widen "$" document).1 fields builder print
        result.graph := by
  obtain ⟨fields, builder, print, graph, run⟩ := graphOf_run hex keys nameSpace rootName
  refine ⟨⟨graph, (Shape.ofDocument widen "$" document).2⟩, fields, builder, print, ?_, run⟩
  rw [inferWith, if_neg (Nat.not_lt.mpr shallow)]
  simp only [run.ran, bind, Except.bind]
  rfl

/-- Inference gives every sample a graph. -/
theorem inferWith_run (hex : digest.IsHexadecimal) {sample : Json.Document}
    (h : Json.IsSample sample) (widen : Bool) (nameSpace rootName : Text) :
    ∃ result fields builder print, inferWith digest widen nameSpace rootName sample = .ok result ∧
      GraphRun digest nameSpace rootName (Shape.ofDocument widen "$" sample).1 fields builder print
        result.graph :=
  inferWith_of_keys hex h.shallow (Shape.isKeySet_of_mem_objectsIn h widen "$") nameSpace rootName

end Graph

end Specimen.Inference
