import Specimen.Proofs.Inference.Sharing
import Specimen.Proofs.Schema.Walk

/-! The graph that a naming pass builds: its names, its references, and the order of its records. A pass
adds records in the order in which a walk from the root lists them, because a record that takes an
earlier one's name has added nothing while its fields were named. -/
namespace Specimen

/-- A graph whose names are distinct and unreserved, whose records name no field twice, whose references
lead to records and never back, and whose root is the last record. -/
structure TypeGraph.WellFormed (graph : TypeGraph) : Prop where
  names : (graph.records.map (·.name)).Nodup
  unreserved : ∀ record ∈ graph.records, record.name ∉ Naming.reservedTypeNames
  fieldNames : ∀ record ∈ graph.records, (record.fields.map (·.name)).Nodup
  keys : ∀ record ∈ graph.records, (record.fields.map (·.key)).Nodup
  resolved : ∀ record ∈ graph.records, ∀ field ∈ record.fields, graph.Knows field.type
  acyclic : graph.IsAcyclic
  rootLast : ∃ nested root, graph.records = nested ++ [root] ∧ root.name = graph.rootName

namespace Inference
open Fingerprint (Digest)
open Naming (Scope IsNameOf)
open Shape (IsKeySet objectsIn objectsInFields)
open TypeGraph (Layered Covers targetsOf)

/-- Placing a record gives it the name of one that is there, or adds it under a name that is new. -/
theorem placeRecord_cases {digest : Digest} {requested name : Text} {fields : List Field}
    {builder after : Builder} (h : placeRecord digest requested fields builder = .ok (name, after)) :
    ((∃ record ∈ builder.graph.records, record.name = name) ∧ after = builder) ∨
      (builder.scope.claim (Naming.normalize requested) = (name, after.scope) ∧
        name ∉ builder.graph.records.map (·.name) ∧ ∃ print, after.graph =
          { builder.graph with records := builder.graph.records ++
            [⟨name, builder.graph.nameSpace, fields, print⟩] }) := by
  rw [placeRecord] at h
  cases hp : fingerprintOf digest builder.graph fields with
  | error failure =>
    rw [hp] at h
    cases h
  | ok print =>
    simp only [hp, bind, Except.bind] at h
    split at h
    · rename_i record hf
      cases h
      exact .inl ⟨⟨record, List.mem_of_find?_eq_some hf, rfl⟩, rfl⟩
    · cases hc : builder.scope.claim (Naming.normalize requested) with
      | mk claimed scope =>
        by_cases hin : claimed ∈ builder.graph.records.map (·.name)
        · rw [hc, addRecord, TypeGraph.add, if_pos (TypeGraph.contains_iff.mpr hin)] at h
          cases h
        · rw [hc, addRecord, TypeGraph.add, if_neg (fun hc => hin (TypeGraph.contains_iff.mp hc))] at h
          cases h
          exact .inr ⟨rfl, hin, print, rfl⟩

/-- What placing a record whose fields fit the fields of a shape keeps of a builder. -/
def IsKept (digest : Digest) (P : Builder → Prop) : Prop :=
  ∀ (shapes : List (Text × Shape × Bool)) (fields : List Field) (requested name : Text)
    (builder after : Builder), Fits .empty builder.graph shapes fields →
    placeRecord digest requested fields builder = .ok (name, after) → P builder → P after

section Keeps
variable {digest : Digest} {P : Builder → Prop}

mutual

/-- Naming a shape keeps what placing a record keeps. -/
private theorem nameType_keeps (hex : digest.IsHexadecimal) (step : IsKept digest P) :
    ∀ (shape : Shape) (requested : Text) (builder : Builder)
    (log : List Placement), (∀ fields ∈ shape.objectsIn, IsKeySet (fields.map (·.1))) →
    Sound digest log builder → P builder → ∀ type after,
    nameType digest requested builder shape = .ok (type, after) → P after
  | .null, _, _, _, _, _, kept, _, _, h => by
    cases h
    exact kept
  | .any, _, _, _, _, _, kept, _, _, h => by
    cases h
    exact kept
  | .scalar _, _, _, _, _, _, kept, _, _, h => by
    cases h
    exact kept
  | .array none, _, _, _, _, _, kept, _, _, h => by
    cases h
    exact kept
  | .array (some element), requested, builder, log, keys, sound, kept, _, _, h => by
    obtain ⟨type, after, run⟩ :=
      nameType_run hex element (Naming.singularize requested) builder log keys sound
    simp only [nameType, run.ran, bind, Except.bind] at h
    cases h
    exact nameType_keeps hex step element _ builder log keys sound kept type _ run.ran
  | .object shapes, requested, builder, log, keys, sound, kept, _, _, h => by
    have keys' : ∀ fields ∈ objectsInFields shapes, IsKeySet (fields.map (·.1)) :=
      fun fields hf => keys fields (List.mem_append_left _ hf)
    obtain ⟨fields, inner, run⟩ := nameFields_run hex shapes .empty builder log keys' sound
    have kept' := nameFields_keeps hex step shapes .empty builder log keys' sound kept fields inner run.ran
    simp only [nameType, run.ran, bind, Except.bind] at h
    cases hp : placeRecord digest requested fields inner with
    | error failure =>
      rw [hp] at h
      cases h
    | ok placed =>
      rw [hp] at h
      cases h
      exact step _ _ _ _ _ _ run.fits hp kept'

/-- The same of the fields of an object. -/
private theorem nameFields_keeps (hex : digest.IsHexadecimal) (step : IsKept digest P) :
    ∀ (shapes : List (Text × Shape × Bool)) (scope : Scope)
    (builder : Builder) (log : List Placement),
    (∀ fields ∈ objectsInFields shapes, IsKeySet (fields.map (·.1))) →
    Sound digest log builder → P builder → ∀ fields after,
    nameFields digest scope builder shapes = .ok (fields, after) → P after
  | [], _, _, _, _, _, kept, _, _, h => by
    cases h
    exact kept
  | (key, shape, missing) :: rest, scope, builder, log, keys, sound, kept, _, _, h => by
    have keysHead : ∀ fields ∈ shape.objectsIn, IsKeySet (fields.map (·.1)) :=
      fun fields hf => keys fields (List.mem_append_left _ hf)
    have keysTail : ∀ fields ∈ objectsInFields rest, IsKeySet (fields.map (·.1)) :=
      fun fields hf => keys fields (List.mem_append_right _ hf)
    obtain ⟨type, inner, head⟩ :=
      nameType_run hex shape (scope.claimNormalized key).1 builder log keysHead sound
    obtain ⟨fields, after, tail⟩ :=
      nameFields_run hex rest (scope.claimNormalized key).2 inner _ keysTail head.sound
    simp only [nameFields, head.ran, tail.ran, bind, Except.bind] at h
    cases h
    have kept' := nameType_keeps hex step shape _ builder log keysHead sound kept type inner head.ran
    exact nameFields_keeps hex step rest _ inner _ keysTail head.sound kept' fields _ tail.ran

end

end Keeps

/-- Records in layers, whose names are identifiers, with or without numbers, and none of the reserved ones. -/
structure Orderly (builder : Builder) : Prop where
  layered : Layered builder.graph.records
  named : ∀ record ∈ builder.graph.records, ∃ text, IsNameOf text record.name
  reserved : ∀ name ∈ Naming.reservedTypeNames, builder.scope.isTaken name = true
  unreserved : ∀ record ∈ builder.graph.records, record.name ∉ Naming.reservedTypeNames

private theorem mem_of_known {graph : TypeGraph} {fields : List Field}
    (known : ∀ field ∈ fields, graph.Knows field.type) :
    ∀ name ∈ targetsOf fields, name ∈ graph.records.map (·.name) := by
  intro name hn
  obtain ⟨field, hf, ht⟩ := TypeGraph.mem_targetsOf.mp hn
  obtain ⟨record, hr⟩ := known field hf name ht
  obtain ⟨hin, rfl⟩ := TypeGraph.mem_of_find? hr
  exact List.mem_map_of_mem hin

theorem Orderly.placeRecord {digest : Digest} {shapes : List (Text × Shape × Bool)}
    {fields : List Field} {requested name : Text} {builder after : Builder}
    (fits : Fits .empty builder.graph shapes fields)
    (h : placeRecord digest requested fields builder = .ok (name, after)) (orderly : Orderly builder) :
    Orderly after := by
  rcases placeRecord_cases h with ⟨-, rfl⟩ | ⟨claimed, fresh, print, hgraph⟩
  · exact orderly
  · have free : builder.scope.isTaken name = false := by
      have := Scope.claim_fresh builder.scope (Naming.normalize requested)
      rwa [claimed] at this
    refine ⟨?_, fun record hr => ?_, fun other ho => ?_, fun record hr => ?_⟩
    · rw [hgraph]
      exact .snoc orderly.layered fresh (mem_of_known fits.known)
    · rw [hgraph] at hr
      rcases List.mem_append.mp hr with hr | hr
      · exact orderly.named record hr
      · have := Naming.isNameOf_claim builder.scope requested
        rw [Scope.claimNormalized, claimed] at this
        exact ⟨requested, List.mem_singleton.mp hr ▸ this⟩
    · have := @Scope.isTaken_claim builder.scope (Naming.normalize requested) other
      rw [claimed] at this
      exact this.mpr (.inr (orderly.reserved other ho))
    · rw [hgraph] at hr
      rcases List.mem_append.mp hr with hr | hr
      · exact orderly.unreserved record hr
      · rw [List.mem_singleton.mp hr]
        intro hin
        rw [orderly.reserved name hin] at free
        cases free

section Covers
variable {digest : Digest} {graph : TypeGraph}

/-- Where the name of a placed record leads to its fields, its name covers what was added for it. -/
private theorem covers_placed (layered : Layered graph.records) {requested name : Text}
    {fields : List Field} {before : List RecordType}
    {inner after : Builder} (h : placeRecord digest requested fields inner = .ok (name, after))
    (within : after.graph.Grows graph) (more : before <+: inner.graph.records)
    (covers : graph.Covers before inner.graph.records (targetsOf fields))
    {shapes : List (Text × Shape × Bool)} {met : TypeGraph}
    (stands : Placement.Stands ⟨shapes, fields, met, name⟩ graph) :
    graph.Covers before after.graph.records [name] := by
  rcases placeRecord_cases h with ⟨⟨record, hr, rfl⟩, rfl⟩ | ⟨-, fresh, print, hgraph⟩
  -- a shared record has the same fields, and naming these has then added nothing
  · obtain ⟨found, hf, same⟩ := stands
    rw [TypeGraph.find?_of_mem layered.nodup (within.mem hr)] at hf
    cases hf
    exact covers.shared layered more within.records hr same
  · have hin : ⟨name, inner.graph.nameSpace, fields, print⟩ ∈ graph.records :=
      within.mem (by rw [hgraph]; simp)
    rw [hgraph]
    exact @Covers.added _ _ _ ⟨name, inner.graph.nameSpace, fields, print⟩ covers more
      (TypeGraph.find?_of_mem layered.nodup hin) fresh

mutual

/-- The type that a shape is given covers the records that were added for it. -/
private theorem nameType_covers (hex : digest.IsHexadecimal) (layered : Layered graph.records) :
    ∀ (shape : Shape) (requested : Text) (builder : Builder)
    (log : List Placement), (∀ fields ∈ shape.objectsIn, IsKeySet (fields.map (·.1))) →
    Sound digest log builder → ∀ type after,
    nameType digest requested builder shape = .ok (type, after) → after.graph.Grows graph →
    (∀ p ∈ typePlacements digest requested builder shape, p.Stands graph) →
    graph.Covers builder.graph.records after.graph.records type.target?.toList
  | .null, _, builder, _, _, _, _, _, h, _, _ => by
    cases h
    exact .refl graph _
  | .any, _, builder, _, _, _, _, _, h, _, _ => by
    cases h
    exact .refl graph _
  | .scalar _, _, builder, _, _, _, _, _, h, _, _ => by
    cases h
    exact .refl graph _
  | .array none, _, builder, _, _, _, _, _, h, _, _ => by
    cases h
    exact .refl graph _
  | .array (some element), requested, builder, log, keys, sound, _, _, h, within, stands => by
    obtain ⟨type, after, run⟩ :=
      nameType_run hex element (Naming.singularize requested) builder log keys sound
    simp only [nameType, run.ran, bind, Except.bind] at h
    cases h
    exact nameType_covers hex layered element _ builder log keys sound type _ run.ran within stands
  | .object shapes, requested, builder, log, keys, sound, _, _, h, within, stands => by
    have keys' : ∀ fields ∈ objectsInFields shapes, IsKeySet (fields.map (·.1)) :=
      fun fields hf => keys fields (List.mem_append_left _ hf)
    obtain ⟨fields, inner, run⟩ := nameFields_run hex shapes .empty builder log keys' sound
    simp only [nameType, run.ran, bind, Except.bind] at h
    cases hp : placeRecord digest requested fields inner with
    | error failure =>
      rw [hp] at h
      cases h
    | ok placed =>
      rw [hp] at h
      cases h
      obtain ⟨name, after, hplace, grows, -⟩ :=
        placeRecord_run hex run.sound run.fits (keys shapes (Shape.mem_objectsIn_self shapes)) requested
      cases hp.symm.trans hplace
      simp only [typePlacements, run.ran, hp] at stands
      have covers := nameFields_covers hex layered shapes .empty builder log keys' sound fields inner run.ran
        (grows.trans within) fun p hp => stands p (List.mem_append_left _ hp)
      exact covers_placed layered hp within run.grows.records covers
        (stands _ (List.mem_append_right _ (List.mem_singleton_self _)))

/-- The types of the fields of an object cover the records that were added for them. -/
private theorem nameFields_covers (hex : digest.IsHexadecimal) (layered : Layered graph.records) :
    ∀ (shapes : List (Text × Shape × Bool)) (scope : Scope)
    (builder : Builder) (log : List Placement),
    (∀ fields ∈ objectsInFields shapes, IsKeySet (fields.map (·.1))) →
    Sound digest log builder → ∀ fields after,
    nameFields digest scope builder shapes = .ok (fields, after) → after.graph.Grows graph →
    (∀ p ∈ fieldPlacements digest scope builder shapes, p.Stands graph) →
    graph.Covers builder.graph.records after.graph.records (targetsOf fields)
  | [], _, builder, _, _, _, _, _, h, _, _ => by
    cases h
    exact .refl graph _
  | (key, shape, missing) :: rest, scope, builder, log, keys, sound, _, _, h, within, stands => by
    have keysHead : ∀ fields ∈ shape.objectsIn, IsKeySet (fields.map (·.1)) :=
      fun fields hf => keys fields (List.mem_append_left _ hf)
    have keysTail : ∀ fields ∈ objectsInFields rest, IsKeySet (fields.map (·.1)) :=
      fun fields hf => keys fields (List.mem_append_right _ hf)
    obtain ⟨type, inner, head⟩ :=
      nameType_run hex shape (scope.claimNormalized key).1 builder log keysHead sound
    obtain ⟨fields, after, tail⟩ :=
      nameFields_run hex rest (scope.claimNormalized key).2 inner _ keysTail head.sound
    simp only [nameFields, head.ran, tail.ran, bind, Except.bind] at h
    cases h
    simp only [fieldPlacements, head.ran] at stands
    have covers := nameType_covers hex layered shape _ builder log keysHead sound type inner head.ran
      (tail.grows.trans within) fun p hp => stands p (List.mem_append_left _ hp)
    have covers' := nameFields_covers hex layered rest _ inner _ keysTail head.sound fields _ tail.ran within
      fun p hp => stands p (List.mem_append_right _ hp)
    rw [TypeGraph.targetsOf_cons]
    exact covers.trans covers' tail.grows.records

end

end Covers

private theorem orderly_start (nameSpace rootName : Text) (rootIsArray : Bool) :
    Orderly (start nameSpace rootName rootIsArray) where
  layered := .nil
  named := by simp [start, TypeGraph.empty]
  reserved name hn := Scope.isTaken_claim.mpr (.inr (Scope.isTaken_reserveAll.mpr (.inl hn)))
  unreserved := by simp [start, TypeGraph.empty]

private theorem unreserved_start (nameSpace rootName : Text) (rootIsArray : Bool) :
    (start nameSpace rootName rootIsArray).graph.rootName ∉ Naming.reservedTypeNames := by
  intro hn
  have free : (Scope.empty.reserveAll Naming.reservedTypeNames).isTaken
      (start nameSpace rootName rootIsArray).graph.rootName = false :=
    Scope.claim_fresh _ (Naming.normalize rootName)
  rw [Scope.isTaken_reserveAll.mpr (.inl hn)] at free
  cases free

private theorem Fits.nodup_names {graph : TypeGraph} {shapes : List (Text × Shape × Bool)}
    {fields : List Field} {scope : Scope} (fits : Fits scope graph shapes fields) :
    (fields.map (·.name)).Nodup := by
  rw [fits.names, Scope.claimEach_eq_claimAll]
  exact Scope.nodup_claimAll _ _

namespace GraphRun
variable {digest : Digest} {nameSpace rootName : Text} {shape : Shape} {fields : List Field}
  {builder : Builder} {print : Text} {graph : TypeGraph}
  (run : GraphRun digest nameSpace rootName shape fields builder print graph)
include run

/-- The objects inside the root have distinct keys. -/
private theorem nestedKeys : ∀ inner ∈ objectsInFields (rootFields shape).1, IsKeySet (inner.map (·.1)) := by
  intro inner hi
  rw [← run.run.objects] at hi
  obtain ⟨p, hp, rfl⟩ := List.mem_map.mp hi
  exact (run.run.sound.placed p hp).2.2.1

private theorem orderly (hex : digest.IsHexadecimal) : Orderly builder :=
  nameFields_keeps hex (fun _ _ _ _ _ _ fits placed kept => kept.placeRecord fits placed) _ .empty _ []
    run.nestedKeys (sound_start digest _ _ _) (orderly_start _ _ _) fields builder run.run.ran

theorem layered (hex : digest.IsHexadecimal) : Layered graph.records := by
  rw [run.added]
  refine .snoc (run.orderly hex).layered (fun hin => ?_) (mem_of_known run.run.fits.known)
  obtain ⟨record, hr, he⟩ := List.mem_map.mp hin
  exact run.run.sound.rootFree record hr he

theorem isNameOf_root : IsNameOf rootName graph.rootName := by
  rw [run.grows.rootName, run.run.grows.rootName]
  exact Naming.isNameOf_claim _ rootName

/-- Each record is named by an identifier. -/
theorem named (hex : digest.IsHexadecimal) :
    ∀ record ∈ graph.records, ∃ text, IsNameOf text record.name := by
  intro record hr
  rw [run.added] at hr
  rcases List.mem_append.mp hr with hr | hr
  · exact (run.orderly hex).named record hr
  · rw [List.mem_singleton.mp hr, ← run.grows.rootName]
    exact ⟨rootName, run.isNameOf_root⟩

/-- The records have a dependency order. -/
theorem exists_order (hex : digest.IsHexadecimal) :
    ∃ records, graph.dependencyOrder = .ok records ∧ records.Perm graph.records ∧ Layered records := by
  refine TypeGraph.dependencyOrder_layered (run.layered hex) ?_
  rw [run.added]
  simp

/-- Each record has the fields of an object, named and with distinct keys. -/
theorem exists_fits {record : RecordType} (hr : record ∈ graph.records) :
    ∃ shapes before, before.Grows graph ∧ Fits .empty before shapes record.fields ∧
      IsKeySet (shapes.map (·.1)) := by
  have grows := run.grows
  rw [run.added] at hr
  rcases List.mem_append.mp hr with hr | hr
  · obtain ⟨p, hp, -, hfields, -⟩ := run.run.sound.made record hr
    obtain ⟨hg, fits, keys, -⟩ := run.run.sound.placed p hp
    exact ⟨p.shapes, p.graph, hg.trans grows, hfields ▸ fits, keys⟩
  · rw [List.mem_singleton.mp hr]
    exact ⟨_, builder.graph, grows, run.run.fits, run.keys⟩

/-- No field of a record has a null type inside. -/
theorem typed {record : RecordType} (hr : record ∈ graph.records) :
    ∀ field ∈ record.fields, field.type.innermost ≠ .null := by
  intro field hf
  rw [run.added] at hr
  rcases List.mem_append.mp hr with hr | hr
  · obtain ⟨p, hp, -, hfields, -⟩ := run.run.sound.made record hr
    obtain ⟨own, -, given⟩ := run.run.inner p hp field (hfields ▸ hf)
    exact given.type.typed
  · rw [List.mem_singleton.mp hr] at hf
    obtain ⟨own, -, given⟩ := run.run.given field hf
    exact given.type.typed

theorem wellFormed (hex : digest.IsHexadecimal) : graph.WellFormed where
  names := (run.layered hex).nodup
  unreserved record hr := by
    rw [run.added] at hr
    rcases List.mem_append.mp hr with hr | hr
    · exact (run.orderly hex).unreserved record hr
    · have hname := run.run.grows.rootName
      rw [List.mem_singleton.mp hr, hname]
      exact unreserved_start nameSpace rootName (rootFields shape).2
  fieldNames record hr := by
    obtain ⟨_, _, -, fits, -⟩ := run.exists_fits hr
    exact fits.nodup_names
  keys record hr := by
    obtain ⟨_, _, -, fits, keys⟩ := run.exists_fits hr
    exact fits.keys ▸ keys.nodup
  resolved record hr field hf := by
    obtain ⟨_, _, grows, fits, -⟩ := run.exists_fits hr
    exact (fits.known field hf).grows grows
  acyclic := TypeGraph.isAcyclic_of_layered (run.layered hex)
  rootLast := by
    rw [run.added]
    exact ⟨_, _, rfl, rfl⟩

/-- Where the names of placed records lead to their fields, the root covers all records. -/
theorem covers (hex : digest.IsHexadecimal)
    (stands : ∀ p ∈ fieldPlacements digest .empty (start nameSpace rootName (rootFields shape).2)
      (rootFields shape).1, p.Stands graph) :
    graph.Covers [] graph.records [graph.rootName] := by
  have layered := run.layered hex
  have covers := nameFields_covers hex layered _ .empty _ [] run.nestedKeys (sound_start digest _ _ _)
    fields builder run.run.ran run.grows stands
  have hroot : ⟨builder.graph.rootName, builder.graph.nameSpace, fields, print⟩ ∈ graph.records := by
    rw [run.added]
    simp
  have fresh : builder.graph.rootName ∉ builder.graph.records.map (·.name) := fun hin => by
    obtain ⟨record, hr, he⟩ := List.mem_map.mp hin
    exact run.run.sound.rootFree record hr he
  have added := @Covers.added _ _ _
    ⟨builder.graph.rootName, builder.graph.nameSpace, fields, print⟩ covers
    List.nil_prefix (TypeGraph.find?_of_mem layered.nodup hroot) fresh
  rw [run.grows.rootName]
  have hrecords : graph.records = builder.graph.records ++
      [⟨builder.graph.rootName, builder.graph.nameSpace, fields, print⟩] :=
    congrArg TypeGraph.records run.added
  rw [hrecords]
  exact added

end GraphRun

/-- Inference gives every sample a well-formed graph. Where the digest tells the canonical texts of the
nested records apart and its values contain a letter, references lead from the root to every record, and
the dependency order of the records is the order in which they were added. -/
theorem infer_wellFormed {sample : Json.Document} (h : Json.IsSample sample) (widen : Bool)
    (nameSpace rootName : Text) :
    ∃ result, infer widen nameSpace rootName sample = .ok result ∧ result.graph.WellFormed ∧
      (Fingerprint.sha256.InjectiveOn (canonicalTexts widen nameSpace rootName sample) →
        Fingerprint.sha256.LetteredOn (canonicalTexts widen nameSpace rootName sample) →
        (∀ record ∈ result.graph.records, result.graph.Leads result.graph.rootName record.name) ∧
          result.graph.dependencyOrder = .ok result.graph.records) := by
  have hex := Fingerprint.sha256_isHexadecimal
  obtain ⟨result, fields, builder, print, hresult, run⟩ := inferWith_run hex h widen nameSpace rootName
  refine ⟨result, hresult, run.wellFormed hex, fun injective lettered => ?_⟩
  obtain ⟨result', _, _, _, hresult', run', stands⟩ := infer_run h injective lettered
  cases hresult.symm.trans hresult'
  have covers := run'.covers hex stands
  refine ⟨fun record hr => ?_, covers.dependencyOrder⟩
  obtain hin | ⟨name, hn, leads⟩ := covers.reached record hr
  · cases hin
  · exact List.mem_singleton.mp hn ▸ leads

/-- Two parents of one child, of which the second is the record of the first, and a sibling. -/
theorem infer_wellFormed_reused :
    let sample : Json.Document := .object
      [("a", .object [("c", .object [("x", .number "1")])]),
        ("b", .object [("c", .object [("x", .number "2")])]), ("d", .object [])]
    Json.IsSample sample ∧
      Fingerprint.sha256.InjectiveOn (canonicalTexts true "" "Root" sample) ∧
      Fingerprint.sha256.LetteredOn (canonicalTexts true "" "Root" sample) ∧
      ∃ result, infer true "" "Root" sample = .ok result ∧ result.graph.WellFormed ∧
        (∀ record ∈ result.graph.records, result.graph.Leads result.graph.rootName record.name) ∧
        result.graph.dependencyOrder = .ok result.graph.records := by
  intro sample
  have h : Json.IsSample sample := ⟨by decide, by decide, by decide⟩
  have hdigest : Fingerprint.sha256.InjectiveOn (canonicalTexts true "" "Root" sample) ∧
      Fingerprint.sha256.LetteredOn (canonicalTexts true "" "Root" sample) := by decide +kernel
  obtain ⟨injective, lettered⟩ := hdigest
  obtain ⟨result, hresult, wellFormed, rest⟩ := infer_wellFormed h true "" "Root"
  exact ⟨h, injective, lettered, result, hresult, wellFormed, rest injective lettered⟩

end Inference

end Specimen
