import Specimen.Proofs.Inference.Run

/-! Records that share a name have the same fields, where the digest tells the canonical texts apart;
records with the same fields share a name always. -/
namespace Specimen.Inference
open Fingerprint (Digest Signature IsLettered)
open Shape (IsKeySet objectsInFields)

/-- Fields of the same keys, types and optional marks, in any order. -/
def SameStructure (left right : List Field) : Prop :=
  ∀ key type optional,
    (∃ field ∈ left, field.key = key ∧ field.type = type ∧ field.optional = optional) ↔
      ∃ field ∈ right, field.key = key ∧ field.type = type ∧ field.optional = optional

theorem SameStructure.of_subsets {left right : List Field}
    (hl : ∀ f ∈ left, ∃ g ∈ right, g.key = f.key ∧ g.type = f.type ∧ g.optional = f.optional)
    (hr : ∀ g ∈ right, ∃ f ∈ left, f.key = g.key ∧ f.type = g.type ∧ f.optional = g.optional) :
    SameStructure left right := by
  intro key type optional
  constructor
  · rintro ⟨field, hf, rfl, rfl, rfl⟩
    exact hl field hf
  · rintro ⟨field, hf, rfl, rfl, rfl⟩
    exact hr field hf

instance (left right : List Field) : Decidable (SameStructure left right) :=
  decidable_of_iff
    ((∀ f ∈ left, ∃ g ∈ right, g.key = f.key ∧ g.type = f.type ∧ g.optional = f.optional) ∧
      ∀ g ∈ right, ∃ f ∈ left, f.key = g.key ∧ f.type = g.type ∧ f.optional = g.optional)
    ⟨fun h => .of_subsets h.1 h.2, fun h => ⟨fun f hf => (h _ _ _).mp ⟨f, hf, rfl, rfl, rfl⟩,
      fun g hg => (h _ _ _).mpr ⟨g, hg, rfl, rfl, rfl⟩⟩⟩

theorem SameStructure.of_same {left right : List Field}
    (h : ∀ field, field ∈ left ↔ field ∈ right) : SameStructure left right :=
  fun _ _ _ => exists_congr fun field => and_congr_left fun _ => h field

section Stands
variable {digest : Digest} {log : List Placement} {builder : Builder}

/-- The signatures of placements are built over lettered digests. -/
theorem Sound.isBuilt (hex : digest.IsHexadecimal) (sound : Sound digest log builder)
    (lettered : digest.LetteredOn (log.map (·.canonical))) {graph : TypeGraph}
    (grows : graph.Grows builder.graph) {shapes : List (Text × Shape × Bool)} {fields : List Field}
    (fits : Fits .empty graph shapes fields) :
    ∀ s ∈ fields.map (signatureOf graph), s.IsBuilt IsLettered := by
  intro s hs
  obtain ⟨field, hf, rfl⟩ := List.mem_map.mp hs
  refine ⟨fits.named field hf, isTypeKey_typeText (fun record hr => ?_) (fits.known field hf)⟩
  obtain ⟨q, hq, -, -, hprint⟩ := sound.made record (grows.mem hr)
  exact Digest.isLettered hex lettered (List.mem_map_of_mem hq) hprint

/-- In a graph without a repeated fingerprint, fields of the same signatures are the same. -/
private theorem mem_of_signatures {graph : TypeGraph}
    (distinct : (graph.records.map (·.fingerprint)).Nodup) {left right : List Field}
    (hl : ∀ field ∈ left, graph.Knows field.type) (hr : ∀ field ∈ right, graph.Knows field.type)
    (h : ∀ s, s ∈ left.map (signatureOf graph) → s ∈ right.map (signatureOf graph)) :
    ∀ field ∈ left, field ∈ right := by
  intro field hf
  obtain ⟨other, ho, he⟩ := List.mem_map.mp (h _ (List.mem_map_of_mem hf))
  have htype := typeText_injective distinct (hr other ho) (hl field hf)
    (congrArg Signature.typeKey he)
  obtain ⟨key, name, type, optional⟩ := field
  obtain ⟨key', name', type', optional'⟩ := other
  obtain ⟨rfl, rfl, -, rfl⟩ := Signature.mk.inj he
  cases htype
  exact ho

/-- Placements of one canonical text have the same fields. -/
private theorem Sound.same_of_canonical (hex : digest.IsHexadecimal) (sound : Sound digest log builder)
    (lettered : digest.LetteredOn (log.map (·.canonical))) {p q : Placement} (hp : p ∈ log)
    (hq : q ∈ log) (h : p.canonical = q.canonical) : ∀ field, field ∈ p.fields ↔ field ∈ q.fields := by
  obtain ⟨gp, fp, -⟩ := sound.placed p hp
  obtain ⟨gq, fq, -⟩ := sound.placed q hq
  have hperm := Fingerprint.perm_of_canonical_eq (sound.isBuilt hex lettered gp fp)
    (sound.isBuilt hex lettered gq fq) h
  rw [← map_signatureOf_grows gp fp.known, ← map_signatureOf_grows gq fq.known] at hperm
  have knownP := fun field hf => (fp.known field hf).grows gp
  have knownQ := fun field hf => (fq.known field hf).grows gq
  exact fun field =>
    ⟨mem_of_signatures sound.prints knownP knownQ (fun s => hperm.mem_iff.mp) field,
      mem_of_signatures sound.prints knownQ knownP (fun s => hperm.mem_iff.mpr) field⟩

/-- Every placement's name leads to a record of its fields. -/
theorem Sound.stands (hex : digest.IsHexadecimal) (sound : Sound digest log builder)
    (injective : digest.InjectiveOn (log.map (·.canonical)))
    (lettered : digest.LetteredOn (log.map (·.canonical))) :
    ∀ p ∈ log, p.Stands builder.graph := by
  intro p hp
  obtain ⟨-, -, -, record, hr, hname, hprint⟩ := sound.placed p hp
  obtain ⟨q, hq, -, hfields, hmade⟩ := sound.made record hr
  have htext := injective _ (List.mem_map_of_mem hq) _ (List.mem_map_of_mem hp)
    (hmade.trans hprint.symm)
  refine ⟨record, hname ▸ TypeGraph.find?_of_mem sound.names hr, fun field => ?_⟩
  rw [← hfields]
  exact sound.same_of_canonical hex lettered hq hp htext field

/-- Placements of the same fields share a name, whatever the digest does. -/
theorem Sound.name_of_same (sound : Sound digest log builder) {p q : Placement} (hp : p ∈ log)
    (hq : q ∈ log) (h : ∀ field, field ∈ p.fields ↔ field ∈ q.fields) : p.name = q.name := by
  obtain ⟨gp, fp, kp, left, hl, hleft, printL⟩ := sound.placed p hp
  obtain ⟨gq, fq, kq, right, hr, hright, printR⟩ := sound.placed q hq
  have nodup : ∀ {p : Placement}, Fits .empty p.graph p.shapes p.fields →
      IsKeySet (p.shapes.map (·.1)) → p.fields.Nodup :=
    fun fits keys => (fits.keys ▸ keys.nodup).of_map
  have hperm : p.fields.Perm q.fields :=
    (List.perm_ext_iff_of_nodup (nodup fp kp) (nodup fq kq)).mpr h
  have htext : p.canonical = q.canonical := by
    rw [Placement.canonical, Placement.canonical, canonicalOf, canonicalOf,
      ← map_signatureOf_grows gp fp.known, ← map_signatureOf_grows gq fq.known]
    exact Fingerprint.canonical_eq_of_perm ((hperm.map _).map _)
  rw [htext, printR] at printL
  have hsame := TypeGraph.findFingerprint?_of_mem sound.prints hl
  rw [← Except.ok.inj printL, TypeGraph.findFingerprint?_of_mem sound.prints hr] at hsame
  rw [← hleft, ← hright, Option.some.inj hsame]

end Stands

theorem Placement.Stands.grows {p : Placement} {a b : TypeGraph} (h : p.Stands a)
    (grows : a.Grows b) : p.Stands b := h.imp fun _ hr => ⟨grows.find? hr.1, hr.2⟩

theorem Placement.Stands.same {p q : Placement} {graph : TypeGraph} (hp : p.Stands graph)
    (hq : q.Stands graph) (name : p.name = q.name) :
    ∀ field, field ∈ p.fields ↔ field ∈ q.fields := by
  obtain ⟨left, hl, sameL⟩ := hp
  obtain ⟨right, hr, sameR⟩ := hq
  rw [← name, hl] at hr
  cases hr
  exact fun field => (sameL field).symm.trans (sameR field)

section Infer
variable {sample : Json.Document} {widen : Bool} {nameSpace rootName : Text}

/-- The canonical texts of the nested records of a sample. -/
def canonicalTexts (widen : Bool) (nameSpace rootName : Text) (sample : Json.Document) : List Text :=
  (nested Fingerprint.sha256 widen nameSpace rootName sample).map (·.canonical)

/-- Inference gives every sample a graph in which the name of each nested record leads to its fields, where
the digest tells their canonical texts apart and its values contain a letter. -/
theorem infer_run (h : Json.IsSample sample)
    (injective : Fingerprint.sha256.InjectiveOn (canonicalTexts widen nameSpace rootName sample))
    (lettered : Fingerprint.sha256.LetteredOn (canonicalTexts widen nameSpace rootName sample)) :
    ∃ result fields builder print, infer widen nameSpace rootName sample = .ok result ∧
      GraphRun Fingerprint.sha256 nameSpace rootName (Shape.ofDocument widen "$" sample).1 fields builder
        print result.graph ∧
      ∀ p ∈ nested Fingerprint.sha256 widen nameSpace rootName sample, p.Stands result.graph := by
  obtain ⟨result, fields, builder, print, hresult, run⟩ :=
    inferWith_run Fingerprint.sha256_isHexadecimal h widen nameSpace rootName
  have sound : Sound Fingerprint.sha256
    (nested Fingerprint.sha256 widen nameSpace rootName sample) builder := run.run.sound
  have stands := sound.stands Fingerprint.sha256_isHexadecimal injective lettered
  exact ⟨result, fields, builder, print, hresult, run, fun p hp => (stands p hp).grows run.grows⟩

/-- Whether an object inside the shape of a sample has the record of a name as its type. -/
def Places (graph : TypeGraph) (widen : Bool) (sample : Json.Document) (name : Text)
    (fields : List (Text × Shape × Bool)) : Prop :=
  graph.Reaches (.object graph.rootName)
    (.object (rootFields (Shape.ofDocument widen "$" sample).1).1) (.object name) (.object fields)

private theorem isBuilt_of_mem_built (h : Json.IsSample sample)
    (lettered : Fingerprint.sha256.LetteredOn (canonicalTexts widen nameSpace rootName sample)) :
    ∀ p ∈ built Fingerprint.sha256 widen nameSpace rootName sample,
      ∀ s ∈ p.signatures, s.IsBuilt IsLettered := by
  obtain ⟨_, fields, builder, print, -, run⟩ :=
    inferWith_run Fingerprint.sha256_isHexadecimal h widen nameSpace rootName
  have sound : Sound Fingerprint.sha256
    (nested Fingerprint.sha256 widen nameSpace rootName sample) builder := run.run.sound
  have fitting : ∀ p ∈ built Fingerprint.sha256 widen nameSpace rootName sample,
      p.graph.Grows builder.graph ∧ Fits .empty p.graph p.shapes p.fields := by
    intro p hp
    rw [built, run.run.ran] at hp
    rcases List.mem_append.mp hp with hp | hp
    · exact ⟨(sound.placed p hp).1, (sound.placed p hp).2.1⟩
    · rw [List.mem_singleton.mp hp]
      exact ⟨.refl _, run.run.fits⟩
  intro p hp
  exact sound.isBuilt Fingerprint.sha256_isHexadecimal lettered (fitting p hp).1 (fitting p hp).2

/-- Where the digest tells the canonical texts of the nested records apart and its values contain a
letter, every object inside the sample's shape has a record of the graph, and objects whose records have
one name are alike: their keys, types and optional marks are the same. To this end the canonical text of
a record determines its signatures, among the records of any two samples. -/
theorem structure_of_name (h : Json.IsSample sample) (widen : Bool) (nameSpace rootName : Text)
    (injective : Fingerprint.sha256.InjectiveOn (canonicalTexts widen nameSpace rootName sample))
    (lettered : Fingerprint.sha256.LetteredOn (canonicalTexts widen nameSpace rootName sample)) :
    ∃ result, infer widen nameSpace rootName sample = .ok result ∧
      (∀ fields ∈ objectsInFields (rootFields (Shape.ofDocument widen "$" sample).1).1,
        ∃ name, Places result.graph widen sample name fields) ∧
      (∀ name left right, Places result.graph widen sample name left →
        Places result.graph widen sample name right → Shape.Alike (.object left) (.object right)) ∧
      (nested Fingerprint.sha256 widen nameSpace rootName sample).map (·.shapes) =
        objectsInFields (rootFields (Shape.ofDocument widen "$" sample).1).1 ∧
      (∀ p ∈ nested Fingerprint.sha256 widen nameSpace rootName sample, p.Stands result.graph) ∧
      (∀ p ∈ nested Fingerprint.sha256 widen nameSpace rootName sample,
        ∀ q ∈ nested Fingerprint.sha256 widen nameSpace rootName sample, p.name = q.name →
          SameStructure p.fields q.fields ∧ Shape.Alike (.object p.shapes) (.object q.shapes)) ∧
      ∀ (other : Json.Document) (widen' : Bool) (nameSpace' rootName' : Text), Json.IsSample other →
        Fingerprint.sha256.LetteredOn (canonicalTexts widen' nameSpace' rootName' other) →
        ∀ p ∈ built Fingerprint.sha256 widen nameSpace rootName sample,
        ∀ q ∈ built Fingerprint.sha256 widen' nameSpace' rootName' other,
          p.canonical = q.canonical → ∀ s, s ∈ p.signatures ↔ s ∈ q.signatures := by
  obtain ⟨result, fields, builder, print, hresult, run, stands⟩ := infer_run h injective lettered
  have sound : Sound Fingerprint.sha256
    (nested Fingerprint.sha256 widen nameSpace rootName sample) builder := run.run.sound
  have realizes := run.realizes stands
  refine ⟨result, hresult, fun fields hf => ?_, fun name left right hl hr => ?_, run.run.objects,
    stands, fun p hp q hq name => ?_, ?_⟩
  · exact realizes.reaches fields (List.mem_append_left _ hf)
  · exact (hl.realizes realizes).alike (hr.realizes realizes)
  · have realizedP := sound.realizes run.run.inner stands (.object hp)
    have realizedQ := sound.realizes run.run.inner stands (.object hq)
    rw [← name] at realizedQ
    exact ⟨.of_same ((stands p hp).same (stands q hq) name), realizedP.alike realizedQ⟩
  · intro other widen' nameSpace' rootName' h' lettered' p hp q hq text s
    exact (Fingerprint.perm_of_canonical_eq (isBuilt_of_mem_built h lettered p hp)
      (isBuilt_of_mem_built h' lettered' q hq) text).mem_iff

/-- Two objects whose keys come in another order, one of them with a semicolon. -/
theorem structure_of_name_reordered :
    let sample : Json.Document := .object
      [("a", .object [("x", .number "1"), ("y;z", .null)]),
        ("b", .object [("y;z", .null), ("x", .number "2")])]
    Json.IsSample sample ∧
      Fingerprint.sha256.InjectiveOn (canonicalTexts true "" "Root" sample) ∧
      Fingerprint.sha256.LetteredOn (canonicalTexts true "" "Root" sample) ∧
      ∃ p ∈ nested Fingerprint.sha256 true "" "Root" sample,
      ∃ q ∈ nested Fingerprint.sha256 true "" "Root" sample,
        p.shapes.map (·.1) ≠ q.shapes.map (·.1) ∧ p.name = q.name ∧
          SameStructure p.fields q.fields ∧ Shape.Alike (.object p.shapes) (.object q.shapes) := by
  intro sample
  have h : Json.IsSample sample := ⟨by decide, by decide, by decide⟩
  have hrun : (∃ p ∈ nested Fingerprint.sha256 true "" "Root" sample,
      ∃ q ∈ nested Fingerprint.sha256 true "" "Root" sample,
        p.shapes.map (·.1) ≠ q.shapes.map (·.1) ∧ p.name = q.name) ∧
      Fingerprint.sha256.InjectiveOn (canonicalTexts true "" "Root" sample) ∧
      Fingerprint.sha256.LetteredOn (canonicalTexts true "" "Root" sample) := by decide +kernel
  obtain ⟨⟨p, hp, q, hq, order, name⟩, injective, lettered⟩ := hrun
  obtain ⟨-, -, -, -, -, -, same, -⟩ := structure_of_name h true "" "Root" injective lettered
  exact ⟨h, injective, lettered, p, hp, q, hq, order, name, same p hp q hq name⟩

end Infer

end Specimen.Inference
