import Specimen.Proofs.Inference.Sharing

/-! The names of records do not depend on the order of their keys, as long as this does not change which
key gets which identifier. -/
namespace Specimen.Inference
open Fingerprint (Digest)

/-- Equal keys have equal identifiers. -/
def NamesAgree (left right : List Field) : Prop :=
  ∀ field ∈ left, ∀ other ∈ right, field.key = other.key → field.name = other.name

instance (left right : List Field) : Decidable (NamesAgree left right) :=
  inferInstanceAs (Decidable (∀ field ∈ left, ∀ other ∈ right,
    field.key = other.key → field.name = other.name))

section Names
variable {left right : List Field}

private theorem mem_of_agree (same : SameStructure left right) (agree : NamesAgree left right) :
    ∀ field ∈ left, field ∈ right := by
  intro field hf
  obtain ⟨other, ho, key, type, optional⟩ :=
    (same field.key field.type field.optional).mp ⟨field, hf, rfl, rfl, rfl⟩
  have hname := agree field hf other ho key.symm
  have : field = other := by
    cases field
    cases other
    simp_all
  exact this ▸ ho

/-- Fields of the same structure whose keys have the same identifiers are the same. -/
private theorem SameStructure.same_of_agree (same : SameStructure left right)
    (agree : NamesAgree left right) : ∀ field, field ∈ left ↔ field ∈ right := fun field =>
  ⟨mem_of_agree same agree field, mem_of_agree (fun _ _ _ => (same _ _ _).symm)
    (fun f hf g hg key => (agree g hg f hf key.symm).symm) field⟩

theorem SameStructure.keys (same : SameStructure left right) :
    ∀ key, key ∈ left.map (·.key) ↔ key ∈ right.map (·.key) := by
  have sub : ∀ {left right : List Field}, SameStructure left right →
      ∀ key, key ∈ left.map (·.key) → key ∈ right.map (·.key) := by
    intro left right same key hk
    obtain ⟨field, hf, rfl⟩ := List.mem_map.mp hk
    obtain ⟨_, ho, he, -⟩ := (same _ _ _).mp ⟨field, hf, rfl, rfl, rfl⟩
    exact he ▸ List.mem_map_of_mem ho
  exact fun key => ⟨sub same key, sub (fun _ _ _ => (same _ _ _).symm) key⟩

private theorem agree_of_same (distinct : (right.map (·.key)).Nodup)
    (h : ∀ field, field ∈ left ↔ field ∈ right) : NamesAgree left right :=
  fun field hf _ ho key =>
    congrArg Field.name (List.inj_on_of_nodup_map distinct ((h field).mp hf) ho key)

end Names

/-- Named fields agree when their keys, claimed in order, do. -/
private theorem Fits.agree_iff {a b : TypeGraph} {shapes others : List (Text × Shape × Bool)}
    {left right : List Field} (hl : Fits .empty a shapes left) (hr : Fits .empty b others right) :
    Naming.Agree (shapes.map (·.1)) (others.map (·.1)) ↔ NamesAgree left right := by
  have named : ∀ {graph : TypeGraph} {shapes : List (Text × Shape × Bool)} {fields : List Field},
      Fits .empty graph shapes fields →
      Naming.named (shapes.map (·.1)) = fields.map fun field => (field.key, field.name) := by
    intro graph shapes fields fits
    rw [Naming.named, ← fits.names, ← fits.keys, List.zip_map']
  rw [Naming.Agree, named hl, named hr]
  simp only [List.forall_mem_map]
  rfl

/-- Shapes of the same structure whose objects give equal keys equal identifiers, at any depth. -/
abbrev AlikeNamed : Shape → Shape → Prop := Shape.AlikeBy Naming.Agree

/-- Where no object has two keys of one identifier, shapes of the same structure give equal keys equal
identifiers. -/
private theorem alikeNamed_of_distinct {left right : Shape} (alike : Shape.Alike left right)
    (distinct : ∀ fields ∈ left.objectsIn ++ right.objectsIn,
      ((fields.map (·.1)).map Naming.normalize).Nodup) : AlikeNamed left right := by
  induction alike with
  | untyped hl hr => exact .untyped hl hr
  | scalar kind => exact .scalar kind
  | @array left right _ ih =>
    have objects : ∀ element : Option Shape,
        (Shape.array element).objectsIn = (element.getD .any).objectsIn := by
      intro element
      cases element <;> rfl
    rw [objects left, objects right] at distinct
    exact .array (ih distinct)
  | @object left right _ keys optional types ih =>
    rw [List.forall_mem_append] at distinct
    obtain ⟨hl, hr⟩ := distinct
    refine .object (Naming.agree_of_distinct (hl left (Shape.mem_objectsIn_self left))
      (hr right (Shape.mem_objectsIn_self right))) keys optional fun x hx y hy key => ?_
    refine ih x hx y hy key (List.forall_mem_append.mpr ⟨fun fields hf => ?_, fun fields hf => ?_⟩)
    · exact hl fields (Shape.mem_objectsIn_field hx hf)
    · exact hr fields (Shape.mem_objectsIn_field hy hf)

section Given
variable {digest : Digest} {log : List Placement} {builder : Builder} {p q : Placement}

private theorem eq_any_of_untyped {type : TypeRef} {shape : Shape} (given : Given log type shape)
    (h : shape.isUntyped = true) : type = .any := by
  cases given with
  | null | any => rfl
  | _ => cases h

private theorem exists_element {type : TypeRef} {element : Option Shape}
    (given : Given log type (.array element)) :
    ∃ inner, type = .array inner ∧ Given log inner (element.getD .any) := by
  cases given with
  | emptyArray => exact ⟨.any, rfl, .any⟩
  | array inner => exact ⟨_, rfl, inner⟩

private theorem exists_placement {name : Text} {shape : Shape}
    (given : Given log (.object name) shape) : ∃ p ∈ log, p.name = name ∧ shape = .object p.shapes := by
  cases given with
  | object met => exact ⟨_, met, rfl, rfl⟩

/-- Each field of an object has a field that is given for it. -/
theorem Sound.exists_field (sound : Sound digest log builder) (hp : p ∈ log)
    (given : AllGiven log p.fields p.shapes) :
    ∀ shape ∈ p.shapes, ∃ field ∈ p.fields, FieldGiven log field shape := by
  intro shape hs
  obtain ⟨-, fits, keys, -⟩ := sound.placed p hp
  have hk : shape.1 ∈ p.fields.map (·.key) := by
    rw [fits.keys]
    exact List.mem_map_of_mem hs
  obtain ⟨field, hf, key⟩ := List.mem_map.mp hk
  obtain ⟨own, ho, hg⟩ := given field hf
  have hown : own = shape :=
    List.inj_on_of_nodup_map keys.nodup ho hs (hg.key.symm.trans key)
  exact ⟨field, hf, hown ▸ hg⟩

private theorem subset_of_types (sound : Sound digest log builder)
    (inner : ∀ p ∈ log, AllGiven log p.fields p.shapes) (hp : p ∈ log) (hq : q ∈ log)
    (keys : ∀ key ∈ p.shapes.map (·.1), key ∈ q.shapes.map (·.1))
    (optional : ∀ x ∈ p.shapes, ∀ y ∈ q.shapes, x.1 = y.1 →
      Shape.isOptional x = Shape.isOptional y)
    (types : ∀ x ∈ p.shapes, ∀ y ∈ q.shapes, x.1 = y.1 → ∀ {left right : TypeRef},
      Given log left x.2.1 → Given log right y.2.1 → left = right) :
    ∀ field ∈ p.fields, ∃ other ∈ q.fields,
      other.key = field.key ∧ other.type = field.type ∧ other.optional = field.optional := by
  intro field hf
  obtain ⟨x, hx, given⟩ := inner p hp field hf
  obtain ⟨y, hy, key⟩ := List.mem_map.mp (keys x.1 (List.mem_map_of_mem hx))
  obtain ⟨other, ho, given'⟩ := sound.exists_field hq (inner q hq) y hy
  refine ⟨other, ho, ?_, (types x hx y hy key.symm given.type given'.type).symm, ?_⟩
  · rw [given'.key, key, given.key]
  · rw [given'.optional, given.optional, optional x hx y hy key.symm]

/-- Types given for shapes that are alike, identifiers included, are the same. -/
theorem Sound.type_eq (sound : Sound digest log builder)
    (inner : ∀ p ∈ log, AllGiven log p.fields p.shapes) {left right : Shape}
    (alike : AlikeNamed left right) {type other : TypeRef} (hl : Given log type left)
    (hr : Given log other right) : type = other := by
  induction alike generalizing type other with
  | untyped ul ur => rw [eq_any_of_untyped hl ul, eq_any_of_untyped hr ur]
  | scalar kind =>
    cases hl
    cases hr
    rfl
  | array _ ih =>
    obtain ⟨type, rfl, elementL⟩ := exists_element hl
    obtain ⟨other, rfl, elementR⟩ := exists_element hr
    rw [ih elementL elementR]
  | object agreed keys optional types ih =>
    cases hl with
    | @object p hp =>
      cases hr with
      | @object q hq =>
        obtain ⟨-, fp, -⟩ := sound.placed p hp
        obtain ⟨-, fq, -⟩ := sound.placed q hq
        have same : SameStructure p.fields q.fields := .of_subsets
          (subset_of_types sound inner hp hq (fun key => (keys key).mp) optional ih)
          (subset_of_types sound inner hq hp (fun key => (keys key).mpr)
            (fun y hy x hx key => (optional x hx y hy key.symm).symm)
            fun y hy x hx key _ _ hy' hx' => (ih x hx y hy key.symm hx' hy').symm)
        rw [sound.name_of_same hp hq (same.same_of_agree ((fp.agree_iff fq).mp agreed))]

/-- Shapes that one type is given for are alike, identifiers included, where records of one name have
the same fields. -/
private theorem Sound.alikeNamed (sound : Sound digest log builder)
    (inner : ∀ p ∈ log, AllGiven log p.fields p.shapes)
    (same : ∀ p ∈ log, ∀ q ∈ log, p.name = q.name → ∀ field, field ∈ p.fields ↔ field ∈ q.fields)
    {type : TypeRef} {left right : Shape} (hl : Given log type left) (hr : Given log type right) :
    AlikeNamed left right := by
  induction hl using Given.shapeRec generalizing right with
  | null | any => cases hr <;> exact .untyped rfl rfl
  | scalar kind =>
    cases hr
    exact .scalar kind
  | emptyArray =>
    cases hr with
    | emptyArray => exact .array (.untyped rfl rfl)
    | array element => cases element <;> exact .array (.untyped rfl rfl)
  | array element ih =>
    cases hr with
    | emptyArray => exact .array (ih .any)
    | array other => exact .array (ih other)
  | @object p hp ih =>
    obtain ⟨q, hq, name, rfl⟩ := exists_placement hr
    obtain ⟨-, fp, -⟩ := sound.placed p hp
    obtain ⟨-, fq, kq, -⟩ := sound.placed q hq
    have hsame := same p hp q hq name.symm
    have distinct : (q.fields.map (·.key)).Nodup := fq.keys ▸ kq.nodup
    have shared : ∀ x ∈ p.shapes, ∀ y ∈ q.shapes, x.1 = y.1 →
        ∃ field, FieldGiven log field x ∧ FieldGiven log field y := by
      intro x hx y hy key
      obtain ⟨field, hf, given⟩ := sound.exists_field hp (inner p hp) x hx
      obtain ⟨other, ho, given'⟩ := sound.exists_field hq (inner q hq) y hy
      have he : field = other := List.inj_on_of_nodup_map distinct ((hsame field).mp hf) ho
        (given.key.trans (key.trans given'.key.symm))
      exact ⟨field, given, he ▸ given'⟩
    refine .object ((fp.agree_iff fq).mpr (agree_of_same distinct hsame)) (fun key => ?_) ?_ ?_
    · rw [← fp.keys, ← fq.keys]
      exact (SameStructure.of_same hsame).keys key
    · intro x hx y hy key
      obtain ⟨field, given, given'⟩ := shared x hx y hy key
      rw [← given.optional, given'.optional]
    · intro x hx y hy key
      obtain ⟨field, given, given'⟩ := shared x hx y hy key
      exact ih x hx given.type given'.type

/-- Records of the same structure are one record exactly when equal keys have equal identifiers. -/
private theorem Sound.record_eq_iff (sound : Sound digest log builder) {left right : RecordType}
    (hl : left ∈ builder.graph.records) (hr : right ∈ builder.graph.records)
    (same : SameStructure left.fields right.fields) :
    left = right ↔ NamesAgree left.fields right.fields := by
  obtain ⟨p, hp, nameL, fieldsL, -⟩ := sound.made left hl
  obtain ⟨q, hq, nameR, fieldsR, -⟩ := sound.made right hr
  constructor
  · rintro rfl
    obtain ⟨-, fits, keys, -⟩ := sound.placed p hp
    rw [← fieldsL]
    exact agree_of_same (fits.keys ▸ keys.nodup) fun _ => Iff.rfl
  · intro agree
    have hsame := same.same_of_agree agree
    rw [← fieldsL, ← fieldsR] at hsame
    have hname := sound.name_of_same hp hq hsame
    have hfind := TypeGraph.find?_of_mem sound.names hl
    rw [← nameL, hname, nameR, TypeGraph.find?_of_mem sound.names hr] at hfind
    exact (Option.some.inj hfind).symm

/-- Records met with fields of the same structure agree where the keys have distinct identifiers. -/
theorem Sound.agree_of_distinct (sound : Sound digest log builder) (hp : p ∈ log) (hq : q ∈ log)
    (same : SameStructure p.fields q.fields)
    (distinct : ((p.fields.map (·.key)).map Naming.normalize).Nodup) :
    NamesAgree p.fields q.fields := by
  obtain ⟨-, fp, kp, -⟩ := sound.placed p hp
  obtain ⟨-, fq, kq, -⟩ := sound.placed q hq
  have hperm : (p.fields.map (·.key)).Perm (q.fields.map (·.key)) :=
    (List.perm_ext_iff_of_nodup (fp.keys ▸ kp.nodup) (fq.keys ▸ kq.nodup)).mpr same.keys
  have distinct' := (hperm.map Naming.normalize).nodup_iff.mp distinct
  rw [fp.keys] at distinct
  rw [fq.keys] at distinct'
  exact (fp.agree_iff fq).mp (Naming.agree_of_distinct distinct distinct')

end Given

section Infer
variable {sample : Json.Document}

/-- Every nested object of the sample's shape is given the name of a record met with its fields. Two such
names are the same where the objects have the same structure and give equal keys equal identifiers, at
any depth; this is so where no object has two keys of one identifier before numbers are put behind them.
Where the digest tells the canonical texts apart, names are the same only then. In the same way records
of the graph with the same keys, types and optional marks are one exactly when their identifiers agree. -/
theorem name_of_structure (h : Json.IsSample sample) (widen : Bool) (nameSpace rootName : Text) :
    let log := nested Fingerprint.sha256 widen nameSpace rootName sample
    let texts := canonicalTexts widen nameSpace rootName sample
    ∃ result, infer widen nameSpace rootName sample = .ok result ∧
      (∃ root, result.graph.find? result.graph.rootName = some root ∧
        AllGiven log root.fields (rootFields (Shape.ofDocument widen "$" sample).1).1) ∧
      (∀ p ∈ log, AllGiven log p.fields p.shapes ∧
        p.fields.map (·.name) = Naming.Scope.empty.claimEach (p.shapes.map (·.1))) ∧
      (∀ p ∈ log, ∀ q ∈ log,
        (AlikeNamed (.object p.shapes) (.object q.shapes) → p.name = q.name) ∧
        (Shape.Alike (.object p.shapes) (.object q.shapes) →
          (∀ fields ∈ (Shape.object p.shapes).objectsIn ++ (Shape.object q.shapes).objectsIn,
            ((fields.map (·.1)).map Naming.normalize).Nodup) →
          AlikeNamed (.object p.shapes) (.object q.shapes)) ∧
        (Fingerprint.sha256.InjectiveOn texts → Fingerprint.sha256.LetteredOn texts →
          p.name = q.name → AlikeNamed (.object p.shapes) (.object q.shapes))) ∧
      (∀ p ∈ log, ∀ q ∈ log, SameStructure p.fields q.fields →
        (NamesAgree p.fields q.fields → p.name = q.name) ∧
        (((p.fields.map (·.key)).map Naming.normalize).Nodup → NamesAgree p.fields q.fields) ∧
        (Fingerprint.sha256.InjectiveOn texts → Fingerprint.sha256.LetteredOn texts →
          p.name = q.name → NamesAgree p.fields q.fields)) ∧
      ∀ left ∈ result.graph.records, ∀ right ∈ result.graph.records,
        left.name ≠ result.graph.rootName → right.name ≠ result.graph.rootName →
          SameStructure left.fields right.fields →
            (left = right ↔ NamesAgree left.fields right.fields) := by
  intro log texts
  obtain ⟨result, fields, builder, print, hresult, run⟩ :=
    inferWith_run Fingerprint.sha256_isHexadecimal h widen nameSpace rootName
  have sound : Sound Fingerprint.sha256 log builder := run.run.sound
  have inner : ∀ p ∈ log, AllGiven log p.fields p.shapes := run.run.inner
  have sameFields : Fingerprint.sha256.InjectiveOn texts → Fingerprint.sha256.LetteredOn texts →
      ∀ p ∈ log, ∀ q ∈ log, p.name = q.name → ∀ field, field ∈ p.fields ↔ field ∈ q.fields := by
    intro injective lettered p hp q hq name
    have stands := sound.stands Fingerprint.sha256_isHexadecimal injective lettered
    exact (stands p hp).same (stands q hq) name
  refine ⟨result, hresult, ?_, fun p hp => ⟨inner p hp, (sound.placed p hp).2.1.names⟩,
    fun p hp q hq => ⟨fun alike => ?_, alikeNamed_of_distinct, fun injective lettered name => ?_⟩,
    fun p hp q hq same => ⟨fun agree => ?_, sound.agree_of_distinct hp hq same,
      fun injective lettered name => ?_⟩, fun left hl right hr rootL rootR same => ?_⟩
  · obtain ⟨root, hf, hfields⟩ := run.found
    exact ⟨root, hf, hfields ▸ run.run.given⟩
  · exact TypeRef.object.inj (sound.type_eq inner alike (.object hp) (.object hq))
  · refine sound.alikeNamed inner (sameFields injective lettered) (.object hp) ?_
    rw [name]
    exact .object hq
  · exact sound.name_of_same hp hq (same.same_of_agree agree)
  · obtain ⟨-, fq, kq, -⟩ := sound.placed q hq
    exact agree_of_same (fq.keys ▸ kq.nodup) (sameFields injective lettered p hp q hq name)
  · exact sound.record_eq_iff (run.mem_of_ne hl rootL) (run.mem_of_ne hr rootR) same

/-- Keys with distinct identifiers in another order, inside an object and around one. -/
theorem name_of_structure_reordered :
    let sample : Json.Document := .object
      [("a", .object [("x", .number "1"), ("y", .object [("u", .null), ("v", .bool true)])]),
        ("b", .object [("y", .object [("v", .bool false), ("u", .null)]), ("x", .number "2")])]
    Json.IsSample sample ∧
      ∃ p ∈ nested Fingerprint.sha256 true "" "Root" sample,
      ∃ q ∈ nested Fingerprint.sha256 true "" "Root" sample,
        p.shapes.map (·.1) = ["x", "y"] ∧ q.shapes.map (·.1) = ["y", "x"] ∧
          SameStructure p.fields q.fields ∧ NamesAgree p.fields q.fields ∧ p.name = q.name := by
  intro sample
  have h : Json.IsSample sample := ⟨by decide, by decide, by decide⟩
  have hrun : ∃ p ∈ nested Fingerprint.sha256 true "" "Root" sample,
      ∃ q ∈ nested Fingerprint.sha256 true "" "Root" sample,
        p.shapes.map (·.1) = ["x", "y"] ∧ q.shapes.map (·.1) = ["y", "x"] ∧
          SameStructure p.fields q.fields ∧
          ((p.fields.map (·.key)).map Naming.normalize).Nodup := by decide +kernel
  obtain ⟨p, hp, q, hq, orderP, orderQ, same, differ⟩ := hrun
  obtain ⟨-, -, -, -, -, shared, -⟩ := name_of_structure h true "" "Root"
  obtain ⟨share, agree, -⟩ := shared p hp q hq same
  exact ⟨h, p, hp, q, hq, orderP, orderQ, same, agree differ, share (agree differ)⟩

/-- Two keys of one identifier, in both orders: fields of one structure make two records. -/
theorem name_of_structure_colliding :
    let sample : Json.Document := .object
      [("a", .object [("x-y", .number "1"), ("x y", .number "2")]),
        ("b", .object [("x y", .number "3"), ("x-y", .number "4")])]
    Json.IsSample sample ∧
      ∃ p ∈ nested Fingerprint.sha256 true "" "Root" sample,
      ∃ q ∈ nested Fingerprint.sha256 true "" "Root" sample,
        SameStructure p.fields q.fields ∧ p.name ≠ q.name :=
  ⟨⟨by decide, by decide, by decide⟩, by decide +kernel⟩

end Infer

end Specimen.Inference
