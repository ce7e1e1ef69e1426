import Specimen.Proofs.Emission.Attributes
import Specimen.Proofs.Loading.Steps
import Specimen.Proofs.Reflection.Bindings

/-! The bodies of emitted dataclasses. Each attribute in turn is bound to its field specification and
annotated with what its expression denotes; nothing else happens in the body. -/
namespace Specimen.Loading
open Emission (Attribute)

/-- What an attribute is bound to. -/
def specification (attr : Attribute) : ClassAttribute :=
  .specified [(.str jsonKey, .str attr.key)] attr.optional

/-- The body behind attributes that are annotated with these referents. -/
def collected (frame : Frame) (attrs : List Attribute) (written : List Referent) : Body :=
  ⟨.table ((attrs.map (·.name)).zip written),
    (frame.start false).attributes ++ attrs.map fun attr => (attr.name, specification attr), none⟩

section Names

/-- A name without an underscore in front differs from every name that has one there. -/
theorem ne_of_public {name special : Text} (h : name.startsWith "_" = false)
    (hs : special.startsWith "_" = true) : name ≠ special := by
  rintro rfl
  cases h.symm.trans hs

private theorem bindingName_public (frame : Frame) {name : Text} (h : name.startsWith "_" = false) :
    frame.bindingName name = name := by
  have hd : name.startsWith "__" = false := by
    refine Bool.eq_false_iff.mpr fun hd => ?_
    have prefixed : ("_" : Text) <+: name :=
      (show ("_" : Text) <+: ("__" : Text) by decide).trans (List.isPrefixOf_iff_prefix.mp hd)
    cases h.symm.trans (List.isPrefixOf_iff_prefix.mpr prefixed)
  rw [Frame.bindingName, hd]
  rfl

variable {frame : Frame} {attrs : List Attribute} {written : List Referent} {name : Text}

theorem collected_attribute?_of_notMem (h : name ∉ attrs.map (·.name)) :
    (collected frame attrs written).attribute? name = List.lookup name (frame.start false).attributes := by
  have none : List.lookup name (attrs.map fun attr => (attr.name, specification attr)) = none := by
    refine lookup_eq_none ?_
    rwa [List.map_map]
  rw [Body.attribute?, collected, List.lookup_append, none, Option.or_none]

end Names

section Run
variable {frame : Frame} {before rest : List Attribute} {attr : Attribute} {written : List Referent}
  {world after : World} {body : Body}

/-- Writing an annotation down changes what is remembered and nothing else. -/
private theorem gives_writtenType {env : Environment} {expr : TypeExpr} {d : Referent}
    (h : Gives (writtenType frame env expr) world d after) :
    ∃ memory, after = { world with memory } := by
  rw [writtenType] at h
  split at h
  · exact ⟨world.memory, h.pure.2⟩
  · exact h.evaluating

private theorem assign_collected (world : World) (hpublic : attr.name.startsWith "_" = false)
    (fresh : attr.name ∉ before.map (·.name)) :
    assign frame world (collected frame before written) attr.name (specification attr) =
      .ok ⟨(collected frame before written).annotations,
        (collected frame (before ++ [attr]) written).attributes, none⟩ := by
  have free : attr.name ∉ (collected frame before written).attributes.map (·.1) := by
    have hm := ne_of_public hpublic (show Body.moduleKey.startsWith "_" = true by decide)
    have hq := ne_of_public hpublic (show Body.qualnameKey.startsWith "_" = true by decide)
    simpa [collected, Frame.start, Body.start, hm, hq] using fresh
  have special := ne_of_public hpublic (show annotationsName.startsWith "_" = true by decide)
  rw [assign, bindingName_public frame hpublic]
  simp only [bind, Except.bind, pure, Except.pure, if_neg special]
  refine congrArg Except.ok ?_
  rw [Body.bind, put_of_notMem free]
  simp [collected]

/-- An attribute with a new name is put behind the earlier ones. -/
private theorem runMember_collected
    (h : Gives (runMember frame (collected frame before written) attr.member) world body after)
    (hpublic : attr.name.startsWith "_" = false) (fresh : attr.name ∉ before.map (·.name))
    (length : written.length = before.length) :
    ∃ d memory, body = collected frame (before ++ [attr]) (written ++ [d]) ∧
      after = { world with memory } := by
  rw [Attribute.member, runMember] at h
  obtain ⟨-, -, hassign⟩ := h.bind_get.bind_lift
  obtain ⟨assigned, hassigned, hrest⟩ := hassign.bind_lift
  obtain ⟨d, _, hwritten, hannotate⟩ := hrest.bind
  obtain ⟨memory, rfl⟩ := gives_writtenType hwritten
  obtain ⟨hannotated, rfl⟩ := hannotate.bind_get.lift
  refine ⟨d, memory, ?_, rfl⟩
  cases (assign_collected _ hpublic fresh).symm.trans hassigned
  have lengths : (before.map (·.name)).length = written.length := by rw [List.length_map, length]
  have free : attr.name ∉ ((before.map (·.name)).zip written).map (·.1) := by
    rwa [List.map_fst_zip lengths.le]
  have entries : ((before ++ [attr]).map (·.name)).zip (written ++ [d]) =
      Json.put attr.name d ((before.map (·.name)).zip written) := by
    rw [put_of_notMem free, List.map_append, List.zip_append lengths]
    rfl
  rw [bindingName_public frame hpublic] at hannotated
  cases hannotated
  rw [collected.eq_def frame _ (written ++ [d]), entries]
  rfl

/-- The attributes of a body with new names are put behind the earlier ones, in their order. -/
theorem runMembers_collected
    (h : Gives (runMembers frame (collected frame before written) (rest.map Attribute.member)) world
      body after)
    (hpublic : ∀ attr ∈ rest, attr.name.startsWith "_" = false)
    (nodup : ((before ++ rest).map (·.name)).Nodup) (length : written.length = before.length) :
    ∃ more memory, more.length = rest.length ∧
      body = collected frame (before ++ rest) (written ++ more) ∧ after = { world with memory } := by
  induction rest generalizing before written world with
  | nil =>
    rw [List.map_nil, runMembers] at h
    obtain ⟨rfl, rfl⟩ := h.pure
    exact ⟨[], _, rfl, by rw [List.append_nil, List.append_nil], rfl⟩
  | cons attr rest ih =>
    rw [List.map_cons, runMembers] at h
    obtain ⟨_, _, hfirst, hrest⟩ := h.bind
    have fresh : attr.name ∉ before.map (·.name) := by
      rw [List.map_append, List.map_cons] at nodup
      exact fun hin => (List.nodup_append.mp nodup).2.2 _ hin _ List.mem_cons_self rfl
    obtain ⟨d, memory, rfl, rfl⟩ :=
      runMember_collected hfirst (hpublic attr List.mem_cons_self) fresh length
    obtain ⟨more, last, hlength, rfl, rfl⟩ := ih hrest
      (fun other ho => hpublic other (List.mem_cons_of_mem _ ho))
      (by rwa [List.append_assoc]) (by simp [length])
    refine ⟨d :: more, last, by rw [List.length_cons, List.length_cons, hlength], ?_, rfl⟩
    rw [List.append_assoc, List.append_assoc]
    rfl

end Run

end Specimen.Loading
