import Specimen.Proofs.Inference.Traversal
import Specimen.Proofs.Naming.Spellable
import Specimen.Proofs.Steps

/-! Where the names of records come from. A nested record asks to be called as the field that it was met in, in the
singular for each array around it; so its name spells the key of that field. -/
namespace Specimen

/-- A name of some object in a document. -/
inductive Json.Value.HasName (name : Text) : Json.Document → Prop where
  | own {members : List (Text × Json.Document)} (h : name ∈ names members) : HasName name (.object members)
  | member {members : List (Text × Json.Document)} {member : Text × Json.Document} (hm : member ∈ members)
    (h : HasName name member.2) : HasName name (.object members)
  | item {items : List Json.Document} {item : Json.Document} (hi : item ∈ items) (h : HasName name item) :
    HasName name (.array items)

private theorem Json.Value.everyObject_of_hasName {p : Text → Prop} : ∀ document : Json.Document,
    (∀ name, document.HasName name → p name) → document.EveryObject fun names => ∀ name ∈ names, p name
  | .null, _ | .bool _, _ | .number _, _ | .string _, _ => trivial
  | .array items, h => (everyObject_array _ items).mpr fun item hi =>
    have : sizeOf item < 1 + sizeOf items := by
      have := List.sizeOf_lt_of_mem hi
      omega
    everyObject_of_hasName item fun name hn => h name (.item hi hn)
  | .object members, h => (everyObject_object _ members).mpr ⟨fun name hn => h name (.own hn), fun member hm =>
    have : sizeOf member.2 < 1 + sizeOf members := by
      have := List.sizeOf_lt_of_mem hm
      obtain ⟨key, value⟩ := member
      simp only [Prod.mk.sizeOf_spec] at this ⊢
      omega
    everyObject_of_hasName member.2 fun name hn => h name (.member hm hn)⟩
termination_by document => sizeOf document

/-- What holds of the names of every object in a document holds of every name in it. -/
theorem Json.Value.everyObject_iff_hasName {p : Text → Prop} {document : Json.Document} :
    (document.EveryObject fun names => ∀ name ∈ names, p name) ↔ ∀ name, document.HasName name → p name := by
  refine ⟨fun every name h => ?_, everyObject_of_hasName document⟩
  induction h with
  | own h => exact ((everyObject_object _ _).mp every).1 name h
  | member hm _ ih => exact ih (((everyObject_object _ _).mp every).2 _ hm)
  | item hi _ ih => exact ih ((everyObject_array _ _).mp every _ hi)

namespace Inference
open Fingerprint (Digest)
open Naming (Scope IsNameOf IsSpelling)
open Shape (objectsIn objectsInFields)

/-- What a record asks to be called in the field of a key: the field's name, or the singular of what an array around it
asks. -/
inductive Asks (key : Text) : Text → Prop where
  | field {name : Text} (h : IsNameOf key name) : Asks key name
  | element {name : Text} (h : Asks key name) : Asks key (Naming.singularize name)

/-- A name that is handed out for what a record in the field of a key asks to be called. -/
def IsNamedFor (key name : Text) : Prop := ∃ requested, Asks key requested ∧ IsNameOf requested name

theorem Asks.isSpelling {key name : Text} (h : Asks key name) : IsSpelling key name := by
  induction h with
  | field h => exact h.isSpelling
  | element _ ih => exact ih.singularize

theorem IsNamedFor.isSpelling {key name : Text} (h : IsNamedFor key name) : IsSpelling key name :=
  let ⟨_, asks, named⟩ := h
  asks.isSpelling.trans named.isSpelling

/-- Every record of a builder is named for one of certain keys. -/
def AllNamedFor (p : Text → Prop) (builder : Builder) : Prop :=
  ∀ record ∈ builder.graph.records, ∃ key, p key ∧ IsNamedFor key record.name

variable {p : Text → Prop}

theorem AllNamedFor.placeRecord {digest : Digest} {key requested name : Text} {fields : List Field}
    {builder after : Builder} (hkey : p key) (asks : Asks key requested)
    (h : placeRecord digest requested fields builder = .ok (name, after)) (all : AllNamedFor p builder) :
    AllNamedFor p after := by
  rcases placeRecord_cases h with ⟨-, rfl⟩ | ⟨claimed, -, print, hgraph⟩
  · exact all
  · intro record hr
    rw [hgraph] at hr
    rcases List.mem_append.mp hr with hr | hr
    · exact all record hr
    · have named := Naming.isNameOf_claim builder.scope requested
      rw [Scope.claimNormalized, claimed] at named
      exact ⟨key, hkey, requested, asks, List.mem_singleton.mp hr ▸ named⟩

section Pass
variable {digest : Digest}

mutual

/-- Naming a shape in the field of a key adds records that are named for this key or for keys inside the shape. -/
private theorem nameType_allNamedFor : ∀ (shape : Shape) (key requested : Text) (builder : Builder), p key →
    Asks key requested → (∀ fields ∈ shape.objectsIn, ∀ key ∈ fields.map (·.1), p key) → AllNamedFor p builder →
    ∀ type after, nameType digest requested builder shape = .ok (type, after) → AllNamedFor p after
  | .null, _, _, _, _, _, _, all, _, _, h | .any, _, _, _, _, _, _, all, _, _, h
  | .scalar _, _, _, _, _, _, _, all, _, _, h | .array none, _, _, _, _, _, _, all, _, _, h => by
    cases h
    exact all
  | .array (some element), key, requested, builder, hkey, asks, keys, all, _, after, h => by
    obtain ⟨⟨type, _⟩, hrun, h⟩ := ok_of_bind h
    cases h
    exact nameType_allNamedFor element key _ builder hkey (.element asks) keys all type after hrun
  | .object shapes, key, requested, builder, hkey, asks, keys, all, _, after, h => by
    obtain ⟨inner, own⟩ := List.forall_mem_append.mp keys
    obtain ⟨⟨fields, before⟩, hrun, h⟩ := ok_of_bind h
    obtain ⟨⟨name, placed⟩, hplace, h⟩ := ok_of_bind h
    cases h
    have all' := nameFields_allNamedFor shapes .empty builder (List.forall_mem_singleton.mp own) inner all fields
      before hrun
    exact all'.placeRecord hkey asks hplace

/-- Naming the fields of an object adds records that are named for their keys or for keys inside them. -/
private theorem nameFields_allNamedFor : ∀ (shapes : List (Text × Shape × Bool)) (scope : Scope) (builder : Builder),
    (∀ key ∈ shapes.map (·.1), p key) → (∀ fields ∈ objectsInFields shapes, ∀ key ∈ fields.map (·.1), p key) →
    AllNamedFor p builder → ∀ fields after,
    nameFields digest scope builder shapes = .ok (fields, after) → AllNamedFor p after
  | [], _, _, _, _, all, _, _, h => by
    cases h
    exact all
  | (key, shape, missing) :: rest, scope, builder, own, keys, all, _, after, h => by
    obtain ⟨first, others⟩ := List.forall_mem_append.mp keys
    obtain ⟨hkey, own⟩ := List.forall_mem_cons.mp own
    obtain ⟨⟨type, inner⟩, hrun, h⟩ := ok_of_bind h
    obtain ⟨⟨fields, _⟩, hrest, h⟩ := ok_of_bind h
    cases h
    have all' := nameType_allNamedFor shape key _ builder hkey (.field (Naming.isNameOf_claim scope key)) first all
      type inner hrun
    exact nameFields_allNamedFor rest _ inner own others all' fields after hrest

end

end Pass

namespace GraphRun
variable {digest : Digest} {nameSpace rootName : Text} {shape : Shape} {fields : List Field} {builder : Builder}
  {print : Text} {graph : TypeGraph} (run : GraphRun digest nameSpace rootName shape fields builder print graph)
  (own : ∀ key ∈ (rootFields shape).1.map (·.1), p key)
  (inner : ∀ fields ∈ objectsInFields (rootFields shape).1, ∀ key ∈ fields.map (·.1), p key)
include run own inner

/-- The fields of a record have keys of the root or of an object in it. -/
theorem keyed : ∀ record ∈ graph.records, ∀ field ∈ record.fields, p field.key := by
  intro record hr field hf
  rw [run.added] at hr
  rcases List.mem_append.mp hr with hr | hr
  · obtain ⟨met, hmet, -, same, -⟩ := run.run.sound.made record hr
    obtain ⟨-, fits, -⟩ := run.run.sound.placed met hmet
    refine inner met.shapes ?_ _ (fits.keys ▸ List.mem_map_of_mem (same ▸ hf))
    rw [← run.run.objects]
    exact List.mem_map_of_mem hmet
  · rw [List.mem_singleton.mp hr] at hf
    exact own _ (run.run.fits.keys ▸ List.mem_map_of_mem hf)

/-- A record beside the root's is named for such a key. -/
theorem namedFor : ∀ record ∈ graph.records, record.name ≠ graph.rootName →
    ∃ key, p key ∧ IsNamedFor key record.name := by
  intro record hr other
  have nothing : AllNamedFor p (start nameSpace rootName (rootFields shape).2) := by
    simp [AllNamedFor, start, TypeGraph.empty]
  exact nameFields_allNamedFor _ .empty _ own inner nothing fields builder run.run.ran record (run.mem_of_ne hr other)

end GraphRun

end Inference

end Specimen
