import Specimen.Proofs.Inference.Run

/-! Keys that cannot be encoded. A fingerprint is a digest of bytes, so a naming pass fails at the first record
with such a key, and it fails nowhere else. Keys that only untyped positions hold do no harm: they are in no
record. -/
namespace Specimen

/-- Whether the names in every object of a shape can be encoded. -/
def Shape.KeysEncodable (shape : Shape) : Prop :=
  ∀ fields ∈ shape.objectsIn, ∀ name ∈ fields.map (·.1), Text.Encodable name

instance (shape : Shape) : Decidable shape.KeysEncodable :=
  inferInstanceAs (Decidable (∀ fields ∈ shape.objectsIn, ∀ name ∈ fields.map (·.1), Text.Encodable name))

namespace Fingerprint

/-- A digest that refuses every text with a surrogate. -/
def Digest.IsStrict (digest : Digest) : Prop :=
  ∀ text, ¬ Text.Encodable text → ∃ cause, digest text = .error cause

theorem sha256_isStrict : sha256.IsStrict := by
  intro text surrogate
  rw [sha256]
  cases hb : Text.encodeUtf8 text with
  | error cause => exact ⟨cause, rfl⟩
  | ok bytes => exact absurd (Text.encodable_of_encodeUtf8 hb) surrogate

/-- A canonical text holds the names of its entries. -/
private theorem encodable_of_canonical {entries : List Entry} (h : Text.Encodable (canonical entries)) :
    ∀ entry ∈ entries, Text.Encodable entry.name := by
  intro entry he
  rw [canonical, Text.encodable_intercalate (Text.encodable_ofString ";")] at h
  have text := h _ (List.mem_map_of_mem ((sort_perm entries).mem_iff.mpr he))
  simp only [Entry.text, Text.encodable_append] at text
  exact text.1.1.1

end Fingerprint

namespace Inference
open Fingerprint (Digest)
open Naming (Scope)
open Shape (IsKeySet objectsIn objectsInFields)

section Failing
variable {digest : Digest} {log : List Placement} {builder : Builder}

/-- A record with a key that cannot be encoded has no fingerprint. -/
private theorem fingerprintOf_fails (strict : digest.IsStrict) {graph : TypeGraph} {fields : List Field}
    (known : ∀ field ∈ fields, graph.Knows field.type)
    (surrogate : ¬ ∀ key ∈ fields.map (·.key), Text.Encodable key) :
    ∃ cause, fingerprintOf digest graph fields = .error (.unencodable cause) := by
  have text : ¬ Text.Encodable (canonicalOf graph fields) := by
    refine mt (fun h => ?_) surrogate
    simp only [List.forall_mem_map]
    intro field hf
    have name := Fingerprint.encodable_of_canonical h _
      (List.mem_map_of_mem (List.mem_map_of_mem (f := signatureOf graph) hf))
    exact (Text.encodable_append.mp (Text.encodable_append.mp name).1).1
  obtain ⟨cause, failed⟩ := strict _ text
  exact ⟨cause, by rw [fingerprintOf_eq known, failed]; rfl⟩

mutual

/-- Naming a shape with a key that cannot be encoded fails. -/
private theorem nameType_fails (hex : digest.IsHexadecimal) (strict : digest.IsStrict) : ∀ (shape : Shape)
    (requested : Text) (builder : Builder) (log : List Placement),
    (∀ fields ∈ shape.objectsIn, (fields.map (·.1)).Nodup) → Sound digest log builder →
    ¬ shape.KeysEncodable → ∃ cause, nameType digest requested builder shape = .error (.unencodable cause)
  | .null, _, _, _, _, _, surrogate | .any, _, _, _, _, _, surrogate | .scalar _, _, _, _, _, _, surrogate
  | .array none, _, _, _, _, _, surrogate => absurd (fun _ hf => nomatch hf) surrogate
  | .array (some element), requested, builder, log, distinct, sound, surrogate => by
    obtain ⟨cause, failed⟩ :=
      nameType_fails hex strict element (Naming.singularize requested) builder log distinct sound surrogate
    exact ⟨cause, by simp only [nameType, failed, bind, Except.bind]⟩
  | .object shapes, requested, builder, log, distinct, sound, surrogate => by
    obtain ⟨inner, own⟩ := List.forall_mem_append.mp distinct
    by_cases keys : ∀ fields ∈ objectsInFields shapes, ∀ name ∈ fields.map (·.1), Text.Encodable name
    · obtain ⟨fields, after, run⟩ := nameFields_run hex shapes .empty builder log
        (fun fields hf => ⟨inner fields hf, keys fields hf⟩) sound
      have ownKeys : ¬ ∀ key ∈ fields.map (·.key), Text.Encodable key := by
        rw [run.fits.keys]
        exact fun h => surrogate (List.forall_mem_append.mpr ⟨keys, List.forall_mem_singleton.mpr h⟩)
      obtain ⟨cause, failed⟩ := fingerprintOf_fails strict run.fits.known ownKeys
      exact ⟨cause, by simp only [nameType, run.ran, placeRecord, failed, bind, Except.bind]⟩
    · obtain ⟨cause, failed⟩ := nameFields_fails hex strict shapes .empty builder log inner sound keys
      exact ⟨cause, by simp only [nameType, failed, bind, Except.bind]⟩

/-- Naming the fields of an object with such a key inside them fails. -/
private theorem nameFields_fails (hex : digest.IsHexadecimal) (strict : digest.IsStrict) :
    ∀ (shapes : List (Text × Shape × Bool)) (scope : Scope) (builder : Builder) (log : List Placement),
    (∀ fields ∈ objectsInFields shapes, (fields.map (·.1)).Nodup) → Sound digest log builder →
    (¬ ∀ fields ∈ objectsInFields shapes, ∀ name ∈ fields.map (·.1), Text.Encodable name) →
    ∃ cause, nameFields digest scope builder shapes = .error (.unencodable cause)
  | [], _, _, _, _, _, surrogate => absurd (fun _ hf => nomatch hf) surrogate
  | (key, shape, missing) :: rest, scope, builder, log, distinct, sound, surrogate => by
    obtain ⟨first, others⟩ := List.forall_mem_append.mp distinct
    by_cases keys : shape.KeysEncodable
    · obtain ⟨type, inner, run⟩ := nameType_run hex shape (scope.claimNormalized key).1 builder log
        (fun fields hf => ⟨first fields hf, keys fields hf⟩) sound
      obtain ⟨cause, failed⟩ := nameFields_fails hex strict rest (scope.claimNormalized key).2 inner _ others
        run.sound fun h => surrogate (List.forall_mem_append.mpr ⟨keys, h⟩)
      exact ⟨cause, by simp only [nameFields, run.ran, failed, bind, Except.bind]⟩
    · obtain ⟨cause, failed⟩ := nameType_fails hex strict shape (scope.claimNormalized key).1 builder log
        first sound keys
      exact ⟨cause, by simp only [nameFields, failed, bind, Except.bind]⟩

end

/-- A shape with a key that cannot be encoded gets no graph. -/
private theorem graphOf_fails (hex : digest.IsHexadecimal) (strict : digest.IsStrict) {shape : Shape}
    (distinct : ∀ fields ∈ shape.objectsIn, (fields.map (·.1)).Nodup) (surrogate : ¬ shape.KeysEncodable)
    (nameSpace rootName : Text) :
    ∃ cause, graphOf digest nameSpace rootName shape = .error (.unencodable cause) := by
  obtain ⟨own, inner⟩ := (forall_rootFields isKeySet_wrapper.nodup).mpr distinct
  have wrapper : ∀ name ∈ [wrapperKey], Text.Encodable name := isKeySet_wrapper.encodable
  have sound := sound_start digest nameSpace rootName (rootFields shape).2
  by_cases keys : ∀ fields ∈ objectsInFields (rootFields shape).1, ∀ name ∈ fields.map (·.1), Text.Encodable name
  · obtain ⟨fields, builder, run⟩ := nameFields_run hex (rootFields shape).1 .empty _ []
      (fun fields hf => ⟨inner fields hf, keys fields hf⟩) sound
    have ownKeys : ¬ ∀ key ∈ fields.map (·.key), Text.Encodable key := by
      rw [run.fits.keys]
      exact fun h => surrogate
        ((forall_rootFields (p := fun names => ∀ name ∈ names, Text.Encodable name) wrapper).mp ⟨h, keys⟩)
    obtain ⟨cause, failed⟩ := fingerprintOf_fails strict run.fits.known ownKeys
    refine ⟨cause, ?_⟩
    rw [graphOf_eq digest nameSpace rootName rfl, run.ran]
    simp only [bind, Except.bind, failed]
  · obtain ⟨cause, failed⟩ := nameFields_fails hex strict (rootFields shape).1 .empty _ [] inner sound keys
    refine ⟨cause, ?_⟩
    rw [graphOf_eq digest nameSpace rootName rfl, failed]
    rfl

end Failing

/-- A document gets the graph of its shape, or fails for a key that cannot be encoded. -/
theorem inferWith_cases {digest : Digest} (hex : digest.IsHexadecimal) (strict : digest.IsStrict)
    {document : Json.Document} (distinct : document.DistinctNames) (shallow : document.depth ≤ Json.documentNesting)
    (widen : Bool) (nameSpace rootName : Text) :
    ((Shape.ofDocument widen "$" document).1.KeysEncodable → ∃ result fields builder print,
      inferWith digest widen nameSpace rootName document = .ok result ∧
        GraphRun digest nameSpace rootName (Shape.ofDocument widen "$" document).1 fields builder print
          result.graph) ∧
    (¬ (Shape.ofDocument widen "$" document).1.KeysEncodable → ∃ cause,
      inferWith digest widen nameSpace rootName document = .error (.unencodable cause)) := by
  have distinct := Shape.nodup_of_mem_objectsIn distinct widen "$"
  refine ⟨fun keys => ?_, fun surrogate => ?_⟩
  · exact inferWith_of_keys hex shallow (fun fields hf => ⟨distinct fields hf, keys fields hf⟩) nameSpace rootName
  · obtain ⟨cause, failed⟩ := graphOf_fails hex strict distinct surrogate nameSpace rootName
    refine ⟨cause, ?_⟩
    rw [inferWith, if_neg (Nat.not_lt.mpr shallow)]
    simp only [failed, bind, Except.bind]

/-- What inference gives a document with distinct names is the graph of its shape. -/
theorem run_of_inferWith {digest : Digest} (hex : digest.IsHexadecimal) (strict : digest.IsStrict)
    {document : Json.Document} (distinct : document.DistinctNames) {widen : Bool} {nameSpace rootName : Text}
    {result : Result} (inferred : inferWith digest widen nameSpace rootName document = .ok result) :
    ∃ fields builder print,
      GraphRun digest nameSpace rootName (Shape.ofDocument widen "$" document).1 fields builder print
        result.graph := by
  have shallow : document.depth ≤ Json.documentNesting := by
    by_contra deep
    rw [inferWith, if_pos (Nat.lt_of_not_le deep)] at inferred
    cases inferred
  obtain ⟨runs, fails⟩ := inferWith_cases hex strict distinct shallow widen nameSpace rootName
  by_cases keys : (Shape.ofDocument widen "$" document).1.KeysEncodable
  · obtain ⟨_, fields, builder, print, inferred', run⟩ := runs keys
    cases inferred.symm.trans inferred'
    exact ⟨fields, builder, print, run⟩
  · obtain ⟨_, failed⟩ := fails keys
    cases inferred.symm.trans failed

end Inference

end Specimen
