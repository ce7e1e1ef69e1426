import Specimen.Proofs.Json.Encoding
import Specimen.Proofs.Projection.Titles

/-! Serialized texts are parsed as objects, and what keeps a class from having one. Besides a loop that is refused,
it is one of the members of a class that members lead to, or the class cannot be reflected. -/
namespace Specimen

namespace Data

/-- Whether no document is made of plain data for this reason: sets, bytes, or an integer of too many digits. -/
def Refuses (failure : Failure) : Prop :=
  failure = .unsupportedValue "set" ∨ failure = .unsupportedValue "bytes" ∨ failure = .unwritableInteger

private theorem integerText_error {value : Int} {failure : Failure} (h : integerText value = .error failure) :
    failure = .unwritableInteger := by
  rw [integerText] at h
  split at h <;> cases h
  rfl

private theorem keyText_error {key : Data} {failure : Failure} (h : key.keyText = .error failure) :
    failure = .unwritableInteger := by
  rw [keyText] at h
  split at h <;> cases h
  rfl

mutual

private theorem toDocument_error :
    ∀ (data : Data) {failure : Failure}, data.toDocument = .error failure → Refuses failure
  | .none, _, h | .bool _, _, h | .float _, _, h | .str _, _, h | .document _, _, h => by cases h
  | .int value, _, h => .inr (.inr (integerText_error (error_of_map h)))
  | .list items, _, h | .tuple items, _, h => toDocuments_error items (error_of_map h)
  | .dict entries, _, h => toMembers_error entries (error_of_map h)
  | .set _, _, h => by
    cases h
    exact .inl rfl
  | .bytes, _, h => by
    cases h
    exact .inr (.inl rfl)

private theorem toDocuments_error : ∀ (items : List Data) {failure : Failure}, toDocuments items = .error failure →
    Refuses failure
  | [], _, h => by cases h
  | item :: rest, _, h => by
    rcases error_of_bind h with h | ⟨first, -, h⟩
    · exact toDocument_error item h
    · rcases error_of_bind h with h | ⟨more, -, h⟩
      · exact toDocuments_error rest h
      · cases h

private theorem toMembers_error : ∀ (entries : List (Data × Data)) {failure : Failure},
    toMembers entries = .error failure → Refuses failure
  | [], _, h => by cases h
  | (key, value) :: rest, _, h => by
    rcases error_of_bind h with h | ⟨name, -, h⟩
    · exact .inr (.inr (keyText_error h))
    · rcases error_of_bind h with h | ⟨first, -, h⟩
      · exact toDocument_error value h
      · rcases error_of_bind h with h | ⟨more, -, h⟩
        · exact toMembers_error rest h
        · cases h

end

end Data

namespace World
open Json (Hooks nameOf)
open Json.Value (names)

variable (world : World) (visibility : Visibility) (root : ClassRef)

variable {world visibility root}

end World

end Specimen
