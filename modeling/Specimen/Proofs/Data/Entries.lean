import Specimen.Data.Document
import Specimen.Proofs.Steps
import Mathlib.Data.List.Induction
import Mathlib.Data.List.Nodup

/-! Dictionaries by their entries. What is put at a key that is there already leaves as many entries, so a
dictionary has one for each that is put in exactly if the keys are apart. -/
namespace Specimen

/-- A fold that appends each entry that is new among those before it keeps the entries as they are. -/
theorem foldl_append {α : Type} (put : α → List α → List α) (other : α → α → Prop)
    (append : ∀ entry kept, (∀ before ∈ kept, other before entry) → put entry kept = kept ++ [entry])
    {kept entries : List α} (h : (kept ++ entries).Pairwise other) :
    entries.foldl (fun kept entry => put entry kept) kept = kept ++ entries := by
  induction entries generalizing kept with
  | nil => simp
  | cons entry rest ih =>
    have new := append entry kept fun before hb =>
      (List.pairwise_append.mp h).2.2 before hb entry List.mem_cons_self
    rw [List.foldl_cons, new, ih (by rwa [List.append_assoc]), List.append_assoc]
    rfl

namespace Data

/-- The entries of a dictionary that entries are put in one after the other. -/
def putEntries (entries : List (Data × Data)) : List (Data × Data) :=
  entries.foldl (fun kept entry => putEntry entry.1 entry.2 kept) []

private theorem putEntries_append (entries : List (Data × Data)) (entry : Data × Data) :
    putEntries (entries ++ [entry]) = putEntry entry.1 entry.2 (putEntries entries) :=
  List.foldl_append

/-- Whether no two keys are the same. -/
def AreApart (keys : List Data) : Prop := keys.Pairwise fun key other => key.sameKey other = false

instance : DecidablePred AreApart := fun keys =>
  inferInstanceAs (Decidable (keys.Pairwise fun key other => key.sameKey other = false))

theorem areApart_str {names : List Text} : AreApart (names.map .str) ↔ names.Nodup := by
  rw [AreApart, List.pairwise_map, List.Nodup]
  refine List.Pairwise.iff fun name other => ?_
  rw [sameKey, beq_eq_false_iff_ne]

private theorem putEntry_of_new {key value : Data} {entries : List (Data × Data)}
    (h : ∀ entry ∈ entries, sameKey entry.1 key = false) :
    putEntry key value entries = entries ++ [(key, value)] := by
  induction entries with
  | nil => rfl
  | cons entry rest ih =>
    obtain ⟨he, hrest⟩ := List.forall_mem_cons.mp h
    rw [putEntry, he, ih hrest]
    rfl

/-- Entries whose keys are apart are put in as they are. -/
theorem putEntries_of_areApart {entries : List (Data × Data)} (h : AreApart (entries.map (·.1))) :
    putEntries entries = entries :=
  foldl_append (fun entry kept => putEntry entry.1 entry.2 kept)
    (fun before entry => sameKey before.1 entry.1 = false) (fun _ _ new => putEntry_of_new new)
    (List.pairwise_map.mp h)

/-- A value is put in the place of another one, or at the end. -/
private theorem length_putEntry (key value : Data) (entries : List (Data × Data)) :
    (putEntry key value entries).length = entries.length ∨
      (∀ entry ∈ entries, sameKey entry.1 key = false) ∧
        (putEntry key value entries).length = entries.length + 1 := by
  induction entries with
  | nil => exact .inr ⟨nofun, rfl⟩
  | cons entry rest ih =>
    rw [putEntry]
    split
    · exact .inl rfl
    · rename_i other
      refine ih.imp (congrArg Nat.succ) fun ⟨new, longer⟩ => ⟨List.forall_mem_cons.mpr ⟨?_, new⟩, ?_⟩
      · simpa using other
      · exact congrArg Nat.succ longer

private theorem length_putEntries_le (entries : List (Data × Data)) : (putEntries entries).length ≤ entries.length := by
  induction entries using List.reverseRecOn with
  | nil => exact Nat.le_refl _
  | append_singleton entries entry ih =>
    rw [putEntries_append, List.length_append, List.length_singleton]
    rcases length_putEntry entry.1 entry.2 (putEntries entries) with h | ⟨-, h⟩ <;> omega

/-- A dictionary has as many entries as are put in exactly if their keys are apart. -/
theorem length_putEntries {entries : List (Data × Data)} :
    (putEntries entries).length = entries.length ↔ AreApart (entries.map (·.1)) := by
  refine ⟨fun h => ?_, fun h => congrArg List.length (putEntries_of_areApart h)⟩
  induction entries using List.reverseRecOn with
  | nil => exact .nil
  | append_singleton entries entry ih =>
    rw [putEntries_append, List.length_append, List.length_singleton] at h
    have before := length_putEntries_le entries
    obtain ⟨new, longer⟩ := (length_putEntry entry.1 entry.2 (putEntries entries)).resolve_left (by omega)
    have apart := ih (by omega)
    rw [putEntries_of_areApart apart] at new
    rw [List.map_append]
    exact List.pairwise_append.mpr ⟨apart, List.pairwise_singleton _ _, fun key hk other ho => by
      obtain ⟨kept, hkept, rfl⟩ := List.mem_map.mp hk
      cases List.mem_singleton.mp ho
      exact new kept hkept⟩

/-- A dictionary has no other keys and values than those that are put in. -/
theorem forall_putEntries {p q : Data → Prop} {entries : List (Data × Data)}
    (h : ∀ entry ∈ entries, p entry.1 ∧ q entry.2) : ∀ entry ∈ putEntries entries, p entry.1 ∧ q entry.2 := by
  have put (entry : Data × Data) (hentry : p entry.1 ∧ q entry.2) (kept : List (Data × Data))
      (hkept : ∀ entry ∈ kept, p entry.1 ∧ q entry.2) :
      ∀ other ∈ putEntry entry.1 entry.2 kept, p other.1 ∧ q other.2 := by
    induction kept with
    | nil => simpa [putEntry] using hentry
    | cons first rest ih =>
      obtain ⟨hfirst, hrest⟩ := List.forall_mem_cons.mp hkept
      rw [putEntry]
      split
      · exact List.forall_mem_cons.mpr ⟨⟨hfirst.1, hentry.2⟩, hrest⟩
      · exact List.forall_mem_cons.mpr ⟨hfirst, ih hrest⟩
  exact List.foldlRecOn entries _ nofun fun kept hkept entry he => put entry (h entry he) kept hkept

end Data

end Specimen
