import Specimen.Reflection.World
import Specimen.Proofs.Json.Names
import Mathlib.Data.List.Nodup

/-! Looking up names in lists of entries, and entries put into them. -/
namespace Specimen
variable {α β : Type} {key other : Text} {value : α} {entries more : List (Text × α)}

theorem lookup_cons_ne (h : other ≠ key) (value : α) (rest : List (Text × α)) :
    List.lookup key ((other, value) :: rest) = List.lookup key rest := by
  rw [List.lookup_cons, beq_false_of_ne h.symm]

theorem lookup_eq_none (h : key ∉ entries.map (·.1)) : List.lookup key entries = none :=
  List.lookup_eq_none_iff.mpr fun entry he =>
    bne_iff_ne.mpr fun hk => h (List.mem_map.mpr ⟨entry, he, hk.symm⟩)

theorem mem_of_lookup (h : List.lookup key entries = some value) : (key, value) ∈ entries := by
  obtain ⟨before, after, rfl, -⟩ := List.lookup_eq_some_iff.mp h
  exact List.mem_append_right before List.mem_cons_self

/-- Entries that are left out do not matter to a name that keeps its own. -/
theorem lookup_filter {keep : Text × α → Bool} (h : ∀ value, keep (key, value) = true) :
    List.lookup key (entries.filter keep) = List.lookup key entries := by
  induction entries with
  | nil => rfl
  | cons entry rest ih =>
    obtain ⟨name, value⟩ := entry
    rw [List.filter_cons]
    by_cases hk : name = key
    · rw [hk, if_pos (h value), List.lookup_cons_self, List.lookup_cons_self]
    · split
      · rw [lookup_cons_ne hk, lookup_cons_ne hk, ih]
      · rw [lookup_cons_ne hk, ih]

/-- Where each name stands once, a name has the value that it stands with. -/
theorem lookup_of_mem (nodup : (entries.map (·.1)).Nodup) (h : (key, value) ∈ entries) :
    List.lookup key entries = some value := by
  induction entries with
  | nil => cases h
  | cons entry rest ih =>
    obtain ⟨hout, hrest⟩ := List.nodup_cons.mp nodup
    obtain ⟨name, first⟩ := entry
    rcases List.mem_cons.mp h with he | h
    · cases he
      exact List.lookup_cons_self
    · rw [lookup_cons_ne (fun he => hout (List.mem_map.mpr ⟨_, h, he.symm⟩))]
      exact ih hrest h

theorem lookup_put_self (key : Text) (value : α) (entries : List (Text × α)) :
    List.lookup key (Json.put key value entries) = some value := by
  induction entries with
  | nil => exact List.lookup_cons_self
  | cons entry rest ih =>
    rw [Json.put]
    split
    · rename_i hk
      rw [eq_of_beq hk]
      exact List.lookup_cons_self
    · rename_i hk
      rw [lookup_cons_ne (fun he => hk (beq_iff_eq.mpr he))]
      exact ih

theorem lookup_put_ne (h : other ≠ key) (value : α) (entries : List (Text × α)) :
    List.lookup key (Json.put other value entries) = List.lookup key entries := by
  induction entries with
  | nil => exact lookup_cons_ne h value []
  | cons entry rest ih =>
    rw [Json.put]
    split
    · rename_i hk
      have hne : entry.1 ≠ key := eq_of_beq hk ▸ h
      rw [lookup_cons_ne hne, lookup_cons_ne hne]
    · by_cases hk : entry.1 = key
      · rw [← hk, List.lookup_cons_self, List.lookup_cons_self]
      · rw [lookup_cons_ne hk, lookup_cons_ne hk, ih]

end Specimen
