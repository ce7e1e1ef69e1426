import Specimen.Proofs.Naming.Identifier
import Specimen.Proofs.Text.Lowered

/-! The case of names: identifiers do not begin with a small letter from a to z, and attribute names are
in lowercase, numbers behind them included, and begin with no underscore. -/
namespace Specimen.Naming
open Text (IsLowered IsSmall)

/-- A text that begins with some character, and with no small letter from a to z. -/
def IsHeaded (text : Text) : Prop := ∃ c rest, text = c :: rest ∧ ¬ IsSmall c

theorem IsHeaded.append {text : Text} (h : IsHeaded text) (rest : Text) : IsHeaded (text ++ rest) := by
  obtain ⟨c, tail, rfl, hc⟩ := h
  exact ⟨c, tail ++ rest, rfl, hc⟩

private theorem isHeaded_capitalize (segment : Text) :
    capitalize segment = [] ∨ IsHeaded (capitalize segment) := by
  fun_cases capitalize segment with
  | case1 => exact .inl rfl
  | case2 _ c rest => exact .inr (IsHeaded.append (Text.not_isSmall_upperOf c) rest)

private theorem isHeaded_flatMap (parts : List Text) :
    parts.flatMap capitalize = [] ∨ IsHeaded (parts.flatMap capitalize) := by
  induction parts with
  | nil => exact .inl rfl
  | cons segment rest ih =>
    rw [List.flatMap_cons]
    rcases isHeaded_capitalize segment with he | hh
    · rw [he]
      exact ih
    · exact .inr (hh.append _)

private theorem isHeaded_normalize (text : Text) : IsHeaded (normalize text) := by
  have lead : ∀ rest, IsHeaded (digitLead ++ rest) := fun rest =>
    IsHeaded.append ⟨_, [], rfl, by decide⟩ rest
  rw [normalize_eq, joined]
  rcases isHeaded_flatMap (segments text) with he | ⟨c, rest, he, hc⟩
  · rw [he]
    exact ⟨_, _, rfl, by decide⟩
  · rw [he, identifierOf]
    split
    · exact ⟨c, rest, rfl, hc⟩
    · exact lead _

/-- Names handed out for a text begin as its identifier does. -/
theorem IsNameOf.isHeaded {text name : Text} (h : IsNameOf text name) : IsHeaded name := by
  obtain ⟨digits, -, rfl⟩ := h
  exact (isHeaded_normalize text).append digits

theorem isLowered_snakeCase (name : Text) : ∀ c ∈ snakeCase name, IsLowered c := by
  have snake := Text.isLowered_lower (separateWords (normalize name))
  have bar : ∀ c ∈ ("_" : Text), IsLowered c := by decide +kernel
  intro c hc
  rw [snakeCase] at hc
  split at hc
  · exact (List.mem_append.mp hc).elim (snake c) (bar c)
  · exact snake c hc

/-- Names handed out for bases in lowercase are in lowercase. -/
theorem Scope.isLowered_claimAll {scope : Scope} {bases : List Text}
    (h : ∀ base ∈ bases, ∀ c ∈ base, IsLowered c) :
    ∀ name ∈ scope.claimAll bases, ∀ c ∈ name, IsLowered c := by
  intro name hn c hc
  obtain ⟨base, hb, rfl | ⟨number, rfl⟩⟩ := exists_base_of_mem_claimAll hn
  · exact h _ hb c hc
  · rcases List.mem_append.mp hc with hc | hc
    · exact h base hb c hc
    · exact Text.isLowered_decimal (Text.isDecimal_of_mem_ofNat hc)

/-- An attribute name has a first character, which is no underscore. -/
private theorem exists_snakeCase_eq (name : Text) : ∃ c rest, snakeCase name = c :: rest ∧ c ≠ 0x5F := by
  obtain ⟨c, rest, hname, -⟩ := isHeaded_normalize name
  have hc : Text.Misses 0x5F 0x5F c :=
    normalize_misses Text.gap_underscore name c (hname ▸ List.mem_cons_self)
  obtain ⟨more, hwords⟩ : ∃ more, separateWords (c :: rest) = c :: more := ⟨_, rfl⟩
  obtain ⟨d, last, hlower⟩ := List.exists_cons_of_ne_nil (Text.lowerAt_ne_nil [] c more)
  have hd : d ≠ 0x5F := by
    have := Text.gap_underscore.lowerAt hc d (hlower ▸ List.mem_cons_self)
    exact fun he => this.elim (he ▸ Nat.lt_irrefl _) (he ▸ Nat.lt_irrefl _)
  rw [snakeCase, hname, hwords, Text.lower, Text.lowerFrom, hlower]
  split
  · exact ⟨d, _, rfl, hd⟩
  · exact ⟨d, _, rfl, hd⟩

/-- Names handed out for attribute names begin with no underscore. -/
theorem Scope.isPublic_claimAll {scope : Scope} {names : List Text} :
    ∀ name ∈ scope.claimAll (names.map snakeCase), name.startsWith "_" = false := by
  intro name hn
  obtain ⟨base, hb, hname⟩ := exists_base_of_mem_claimAll hn
  obtain ⟨identifier, -, rfl⟩ := List.mem_map.mp hb
  obtain ⟨c, rest, hsnake, hc⟩ := exists_snakeCase_eq identifier
  have bar : ("_" : Text) = [0x5F] := by decide
  have first : ∀ rest, Text.startsWith (c :: rest) "_" = false := fun rest => by
    simp [bar, Text.startsWith, List.isPrefixOf, Ne.symm hc]
  rcases hname with rfl | ⟨number, rfl⟩
  · exact hsnake ▸ first rest
  · rw [numbered, hsnake]
    exact first _

section Gaps
variable {low high : Nat} (gap : Text.Gap low high) (bar : Text.Misses low high 0x5F)

private theorem mem_separateFrom {previous c : CodePoint} {text : Text} (h : c ∈ separateFrom previous text) :
    c = 0x5F ∨ c ∈ text := by
  induction text generalizing previous with
  | nil => cases h
  | cons d rest ih =>
    rw [separateFrom, List.mem_append] at h
    rcases h with h | h
    · split at h
      · exact (List.mem_cons.mp h).imp_right fun h => List.mem_cons.mpr (.inl (List.mem_singleton.mp h))
      · exact .inr (List.mem_cons.mpr (.inl (List.mem_singleton.mp h)))
    · exact (ih h).imp_right (List.mem_cons_of_mem d)

theorem mem_separateWords {c : CodePoint} {name : Text} (h : c ∈ separateWords name) :
    c = 0x5F ∨ c ∈ name := by
  cases name with
  | nil => cases h
  | cons d rest =>
    rcases List.mem_cons.mp h with rfl | h
    · exact .inr List.mem_cons_self
    · exact (mem_separateFrom h).imp_right (List.mem_cons_of_mem d)

include gap bar

/-- No character of an attribute name lies in a gap. -/
private theorem snakeCase_misses (name : Text) : ∀ c ∈ snakeCase name, Text.Misses low high c := by
  have words : ∀ c ∈ separateWords (normalize name), Text.Misses low high c := fun c hc =>
    (mem_separateWords hc).elim (· ▸ bar) (normalize_misses gap name c)
  have snake := gap.lower words
  intro c hc
  rw [snakeCase] at hc
  split at hc
  · rcases List.mem_append.mp hc with hc | hc
    · exact snake c hc
    · exact List.mem_singleton.mp hc ▸ bar
  · exact snake c hc

/-- Nor does a character of a name that is handed out for one. -/
theorem Scope.claimAll_misses (apart : 0x39 < low ∨ high < 0x30) {scope : Scope} {names : List Text} :
    ∀ name ∈ scope.claimAll (names.map snakeCase), ∀ c ∈ name, Text.Misses low high c := by
  intro name hn c hc
  obtain ⟨base, hb, hname⟩ := exists_base_of_mem_claimAll hn
  obtain ⟨identifier, -, rfl⟩ := List.mem_map.mp hb
  rcases hname with rfl | ⟨number, rfl⟩
  · exact snakeCase_misses gap bar identifier c hc
  · rcases List.mem_append.mp hc with hc | hc
    · exact snakeCase_misses gap bar identifier c hc
    · exact decimal_misses apart (Text.isDecimal_of_mem_ofNat hc)

end Gaps

end Specimen.Naming
