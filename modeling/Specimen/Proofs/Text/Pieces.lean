import Mathlib.Data.List.Basic
import Specimen.Text.Blank

/-! Texts cut into pieces and put together again, and the ends of trimmed texts. -/
namespace Specimen

section Stops
variable {α : Type} [DecidableEq α] {part : List α} {stop : α}

private theorem passes_ne (h : stop ∉ part) : ∀ x ∈ part, decide (x ≠ stop) = true :=
  fun _ hx => decide_eq_true fun he => h (he ▸ hx)

theorem dropWhile_ne (h : stop ∉ part) (rest : List α) :
    (part ++ stop :: rest).dropWhile (· ≠ stop) = stop :: rest := by
  rw [List.dropWhile_append_of_pos (passes_ne h)]
  simp

theorem takeWhile_ne (h : stop ∉ part) (rest : List α) :
    (part ++ stop :: rest).takeWhile (· ≠ stop) = part := by
  rw [List.takeWhile_append_of_pos (passes_ne h)]
  simp

end Stops

namespace Text

section Pieces
variable {separator : CodePoint} {text piece : Text}

theorem notMem_of_mem_splitOn (h : piece ∈ text.splitOn separator) : separator ∉ piece := by
  induction text generalizing piece with
  | nil =>
    rw [List.splitOn_nil, List.mem_singleton] at h
    exact h ▸ List.not_mem_nil
  | cons c text ih =>
    rw [List.splitOn_cons_eq_if_modifyHead] at h
    split at h
    · rcases List.mem_cons.mp h with rfl | h
      · exact List.not_mem_nil
      · exact ih h
    · rename_i hc
      obtain ⟨first, rest, hpieces⟩ := List.exists_cons_of_ne_nil (List.splitOn_ne_nil separator text)
      rw [hpieces, List.modifyHead_cons] at h
      rcases List.mem_cons.mp h with rfl | h
      · have clean := ih (hpieces ▸ List.mem_cons_self)
        exact fun hin => (List.mem_cons.mp hin).elim (fun same => hc (beq_iff_eq.mpr same.symm)) clean
      · exact ih (hpieces ▸ List.mem_cons_of_mem _ h)

theorem intercalate_append (separator : Text) {front back : List Text} (hfront : front ≠ []) (hback : back ≠ []) :
    separator.intercalate (front ++ back) = separator.intercalate front ++ separator ++ separator.intercalate back := by
  induction front with
  | nil => exact absurd rfl hfront
  | cons part rest ih =>
    cases rest with
    | nil => rw [List.singleton_append, List.intercalate_cons_of_ne_nil hback, List.intercalate_singleton]
    | cons next rest =>
      rw [List.cons_append, List.intercalate_cons_of_ne_nil (by simp), ih (List.cons_ne_nil _ _),
        List.intercalate_cons_cons]
      simp only [List.append_assoc]

end Pieces

section Ends
variable {text : Text} {c : CodePoint}

private theorem trim_eq_self (first : ∀ c ∈ text.head?, isBlank c = false)
    (last : ∀ c ∈ text.getLast?, isBlank c = false) : trim text = text := by
  have keep : ∀ s : Text, (∀ c ∈ s.head?, isBlank c = false) → s.dropWhile isBlank = s := by
    intro s hs
    cases s with
    | nil => rfl
    | cons c s => exact List.dropWhile_cons_of_neg (by simp [hs c rfl])
  rw [trim, keep text first, keep text.reverse (by rwa [List.head?_reverse]), List.reverse_reverse]

private theorem isBlank_head?_dropWhile (h : c ∈ (text.dropWhile isBlank).head?) : isBlank c = false := by
  have := List.head?_dropWhile_not isBlank text
  rwa [Option.mem_def.mp h] at this

private theorem isBlank_head?_trim (h : c ∈ (trim text).head?) : isBlank c = false := by
  -- a trimmed text begins as the text behind its leading white space does
  have front : trim text <+: text.dropWhile isBlank := by
    rw [trim, ← List.reverse_suffix, List.reverse_reverse]
    exact List.dropWhile_suffix isBlank
  obtain ⟨rest, whole⟩ := front
  exact isBlank_head?_dropWhile (whole ▸ List.mem_head?_append_of_mem_head? h)

private theorem isBlank_getLast?_trim (h : c ∈ (trim text).getLast?) : isBlank c = false := by
  rw [trim, List.getLast?_reverse] at h
  exact isBlank_head?_dropWhile h

theorem trim_trim (text : Text) : trim (trim text) = trim text :=
  trim_eq_self (fun _ => isBlank_head?_trim) fun _ => isBlank_getLast?_trim

theorem mem_of_mem_trim (h : c ∈ trim text) : c ∈ text :=
  (List.dropWhile_sublist _).subset (List.mem_reverse.mp ((List.dropWhile_sublist _).subset (List.mem_reverse.mp h)))

/-- A text without white space around it stays so where another code point stands in the place of one. -/
theorem trim_replace {front back : Text} {d : CodePoint} (trimmed : trim (front ++ c :: back) = front ++ c :: back)
    (visible : isBlank d = false) : trim (front ++ d :: back) = front ++ d :: back := by
  refine trim_eq_self (fun x hx => ?_) fun x hx => ?_
  · cases front with
    | nil => exact Option.some.inj hx ▸ visible
    | cons first front =>
      have head : x ∈ (trim (first :: front ++ c :: back)).head? := trimmed.symm ▸ hx
      exact isBlank_head?_trim head
  · rw [List.getLast?_append_cons] at hx
    cases back with
    | nil => exact Option.some.inj hx ▸ visible
    | cons next back =>
      have last : x ∈ (trim (front ++ c :: next :: back)).getLast? := by
        rwa [trimmed, List.getLast?_append_cons, List.getLast?_cons_cons, ← List.getLast?_cons_cons]
      exact isBlank_getLast?_trim last

end Ends

end Text

end Specimen
