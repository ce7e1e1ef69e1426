import Specimen.Proofs.Naming.Scope
import Specimen.Proofs.Text.Gap

/-! Identifiers from their segments. The identifier of a text that ends in a delimiter, a word and a
second text is told apart from that of the second text, whatever numbers stand behind the two. -/
namespace Specimen.Naming
open Text (isLetter isAlphanumeric IsDecimal Misses Gap)

section Segments

private theorem flush_append (segment : Text) (rest : List Text) :
    flush segment rest = flush segment [] ++ rest := by
  rw [flush, flush]
  split <;> rfl

private theorem segmentsFrom_append {c : CodePoint} (boundary : isAlphanumeric c = false)
    (segment text rest : Text) :
    segmentsFrom segment (text ++ c :: rest) = segmentsFrom segment text ++ segments rest := by
  induction text generalizing segment with
  | nil =>
    rw [List.nil_append, segmentsFrom.eq_2, if_neg (by simp [boundary]), flush_append]
    rfl
  | cons d text ih =>
    rw [List.cons_append, segmentsFrom, segmentsFrom]
    split
    · exact ih _
    · rw [ih, flush_append segment (segmentsFrom [] text), List.append_assoc, ← flush_append]

/-- Segments end at what is neither a letter nor a number. -/
private theorem segments_append {c : CodePoint} (boundary : isAlphanumeric c = false) (text rest : Text) :
    segments (text ++ c :: rest) = segments text ++ segments rest :=
  segmentsFrom_append boundary [] text rest

private theorem segmentsFrom_word {word : Text} (h : ∀ c ∈ word, isAlphanumeric c = true)
    (segment : Text) : segmentsFrom segment word = flush (word.reverse ++ segment) [] := by
  induction word generalizing segment with
  | nil => rfl
  | cons c word ih =>
    rw [segmentsFrom, if_pos (h c List.mem_cons_self),
      ih fun d hd => h d (List.mem_cons_of_mem c hd)]
    simp

theorem segments_word {word : Text} (hne : word ≠ []) (h : ∀ c ∈ word, isAlphanumeric c = true) :
    segments word = [word] := by
  rw [segments, segmentsFrom_word h, List.append_nil, flush]
  simp [hne]

private theorem flatten_flush (segment : Text) (rest : List Text) :
    (flush segment rest).flatten = segment.reverse ++ rest.flatten := by
  rw [flush]
  split
  · rename_i empty
    rw [List.isEmpty_iff.mp empty]
    rfl
  · rfl

private theorem flatten_segmentsFrom (segment text : Text) :
    (segmentsFrom segment text).flatten = segment.reverse ++ text.filter isAlphanumeric := by
  induction text generalizing segment with
  | nil => exact flatten_flush segment []
  | cons c text ih =>
    rw [segmentsFrom, List.filter_cons]
    split
    · rw [ih, List.reverse_cons, List.append_assoc]
      rfl
    · rw [flatten_flush, ih]
      rfl

/-- The segments of a text are its letters and numbers. -/
theorem flatten_segments (text : Text) : (segments text).flatten = text.filter isAlphanumeric :=
  flatten_segmentsFrom [] text

theorem isAlphanumeric_of_mem_segments {text : Text} :
    ∀ s ∈ segments text, ∀ c ∈ s, isAlphanumeric c = true := by
  intro s hs c hc
  have hin : c ∈ (segments text).flatten := List.mem_flatten.mpr ⟨s, hs, hc⟩
  rw [flatten_segments] at hin
  exact (List.mem_filter.mp hin).2

end Segments

/-- The segments of a text, capitalized and put together. -/
def joined (text : Text) : Text := (segments text).flatMap capitalize

/-- The identifier made from segments put together. -/
def identifierOf : Text → Text
  | [] => emptyIdentifier
  | c :: rest => if isLetter c then c :: rest else digitLead ++ c :: rest

theorem normalize_eq (text : Text) : normalize text = identifierOf (joined text) := by
  rw [normalize, identifierOf.eq_def]
  rfl

theorem joined_append {c : CodePoint} (boundary : isAlphanumeric c = false) (text rest : Text) :
    joined (text ++ c :: rest) = joined text ++ joined rest := by
  rw [joined, segments_append boundary, List.flatMap_append]
  rfl

section Gaps
variable {low high : Nat} (gap : Gap low high)
include gap

private theorem capitalize_misses {segment : Text} (h : ∀ c ∈ segment, Misses low high c) :
    ∀ c ∈ capitalize segment, Misses low high c := by
  have first : ∀ {word : Text}, (∀ c ∈ word, Misses low high c) →
      ∀ c ∈ (match word with | [] => [] | c :: rest => Text.upperOf c ++ rest : Text),
        Misses low high c := by
    intro word hw c hc
    cases word with
    | nil => cases hc
    | cons d rest =>
      rcases List.mem_append.mp hc with hu | hr
      · exact gap.upperOf (hw d List.mem_cons_self) c hu
      · exact hw c (List.mem_cons_of_mem d hr)
  rw [capitalize]
  refine first ?_
  split
  · exact gap.lower h
  · exact h

private theorem joined_misses (text : Text) : ∀ c ∈ joined text, Misses low high c := by
  intro c hc
  obtain ⟨segment, hs, hin⟩ := List.mem_flatMap.mp hc
  exact capitalize_misses gap
    (fun d hd => gap.isAlphanumeric (isAlphanumeric_of_mem_segments segment hs d hd)) c hin

/-- No character of an identifier lies in a gap. -/
theorem normalize_misses (text : Text) : ∀ c ∈ normalize text, Misses low high c := by
  intro c hc
  have lead : ∀ d ∈ emptyIdentifier ++ digitLead, Misses low high d := by
    have letters : ∀ d ∈ emptyIdentifier ++ digitLead, isLetter d = true := by decide
    exact fun d hd => gap.isLetter (letters d hd)
  have hj := joined_misses gap text
  rw [normalize_eq, identifierOf.eq_def] at hc
  split at hc
  · exact lead c (List.mem_append_left _ hc)
  · rename_i d rest he
    rw [← he] at hc
    split at hc
    · exact hj c hc
    · rcases List.mem_append.mp hc with hn | hr
      · exact lead c (List.mem_append_right _ hn)
      · exact hj c hr

end Gaps

/-- A name that a scope may hand out for a text: its identifier, with decimal digits behind it. -/
def IsNameOf (text name : Text) : Prop :=
  ∃ digits : Text, (∀ c ∈ digits, IsDecimal c) ∧ name = normalize text ++ digits

theorem isNameOf_claim (scope : Scope) (text : Text) :
    IsNameOf text (scope.claimNormalized text).1 := by
  rcases scope.claim_eq (normalize text) with h | ⟨number, h⟩
  · exact ⟨[], by simp, by rw [Scope.claimNormalized, h, List.append_nil]⟩
  · exact ⟨Text.ofNat number, fun c hc => Text.isDecimal_of_mem_ofNat hc, h⟩

theorem decimal_misses {low high : Nat} (apart : 0x39 < low ∨ high < 0x30) {c : CodePoint}
    (h : IsDecimal c) : Misses low high c :=
  apart.imp (Nat.lt_of_le_of_lt h.2) fun below => Nat.lt_of_lt_of_le below h.1

theorem IsNameOf.misses {low high : Nat} (gap : Gap low high) (apart : 0x39 < low ∨ high < 0x30)
    {text name : Text} (h : IsNameOf text name) : ∀ c ∈ name, Misses low high c := by
  obtain ⟨digits, hd, rfl⟩ := h
  intro c hc
  rcases List.mem_append.mp hc with hn | hc
  · exact normalize_misses gap text c hn
  · exact decimal_misses apart (hd c hc)

section Claims

/-- The names that a scope hands out for the keys of a record, one after the other. -/
def Scope.claimEach (scope : Scope) : List Text → List Text
  | [] => []
  | key :: rest => (scope.claimNormalized key).1 :: (scope.claimNormalized key).2.claimEach rest

theorem Scope.claimEach_eq_claimAll (scope : Scope) (keys : List Text) :
    scope.claimEach keys = scope.claimAll (keys.map normalize) := by
  induction keys generalizing scope with
  | nil => rfl
  | cons key rest ih =>
    rw [claimEach, ih]
    rfl

/-- Keys whose identifiers differ get these as names. -/
private theorem claimEach_of_distinct {scope : Scope} {keys : List Text}
    (distinct : (keys.map normalize).Nodup)
    (free : ∀ key ∈ keys, scope.isTaken (normalize key) = false) :
    scope.claimEach keys = keys.map normalize := by
  induction keys generalizing scope with
  | nil => rfl
  | cons key rest ih =>
    obtain ⟨hout, hrest⟩ := List.nodup_cons.mp distinct
    have hclaim := Scope.claim_of_free (free key List.mem_cons_self)
    have hname : (scope.claimNormalized key).1 = normalize key := by
      rw [Scope.claimNormalized, hclaim]
    rw [Scope.claimEach, List.map_cons, hname, ih hrest]
    intro other ho
    refine Bool.eq_false_iff.mpr fun ht => ?_
    rcases Scope.isTaken_claim.mp ht with he | ht
    · rw [Scope.claimNormalized] at hname
      exact hout (List.mem_map.mpr ⟨other, ho, he.trans hname⟩)
    · rw [free other (List.mem_cons_of_mem key ho)] at ht
      cases ht

/-- The keys of a record, each with the name that it gets. -/
def named (keys : List Text) : List (Text × Text) := keys.zip (Scope.empty.claimEach keys)

/-- Keys that two records share get the same names in both. -/
def Agree (left right : List Text) : Prop :=
  ∀ x ∈ named left, ∀ y ∈ named right, x.1 = y.1 → x.2 = y.2

private theorem mem_named_of_distinct {keys : List Text} (distinct : (keys.map normalize).Nodup)
    {entry : Text × Text} (h : entry ∈ named keys) : entry.2 = normalize entry.1 := by
  rw [named, claimEach_of_distinct distinct fun _ _ => rfl, ← List.map_prod_left_eq_zip] at h
  obtain ⟨key, -, rfl⟩ := List.mem_map.mp h
  rfl

/-- Keys whose identifiers differ agree with others of the kind. -/
theorem agree_of_distinct {left right : List Text} (hl : (left.map normalize).Nodup)
    (hr : (right.map normalize).Nodup) : Agree left right := by
  intro x hx y hy key
  rw [mem_named_of_distinct hl hx, mem_named_of_distinct hr hy, key]

end Claims

/-- A word with a letter that no identifier of a text without letters and numbers can continue with,
and that is more than the lead put before numbers. -/
structure IsDistinct (word : Text) : Prop where
  lettered : ∃ c ∈ word, isLetter c = true
  head : ∀ c ∈ word.head?, c ∉ ("ield" : Text)
  start : ¬ ("Fi" : Text) <+: word
  lone : word.head? = some ('N' : CodePoint) → 1 < word.countP isLetter

section Distinct
variable {word : Text}

private theorem isLetter_decimal {c : CodePoint} (h : IsDecimal c) : isLetter c = false := by
  have : ∀ d < 0x3A, isLetter d = false := by decide
  exact this c (Nat.lt_succ_of_le h.2)

private theorem countP_decimal {digits : Text} (h : ∀ c ∈ digits, IsDecimal c) :
    digits.countP isLetter = 0 :=
  List.countP_eq_zero.mpr fun c hc => by simp [isLetter_decimal (h c hc)]

private theorem identifierOf_cons (c : CodePoint) (rest : Text) :
    (isLetter c = true ∧ identifierOf (c :: rest) = c :: rest) ∨
      (isLetter c = false ∧ identifierOf (c :: rest) = ('N' : CodePoint) :: c :: rest) := by
  rw [identifierOf]
  cases h : isLetter c
  · exact .inr ⟨rfl, rfl⟩
  · exact .inl ⟨rfl, rfl⟩

/-- Where nothing follows the word, it would have to lie inside the name of a text without segments. -/
private theorem append_ne_empty (distinct : IsDistinct word) (before : Text) {digits others : Text}
    (hd : ∀ c ∈ digits, IsDecimal c) (ho : ∀ c ∈ others, IsDecimal c) :
    before ++ (word ++ digits) ≠ emptyIdentifier ++ others := by
  obtain ⟨letter, hin, hl⟩ := distinct.lettered
  have outside : letter ∉ others := fun hm => by simp [isLetter_decimal (ho letter hm)] at hl
  obtain ⟨c, rest, rfl⟩ := List.exists_cons_of_ne_nil (List.ne_nil_of_mem hin)
  intro h
  rcases List.append_eq_append_iff.mp h with ⟨inside, hf, hw⟩ | ⟨past, -, hw⟩
  · cases before with
    | nil =>
      obtain ⟨rfl, hrest⟩ := List.cons.inj (hw.trans (congrArg (· ++ others) hf.symm))
      cases rest with
      | nil =>
        have := hd ('i' : CodePoint) (by rw [show digits = _ from hrest]; exact List.mem_cons_self)
        exact absurd this (by decide)
      | cons d rest =>
        obtain ⟨rfl, -⟩ := List.cons.inj hrest
        exact distinct.start ⟨rest, rfl⟩
    | cons b before =>
      obtain ⟨-, htail⟩ := List.cons.inj hf
      cases inside with
      | nil =>
        rw [List.nil_append] at hw
        exact outside (hw ▸ List.mem_append_left digits hin)
      | cons d inside =>
        obtain ⟨rfl, -⟩ := List.cons.inj hw
        refine distinct.head c rfl ?_
        rw [show ("ield" : Text) = _ from htail]
        exact List.mem_append_right _ List.mem_cons_self
  · exact outside (hw ▸ List.mem_append_right _ (List.mem_append_left _ hin))

/-- The identifier of segments with a distinct word before others is not that of the others, whatever
digits stand behind the two. -/
theorem identifierOf_ne (distinct : IsDistinct word) (before rest : Text) {digits others : Text}
    (hd : ∀ c ∈ digits, IsDecimal c) (ho : ∀ c ∈ others, IsDecimal c) :
    identifierOf (before ++ (word ++ rest)) ++ digits ≠ identifierOf rest ++ others := by
  obtain ⟨letter, hin, hl⟩ := distinct.lettered
  have hcount : 0 < word.countP isLetter := List.countP_pos_iff.mpr ⟨letter, hin, hl⟩
  obtain ⟨c, tail, hwhole⟩ := List.exists_cons_of_ne_nil
    (List.ne_nil_of_mem (List.mem_append_right before (List.mem_append_left rest hin)))
  intro h
  cases rest with
  | nil =>
    rw [hwhole] at h
    rcases identifierOf_cons c tail with ⟨-, he⟩ | ⟨-, he⟩
    · rw [he, ← hwhole, List.append_nil, List.append_assoc] at h
      exact append_ne_empty distinct before hd ho h
    · rw [he] at h
      exact absurd (List.cons.inj h).1 (by decide)
  | cons d rest =>
    -- The letters of both sides are counted; digits are none.
    have hletters := congrArg (List.countP isLetter) h
    rw [List.countP_append, List.countP_append, countP_decimal hd, countP_decimal ho] at hletters
    have hsum := congrArg (List.countP isLetter) hwhole
    rw [List.countP_append, List.countP_append] at hsum
    have hn : isLetter ('N' : CodePoint) = true := by decide
    rw [hwhole] at h hletters
    rcases identifierOf_cons d rest with ⟨-, hr⟩ | ⟨hfirst, hr⟩
    · rcases identifierOf_cons c tail with ⟨-, he⟩ | ⟨-, he⟩
      · rw [he, hr] at hletters
        omega
      · rw [he, hr, List.countP_cons] at hletters
        omega
    · rw [hr, List.countP_cons, if_pos hn] at hletters
      rcases identifierOf_cons c tail with ⟨hlead, he⟩ | ⟨-, he⟩
      · -- The word would have to be the lead itself.
        rw [he] at h hletters
        have hbefore : before.countP isLetter = 0 := by omega
        cases before with
        | cons b before =>
          obtain ⟨rfl, -⟩ := List.cons.inj hwhole
          rw [List.countP_cons, if_pos hlead] at hbefore
          omega
        | nil =>
          obtain ⟨w, word, rfl⟩ := List.exists_cons_of_ne_nil (List.ne_nil_of_mem hin)
          obtain ⟨rfl, -⟩ := List.cons.inj hwhole
          rw [hr] at h
          obtain ⟨rfl, -⟩ := List.cons.inj h
          have := distinct.lone rfl
          omega
      · rw [he, List.countP_cons, if_pos hn] at hletters
        omega

end Distinct

end Specimen.Naming
