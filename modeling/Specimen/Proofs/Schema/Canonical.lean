import Specimen.Proofs.Naming.Identifier
import Specimen.Proofs.Schema.Sorted
import Specimen.Schema.TypeRef
import Mathlib.Data.List.Induction

/-! A canonical text determines the entries it was made from, although keys are spliced into it
unescaped. The text is read from its end: a key that reached back over a delimiter would need another
identifier than the key it ends in. -/
namespace Specimen.Fingerprint
open Naming (IsNameOf)
open Text (IsDecimal IsHexLetter Misses Gap)

/-- A digest in decimal digits and small letters, at least one of them a letter. -/
structure IsLettered (digest : Text) : Prop where
  hexadecimal : ∀ c ∈ digest, IsDecimal c ∨ IsHexLetter c
  lettered : ∃ c ∈ digest, IsHexLetter c

/-- The type keys over the given digests. -/
inductive IsTypeKey (digests : Text → Prop) : Text → Prop where
  | null : IsTypeKey digests "null"
  | any : IsTypeKey digests "any"
  | scalar (kind : Scalar) : IsTypeKey digests kind.name
  | object {digest : Text} (known : digests digest) : IsTypeKey digests (0x7B :: digest ++ [0x7D])
  | array {key : Text} (element : IsTypeKey digests key) : IsTypeKey digests (0x5B :: key ++ [0x5D])

/-- What a record says about one field: its key, identifier and type key, and whether it is optional. -/
@[ext]
structure Signature where
  key : Text
  name : Text
  typeKey : Text
  optional : Bool
  deriving DecidableEq, Repr

namespace Signature

/-- The entry of the field in the fingerprint. -/
def entry (signature : Signature) : Entry :=
  ⟨signature.key ++ "=" ++ signature.name, signature.typeKey, signature.optional⟩

/-- Whether naming may give the field this identifier, and this type key over the given digests. -/
structure IsBuilt (digests : Text → Prop) (signature : Signature) : Prop where
  named : IsNameOf signature.key signature.name
  typed : IsTypeKey digests signature.typeKey

end Signature

section TypeKey

private theorem isHex_lt {c : CodePoint} (h : IsDecimal c ∨ IsHexLetter c) : c < 0x67 :=
  Nat.lt_succ_of_le (h.elim (fun hd => Nat.le_trans hd.2 (by decide)) And.right)

private theorem isHex_cased {c : CodePoint} (h : IsDecimal c ∨ IsHexLetter c) :
    Text.isAlphanumeric c = true ∧ Text.isUpper c = false := by
  have below : ∀ d < 0x67, IsDecimal d ∨ IsHexLetter d →
      Text.isAlphanumeric d = true ∧ Text.isUpper d = false := by decide +kernel
  exact below c (isHex_lt h) h

/-- The characters of type keys over hexadecimal digests. -/
private theorem IsTypeKey.isAlphanumeric_or_bracket {digests : Text → Prop} {key : Text}
    (hexadecimal : ∀ digest, digests digest → ∀ c ∈ digest, IsDecimal c ∨ IsHexLetter c)
    (h : IsTypeKey digests key) :
    ∀ c ∈ key, Text.isAlphanumeric c = true ∨ c ∈ [0x5B, 0x5D, 0x7B, 0x7D] := by
  have named : ∀ name ∈ (["null", "any", "boolean", "integer", "float", "string"] : List Text),
      ∀ c ∈ name, Text.isAlphanumeric c = true := by decide +kernel
  have enclosed : ∀ {first last : CodePoint} {inner : Text},
      first ∈ [0x5B, 0x5D, 0x7B, 0x7D] → last ∈ [0x5B, 0x5D, 0x7B, 0x7D] →
      (∀ c ∈ inner, Text.isAlphanumeric c = true ∨ c ∈ [0x5B, 0x5D, 0x7B, 0x7D]) →
      ∀ c ∈ first :: inner ++ [last],
        Text.isAlphanumeric c = true ∨ c ∈ [0x5B, 0x5D, 0x7B, 0x7D] := by
    intro first last inner hf hl hi c hc
    rcases List.mem_append.mp hc with hc | hc
    · rcases List.mem_cons.mp hc with rfl | hc
      · exact .inr hf
      · exact hi c hc
    · exact .inr (List.mem_singleton.mp hc ▸ hl)
  induction h with
  | null => exact fun c hc => .inl (named _ (by decide) c hc)
  | any => exact fun c hc => .inl (named _ (by decide) c hc)
  | scalar kind => exact fun c hc => .inl (named _ (by cases kind <;> decide) c hc)
  | object known =>
    exact enclosed (by decide) (by decide) fun c hc =>
      .inl (isHex_cased (hexadecimal _ known c hc)).1
  | array element ih => exact enclosed (by decide) (by decide) ih

theorem IsTypeKey.misses {low high : Nat} (gap : Gap low high)
    (brackets : ∀ c ∈ [0x5B, 0x5D, 0x7B, 0x7D], Misses low high c)
    {digests : Text → Prop} {key : Text}
    (hexadecimal : ∀ digest, digests digest → ∀ c ∈ digest, IsDecimal c ∨ IsHexLetter c)
    (h : IsTypeKey digests key) : ∀ c ∈ key, Misses low high c := by
  intro c hc
  rcases h.isAlphanumeric_or_bracket hexadecimal c hc with ha | hb
  · exact gap.isAlphanumeric ha
  · exact brackets c hb

private theorem joined_enclosed {first last : CodePoint}
    (hf : Text.isAlphanumeric first = false) (hl : Text.isAlphanumeric last = false)
    (inner : Text) : Naming.joined (first :: inner ++ [last]) = Naming.joined inner := by
  have hnil : Naming.joined [] = [] := rfl
  have := Naming.joined_append hf [] (inner ++ [last])
  rw [List.nil_append, hnil, List.nil_append] at this
  rw [List.cons_append, this, Naming.joined_append hl, hnil, List.append_nil]

private theorem capitalize_hex {c : CodePoint} {rest : Text}
    (h : ∀ d ∈ c :: rest, IsDecimal d ∨ IsHexLetter d) :
    Naming.capitalize (c :: rest) = (if c < 0x3A then c else c - 0x20) :: rest := by
  have upper : ∀ d < 0x67, IsDecimal d ∨ IsHexLetter d →
      Text.upperOf d = [if d < 0x3A then d else d - 0x20] := by decide +kernel
  have hno : Text.isAllUpper (c :: rest) = false := by
    rw [Text.isAllUpper, List.any_eq_false.mpr fun d hd => by simp [(isHex_cased (h d hd)).2]]
    rfl
  have hc := h c List.mem_cons_self
  simp only [Naming.capitalize, hno, Bool.and_false, Bool.false_eq_true, if_false]
  rw [upper c (isHex_lt hc) hc]
  rfl

private theorem isDistinct_digest {digest : Text} (h : IsLettered digest) :
    Naming.IsDistinct (Naming.joined digest) := by
  obtain ⟨hexadecimal, letter, hin, hl⟩ := h
  obtain ⟨c, rest, rfl⟩ := List.exists_cons_of_ne_nil (List.ne_nil_of_mem hin)
  have hword : Naming.joined (c :: rest) = (if c < 0x3A then c else c - 0x20) :: rest := by
    rw [Naming.joined, Naming.segments_word (List.cons_ne_nil c rest)
      fun d hd => (isHex_cased (hexadecimal d hd)).1, List.flatMap_singleton,
      capitalize_hex hexadecimal]
  have hc := hexadecimal c List.mem_cons_self
  have first : ∀ d < 0x67, IsDecimal d ∨ IsHexLetter d →
      (if d < 0x3A then d else d - 0x20) ∉ ("Nield" : Text) := by decide +kernel
  have letters : ∀ d < 0x67, IsHexLetter d →
      Text.isLetter d = true ∧ Text.isLetter (if d < 0x3A then d else d - 0x20) = true := by
    decide +kernel
  have hfirst := first c (isHex_lt hc) hc
  rw [hword]
  refine ⟨?_, ?_, ?_, ?_⟩
  · have hletter := letters letter (isHex_lt (.inr hl)) hl
    rcases List.mem_cons.mp hin with rfl | hin
    · exact ⟨_, List.mem_cons_self, hletter.2⟩
    · exact ⟨letter, List.mem_cons_of_mem _ hin, hletter.1⟩
  · rintro d ⟨⟩ hd
    exact hfirst (List.mem_cons_of_mem _ hd)
  · intro hstart
    obtain ⟨tail, ht⟩ := hstart
    have := hexadecimal ('i' : CodePoint)
      (List.mem_cons_of_mem c (by rw [← (List.cons.inj ht).2]; exact List.mem_cons_self))
    exact absurd this (by decide)
  · intro hn
    refine absurd ?_ hfirst
    rw [Option.some.inj hn]
    exact List.mem_cons_self

/-- The segments of a type key are a word that marks the end of an entry. -/
private theorem IsTypeKey.isDistinct {key : Text} (h : IsTypeKey IsLettered key) :
    Naming.IsDistinct (Naming.joined key) := by
  induction h with
  | null => constructor <;> decide +kernel
  | any => constructor <;> decide +kernel
  | scalar kind => cases kind <;> constructor <;> decide +kernel
  | object known => rw [joined_enclosed (by decide) (by decide)]; exact isDistinct_digest known
  | array element ih => rw [joined_enclosed (by decide) (by decide)]; exact ih

end TypeKey

section Reading

/-- The text of an entry behind its key. -/
private def tailOf (signature : Signature) : Text :=
  ('=' : CodePoint) :: (signature.name ++ (':' : CodePoint) ::
    (signature.typeKey ++ if signature.optional then ("?" : Text) else []))

private theorem text_entry (signature : Signature) :
    signature.entry.text = signature.key ++ tailOf signature := by
  simp only [Signature.entry, Entry.text, tailOf, Text.ofString, List.append_assoc]
  rfl

private theorem append_cons_inj_last {c : CodePoint} {left right s t : Text} (hs : c ∉ s)
    (ht : c ∉ t) (h : left ++ c :: s = right ++ c :: t) : left = right ∧ s = t := by
  rcases List.append_eq_append_iff.mp h with ⟨past, hr, hc⟩ | ⟨past, hl, hc⟩
  · cases past with
    | nil => exact ⟨by rw [hr, List.append_nil], (List.cons.inj hc).2⟩
    | cons d past =>
      obtain ⟨-, rfl⟩ := List.cons.inj hc
      exact absurd (List.mem_append_right past List.mem_cons_self) hs
  · cases past with
    | nil => exact ⟨by rw [hl, List.append_nil], (List.cons.inj hc).2.symm⟩
    | cons d past =>
      obtain ⟨-, rfl⟩ := List.cons.inj hc
      exact absurd (List.mem_append_right past List.mem_cons_self) ht

variable {a b : Signature}

private theorem not_delimiter {text : Text} (h : ∀ c ∈ text, Misses 0x3A 0x3F c) {c : CodePoint}
    (hc : ¬ Misses 0x3A 0x3F c) : c ∉ text := fun hm => hc (h c hm)

private theorem name_misses (ha : a.IsBuilt IsLettered) : ∀ c ∈ a.name, Misses 0x3A 0x3F c :=
  ha.named.misses Text.gap_delimiters (by decide)

private theorem typeKey_misses (ha : a.IsBuilt IsLettered) : ∀ c ∈ a.typeKey, Misses 0x3A 0x3F c :=
  ha.typed.misses Text.gap_delimiters (by decide) fun _ h => h.hexadecimal

private theorem typed_inj (ha : a.IsBuilt IsLettered) (hb : b.IsBuilt IsLettered)
    (h : a.typeKey ++ (if a.optional then ("?" : Text) else []) =
      b.typeKey ++ (if b.optional then ("?" : Text) else [])) :
    a.typeKey = b.typeKey ∧ a.optional = b.optional := by
  have mark : ∀ {s : Signature}, s.IsBuilt IsLettered → ('?' : CodePoint) ∉ s.typeKey :=
    fun hs => not_delimiter (typeKey_misses hs) (by decide)
  cases hao : a.optional <;> cases hbo : b.optional
  · simpa [hao, hbo] using h
  · simp only [hao, hbo, if_true, Bool.false_eq_true, if_false, List.append_nil] at h
    exact absurd (h ▸ List.mem_append_right _ List.mem_cons_self) (mark ha)
  · simp only [hao, hbo, if_true, Bool.false_eq_true, if_false, List.append_nil] at h
    exact absurd (h ▸ List.mem_append_right _ List.mem_cons_self) (mark hb)
  · simpa [hao, hbo] using h

/-- Read from the end, a text gives the last entry up to its key. -/
private theorem append_tailOf_inj (ha : a.IsBuilt IsLettered) (hb : b.IsBuilt IsLettered)
    {left right : Text} (h : left ++ tailOf a = right ++ tailOf b) :
    left = right ∧ a.name = b.name ∧ a.typeKey = b.typeKey ∧ a.optional = b.optional := by
  have colon : ∀ {s : Signature}, s.IsBuilt IsLettered → (':' : CodePoint) ∉
      s.typeKey ++ (if s.optional then ("?" : Text) else []) := by
    intro s hs hm
    rcases List.mem_append.mp hm with hm | hm
    · exact not_delimiter (typeKey_misses hs) (by decide) hm
    · revert hm
      cases s.optional <;> decide
  have equals : ∀ {s : Signature}, s.IsBuilt IsLettered → ('=' : CodePoint) ∉ s.name :=
    fun hs => not_delimiter (name_misses hs) (by decide)
  simp only [tailOf] at h
  have hcolon := @append_cons_inj_last _ (left ++ ('=' : CodePoint) :: a.name)
    (right ++ ('=' : CodePoint) :: b.name) _ _ (colon ha) (colon hb) (by simpa using h)
  obtain ⟨hleft, hname⟩ := append_cons_inj_last (equals ha) (equals hb) hcolon.1
  exact ⟨hleft, hname, typed_inj ha hb hcolon.2⟩

private theorem semicolon_not_mem_tailOf (ha : a.IsBuilt IsLettered) : (';' : CodePoint) ∉ tailOf a := by
  intro hm
  simp only [tailOf, List.mem_cons, List.mem_append] at hm
  rcases hm with hm | hm | hm | hm | hm
  · exact absurd hm (by decide)
  · exact not_delimiter (name_misses ha) (by decide) hm
  · exact absurd hm (by decide)
  · exact not_delimiter (typeKey_misses ha) (by decide) hm
  · revert hm
    cases a.optional <;> decide

private theorem joined_delimiter {c : CodePoint} (hc : ¬ Misses 0x3A 0x3F c) (text rest : Text) :
    Naming.joined (text ++ c :: rest) = Naming.joined text ++ Naming.joined rest :=
  Naming.joined_append (Bool.eq_false_iff.mpr fun h => hc (Text.gap_delimiters.isAlphanumeric h))
    text rest

/-- A key that reaches back over the end of an entry gets another identifier than the key it ends in. -/
private theorem not_isNameOf_behind (ha : a.IsBuilt IsLettered) (before : Text) {key name : Text}
    (hlong : IsNameOf (before ++ (tailOf a ++ (';' : CodePoint) :: key)) name)
    (hshort : IsNameOf key name) : False := by
  have htail : Naming.joined (before ++ (tailOf a ++ (';' : CodePoint) :: key)) =
      Naming.joined before ++ Naming.joined a.name ++
        (Naming.joined a.typeKey ++ Naming.joined key) := by
    have hmark : Naming.joined (a.typeKey ++ ((if a.optional then ("?" : Text) else []) ++
        (';' : CodePoint) :: key)) = Naming.joined a.typeKey ++ Naming.joined key := by
      cases a.optional
      · exact joined_delimiter (by decide) _ _
      · rw [if_pos rfl]
        exact (joined_delimiter (by decide) a.typeKey _).trans
          (congrArg _ (joined_delimiter (by decide) [] key))
    simp only [tailOf, List.cons_append, List.append_assoc]
    rw [joined_delimiter (by decide), joined_delimiter (by decide), hmark]
  obtain ⟨digits, hd, hl⟩ := hlong
  obtain ⟨others, ho, hs⟩ := hshort
  rw [Naming.normalize_eq, htail] at hl
  rw [Naming.normalize_eq] at hs
  exact Naming.identifierOf_ne ha.typed.isDistinct _ _ hd ho (hl.symm.trans hs)

/-- The texts of entries, each with a semicolon behind it. -/
private def leadOf (signatures : List Signature) : Text :=
  signatures.flatMap fun signature => signature.entry.text ++ [(';' : CodePoint)]

private theorem leadOf_eq_intercalate {signatures : List Signature} (hne : signatures ≠ []) :
    leadOf signatures =
      List.intercalate ";" (signatures.map fun s => s.entry.text) ++ [(';' : CodePoint)] := by
  induction signatures with
  | nil => exact absurd rfl hne
  | cons first rest ih =>
    rw [leadOf, List.flatMap_cons, ← leadOf]
    cases rest with
    | nil => simp [leadOf]
    | cons next rest =>
      rw [ih (List.cons_ne_nil next rest)]
      simp only [List.map_cons, List.intercalate_cons_cons, List.append_assoc]
      rfl

private theorem leadOf_concat (front : List Signature) (last : Signature) :
    leadOf (front ++ [last]) =
      leadOf front ++ last.key ++ (tailOf last ++ [(';' : CodePoint)]) := by
  rw [leadOf, leadOf, List.flatMap_append, List.flatMap_singleton, text_entry]
  simp only [List.append_assoc]

private theorem leadOf_ends (front : List Signature) :
    leadOf front = [] ∨ ∃ before, leadOf front = before ++ [(';' : CodePoint)] := by
  rcases List.eq_nil_or_concat front with rfl | ⟨front, last, rfl⟩
  · exact .inl rfl
  · rw [List.concat_eq_append, leadOf_concat, ← List.append_assoc]
    exact .inr ⟨_, rfl⟩

/-- Where entries end inside others, they end with one of these, as no entry has a semicolon behind
its key. -/
private theorem leadOf_over {front others : List Signature} {past : Text} (ha : a.IsBuilt IsLettered)
    (h : leadOf (others ++ [a]) = leadOf front ++ past) :
    past = [] ∨ ∃ before, past = before ++ (tailOf a ++ [(';' : CodePoint)]) := by
  rw [leadOf_concat] at h
  rcases List.append_eq_append_iff.mp h with ⟨more, hfront, htail⟩ | ⟨before, -, hpast⟩
  · rcases List.eq_nil_or_concat more with rfl | ⟨more, c, rfl⟩
    · exact .inr ⟨[], htail.symm⟩
    rcases List.eq_nil_or_concat past with rfl | ⟨past, d, rfl⟩
    · exact .inl rfl
    simp only [List.concat_eq_append, ← List.append_assoc] at hfront htail
    have hc : c = (';' : CodePoint) := by
      rcases leadOf_ends front with hnil | ⟨before, hends⟩
      · rw [hnil] at hfront
        exact absurd hfront (by simp)
      · exact (List.cons.inj (List.append_inj' (hfront.symm.trans hends) rfl).2).1
    have hin : c ∈ tailOf a := by
      rw [(List.append_inj' htail rfl).1]
      simp
    exact absurd (hc ▸ hin) (semicolon_not_mem_tailOf ha)
  · exact .inr ⟨before, hpast⟩

/-- The key of the last entry begins where the entries before it end. -/
private theorem key_past_eq_nil {front others : List Signature} {past : Text}
    (ho : ∀ s ∈ others, s.IsBuilt IsLettered) (ha : a.IsBuilt IsLettered) (hb : b.IsBuilt IsLettered)
    (hname : a.name = b.name) (hlead : leadOf others = leadOf front ++ past)
    (hkey : a.key = past ++ b.key) : past = [] := by
  rcases List.eq_nil_or_concat others with rfl | ⟨others, last, rfl⟩
  · exact (List.append_eq_nil_iff.mp hlead.symm).2
  rw [List.concat_eq_append] at ho hlead
  have hlast : last.IsBuilt IsLettered := ho last (by simp)
  rcases leadOf_over hlast hlead with hnil | ⟨before, hpast⟩
  · exact hnil
  · rw [hpast, List.append_assoc, List.append_assoc] at hkey
    have hlong := ha.named
    rw [hkey, hname] at hlong
    exact (not_isNameOf_behind hlast before hlong hb.named).elim

private theorem leadOf_injective {left right : List Signature} (hl : ∀ s ∈ left, s.IsBuilt IsLettered)
    (hr : ∀ s ∈ right, s.IsBuilt IsLettered) (h : leadOf left = leadOf right) : left = right := by
  have lead_ne_nil : ∀ (front : List Signature) (last : Signature),
      leadOf (front ++ [last]) ≠ [] := by simp [leadOf_concat]
  induction left using List.reverseRecOn generalizing right with
  | nil =>
    rcases List.eq_nil_or_concat right with rfl | ⟨front, last, rfl⟩
    · rfl
    · rw [List.concat_eq_append] at h
      exact absurd h.symm (lead_ne_nil front last)
  | append_singleton front a ih =>
    rcases List.eq_nil_or_concat right with rfl | ⟨others, b, rfl⟩
    · exact absurd h (lead_ne_nil front a)
    rw [List.concat_eq_append] at hr h ⊢
    have ha : a.IsBuilt IsLettered := hl a (by simp)
    have hb : b.IsBuilt IsLettered := hr b (by simp)
    have hfront : ∀ s ∈ front, s.IsBuilt IsLettered := fun s hs => hl s (List.mem_append_left _ hs)
    have hothers : ∀ s ∈ others, s.IsBuilt IsLettered := fun s hs => hr s (List.mem_append_left _ hs)
    rw [leadOf_concat, leadOf_concat, ← List.append_assoc, ← List.append_assoc] at h
    obtain ⟨hkeys, hname, htypeKey, hoptional⟩ :=
      append_tailOf_inj ha hb (List.append_inj' h rfl).1
    have hsplit : leadOf front = leadOf others ∧ a.key = b.key := by
      rcases List.append_eq_append_iff.mp hkeys with ⟨past, ho, hk⟩ | ⟨past, hf, hk⟩
      · have hnil := key_past_eq_nil hothers ha hb hname ho hk
        rw [hnil] at ho hk
        exact ⟨by rw [ho, List.append_nil], hk⟩
      · have hnil := key_past_eq_nil hfront hb ha hname.symm hf hk
        rw [hnil] at hf hk
        exact ⟨by rw [hf, List.append_nil], hk.symm⟩
    rw [ih hfront hothers hsplit.1, Signature.ext hsplit.2 hname htypeKey hoptional]

private theorem intercalate_injective {left right : List Signature} (hl : ∀ s ∈ left, s.IsBuilt IsLettered)
    (hr : ∀ s ∈ right, s.IsBuilt IsLettered)
    (h : List.intercalate ";" (left.map fun s => s.entry.text) =
      List.intercalate ";" (right.map fun s => s.entry.text)) : left = right := by
  have intercalate_ne_nil : ∀ {signatures : List Signature}, signatures ≠ [] →
      List.intercalate ";" (signatures.map fun s => s.entry.text) ≠ [] := by
    intro signatures hne
    obtain ⟨first, rest, rfl⟩ := List.exists_cons_of_ne_nil hne
    rw [List.map_cons, text_entry]
    cases rest <;> simp [tailOf]
  by_cases hleft : left = [] <;> by_cases hright : right = []
  · rw [hleft, hright]
  · rw [hleft] at h
    exact absurd h.symm (intercalate_ne_nil hright)
  · rw [hright] at h
    exact absurd h (intercalate_ne_nil hleft)
  · refine leadOf_injective hl hr ?_
    rw [leadOf_eq_intercalate hleft, leadOf_eq_intercalate hright, h]

end Reading

/-- The canonical text of built entries determines the entries. -/
theorem perm_of_canonical_eq {left right : List Signature} (hl : ∀ s ∈ left, s.IsBuilt IsLettered)
    (hr : ∀ s ∈ right, s.IsBuilt IsLettered)
    (h : canonical (left.map Signature.entry) = canonical (right.map Signature.entry)) :
    left.Perm right := by
  have sorted : ∀ signatures : List Signature,
      canonical (signatures.map Signature.entry) = List.intercalate ";"
        ((signatures.insertionSort fun a b => a.entry.rank ≤ b.entry.rank).map
          fun s => s.entry.text) := by
    intro signatures
    have hmap := List.map_insertionSort (fun a b : Signature => a.entry.rank ≤ b.entry.rank)
      (fun a b : Entry => a.rank ≤ b.rank) Signature.entry signatures fun _ _ _ _ => Iff.rfl
    rw [canonical, sort_eq_insertionSort, ← hmap, List.map_map]
    rfl
  rw [sorted, sorted] at h
  have := intercalate_injective (fun s hs => hl s ((List.mem_insertionSort _).mp hs))
    (fun s hs => hr s ((List.mem_insertionSort _).mp hs)) h
  exact (List.perm_insertionSort _ left).symm.trans (this ▸ List.perm_insertionSort _ right)

end Specimen.Fingerprint
