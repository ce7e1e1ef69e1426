import Mathlib.Data.List.Forall2
import Specimen.Projection.Reading
import Specimen.Proofs.Reflection.Denotation

/-! Types that keep a member out of documents, and types that do not, through evaluation: what forms give of
marks is marked, what was remembered of them is, and following the strings in a type changes neither. -/
namespace Specimen

namespace Referent
variable {world : World} {find : TypeExpr → Bool → Nat → Evaluator Referent} {d found : Referent}
  {memory after : Memory} {markers : List Marker}

/-- Whether a marker is the mark of members that are never serialized. -/
def isMark : Marker → Bool
  | .unserialized _ => true
  | .note _ => false

/-- Whether an annotation keeps its member out of documents. -/
def hides (d : Referent) : Bool := d.isStatic || d.isUnserialized

/-- Whether a type, and no string, keeps a member out of documents. -/
def isMarked : Referent → Bool
  | .classVar _ | .initVar _ | .form .classVar => true
  | .annotated _ markers => markers.any isMark
  | _ => false

mutual

/-- Whether a type leaves its member in documents, and so does whatever equals it: outside the arguments of
generics it holds no string, no mark and no class variable. -/
def isFirm : Referent → Bool
  | .text _ | .forward _ _ _ | .classVar _ | .initVar _ | .form .classVar => false
  | .annotated inner markers => !markers.any isMark && isFirm inner
  | .union _ members => !members.isEmpty && areFirm members
  | _ => true

/-- Whether this holds of several types. -/
def areFirm : List Referent → Bool
  | [] => true
  | d :: rest => isFirm d && areFirm rest

end

/-- Whether a type leaves its member in documents, whatever the strings in it denote: a union does if one of
its members is firm. -/
def isOpen : Referent → Bool
  | .annotated inner markers => !markers.any isMark && isOpen inner
  | .union _ members => members.any isFirm
  | d => d.isFirm

section Kinds

@[simp] theorem hides_annotated (inner : Referent) (markers : List Marker) :
    (annotated inner markers).hides = markers.any isMark :=
  congrArg markers.any (funext fun m => by cases m <;> rfl)

theorem hides_of_isMarked (h : d.isMarked = true) : d.hides = true := by
  cases d with
  | annotated inner markers => rwa [hides_annotated]
  | form form => cases form <;> first | rfl | cases h
  | classVar | initVar => rfl
  | _ => cases h

private theorem areFirm_iff {several : List Referent} : areFirm several = true ↔ ∀ d ∈ several, d.isFirm = true := by
  induction several with
  | nil => simp [areFirm]
  | cons d rest ih => rw [areFirm, Bool.and_eq_true, ih, List.forall_mem_cons]

theorem isFirm_annotated {inner : Referent} : (annotated inner markers).isFirm = true ↔
    markers.any isMark = false ∧ inner.isFirm = true := by
  rw [isFirm, Bool.and_eq_true, Bool.not_eq_true']

theorem isFirm_union {native : Bool} {members : List Referent} : (union native members).isFirm = true ↔
    members ≠ [] ∧ ∀ m ∈ members, m.isFirm = true := by
  rw [isFirm, Bool.and_eq_true, Bool.not_eq_true', areFirm_iff, List.isEmpty_eq_false_iff]

private theorem any_isFirm {several : List Referent} (given : several ≠ []) (firm : ∀ d ∈ several, d.isFirm = true) :
    several.any isFirm = true :=
  List.any_eq_true.mpr ⟨several.head given, List.head_mem given, firm _ (List.head_mem given)⟩

theorem isOpen_of_isFirm (h : d.isFirm = true) : d.isOpen = true := by
  induction d using isOpen.induct with
  | case1 inner markers ih =>
    obtain ⟨unmarked, firm⟩ := isFirm_annotated.mp h
    rw [isOpen, unmarked, ih firm]
    rfl
  | case2 native members =>
    obtain ⟨given, firm⟩ := isFirm_union.mp h
    exact any_isFirm given firm
  | case3 d plain single => rwa [isOpen.eq_3 d plain single]

theorem hides_of_isOpen (h : d.isOpen = true) : d.hides = false := by
  cases d with
  | annotated inner markers =>
    rw [isOpen, Bool.and_eq_true, Bool.not_eq_true'] at h
    rw [hides_annotated, h.1]
  | form form => cases form <;> first | rfl | cases h
  | classVar | initVar | text => cases h
  | _ => rfl

theorem ne_text_of_isMarked (h : d.isMarked = true) (expr : TypeExpr) : d ≠ .text expr := by
  rintro rfl
  cases h

theorem ne_text_of_isOpen (h : d.isOpen = true) (expr : TypeExpr) : d ≠ .text expr := by
  rintro rfl
  cases h

theorem isMarked_mark (h : markers.any isMark = true) (d : Referent) : (d.mark markers).isMarked = true := by
  cases d with
  | annotated inner earlier => simp [mark, isMarked, h]
  | _ => exact h

theorem isOpen_mark (h : markers.any isMark = false) (opened : d.isOpen = true) :
    (d.mark markers).isOpen = true := by
  cases d with
  | annotated inner earlier =>
    rw [isOpen, Bool.and_eq_true, Bool.not_eq_true'] at opened
    simp [mark, isOpen, h, opened]
  | _ => simpa [mark, isOpen, h] using opened

theorem isFirm_mark (h : markers.any isMark = false) (firm : d.isFirm = true) :
    (d.mark markers).isFirm = true := by
  cases d with
  | annotated inner earlier =>
    rw [isFirm_annotated] at firm
    simp [mark, isFirm_annotated, h, firm]
  | _ => exact isFirm_annotated.mpr ⟨h, firm⟩

theorem hides_mark (h : markers.any isMark = false) (left : d.hides = false) :
    (d.mark markers).hides = false := by
  cases d with
  | annotated inner earlier =>
    rw [hides_annotated] at left
    simp [mark, h, left]
  | _ => exact (hides_annotated _ markers).trans h

theorem isMarked_asMember (h : d.isMarked = true) : (asMember d).isMarked = true := by
  rw [asMember.eq_def]
  split
  · cases h
  · exact h

theorem isFirm_asMember (h : d.isFirm = true) : (asMember d).isFirm = true := by
  rw [asMember.eq_def]
  split
  · rfl
  · exact h

theorem isOpen_asMember (h : d.isOpen = true) : (asMember d).isOpen = true := by
  rw [asMember.eq_def]
  split
  · rfl
  · exact h

end Kinds

section Unions
variable {agree : Nat → Nat → Bool} {native : Bool} {members kept result : List Referent}

private theorem exists_of_anyM {p : Referent → Except Text Bool} (h : members.anyM p = .ok true) :
    ∃ k ∈ members, p k = .ok true := by
  induction members with
  | nil => cases h
  | cons k rest ih =>
    rw [List.anyM] at h
    obtain ⟨same, hsame, h⟩ := ok_of_bind h
    cases same with
    | true => exact ⟨k, List.mem_cons_self, hsame⟩
    | false =>
      obtain ⟨other, ho, hp⟩ := ih h
      exact ⟨other, List.mem_cons_of_mem k ho, hp⟩

mutual

/-- What equals a firm type is firm. -/
private theorem isFirm_of_compare : ∀ {k d : Referent}, compare agree k d = .ok true → d.isFirm = true →
    k.isFirm = true
  | .annotated inner markers, d, h, firm => by
    cases d <;> first | (simp only [compare] at h; cases h) | skip
    rename_i other others
    rw [compare] at h
    obtain ⟨same, hsame, h⟩ := ok_of_bind h
    obtain ⟨unmarked, firm⟩ := isFirm_annotated.mp firm
    have both : (same && sameMarkers markers others) = true := Except.ok.inj h
    rw [Bool.and_eq_true] at both
    exact isFirm_annotated.mpr ⟨eq_of_sameMarkers both.2 ▸ unmarked, isFirm_of_compare (both.1 ▸ hsame) firm⟩
  | .union native members, d, h, firm => by
    cases d <;> first | (simp only [compare] at h; cases h) | skip
    rename_i others
    obtain ⟨given, firm⟩ := isFirm_union.mp firm
    rw [compare] at h
    split at h
    · rename_i length
      refine isFirm_union.mpr ⟨fun none => given ?_, areFirm_of_compareMembers h firm⟩
      rw [none] at length
      exact List.eq_nil_of_length_eq_zero (beq_iff_eq.mp length).symm
    · cases h
  | .text _, d, h, firm | .forward _ _ _, d, h, firm | .classVar _, d, h, firm | .initVar _, d, h, firm => by
    cases d <;> first | (simp only [compare] at h; cases h) | cases firm
  | .form kind, d, h, firm => by
    cases d <;> first | (simp only [compare] at h; cases h) | skip
    rw [compare, Except.ok.injEq, beq_iff_eq] at h
    rwa [h]
  | .data _, _, _, _ | .ellipsis, _, _, _ | .cls _, _, _, _ | .module _, _, _, _ | .object _, _, _, _
  | .member _ _, _, _, _ | .generic _ _ _, _, _, _ | .literal _, _, _, _ | .final _, _, _, _ => rfl

private theorem areFirm_of_compareMembers : ∀ {several others : List Referent},
    compareMembers agree several others = .ok true → (∀ d ∈ others, d.isFirm = true) →
      ∀ k ∈ several, k.isFirm = true
  | [], _, _, _ => nofun
  | k :: rest, others, h, firm => by
    rw [compareMembers] at h
    obtain ⟨known, hknown, h⟩ := ok_of_bind h
    cases known with
    | false => cases h
    | true =>
      obtain ⟨d, hd, same⟩ := exists_of_anyM hknown
      exact List.forall_mem_cons.mpr
        ⟨isFirm_of_compare same (firm d hd), areFirm_of_compareMembers h firm⟩

end

/-- Lists of types are equal where each type equals the one in its place. -/
private theorem forall₂_of_compareList : ∀ {several others : List Referent},
    compareList agree several others = .ok true →
      List.Forall₂ (fun k d => compare agree k d = .ok true) several others
  | [], [], _ => .nil
  | [], _ :: _, h | _ :: _, [], h => by cases h
  | k :: several, d :: others, h => by
    rw [compareList] at h
    obtain ⟨same, hsame, h⟩ := ok_of_bind h
    cases same with
    | false => cases h
    | true => exact .cons hsame (forall₂_of_compareList h)

variable {several others : List Referent}

private theorem any_isFirm_of_compareList (h : compareList agree several others = .ok true)
    (firm : others.any isFirm = true) : several.any isFirm = true := by
  have pairs := forall₂_of_compareList h
  clear h
  induction pairs with
  | nil => cases firm
  | cons same _ ih =>
    rw [List.any_cons, Bool.or_eq_true] at firm ⊢
    exact firm.imp (isFirm_of_compare same) ih

private theorem all_isFirm_of_compareList (h : compareList agree several others = .ok true)
    (firm : ∀ d ∈ others, d.isFirm = true) : ∀ k ∈ several, k.isFirm = true := by
  have pairs := forall₂_of_compareList h
  clear h
  induction pairs with
  | nil => nofun
  | cons same _ ih =>
    obtain ⟨first, rest⟩ := List.forall_mem_cons.mp firm
    exact List.forall_mem_cons.mpr ⟨isFirm_of_compare same first, ih rest⟩

/-- Dropping repetitions leaves a firm type where there was one. -/
private theorem any_isFirm_distinct (h : distinct agree kept members = .ok result)
    (firm : kept.any isFirm = true ∨ members.any isFirm = true) : result.any isFirm = true := by
  induction members generalizing kept with
  | nil =>
    cases h
    simpa using firm
  | cons d rest ih =>
    rw [distinct] at h
    obtain ⟨known, hknown, h⟩ := ok_of_bind h
    refine ih h ?_
    rw [List.any_cons, Bool.or_eq_true, ← or_assoc] at firm
    refine firm.imp_left fun firm => ?_
    cases known with
    | false => simpa [or_comm] using firm
    | true =>
      obtain ⟨k, hk, same⟩ := exists_of_anyM hknown
      exact firm.elim id fun firm => List.any_eq_true.mpr ⟨k, hk, isFirm_of_compare same firm⟩

private theorem subset_of_distinct (h : distinct agree kept members = .ok result) : result ⊆ kept ++ members := by
  induction members generalizing kept with
  | nil =>
    cases h
    simp
  | cons d rest ih =>
    rw [distinct] at h
    obtain ⟨known, -, h⟩ := ok_of_bind h
    have := ih h
    cases known <;> grind

private theorem any_isFirm_flatten (firm : members.any isFirm = true) : (flatten members).any isFirm = true := by
  obtain ⟨m, hm, hfirm⟩ := List.any_eq_true.mp firm
  have inside {k : Referent} (hk : k ∈ flatten [m]) : k ∈ flatten members :=
    List.mem_flatMap.mpr ⟨m, hm, by simpa [flatten] using hk⟩
  cases m with
  | union _ inner =>
    obtain ⟨given, all⟩ := isFirm_union.mp hfirm
    have head := List.head_mem given
    exact List.any_eq_true.mpr ⟨_, inside (by simp [flatten]), all _ head⟩
  | _ => exact List.any_eq_true.mpr ⟨_, inside (List.mem_singleton_self _), hfirm⟩

private theorem all_isFirm_flatten (firm : ∀ m ∈ members, m.isFirm = true) :
    ∀ k ∈ flatten members, k.isFirm = true := by
  intro k hk
  obtain ⟨m, hm, hk⟩ := List.mem_flatMap.mp hk
  split at hk
  · exact (isFirm_union.mp (firm _ hm)).2 k hk
  · exact List.mem_singleton.mp hk ▸ firm m hm

/-- What members are united to is the only one of them that is kept, or a union of those. -/
private theorem exists_of_unite (h : unite agree native members = .ok d) :
    ∃ kept, distinct agree [] (flatten members) = .ok kept ∧ (kept = [d] ∨ d = .union native kept) := by
  rw [unite] at h
  obtain ⟨kept, hkept, h⟩ := ok_of_bind h
  refine ⟨kept, hkept, ?_⟩
  split at h
  · exact .inl (by rw [Except.ok.inj h])
  · exact .inr (Except.ok.inj h).symm

/-- A union with a firm member, or what it comes down to, leaves its member in documents. -/
theorem isOpen_of_unite (h : unite agree native members = .ok d) (firm : members.any isFirm = true) :
    d.isOpen = true := by
  obtain ⟨kept, hkept, rfl | rfl⟩ := exists_of_unite h
  · exact isOpen_of_isFirm (by simpa using any_isFirm_distinct hkept (.inr (any_isFirm_flatten firm)))
  · exact any_isFirm_distinct hkept (.inr (any_isFirm_flatten firm))

/-- A union of firm members, or what it comes down to, is firm. -/
theorem isFirm_of_unite (h : unite agree native members = .ok d) (given : members ≠ [])
    (firm : ∀ m ∈ members, m.isFirm = true) : d.isFirm = true := by
  obtain ⟨kept, hkept, way⟩ := exists_of_unite h
  have some : kept.any isFirm = true :=
    any_isFirm_distinct hkept (.inr (any_isFirm_flatten (any_isFirm given firm)))
  have all : ∀ m ∈ kept, m.isFirm = true := fun m hm =>
    all_isFirm_flatten firm m (subset_of_distinct hkept hm)
  rcases way with rfl | rfl
  · exact all d (List.mem_singleton_self d)
  · refine isFirm_union.mpr ⟨?_, all⟩
    rintro rfl
    cases some

theorem unite_of_uniteNew (h : Gives (uniteNew native members) memory d after) :
    unite memory.agree native members = .ok d := by
  have h := Gives.bind_get h
  split at h
  · rename_i made
    rw [(Gives.pure h).1, made]
  · cases h

end Unions

section Places
variable {lenient : Bool} {args accepted : List Referent}

/-- What is no string stands for itself in the place of a type, if it can stand there. -/
theorem eq_asMember_of_accept (h : Gives (accept world lenient d) memory found after)
    (plain : ∀ expr, d ≠ .text expr) : found = asMember d ∧ after = memory := by
  rcases accept_cases world lenient plain with same | ⟨trouble, refused⟩
  · rw [same] at h
    exact Gives.pure h
  · rw [refused] at h
    cases h

private theorem isFirm_of_accept (h : Gives (accept world lenient d) memory found after) (firm : d.isFirm = true) :
    found.isFirm = true := by
  rw [(eq_asMember_of_accept h (ne_text_of_isOpen (isOpen_of_isFirm firm))).1]
  exact isFirm_asMember firm

private theorem any_isFirm_accepted (h : Gives (acceptAll world args) memory accepted after)
    (firm : args.any isFirm = true) : accepted.any isFirm = true := by
  induction args generalizing memory accepted after with
  | nil => cases firm
  | cons d rest ih =>
    obtain ⟨first, _, hfirst, h⟩ := Gives.bind h
    obtain ⟨others, _, hothers, h⟩ := Gives.bind h
    rw [(Gives.pure h).1]
    rw [List.any_cons, Bool.or_eq_true] at firm ⊢
    exact firm.imp (isFirm_of_accept hfirst) (ih hothers)

private theorem all_isFirm_accepted (h : Gives (acceptAll world args) memory accepted after)
    (firm : ∀ d ∈ args, d.isFirm = true) : ∀ d ∈ accepted, d.isFirm = true := by
  induction args generalizing memory accepted after with
  | nil =>
    rw [(Gives.pure h).1]
    exact firm
  | cons d rest ih =>
    obtain ⟨first, _, hfirst, h⟩ := Gives.bind h
    obtain ⟨others, _, hothers, h⟩ := Gives.bind h
    rw [(Gives.pure h).1]
    obtain ⟨hd, hrest⟩ := List.forall_mem_cons.mp firm
    exact List.forall_mem_cons.mpr ⟨isFirm_of_accept hfirst hd, ih hothers hrest⟩

end Places

end Referent

/-- A type that was made of a form tells what the form tells of marks: that class variables and types with the
mark are marked, and that of unions, optional types and other generics the member stays in documents. -/
def MadeType.TellsMarks (made : MadeType) : Prop :=
  match made.form with
  | .classVar => made.type.isMarked = true
  | .annotated => (made.markers.any Referent.isMark = true → made.type.isMarked = true) ∧
      (made.markers.any Referent.isMark = false → (∀ d ∈ made.args, d.isFirm = true) →
        made.type.isFirm = true)
  | .union => (made.args.any Referent.isFirm = true → made.type.isOpen = true) ∧
      (made.args ≠ [] → (∀ d ∈ made.args, d.isFirm = true) → made.type.isFirm = true)
  | .optional => made.type.isOpen = true ∧ ((∀ d ∈ made.args, d.isFirm = true) → made.type.isFirm = true)
  | .alias _ _ _ | .final | .literal => made.type.isFirm = true

/-- What is remembered tells of marks what the forms tell. -/
def Memory.TellsMarks (memory : Memory) : Prop := ∀ made ∈ memory.types, made.TellsMarks

namespace Memory
variable {memory after : Memory} {form : TypingForm} {args : List Referent} {markers : List Marker}
  {type : Referent}

private theorem tellsMarks_empty : empty.TellsMarks := fun _ hm => nomatch hm

instance : OfTypes TellsMarks := ⟨fun same h made hm => h made (same ▸ hm)⟩

theorem TellsMarks.keep {made : MadeType} (h : memory.TellsMarks) (hmade : made.TellsMarks) :
    (memory.keep made).TellsMarks := by
  intro other ho
  rcases List.mem_append.mp ho with ho | ho
  · exact h other ho
  · rw [List.mem_singleton.mp ho]
    exact hmade

/-- A type that is found again tells what one that is made now does. -/
private theorem TellsMarks.of_madeBefore? (h : memory.TellsMarks)
    (found : memory.madeBefore? form args markers = some type) :
    MadeType.TellsMarks ⟨form, args, markers, type⟩ := by
  obtain ⟨earlier, hfind, rfl⟩ := Option.map_eq_some_iff.mp found
  have same := List.find?_some hfind
  simp only [Bool.and_eq_true, beq_iff_eq] at same
  obtain ⟨⟨⟨hform, hargs⟩, -⟩, hmarkers⟩ := same
  have hargs : Referent.compareList memory.agree earlier.args args = .ok true := by
    rw [Referent.sameList] at hargs
    cases hc : Referent.compareList memory.agree earlier.args args with
    | error typeName =>
      rw [hc] at hargs
      cases hargs
    | ok same =>
      rw [hc] at hargs
      rw [show same = true from hargs]
  have told := h earlier (List.mem_of_find?_eq_some hfind)
  rw [MadeType.TellsMarks, hform] at told
  have any := Referent.any_isFirm_of_compareList hargs
  have all := Referent.all_isFirm_of_compareList hargs
  cases form with
  | optional => exact ⟨told.1, fun firm => told.2 (all firm)⟩
  | annotated =>
    rw [Referent.eq_of_sameMarkers hmarkers] at told
    exact ⟨told.1, fun unmarked firm => told.2 unmarked (all firm)⟩
  | union =>
    refine ⟨fun firm => told.1 (any firm), fun given firm => told.2 ?_ (all firm)⟩
    intro none
    have some := any (Referent.any_isFirm given firm)
    rw [none] at some
    cases some
  | _ => exact told

end Memory

section Recalling
variable {form : TypingForm} {args : List Referent} {markers : List Marker} {make : Evaluator Referent}
  {d : Referent} {memory after : Memory}

/-- What a form gives tells of marks what it tells where it is made. -/
private theorem tellsMarks_of_recalling (start : memory.TellsMarks)
    (made : ∀ type left, Gives make memory type left → MadeType.TellsMarks ⟨form, args, markers, type⟩)
    (h : Gives (Evaluator.recalling form args markers make) memory d after) :
    MadeType.TellsMarks ⟨form, args, markers, d⟩ := by
  rcases recalling_cases form args markers make memory with run | ⟨type, before, found⟩ | run
  · exact made d after (run.symm.trans h)
  · cases found.symm.trans h
    exact start.of_madeBefore? before
  · obtain ⟨type, _, hmade, rest⟩ := Gives.bind (run.symm.trans h)
    obtain ⟨_, _, -, rest⟩ := Gives.bind rest
    rw [(Gives.pure rest).1]
    exact made type _ hmade

end Recalling

namespace Referent
variable {world : World} {d arg : Referent} {args members : List Referent} {memory after : Memory}

private theorem tellsMarks_of_united
    (h : Gives (do uniteNew false (← acceptAll world members)) memory d after) :
    MadeType.TellsMarks ⟨.union, members, [], d⟩ := by
  obtain ⟨accepted, _, haccepted, made⟩ := Gives.bind h
  have made := unite_of_uniteNew made
  refine ⟨fun firm => isOpen_of_unite made (any_isFirm_accepted haccepted firm), fun given firm => ?_⟩
  have some := any_isFirm_accepted haccepted (any_isFirm given firm)
  refine isFirm_of_unite made ?_ (all_isFirm_accepted haccepted firm)
  rintro rfl
  cases some

theorem tellsMarks_of_makeUnion (start : memory.TellsMarks)
    (h : Gives (makeUnion world members) memory d after) : MadeType.TellsMarks ⟨.union, members, [], d⟩ :=
  tellsMarks_of_recalling start (fun _ _ => tellsMarks_of_united) h

private theorem isFirm_noneType : noneType.isFirm = true := rfl

/-- What a form makes tells of marks what the form tells. -/
private theorem Forms.tellsMarks {form : TypingForm} {markers : List Marker} {make : Evaluator Referent}
    (forms : Forms form args markers make) (start : memory.TellsMarks) (h : Gives make memory d after) :
    MadeType.TellsMarks ⟨form, args, markers, d⟩ := by
  cases forms with
  | generic world name origin arity args =>
    obtain ⟨_, _, -, h⟩ := Gives.bind h
    obtain ⟨_, _, -, h⟩ := Gives.bind h
    rw [(Gives.pure h).1]
    rfl
  | optional world arg =>
    obtain ⟨accepted, middle, haccepted, h⟩ := Gives.bind h
    have hmiddle : middle.TellsMarks := (keeps_accept world false arg).of_gives start haccepted
    obtain ⟨opened, firm⟩ := tellsMarks_of_makeUnion hmiddle h
    refine ⟨opened (by simp [isFirm_noneType]), fun all => firm (by simp) ?_⟩
    have hfirm := isFirm_of_accept haccepted (all arg (List.mem_singleton_self arg))
    simp [hfirm, isFirm_noneType]
  | union world => exact tellsMarks_of_united h
  | classVar world arg | final world arg =>
    obtain ⟨_, _, -, h⟩ := Gives.bind h
    rw [(Gives.pure h).1]
    rfl
  | literal values =>
    rw [(Gives.pure h).1]
    rfl
  | annotated world arg markers =>
    obtain ⟨accepted, _, haccepted, h⟩ := Gives.bind h
    rw [eq_mark_of_marked h.of_liftM.1]
    refine ⟨fun marks => isMarked_mark marks accepted, fun unmarked firm => isFirm_mark unmarked ?_⟩
    exact isFirm_of_accept haccepted (firm arg (List.mem_singleton_self arg))

/-- What is remembered of a form, or made of it, tells of marks what the form tells. -/
theorem Forms.tellsMarks_recalled {form : TypingForm} {markers : List Marker} {make : Evaluator Referent}
    (forms : Forms form args markers make) (start : memory.TellsMarks)
    (h : Gives (Evaluator.recalling form args markers make) memory d after) :
    MadeType.TellsMarks ⟨form, args, markers, d⟩ :=
  tellsMarks_of_recalling start (fun _ _ => forms.tellsMarks start) h

end Referent

instance : Memory.Invariant Memory.TellsMarks where
  keep forms start gives left := left.keep (forms.tellsMarks start gives)

/-- What is remembered is sound: of arguments that equal only themselves it is what the forms give, and it tells
of marks what the forms tell. -/
structure Memory.IsSound (memory : Memory) : Prop where
  faithful : memory.IsFaithful
  tells : memory.TellsMarks

instance : Memory.Invariant Memory.IsSound where
  of_types same h := ⟨Memory.OfTypes.of_types same h.faithful, Memory.OfTypes.of_types same h.tells⟩
  keep forms start gives left := ⟨Memory.Invariant.keep forms start.faithful gives left.faithful,
    Memory.Invariant.keep forms start.tells gives left.tells⟩

theorem Memory.isSound_empty : Memory.empty.IsSound := ⟨isFaithful_empty, tellsMarks_empty⟩

end Specimen
