import Specimen.Proofs.Reflection.Hints
import Specimen.Proofs.Reflection.Marks

/-! Annotations that keep their members out of documents, and those that do not: following the strings in a type
changes neither. -/
namespace Specimen

namespace Referent
variable {world : World} {find : TypeExpr → Bool → Nat → Evaluator Referent} {d found : Referent}
  {memory after : Memory}

section Replacing

/-- What follows the strings in a type keeps a mark. -/
private theorem isMarked_of_replace (h : d.isMarked = true) (gives : Gives (replace world find d) memory found after) :
    found.isMarked = true := by
  cases d with
  | annotated inner markers =>
    obtain ⟨inside, _, -, gives⟩ := Gives.bind gives
    rw [eq_mark_of_marked gives.of_liftM.1]
    exact isMarked_mark h inside
  | classVar inner =>
    obtain ⟨_, _, -, gives⟩ := Gives.bind gives
    rw [(Gives.pure gives).1]
    rfl
  | form | initVar =>
    rw [(Gives.pure gives).1]
    exact h
  | _ => cases h

variable {several members : List Referent} {native : Bool}

/-- Each of several types is followed from some memory. -/
private theorem exists_replaced {holds : Memory → Prop} [Memory.Invariant holds]
    (kept : ∀ expr lenient number, Keeps holds (find expr lenient number)) (start : holds memory)
    (h : Gives (replaceAll world find several) memory members after) :
    ∀ m ∈ several, ∃ before inside left, holds before ∧ Gives (replace world find m) before inside left ∧
      inside ∈ members := by
  induction several generalizing memory members after with
  | nil => exact fun m hm => absurd hm List.not_mem_nil
  | cons first rest ih =>
    obtain ⟨d, middle, hd, h⟩ := Gives.bind h
    obtain ⟨others, _, hothers, h⟩ := Gives.bind h
    rw [(Gives.pure h).1]
    refine List.forall_mem_cons.mpr ⟨⟨memory, d, middle, start, hd, List.mem_cons_self⟩, fun m hm => ?_⟩
    obtain ⟨before, inside, left, hbefore, gives, hin⟩ :=
      ih ((keeps_replace world kept first).of_gives start hd) hothers m hm
    exact ⟨before, inside, left, hbefore, gives, List.mem_cons_of_mem d hin⟩

mutual

/-- What follows the strings in a firm type leaves it firm. -/
private theorem isFirm_of_replace (kept : ∀ expr lenient number, Keeps Memory.IsSound (find expr lenient number)) :
    ∀ {d : Referent}, d.isFirm = true → ∀ {memory found after}, memory.IsSound →
      Gives (replace world find d) memory found after → found.isFirm = true
  | .generic _ _ _, _, _, _, _, _, gives | .final _, _, _, _, _, _, gives => by
    obtain ⟨_, _, -, gives⟩ := Gives.bind gives
    rw [(Gives.pure gives).1]
    rfl
  | .annotated inner markers, firm, memory, found, after, start, gives => by
    obtain ⟨unmarked, firm⟩ := isFirm_annotated.mp firm
    obtain ⟨inside, _, hinside, gives⟩ := Gives.bind gives
    rw [eq_mark_of_marked gives.of_liftM.1]
    exact isFirm_mark unmarked (isFirm_of_replace kept firm start hinside)
  | .union native members, firm, memory, d, after, start, gives => by
    obtain ⟨given, all⟩ := isFirm_union.mp firm
    obtain ⟨found, middle, hfound, gives⟩ := Gives.bind gives
    have hmiddle := (keeps_replaceAll world kept members).of_gives start hfound
    have hall := all_isFirm_of_replaceAll kept all start hfound
    obtain ⟨_, inside, _, -, -, hin⟩ := exists_replaced kept start hfound _ (List.head_mem given)
    have hgiven := List.ne_nil_of_mem hin
    have gives := Gives.bind_get gives
    split at gives
    · rw [(Gives.pure gives).1]
      exact firm
    · split at gives
      · exact isFirm_of_unite (unite_of_uniteNew gives) hgiven hall
      · exact (tellsMarks_of_makeUnion hmiddle.tells gives).2 hgiven hall
  | .form kind, firm, _, _, _, _, gives => by
    rw [(Gives.pure gives).1]
    exact firm
  | .data _, _, _, _, _, _, gives | .ellipsis, _, _, _, _, _, gives | .cls _, _, _, _, _, _, gives
  | .module _, _, _, _, _, _, gives | .object _, _, _, _, _, _, gives | .member _ _, _, _, _, _, _, gives
  | .literal _, _, _, _, _, _, gives => by
    rw [(Gives.pure gives).1]
    rfl

private theorem all_isFirm_of_replaceAll
    (kept : ∀ expr lenient number, Keeps Memory.IsSound (find expr lenient number)) :
    ∀ {several : List Referent}, (∀ m ∈ several, m.isFirm = true) → ∀ {memory found after}, memory.IsSound →
      Gives (replaceAll world find several) memory found after → ∀ m ∈ found, m.isFirm = true
  | [], _, _, _, _, _, gives => by
    rw [(Gives.pure gives).1]
    nofun
  | m :: rest, firm, memory, found, after, start, gives => by
    obtain ⟨first, middle, hfirst, gives⟩ := Gives.bind gives
    obtain ⟨others, _, hothers, gives⟩ := Gives.bind gives
    obtain ⟨hm, hrest⟩ := List.forall_mem_cons.mp firm
    rw [(Gives.pure gives).1]
    exact List.forall_mem_cons.mpr ⟨isFirm_of_replace kept hm start hfirst,
      all_isFirm_of_replaceAll kept hrest ((keeps_replace world kept m).of_gives start hfirst) hothers⟩

end

/-- A union stays as it is or leaves its member in documents, once one of its members is found to be firm. -/
private theorem eq_or_isOpen_of_replace
    (kept : ∀ expr lenient number, Keeps Memory.IsSound (find expr lenient number)) (start : memory.IsSound)
    (firm : ∀ found left, Gives (replaceAll world find members) memory found left → found.any isFirm = true)
    (h : Gives (replace world find (.union native members)) memory d after) :
    d = .union native members ∨ d.isOpen = true := by
  obtain ⟨found, middle, hfound, h⟩ := Gives.bind h
  have hmiddle := (keeps_replaceAll world kept members).of_gives start hfound
  have h := Gives.bind_get h
  split at h
  · exact .inl (Gives.pure h).1
  · split at h
    · exact .inr (isOpen_of_unite (unite_of_uniteNew h) (firm found middle hfound))
    · exact .inr ((tellsMarks_of_makeUnion hmiddle.tells h).1 (firm found middle hfound))

/-- A type that leaves its member in documents does so once it is followed. -/
private theorem isOpen_of_replace (kept : ∀ expr lenient number, Keeps Memory.IsSound (find expr lenient number))
    (start : memory.IsSound) (h : d.isOpen = true) (gives : Gives (replace world find d) memory found after) :
    found.isOpen = true := by
  induction d using isOpen.induct generalizing memory found after with
  | case1 inner markers ih =>
    rw [isOpen, Bool.and_eq_true, Bool.not_eq_true'] at h
    obtain ⟨inside, _, hinside, gives⟩ := Gives.bind gives
    rw [eq_mark_of_marked gives.of_liftM.1]
    exact isOpen_mark h.1 (ih start h.2 hinside)
  | case2 native members =>
    obtain ⟨m, hm, firm⟩ := List.any_eq_true.mp h
    have found_firm : ∀ found left, Gives (replaceAll world find members) memory found left →
        found.any isFirm = true := fun found left hfound => by
      obtain ⟨_, inside, _, hbefore, hinside, hin⟩ := exists_replaced kept start hfound m hm
      exact List.any_eq_true.mpr ⟨inside, hin, isFirm_of_replace kept firm hbefore hinside⟩
    rcases eq_or_isOpen_of_replace kept start found_firm gives with rfl | opened
    · exact h
    · exact opened
  | case3 d plain single =>
    rw [isOpen.eq_3 d plain single] at h
    exact isOpen_of_isFirm (isFirm_of_replace kept h start gives)

/-- A property of types, and of no string, that types have once they are followed. -/
structure Stays (p : Referent → Bool) : Prop where
  typed {d : Referent} (h : p d = true) (expr : TypeExpr) : d ≠ .text expr
  taken {d : Referent} (h : p d = true) : p (asMember d) = true
  followed {world : World} {find : TypeExpr → Bool → Nat → Evaluator Referent} {d found : Referent}
    {memory after : Memory} (kept : ∀ expr lenient number, Keeps Memory.IsSound (find expr lenient number))
    (start : memory.IsSound) (h : p d = true) (gives : Gives (replace world find d) memory found after) :
    p found = true

theorem stays_isMarked : Stays isMarked :=
  ⟨ne_text_of_isMarked, isMarked_asMember, fun _ _ => isMarked_of_replace⟩

private theorem stays_isFirm : Stays isFirm :=
  ⟨fun h => ne_text_of_isOpen (isOpen_of_isFirm h), isFirm_asMember,
    fun kept start firm => isFirm_of_replace kept firm start⟩

theorem stays_isOpen : Stays isOpen := ⟨ne_text_of_isOpen, isOpen_asMember, isOpen_of_replace⟩

end Replacing

end Referent

namespace Environment
variable {env : Environment} {expr : TypeExpr} {d : Referent} {memory after : Memory}

/-- What a string can be evaluated to has a property. -/
def Yields (env : Environment) (expr : TypeExpr) (p : Referent → Bool) : Prop :=
  ∀ memory d after, memory.IsSound → Gives (env.evaluate expr) memory d after → p d = true

/-- A string can always be evaluated. -/
def Evaluates (env : Environment) (expr : TypeExpr) : Prop :=
  ∀ memory, memory.IsSound → ∃ d after, Gives (env.evaluate expr) memory d after

section Following
variable {p : Referent → Bool} {reuse lenient : Bool} {fuel number : Nat}

/-- What is found for a string has a property that stays, if what it can be evaluated to has it. -/
private theorem Yields.of_find (yields : env.Yields expr p) (stays : Referent.Stays p) (start : memory.IsSound)
    (fresh : reuse = false ∨ memory.found? number = none)
    (h : Gives (env.find reuse (fuel + 1) [] expr lenient number) memory d after) : p d = true := by
  obtain ⟨found, middle, taken, last, left, evaluated, accepted, replaced⟩ := World.gives_find fresh h
  have holds := yields memory found middle start evaluated
  obtain ⟨rfl, rfl⟩ := Referent.eq_asMember_of_accept accepted (stays.typed holds)
  exact stays.followed (env.keeps_find reuse fuel [expr.text])
    ((env.keeps_evaluate expr).of_gives start evaluated) (stays.taken holds) replaced

/-- A type with a property that stays has it once it is followed as a whole annotation. -/
theorem of_followWhole {written : Referent} (stays : Referent.Stays p) (h : p written = true)
    (start : memory.IsSound) (gives : Gives (env.followWhole reuse lenient written) memory d after) :
    p d = true := by
  have following : Gives (Referent.replace env.world (env.find reuse chainLimit []) written) memory d after →
      p d = true := stays.followed (env.keeps_find reuse chainLimit []) start h
  cases written with
  | text expr => exact absurd rfl (stays.typed h expr)
  | data value =>
    cases value with
    | none =>
      rw [(Gives.pure gives).1]
      exact stays.taken h
    | _ => exact following gives
  | _ => exact following gives

theorem Yields.of_followWhole (yields : env.Yields expr p) (stays : Referent.Stays p) (start : memory.IsSound)
    (h : Gives (env.followWhole reuse lenient (.text expr)) memory d after) : p d = true := by
  obtain ⟨number, _, ⟨⟩, following⟩ := Gives.bind h
  have find : Gives (env.find reuse (999 + 1) [] expr lenient memory.found.length) memory.refer d after :=
    following
  exact yields.of_find stays (Memory.OfTypes.refer start) (.inr (by simp [Memory.found?, Memory.refer])) find

end Following

/-- Whether a member of a union is firm once it is followed. -/
def FindsFirm (env : Environment) : Referent → Prop
  | .text expr | .forward expr _ _ => env.Yields expr Referent.isFirm
  | m => m.isFirm = true

/-- Whether an annotation leaves its member in documents, once the strings in it are followed. -/
def Opens (env : Environment) : Referent → Prop
  | .text expr | .forward expr _ _ => env.Yields expr Referent.isOpen
  | .annotated inner markers => markers.any Referent.isMark = false ∧ Opens env inner
  | .union _ members => ∃ m ∈ members, env.FindsFirm m
  | d => d.isFirm = true

section Opening
variable {m : Referent} {fuel : Nat} {lenient : Bool}

theorem Opens.hides {written : Referent} (h : env.Opens written) (typed : ∀ expr, written ≠ .text expr) :
    written.hides = false := by
  cases written with
  | text expr => exact absurd rfl (typed expr)
  | forward | union => rfl
  | annotated inner markers => exact (Referent.hides_annotated inner markers).trans h.1
  | _ => exact Referent.hides_of_isOpen h

private theorem FindsFirm.of_replace (h : env.FindsFirm m) (start : memory.IsSound)
    (gives : Gives (Referent.replace env.world (env.find false (fuel + 1) []) m) memory d after) :
    d.isFirm = true := by
  cases m with
  | text expr =>
    obtain ⟨number, middle, numbering, gives⟩ := Gives.bind gives
    exact Yields.of_find h Referent.stays_isFirm (Referent.keeps_newNumber.of_gives start numbering)
      (.inl rfl) gives
  | forward expr lenient number => exact Yields.of_find h Referent.stays_isFirm start (.inl rfl) gives
  | _ => exact Referent.isFirm_of_replace (env.keeps_find false (fuel + 1) []) h start gives

private theorem hides_of_replace {written : Referent} (h : env.Opens written) (start : memory.IsSound)
    (gives : Gives (Referent.replace env.world (env.find false (fuel + 1) []) written) memory d after) :
    d.hides = false := by
  have kept : ∀ expr lenient number, Keeps Memory.IsSound (env.find false (fuel + 1) [] expr lenient number) :=
    env.keeps_find false (fuel + 1) []
  induction written using Opens.induct generalizing memory d after with
  | case1 expr =>
    obtain ⟨number, middle, numbering, gives⟩ := Gives.bind gives
    exact Referent.hides_of_isOpen (Yields.of_find h Referent.stays_isOpen
      (Referent.keeps_newNumber.of_gives start numbering) (.inl rfl) gives)
  | case2 expr lenient number =>
    exact Referent.hides_of_isOpen (Yields.of_find h Referent.stays_isOpen start (.inl rfl) gives)
  | case3 inner markers ih =>
    obtain ⟨inside, _, hinside, gives⟩ := Gives.bind gives
    rw [Referent.eq_mark_of_marked gives.of_liftM.1]
    exact Referent.hides_mark h.1 (ih h.2 start hinside)
  | case4 native members =>
    obtain ⟨m, hm, firm⟩ := h
    have found_firm : ∀ found left,
        Gives (Referent.replaceAll env.world (env.find false (fuel + 1) []) members) memory found left →
          found.any Referent.isFirm = true := fun found left hfound => by
      obtain ⟨before, inside, left, hbefore, hinside, hin⟩ := Referent.exists_replaced kept start hfound m hm
      exact List.any_eq_true.mpr ⟨inside, hin, firm.of_replace hbefore hinside⟩
    rcases Referent.eq_or_isOpen_of_replace kept start found_firm gives with rfl | opened
    · rfl
    · exact Referent.hides_of_isOpen opened
  | case5 written plain unread marked single =>
    rw [Opens.eq_5 env written plain unread marked single] at h
    exact Referent.hides_of_isOpen (Referent.isOpen_of_isFirm (Referent.isFirm_of_replace kept h start gives))

/-- An annotation that leaves its member in documents does so once it is followed. -/
theorem Opens.of_followWhole {written : Referent} (h : env.Opens written) (start : memory.IsSound)
    (gives : Gives (env.followWhole false lenient written) memory d after) : d.hides = false := by
  have following : Gives (Referent.replace env.world (env.find false (999 + 1) []) written) memory d after →
      d.hides = false := hides_of_replace h start
  cases written with
  | text expr => exact Referent.hides_of_isOpen (Yields.of_followWhole h Referent.stays_isOpen start gives)
  | data value =>
    cases value with
    | none =>
      rw [(Gives.pure gives).1]
      rfl
    | _ => exact following gives
  | _ => exact following gives

end Opening

end Environment

end Specimen
