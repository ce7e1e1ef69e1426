import Specimen.Proofs.Naming.Scope
import Mathlib.Data.List.ReduceOption
import Mathlib.Data.Nat.Find
import Mathlib.Order.Bounds.Basic

/-! Runs of calls on a scope. The counters of a scope only save work: every claim gives the name that a scan
over the numbers from 2 on gives, whatever was claimed and reserved before. -/
namespace Specimen.Naming.Scope

/-- A call on a scope. -/
inductive Call where
  | claim (base : Text)
  | claimNormalized (text : Text)
  | reserve (names : List Text)
  deriving DecidableEq, Repr

namespace Call

/-- The base that a call claims a name for. -/
def base? : Call → Option Text
  | .claim base => some base
  | .claimNormalized text => some (normalize text)
  | .reserve _ => none

/-- The names that a call reserves. -/
def reserved : Call → List Text
  | .reserve names => names
  | _ => []

end Call

/-- The name that a call is answered with, if it claims one, and the scope after it. -/
def answer (scope : Scope) : Call → Option Text × Scope
  | .claim base => (scope.claim base).map some id
  | .claimNormalized text => (scope.claimNormalized text).map some id
  | .reserve names => (none, scope.reserveAll names)

/-- The answers to calls, one after the other. -/
def answers (scope : Scope) : List Call → List (Option Text)
  | [] => []
  | call :: rest => (scope.answer call).1 :: (scope.answer call).2.answers rest

/-- The names that calls on a new scope have claimed or reserved. -/
def inUse (calls : List Call) : List Text :=
  (empty.answers calls).reduceOption ++ calls.flatMap Call.reserved

section Scan

private theorem exists_unused (used : List Text) (base : Text) : ∃ k, 2 ≤ k ∧ numbered base k ∉ used := by
  by_contra h
  simp only [not_exists, not_and, not_not] at h
  have := length_of_covered fun i (_ : i < used.length + 1) => h (2 + i) (Nat.le_add_right 2 i)
  omega

/-- The least number from 2 on with which a base is not in use. -/
def leastUnused (used : List Text) (base : Text) : Nat := Nat.find (exists_unused used base)

/-- The name that a scan gives for a base. -/
def scan (used : List Text) (base : Text) : Text :=
  if base ∈ used then numbered base (leastUnused used base) else base

/-- The answers to calls where nothing but the names in use is kept. -/
def scans (used : List Text) : List Call → List (Option Text)
  | [] => []
  | call :: rest => call.base?.map (scan used) ::
      scans ((call.base?.map (scan used)).toList ++ call.reserved ++ used) rest

private theorem isLeast_leastUnused (used : List Text) (base : Text) :
    IsLeast {k | 2 ≤ k ∧ numbered base k ∉ used} (leastUnused used base) :=
  ⟨Nat.find_spec (exists_unused used base), fun _ hk => Nat.find_min' _ hk⟩

private theorem scan_unused (used : List Text) (base : Text) : scan used base ∉ used := by
  rw [scan]
  split
  · exact (isLeast_leastUnused used base).1.2
  · assumption

end Scan

section Counters
variable {scope : Scope} {base name other : Text} {counter number : Nat}

/-- Each counter has been reached: the base is in use with every number up to it. -/
def IsCounted (scope : Scope) : Prop :=
  ∀ base counter, scope.counter? base = some counter →
    1 ≤ counter ∧ ∀ k, 2 ≤ k → k ≤ counter → scope.isTaken (numbered base k) = true

private theorem isCounted_empty : empty.IsCounted := nofun

private theorem find?_go (name other : Text) (counter : Nat) (taken : List (Text × Nat)) :
    ((set.go name counter taken).find? (·.1 = other)).map (·.2) =
      if other = name then some counter else (taken.find? (·.1 = other)).map (·.2) := by
  induction taken with
  | nil => by_cases h : name = other <;> simp [set.go, h, Ne.symm, eq_comm]
  | cons entry rest ih =>
    obtain ⟨first, old⟩ := entry
    by_cases hf : first = name
    · subst hf
      by_cases ho : first = other
      · simp [set.go, ho]
      · simp [set.go, ho, Ne.symm ho]
    · by_cases ho : first = other
      · subst ho
        simp [set.go, hf]
      · simpa [set.go, hf, ho] using ih

private theorem counter?_set : (scope.set name counter).counter? other =
    if other = name then some counter else scope.counter? other :=
  find?_go name other counter scope.taken

private theorem claim_of_taken (h : scope.counter? base = some counter) :
    scope.claim base = (numbered base (scope.firstFree base (scope.taken.length + 1) counter),
      (scope.set base (scope.firstFree base (scope.taken.length + 1) counter)).reserve
        (numbered base (scope.firstFree base (scope.taken.length + 1) counter))) := by
  rw [claim, h]

private theorem counter?_of_isTaken (h : scope.isTaken name = true) : ∃ counter, scope.counter? name = some counter :=
  Option.isSome_iff_exists.mp h

/-- A reserved name begins with the counter one. -/
private theorem counter?_reserve (h : (scope.reserve name).counter? other = some counter) :
    scope.counter? other = some counter ∨ counter = 1 := by
  rw [reserve.eq_def] at h
  split at h
  · exact .inl h
  · rw [counter?_set] at h
    split at h
    · exact .inr (Option.some.inj h).symm
    · exact .inl h

theorem IsCounted.reserve (h : scope.IsCounted) (name : Text) : (scope.reserve name).IsCounted := by
  intro base counter hc
  rcases counter?_reserve hc with hc | rfl
  · obtain ⟨positive, reached⟩ := h base counter hc
    exact ⟨positive, fun k h2 hk => isTaken_reserve.mpr (.inr (reached k h2 hk))⟩
  · exact ⟨le_rfl, fun k h2 hk => by omega⟩

theorem IsCounted.reserveAll (h : scope.IsCounted) (names : List Text) : (scope.reserveAll names).IsCounted := by
  induction names generalizing scope with
  | nil => exact h
  | cons name rest ih => exact ih (h.reserve name)

/-- A search passes names in use only. -/
private theorem firstFree_passes (fuel : Nat) :
    ∀ k, number < k → k < scope.firstFree base fuel number → scope.isTaken (numbered base k) = true := by
  induction fuel generalizing number with
  | zero => exact fun k hl hu => absurd (hl.trans hu) (lt_irrefl _)
  | succ fuel ih =>
    intro k hl hu
    rw [firstFree] at hu
    split at hu
    · rename_i taken
      rcases Nat.eq_or_lt_of_le (Nat.succ_le_of_lt hl) with rfl | hl
      · exact taken
      · exact ih k hl hu
    · omega

private theorem lt_firstFree (fuel : Nat) : number < scope.firstFree base (fuel + 1) number := by
  induction fuel generalizing number with
  | zero =>
    rw [firstFree]
    split <;> simp [firstFree]
  | succ fuel ih =>
    rw [firstFree]
    split
    · exact (Nat.lt_succ_self number).trans ih
    · exact Nat.lt_succ_self number

/-- The number at which the search for a base in use ends. -/
private theorem isLeast_firstFree (h : scope.IsCounted) (hc : scope.counter? base = some counter) :
    IsLeast {k | 2 ≤ k ∧ scope.isTaken (numbered base k) = false}
      (scope.firstFree base (scope.taken.length + 1) counter) := by
  obtain ⟨positive, reached⟩ := h base counter hc
  have above : counter < scope.firstFree base (scope.taken.length + 1) counter := lt_firstFree _
  refine ⟨⟨by omega, firstFree_free scope base counter⟩, fun k ⟨h2, free⟩ => ?_⟩
  by_contra below
  have taken : scope.isTaken (numbered base k) = true := by
    rcases Nat.lt_or_ge counter k with hk | hk
    · exact firstFree_passes _ k hk (not_le.mp below)
    · exact reached k h2 hk
  rw [taken] at free
  cases free

/-- Where the search of a claim ends, the base is in use with every number up to that. -/
theorem IsCounted.claim (h : scope.IsCounted) (base : Text) : (scope.claim base).2.IsCounted := by
  have kept {name : Text} (taken : scope.isTaken name = true) :
      (scope.claim base).2.isTaken name = true := isTaken_claim.mpr (.inr taken)
  intro other counter hc
  cases hb : scope.counter? base with
  | none =>
    have free : scope.isTaken base = false := by simp [isTaken, hb]
    rw [claim_of_free free, counter?_set] at hc
    split at hc
    · cases hc
      exact ⟨le_rfl, fun k h2 hk => by omega⟩
    · exact (h other counter hc).imp_right fun reached k h2 hk => kept (reached k h2 hk)
  | some start =>
    have least := isLeast_firstFree h hb
    have atLeast := least.1.1
    rw [claim_of_taken hb] at hc kept ⊢
    rcases counter?_reserve hc with hc | rfl
    · rw [counter?_set] at hc
      split at hc
      · rename_i same
        subst same
        cases hc
        refine ⟨by omega, fun k h2 hk => ?_⟩
        rcases Nat.eq_or_lt_of_le hk with rfl | hk
        · exact isTaken_reserve.mpr (.inl rfl)
        · by_contra free
          exact absurd (least.2 ⟨h2, Bool.eq_false_iff.mpr (mt kept free)⟩) (not_le.mpr hk)
      · exact (h other counter hc).imp_right fun reached k h2 hk => kept (reached k h2 hk)
    · exact ⟨le_rfl, fun k h2 hk => by omega⟩

theorem IsCounted.answer (h : scope.IsCounted) (call : Call) : (scope.answer call).2.IsCounted := by
  cases call with
  | claim base => exact h.claim base
  | claimNormalized text => exact h.claim (normalize text)
  | reserve names => exact h.reserveAll names

end Counters

section Runs
variable {scope : Scope} {used : List Text}

/-- A scope whose counters have been reached gives the name that a scan of the names in use gives. -/
private theorem IsCounted.claim_eq_scan (h : scope.IsCounted)
    (names : ∀ name, scope.isTaken name = true ↔ name ∈ used) (base : Text) :
    (scope.claim base).1 = scan used base := by
  have free (name : Text) : scope.isTaken name = false ↔ name ∉ used := by
    rw [← names, Bool.not_eq_true]
  rw [scan]
  split
  · rename_i hin
    obtain ⟨counter, hc⟩ := counter?_of_isTaken ((names base).mpr hin)
    have least := isLeast_firstFree h hc
    simp only [free] at least
    rw [claim_of_taken hc, least.unique (isLeast_leastUnused used base)]
  · rename_i hout
    rw [claim_of_free ((free base).mpr hout)]

/-- The answer to a call is that of a scan, and afterwards it and what the call reserves are in use too. -/
private theorem IsCounted.answer_eq (h : scope.IsCounted)
    (names : ∀ name, scope.isTaken name = true ↔ name ∈ used) (call : Call) :
    (scope.answer call).1 = call.base?.map (scan used) ∧
      ∀ name, (scope.answer call).2.isTaken name = true ↔
        name ∈ (call.base?.map (scan used)).toList ++ call.reserved ++ used := by
  have claimed (base : Text) : ∀ name, (scope.claim base).2.isTaken name = true ↔
      name ∈ [scan used base] ++ [] ++ used := fun name => by
    rw [isTaken_claim, h.claim_eq_scan names, names]
    simp
  cases call with
  | claim base => exact ⟨congrArg some (h.claim_eq_scan names base), claimed base⟩
  | claimNormalized text =>
    exact ⟨congrArg some (h.claim_eq_scan names (normalize text)), claimed (normalize text)⟩
  | reserve reserved =>
    refine ⟨rfl, fun name => ?_⟩
    rw [Scope.answer, isTaken_reserveAll, names]
    simp [Call.base?, Call.reserved]

/-- Counters change no answer of a run. -/
private theorem IsCounted.answers_eq_scans (h : scope.IsCounted)
    (names : ∀ name, scope.isTaken name = true ↔ name ∈ used) (calls : List Call) :
    scope.answers calls = scans used calls := by
  induction calls generalizing scope used with
  | nil => rfl
  | cons call rest ih =>
    obtain ⟨same, names⟩ := h.answer_eq names call
    rw [answers, scans, same, ih (h.answer call) names]

/-- The scope after calls. -/
def after (scope : Scope) (calls : List Call) : Scope :=
  calls.foldl (fun scope call => (scope.answer call).2) scope

theorem IsCounted.after (h : scope.IsCounted) (calls : List Call) : (scope.after calls).IsCounted := by
  induction calls generalizing scope with
  | nil => exact h
  | cons call rest ih => exact ih (h.answer call)

private theorem answers_append (scope : Scope) (before calls : List Call) :
    scope.answers (before ++ calls) = scope.answers before ++ (scope.after before).answers calls := by
  induction before generalizing scope with
  | nil => rfl
  | cons call rest ih => exact congrArg (_ :: ·) (ih _)

private theorem length_answers (scope : Scope) (calls : List Call) : (scope.answers calls).length = calls.length := by
  induction calls generalizing scope with
  | nil => rfl
  | cons call rest ih => exact congrArg Nat.succ (ih _)

private theorem isTaken_answer (scope : Scope) (call : Call) (name : Text) :
    (scope.answer call).2.isTaken name = true ↔
      (scope.answer call).1 = some name ∨ name ∈ call.reserved ∨ scope.isTaken name = true := by
  have claimed (base : Text) : (scope.claim base).2.isTaken name = true ↔
      some (scope.claim base).1 = some name ∨ name ∈ [] ∨ scope.isTaken name = true := by
    rw [isTaken_claim, Option.some_inj, eq_comm]
    simp
  cases call with
  | claim base => exact claimed base
  | claimNormalized text => exact claimed (normalize text)
  | reserve names =>
    rw [Scope.answer, isTaken_reserveAll]
    simp [Call.reserved]

/-- After a run the names that it claimed or reserved are in use, and those that were. -/
private theorem isTaken_after (scope : Scope) (calls : List Call) (name : Text) :
    (scope.after calls).isTaken name = true ↔
      name ∈ (scope.answers calls).reduceOption ++ calls.flatMap Call.reserved ∨
        scope.isTaken name = true := by
  induction calls generalizing scope with
  | nil => simp [Scope.after, answers, List.reduceOption]
  | cons call rest ih =>
    rw [Scope.after, List.foldl_cons, ← Scope.after, ih, isTaken_answer, answers]
    simp only [List.mem_append, List.reduceOption_mem_iff, List.mem_cons, List.flatMap_cons, eq_comm]
    tauto

private theorem answers_fresh {calls : List Call} {name : Text} (h : some name ∈ scope.answers calls) :
    scope.isTaken name = false := by
  induction calls generalizing scope with
  | nil => cases h
  | cons call rest ih =>
    rcases List.mem_cons.mp h with h | h
    · cases call with
      | claim base => exact Option.some.inj h ▸ claim_fresh scope base
      | claimNormalized text => exact Option.some.inj h ▸ claim_fresh scope (normalize text)
      | reserve names => cases h
    · refine Bool.eq_false_iff.mpr fun taken => ?_
      have := ih h
      rw [(isTaken_answer scope call name).mpr (.inr (.inr taken))] at this
      cases this

/-- A run hands out no name twice. -/
private theorem nodup_answers (scope : Scope) (calls : List Call) : (scope.answers calls).reduceOption.Nodup := by
  induction calls generalizing scope with
  | nil => exact List.nodup_nil
  | cons call rest ih =>
    rw [answers]
    cases hanswer : (scope.answer call).1 with
    | none => exact ih _
    | some name =>
      refine List.nodup_cons.mpr ⟨fun hin => ?_, ih _⟩
      have := answers_fresh (List.reduceOption_mem_iff.mp hin)
      rw [(isTaken_answer scope call name).mpr (.inl hanswer)] at this
      cases this

private theorem isTaken_after_empty (calls : List Call) (name : Text) :
    (empty.after calls).isTaken name = true ↔ name ∈ inUse calls := by
  rw [isTaken_after, isTaken_empty, inUse]
  simp

/-- A run on a new scope answers as a scan without counters does. It hands out no name twice and none that
was reserved before; a base that is free is handed out itself, and any other with the least number from 2 on
with which it is free. -/
theorem answers_least (calls : List Call) :
    empty.answers calls = scans [] calls ∧ (empty.answers calls).reduceOption.Nodup ∧
      ∀ before call rest base, calls = before ++ call :: rest → call.base? = some base →
        ∃ name, (empty.answers calls)[before.length]? = some (some name) ∧ name ∉ inUse before ∧
          (base ∉ inUse before → name = base) ∧
          (base ∈ inUse before → ∃ number, name = numbered base number ∧
            IsLeast {k | 2 ≤ k ∧ numbered base k ∉ inUse before} number) := by
  refine ⟨isCounted_empty.answers_eq_scans (by simp) calls, nodup_answers empty calls, ?_⟩
  rintro before call rest base rfl hbase
  have answered : ((empty.after before).answer call).1 = some (scan (inUse before) base) := by
    rw [((isCounted_empty.after before).answer_eq (isTaken_after_empty before) call).1, hbase]
    rfl
  refine ⟨scan (inUse before) base, ?_, scan_unused _ base, fun free => ?_, fun taken => ?_⟩
  · rw [answers_append, List.getElem?_append_right (length_answers empty before).le, length_answers,
      Nat.sub_self, answers, answered]
    rfl
  · rw [scan, if_neg free]
  · exact ⟨leastUnused (inUse before) base, by rw [scan, if_pos taken], isLeast_leastUnused _ base⟩

/-- A base claimed again, where it is in use with the next number and the one after that is reserved. -/
theorem answers_least_passing :
    let before : List Call := [.claim "A", .claim "A2", .reserve ["A3"]]
    ∃ name, (empty.answers (before ++ [.claimNormalized "a"]))[before.length]? = some (some name) ∧
      name = ("A4" : Text) := by
  intro before
  obtain ⟨-, -, least⟩ := answers_least (before ++ [.claimNormalized "a"])
  obtain ⟨name, found, -, -, again⟩ := least before (.claimNormalized "a") [] "A" rfl (by decide +kernel)
  have taken : ∀ base ∈ (["A", "A2", "A3"] : List Text), base ∈ inUse before := by decide +kernel
  obtain ⟨number, rfl, ⟨atLeast, free⟩, lower⟩ := again (taken _ (by decide))
  have upper : number ≤ 4 := lower ⟨by decide, by decide +kernel⟩
  have second : number ≠ 2 := fun he => free (he ▸ taken (numbered "A" 2) (by decide))
  have third : number ≠ 3 := fun he => free (he ▸ taken (numbered "A" 3) (by decide))
  refine ⟨_, found, ?_⟩
  rw [show number = 4 by omega]
  decide

end Runs

end Specimen.Naming.Scope
