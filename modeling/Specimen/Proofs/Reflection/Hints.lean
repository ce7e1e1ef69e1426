import Specimen.Projection.Member
import Specimen.Proofs.Reflection.Bindings
import Specimen.Proofs.Reflection.Denotation
import Specimen.Proofs.Reflection.Independence

/-! The hints of a class on its two ways: found for the whole class, or annotation by annotation. An
annotation that has one meaning by itself has it on both, whatever the others are; one that has none stays
a string. -/
namespace Specimen

namespace Referent

/-- Nothing is looked for inside a type, and following it changes nothing. -/
def IsSettled (world : World) (d : Referent) : Prop :=
  ∀ find memory, Gives (replace world find d) memory d memory

mutual

/-- Whether a type holds no strings, unions in it are equal to themselves and marked types can be marked. -/
def settles (world : World) : Referent → Bool
  | .text _ | .forward _ _ _ => false
  | .generic _ _ args => settlesAll world args
  | .annotated inner markers => settles world inner && isPlain inner && (marked world markers inner).isOk
  | .classVar inner => settles world inner
  | .final inner => settles world inner
  | .union _ members => settlesAll world members && sameList (fun _ _ => true) members members
  | _ => true
where
  /-- Whether a type is no marked one. -/
  isPlain : Referent → Bool
    | .annotated _ _ => false
    | _ => true

/-- Whether this holds of several types. -/
def settlesAll (world : World) : List Referent → Bool
  | [] => true
  | d :: rest => settles world d && settlesAll world rest

end

section Settled
variable {world : World} (agree agree' : Nat → Nat → Bool)

mutual

/-- Without strings, equality does not depend on what was found for strings. -/
private theorem compare_congr : ∀ {d : Referent}, settles world d = true → ∀ other,
    compare agree d other = compare agree' d other
  | .text _, h, _ | .forward _ _ _, h, _ => nomatch h
  | .generic _ _ args, h, other => by
    rw [settles] at h
    cases other <;> simp only [compare, compareList_congr h]
  | .annotated inner _, h, other => by
    rw [settles, Bool.and_eq_true, Bool.and_eq_true] at h
    cases other <;> simp only [compare, compare_congr h.1.1]
  | .classVar inner, h, other | .final inner, h, other => by
    rw [settles] at h
    cases other <;> simp only [compare, compare_congr h]
  | .union _ members, h, other => by
    rw [settles, Bool.and_eq_true] at h
    cases other <;> simp only [compare, compareMembers_congr h.1]
  | .data _, _, other | .ellipsis, _, other | .cls _, _, other | .module _, _, other | .form _, _, other
  | .object _, _, other | .member _ _, _, other | .literal _, _, other | .initVar _, _, other => by
    cases other <;> simp only [compare]

private theorem compareList_congr : ∀ {several : List Referent}, settlesAll world several = true → ∀ others,
    compareList agree several others = compareList agree' several others
  | [], _, others => by cases others <;> simp only [compareList]
  | d :: rest, h, others => by
    rw [settlesAll, Bool.and_eq_true] at h
    cases others <;> simp only [compareList, compare_congr h.1, compareList_congr h.2]

private theorem compareMembers_congr : ∀ {several : List Referent}, settlesAll world several = true → ∀ others,
    compareMembers agree several others = compareMembers agree' several others
  | [], _, _ => by simp only [compareMembers]
  | d :: rest, h, others => by
    rw [settlesAll, Bool.and_eq_true] at h
    simp only [compareMembers, compare_congr h.1, compareMembers_congr h.2]

end

private theorem marked_of_isOk {markers : List Marker} {d : Referent} (h : (marked world markers d).isOk = true) :
    marked world markers d = .ok (d.mark markers) := by
  cases hm : marked world markers d with
  | ok found => rw [eq_mark_of_marked hm]
  | error trouble =>
    rw [hm] at h
    cases h

private theorem mark_of_isPlain {d : Referent} (h : settles.isPlain d = true) (markers : List Marker) :
    d.mark markers = .annotated d markers := by
  cases d with
  | annotated => cases h
  | _ => rfl

mutual

private theorem isSettled_of_settles : ∀ {d : Referent}, settles world d = true → IsSettled world d
  | .text _, h | .forward _ _ _, h => nomatch h
  | .generic _ _ args, h => fun find memory => by
    rw [settles] at h
    exact run_bind (replaceAll_of_settles h find memory)
  | .annotated inner markers, h => fun find memory => by
    rw [settles, Bool.and_eq_true, Bool.and_eq_true] at h
    obtain ⟨⟨hinner, plain⟩, hmarked⟩ := h
    refine (run_bind (isSettled_of_settles hinner find memory)).trans ?_
    rw [marked_of_isOk hmarked, mark_of_isPlain plain]
    rfl
  | .classVar inner, h => fun find memory => by
    rw [settles] at h
    exact run_bind (isSettled_of_settles h find memory)
  | .final inner, h => fun find memory => by
    rw [settles] at h
    exact run_bind (isSettled_of_settles h find memory)
  | .union _ members, h => fun find memory => by
    rw [settles, Bool.and_eq_true] at h
    have same : sameList memory.agree members members = true := by
      rw [← h.2, sameList, sameList, compareList_congr memory.agree (fun _ _ => true) h.1]
    refine (run_bind (replaceAll_of_settles h.1 find memory)).trans ?_
    exact (run_bind (show Gives get memory memory memory from rfl)).trans (by rw [if_pos same]; rfl)
  | .data _, _ | .ellipsis, _ | .cls _, _ | .module _, _ | .form _, _ | .object _, _ | .member _ _, _
  | .literal _, _ | .initVar _, _ => fun _ _ => rfl

private theorem replaceAll_of_settles : ∀ {several : List Referent}, settlesAll world several = true →
    ∀ find memory, Gives (replaceAll world find several) memory several memory
  | [], _, _, _ => rfl
  | d :: rest, h, find, memory => by
    rw [settlesAll, Bool.and_eq_true] at h
    exact (run_bind (isSettled_of_settles h.1 find memory)).trans
      (run_bind (replaceAll_of_settles h.2 find memory))

end

end Settled

theorem IsSettled.ne_text {world : World} {d : Referent} (h : IsSettled world d) (expr : TypeExpr) :
    d ≠ .text expr := by
  rintro rfl
  -- a string in it would be looked for, and that can fail
  cases h (fun _ _ _ => throw .emptyModuleName) .empty

/-- A type that is settled in a world is settled without its annotations. -/
theorem isSettled_bare (world : World) (d : Referent) : IsSettled world.bare d ↔ IsSettled world d := by
  simp only [IsSettled, replace_bare]

end Referent

namespace World
variable (world : World) (c : ClassRef)

/-- What an annotation of a class means by itself: a type without strings itself; or a string that denotes
such a type whatever is remembered, whether the names of the class or those of its module come first. -/
inductive IsMeaning : Referent → Referent → Prop
  | written {d : Referent} (settled : Referent.IsSettled world d) (given : d ≠ .none) : IsMeaning d d
  | quoted {expr : TypeExpr} {d : Referent} (settled : Referent.IsSettled world d)
    (accepted : Referent.accept world true d = pure d)
    (moduleFirst : Returns Memory.IsFaithful ((world.moduleFirst c).evaluate expr) d)
    (classFirst : Returns Memory.IsFaithful ((world.classFirst c).evaluate expr) d) :
    IsMeaning (.text expr) d

/-- A string that denotes nothing, whether the names of the class or those of its module come first. -/
def IsUnresolvable (expr : TypeExpr) : Prop :=
  Fails ((world.moduleFirst c).evaluate expr) ∧ Fails ((world.classFirst c).evaluate expr)

variable {world c}

section Meaning
variable {written d : Referent} {expr : TypeExpr} {memory after : Memory}

theorem isMeaning_of_denoted (settled : Referent.settles world d = true)
    (accepted : Referent.accept world true d = pure d)
    (moduleFirst : (world.moduleFirst c).denoted? expr = some d)
    (classFirst : (world.classFirst c).denoted? expr = some d) : world.IsMeaning c (.text expr) d :=
  .quoted (Referent.isSettled_of_settles settled) accepted (Environment.returns_evaluate moduleFirst)
    (Environment.returns_evaluate classFirst)

theorem isUnresolvable_of_isUndefined (moduleFirst : (world.moduleFirst c).isUndefined expr = true)
    (classFirst : (world.classFirst c).isUndefined expr = true) : world.IsUnresolvable c expr :=
  ⟨Environment.fails_evaluate moduleFirst, Environment.fails_evaluate classFirst⟩

private theorem returns_find {env : Environment} {lenient : Bool} (fuel number : Nat)
    (evaluated : Returns Memory.IsFaithful (env.evaluate expr) d)
    (accepted : Referent.accept env.world lenient d = pure d) (settled : Referent.IsSettled env.world d) :
    Returns Memory.IsFaithful (env.find false (fuel + 1) [] expr lenient number) d := by
  have found : Returns Memory.IsFaithful (do
      let found ← Referent.accept env.world lenient (← env.evaluate expr)
      let found ← Referent.replace env.world (env.find false fuel [expr.text]) found
      modify (·.settle number found)
      return found) d := by
    refine evaluated.bind ?_
    rw [accepted, pure_bind]
    exact fun memory start => ⟨memory.settle number d, run_bind (settled _ memory), start.settle number d⟩
  intro memory start
  obtain ⟨after, gives, hafter⟩ := found memory start
  rw [Environment.find, if_neg (by simp)]
  refine ⟨after, (run_bind (show Gives get memory memory memory from rfl)).trans ?_, hafter⟩
  cases memory.found? number <;> exact gives

theorem IsMeaning.followed (h : world.IsMeaning c written d) :
    Returns Memory.IsFaithful ((world.moduleFirst c).followWhole false true written) d := by
  cases h with
  | written settled given =>
    rw [Environment.followWhole.eq_def]
    split
    · exact absurd rfl (settled.ne_text _)
    · exact absurd rfl given
    · exact fun memory start => ⟨memory, settled _ memory, start⟩
  | quoted settled accepted moduleFirst =>
    intro memory start
    obtain ⟨after, gives, hafter⟩ := returns_find 999 memory.found.length
      moduleFirst accepted settled memory.refer start.refer
    exact ⟨after, (run_bind (show Gives Evaluator.newNumber memory _ memory.refer from rfl)).trans gives,
      hafter⟩

private theorem run_alone (env : Environment) (expr : TypeExpr) (memory : Memory) :
    (liftM (evaluateAlone env (.text expr)) : Evaluator Referent).run.run memory =
      (let made := (env.evaluate expr).run.run memory
       let last := (match made.1 with
          | .ok d => (pure d : StateM Memory Referent)
          | .error _ => pure (.text expr)) made.2
       (.ok last.1, last.2)) := rfl

/-- An annotation evaluated by itself always gives something: a string stays as it is if nothing else. -/
private theorem run_evaluateAlone (env : Environment) (expr : TypeExpr) (memory : Memory) :
    (liftM (evaluateAlone env (.text expr)) : Evaluator Referent).run.run memory =
      (.ok (((env.evaluate expr).run.run memory).1.toOption.getD (.text expr)),
        ((env.evaluate expr).run.run memory).2) := by
  rw [run_alone]
  generalize (env.evaluate expr).run.run memory = made
  obtain ⟨outcome, after⟩ := made
  cases outcome <;> rfl

/-- A string evaluated by itself gives what it denotes, or stays where that fails. -/
theorem gives_evaluateAlone {env : Environment}
    (h : Gives (liftM (evaluateAlone env (.text expr)) : Evaluator Referent) memory d after) :
    Gives (env.evaluate expr) memory d after ∨
      d = .text expr ∧ ∃ trouble, (env.evaluate expr).run.run memory = (.error trouble, after) := by
  have run := h.symm.trans (run_evaluateAlone env expr memory)
  cases hrun : (env.evaluate expr).run.run memory with
  | mk outcome last =>
    rw [hrun] at run
    cases outcome with
    | ok found =>
      cases run
      exact .inl hrun
    | error trouble =>
      cases run
      exact .inr ⟨rfl, trouble, rfl⟩

private theorem keeps_evaluateAlone {holds : Memory → Prop} [Memory.Invariant holds] (env : Environment)
    (written : Referent) : Keeps holds (liftM (evaluateAlone env written) : Evaluator Referent) := by
  rw [evaluateAlone.eq_def]
  split
  · rename_i expr
    intro memory start
    have run := run_evaluateAlone env expr memory
    rw [evaluateAlone] at run
    rw [run]
    exact env.keeps_evaluate expr memory start
  · exact keeps_pure _

theorem IsMeaning.alone (h : world.IsMeaning c written d) :
    Returns Memory.IsFaithful (liftM (evaluateAlone (world.classFirst c) written) : Evaluator Referent) d := by
  cases h with
  | written settled given =>
    rw [evaluateAlone.eq_def]
    split
    · exact absurd rfl (settled.ne_text _)
    · exact returns_pure _
  | quoted settled accepted moduleFirst classFirst =>
    intro memory start
    obtain ⟨after, gives, hafter⟩ := classFirst memory start
    refine ⟨after, (run_evaluateAlone _ _ memory).trans ?_, hafter⟩
    rw [show (Environment.evaluate _ _).run.run memory = _ from gives]
    rfl

end Meaning

/-- The bindings with entries put into them, each taken through a step. -/
def addBy (step : Referent → Evaluator Referent) (hints : Bindings) : Bindings → Evaluator Bindings
  | [] => return hints
  | (name, written) :: rest => do
    let d ← step written
    addBy step (Json.put name d hints) rest

/-- The bindings with the tables of classes put into them, those of later classes over the others. -/
def hintsBy (world : World) (steps : ClassRef → Referent → Evaluator Referent)
    (tables : ClassRef → Except Trouble Bindings) (hints : Bindings) : List ClassRef → Evaluator Bindings
  | [] => return hints
  | k :: rest => do
    (world.label k).check
    hintsBy world steps tables (← addBy (steps k) hints (← tables k)) rest

section Adding
variable {holds : Memory → Prop} {step : Referent → Evaluator Referent}
  {hints entries result : Bindings} {memory after : Memory} {name : Text} {written : Referent}

private theorem keeps_addBy (kept : ∀ written, Keeps holds (step written)) (hints entries : Bindings) :
    Keeps holds (addBy step hints entries) := by
  induction entries generalizing hints with
  | nil => exact keeps_pure hints
  | cons entry rest ih => exact (kept entry.2).bind fun d => ih _

private theorem lookup_addBy_other (h : Gives (addBy step hints entries) memory result after)
    (hname : name ∉ entries.map (·.1)) : List.lookup name result = List.lookup name hints := by
  induction entries generalizing hints memory with
  | nil => exact congrArg (List.lookup name) (Gives.pure h).1
  | cons entry rest ih =>
    obtain ⟨d, middle, -, h⟩ := Gives.bind h
    obtain ⟨hne, hrest⟩ := not_or.mp (mt List.mem_cons.mpr hname)
    rw [ih h hrest, lookup_put_ne (Ne.symm hne)]

/-- The hint of an annotated name is what the step gave of its annotation. -/
private theorem lookup_addBy (h : Gives (addBy step hints entries) memory result after) (start : holds memory)
    (kept : ∀ written, Keeps holds (step written)) (nodup : (entries.map (·.1)).Nodup)
    (hmem : (name, written) ∈ entries) : ∃ before d left, holds before ∧
      Gives (step written) before d left ∧ List.lookup name result = some d := by
  induction entries generalizing hints memory with
  | nil => cases hmem
  | cons entry rest ih =>
    obtain ⟨d, middle, hd, h⟩ := Gives.bind h
    obtain ⟨hout, hrest⟩ := List.nodup_cons.mp nodup
    rcases List.mem_cons.mp hmem with rfl | hmem
    · exact ⟨memory, d, middle, start, hd, by rw [lookup_addBy_other h hout, lookup_put_self]⟩
    · exact ih h ((kept entry.2).of_gives start hd) hrest hmem

end Adding

section Collecting
variable {holds : Memory → Prop} {steps : ClassRef → Referent → Evaluator Referent}
  {tables : ClassRef → Except Trouble Bindings} {given : ClassRef → Bindings}
  {hints result : Bindings} {memory after : Memory}
  {classes behind : List ClassRef} {name : Text} {written : Referent}

private theorem keeps_hintsBy (kept : ∀ k written, Keeps holds (steps k written)) (hints : Bindings)
    (classes : List ClassRef) : Keeps holds (hintsBy world steps tables hints classes) := by
  induction classes generalizing hints with
  | nil => exact keeps_pure hints
  | cons k rest ih =>
    exact (keeps_lift _).bind fun _ => (keeps_lift _).bind fun entries =>
      (keeps_addBy (kept k) hints entries).bind fun added => ih added

private theorem hintsBy_cons {k : ClassRef}
    (read : ∀ j ∈ k :: classes, ∀ entries, tables j = .ok entries → entries = given j)
    (h : Gives (hintsBy world steps tables hints (k :: classes)) memory result after) :
    ∃ added middle, Gives (addBy (steps k) hints (given k)) memory added middle ∧
      Gives (hintsBy world steps tables added classes) middle result after := by
  obtain ⟨_, _, checked, reading⟩ := Gives.bind h
  obtain ⟨entries, _, table, adding⟩ := Gives.bind reading
  obtain ⟨added, middle, hadded, others⟩ := Gives.bind adding
  obtain ⟨-, rfl⟩ := checked.of_liftM
  obtain ⟨ht, rfl⟩ := table.of_liftM
  exact ⟨added, middle, read k List.mem_cons_self entries ht ▸ hadded, others⟩

private theorem lookup_hintsBy_other
    (read : ∀ k ∈ classes, ∀ entries, tables k = .ok entries → entries = given k)
    (h : Gives (hintsBy world steps tables hints classes) memory result after)
    (hname : ∀ k ∈ classes, name ∉ (given k).map (·.1)) : List.lookup name result = List.lookup name hints := by
  induction classes generalizing hints memory with
  | nil => exact congrArg (List.lookup name) (Gives.pure h).1
  | cons k rest ih =>
    obtain ⟨added, middle, hadded, h⟩ := hintsBy_cons read h
    rw [ih (fun other ho => read other (List.mem_cons_of_mem _ ho)) h
      fun other ho => hname other (List.mem_cons_of_mem _ ho),
      lookup_addBy_other hadded (hname k List.mem_cons_self)]

/-- The hint of a name is what the step gave of its annotation in the last class with one. -/
private theorem lookup_hintsBy {k : ClassRef}
    (read : ∀ j ∈ classes ++ k :: behind, ∀ entries, tables j = .ok entries → entries = given j)
    (kept : ∀ j written, Keeps holds (steps j written))
    (h : Gives (hintsBy world steps tables hints (classes ++ k :: behind)) memory result after)
    (start : holds memory) (nodup : ((given k).map (·.1)).Nodup) (hmem : (name, written) ∈ given k)
    (last : ∀ j ∈ behind, name ∉ (given j).map (·.1)) :
    ∃ before d left, holds before ∧ Gives (steps k written) before d left ∧ List.lookup name result = some d := by
  induction classes generalizing hints memory with
  | nil =>
    obtain ⟨added, middle, hadded, h⟩ := hintsBy_cons read h
    obtain ⟨before, d, left, hbefore, hd, hvalue⟩ :=
      lookup_addBy hadded start (kept k) nodup hmem
    have others := lookup_hintsBy_other (fun j hj => read j (List.mem_cons_of_mem _ hj)) h last
    exact ⟨before, d, left, hbefore, hd, others.trans hvalue⟩
  | cons j rest ih =>
    obtain ⟨added, middle, hadded, h⟩ := hintsBy_cons read h
    have hmiddle := (keeps_addBy (kept j) hints (given j)).of_gives start hadded
    exact ih (fun other ho => read other (List.mem_cons_of_mem _ ho)) h hmiddle

end Collecting

section Ways

private theorem addFollowed_eq (k : ClassRef) (hints entries : Bindings) : world.addFollowed k hints entries =
    addBy ((world.moduleFirst k).followWhole false true) hints entries := by
  induction entries generalizing hints with
  | nil => rfl
  | cons entry rest ih => simp only [addFollowed, addBy, ih]

private theorem followedHints_eq (hints : Bindings) (classes : List ClassRef) :
    world.followedHints hints classes =
      hintsBy world (fun k => (world.moduleFirst k).followWhole false true)
        (fun k => world.tableOf (world.ownAnnotations k)) hints classes := by
  induction classes generalizing hints with
  | nil => rfl
  | cons k rest ih => simp only [followedHints, hintsBy, addFollowed_eq, ih]

private theorem addAlone_eq (k : ClassRef) (hints entries : Bindings) :
    (liftM (world.addAlone k hints entries) : Evaluator Bindings) =
      addBy (fun written => liftM (evaluateAlone (world.classFirst k) written)) hints entries := by
  induction entries generalizing hints with
  | nil => rfl
  | cons entry rest ih =>
    simp only [addAlone, addBy, ← ih]
    rfl

private theorem hintsAlone_eq (hints : Bindings) (classes : List ClassRef) :
    world.hintsAlone hints classes =
      hintsBy world (fun k written => liftM (evaluateAlone (world.classFirst k) written))
        world.visibleAnnotations hints classes := by
  induction classes generalizing hints with
  | nil => rfl
  | cons k rest ih => simp only [hintsAlone, hintsBy, ← addAlone_eq, ih]

private theorem hints_eq (checked : world.isUnchecked c = false) : world.hints c =
    tryCatch
      (hintsBy world (fun k => (world.moduleFirst k).followWhole false true)
        (fun k => world.tableOf (world.ownAnnotations k)) [] (world.resolutionOrder c).reverse)
      fun _ => hintsBy world (fun k written => liftM (evaluateAlone (world.classFirst k) written))
        world.visibleAnnotations [] (world.resolutionOrder c).reverse := by
  rw [hints, checked, if_neg Bool.false_ne_true]
  simp only [followedHints_eq, hintsAlone_eq]

section Keeping
variable {holds : Memory → Prop} [Memory.Invariant holds]

private theorem keeps_followed (k : ClassRef) (written : Referent) :
    Keeps holds ((world.moduleFirst k).followWhole false true written) :=
  (world.moduleFirst k).keeps_followWhole false true written

theorem keeps_hints (world : World) (c : ClassRef) : Keeps holds (world.hints c) := by
  cases hu : world.isUnchecked c with
  | true =>
    rw [hints, hu]
    exact keeps_pure _
  | false =>
    rw [hints_eq hu]
    exact (keeps_hintsBy keeps_followed _ _).tryCatch fun _ =>
      keeps_hintsBy (fun k => keeps_evaluateAlone (world.classFirst k)) _ _

end Keeping

end Ways

/-- A class that tells its module by a text and annotates each name once, outside the module of built-in
classes. -/
structure IsOrdinary (world : World) (k : ClassRef) : Prop where
  label : ∃ name, world.label k = .text name
  outside : world.isBuiltin k = true → (world.ownAnnotations k).entries = []
  nodup : ((world.ownAnnotations k).entries.map (·.1)).Nodup

instance (label : ModuleLabel) : Decidable (∃ name, label = .text name) :=
  match label with
  | .text name => .isTrue ⟨name, rfl⟩
  | .other _ => .isFalse nofun

instance (world : World) (k : ClassRef) : Decidable (world.IsOrdinary k) :=
  decidable_of_iff ((∃ name, world.label k = .text name) ∧
      (world.isBuiltin k = true → (world.ownAnnotations k).entries.isEmpty = true) ∧
      ((world.ownAnnotations k).entries.map (·.1)).Nodup)
    ⟨fun ⟨label, outside, nodup⟩ => ⟨label, fun h => List.isEmpty_iff.mp (outside h), nodup⟩,
      fun ⟨label, outside, nodup⟩ => ⟨label, fun h => List.isEmpty_iff.mpr (outside h), nodup⟩⟩

namespace IsOrdinary
variable {k : ClassRef} {entries : Bindings} (h : world.IsOrdinary k)
include h

theorem checkLabel_eq : (world.label k).check = .ok () := by
  obtain ⟨name, hname⟩ := h.label
  rw [hname]
  rfl

omit h in
private theorem tableOf_eq (table : world.tableOf (world.ownAnnotations k) = .ok entries) :
    entries = (world.ownAnnotations k).entries := by
  cases hown : world.ownAnnotations k with
  | table own =>
    rw [hown] at table
    cases table
    rfl
  | absent | replaced =>
    rw [hown] at table
    cases table

theorem visibleAnnotations_eq (visible : world.visibleAnnotations k = .ok entries) :
    entries = (world.ownAnnotations k).entries := by
  rw [visibleAnnotations, h.checkLabel_eq] at visible
  cases hb : world.isBuiltin k with
  | true =>
    rw [if_pos hb] at visible
    cases visible
    exact (h.outside hb).symm
  | false =>
    rw [hb, if_neg Bool.false_ne_true] at visible
    cases hown : world.ownAnnotations k <;> rw [hown] at visible <;>
      cases ht : (world.label k).isTrue <;> rw [ht] at visible <;> cases visible <;> rfl

theorem ownAnnotation?_eq (name : Text) :
    world.ownAnnotation? k name = List.lookup name (world.ownAnnotations k).entries := by
  rw [ownAnnotation?]
  cases hb : world.isBuiltin k with
  | false => rfl
  | true =>
    rw [if_pos rfl, h.outside hb]
    rfl

theorem notMem_names {name : Text} (none : world.ownAnnotation? k name = none) :
    name ∉ (world.ownAnnotations k).entries.map (·.1) := by
  intro hin
  obtain ⟨⟨other, written⟩, hmem, rfl⟩ := List.mem_map.mp hin
  rw [h.ownAnnotation?_eq, lookup_of_mem h.nodup hmem] at none
  cases none

end IsOrdinary

section Nearest
variable {holds : Memory → Prop} {memory after : Memory} {hints : Bindings}
  {nearer farther : List ClassRef} {k : ClassRef}
  {name : Text} {written d : Referent}

private theorem exists_hintBy {steps : ClassRef → Referent → Evaluator Referent}
    {tables : ClassRef → Except Trouble Bindings}
    (ordinary : ∀ j ∈ world.resolutionOrder c, world.IsOrdinary j)
    (read : ∀ j ∈ world.resolutionOrder c, ∀ entries, tables j = .ok entries →
      entries = (world.ownAnnotations j).entries)
    (kept : ∀ j written, Keeps holds (steps j written))
    (h : Gives (hintsBy world steps tables [] (world.resolutionOrder c).reverse) memory hints after)
    (start : holds memory) (order : world.resolutionOrder c = nearer ++ k :: farther)
    (near : ∀ j ∈ nearer, world.ownAnnotation? j name = none)
    (own : world.ownAnnotation? k name = some written) :
    ∃ before d left, holds before ∧ Gives (steps k written) before d left ∧
      List.lookup name hints = some d := by
  have hk : k ∈ world.resolutionOrder c := order ▸ List.mem_append_right _ List.mem_cons_self
  have hnear : ∀ j ∈ nearer, j ∈ world.resolutionOrder c := fun j hj => order ▸ List.mem_append_left _ hj
  have reverse : (world.resolutionOrder c).reverse = farther.reverse ++ k :: nearer.reverse := by
    rw [order, List.reverse_append, List.reverse_cons, List.append_assoc]
    rfl
  have member : ∀ j ∈ farther.reverse ++ k :: nearer.reverse, j ∈ world.resolutionOrder c :=
    fun j hj => List.mem_reverse.mp (reverse ▸ hj)
  rw [reverse] at h
  rw [(ordinary k hk).ownAnnotation?_eq] at own
  refine lookup_hintsBy (fun j hj => read j (member j hj)) kept h start
    (ordinary k hk).nodup (mem_of_lookup own) fun j hj => ?_
  have hj := List.mem_reverse.mp hj
  exact (ordinary j (hnear j hj)).notMem_names (near j hj)

/-- The hint of a name is found for its nearest annotation, together with all others or by itself. -/
theorem exists_hint [Memory.Invariant holds]
    (ordinary : ∀ j ∈ world.resolutionOrder c, world.IsOrdinary j)
    (checked : world.isUnchecked c = false)
    (h : Gives (world.hints c) memory hints after) (start : holds memory)
    (order : world.resolutionOrder c = nearer ++ k :: farther)
    (near : ∀ j ∈ nearer, world.ownAnnotation? j name = none)
    (own : world.ownAnnotation? k name = some written) :
    ∃ before d left, holds before ∧ List.lookup name hints = some d ∧
      (Gives ((world.moduleFirst k).followWhole false true written) before d left ∨
        Gives (liftM (evaluateAlone (world.classFirst k) written) : Evaluator Referent) before d left) := by
  have table : ∀ j ∈ world.resolutionOrder c, ∀ entries, world.tableOf (world.ownAnnotations j) =
      .ok entries → entries = (world.ownAnnotations j).entries := fun _ _ _ => IsOrdinary.tableOf_eq
  -- the hints of the whole class, or after their failure, from the memory it left, one by one
  rw [hints_eq checked] at h
  rcases h.tryCatch_cases with h | ⟨trouble, middle, failed, h⟩
  · obtain ⟨before, d, left, hbefore, hd, hvalue⟩ :=
      exists_hintBy ordinary table keeps_followed h start order near own
    exact ⟨before, d, left, hbefore, hvalue, .inl hd⟩
  · have hmiddle := (keeps_hintsBy keeps_followed _ _).of_error start failed
    obtain ⟨before, d, left, hbefore, hd, hvalue⟩ := exists_hintBy ordinary
      (fun j hj entries => (ordinary j hj).visibleAnnotations_eq)
      (fun j => keeps_evaluateAlone _) h hmiddle order near own
    exact ⟨before, d, left, hbefore, hvalue, .inr hd⟩

/-- An annotation that means something by itself is hinted at as that. -/
theorem IsMeaning.hint_eq (h : world.IsMeaning k written d)
    (ordinary : ∀ j ∈ world.resolutionOrder c, world.IsOrdinary j)
    (checked : world.isUnchecked c = false) (gives : Gives (world.hints c) memory hints after)
    (start : memory.IsFaithful) (order : world.resolutionOrder c = nearer ++ k :: farther)
    (near : ∀ j ∈ nearer, world.ownAnnotation? j name = none)
    (own : world.ownAnnotation? k name = some written) : List.lookup name hints = some d := by
  obtain ⟨before, found, left, hbefore, hvalue, way⟩ :=
    exists_hint ordinary checked gives start order near own
  rcases way with way | way
  · rw [hvalue, h.followed.fixes before found left hbefore way]
  · rw [hvalue, h.alone.fixes before found left hbefore way]

/-- A string that is followed and is not found before is evaluated, taken in its place, and followed. -/
theorem gives_find {env : Environment} {reuse lenient : Bool} {fuel number : Nat} {expr : TypeExpr}
    (fresh : reuse = false ∨ memory.found? number = none)
    (h : Gives (env.find reuse (fuel + 1) [] expr lenient number) memory d after) :
    ∃ found middle taken last left, Gives (env.evaluate expr) memory found middle ∧
      Gives (Referent.accept env.world lenient found) middle taken last ∧
      Gives (Referent.replace env.world (env.find reuse fuel [expr.text]) taken) last d left := by
  rw [Environment.find, if_neg (by simp)] at h
  replace h := Gives.bind_get h
  replace h : Gives (do
      let d ← Referent.accept env.world lenient (← env.evaluate expr)
      let found ← Referent.replace env.world (env.find reuse fuel [expr.text]) d
      modify (·.settle number found)
      return found) memory d after := by
    split at h
    · rename_i known
      rcases fresh with fresh | fresh
      · cases fresh
      · cases known.symm.trans fresh
    · exact h
  obtain ⟨found, middle, evaluated, h⟩ := Gives.bind h
  obtain ⟨taken, last, accepted, h⟩ := Gives.bind h
  obtain ⟨_, left, replaced, h⟩ := Gives.bind h
  obtain ⟨_, _, -, h⟩ := Gives.bind h
  rw [(Gives.pure h).1]
  exact ⟨found, middle, taken, last, left, evaluated, accepted, replaced⟩

/-- A string that is a whole annotation is followed with a new number. -/
private theorem gives_followWhole {env : Environment} {expr : TypeExpr} {reuse lenient : Bool}
    (h : Gives (env.followWhole reuse lenient (.text expr)) memory d after) :
    ∃ found middle taken last left, Gives (env.evaluate expr) memory.refer found middle ∧
      Gives (Referent.accept env.world lenient found) middle taken last ∧
      Gives (Referent.replace env.world (env.find reuse 999 [expr.text]) taken) last d left := by
  obtain ⟨number, _, ⟨⟩, following⟩ := Gives.bind h
  refine gives_find (.inr ?_) (show Gives (env.find reuse (999 + 1) [] expr lenient memory.found.length)
    memory.refer d after from following)
  simp [Memory.found?, Memory.refer]

/-- A string that denotes nothing stays one. -/
theorem IsUnresolvable.hint_eq {expr : TypeExpr} (h : world.IsUnresolvable k expr)
    (ordinary : ∀ j ∈ world.resolutionOrder c, world.IsOrdinary j)
    (checked : world.isUnchecked c = false) (gives : Gives (world.hints c) memory hints after)
    (start : memory.IsFaithful) (order : world.resolutionOrder c = nearer ++ k :: farther)
    (near : ∀ j ∈ nearer, world.ownAnnotation? j name = none)
    (own : world.ownAnnotation? k name = some (.text expr)) : List.lookup name hints = some (.text expr) := by
  obtain ⟨before, found, left, hbefore, hvalue, way⟩ :=
    exists_hint ordinary checked gives start order near own
  rcases way with way | way
  · obtain ⟨d, after, _, _, _, evaluated, -⟩ := gives_followWhole way
    exact absurd evaluated (h.1 _ d after)
  · rcases gives_evaluateAlone way with evaluated | ⟨rfl, -⟩
    · exact absurd evaluated (h.2 before found left)
    · exact hvalue

end Nearest

section Members
variable {holds : Memory → Prop} [Memory.Invariant holds] {memory : Memory}

/-- What is made of an outcome leaves what is remembered as it is. -/
private theorem run_outcome (made : Except Trouble Referent × Memory) :
    ((match made.1 with
      | .ok d => return d
      | .error _ => return .any : StateM Memory Referent).run made.2).2 = made.2 := by
  cases made.1 <;> rfl

private theorem holds_resultType (world : World) (k : ClassRef) (type : Option Referent) (readable : Bool)
    (start : holds memory) : holds ((world.resultType k type readable).run memory).2 := by
  rw [resultType.eq_def]
  split
  · rename_i written
    have kept := (world.moduleOnly k).keeps_followWhole true false written memory start
    exact (run_outcome _).symm ▸ kept
  · exact start

theorem holds_memberType (world : World) (hints : Bindings) (k : ClassRef) (name : Text)
    (start : holds memory) : holds ((world.memberType hints k name).run memory).2 := by
  rw [memberType.eq_def]
  split
  · exact holds_resultType world k _ _ start
  · exact start

private theorem holds_memberTypes (world : World) (c : ClassRef) (hints : Bindings) (names : List Text)
    (start : holds memory) : holds ((world.memberTypes c hints names).run memory).2 := by
  induction names generalizing memory with
  | nil => exact start
  | cons name rest ih => exact ih (holds_memberType world hints (world.declaringClass c name) name start)

/-- Reflection keeps what is remembered by the way that forms make types. -/
theorem keeps_reflect (world : World) (visibility : Visibility) (c : ClassRef) :
    Keeps holds (world.reflect visibility c) :=
  (keeps_hints world c).bind fun hints => (keeps_lift _).bind fun _ => (keeps_lift _).bind fun names =>
    Keeps.bind (fun _ => holds_memberTypes world c hints names) fun _ => keeps_lift _

end Members

end World

end Specimen
