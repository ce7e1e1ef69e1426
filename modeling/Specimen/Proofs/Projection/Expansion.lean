import Specimen.Projection.Document
import Specimen.Proofs.Steps
import Mathlib.Data.List.Nodup
import Mathlib.Data.List.Perm.Subperm

/-! Projection as a recursion without fuel. It expands the members of a class one after the other and opens
a record only if the path to it does not hold the record, so that a path is never longer than there are
classes; both policies go the same way up to the first class that is met again. -/
namespace Specimen

/-- A failure that reports a loop. -/
def Failure.isLoop : Failure → Bool
  | .refusal (.loop _ _) => true
  | _ => false

/-- The records that a projection opens, each by the classes on the way to it, and the classes that it
meets again, each behind the way to it. -/
structure Trail where
  opened : List (List ClassRef)
  loops : List (List ClassRef × ClassRef)

namespace Trail

/-- Nothing is opened or met again. -/
def empty : Trail := ⟨[], []⟩

/-- Before the rest, a class is met again. -/
def meet (path : List ClassRef) (target : ClassRef) (trail : Trail) : Trail :=
  ⟨trail.opened, (path, target) :: trail.loops⟩

/-- Before the rest, a record is opened and what is inside it. -/
def enter (path : List ClassRef) (inside rest : Trail) : Trail :=
  ⟨path :: inside.opened ++ rest.opened, inside.loops ++ rest.loops⟩

theorem mem_opened_enter {path way : List ClassRef} {inside rest : Trail} :
    way ∈ (enter path inside rest).opened ↔ way = path ∨ way ∈ inside.opened ∨ way ∈ rest.opened := by
  simp [enter]

theorem mem_loops_enter {path : List ClassRef} {inside rest : Trail} {loop : List ClassRef × ClassRef} :
    loop ∈ (enter path inside rest).loops ↔ loop ∈ inside.loops ∨ loop ∈ rest.loops :=
  List.mem_append

@[simp] theorem not_mem_opened_empty (way : List ClassRef) : way ∉ empty.opened := List.not_mem_nil

@[simp] theorem not_mem_loops_empty (loop : List ClassRef × ClassRef) : loop ∉ empty.loops :=
  List.not_mem_nil

end Trail

namespace World

variable (world : World) (visibility : Visibility)

/-- What reflection gives of a class, and what is remembered afterwards. -/
def reflection (c : ClassRef) (memory : Memory) : Except Trouble (List ReflectedMember) × Memory :=
  (world.reflect visibility c).run.run memory

/-- The sample of a member of a type that is no record. -/
def plainSample (member : ReflectedMember) : Except Failure Sample :=
  if member.isCollection then .ok (.array []) else world.placeholder member.type

/-- What a member shows: the record that its type or that of its items is, or else a sample. -/
def entry (member : ReflectedMember) : Except Failure (ClassRef ⊕ Sample) :=
  match world.isRecord member.type, member.type with
  | .error trouble, _ => .error (.unreflected trouble)
  | .ok true, .cls target => .ok (.inl target)
  | .ok _, _ => (world.plainSample member).map .inr

/-- The sample of a member in which a record is shown. -/
def shownSample (member : ReflectedMember) (sample : Sample) : Sample :=
  if member.isCollection then .array [sample] else sample

/-- The sample of a member in which a record is left out. -/
def omittedSample (member : ReflectedMember) : Sample :=
  if member.isCollection then .array [] else .null

/-- Expanding members behind a path: the samples under their names or the first failure, what is
remembered, and the trail. -/
inductive Expands : List ClassRef → Memory → List ReflectedMember →
    Except Failure (List (Data × Sample)) → Memory → Trail → Prop
  | nil {path memory} : Expands path memory [] (.ok []) memory .empty
  | failed {path memory member rest failure} (entry : world.entry member = .error failure) :
    Expands path memory (member :: rest) (.error failure) memory .empty
  | plain {path memory member sample rest result after trail}
    (entry : world.entry member = .ok (.inr sample))
    (others : Expands path memory rest result after trail) :
    Expands path memory (member :: rest) (result.map ((member.jsonName, sample) :: ·)) after trail
  | again {path memory member target rest result after trail}
    (entry : world.entry member = .ok (.inl target)) (met : target ∈ path)
    (others : Expands path memory rest result after trail) :
    Expands path memory (member :: rest)
      (result.map ((member.jsonName, omittedSample member) :: ·)) after (trail.meet path target)
  | unreflected {path memory member target rest trouble after}
    (entry : world.entry member = .ok (.inl target)) (fresh : target ∉ path)
    (reflected : world.reflection visibility target memory = (.error trouble, after)) :
    Expands path memory (member :: rest) (.error (.unreflected trouble)) after .empty
  | stopped {path memory member target rest members start failure after inside}
    (entry : world.entry member = .ok (.inl target)) (fresh : target ∉ path)
    (reflected : world.reflection visibility target memory = (.ok members, start))
    (nested : Expands (path ++ [target]) start members (.error failure) after inside) :
    Expands path memory (member :: rest) (.error failure) after
      (.enter (path ++ [target]) inside .empty)
  | nested {path memory member target rest members start samples middle inside result after trail}
    (entry : world.entry member = .ok (.inl target)) (fresh : target ∉ path)
    (reflected : world.reflection visibility target memory = (.ok members, start))
    (nested : Expands (path ++ [target]) start members (.ok samples) middle inside)
    (others : Expands path middle rest result after trail) :
    Expands path memory (member :: rest)
      (result.map ((member.jsonName, shownSample member (.object samples)) :: ·)) after
      (.enter (path ++ [target]) inside trail)

/-- Whether reflection gives a class a member that shows the other one. -/
def Follows (c target : ClassRef) : Prop :=
  ∃ memory members after, world.reflection visibility c memory = (.ok members, after) ∧
    ∃ member ∈ members, world.entry member = .ok (.inl target)

/-- A class and records behind it, each once. -/
structure IsWay (path : List ClassRef) : Prop where
  nonempty : path ≠ []
  nodup : path.Nodup
  records : ∀ c ∈ path.tail, world.isRecord (.cls c) = .ok true

variable {world visibility}

section Entry
variable {member : ReflectedMember} {target : ClassRef} {sample : Sample} {failure : Failure}

private theorem isRecord_of_entry (h : world.entry member = .ok (.inl target)) :
    member.type = .cls target ∧ world.isRecord (.cls target) = .ok true := by
  rw [entry.eq_def] at h
  split at h
  · cases h
  · rename_i hr ht
    cases h
    exact ⟨ht, ht ▸ hr⟩
  · cases hp : world.plainSample member with
    | error failure => simp [hp, Except.map] at h
    | ok sample => simp [hp, Except.map] at h

/-- A record is one of the declared classes. -/
private theorem index_of_isRecord {c : ClassRef} (h : world.isRecord (.cls c) = .ok true) :
    ∃ index < world.classes.length, c = .declared index := by
  cases c with
  | standard s => cases h
  | declared index =>
    refine ⟨index, ?_, rfl⟩
    by_contra hout
    have none : world.info? (.declared index) = none :=
      List.getElem?_eq_none (Nat.le_of_not_lt hout)
    simp [isRecord, isBuiltin, moduleName, label, none, ModuleLabel.name, descends, resolutionOrder,
      scalar?, isDataclass, fieldTable?, ownFieldTable?, ownFields?, ownAttribute?, ownAttributes,
      haveMembers, hasOwnMembers, visibleAnnotations, ownAnnotations, ownProperties,
      Annotations.entries, ModuleLabel.isTrue, bind, Except.bind, pure, Except.pure,
      placeholders, StandardClass.builtinModule] at h

/-- The sample of a member by what it shows. -/
def sampleBy (world : World) (loops : LoopHandling) (nested : List ClassRef → ClassRef → Sampler Sample)
    (path : List ClassRef) (member : ReflectedMember) : ClassRef ⊕ Sample → Sampler Sample
  | .inr sample => pure sample
  | .inl target =>
    if path.contains target then
      match loops with
      | .error => throw (.refusal (world.loopRefusal path target))
      | .ignore => pure (omittedSample member)
    else do return shownSample member (← nested (path ++ [target]) target)

private theorem sampleBy_met {loops : LoopHandling} {nested : List ClassRef → ClassRef → Sampler Sample}
    {path : List ClassRef} (met : target ∈ path) :
    world.sampleBy loops nested path member (.inl target) = match loops with
      | .error => throw (.refusal (world.loopRefusal path target))
      | .ignore => pure (omittedSample member) :=
  if_pos (List.contains_iff_mem.mpr met)

private theorem sampleBy_fresh {loops : LoopHandling} {nested : List ClassRef → ClassRef → Sampler Sample}
    {path : List ClassRef} (fresh : target ∉ path) :
    world.sampleBy loops nested path member (.inl target) =
      do return shownSample member (← nested (path ++ [target]) target) :=
  if_neg fun hc => fresh (List.contains_iff_mem.mp hc)

private theorem memberSample_eq (loops : LoopHandling) (nested : List ClassRef → ClassRef → Sampler Sample)
    (path : List ClassRef) (member : ReflectedMember) :
    world.memberSample loops nested path member =
      (liftM (world.entry member) : Sampler _) >>= world.sampleBy loops nested path member := by
  have plain : (if member.isCollection then pure (.array [])
        else liftM (world.placeholder member.type) : Sampler Sample) =
      (liftM ((world.plainSample member).map (Sum.inr : Sample → ClassRef ⊕ Sample)) : Sampler _) >>=
        world.sampleBy loops nested path member := by
    rw [plainSample]
    cases member.isCollection
    · cases world.placeholder member.type <;> rfl
    · rfl
  rw [memberSample, entry.eq_def]
  obtain ⟨name, jsonName, type, isCollection, optional, declaring, isInherited⟩ := member
  dsimp only at plain ⊢
  cases world.isRecord type with
  | error trouble => rfl
  | ok isRecord =>
    cases isRecord with
    | false => cases type <;> exact plain
    | true =>
      cases type with
      | cls target => rfl
      | _ => exact plain

end Entry

section Way
variable {path : List ClassRef}

theorem isWay_root (root : ClassRef) : world.IsWay [root] := ⟨by simp, by simp, by simp⟩

theorem IsWay.extend (way : world.IsWay path) {member : ReflectedMember} {target : ClassRef}
    (h : world.entry member = .ok (.inl target)) (fresh : target ∉ path) :
    world.IsWay (path ++ [target]) where
  nonempty := by simp
  nodup := List.nodup_append.mpr ⟨way.nodup, List.nodup_singleton _,
    fun c hc other ho he => fresh (List.mem_singleton.mp ho ▸ he ▸ hc)⟩
  records c hc := by
    rw [List.tail_append_of_ne_nil way.nonempty] at hc
    rcases List.mem_append.mp hc with hc | hc
    · exact way.records c hc
    · exact List.mem_singleton.mp hc ▸ (isRecord_of_entry h).2

/-- A way is no longer than there are declared classes behind its first one. -/
theorem IsWay.length_le (way : world.IsWay path) : path.length ≤ world.classes.length + 1 := by
  have sub : path.tail ⊆ (List.range world.classes.length).map ClassRef.declared := fun c hc => by
    obtain ⟨index, hi, rfl⟩ := index_of_isRecord (way.records c hc)
    exact List.mem_map_of_mem (List.mem_range.mpr hi)
  have bound := (List.subperm_of_subset (way.nodup.sublist (List.tail_sublist path)) sub).length_le
  rw [List.length_map, List.length_range, List.length_tail] at bound
  omega

/-- Fuel that bounds a way is not used up where the way can still be extended. -/
private theorem IsWay.exists_fuel {target : ClassRef} {fuel : Nat} (longer : world.IsWay (path ++ [target]))
    (bound : world.classes.length + 2 ≤ fuel + path.length) :
    ∃ less, fuel = less + 1 ∧ world.classes.length + 2 ≤ less + (path ++ [target]).length := by
  have hle := longer.length_le
  rw [List.length_append, List.length_singleton] at hle ⊢
  exact ⟨fuel - 1, by omega, by omega⟩

private theorem exists_expands_of {path : List ClassRef} (way : world.IsWay path)
    (deeper : ∀ target, world.IsWay (path ++ [target]) → ∀ members memory, ∃ result after trail,
      Expands world visibility (path ++ [target]) memory members result after trail) :
    ∀ members memory, ∃ result after trail,
      Expands world visibility path memory members result after trail := by
  intro members
  induction members with
  | nil => exact fun memory => ⟨_, _, _, .nil⟩
  | cons member rest ih =>
    intro memory
    cases he : world.entry member with
    | error failure => exact ⟨_, _, _, .failed he⟩
    | ok entry =>
      cases entry with
      | inr sample =>
        obtain ⟨result, after, trail, others⟩ := ih memory
        exact ⟨_, _, _, .plain he others⟩
      | inl target =>
        by_cases met : target ∈ path
        · obtain ⟨result, after, trail, others⟩ := ih memory
          exact ⟨_, _, _, .again he met others⟩
        · cases hr : world.reflection visibility target memory with
          | mk reflected start =>
            cases reflected with
            | error trouble => exact ⟨_, _, _, .unreflected he met hr⟩
            | ok inner =>
              obtain ⟨result, middle, inside, nested⟩ := deeper target (way.extend he met) inner start
              cases result with
              | error failure => exact ⟨_, _, _, .stopped he met hr nested⟩
              | ok samples =>
                obtain ⟨result, after, trail, others⟩ := ih middle
                exact ⟨_, _, _, .nested he met hr nested others⟩

/-- The recursion ends on every way: there is room for fewer and fewer records. -/
theorem exists_expands (room : Nat) : ∀ {path : List ClassRef}, world.IsWay path →
    world.classes.length + 1 ≤ room + path.length → ∀ members memory, ∃ result after trail,
      Expands world visibility path memory members result after trail := by
  induction room with
  | zero =>
    -- no longer way exists, so nothing deeper is asked for
    refine fun way bound => exists_expands_of way fun target longer => ?_
    have := longer.length_le
    rw [List.length_append, List.length_singleton] at this
    omega
  | succ room ih =>
    refine fun way bound => exists_expands_of way fun target longer => ih longer ?_
    rw [List.length_append, List.length_singleton]
    omega

end Way

section Run
variable {loops : LoopHandling} {formatting : Json.Formatting}
  {nested : List ClassRef → ClassRef → Sampler Sample} {path : List ClassRef} {member : ReflectedMember}
  {rest : List ReflectedMember} {target : ClassRef} {sample : Sample} {failure : Failure}
  {memory after : Memory}

private theorem run_reflection {reflected : Except Trouble (List ReflectedMember)}
    (h : world.reflection visibility target memory = (reflected, after)) :
    (reflecting (world.reflect visibility target)).run.run memory =
      (reflected.mapError .unreflected, after) := by
  change ((world.reflection visibility target memory).1.mapError Failure.unreflected,
    (world.reflection visibility target memory).2) = _
  rw [h]

/-- The document of a record reached on a path. -/
def nestedDocument (world : World) (settings : Settings) (fuel : Nat) (path : List ClassRef)
    (c : ClassRef) : Sampler Sample := do
  world.documentFrom settings fuel path (← reflecting (world.reflect settings.visibility c))

private theorem documentFrom_succ (settings : Settings) (fuel : Nat) (path : List ClassRef)
    (members : List ReflectedMember) : world.documentFrom settings (fuel + 1) path members = do
      return .object (← world.memberSamples settings.loops (world.nestedDocument settings fuel) path
        members) := rfl

private theorem run_documentFrom {fuel : Nat} {members : List ReflectedMember}
    {result : Except Failure (List (Data × Sample))}
    (h : (world.memberSamples loops (world.nestedDocument ⟨visibility, loops, formatting⟩ fuel) path
      members).run.run memory = (result, after)) :
    (world.documentFrom ⟨visibility, loops, formatting⟩ (fuel + 1) path members).run.run memory =
      (result.map .object, after) := by
  rw [documentFrom_succ]
  cases result with
  | error failure => exact run_bind_error h
  | ok samples => exact run_bind h

private theorem run_cons_error
    (h : (world.memberSample loops nested path member).run.run memory = (.error failure, after)) :
    (world.memberSamples loops nested path (member :: rest)).run.run memory =
      (.error failure, after) :=
  run_bind_error h

private theorem run_cons {result : Except Failure (List (Data × Sample))} {middle : Memory}
    (h : (world.memberSample loops nested path member).run.run memory = (.ok sample, middle))
    (h' : (world.memberSamples loops nested path rest).run.run middle = (result, after)) :
    (world.memberSamples loops nested path (member :: rest)).run.run memory =
      (result.map ((member.jsonName, sample) :: ·), after) := by
  refine (run_bind h).trans ?_
  cases result with
  | error failure => exact run_bind_error h'
  | ok samples => exact run_bind h'

private theorem run_entry {shown : ClassRef ⊕ Sample} (h : world.entry member = .ok shown) :
    (world.memberSample loops nested path member).run.run memory =
      (world.sampleBy loops nested path member shown).run.run memory := by
  rw [memberSample_eq, h]
  rfl

private theorem run_failed (h : world.entry member = .error failure) :
    (world.memberSample loops nested path member).run.run memory = (.error failure, memory) := by
  rw [memberSample_eq, h]
  rfl

private theorem run_plain (h : world.entry member = .ok (.inr sample)) :
    (world.memberSample loops nested path member).run.run memory = (.ok sample, memory) :=
  run_entry h

private theorem run_again (h : world.entry member = .ok (.inl target)) (met : target ∈ path) :
    (world.memberSample .ignore nested path member).run.run memory =
      (.ok (omittedSample member), memory) := by
  rw [run_entry h, sampleBy_met met]
  rfl

private theorem run_loop (h : world.entry member = .ok (.inl target)) (met : target ∈ path) :
    (world.memberSample .error nested path member).run.run memory =
      (.error (.refusal (world.loopRefusal path target)), memory) := by
  rw [run_entry h, sampleBy_met met]
  rfl

private theorem run_fresh (h : world.entry member = .ok (.inl target)) (fresh : target ∉ path)
    (h' : (nested (path ++ [target]) target).run.run memory = (.ok sample, after)) :
    (world.memberSample loops nested path member).run.run memory =
      (.ok (shownSample member sample), after) := by
  rw [run_entry h, sampleBy_fresh fresh]
  exact run_bind h'

private theorem run_fresh_error (h : world.entry member = .ok (.inl target)) (fresh : target ∉ path)
    (h' : (nested (path ++ [target]) target).run.run memory = (.error failure, after)) :
    (world.memberSample loops nested path member).run.run memory = (.error failure, after) := by
  rw [run_entry h, sampleBy_fresh fresh]
  exact run_bind_error h'

private theorem run_nested_error {fuel : Nat} {trouble : Trouble}
    (h : world.reflection visibility target memory = (.error trouble, after)) :
    (world.nestedDocument ⟨visibility, loops, formatting⟩ fuel path target).run.run memory =
      (.error (.unreflected trouble), after) :=
  run_bind_error (run_reflection h)

private theorem run_nested {fuel : Nat} {members : List ReflectedMember}
    {result : Except Failure (List (Data × Sample))} {start : Memory}
    (h : world.reflection visibility target memory = (.ok members, start))
    (h' : (world.memberSamples loops (world.nestedDocument ⟨visibility, loops, formatting⟩ fuel) path
      members).run.run start = (result, after)) :
    (world.nestedDocument ⟨visibility, loops, formatting⟩ (fuel + 1) path target).run.run memory =
      (result.map .object, after) :=
  (run_bind (run_reflection h)).trans (run_documentFrom h')

theorem run_project_error {trouble : Trouble}
    (h : world.reflection visibility target world.memory = (.error trouble, after)) :
    world.project ⟨visibility, loops, formatting⟩ target = .error (.unreflected trouble) :=
  congrArg Prod.fst (run_bind_error (run_reflection h))

theorem run_project {members : List ReflectedMember} {result : Except Failure (List (Data × Sample))}
    {start : Memory} (h : world.reflection visibility target world.memory = (.ok members, start))
    (h' : (world.memberSamples loops
      (world.nestedDocument ⟨visibility, loops, formatting⟩ (world.classes.length + 1)) [target]
      members).run.run start = (result, after)) :
    world.project ⟨visibility, loops, formatting⟩ target =
      result.map fun samples => (members, .object samples) := by
  refine (congrArg Prod.fst (run_bind (run_reflection h))).trans ?_
  have document := @run_documentFrom _ _ _ formatting _ _ _ _ _ _ h'
  cases result with
  | error failure => exact congrArg Prod.fst (run_bind_error document)
  | ok samples => exact congrArg Prod.fst (run_bind document)

end Run

section Expands
variable {path : List ClassRef} {memory after : Memory} {members : List ReflectedMember}
  {result : Except Failure (List (Data × Sample))} {trail : Trail}

/-- Expanding members is what a projection with enough fuel does that leaves out what it meets again. -/
theorem Expands.run_ignore (formatting : Json.Formatting)
    (h : Expands world visibility path memory members result after trail) (way : world.IsWay path) :
    ∀ fuel, world.classes.length + 2 ≤ fuel + path.length →
      (world.memberSamples .ignore (world.nestedDocument ⟨visibility, .ignore, formatting⟩ fuel) path
        members).run.run memory = (result, after) := by
  induction h with
  | nil => exact fun _ _ => rfl
  | failed entry => exact fun _ _ => run_cons_error (run_failed entry)
  | plain entry _ ih => exact fun fuel bound => run_cons (run_plain entry) (ih way fuel bound)
  | again entry met _ ih => exact fun fuel bound => run_cons (run_again entry met) (ih way fuel bound)
  | unreflected entry fresh reflected =>
    exact fun _ _ => run_cons_error (run_fresh_error entry fresh (run_nested_error reflected))
  | stopped entry fresh reflected _ ih =>
    intro fuel bound
    have longer := way.extend entry fresh
    obtain ⟨less, rfl, bound'⟩ := longer.exists_fuel bound
    have inside := run_nested reflected (ih longer less bound')
    exact run_cons_error (run_fresh_error entry fresh inside)
  | nested entry fresh reflected _ _ ih ih' =>
    intro fuel bound
    have longer := way.extend entry fresh
    obtain ⟨less, rfl, bound'⟩ := longer.exists_fuel bound
    have inside := run_nested reflected (ih longer less bound')
    exact run_cons (run_fresh entry fresh inside) (ih' way _ bound)

/-- The outcome under the policy that refuses loops: the first class that is met again, if there is one. -/
def reported {α : Type} (world : World) (trail : Trail) (result : Except Failure α) : Except Failure α :=
  match trail.loops with
  | [] => result
  | (path, target) :: _ => .error (.refusal (world.loopRefusal path target))

theorem reported_map {α β : Type} (trail : Trail) (result : Except Failure α) (f : α → β) :
    world.reported trail (result.map f) = (world.reported trail result).map f := by
  rw [reported, reported]
  split <;> rfl

theorem reported_quiet {α : Type} {trail : Trail} (quiet : trail.loops = []) (result : Except Failure α) :
    world.reported trail result = result := by
  rw [reported, quiet]

/-- Inside a record, a projection that refuses loops goes on behind it or stops. -/
private theorem reported_enter {α β : Type} (world : World) (path : List ClassRef) (inside rest : Trail)
    (value : Except Failure α) (result : Except Failure β) :
    inside.loops = [] ∧ world.reported (.enter path inside rest) result = world.reported rest result ∨
      ∃ failure, world.reported inside value = .error failure ∧
        world.reported (.enter path inside rest) result = .error failure := by
  obtain ⟨opened, loops⟩ := inside
  cases loops with
  | nil => exact .inl ⟨rfl, rfl⟩
  | cons first more => exact .inr ⟨_, rfl, rfl⟩

/-- With enough fuel, a projection that refuses loops goes the same way, up to the first one. -/
theorem Expands.run_error (formatting : Json.Formatting)
    (h : Expands world visibility path memory members result after trail) (way : world.IsWay path) :
    ∀ fuel, world.classes.length + 2 ≤ fuel + path.length → ∃ last,
      (world.memberSamples .error (world.nestedDocument ⟨visibility, .error, formatting⟩ fuel) path
        members).run.run memory = (world.reported trail result, last) ∧
      (trail.loops = [] → last = after) := by
  -- what is remembered agrees only on a quiet trail: a refusal stops before the rest is reflected
  induction h with
  | nil => exact fun _ _ => ⟨_, rfl, fun _ => rfl⟩
  | failed entry => exact fun _ _ => ⟨_, run_cons_error (run_failed entry), fun _ => rfl⟩
  | plain entry _ ih =>
    intro fuel bound
    obtain ⟨last, hrun, hlast⟩ := ih way fuel bound
    rw [reported_map]
    exact ⟨last, run_cons (run_plain entry) hrun, hlast⟩
  | again entry met _ ih =>
    exact fun _ _ => ⟨_, run_cons_error (run_loop entry met), fun quiet => nomatch quiet⟩
  | unreflected entry fresh reflected =>
    exact fun _ _ => ⟨_, run_cons_error (run_fresh_error entry fresh (run_nested_error reflected)),
      fun _ => rfl⟩
  | @stopped path _ _ target _ _ _ failure _ inside entry fresh reflected _ ih =>
    intro fuel bound
    have longer := way.extend entry fresh
    obtain ⟨less, rfl, bound'⟩ := longer.exists_fuel bound
    obtain ⟨last, hrun, hlast⟩ := ih longer less bound'
    have hnested := run_nested reflected hrun
    rcases world.reported_enter (path ++ [target]) inside .empty
      (.error failure : Except Failure (List (Data × Sample)))
      (.error failure : Except Failure (List (Data × Sample)))
      with ⟨quiet, he⟩ | ⟨loop, hinside, he⟩
    -- the failure inside is reached, unless a loop is refused before it
    · rw [reported_quiet quiet] at hnested
      rw [he]
      exact ⟨last, run_cons_error (run_fresh_error entry fresh hnested), fun _ => hlast quiet⟩
    · rw [hinside] at hnested
      rw [he]
      refine ⟨last, run_cons_error (run_fresh_error entry fresh hnested), fun quiet => hlast ?_⟩
      exact (List.append_eq_nil_iff.mp quiet).1
  | @nested path _ _ target _ _ _ samples _ inside result _ trail entry fresh reflected _ _ ih ih' =>
    intro fuel bound
    have longer := way.extend entry fresh
    obtain ⟨less, rfl, bound'⟩ := longer.exists_fuel bound
    obtain ⟨last, hrun, hlast⟩ := ih longer less bound'
    have hnested := run_nested reflected hrun
    rw [reported_map]
    rcases world.reported_enter (path ++ [target]) inside trail
      (.ok samples : Except Failure (List (Data × Sample))) result with ⟨quiet, he⟩ | ⟨loop, hinside, he⟩
    -- the other members are reached with the same memory, unless a loop is refused inside
    · rw [reported_quiet quiet, hlast quiet] at hnested
      obtain ⟨last', hrun', hlast'⟩ := ih' way _ bound
      rw [he]
      refine ⟨last', run_cons (run_fresh entry fresh hnested) hrun', fun quiet => hlast' ?_⟩
      exact (List.append_eq_nil_iff.mp quiet).2
    · rw [hinside] at hnested
      rw [he]
      refine ⟨last, run_cons_error (run_fresh_error entry fresh hnested), fun quiet' => ?_⟩
      rw [reported_quiet (List.append_eq_nil_iff.mp quiet').1] at hinside
      cases hinside

end Expands

end World

end Specimen
