import Specimen.Proofs.Projection.Loops

/-! The classes that a projection revisits. It comes along members from record to record, and where one of
them shows a class of the way to it, the class is met again; nothing else is. -/
namespace Specimen.World
variable {world : World} {visibility : Visibility}

/-- What a projection of a class comes to that leaves out what it meets again: a way from the class on which
each class has a member that shows the next one, the members left of the last one, and what is remembered. -/
inductive Comes (world : World) (visibility : Visibility) (root : ClassRef) :
    List ClassRef → List ReflectedMember → Memory → Prop
  | root {members start}
    (reflected : world.reflection visibility root world.memory = (.ok members, start)) :
    Comes world visibility root [root] members start
  | behind {path member rest memory samples middle inside}
    (comes : Comes world visibility root path (member :: rest) memory)
    (shown : Expands world visibility path memory [member] (.ok samples) middle inside) :
    Comes world visibility root path rest middle
  | inside {path member rest memory target members start}
    (comes : Comes world visibility root path (member :: rest) memory)
    (entry : world.entry member = .ok (.inl target)) (fresh : target ∉ path)
    (reflected : world.reflection visibility target memory = (.ok members, start)) :
    Comes world visibility root (path ++ [target]) members start

/-- Whether a projection of a class comes along a way to a member that shows a class of the way. -/
def Revisits (world : World) (visibility : Visibility) (root : ClassRef)
    (loop : List ClassRef × ClassRef) : Prop :=
  ∃ member rest memory, Comes world visibility root loop.1 (member :: rest) memory ∧
    world.entry member = .ok (.inl loop.2) ∧ loop.2 ∈ loop.1

variable {root : ClassRef} {path : List ClassRef} {memory after after' : Memory}
  {member : ReflectedMember} {members rest : List ReflectedMember}
  {result result' : Except Failure (List (Data × Sample))} {trail trail' : Trail}

private theorem Comes.isWay (h : Comes world visibility root path members memory) : world.IsWay path := by
  induction h with
  | root => exact isWay_root root
  | behind _ _ ih => exact ih
  | inside _ entry fresh _ ih => exact ih.extend entry fresh

/-- What is remembered after members depends on nothing but what is remembered before them. -/
private theorem Expands.after_eq (h : Expands world visibility path memory members result after trail)
    (h' : Expands world visibility path memory members result' after' trail')
    (way : world.IsWay path) : after = after' := by
  have bound : world.classes.length + 2 ≤ world.classes.length + 2 + path.length := Nat.le_add_right _ _
  exact congrArg Prod.snd
    ((h.run_ignore .compact way _ bound).symm.trans (h'.run_ignore .compact way _ bound))

/-- Members that are shown to the end are a first one that is shown and the others behind it. -/
private theorem Expands.uncons (h : Expands world visibility path memory (member :: rest) result after trail)
    (hok : result.isOk = true) :
    ∃ samples middle inside result' trail',
      Expands world visibility path memory [member] (.ok samples) middle inside ∧
      Expands world visibility path middle rest result' after trail' ∧ result'.isOk = true ∧
      ∀ loop, loop ∈ trail.loops ↔ loop ∈ inside.loops ∨ loop ∈ trail'.loops := by
  cases h with
  | failed | unreflected | stopped => cases hok
  | plain entry others =>
    refine ⟨_, _, _, _, _, .plain entry .nil, others, isOk_map _ _ ▸ hok, fun loop => ?_⟩
    simp
  | again entry met others =>
    refine ⟨_, _, _, _, _, .again entry met .nil, others, isOk_map _ _ ▸ hok, fun loop => ?_⟩
    simp [Trail.meet]
  | nested entry fresh reflected nested others =>
    refine ⟨_, _, _, _, _, .nested entry fresh reflected nested .nil, others,
      isOk_map _ _ ▸ hok, fun loop => ?_⟩
    simp [Trail.mem_loops_enter]

/-- A class that expanding members meets again is one that the projection revisits. -/
theorem Expands.revisits (h : Expands world visibility path memory members result after trail)
    (comes : Comes world visibility root path members memory) :
    ∀ loop ∈ trail.loops, world.Revisits visibility root loop := by
  induction h with
  | nil | failed | unreflected => simp
  | plain entry _ ih => exact ih (comes.behind (.plain entry .nil))
  | again entry met _ ih =>
    intro loop hl
    rcases List.mem_cons.mp hl with rfl | hl
    · exact ⟨_, _, _, comes, entry, met⟩
    · exact ih (comes.behind (.again entry met .nil)) loop hl
  | stopped entry fresh reflected _ ih =>
    intro loop hl
    have hin := (Trail.mem_loops_enter.mp hl).resolve_right (Trail.not_mem_loops_empty loop)
    exact ih (comes.inside entry fresh reflected) loop hin
  | nested entry fresh reflected nested _ ih ih' =>
    intro loop hl
    rcases Trail.mem_loops_enter.mp hl with hl | hl
    · exact ih (comes.inside entry fresh reflected) loop hl
    · exact ih' (comes.behind (.nested entry fresh reflected nested .nil)) loop hl

/-- Wherever a projection comes that ends well, it expands the members there to the end, and what they
meet again is part of what the whole projection meets again. -/
theorem Comes.expands (h : Comes world visibility root path members memory)
    (whole : ∀ members start, world.reflection visibility root world.memory = (.ok members, start) →
      ∃ result after, Expands world visibility [root] start members result after trail ∧
        result.isOk = true) :
    ∃ result after inside, Expands world visibility path memory members result after inside ∧
      result.isOk = true ∧ ∀ loop ∈ inside.loops, loop ∈ trail.loops := by
  induction h with
  | root reflected =>
    obtain ⟨result, after, expands, hok⟩ := whole _ _ reflected
    exact ⟨result, after, trail, expands, hok, fun _ hl => hl⟩
  | behind comes shown ih =>
    obtain ⟨result, after, inside, expands, hok, hloops⟩ := ih
    obtain ⟨samples, middle, first, result', others, hfirst, hothers, hok', hmem⟩ := expands.uncons hok
    -- the member was passed with the same memory that the whole projection has behind it
    obtain rfl := hfirst.after_eq shown comes.isWay
    exact ⟨result', after, others, hothers, hok', fun loop hl => hloops loop ((hmem loop).mpr (.inr hl))⟩
  | inside comes entry fresh reflected ih =>
    obtain ⟨result, after, inside, expands, hok, hloops⟩ := ih
    cases expands with
    | failed entry' => cases entry.symm.trans entry'
    | plain entry' => cases entry.symm.trans entry'
    | again entry' met =>
      cases entry.symm.trans entry'
      exact absurd met fresh
    | unreflected | stopped => cases hok
    | nested entry' _ reflected' nested =>
      cases entry.symm.trans entry'
      cases reflected.symm.trans reflected'
      exact ⟨_, _, _, nested, rfl, fun loop hl => hloops loop (Trail.mem_loops_enter.mpr (.inl hl))⟩

/-- Where a member shows a class of the way to it, expanding the members there meets the class again. -/
theorem Expands.mem_loops (h : Expands world visibility path memory (member :: rest) result after trail)
    {target : ClassRef} (entry : world.entry member = .ok (.inl target)) (met : target ∈ path) :
    (path, target) ∈ trail.loops := by
  cases h with
  | failed entry' => cases entry.symm.trans entry'
  | plain entry' => cases entry.symm.trans entry'
  | again entry' =>
    cases entry.symm.trans entry'
    exact List.mem_cons_self
  | unreflected entry' fresh | stopped entry' fresh | nested entry' fresh =>
    cases entry.symm.trans entry'
    exact absurd met fresh

section Answers
variable {classes : Set ClassRef} {holds : Memory → Prop} {membersOf : ClassRef → List ReflectedMember}
  (answers : Answers world visibility classes holds) (hroot : root ∈ classes) (start : holds world.memory)
include answers hroot start

/-- Where classes answer, what is remembered stays usable wherever a projection comes, and the members left
there can be shown. -/
theorem Comes.presents (h : Comes world visibility root path members memory) :
    holds memory ∧ ∀ member ∈ members, world.Presents classes member := by
  induction h with
  | root reflected =>
    obtain ⟨_, ⟨⟩, hstart, presents⟩ := answers.given hroot start reflected
    exact ⟨hstart, presents⟩
  | behind _ shown ih =>
    obtain ⟨hmemory, presents⟩ := ih
    obtain ⟨first, others⟩ := List.forall_mem_cons.mp presents
    exact ⟨(shown.completes answers hmemory (List.forall_mem_singleton.mpr first)).2, others⟩
  | inside _ entry _ reflected ih =>
    obtain ⟨hmemory, presents⟩ := ih
    obtain ⟨_, ⟨⟩, hstart, inner⟩ :=
      answers.given ((presents _ List.mem_cons_self).mem entry) hmemory reflected
    exact ⟨hstart, inner⟩

/-- Where classes answer, a projection comes to every member of a class that it comes to. -/
private theorem Comes.exists_rest (h : Comes world visibility root path members memory) (hm : member ∈ members) :
    ∃ rest memory, Comes world visibility root path (member :: rest) memory := by
  induction members generalizing memory with
  | nil => cases hm
  | cons first others ih =>
    rcases List.mem_cons.mp hm with rfl | hm
    · exact ⟨others, memory, h⟩
    · obtain ⟨hmemory, presents⟩ := h.presents answers hroot start
      obtain ⟨result, after, trail, shown⟩ :
          ∃ result after trail, Expands world visibility path memory [first] result after trail :=
        exists_expands (world.classes.length + 1) h.isWay (Nat.le_add_right _ _) [first] memory
      obtain ⟨hok, -⟩ := shown.completes answers hmemory
        (List.forall_mem_singleton.mpr (presents first List.mem_cons_self))
      cases result with
      | error failure => cases hok
      | ok samples => exact ih (h.behind shown) hm

/-- Where members lead on along classes that repeat, the projection revisits a class. -/
theorem Comes.exists_revisits (steady : IsSteady world visibility classes holds membersOf)
    (steps : List ClassRef) :
    ∀ {path : List ClassRef} {c : ClassRef} {memory : Memory},
      Comes world visibility root path (membersOf c) memory →
      (c :: steps).IsChain (world.Leads membersOf) → ¬ (path ++ steps).Nodup →
      ∃ loop, world.Revisits visibility root loop := by
  -- the projection comes along the chain, and revisits its first repetition at the latest
  induction steps with
  | nil =>
    intro path c memory comes _ repeats
    exact absurd comes.isWay.nodup (List.append_nil path ▸ repeats)
  | cons target rest ih =>
    intro path c memory comes chain repeats
    obtain ⟨⟨member, hm, entry⟩, further⟩ := List.isChain_cons_cons.mp chain
    obtain ⟨others, before, there⟩ := comes.exists_rest answers hroot start hm
    by_cases met : target ∈ path
    · exact ⟨(path, target), member, others, before, there, entry, met⟩
    · obtain ⟨hbefore, presents⟩ := there.presents answers hroot start
      have among : target ∈ classes := (presents member List.mem_cons_self).mem entry
      obtain ⟨members, after, reflected, -, -⟩ := answers.reflects target among before hbefore
      obtain rfl := steady target among _ _ _ hbefore reflected
      exact ih (there.inside entry met reflected) further (by rwa [List.append_assoc])

end Answers

end Specimen.World
