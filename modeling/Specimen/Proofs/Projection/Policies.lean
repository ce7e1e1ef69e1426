import Specimen.Proofs.Projection.Revisits

/-! Loops of classes under the two policies. A projection meets a class again exactly if members lead from
the root along classes that repeat; the policy that refuses loops reports the first such way, and differs
in nothing else from the policy that leaves them out. -/
namespace Specimen.World
variable {world : World} {visibility : Visibility}

/-- Projecting a class: its members and their document, or the first failure, and the trail. -/
inductive Projects (world : World) (visibility : Visibility) (root : ClassRef) :
    Except Failure (List ReflectedMember × Sample) → Trail → Prop
  | unreflected {trouble start}
    (reflected : world.reflection visibility root world.memory = (.error trouble, start)) :
    Projects world visibility root (.error (.unreflected trouble)) .empty
  | expanded {members start result after trail}
    (reflected : world.reflection visibility root world.memory = (.ok members, start))
    (expands : Expands world visibility [root] start members result after trail) :
    Projects world visibility root (result.map fun samples => (members, .object samples)) trail

section Project
variable {root : ClassRef} {outcome : Except Failure (List ReflectedMember × Sample)} {trail : Trail}

theorem exists_projects (world : World) (visibility : Visibility) (root : ClassRef) :
    ∃ outcome trail, Projects world visibility root outcome trail := by
  cases h : world.reflection visibility root world.memory with
  | mk reflected start =>
    cases reflected with
    | error trouble => exact ⟨_, _, .unreflected h⟩
    | ok members =>
      obtain ⟨result, after, trail, expands⟩ := exists_expands world.classes.length
        (isWay_root root) (Nat.le_refl _) members start
      exact ⟨_, _, .expanded h expands⟩

theorem Projects.project_ignore (h : Projects world visibility root outcome trail)
    (formatting : Json.Formatting) :
    world.project ⟨visibility, .ignore, formatting⟩ root = outcome := by
  cases h with
  | unreflected reflected => exact run_project_error reflected
  | expanded reflected expands =>
    exact run_project reflected (expands.run_ignore formatting (isWay_root root) _ (Nat.le_refl _))

theorem Projects.project_error (h : Projects world visibility root outcome trail)
    (formatting : Json.Formatting) :
    world.project ⟨visibility, .error, formatting⟩ root = world.reported trail outcome := by
  cases h with
  | unreflected reflected => exact run_project_error reflected
  | expanded reflected expands =>
    obtain ⟨last, hrun, -⟩ := expands.run_error formatting (isWay_root root) _ (Nat.le_refl _)
    rw [reported_map]
    exact run_project reflected hrun

/-- The trail of a projection follows links that reflection carries along. -/
theorem Projects.tracks {classes : Set ClassRef} {holds : Memory → Prop}
    {link : ClassRef → ClassRef → Prop} (carries : Carries world visibility classes holds link)
    (h : Projects world visibility root outcome trail) (hroot : root ∈ classes)
    (start : holds world.memory) :
    (∀ way ∈ trail.opened, IsTrack link root way) ∧ ∀ loop ∈ trail.loops, IsLoop link root loop := by
  cases h with
  | unreflected => exact ⟨by simp, by simp⟩
  | expanded reflected expands =>
    obtain ⟨hstart, leads⟩ := carries.step root hroot _ _ _ start reflected
    exact (expands.tracks carries hstart (List.nil_append [root]).symm (isTrack_root root) leads).2

theorem Projects.completes {classes : Set ClassRef} {holds : Memory → Prop}
    (answers : Answers world visibility classes holds)
    (h : Projects world visibility root outcome trail) (hroot : root ∈ classes)
    (start : holds world.memory) : outcome.isOk = true := by
  cases h with
  | unreflected reflected => obtain ⟨_, ⟨⟩, -⟩ := answers.given hroot start reflected
  | expanded reflected expands =>
    obtain ⟨_, ⟨⟩, hstart, presents⟩ := answers.given hroot start reflected
    exact (isOk_map _ _).trans (expands.completes answers hstart presents).1

/-- A projection that ends well meets again exactly what it revisits. -/
private theorem Projects.mem_loops_iff (h : Projects world visibility root outcome trail)
    (hok : outcome.isOk = true) (loop : List ClassRef × ClassRef) :
    loop ∈ trail.loops ↔ world.Revisits visibility root loop := by
  cases h with
  | unreflected => cases hok
  | expanded reflected expands =>
    refine ⟨expands.revisits (.root reflected) loop, fun ⟨member, rest, memory, comes, entry, met⟩ => ?_⟩
    obtain ⟨_, _, inside, hexpands, -, hloops⟩ := comes.expands fun members start reflected' => by
      cases reflected.symm.trans reflected'
      exact ⟨_, _, expands, isOk_map _ _ ▸ hok⟩
    exact hloops loop (hexpands.mem_loops entry met)

/-- A class is met again exactly if members lead from the root along a class twice. -/
private theorem Projects.loops_iff {classes : Set ClassRef} {holds : Memory → Prop}
    {membersOf : ClassRef → List ReflectedMember} (answers : Answers world visibility classes holds)
    (steady : IsSteady world visibility classes holds membersOf)
    (h : Projects world visibility root outcome trail) (hroot : root ∈ classes)
    (start : holds world.memory) :
    trail.loops ≠ [] ↔ ∃ steps, (root :: steps).IsChain (world.Leads membersOf) ∧
      ¬ (root :: steps).Nodup := by
  constructor
  · intro hne
    obtain ⟨loop, hl⟩ := List.exists_mem_of_ne_nil _ hne
    exact ((h.tracks (answers.carries steady) hroot start).2 loop hl).exists_steps
  · rintro ⟨steps, chain, repeats⟩
    obtain ⟨members, after, reflected, -, -⟩ := answers.reflects root hroot _ start
    have comes := Comes.root reflected
    rw [steady root hroot _ _ _ start reflected] at comes
    obtain ⟨loop, revisits⟩ := Comes.exists_revisits answers hroot start steady steps comes chain repeats
    exact List.ne_nil_of_mem ((h.mem_loops_iff (h.completes answers hroot start) loop).mpr revisits)

/-- What the two policies do with a class: `outcome` is what leaving out gives, and `trail` what it opens
and meets again. Refusing gives the same unless a class is met again. -/
structure PolicyOutcome (world : World) (visibility : Visibility) (formatting : Json.Formatting)
    (root : ClassRef) (outcome : Except Failure (List ReflectedMember × Sample)) (trail : Trail) : Prop where
  projects : Projects world visibility root outcome trail
  ignored : world.project ⟨visibility, .ignore, formatting⟩ root = outcome
  isQuiet : IsQuiet outcome
  agrees : trail.loops = [] → world.project ⟨visibility, .error, formatting⟩ root = outcome
  refuses : ∀ path target more, trail.loops = (path, target) :: more → ∃ message,
    world.project ⟨visibility, .error, formatting⟩ root =
      .error (.refusal (.loop message ((path ++ [target]).map world.qualname)))
  opened : ∀ path ∈ trail.opened, IsTrack (world.Follows visibility) root path
  loops : ∀ loop ∈ trail.loops, IsLoop (world.Follows visibility) root loop

theorem Projects.policyOutcome (h : Projects world visibility root outcome trail)
    (formatting : Json.Formatting) : PolicyOutcome world visibility formatting root outcome trail where
  projects := h
  ignored := h.project_ignore formatting
  isQuiet := by
    cases h with
    | unreflected => exact isQuiet_unreflected (.error _)
    | expanded _ expands => exact expands.isQuiet.map _
  agrees quiet := (h.project_error formatting).trans (reported_quiet quiet outcome)
  refuses path target more he := by
    rw [h.project_error, reported, he]
    exact ⟨_, rfl⟩
  opened := (h.tracks carries_follows (Set.mem_univ root) trivial).1
  loops := (h.tracks carries_follows (Set.mem_univ root) trivial).2

/-- A projection that refuses loops reports one exactly if one is revisited, where leaving it out ends well. -/
private theorem PolicyOutcome.refused_iff {formatting : Json.Formatting}
    (h : PolicyOutcome world visibility formatting root outcome trail) (hok : outcome.isOk = true) :
    (∃ message names, world.project ⟨visibility, .error, formatting⟩ root =
      .error (.refusal (.loop message names))) ↔ ∃ loop, world.Revisits visibility root loop := by
  constructor
  · rintro ⟨message, names, refused⟩
    obtain ⟨loop, hl⟩ := List.exists_mem_of_ne_nil trail.loops fun quiet => by
      rw [h.agrees quiet] at refused
      rw [refused] at hok
      cases hok
    exact ⟨loop, (h.projects.mem_loops_iff hok loop).mp hl⟩
  · rintro ⟨loop, revisits⟩
    obtain ⟨⟨path, target⟩, more, he⟩ := List.exists_cons_of_ne_nil
      (List.ne_nil_of_mem ((h.projects.mem_loops_iff hok loop).mpr revisits))
    obtain ⟨message, refused⟩ := h.refuses path target more he
    exact ⟨message, _, refused⟩

/-- Every class has a finite projection. Leaving out what is met again, it reports no loop, and on the way
to a record that it opens no class is repeated. Refusing loops, it reports the first class that is met
again, by the names on a way from the root along members, and gives the same where there is none. Where
no lookup fails, what is met again is exactly what the projection revisits, and a loop is reported exactly
if it revisits a class. Where the classes that members lead to answer, the projection succeeds; and where
reflection gives them the same members every time, a class is met again exactly if members lead from the
root along a class twice. -/
theorem project_policies (world : World) (visibility : Visibility) (formatting : Json.Formatting)
    (root : ClassRef) :
    ∃ outcome trail, PolicyOutcome world visibility formatting root outcome trail ∧
      (outcome.isOk = true →
        (∀ loop, loop ∈ trail.loops ↔ world.Revisits visibility root loop) ∧
        ((∃ message names, world.project ⟨visibility, .error, formatting⟩ root =
          .error (.refusal (.loop message names))) ↔ ∃ loop, world.Revisits visibility root loop)) ∧
      ∀ classes holds, Answers world visibility classes holds → root ∈ classes → holds world.memory →
        outcome.isOk = true ∧ ∀ membersOf, IsSteady world visibility classes holds membersOf →
          (∀ loop ∈ trail.loops, IsLoop (world.Leads membersOf) root loop) ∧
          (trail.loops ≠ [] ↔ ∃ steps, (root :: steps).IsChain (world.Leads membersOf) ∧
            ¬ (root :: steps).Nodup) := by
  obtain ⟨outcome, trail, h⟩ := exists_projects world visibility root
  have policies := h.policyOutcome formatting
  refine ⟨outcome, trail, policies, fun hok => ⟨h.mem_loops_iff hok, policies.refused_iff hok⟩,
    fun classes holds answers hroot start =>
      ⟨h.completes answers hroot start, fun membersOf steady => ⟨?_, ?_⟩⟩⟩
  · exact (h.tracks (answers.carries steady) hroot start).2
  · exact h.loops_iff answers steady hroot start

end Project

section Unremembered

/-- What reflection gives of a class before anything is remembered. -/
def membersAtFirst (world : World) (visibility : Visibility) (c : ClassRef) : List ReflectedMember :=
  (world.reflection visibility c .empty).1.toOption.getD []

/-- Whether some classes answer, and nothing is remembered of any of them. -/
def answersAtFirst (world : World) (visibility : Visibility) (classes : List ClassRef) : Bool :=
  classes.all fun c => match world.reflection visibility c .empty with
    | (.ok members, ⟨[], []⟩) => members.all fun member => match world.entry member with
      | .ok (.inr _) => true
      | .ok (.inl target) => classes.contains target
      | .error _ => false
    | _ => false

theorem isSteady_atFirst (classes : Set ClassRef) :
    IsSteady world visibility classes (· = .empty) (world.membersAtFirst visibility) := by
  rintro c _ memory members after rfl reflected
  rw [membersAtFirst, reflected]
  rfl

theorem answers_atFirst {classes : List ClassRef}
    (h : world.answersAtFirst visibility classes = true) :
    Answers world visibility {c | c ∈ classes} (· = .empty) where
  reflects := by
    rintro c hc memory rfl
    have hclass := List.all_eq_true.mp h c hc
    split at hclass
    · rename_i members reflected
      refine ⟨members, _, reflected, rfl, fun member hm => ?_⟩
      have hentry := List.all_eq_true.mp hclass member hm
      split at hentry
      · rename_i sample he
        exact .inl ⟨sample, he⟩
      · rename_i target he
        exact .inr ⟨target, List.contains_iff_mem.mp hentry, he⟩
      · cases hentry
    · cases hclass

private theorem leads_atFirst {c target : ClassRef}
    (h : ((world.membersAtFirst visibility c).any fun member => match world.entry member with
      | .ok (.inl other) => other == target
      | _ => false) = true) :
    world.Leads (world.membersAtFirst visibility) c target := by
  obtain ⟨member, hm, he⟩ := List.any_eq_true.mp h
  split at he
  · rename_i other hentry
    exact ⟨member, hm, eq_of_beq he ▸ hentry⟩
  · cases he

/-- Two classes that lead to each other, through one object and through a list. -/
def kin : World where
  classes :=
    [⟨"Parent", "Parent", .text "kin", "kin", [.standard .object], ⟨.standard .object, true, true⟩,
        .table [("child", .cls (.declared 1))], [], none, none⟩,
      ⟨"Child", "Child", .text "kin", "kin", [.standard .object], ⟨.standard .object, true, true⟩,
        .table [("parents", .generic false (.standard .list) [.cls (.declared 0)]),
          ("label", .cls (.standard .str))], [], none, none⟩]
  modules := []
  memory := .empty

/-- The names of the classes around a loop, where one is refused. -/
def loopNames? {α : Type} : Except Failure α → Option (List Text)
  | .error (.refusal (.loop _ names)) => some names
  | _ => none

/-- The two classes answer; refusing loops, their projection reports the way around. -/
theorem project_policies_kin :
    Answers kin .declaredOnly {c | c ∈ [.declared 0, .declared 1]} (· = .empty) ∧
      (kin.project ⟨.declaredOnly, .ignore, .compact⟩ (.declared 0)).isOk = true ∧
      ∃ message, kin.project ⟨.declaredOnly, .error, .compact⟩ (.declared 0) =
        .error (.refusal (.loop message ["Parent", "Child", "Parent"])) := by
  have answers := answers_atFirst
    (show kin.answersAtFirst .declaredOnly [.declared 0, .declared 1] = true by decide +kernel)
  obtain ⟨outcome, trail, policies, -, rest⟩ :=
    project_policies kin .declaredOnly .compact (.declared 0)
  obtain ⟨hok, hloops⟩ := rest _ _ answers (by simp) rfl
  obtain ⟨-, meets⟩ := hloops _ (isSteady_atFirst _)
  have around : trail.loops ≠ [] := meets.mpr ⟨[.declared 1, .declared 0],
    List.isChain_cons_cons.mpr ⟨leads_atFirst (by decide +kernel),
      List.isChain_cons_cons.mpr ⟨leads_atFirst (by decide +kernel), .singleton _⟩⟩, by decide⟩
  obtain ⟨⟨path, target⟩, more, he⟩ := List.exists_cons_of_ne_nil around
  obtain ⟨message, refused⟩ := policies.refuses path target more he
  have names : loopNames? (kin.project ⟨.declaredOnly, .error, .compact⟩ (.declared 0)) =
      some [("Parent" : Text), "Child", "Parent"] := by decide +kernel
  rw [refused] at names ⊢
  rw [Option.some.inj names]
  exact ⟨answers, policies.ignored ▸ hok, message, rfl⟩

end Unremembered

end Specimen.World
