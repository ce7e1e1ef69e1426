import Specimen.Proofs.Projection.Expansion
import Mathlib.Data.List.Chain
import Mathlib.Data.Set.Basic

/-! Loops of the classes that members lead to. Expanding members reports no loop itself; it opens records
along classes without a repetition, and what it meets again closes a loop. Where the classes answer, it does
not fail. -/
namespace Specimen

section Failures

/-- An outcome other than a report of a loop. -/
def IsQuiet {α : Type} (result : Except Failure α) : Prop :=
  ∀ failure, result = .error failure → failure.isLoop = false

variable {α β : Type} {result : Except Failure α}

theorem isQuiet_ok (value : α) : IsQuiet (.ok value) := fun _ h => nomatch h

private theorem isQuiet_error {failure : Failure} (h : failure.isLoop = false) :
    IsQuiet (.error failure : Except Failure α) :=
  fun _ he => Except.error.inj he ▸ h

theorem isQuiet_unreflected (result : Except Trouble α) : IsQuiet (result.mapError .unreflected) := by
  intro failure h
  cases result with
  | error trouble =>
    cases h
    rfl
  | ok value => cases h

theorem IsQuiet.map (h : IsQuiet result) (f : α → β) : IsQuiet (result.map f) := by
  intro failure hf
  cases result with
  | error other =>
    cases hf
    exact h _ rfl
  | ok value => cases hf

theorem IsQuiet.bind (h : IsQuiet result) {f : α → Except Failure β} (hf : ∀ value, IsQuiet (f value)) :
    IsQuiet (result >>= f) := by
  intro failure he
  cases result with
  | error other =>
    cases he
    exact h _ rfl
  | ok value => exact hf value failure he

end Failures

namespace Data

private theorem isQuiet_integerText (value : Int) : IsQuiet (integerText value) := by
  rw [integerText]
  split
  · exact isQuiet_ok _
  · exact isQuiet_error rfl

private theorem isQuiet_keyText (key : Data) : IsQuiet key.keyText := by
  rw [keyText]
  split
  · exact isQuiet_ok _
  · exact isQuiet_error rfl

mutual

private theorem isQuiet_toDocument : ∀ value : Data, IsQuiet value.toDocument
  | .none | .bool _ | .float _ | .str _ | .document _ => isQuiet_ok _
  | .int value => (isQuiet_integerText value).map _
  | .list items | .tuple items => (isQuiet_toDocuments items).map _
  | .dict entries => (isQuiet_toMembers entries).map _
  | .set _ | .bytes => isQuiet_error rfl

private theorem isQuiet_toDocuments : ∀ items : List Data, IsQuiet (toDocuments items)
  | [] => isQuiet_ok _
  | item :: rest => (isQuiet_toDocument item).bind fun _ =>
    (isQuiet_toDocuments rest).bind fun _ => isQuiet_ok _

private theorem isQuiet_toMembers : ∀ entries : List (Data × Data), IsQuiet (toMembers entries)
  | [] => isQuiet_ok _
  | (key, value) :: rest => (isQuiet_keyText key).bind fun _ => (isQuiet_toDocument value).bind fun _ =>
    (isQuiet_toMembers rest).bind fun _ => isQuiet_ok _

end

end Data

namespace World
variable {world : World} {visibility : Visibility}

section Quiet

private theorem isQuiet_dataSample (value : Data) : IsQuiet (dataSample value) :=
  (Data.isQuiet_toDocument value).bind fun _ => isQuiet_ok _

private theorem isQuiet_labelSample (c : ClassRef) (name : Text) : IsQuiet (world.labelSample c name) := by
  refine (isQuiet_unreflected _).bind fun label => ?_
  split
  · exact isQuiet_dataSample _
  · exact isQuiet_ok _

private theorem isQuiet_choiceSample (c : ClassRef) (name : Text) (value : Referent) :
    IsQuiet (world.choiceSample c name value) := by
  refine (isQuiet_unreflected _).bind fun own => ?_
  split
  · split
    · exact isQuiet_dataSample _
    · exact isQuiet_labelSample c name
  · exact isQuiet_labelSample c name

private theorem isQuiet_placeholder (d : Referent) : IsQuiet (world.placeholder d) := by
  rw [placeholder.eq_def]
  split
  · exact isQuiet_error rfl
  · exact isQuiet_dataSample _
  · split
    · exact isQuiet_ok _
    · split
      · rw [enumerationSample]
        split
        · exact isQuiet_ok _
        · exact isQuiet_choiceSample _ _ _
      · exact isQuiet_ok _
  · split <;> exact isQuiet_ok _

private theorem isQuiet_entry (member : ReflectedMember) : IsQuiet (world.entry member) := by
  rw [entry.eq_def]
  split
  · exact isQuiet_unreflected (.error _)
  · exact isQuiet_ok _
  · refine IsQuiet.map ?_ _
    rw [plainSample]
    split
    · exact isQuiet_ok _
    · exact isQuiet_placeholder _

end Quiet

@[simp] theorem isOk_map {α β : Type} (result : Except Failure α) (f : α → β) :
    (result.map f).isOk = result.isOk := by
  cases result <;> rfl

section Expands
variable {path : List ClassRef} {memory after : Memory} {members : List ReflectedMember}
  {result : Except Failure (List (Data × Sample))} {trail : Trail}

/-- Expanding members reports no loop. -/
theorem Expands.isQuiet (h : Expands world visibility path memory members result after trail) :
    IsQuiet result := by
  induction h with
  | nil => exact isQuiet_ok _
  | @failed _ _ member _ failure entry =>
    rintro _ ⟨⟩
    exact isQuiet_entry member failure entry
  | plain _ _ ih => exact ih.map _
  | again _ _ _ ih => exact ih.map _
  | unreflected => exact isQuiet_unreflected (.error _)
  | stopped _ _ _ _ ih =>
    rintro _ ⟨⟩
    exact ih _ rfl
  | nested _ _ _ _ _ _ ih => exact ih.map _

end Expands

/-- Classes from a root on, each linked to the next one, without a repetition. -/
structure IsTrack (link : ClassRef → ClassRef → Prop) (root : ClassRef) (path : List ClassRef) : Prop where
  head : path.head? = some root
  nodup : path.Nodup
  chain : path.IsChain link

/-- A track and a class of it that its last class is linked to. -/
structure IsLoop (link : ClassRef → ClassRef → Prop) (root : ClassRef)
    (loop : List ClassRef × ClassRef) : Prop where
  track : IsTrack link root loop.1
  met : loop.2 ∈ loop.1
  chain : (loop.1 ++ [loop.2]).IsChain link

/-- A set of classes and what may be remembered while they are reflected, with links from each class to
the records that its members show. -/
structure Carries (world : World) (visibility : Visibility) (classes : Set ClassRef)
    (holds : Memory → Prop) (link : ClassRef → ClassRef → Prop) : Prop where
  step : ∀ c ∈ classes, ∀ memory members after, holds memory →
    world.reflection visibility c memory = (.ok members, after) → holds after ∧
      ∀ member ∈ members, ∀ target, world.entry member = .ok (.inl target) →
        target ∈ classes ∧ link c target

theorem carries_follows :
    Carries world visibility Set.univ (fun _ => True) (world.Follows visibility) where
  step _ _ memory members after _ reflected :=
    ⟨trivial, fun member hm _ he =>
      ⟨Set.mem_univ _, memory, members, after, reflected, member, hm, he⟩⟩

section Tracks
variable {link : ClassRef → ClassRef → Prop} {root : ClassRef}

theorem isTrack_root (root : ClassRef) : IsTrack link root [root] :=
  ⟨rfl, List.nodup_singleton _, .singleton _⟩

private theorem isChain_extend {front : List ClassRef} {c target : ClassRef}
    (chain : (front ++ [c]).IsChain link) (h : link c target) :
    (front ++ [c] ++ [target]).IsChain link := by
  refine chain.append (.singleton _) fun x hx y hy => ?_
  rw [List.getLast?_concat] at hx
  cases hx
  cases hy
  exact h

theorem IsTrack.extend {front : List ClassRef} {c target : ClassRef}
    (track : IsTrack link root (front ++ [c])) (h : link c target) (fresh : target ∉ front ++ [c]) :
    IsTrack link root (front ++ [c] ++ [target]) where
  head := by
    rw [List.head?_append_of_ne_nil _ (by simp)]
    exact track.head
  nodup := List.nodup_append.mpr ⟨track.nodup, List.nodup_singleton _,
    fun x hx y hy he => fresh (List.mem_singleton.mp hy ▸ he ▸ hx)⟩
  chain := isChain_extend track.chain h

/-- From the root, links go along a class of a loop twice. -/
theorem IsLoop.exists_steps {loop : List ClassRef × ClassRef} (h : IsLoop link root loop) :
    ∃ steps, (root :: steps).IsChain link ∧ ¬ (root :: steps).Nodup := by
  obtain ⟨path, target⟩ := loop
  obtain ⟨rest, rfl⟩ := List.head?_eq_some_iff.mp h.track.head
  refine ⟨rest ++ [target], h.chain, fun nodup => ?_⟩
  exact (List.nodup_append.mp (List.cons_append ▸ nodup)).2.2 target h.met target
    (List.mem_singleton_self target) rfl

/-- Records are opened along tracks, and classes are met again at the end of tracks. -/
theorem Expands.tracks {classes : Set ClassRef} {holds : Memory → Prop}
    (carries : Carries world visibility classes holds link) {path : List ClassRef}
    {memory after : Memory} {members : List ReflectedMember}
    {result : Except Failure (List (Data × Sample))} {trail : Trail}
    (h : Expands world visibility path memory members result after trail) (start : holds memory)
    {front : List ClassRef} {c : ClassRef} (hpath : path = front ++ [c]) (track : IsTrack link root path)
    (leads : ∀ member ∈ members, ∀ target, world.entry member = .ok (.inl target) →
      target ∈ classes ∧ link c target) :
    (result.isOk = true → holds after) ∧ (∀ way ∈ trail.opened, IsTrack link root way) ∧
      ∀ loop ∈ trail.loops, IsLoop link root loop := by
  -- the last class of the path owns the members, and each step of the track is a link from it
  induction h generalizing front c with
  | nil => exact ⟨fun _ => start, by simp, by simp⟩
  | failed | unreflected => exact ⟨nofun, by simp, by simp⟩
  | @plain _ _ _ _ _ result _ _ _ _ ih =>
    obtain ⟨hholds, hopened, hloops⟩ := ih start hpath track fun member hm =>
      leads member (List.mem_cons_of_mem _ hm)
    exact ⟨fun hok => hholds (isOk_map result _ ▸ hok), hopened, hloops⟩
  | @again path _ member target _ result _ trail entry met _ ih =>
    obtain ⟨hholds, hopened, hloops⟩ := ih start hpath track fun member hm =>
      leads member (List.mem_cons_of_mem _ hm)
    refine ⟨fun hok => hholds (isOk_map result _ ▸ hok), hopened, fun loop hl => ?_⟩
    rcases List.mem_cons.mp hl with rfl | hl
    · refine ⟨track, met, ?_⟩
      subst hpath
      exact isChain_extend track.chain (leads member List.mem_cons_self target entry).2
    · exact hloops loop hl
  | @stopped path _ member target _ _ _ _ _ inside entry fresh reflected _ ih =>
    subst hpath
    obtain ⟨hin, hlink⟩ := leads member List.mem_cons_self target entry
    obtain ⟨hstart, hleads⟩ := carries.step target hin _ _ _ start reflected
    have longer := track.extend hlink fresh
    obtain ⟨-, hopened, hloops⟩ := ih hstart rfl longer hleads
    refine ⟨nofun, fun way hw => ?_, fun loop hl => ?_⟩
    · rcases Trail.mem_opened_enter.mp hw with rfl | hw | hw
      · exact longer
      · exact hopened way hw
      · exact absurd hw (Trail.not_mem_opened_empty way)
    · exact hloops loop ((Trail.mem_loops_enter.mp hl).resolve_right (Trail.not_mem_loops_empty loop))
  | @nested path _ member target _ _ _ _ _ inside result _ trail entry fresh reflected _ _ ih ih' =>
    subst hpath
    obtain ⟨hin, hlink⟩ := leads member List.mem_cons_self target entry
    obtain ⟨hstart, hleads⟩ := carries.step target hin _ _ _ start reflected
    have longer := track.extend hlink fresh
    obtain ⟨hmiddle, hopened, hloops⟩ := ih hstart rfl longer hleads
    obtain ⟨hafter, hopened', hloops'⟩ := ih' (hmiddle rfl) rfl track fun member hm =>
      leads member (List.mem_cons_of_mem _ hm)
    refine ⟨fun hok => hafter (isOk_map result _ ▸ hok), fun way hw => ?_, fun loop hl => ?_⟩
    · rcases Trail.mem_opened_enter.mp hw with rfl | hw | hw
      · exact longer
      · exact hopened way hw
      · exact hopened' way hw
    · exact (Trail.mem_loops_enter.mp hl).elim (hloops loop) (hloops' loop)

end Tracks

/-- Whether what a member shows is known: a sample, or a record among some classes. -/
def Presents (world : World) (classes : Set ClassRef) (member : ReflectedMember) : Prop :=
  (∃ sample, world.entry member = .ok (.inr sample)) ∨
    ∃ target ∈ classes, world.entry member = .ok (.inl target)

/-- Classes that can be reflected and whose members can be shown, whatever has been remembered while
others of them were reflected. -/
structure Answers (world : World) (visibility : Visibility) (classes : Set ClassRef)
    (holds : Memory → Prop) : Prop where
  reflects : ∀ c ∈ classes, ∀ memory, holds memory → ∃ members after,
    world.reflection visibility c memory = (.ok members, after) ∧ holds after ∧
      ∀ member ∈ members, world.Presents classes member

/-- Whether reflection gives each class the same members every time. -/
def IsSteady (world : World) (visibility : Visibility) (classes : Set ClassRef) (holds : Memory → Prop)
    (membersOf : ClassRef → List ReflectedMember) : Prop :=
  ∀ c ∈ classes, ∀ memory members after, holds memory →
    world.reflection visibility c memory = (.ok members, after) → members = membersOf c

/-- Whether a class has a member that shows the other one. -/
def Leads (world : World) (membersOf : ClassRef → List ReflectedMember) (c target : ClassRef) : Prop :=
  ∃ member ∈ membersOf c, world.entry member = .ok (.inl target)

section Answers
variable {classes : Set ClassRef} {holds : Memory → Prop} {path : List ClassRef} {memory after : Memory}
  {members : List ReflectedMember} {result : Except Failure (List (Data × Sample))} {trail : Trail}
  {membersOf : ClassRef → List ReflectedMember}

theorem Presents.mem {member : ReflectedMember} {target : ClassRef}
    (h : world.Presents classes member) (he : world.entry member = .ok (.inl target)) :
    target ∈ classes := by
  rcases h with ⟨sample, hs⟩ | ⟨other, ho, hs⟩
  · cases hs.symm.trans he
  · cases hs.symm.trans he
    exact ho

private theorem Presents.ne_error {member : ReflectedMember} (h : world.Presents classes member)
    (failure : Failure) : world.entry member ≠ .error failure := by
  rcases h with ⟨sample, hs⟩ | ⟨target, -, hs⟩ <;> rw [hs] <;> nofun

theorem Answers.given (answers : Answers world visibility classes holds) {c : ClassRef}
    (hc : c ∈ classes) (start : holds memory) {reflected : Except Trouble (List ReflectedMember)}
    (h : world.reflection visibility c memory = (reflected, after)) :
    ∃ members, reflected = .ok members ∧ holds after ∧
      ∀ member ∈ members, world.Presents classes member := by
  obtain ⟨members, left, hgiven, hleft, presents⟩ := answers.reflects c hc memory start
  cases hgiven.symm.trans h
  exact ⟨members, rfl, hleft, presents⟩

theorem Answers.carries (answers : Answers world visibility classes holds)
    (steady : IsSteady world visibility classes holds membersOf) :
    Carries world visibility classes holds (world.Leads membersOf) where
  step c hc memory members after start reflected := by
    obtain ⟨_, ⟨⟩, hafter, presents⟩ := answers.given hc start reflected
    refine ⟨hafter, fun member hm target he => ⟨(presents member hm).mem he, member, ?_, he⟩⟩
    exact steady c hc _ _ _ start reflected ▸ hm

/-- Where classes answer, expanding their members does not fail. -/
theorem Expands.completes (answers : Answers world visibility classes holds)
    (h : Expands world visibility path memory members result after trail) (start : holds memory)
    (presents : ∀ member ∈ members, world.Presents classes member) :
    result.isOk = true ∧ holds after := by
  induction h with
  | nil => exact ⟨rfl, start⟩
  | failed entry => exact absurd entry ((presents _ List.mem_cons_self).ne_error _)
  | plain _ _ ih | again _ _ _ ih =>
    obtain ⟨hok, hafter⟩ := ih start fun member hm => presents member (List.mem_cons_of_mem _ hm)
    exact ⟨(isOk_map _ _).trans hok, hafter⟩
  | unreflected entry _ reflected =>
    obtain ⟨_, ⟨⟩, -⟩ := answers.given ((presents _ List.mem_cons_self).mem entry) start reflected
  | stopped entry _ reflected _ ih =>
    obtain ⟨_, ⟨⟩, hstart, inner⟩ :=
      answers.given ((presents _ List.mem_cons_self).mem entry) start reflected
    cases (ih hstart inner).1
  | nested entry _ reflected _ _ ih ih' =>
    obtain ⟨_, ⟨⟩, hstart, inner⟩ :=
      answers.given ((presents _ List.mem_cons_self).mem entry) start reflected
    obtain ⟨hok, hafter⟩ :=
      ih' (ih hstart inner).2 fun member hm => presents member (List.mem_cons_of_mem _ hm)
    exact ⟨(isOk_map _ _).trans hok, hafter⟩

end Answers

end World

end Specimen
