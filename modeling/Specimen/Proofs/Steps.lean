import Mathlib.Control.Basic

/-! Steps that may fail and change a state: what a sequence of them gives, where its parts succeed or
fail, and what the parts of a sequence that succeeds give. -/
namespace Specimen

/-- What fails in no part succeeds in both. -/
theorem ok_of_bind {ε α β : Type} {first : Except ε α} {next : α → Except ε β} {result : β}
    (h : first >>= next = .ok result) : ∃ value, first = .ok value ∧ next value = .ok result := by
  cases first with
  | error failure => cases h
  | ok value => exact ⟨value, rfl, h⟩

/-- What fails fails in one of its parts. -/
theorem error_of_bind {ε α β : Type} {first : Except ε α} {next : α → Except ε β} {failure : ε}
    (h : first >>= next = .error failure) :
    first = .error failure ∨ ∃ value, first = .ok value ∧ next value = .error failure := by
  cases first with
  | error other => exact .inl (congrArg Except.error (Except.error.inj h))
  | ok value => exact .inr ⟨value, rfl, h⟩

/-- What gives a result made from another one gives that one. -/
theorem ok_of_map {ε α β : Type} {outcome : Except ε α} {f : α → β} {value : β}
    (h : outcome.map f = .ok value) : ∃ given, outcome = .ok given ∧ f given = value := by
  cases outcome with
  | error failure => cases h
  | ok given => exact ⟨given, rfl, Except.ok.inj h⟩

/-- What fails with a result made from it fails. -/
theorem error_of_map {ε α β : Type} {outcome : Except ε α} {f : α → β} {failure : ε}
    (h : outcome.map f = .error failure) : outcome = .error failure := by
  cases outcome with
  | error other => exact congrArg Except.error (Except.error.inj h)
  | ok given => cases h

/-- What a property of its result is known of succeeds. -/
theorem exists_ok_of_map {ε α β : Type} {outcome : Except ε α} {f : α → β} {value : β}
    (h : outcome.toOption.map f = some value) : ∃ result, outcome = .ok result ∧ f result = value := by
  cases outcome with
  | error failure => cases h
  | ok result => exact ⟨result, rfl, Option.some.inj h⟩

section Sequence
variable {σ ε α β : Type} {step : ExceptT ε (StateM σ) α} {next : α → ExceptT ε (StateM σ) β}
  {handle : ε → ExceptT ε (StateM σ) α} {before middle after : σ} {value : α} {result : β} {failure : ε}

/-- A step gives a value in a state and leaves another state behind. -/
def Gives (step : ExceptT ε (StateM σ) α) (before : σ) (value : α) (after : σ) : Prop :=
  step.run.run before = (.ok value, after)

/-- What a property of its result is known of gives one. -/
theorem exists_gives_of_map {γ : Type} {f : α → γ} {found : γ}
    (h : (step.run.run before).1.toOption.map f = some found) :
    ∃ value after, Gives step before value after ∧ f value = found := by
  cases hs : step.run.run before with
  | mk outcome after =>
    rw [hs] at h
    obtain ⟨value, rfl, hf⟩ := exists_ok_of_map h
    exact ⟨value, after, hs, hf⟩

theorem run_bind (h : Gives step before value middle) :
    (step >>= next).run.run before = (next value).run.run middle := by
  have parts : (step >>= next).run.run before =
      ExceptT.bindCont next (step.run.run before).1 (step.run.run before).2 := rfl
  rw [parts, show step.run.run before = _ from h]
  rfl

/-- What runs as another step does runs on as that one. -/
theorem run_bind_congr {first : ExceptT ε (StateM σ) α} (h : first.run.run before = step.run.run before) :
    (first >>= next).run.run before = (step >>= next).run.run before := by
  have parts (start : ExceptT ε (StateM σ) α) : (start >>= next).run.run before =
      ExceptT.bindCont next (start.run.run before).1 (start.run.run before).2 := rfl
  rw [parts, parts, h]

theorem run_get_bind (next : σ → ExceptT ε (StateM σ) β) (before : σ) :
    (get >>= next).run.run before = (next before).run.run before := rfl

/-- A step that cannot fail gives what it makes. -/
theorem gives_state (made : StateM σ α) (before : σ) :
    Gives (liftM made : ExceptT ε (StateM σ) α) before (made.run before).1 (made.run before).2 := rfl

theorem run_bind_error (h : step.run.run before = (.error failure, middle)) :
    (step >>= next).run.run before = (.error failure, middle) := by
  have parts : (step >>= next).run.run before =
      ExceptT.bindCont next (step.run.run before).1 (step.run.run before).2 := rfl
  rw [parts, h]
  rfl

theorem run_tryCatch (h : Gives step before value middle) :
    (tryCatch step handle).run.run before = (.ok value, middle) := by
  have hs : step before = (.ok value, middle) := h
  simp only [tryCatch, tryCatchThe, MonadExceptOf.tryCatch, ExceptT.tryCatch, ExceptT.mk, ExceptT.run,
    StateT.run, bind, StateT.bind]
  rw [hs]
  rfl

theorem run_tryCatch_error (h : step.run.run before = (.error failure, middle)) :
    (tryCatch step handle).run.run before = (handle failure).run.run middle := by
  have hs : step before = (.error failure, middle) := h
  simp only [tryCatch, tryCatchThe, MonadExceptOf.tryCatch, ExceptT.tryCatch, ExceptT.mk, ExceptT.run,
    StateT.run, bind, StateT.bind]
  rw [hs]

/-- A sequence that succeeds succeeds in both of its parts. -/
theorem Gives.bind (h : Gives (step >>= next) before result after) :
    ∃ value middle, Gives step before value middle ∧ Gives (next value) middle result after := by
  cases hs : step.run.run before with
  | mk outcome middle =>
    cases outcome with
    | error failure => cases (run_bind_error hs).symm.trans h
    | ok value => exact ⟨value, middle, hs, (run_bind hs).symm.trans h⟩

theorem Gives.pure {given : α} (h : Gives (pure given : ExceptT ε (StateM σ) α) before value after) :
    value = given ∧ after = before := by
  cases h
  exact ⟨rfl, rfl⟩

theorem Gives.of_liftM {outcome : Except ε α}
    (h : Gives (liftM outcome : ExceptT ε (StateM σ) α) before value after) :
    outcome = .ok value ∧ after = before := by
  cases h
  exact ⟨rfl, rfl⟩

theorem gives_lift {outcome : Except ε α} (h : outcome = .ok value) (state : σ) :
    Gives (liftM outcome : ExceptT ε (StateM σ) α) state value state := by
  subst h
  rfl

theorem Gives.bind_pure {given : α} (h : Gives (Pure.pure given >>= next) before result after) :
    Gives (next given) before result after := h

theorem Gives.bind_get {next : σ → ExceptT ε (StateM σ) β} (h : Gives (get >>= next) before result after) :
    Gives (next before) before result after := h

theorem Gives.set {kept : σ} (h : Gives (set kept : ExceptT ε (StateM σ) Unit) before () after) :
    after = kept := by
  cases h
  rfl

theorem Gives.modify {change : σ → σ}
    (h : Gives (modify change : ExceptT ε (StateM σ) Unit) before () after) : after = change before := by
  cases h
  rfl

/-- A step with a handler gives what the step gives, or else what the handler makes of its failure. -/
theorem Gives.tryCatch_cases (h : Gives (tryCatch step handle) before value after) :
    Gives step before value after ∨ ∃ failure middle,
      step.run.run before = (.error failure, middle) ∧ Gives (handle failure) middle value after := by
  cases hs : step.run.run before with
  | mk outcome middle =>
    cases outcome with
    | ok found => exact .inl (hs.trans ((run_tryCatch hs).symm.trans h))
    | error failure => exact .inr ⟨failure, middle, rfl, (run_tryCatch_error hs).symm.trans h⟩

/-- A step keeps what holds of the state, whether it succeeds or fails. -/
def Keeps (holds : σ → Prop) (step : ExceptT ε (StateM σ) α) : Prop :=
  ∀ state, holds state → holds (step.run.run state).2

/-- A step gives a value wherever something holds of the state, and keeps that. -/
def Returns (holds : σ → Prop) (step : ExceptT ε (StateM σ) α) (value : α) : Prop :=
  ∀ state, holds state → ∃ after, Gives step state value after ∧ holds after

/-- A step gives nothing but a value wherever something holds of the state. -/
def Fixes (holds : σ → Prop) (step : ExceptT ε (StateM σ) α) (value : α) : Prop :=
  ∀ state given after, holds state → Gives step state given after → given = value

/-- A step fails in no other ways than some. -/
def FailsAmong (among : ε → Prop) (step : ExceptT ε (StateM σ) α) : Prop :=
  ∀ state failure after, step.run.run state = (.error failure, after) → among failure

/-- A step gives nothing in any state. -/
def Fails (step : ExceptT ε (StateM σ) α) : Prop := ∀ state value after, ¬ Gives step state value after

theorem fails_throw (failure : ε) : Fails (throw failure : ExceptT ε (StateM σ) α) :=
  fun _ _ _ gives => nomatch gives

theorem Fails.bind (h : Fails step) (next : α → ExceptT ε (StateM σ) β) : Fails (step >>= next) := by
  intro state result after gives
  obtain ⟨value, middle, first, -⟩ := gives.bind
  exact h state value middle first

theorem fails_bind (h : ∀ value, Fails (next value)) : Fails (step >>= next) := by
  intro state result after gives
  obtain ⟨value, middle, -, second⟩ := gives.bind
  exact h value middle result after second

theorem fails_lift {outcome : Except ε α} (h : (!outcome.isOk) = true) :
    Fails (liftM outcome : ExceptT ε (StateM σ) α) := by
  intro state value after gives
  obtain ⟨rfl, -⟩ := gives.of_liftM
  cases h

section Adapted
variable {ν : Type} {wording : ε → ν}

private theorem run_adapt (wording : ε → ν) (step : ExceptT ε (StateM σ) α) (before : σ) :
    (step.adapt wording).run.run before =
      ((step.run.run before).1.mapError wording, (step.run.run before).2) := rfl

theorem run_adapt_error (h : step.run.run before = (.error failure, middle)) :
    (step.adapt wording).run.run before = (.error (wording failure), middle) := by
  rw [run_adapt, h]
  rfl

theorem Gives.adapt (h : Gives step before value after) : Gives (step.adapt wording) before value after := by
  rw [Gives, run_adapt, show step.run.run before = _ from h]
  rfl

theorem Gives.of_adapt (h : Gives (step.adapt wording) before value after) : Gives step before value after := by
  cases hs : step.run.run before with
  | mk outcome middle =>
    cases outcome with
    | error failure => cases (run_adapt_error hs).symm.trans h
    | ok found =>
      have same := (run_adapt wording step before).symm.trans h
      rw [hs] at same
      cases same
      exact hs

end Adapted

section Among
variable {among : ε → Prop}

theorem failsAmong_pure (value : α) : FailsAmong among (pure value : ExceptT ε (StateM σ) α) :=
  fun _ _ _ h => nomatch h

theorem failsAmong_modify (change : σ → σ) : FailsAmong among (modify change : ExceptT ε (StateM σ) Unit) :=
  fun _ _ _ h => nomatch h

theorem failsAmong_throw (h : among failure) : FailsAmong among (throw failure : ExceptT ε (StateM σ) α) := by
  intro state other after failed
  cases failed
  exact h

theorem FailsAmong.bind (h : FailsAmong among step) (hnext : ∀ value, FailsAmong among (next value)) :
    FailsAmong among (step >>= next) := by
  intro state failure after failed
  cases hs : step.run.run state with
  | mk outcome middle =>
    cases outcome with
    | error other =>
      cases (run_bind_error hs).symm.trans failed
      exact h state failure after hs
    | ok value => exact hnext value middle failure after ((run_bind hs).symm.trans failed)

theorem FailsAmong.get_bind {next : σ → ExceptT ε (StateM σ) β} (h : ∀ state, FailsAmong among (next state)) :
    FailsAmong among (get >>= next) := fun state => h state state

theorem FailsAmong.tryCatch (h : FailsAmong among step)
    (hhandle : ∀ failure, among failure → FailsAmong among (handle failure)) :
    FailsAmong among (tryCatch step handle) := by
  intro state failure after failed
  cases hs : step.run.run state with
  | mk outcome middle =>
    cases outcome with
    | error other =>
      exact hhandle other (h state other middle hs) middle failure after ((run_tryCatch_error hs).symm.trans failed)
    | ok value => cases (run_tryCatch hs).symm.trans failed

theorem FailsAmong.adapt {ν : Type} {wording : ε → ν} {worded : ν → Prop} (h : FailsAmong among step)
    (worse : ∀ failure, among failure → worded (wording failure)) : FailsAmong worded (step.adapt wording) := by
  intro state failure after failed
  cases hs : step.run.run state with
  | mk outcome middle =>
    cases outcome with
    | error other =>
      cases (run_adapt_error hs).symm.trans failed
      exact worse other (h state other after hs)
    | ok value => cases (Gives.adapt hs).symm.trans failed

end Among

section Holds
variable {holds : σ → Prop}

theorem keeps_pure (value : α) : Keeps holds (pure value : ExceptT ε (StateM σ) α) := fun _ h => h

theorem keeps_lift (outcome : Except ε α) : Keeps holds (liftM outcome : ExceptT ε (StateM σ) α) :=
  fun _ h => h

theorem keeps_throw (failure : ε) : Keeps holds (throw failure : ExceptT ε (StateM σ) α) := fun _ h => h

theorem Keeps.get_bind {next : σ → ExceptT ε (StateM σ) β}
    (h : ∀ state, holds state → Keeps holds (next state)) : Keeps holds (get >>= next) :=
  fun state hs => h state hs state hs

theorem keeps_set {kept : σ} (h : holds kept) : Keeps holds (set kept : ExceptT ε (StateM σ) Unit) :=
  fun _ _ => h

theorem keeps_modify {change : σ → σ} (h : ∀ state, holds state → holds (change state)) :
    Keeps holds (modify change : ExceptT ε (StateM σ) Unit) := h

theorem Keeps.bind (h : Keeps holds step) (hnext : ∀ value, Keeps holds (next value)) :
    Keeps holds (step >>= next) := by
  intro state hs
  have hmiddle := h state hs
  cases hrun : step.run.run state with
  | mk outcome middle =>
    rw [hrun] at hmiddle
    cases outcome with
    | error failure =>
      rw [run_bind_error hrun]
      exact hmiddle
    | ok value =>
      rw [run_bind hrun]
      exact hnext value middle hmiddle

theorem Keeps.adapt {ν : Type} {wording : ε → ν} (h : Keeps holds step) : Keeps holds (step.adapt wording) := h

theorem Keeps.tryCatch (h : Keeps holds step) (hhandle : ∀ failure, Keeps holds (handle failure)) :
    Keeps holds (tryCatch step handle) := by
  intro state hs
  have hmiddle := h state hs
  cases hrun : step.run.run state with
  | mk outcome middle =>
    rw [hrun] at hmiddle
    cases outcome with
    | ok value =>
      rw [run_tryCatch hrun]
      exact hmiddle
    | error failure =>
      rw [run_tryCatch_error hrun]
      exact hhandle failure middle hmiddle

theorem Keeps.of_gives (h : Keeps holds step) (start : holds before) (gives : Gives step before value after) :
    holds after := by
  have := h before start
  rwa [show step.run.run before = _ from gives] at this

theorem Keeps.of_error (h : Keeps holds step) (start : holds before)
    (failed : step.run.run before = (.error failure, after)) : holds after := by
  have := h before start
  rwa [failed] at this

theorem returns_pure (value : α) : Returns holds (pure value : ExceptT ε (StateM σ) α) value :=
  fun state h => ⟨state, rfl, h⟩

theorem Returns.bind (h : Returns holds step value) (hnext : Returns holds (next value) result) :
    Returns holds (step >>= next) result := by
  intro state hs
  obtain ⟨middle, gives, hmiddle⟩ := h state hs
  obtain ⟨last, gives', hlast⟩ := hnext middle hmiddle
  exact ⟨last, (run_bind gives).trans gives', hlast⟩

theorem Returns.fixes (h : Returns holds step value) : Fixes holds step value := by
  intro state given after start gives
  obtain ⟨last, gives', -⟩ := h state start
  cases gives'.symm.trans gives
  rfl

theorem fixes_throw (failure : ε) (value : α) :
    Fixes holds (throw failure : ExceptT ε (StateM σ) α) value := fun _ _ _ _ gives => nomatch gives

theorem fixes_lift_bind {outcome : Except ε α} (h : ∀ value, Fixes holds (next value) result) :
    Fixes holds (liftM outcome >>= next) result := by
  intro state given after start gives
  obtain ⟨value, middle, first, second⟩ := gives.bind
  obtain ⟨-, rfl⟩ := first.of_liftM
  exact h value middle given after start second

theorem Fixes.bind (h : Fixes holds step value) (keeps : Keeps holds step)
    (hnext : Fixes holds (next value) result) : Fixes holds (step >>= next) result := by
  intro state given after start gives
  obtain ⟨found, middle, first, second⟩ := gives.bind
  cases h state found middle start first
  exact hnext middle given after (keeps.of_gives start first) second

end Holds

end Sequence

end Specimen
