import Specimen.Loading.Module
import Specimen.Proofs.Steps

/-! Steps of loading that succeed: what they give, and the worlds they leave behind. -/
namespace Specimen
variable {α β : Type} {world after : World} {value : α} {result : β}

theorem Gives.lift {outcome : Except Trouble α} (h : Gives (Loading.lift outcome) world value after) :
    outcome = .ok value ∧ after = world := by
  cases h
  exact ⟨rfl, rfl⟩

theorem Gives.bind_lift {outcome : Except Trouble α} {next : α → Loader β}
    (h : Gives (Loading.lift outcome >>= next) world result after) :
    ∃ value, outcome = .ok value ∧ Gives (next value) world result after := by
  obtain ⟨value, _, hlift, hnext⟩ := h.bind
  obtain ⟨hvalue, rfl⟩ := hlift.lift
  exact ⟨value, hvalue, hnext⟩

/-- An evaluation changes what is remembered and nothing else. -/
theorem Gives.evaluating {step : Evaluator α} (h : Gives (Loading.evaluating step) world value after) :
    ∃ memory, after = { world with memory } := by
  obtain ⟨_, _, hset, hlift⟩ := h.bind_get.bind
  exact ⟨_, hlift.lift.2.trans hset.set⟩

namespace Loading

/-- The world with a module that is being loaded. -/
abbrev entering (name : Text) (world : World) : World :=
  { world with modules := world.modules ++ [⟨name, Library.imported, false⟩] }

/-- A module that was entered without trouble has been run in the world with it. -/
theorem gives_runModule_of_enterModule {importOne : Text → Importer Unit} {source : ModuleSource}
    (h : Gives (enterModule importOne source) world () after) :
    ∃ middle, Gives (runModule importOne source) (entering source.name world) () middle ∧
      after = markComplete source.name middle := by
  rw [enterModule, enter] at h
  obtain ⟨_, _, entered, rest⟩ := h.bind
  cases entered.modify
  obtain ⟨_, middle, handled, completed⟩ := rest.bind
  refine ⟨middle, ?_, completed.modify⟩
  rcases handled.tryCatch_cases with ran | ⟨halt, before, -, passed⟩
  · exact ran
  · cases passed

end Loading

end Specimen
