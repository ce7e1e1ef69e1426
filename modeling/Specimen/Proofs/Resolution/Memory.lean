import Specimen.Proofs.Reflection.Hiding
import Specimen.Proofs.Reflection.Removal
import Specimen.Proofs.Resolution.Reached

/-! What is remembered where names are resolved and classes reflected, one after the other. It is sound there, and
what is shown of classes can be relied on. -/
namespace Specimen
open Loading

/-- Something holds of what a world remembers. -/
structure World.Remembers (holds : Memory → Prop) (world : World) : Prop where
  remembered : holds world.memory

section Keeping
variable {α : Type} {holds : Memory → Prop}

private theorem keeps_evaluating {step : Evaluator α} (h : Keeps holds step) :
    Keeps (World.Remembers holds) (evaluating step) := by
  refine Keeps.get_bind fun world start => ?_
  exact Keeps.bind (keeps_set ⟨h world.memory start.remembered⟩) fun _ => keeps_result _

/-- Nothing is remembered of classes, names and modules themselves. -/
private theorem isLasting_remembers [Memory.Invariant holds] : IsLasting (World.Remembers holds) where
  evaluated env expr := keeps_evaluating (env.keeps_evaluate expr)
  added _ _ start := ⟨start.remembered⟩
  bound _ _ _ _ start := ⟨start.remembered⟩
  completed _ _ start := ⟨start.remembered⟩

private theorem admits_remembers (name : Text) : Admits (World.Remembers holds) name :=
  ⟨fun _ start => ⟨start.remembered⟩, fun _ start => ⟨start.remembered⟩⟩

end Keeping

namespace World
variable {world : World} {visibility : Visibility} {c : ClassRef}

/-- The worlds that loading modules alone, resolving names and reflecting classes lead to, with what has been
remembered on the way. -/
inductive Lived : World → Prop
  | library : Lived Library.world
  | own : Lived Own.world
  | resolved {world : World} (workspace : Workspace) (file : Option Text) (name : Text) (before : Lived world) :
    Lived ((Resolver.resolve workspace file name).run.run world).2
  | alone {world : World} (source : ModuleSource) (before : Lived world) :
    Lived ((enterModule (fun _ => return ()) source).run.run world).2
  | reflected {world : World} (visibility : Visibility) (c : ClassRef) (before : Lived world) :
    Lived { world with memory := ((world.reflect visibility c).run.run world.memory).2 }

namespace Lived

/-- What holds of nothing and goes on to hold holds of what is remembered, whatever was resolved or refused. -/
private theorem remembers {holds : Memory → Prop} [Memory.Invariant holds] (start : holds .empty)
    (lived : world.Lived) :
    world.Remembers holds := by
  have kept : IsKept (Remembers holds) := isLasting_remembers.isKept
  have alone (source : ModuleSource) : Keeps (Remembers holds) (enterModule (fun _ => return ()) source) :=
    keeps_enterModule kept (fun _ => keeps_pure _) source (admits_remembers _)
  induction lived with
  | library => exact ⟨start⟩
  | own =>
    have bound := kept.bound _ Library.ownPackage "types" (.module Own.typesModule) trivial
      (alone Own.source Library.world ⟨start⟩)
    refine holds_foldl (fun world name h => ?_) bound
    rw [Own.offer]
    split
    · exact ⟨h.remembered⟩
    · exact h
  | resolved workspace file name before ih =>
    exact Resolver.keeps_resolve kept admits_remembers workspace file name _ ih
  | alone source before ih => exact alone source _ ih
  | reflected visibility c before ih => exact ⟨keeps_reflect _ visibility c _ ih.remembered⟩

private theorem isSound (lived : world.Lived) : world.memory.IsSound :=
  (lived.remembers Memory.isSound_empty).remembered

variable {members : List ReflectedMember} {after : Memory}

/-- What a class keeps out of documents is never reflected. -/
theorem not_mem_of_hides (lived : world.Lived) (ordinary : ∀ k ∈ world.resolutionOrder c, world.IsOrdinary k)
    (h : Gives (world.reflect visibility c) world.memory members after) {name : Text} (hides : world.Hides c name) :
    name ∉ members.map (·.name) :=
  hides.not_mem_of_reflect ordinary lived.isSound h

/-- A member whose annotation is a string that denotes nothing is untyped. -/
theorem untyped (lived : world.Lived) (ordinary : ∀ k ∈ world.resolutionOrder c, world.IsOrdinary k)
    (h : Gives (world.reflect visibility c) world.memory members after) {member : ReflectedMember}
    (hm : member ∈ members) {expr : TypeExpr} (annotated : world.IsAnnotated member (.text expr))
    (unresolvable : world.IsUnresolvable member.declaring expr) :
    (member.type, member.isCollection, member.optional) = (.any, false, false) := by
  obtain ⟨hints, middle, fields, names, found⟩ := exists_reflects h
  exact found.untyped ordinary lived.isSound.faithful hm annotated unresolvable

/-- What has a meaning by itself is reflected alike beside other annotations and without them. -/
theorem mem_of_keeping (lived : world.Lived) (ordinary : ∀ k ∈ world.resolutionOrder c, world.IsOrdinary k)
    (h : Gives (world.reflect visibility c) world.memory members after) {keep : ClassRef → Text → Bool}
    {members' : List ReflectedMember} {after' : Memory}
    (h' : Gives ((world.keeping keep).reflect visibility c) world.memory members' after')
    {member : ReflectedMember} (hm : member ∈ members) {written d : Referent}
    (annotated : world.IsAnnotated member written) (hkeep : keep member.declaring member.name = true)
    (meaning : world.IsMeaning member.declaring written d) : member ∈ members' := by
  have faithful := lived.isSound.faithful
  obtain ⟨hints, middle, fields, names, found⟩ := exists_reflects h
  obtain ⟨hints', middle', fields', names', found'⟩ := exists_reflects h'
  obtain rfl : fields' = fields :=
    Except.ok.inj (found'.read.symm.trans ((fields_keeping world c keep).trans found.read))
  exact found.mem_keeping ordinary faithful faithful found' hm annotated hkeep meaning

end Lived

end World

end Specimen
