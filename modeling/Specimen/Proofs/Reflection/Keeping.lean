import Specimen.Proofs.Reflection.Rigid
import Specimen.Proofs.Steps

/-! What evaluation keeps of what is remembered: whatever holds for the types in it and goes on to hold with
those that forms of the typing module make. -/
namespace Specimen

namespace Referent

/-- How a form makes its type of arguments and markers. -/
inductive Forms : TypingForm → List Referent → List Marker → Evaluator Referent → Prop
  | generic (world : World) (name : Text) (origin : StandardClass) (arity : Option Nat) (args : List Referent) :
    Forms (.alias name origin arity) args [] (do
      let accepted ← acceptAll world args
      checkCount name args.length arity
      return .generic false (.standard origin) accepted)
  | optional (world : World) (arg : Referent) :
    Forms .optional [arg] [] (do makeUnion world [← accept world false arg, noneType])
  | union (world : World) (members : List Referent) :
    Forms .union members [] (do uniteNew false (← acceptAll world members))
  | classVar (world : World) (arg : Referent) :
    Forms .classVar [arg] [] (do return .classVar (← accept world false arg))
  | final (world : World) (arg : Referent) :
    Forms .final [arg] [] (do return .final (← accept world false arg))
  | literal (values : List Data) :
    Forms .literal (values.map .data) []
      (return .literal (if values.all Data.isHashable then Data.distinctLiterals values else values))
  | annotated (world : World) (d : Referent) (markers : List Marker) :
    Forms .annotated [d] markers (do marked world markers (← accept world true d))

end Referent

namespace Memory

/-- What holds of a memory for its types holds whatever forward references were found to denote. -/
class OfTypes (holds : Memory → Prop) : Prop where
  of_types {memory other : Memory} (same : other.types = memory.types) (h : holds memory) : holds other

section OfTypes
variable {holds : Memory → Prop} [OfTypes holds] {memory : Memory} (h : holds memory)
include h

theorem OfTypes.refer : holds memory.refer := @OfTypes.of_types holds _ memory memory.refer rfl h

theorem OfTypes.settle (number : Nat) (d : Referent) : holds (memory.settle number d) :=
  @OfTypes.of_types holds _ memory (memory.settle number d) rfl h

end OfTypes

/-- What holds of a memory for its types goes on to hold with types that forms make. -/
class Invariant (holds : Memory → Prop) : Prop extends OfTypes holds where
  keep {form : TypingForm} {args : List Referent} {markers : List Marker} {make : Evaluator Referent}
    {before after : Memory} {type : Referent} (forms : Referent.Forms form args markers make)
    (start : holds before) (gives : Gives make before type after) (left : holds after) :
    holds (after.keep ⟨form, args, markers, type⟩)

end Memory

section Recalling
variable {form : TypingForm} {args : List Referent} {markers : List Marker} {make : Evaluator Referent}

/-- What is made is remembered. -/
def remembering (form : TypingForm) (args : List Referent) (markers : List Marker)
    (make : Evaluator Referent) : Evaluator Referent := do
  let type ← make
  modify (·.keep ⟨form, args, markers, type⟩)
  return type

/-- A form makes its type, or finds the one that was made before, or makes one and remembers it. -/
theorem recalling_cases (form : TypingForm) (args : List Referent) (markers : List Marker)
    (make : Evaluator Referent) (state : Memory) :
    (Evaluator.recalling form args markers make).run.run state = make.run.run state ∨
      (∃ type, state.madeBefore? form args markers = some type ∧
        Gives (Evaluator.recalling form args markers make) state type state) ∨
      (Evaluator.recalling form args markers make).run.run state =
        (remembering form args markers make).run.run state := by
  rw [Evaluator.recalling]
  cases hh : Referent.areHashable args with
  | false => exact .inl rfl
  | true =>
    have read : Gives (get : Evaluator Memory) state state state := rfl
    rw [if_neg (by simp)]
    cases found : state.madeBefore? form args markers with
    | some type =>
      refine .inr (.inl ⟨type, rfl, (run_bind read).trans ?_⟩)
      rw [found]
      rfl
    | none =>
      refine .inr (.inr ((run_bind read).trans ?_))
      rw [found]
      rfl

private theorem keeps_recalling {holds : Memory → Prop} [Memory.Invariant holds]
    (forms : Referent.Forms form args markers make) (keeps : Keeps holds make) :
    Keeps holds (Evaluator.recalling form args markers make) := by
  intro state start
  rcases recalling_cases form args markers make state with run | ⟨type, -, gives⟩ | run
  · rw [run]
    exact keeps state start
  · rw [show (Evaluator.recalling form args markers make).run.run state = _ from gives]
    exact start
  · rw [run, remembering]
    cases hrun : make.run.run state with
    | mk outcome middle =>
      cases outcome with
      | error trouble =>
        rw [run_bind_error hrun]
        exact keeps.of_error start hrun
      | ok type =>
        rw [run_bind hrun]
        exact Memory.Invariant.keep forms start hrun (keeps.of_gives start hrun)

end Recalling

variable {holds : Memory → Prop}

namespace Referent
variable {world : World} {d : Referent} {args : List Referent}

section Places

/-- In the place of a type, what is no string stands for itself or is refused. -/
theorem accept_cases (world : World) (lenient : Bool) (h : ∀ expr, d ≠ .text expr) :
    accept world lenient d = pure (asMember d) ∨ ∃ trouble, accept world lenient d = throw trouble := by
  rw [accept.eq_def]
  split
  · exact .inl rfl
  · exact absurd rfl (h _)
  · cases lenient
    · exact .inr ⟨_, rfl⟩
    · exact .inl rfl
  · cases lenient
    · exact .inr ⟨_, rfl⟩
    · exact .inl rfl
  · exact .inl rfl
  · split
    · exact .inl rfl
    · exact .inr ⟨_, rfl⟩
  · exact .inr ⟨_, rfl⟩
  · refine .inl ?_
    rw [asMember.eq_def]
    split
    · contradiction
    · rfl

private theorem keeps_uniteNew (native : Bool) (members : List Referent) :
    Keeps holds (uniteNew native members) := by
  refine Keeps.get_bind fun memory _ => ?_
  cases unite memory.agree native members with
  | ok d => exact keeps_pure d
  | error typeName => exact keeps_throw _

variable [Memory.OfTypes holds]

theorem keeps_newNumber : Keeps holds Evaluator.newNumber := fun _ start => Memory.OfTypes.refer start

theorem keeps_accept (world : World) (lenient : Bool) (d : Referent) :
    Keeps holds (accept world lenient d) := by
  by_cases h : ∃ expr, d = .text expr
  · obtain ⟨expr, rfl⟩ := h
    exact keeps_newNumber.bind fun _ => keeps_pure _
  · rcases accept_cases world lenient (not_exists.mp h) with same | ⟨trouble, refused⟩
    · rw [same]
      exact keeps_pure _
    · rw [refused]
      exact keeps_throw _

theorem keeps_acceptAll (world : World) (args : List Referent) :
    Keeps holds (acceptAll world args) := by
  induction args with
  | nil => exact keeps_pure _
  | cons d rest ih => exact (keeps_accept world false d).bind fun _ => ih.bind fun _ => keeps_pure _

end Places

section Forms
variable [Memory.Invariant holds]

private theorem keeps_makeUnion (world : World) (members : List Referent) : Keeps holds (makeUnion world members) :=
  keeps_recalling (.union world members) ((keeps_acceptAll world members).bind fun _ => keeps_uniteNew false _)

private theorem keeps_alias (world : World) (name : Text) (origin : StandardClass) (arity : Option Nat)
    (args : List Referent) :
    Keeps holds (Evaluator.recalling (.alias name origin arity) args [] do
      let accepted ← acceptAll world args
      checkCount name args.length arity
      return .generic false (.standard origin) accepted) :=
  keeps_recalling (.generic world name origin arity args) ((keeps_acceptAll world args).bind fun _ =>
    (keeps_lift _).bind fun _ => keeps_pure _)

private theorem keeps_apply (world : World) (form : TypingForm) (args : List Referent) :
    Keeps holds (apply world form args) := by
  rw [apply.eq_def]
  split
  · rename_i name origin arity
    split
    · split
      · exact keeps_throw _
      · exact keeps_alias world name origin arity args
    · exact keeps_alias world name origin arity args
  · exact keeps_recalling (.optional world _)
      ((keeps_accept world false _).bind fun _ => keeps_makeUnion world _)
  · exact keeps_makeUnion world _
  · exact keeps_recalling (.classVar world _) ((keeps_accept world false _).bind fun _ => keeps_pure _)
  · exact keeps_recalling (.final world _) ((keeps_accept world false _).bind fun _ => keeps_pure _)
  · exact keeps_throw _

private theorem keeps_subscribe (world : World) (head : Referent) (args : List Referent) :
    Keeps holds (subscribe world head args) := by
  rw [subscribe.eq_def]
  split
  · exact keeps_apply world _ _
  · exact keeps_pure _
  · split
    · exact keeps_pure _
    · exact keeps_throw _
    · exact keeps_throw _
  · split
    · exact keeps_pure _
    · exact keeps_throw _
  · exact keeps_throw _

private theorem keeps_literalOf (values : List Data) : Keeps holds (literalOf values) :=
  keeps_recalling (.literal values) (keeps_pure _)

theorem eq_mark_of_marked {markers : List Marker} {found : Referent}
    (h : marked world markers d = .ok found) : found = d.mark markers := by
  have checked {α : Type} {check : Except Trouble α}
      (h : (check >>= fun _ => .ok (d.mark markers)) = .ok found) : found = d.mark markers := by
    obtain ⟨_, -, h⟩ := ok_of_bind h
    exact (Except.ok.inj h).symm
  rw [marked.eq_def] at h
  split at h
  · exact checked h
  · exact checked h
  · exact checked h
  · split at h
    · exact checked h
    · exact (Except.ok.inj h).symm
  · exact (Except.ok.inj h).symm

private theorem keeps_annotate (world : World) (d : Referent) (markers : List Marker) :
    Keeps holds (annotate world d markers) :=
  keeps_recalling (.annotated world d markers) ((keeps_accept world true d).bind fun _ => keeps_lift _)

theorem keeps_join (world : World) (a b : Referent) : Keeps holds (join world a b) := by
  rw [join]
  split
  · exact keeps_uniteNew true _
  · split
    · exact keeps_makeUnion world _
    · exact keeps_throw _

end Forms

section Following
variable (world : World) {find : TypeExpr → Bool → Nat → Evaluator Referent}

mutual

theorem keeps_replace [Memory.Invariant holds]
    (keeps : ∀ expr lenient number, Keeps holds (find expr lenient number)) :
    ∀ d, Keeps holds (replace world find d)
  | .text expr => keeps_newNumber.bind fun number => keeps expr false number
  | .forward expr lenient number => keeps expr lenient number
  | .generic _ _ args => (keeps_replaceAll keeps args).bind fun _ => keeps_pure _
  | .annotated inner _ => (keeps_replace keeps inner).bind fun _ => keeps_lift _
  | .classVar inner | .final inner => (keeps_replace keeps inner).bind fun _ => keeps_pure _
  | .union native members => by
    refine (keeps_replaceAll keeps members).bind fun found => Keeps.get_bind fun memory _ => ?_
    split
    · exact keeps_pure _
    · split
      · exact keeps_uniteNew true found
      · exact keeps_makeUnion world found
  | .data _ | .ellipsis | .cls _ | .module _ | .form _ | .object _ | .member _ _ | .literal _
  | .initVar _ => keeps_pure _

theorem keeps_replaceAll [Memory.Invariant holds]
    (keeps : ∀ expr lenient number, Keeps holds (find expr lenient number)) :
    ∀ several, Keeps holds (replaceAll world find several)
  | [] => keeps_pure _
  | d :: rest => (keeps_replace keeps d).bind fun _ =>
      (keeps_replaceAll keeps rest).bind fun _ => keeps_pure _

end

end Following

end Referent

namespace Environment
variable (env : Environment)

mutual

theorem keeps_evaluate [Memory.Invariant holds] : ∀ expr, Keeps holds (env.evaluate expr)
  | .none | .ellipsis | .quoted _ => keeps_pure _
  | .name dotted => keeps_lift _
  | .subscript head args => (keeps_lift _).bind fun owner => (keeps_evaluateAll args).bind fun found =>
      Referent.keeps_subscribe env.world owner found
  | .literal values => by
    refine (keeps_lift _).bind fun owner => ?_
    split
    · exact Referent.keeps_literalOf values
    · exact Referent.keeps_subscribe env.world _ _
  | .annotated inner markers => by
    refine (keeps_lift _).bind fun owner => (keeps_evaluate inner).bind fun d =>
      (keeps_lift _).bind fun found => ?_
    split
    · exact Referent.keeps_annotate env.world d found
    · exact Referent.keeps_subscribe env.world _ _
  | .union operands => keeps_evaluateBars none operands

theorem keeps_evaluateAll [Memory.Invariant holds] : ∀ exprs, Keeps holds (env.evaluateAll exprs)
  | [] => keeps_pure _
  | expr :: rest => (keeps_evaluate expr).bind fun _ => (keeps_evaluateAll rest).bind fun _ => keeps_pure _

private theorem keeps_evaluateBars [Memory.Invariant holds] : ∀ joined exprs,
    Keeps holds (env.evaluateBars joined exprs)
  | _, [] => keeps_pure _
  | none, expr :: rest => (keeps_evaluate expr).bind fun next => keeps_evaluateBars (some next) rest
  | some before, expr :: rest => (keeps_evaluate expr).bind fun next =>
      (Referent.keeps_join env.world before next).bind fun made => keeps_evaluateBars (some made) rest

end

variable [Memory.Invariant holds]

theorem keeps_find (reuse : Bool) (fuel : Nat) : ∀ seen expr lenient number,
    Keeps holds (env.find reuse fuel seen expr lenient number) := by
  induction fuel with
  | zero => exact fun _ _ _ _ => keeps_pure _
  | succ fuel ih =>
    intro seen expr lenient number
    rw [find]
    split
    · exact keeps_pure _
    · refine Keeps.get_bind fun memory _ => ?_
      split
      · exact keeps_pure _
      · refine (keeps_evaluate env expr).bind fun found =>
          (Referent.keeps_accept env.world lenient found).bind fun d =>
            (Referent.keeps_replace env.world (ih (expr.text :: seen)) d).bind fun found => ?_
        exact Keeps.bind (keeps_modify fun _ start => Memory.OfTypes.settle start number found) fun _ =>
          keeps_pure found

theorem keeps_followWhole (reuse lenient : Bool) (d : Referent) :
    Keeps holds (env.followWhole reuse lenient d) := by
  rw [followWhole.eq_def]
  split
  · exact Referent.keeps_newNumber.bind fun _ => Referent.keeps_replace env.world (env.keeps_find _ _ _) _
  · exact keeps_pure _
  · exact Referent.keeps_replace env.world (env.keeps_find _ _ _) _

end Environment

end Specimen
