import Specimen.Proofs.Reflection.Recall

/-! What type expressions denote by themselves, whatever is remembered of types, and those that denote
nothing. -/
namespace Specimen

namespace Referent
variable {world : World} {d head a b : Referent} {args : List Referent} {lenient : Bool}

section Places

/-- Whether a referent can stand in the place of a type. -/
def takes (world : World) (lenient : Bool) (d : Referent) : Bool :=
  ((accept world lenient d).run.run .empty).1.isOk

private theorem accept_of_takes (rigid : isRigid d = true) (h : takes world lenient d = true) :
    accept world lenient d = pure (asMember d) := by
  rcases accept_cases world lenient (ne_text_of_isRigid rigid) with same | ⟨trouble, refused⟩
  · exact same
  · rw [takes, refused] at h
    cases h

private theorem takes_asMember (h : takes world lenient d = true) : takes world lenient (asMember d) = true := by
  rw [asMember.eq_def]
  split
  · rfl
  · exact h

private theorem returns_acceptAll (rigid : areRigid args = true) (h : args.all (takes world false) = true) :
    Returns Memory.IsFaithful (acceptAll world args) (args.map asMember) := by
  induction args with
  | nil => exact returns_pure _
  | cons d rest ih =>
    rw [areRigid, Bool.and_eq_true] at rigid
    rw [List.all_cons, Bool.and_eq_true] at h
    rw [acceptAll, accept_of_takes rigid.1 h.1, pure_bind]
    exact (ih rigid.2 h.2).bind (returns_pure _)

end Places

section Brackets

/-- Whether arguments equal only themselves and can stand in the places of types. -/
def areReady (world : World) (args : List Referent) : Bool := areRigid args && args.all (takes world false)

/-- The type of a form with its arguments in brackets, where those equal only themselves. -/
def applied? (world : World) (form : TypingForm) (args : List Referent) : Option Referent :=
  if areReady world args then
    match form with
    | .alias name origin arity =>
      if (origin = .callable → args.length = 2) ∧ (checkCount name args.length arity).isOk then
        made? (.alias name origin arity) args []
      else Option.none
    | .optional => made? .optional args []
    | .union => made? .union args []
    | .classVar => made? .classVar args []
    | .final => made? .final args []
    | .annotated | .literal => Option.none
  else Option.none

private theorem returns_makeUnion (rigid : areRigid args = true) (taken : args.all (takes world false) = true)
    (h : united? args = some d) : Returns Memory.IsFaithful (makeUnion world args) d :=
  returns_recalling rigid h ((returns_acceptAll rigid taken).bind (returns_unite rigid h))

private theorem returns_optional {arg : Referent} (rigid : isRigid arg = true) (taken : takes world false arg = true)
    (h : united? [arg, noneType] = some d) :
    Returns Memory.IsFaithful (apply world .optional [arg]) d := by
  refine returns_recalling (areRigid_singleton _ ▸ rigid) h ?_
  rw [accept_of_takes rigid taken, pure_bind]
  exact returns_makeUnion (areRigid_optional rigid)
    (by rw [List.all_cons, takes_asMember taken]; rfl) (united?_optional arg ▸ h)

private theorem returns_wrapping {form : TypingForm} {arg : Referent} {wrap : Referent → Referent}
    (rigid : isRigid arg = true) (taken : takes world false arg = true)
    (made : made? form [arg] [] = some (wrap (asMember arg))) :
    Returns Memory.IsFaithful (Evaluator.recalling form [arg] [] do return wrap (← accept world false arg))
      (wrap (asMember arg)) := by
  refine returns_recalling (areRigid_singleton _ ▸ rigid) made ?_
  rw [accept_of_takes rigid taken, pure_bind]
  exact returns_pure _

private theorem returns_alias {name : Text} {origin : StandardClass} {arity : Option Nat}
    (rigid : areRigid args = true) (taken : args.all (takes world false) = true)
    (pair : origin = .callable → args.length = 2) (counted : (checkCount name args.length arity).isOk = true) :
    Returns Memory.IsFaithful (apply world (.alias name origin arity) args)
      (.generic false (.standard origin) (args.map asMember)) := by
  have count : checkCount name args.length arity = .ok () := by
    cases hc : checkCount name args.length arity with
    | ok found => rfl
    | error trouble =>
      rw [hc] at counted
      cases counted
  have made : Returns Memory.IsFaithful (Evaluator.recalling (.alias name origin arity) args [] do
      let accepted ← acceptAll world args
      checkCount name args.length arity
      return .generic false (.standard origin) accepted)
      (.generic false (.standard origin) (args.map asMember)) := by
    refine returns_recalling rigid rfl ((returns_acceptAll rigid taken).bind ?_)
    rw [count]
    exact returns_pure _
  rw [apply]
  split
  · rename_i callable
    rw [if_neg (fun apart => apart (pair callable))]
    exact made
  · exact made

private theorem returns_apply {form : TypingForm} (h : applied? world form args = some d) :
    Returns Memory.IsFaithful (apply world form args) d := by
  rw [applied?.eq_def] at h
  cases hr : areReady world args with
  | false =>
    rw [hr] at h
    cases h
  | true =>
    rw [hr, if_pos rfl] at h
    obtain ⟨rigid, taken⟩ := Bool.and_eq_true_iff.mp hr
    match form, h with
    | .alias name origin arity, h =>
      dsimp only at h
      split at h
      · rename_i fits
        cases h
        exact returns_alias rigid taken fits.1 fits.2
      · cases h
    | .union, h => exact returns_makeUnion rigid taken h
    | .annotated, h | .literal, h => cases h
    | .optional, h =>
      obtain _ | ⟨arg, _ | ⟨other, rest⟩⟩ := args
      · cases h
      · exact returns_optional (Bool.and_eq_true_iff.mp rigid).1 (Bool.and_eq_true_iff.mp taken).1 h
      · cases h
    | .classVar, h | .final, h =>
      obtain _ | ⟨arg, _ | ⟨other, rest⟩⟩ := args
      · cases h
      · cases h
        exact returns_wrapping (Bool.and_eq_true_iff.mp rigid).1 (Bool.and_eq_true_iff.mp taken).1 rfl
      · cases h

/-- What a head denotes with its arguments in brackets. Only forms remember anything. -/
def subscribed? (world : World) (head : Referent) (args : List Referent) : Option Referent :=
  match head with
  | .form bare => applied? world bare args
  | head => ((subscribe world head args).run.run .empty).1.toOption

/-- A head that is no form gives something or fails, and remembers nothing. -/
private theorem subscribe_cases (world : World) (args : List Referent) (h : ∀ bare, head ≠ .form bare) :
    (∃ d, subscribe world head args = pure d) ∨ ∃ trouble, subscribe world head args = throw trouble := by
  rw [subscribe.eq_def]
  split
  · exact absurd rfl (h _)
  · exact .inl ⟨_, rfl⟩
  · split
    · exact .inl ⟨_, rfl⟩
    · exact .inr ⟨_, rfl⟩
    · exact .inr ⟨_, rfl⟩
  · split
    · exact .inl ⟨_, rfl⟩
    · exact .inr ⟨_, rfl⟩
  · exact .inr ⟨_, rfl⟩

private theorem returns_subscribe (h : subscribed? world head args = some d) :
    Returns Memory.IsFaithful (subscribe world head args) d := by
  rw [subscribed?.eq_def] at h
  split at h
  · exact returns_apply h
  · rename_i plain
    rcases subscribe_cases world args fun bare he => plain bare he with ⟨found, same⟩ | ⟨trouble, failed⟩
    · rw [same] at h ⊢
      cases h
      exact returns_pure _
    · rw [failed] at h
      cases h

/-- Whether a head takes no arguments in brackets. -/
def refuses (world : World) : Referent → Bool
  | .form _ | .cls (.standard .initVar) | .cls (.standard .callable) => false
  | .cls c => !world.isGeneric c
  | _ => true

private theorem fails_subscribe (h : refuses world head = true) (args : List Referent) :
    Fails (subscribe world head args) := by
  cases head with
  | form bare => simp [refuses] at h
  | cls c =>
    rw [refuses.eq_def] at h
    split at h
    · cases h
    · cases h
    · cases h
    · rename_i initVar callable plain
      cases plain
      rw [subscribe, if_neg (by simpa using h)]
      · exact fails_throw _
      · exact callable
      · exact fun _ _ => initVar
    · rename_i plain
      exact absurd rfl (plain c)
  | _ => exact fails_throw _

/-- A type with markers, where it equals only itself. -/
def annotated? (world : World) (d : Referent) (markers : List Marker) : Option Referent :=
  if isRigid d && takes world true d && (marked world markers (asMember d)).isOk then
    made? .annotated [d] markers
  else Option.none

private theorem returns_annotate {markers : List Marker} {found : Referent}
    (h : annotated? world d markers = some found) :
    Returns Memory.IsFaithful (annotate world d markers) found := by
  rw [annotated?] at h
  split at h
  · rename_i ready
    simp only [Bool.and_eq_true] at ready
    obtain ⟨⟨rigid, taken⟩, tells⟩ := ready
    refine returns_recalling (areRigid_singleton _ ▸ rigid) h ?_
    rw [accept_of_takes rigid taken, pure_bind]
    cases hm : marked world markers (asMember d) with
    | ok made =>
      cases h
      rw [eq_mark_of_marked hm]
      exact returns_pure _
    | error trouble =>
      rw [hm] at tells
      cases tells
  · cases h

/-- Two operands joined by a bar, where what they are made of equals only itself. -/
def joined? (world : World) (a b : Referent) : Option Referent :=
  if a.isNativeOperand && b.isNativeOperand && !(a.isNone && b.isNone) then
    if areRigid (flatten [a.asMember, b.asMember]) then
      (unite (fun _ _ => true) true [a.asMember, b.asMember]).toOption
    else Option.none
  else if a.isTypingOperand || b.isTypingOperand then applied? world .union [a, b]
  else Option.none

private theorem returns_join (h : joined? world a b = some d) : Returns Memory.IsFaithful (join world a b) d := by
  rw [joined?] at h
  rw [join]
  split at h
  · rename_i native
    rw [if_pos native]
    split at h
    · rename_i rigid
      exact returns_uniteNew rigid h
    · cases h
  · rename_i native
    rw [if_neg native]
    split at h
    · rename_i typing
      rw [if_pos typing]
      exact returns_apply h
    · cases h

end Brackets

end Referent

namespace Environment
variable (env : Environment)

mutual

/-- What an expression denotes by itself. -/
def denoted? : TypeExpr → Option Referent
  | .none => some .none
  | .ellipsis => some .ellipsis
  | .name dotted => (env.denoteType dotted).toOption
  | .quoted inner => some (.text inner)
  | .subscript head args => do
    Referent.subscribed? env.world (← (env.denote head).toOption) (← allDenoted? args)
  | .literal values =>
    match env.denote "typing.Literal" with
    | .ok (.form .literal) =>
      if Referent.areRigid (values.map .data) then Referent.made? .literal (values.map .data) [] else none
    | _ => none
  | .annotated inner markers => do
    let d ← denoted? inner
    let markers ← (env.denoteMarkers markers).toOption
    match env.denote "typing.Annotated" with
    | .ok (.form .annotated) => Referent.annotated? env.world d markers
    | _ => none
  | .union operands => barsDenoted? none operands

/-- What arguments denote by themselves. -/
def allDenoted? : List TypeExpr → Option (List Referent)
  | [] => some []
  | expr :: rest => do
    let first ← denoted? expr
    return first :: (← allDenoted? rest)

/-- What operands joined by bars denote by themselves, after those that have been joined. -/
def barsDenoted? (joined : Option Referent) : List TypeExpr → Option Referent
  | [] => some (joined.getD .none)
  | expr :: rest => do
    let next ← denoted? expr
    match joined with
    | some before => barsDenoted? (some (← Referent.joined? env.world before next)) rest
    | none => barsDenoted? (some next) rest

end

variable {env} {d : Referent}

private theorem returns_lift {α : Type} {found : Except Trouble α} {value : α} (h : found.toOption = some value) :
    Returns Memory.IsFaithful (liftM found : Evaluator α) value := by
  cases found with
  | error trouble => cases h
  | ok given =>
    cases h
    exact returns_pure _

mutual

theorem returns_evaluate : ∀ {expr d}, env.denoted? expr = some d →
    Returns Memory.IsFaithful (env.evaluate expr) d
  | .none, _, h | .ellipsis, _, h | .quoted _, _, h => by
    cases h
    exact returns_pure _
  | .name dotted, _, h => returns_lift h
  | .subscript head args, d, h => by
    rw [denoted?] at h
    obtain ⟨owner, howner, h⟩ := Option.bind_eq_some_iff.mp h
    obtain ⟨found, hfound, h⟩ := Option.bind_eq_some_iff.mp h
    exact (returns_lift howner).bind ((returns_evaluateAll hfound).bind (Referent.returns_subscribe h))
  | .literal values, d, h => by
    rw [denoted?] at h
    split at h
    · rename_i form
      split at h
      · rename_i rigid
        exact (returns_lift (congrArg Except.toOption form)).bind
          (returns_recalling rigid h (Referent.returns_literal rigid h))
      · cases h
    · cases h
  | .annotated inner markers, d, h => by
    rw [denoted?] at h
    obtain ⟨found, hfound, h⟩ := Option.bind_eq_some_iff.mp h
    obtain ⟨marks, hmarks, h⟩ := Option.bind_eq_some_iff.mp h
    split at h
    · rename_i form
      exact (returns_lift (congrArg Except.toOption form)).bind ((returns_evaluate hfound).bind
        ((returns_lift hmarks).bind (Referent.returns_annotate h)))
    · cases h
  | .union operands, d, h => returns_evaluateBars h

private theorem returns_evaluateAll : ∀ {exprs found}, env.allDenoted? exprs = some found →
    Returns Memory.IsFaithful (env.evaluateAll exprs) found
  | [], _, h => by
    cases h
    exact returns_pure _
  | expr :: rest, found, h => by
    rw [allDenoted?] at h
    obtain ⟨first, hfirst, h⟩ := Option.bind_eq_some_iff.mp h
    obtain ⟨others, hothers, h⟩ := Option.bind_eq_some_iff.mp h
    cases h
    exact (returns_evaluate hfirst).bind ((returns_evaluateAll hothers).bind (returns_pure _))

private theorem returns_evaluateBars : ∀ {joined exprs d}, env.barsDenoted? joined exprs = some d →
    Returns Memory.IsFaithful (env.evaluateBars joined exprs) d
  | _, [], d, h => by
    cases h
    exact returns_pure _
  | none, expr :: rest, d, h => by
    rw [barsDenoted?] at h
    obtain ⟨next, hnext, h⟩ := Option.bind_eq_some_iff.mp h
    exact (returns_evaluate hnext).bind (returns_evaluateBars h)
  | some before, expr :: rest, d, h => by
    rw [barsDenoted?] at h
    obtain ⟨next, hnext, h⟩ := Option.bind_eq_some_iff.mp h
    obtain ⟨made, hmade, h⟩ := Option.bind_eq_some_iff.mp h
    exact (returns_evaluate hnext).bind ((Referent.returns_join hmade).bind (returns_evaluateBars h))

end

section Undefined

mutual

/-- Whether a name in an expression denotes nothing, or something that takes no arguments has some, so that
the expression denotes nothing either. -/
def isUndefined (env : Environment) : TypeExpr → Bool
  | .name dotted => !(env.denoteType dotted).isOk
  | .subscript head args =>
    areUndefined env args ||
      match env.denote head with
      | .ok owner => Referent.refuses env.world owner
      | .error _ => true
  | .literal _ => !(env.denote "typing.Literal").isOk
  | .annotated inner markers =>
    !(env.denote "typing.Annotated").isOk || isUndefined env inner || !(env.denoteMarkers markers).isOk
  | .union operands => areUndefined env operands
  | _ => false

/-- Whether this holds of one of several expressions. -/
def areUndefined (env : Environment) : List TypeExpr → Bool
  | [] => false
  | expr :: rest => isUndefined env expr || areUndefined env rest

end

mutual

theorem fails_evaluate : ∀ {expr}, env.isUndefined expr = true → Fails (env.evaluate expr)
  | .none, h | .ellipsis, h | .quoted _, h => by simp [isUndefined] at h
  | .name dotted, h => fails_lift h
  | .subscript head args, h => by
    rw [isUndefined, Bool.or_eq_true] at h
    rcases h with h | h
    · exact fails_bind fun _ => (fails_evaluateAll h).bind _
    · intro memory value after gives
      obtain ⟨owner, _, denoted, rest⟩ := Gives.bind gives
      obtain ⟨found, middle, -, rest⟩ := rest.bind
      rw [denoted.of_liftM.1] at h
      exact Referent.fails_subscribe h found middle value after rest
  | .literal values, h => (fails_lift h).bind _
  | .annotated inner markers, h => by
    simp only [isUndefined, Bool.or_eq_true] at h
    obtain (h | h) | h := h
    · exact (fails_lift h).bind _
    · exact fails_bind fun _ => (fails_evaluate h).bind _
    · exact fails_bind fun _ => fails_bind fun _ => (fails_lift h).bind _
  | .union operands, h => fails_evaluateBars h none

private theorem fails_evaluateAll : ∀ {exprs}, env.areUndefined exprs = true → Fails (env.evaluateAll exprs)
  | [], h => by simp [areUndefined] at h
  | expr :: rest, h => by
    rw [areUndefined, Bool.or_eq_true] at h
    rcases h with h | h
    · exact (fails_evaluate h).bind _
    · exact fails_bind fun _ => (fails_evaluateAll h).bind _

private theorem fails_evaluateBars : ∀ {exprs}, env.areUndefined exprs = true → ∀ joined,
    Fails (env.evaluateBars joined exprs)
  | [], h, _ => by simp [areUndefined] at h
  | expr :: rest, h, joined => by
    rw [areUndefined, Bool.or_eq_true] at h
    rcases h with h | h
    · cases joined <;> exact (fails_evaluate h).bind _
    · cases joined with
      | none => exact fails_bind fun _ => fails_evaluateBars h _
      | some before => exact fails_bind fun _ => fails_bind fun _ => fails_evaluateBars h _

end

end Undefined

end Environment

end Specimen
