import Specimen.Proofs.Reflection.Keeping

/-! What is remembered of the types that forms of the typing module gave. Where the arguments of a form
equal only themselves, what is remembered is what the form gives now. -/
namespace Specimen

namespace Referent

/-- The union of the typing module, where its members equal only themselves. -/
def united? (members : List Referent) : Option Referent :=
  (unite (fun _ _ => true) false (members.map asMember)).toOption

/-- The value that a referent denotes. -/
def datum? : Referent → Option Data
  | .data value => some value
  | _ => Option.none

/-- The type that a form gives of arguments that equal only themselves. -/
def made? (form : TypingForm) (args : List Referent) (markers : List Marker) : Option Referent :=
  match form, args with
  | .alias _ origin _, args => some (.generic false (.standard origin) (args.map asMember))
  | .optional, [arg] => united? [arg, noneType]
  | .union, args => united? args
  | .classVar, [arg] => some (.classVar (asMember arg))
  | .final, [arg] => some (.final (asMember arg))
  | .annotated, [arg] => some ((asMember arg).mark markers)
  | .literal, args => some (.literal (Data.distinctLiterals (args.filterMap datum?)))
  | _, _ => Option.none

end Referent

/-- If its arguments equal only themselves, a type is what the form gives of them. -/
def MadeType.IsFaithful (made : MadeType) : Prop :=
  Referent.areRigid made.args = true →
    ∀ d, Referent.made? made.form made.args made.markers = some d → made.type = d

namespace Memory

/-- What is remembered of arguments that equal only themselves is what the form gives of them. -/
def IsFaithful (memory : Memory) : Prop := ∀ made ∈ memory.types, made.IsFaithful

theorem isFaithful_empty : empty.IsFaithful := fun _ hm => nomatch hm

theorem IsFaithful.refer {memory : Memory} (h : memory.IsFaithful) : memory.refer.IsFaithful := h

theorem IsFaithful.settle {memory : Memory} (h : memory.IsFaithful) (number : Nat) (d : Referent) :
    (memory.settle number d).IsFaithful := h

instance : OfTypes IsFaithful := ⟨fun same h made hm => h made (same ▸ hm)⟩

theorem IsFaithful.keep {memory : Memory} {made : MadeType} (h : memory.IsFaithful)
    (hmade : made.IsFaithful) : (memory.keep made).IsFaithful := by
  intro other ho
  rcases List.mem_append.mp ho with ho | ho
  · exact h other ho
  · rw [List.mem_singleton.mp ho]
    exact hmade

variable {memory : Memory} {form : TypingForm} {args : List Referent} {markers : List Marker}
  {d type : Referent}

private theorem IsFaithful.madeBefore?_eq (h : memory.IsFaithful) (rigid : Referent.areRigid args = true)
    (made : Referent.made? form args markers = some d)
    (found : memory.madeBefore? form args markers = some type) : type = d := by
  obtain ⟨earlier, hfind, rfl⟩ := Option.map_eq_some_iff.mp found
  have same := List.find?_some hfind
  simp only [Bool.and_eq_true, beq_iff_eq] at same
  obtain ⟨⟨⟨hform, hargs⟩, -⟩, hmarkers⟩ := same
  obtain ⟨_, compared, heq⟩ := Referent.tells_of_areRigid rigid earlier.args
  rw [Referent.sameList, compared] at hargs
  have hargs := heq hargs
  refine h earlier (List.mem_of_find?_eq_some hfind) (hargs ▸ rigid) d ?_
  rw [hform, hargs, Referent.eq_of_sameMarkers hmarkers, made]

end Memory

section Recalling
variable {form : TypingForm} {args : List Referent} {markers : List Marker} {make : Evaluator Referent}
  {d : Referent}

private theorem fixes_recalling (rigid : Referent.areRigid args = true)
    (h : Referent.made? form args markers = some d) (fixes : Fixes Memory.IsFaithful make d) :
    Fixes Memory.IsFaithful (Evaluator.recalling form args markers make) d := by
  intro state given after start gives
  rcases recalling_cases form args markers make state with run | ⟨type, before, found⟩ | run
  · exact fixes state given after start (run.symm.trans gives)
  · cases found.symm.trans gives
    exact start.madeBefore?_eq rigid h before
  · obtain ⟨type, middle, made, rest⟩ := Gives.bind (run.symm.trans gives)
    obtain ⟨_, _, -, rest⟩ := Gives.bind rest
    rw [(Gives.pure rest).1]
    exact fixes state type middle start made

theorem returns_recalling (rigid : Referent.areRigid args = true)
    (h : Referent.made? form args markers = some d) (returns : Returns Memory.IsFaithful make d) :
    Returns Memory.IsFaithful (Evaluator.recalling form args markers make) d := by
  intro state start
  obtain ⟨middle, made, hmiddle⟩ := returns state start
  rcases recalling_cases form args markers make state with run | ⟨type, before, found⟩ | run
  · exact ⟨middle, run.trans made, hmiddle⟩
  · rw [start.madeBefore?_eq rigid h before] at found
    exact ⟨state, found, start⟩
  · exact ⟨middle.keep ⟨form, args, markers, d⟩, run.trans (run_bind made),
      hmiddle.keep fun _ other ho => Option.some.inj (h.symm.trans ho)⟩

end Recalling

namespace Referent
variable {world : World} {d arg : Referent} {args members : List Referent} {lenient : Bool}

section Places

private theorem fixes_accept (h : isRigid d = true) :
    Fixes Memory.IsFaithful (accept world lenient d) (asMember d) := by
  rcases accept_cases world lenient (ne_text_of_isRigid h) with same | ⟨trouble, refused⟩
  · rw [same]
    exact (returns_pure _).fixes
  · rw [refused]
    exact fixes_throw _ _

private theorem fixes_acceptAll (h : areRigid args = true) :
    Fixes Memory.IsFaithful (acceptAll world args) (args.map asMember) := by
  induction args with
  | nil => exact (returns_pure _).fixes
  | cons d rest ih =>
    rw [areRigid, Bool.and_eq_true] at h
    exact (fixes_accept h.1).bind (keeps_accept world false d)
      ((ih h.2).bind (keeps_acceptAll world rest) (returns_pure _).fixes)

end Places

section Forms

theorem returns_uniteNew {native : Bool} (rigid : areRigid (flatten members) = true)
    (h : (unite (fun _ _ => true) native members).toOption = some d) :
    Returns Memory.IsFaithful (uniteNew native members) d := by
  intro state start
  refine ⟨state, (run_bind (show Gives get state state state from rfl)).trans ?_, start⟩
  rw [unite_congr state.agree (fun _ _ => true) rigid]
  cases hu : unite (fun _ _ => true) native members with
  | ok found =>
    rw [hu] at h
    cases h
    rfl
  | error typeName =>
    rw [hu] at h
    cases h

theorem returns_unite (rigid : areRigid members = true) (h : united? members = some d) :
    Returns Memory.IsFaithful (uniteNew false (members.map asMember)) d :=
  returns_uniteNew ((flatten_eq (areRigid_map_asMember rigid)).symm ▸ areRigid_map_asMember rigid) h

private theorem fixes_makeUnion (rigid : areRigid members = true) (h : united? members = some d) :
    Fixes Memory.IsFaithful (makeUnion world members) d :=
  fixes_recalling rigid h
    ((fixes_acceptAll rigid).bind (keeps_acceptAll world members) (returns_unite rigid h).fixes)

/-- What is made of an optional type: the union with the type of the absent value. -/
theorem united?_optional (arg : Referent) : united? [asMember arg, noneType] = united? [arg, noneType] := by
  simp [united?]

private theorem fixes_optional (rigid : isRigid arg = true) (h : united? [arg, noneType] = some d) :
    Fixes Memory.IsFaithful (do makeUnion world [← accept world false arg, noneType]) d :=
  (fixes_accept rigid).bind (keeps_accept world false arg)
    (fixes_makeUnion (areRigid_optional rigid) (united?_optional arg ▸ h))

private theorem isHashable_of_areRigid {values : List Data} (h : areRigid (values.map .data) = true) :
    values.all Data.isHashable = true := by
  induction values with
  | nil => rfl
  | cons value rest ih =>
    rw [List.map_cons, areRigid, Bool.and_eq_true] at h
    rw [List.all_cons, ih h.2, Bool.and_true]
    cases value with
    | list | tuple | set | dict => simp [isRigid] at h
    | _ => rfl

private theorem filterMap_datum? (values : List Data) : (values.map .data).filterMap datum? = values := by
  induction values with
  | nil => rfl
  | cons value rest ih => exact congrArg (value :: ·) ih

theorem returns_literal {values : List Data} (rigid : areRigid (values.map .data) = true)
    (h : made? .literal (values.map .data) [] = some d) :
    Returns Memory.IsFaithful (pure (.literal (if values.all Data.isHashable then
      Data.distinctLiterals values else values)) : Evaluator Referent) d := by
  rw [made?, filterMap_datum?] at h
  cases h
  rw [if_pos (isHashable_of_areRigid rigid)]
  exact returns_pure _

/-- Of arguments that equal only themselves a form makes nothing else. -/
theorem Forms.fixes {form : TypingForm} {markers : List Marker} {make : Evaluator Referent}
    (forms : Forms form args markers make) (rigid : areRigid args = true)
    (h : made? form args markers = some d) : Fixes Memory.IsFaithful make d := by
  have accepted {arg : Referent} {lenient : Bool} (world : World) (rigid : areRigid [arg] = true) :
      Fixes Memory.IsFaithful (accept world lenient arg) (asMember arg) :=
    fixes_accept (areRigid_singleton arg ▸ rigid)
  cases forms with
  | generic world name origin arity args =>
    cases h
    exact (fixes_acceptAll rigid).bind (keeps_acceptAll world args)
      (fixes_lift_bind fun _ => (returns_pure _).fixes)
  | optional world arg => exact fixes_optional (areRigid_singleton arg ▸ rigid) h
  | union world =>
    exact (fixes_acceptAll rigid).bind (keeps_acceptAll world args) (returns_unite rigid h).fixes
  | classVar world arg | final world arg =>
    cases h
    exact (accepted world rigid).bind (keeps_accept world false arg) (returns_pure _).fixes
  | literal values => exact (returns_literal rigid h).fixes
  | annotated world arg markers =>
    cases h
    refine (accepted world rigid).bind (keeps_accept world true arg) fun state given after _ gives => ?_
    exact eq_mark_of_marked gives.of_liftM.1

end Forms

end Referent

instance : Memory.Invariant Memory.IsFaithful where
  keep forms start gives left := left.keep fun rigid _ h => forms.fixes rigid h _ _ _ start gives

end Specimen
