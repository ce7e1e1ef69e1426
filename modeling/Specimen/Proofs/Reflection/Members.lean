import Specimen.Projection.Member
import Specimen.Proofs.Reflection.Bindings
import Specimen.Proofs.Steps

/-! What reflection makes of a class: its candidates are the names of the class and its ancestors with their
types, and the members are those candidates that are shown. -/
namespace Specimen.World
variable {world : World} {visibility : Visibility} {c k : ClassRef} {name : Text} {written : Referent}

/-- What both visibilities choose members from: the fields of a class and its names with their types. -/
def candidates (world : World) (c : ClassRef) : Evaluator (List DataField × Bindings) := do
  let hints ← world.hints c
  let fields ← world.fields c
  return (fields, ← world.memberTypes c hints (← world.memberNames c))

theorem reflect_eq (visibility : Visibility) (c : ClassRef) :
    world.reflect visibility c = world.candidates c >>= fun found =>
      liftM (world.membersOf visibility c found.1 found.2) := by
  simp only [reflect, candidates, bind_assoc, pure_bind]

section Shown
variable {fields : List DataField} {entries : Bindings} {members : List ReflectedMember}

/-- Whether a name with a type is shown as a member of a class. -/
def shows (world : World) (visibility : Visibility) (c : ClassRef) (fields : List DataField) (name : Text)
    (written : Referent) : Except Trouble Bool :=
  world.isShown visibility c (world.declaringClass c name) name written (metadataOf fields name)

/-- The member that a name with a type makes of a class. -/
def memberFrom (world : World) (c : ClassRef) (fields : List DataField) (name : Text)
    (written : Referent) : ReflectedMember :=
  ⟨name, (metadataValue? jsonKey (metadataOf fields name)).getD (.str name), written.read.type,
    written.read.isCollection, written.read.optional, world.declaringClass c name,
    world.declaringClass c name != c⟩

theorem membersOf_cons (visibility : Visibility) (c : ClassRef) (fields : List DataField) (name : Text)
    (written : Referent) (rest : Bindings) :
    world.membersOf visibility c fields ((name, written) :: rest) = (do
      if ← world.shows visibility c fields name written then
        return world.memberFrom c fields name written :: (← world.membersOf visibility c fields rest)
      else world.membersOf visibility c fields rest) := rfl

theorem mem_membersOf (h : world.membersOf visibility c fields entries = .ok members)
    {member : ReflectedMember} : member ∈ members ↔ ∃ entry ∈ entries,
      world.shows visibility c fields entry.1 entry.2 = .ok true ∧
        member = world.memberFrom c fields entry.1 entry.2 := by
  induction entries generalizing members with
  | nil =>
    cases h
    simp
  | cons entry rest ih =>
    rw [membersOf_cons] at h
    obtain ⟨shown, hshown, h⟩ := ok_of_bind h
    cases shown with
    | false =>
      rw [ih h]
      simp [hshown]
    | true =>
      obtain ⟨others, hothers, h⟩ := ok_of_bind h
      cases h
      rw [List.mem_cons, ih hothers]
      simp [hshown]

theorem exists_membersOf
    (h : ∀ entry ∈ entries, ∃ shown, world.shows visibility c fields entry.1 entry.2 = .ok shown) :
    ∃ members, world.membersOf visibility c fields entries = .ok members := by
  induction entries with
  | nil => exact ⟨[], rfl⟩
  | cons entry rest ih =>
    obtain ⟨shown, hshown⟩ := h entry List.mem_cons_self
    obtain ⟨others, hothers⟩ := ih fun other ho => h other (List.mem_cons_of_mem _ ho)
    refine ⟨if shown then world.memberFrom c fields entry.1 entry.2 :: others else others, ?_⟩
    rw [membersOf_cons, hshown, hothers]
    cases shown <;> rfl

end Shown

section Types
variable {hints : Bindings}

/-- Whether a class computes a name itself. -/
def isComputed (world : World) (k : ClassRef) (name : Text) : Bool :=
  ((world.ownAttribute? k name).map (·.isProperty)).getD false

theorem memberType_eq (h : world.isComputed k name = false) :
    world.memberType hints k name =
      pure (((List.lookup name hints).or (world.ownAnnotation? k name)).getD .any) := by
  rw [memberType.eq_def]
  split
  · rename_i type readable own
    rw [isComputed, own] at h
    cases h
  · rfl

/-- Each candidate has the type that is hinted at, or else the annotation itself, unless it is computed. -/
theorem memberTypes_eq (world : World) (c : ClassRef) (hints : Bindings) (names : List Text)
    (memory : Memory) :
    ((world.memberTypes c hints names).run memory).1.map (·.1) = names ∧
      ∀ name written, (name, written) ∈ ((world.memberTypes c hints names).run memory).1 →
        world.isComputed (world.declaringClass c name) name = false →
        written = ((List.lookup name hints).or
          (world.ownAnnotation? (world.declaringClass c name) name)).getD .any := by
  induction names generalizing memory with
  | nil => exact ⟨rfl, nofun⟩
  | cons first rest ih =>
    obtain ⟨hnames, htypes⟩ :=
      ih ((world.memberType hints (world.declaringClass c first) first).run memory).2
    refine ⟨congrArg (first :: ·) hnames, fun name written he annotated => ?_⟩
    rcases List.mem_cons.mp he with he | he
    · obtain ⟨rfl, rfl⟩ := Prod.mk.inj he
      exact congrArg (fun step => (step memory).1) (memberType_eq annotated)
    · exact htypes name written he annotated

end Types

section Names
variable {kept result : List Text} {classes : List ClassRef}

theorem mem_foldl_addName (names kept : List Text) :
    name ∈ names.foldl addName kept ↔ name ∈ kept ∨ name ∈ names := by
  induction names generalizing kept with
  | nil => simp
  | cons first rest ih =>
    rw [List.foldl_cons, ih, List.mem_cons, addName]
    split
    · rename_i known
      have := List.contains_iff_mem.mp known
      grind
    · grind

theorem nodup_foldl_addName (more : List Text) {kept : List Text} (h : kept.Nodup) :
    (more.foldl addName kept).Nodup := by
  induction more generalizing kept with
  | nil => exact h
  | cons name rest ih =>
    refine ih ?_
    rw [addName]
    split
    · exact h
    · rename_i fresh
      exact List.nodup_append.mpr ⟨h, List.nodup_singleton name, fun other ho name hn same =>
        fresh (List.contains_iff_mem.mpr (List.mem_singleton.mp hn ▸ same ▸ ho))⟩

theorem mem_addMemberNames (h : world.addMemberNames kept classes = .ok result) :
    name ∈ result ↔ name ∈ kept ∨ ∃ k ∈ classes, ∃ entries, world.visibleAnnotations k = .ok entries ∧
      (name ∈ entries.map (·.1) ∨ name ∈ world.ownProperties k) := by
  induction classes generalizing kept with
  | nil =>
    cases h
    simp
  | cons k rest ih =>
    obtain ⟨entries, hentries, h⟩ := ok_of_bind h
    rw [ih h, mem_foldl_addName]
    simp [hentries, or_assoc]

theorem exists_addMemberNames (h : ∀ k ∈ classes, ∃ entries, world.visibleAnnotations k = .ok entries)
    (kept : List Text) : ∃ result, world.addMemberNames kept classes = .ok result := by
  induction classes generalizing kept with
  | nil => exact ⟨kept, rfl⟩
  | cons k rest ih =>
    obtain ⟨entries, hentries⟩ := h k List.mem_cons_self
    obtain ⟨result, hresult⟩ := ih (fun other ho => h other (List.mem_cons_of_mem _ ho))
      ((entries.map (·.1) ++ world.ownProperties k).foldl addName kept)
    refine ⟨result, ?_⟩
    rw [addMemberNames, hentries]
    exact hresult

theorem visible_of_addMemberNames (h : world.addMemberNames kept classes = .ok result) :
    ∀ k ∈ classes, ∃ entries, world.visibleAnnotations k = .ok entries := by
  induction classes generalizing kept with
  | nil => nofun
  | cons k rest ih =>
    obtain ⟨entries, hentries, h⟩ := ok_of_bind h
    exact List.forall_mem_cons.mpr ⟨⟨entries, hentries⟩, ih h⟩

end Names

section Declaring
variable {nearer farther : List ClassRef}

/-- The nearest class that declares a name. -/
theorem declaringClass_eq (order : world.resolutionOrder c = nearer ++ k :: farther)
    (near : ∀ j ∈ nearer, world.declares name j = false) (declared : world.declares name k = true) :
    world.declaringClass c name = k := by
  have passed : nearer.find? (world.declares name) = none :=
    List.find?_eq_none.mpr fun j hj => by simp [near j hj]
  rw [declaringClass, order, List.find?_append, passed, List.find?_cons_of_pos declared]
  rfl

theorem ownAnnotation?_eq_none (h : world.declares name k = false) : world.ownAnnotation? k name = none := by
  simpa using (Bool.or_eq_false_iff.mp h).1

private theorem ownAnnotation?_standard (s : StandardClass) (name : Text) :
    world.ownAnnotation? (.standard s) name = none := by
  rw [ownAnnotation?]
  split <;> rfl

theorem exists_order (own : world.ownAnnotation? (world.declaringClass c name) name = some written) :
    ∃ nearer farther, world.resolutionOrder c = nearer ++ world.declaringClass c name :: farther ∧
      ∀ j ∈ nearer, world.declares name j = false := by
  have declared : world.declares name (world.declaringClass c name) = true := by simp [declares, own]
  cases hf : (world.resolutionOrder c).find? (world.declares name) with
  | none =>
    -- then the class itself stands in, and as one with annotations it comes first in its order
    have itself : world.declaringClass c name = c := by rw [declaringClass, hf]; rfl
    rw [itself] at own declared
    cases c with
    | standard s => rw [ownAnnotation?_standard] at own; cases own
    | declared index =>
      rw [List.find?_eq_none] at hf
      exact absurd declared (hf _ List.mem_cons_self)
  | some k =>
    have same : world.declaringClass c name = k := by rw [declaringClass, hf]; rfl
    obtain ⟨-, nearer, farther, order, near⟩ := List.find?_eq_some_iff_append.mp hf
    exact ⟨nearer, farther, same ▸ order, fun j hj => by simpa using near j hj⟩

end Declaring

section Reflection
variable {memory middle after : Memory} {hints : Bindings} {fields : List DataField} {names : List Text}
  {members : List ReflectedMember}

/-- What reflection finds on its way to the members of a class. -/
structure Reflects (world : World) (visibility : Visibility) (c : ClassRef) (memory : Memory)
    (members : List ReflectedMember) (hints : Bindings) (middle : Memory) (fields : List DataField)
    (names : List Text) : Prop where
  hinted : Gives (world.hints c) memory hints middle
  read : world.fields c = .ok fields
  named : world.memberNames c = .ok names
  shown : world.membersOf visibility c fields ((world.memberTypes c hints names).run middle).1 = .ok members

theorem exists_reflects (h : Gives (world.reflect visibility c) memory members after) :
    ∃ hints middle fields names, Reflects world visibility c memory members hints middle fields names := by
  obtain ⟨hints, middle, hinted, reading⟩ := Gives.bind h
  obtain ⟨fields, _, read, naming⟩ := Gives.bind reading
  obtain ⟨names, _, named, typing⟩ := Gives.bind naming
  obtain ⟨hread, rfl⟩ := read.of_liftM
  obtain ⟨hnamed, rfl⟩ := named.of_liftM
  obtain ⟨types, _, typed, showing⟩ := Gives.bind typing
  cases typed
  exact ⟨hints, _, fields, names, hinted, hread, hnamed, showing.of_liftM.1⟩

theorem Reflects.gives (h : Reflects world visibility c memory members hints middle fields names) :
    ∃ after, Gives (world.reflect visibility c) memory members after := by
  refine ⟨((world.memberTypes c hints names).run middle).2, (run_bind h.hinted).trans ?_⟩
  refine (run_bind (gives_lift h.read middle)).trans ((run_bind (gives_lift h.named middle)).trans ?_)
  refine (run_bind (gives_state (world.memberTypes c hints names) middle)).trans ?_
  exact gives_lift h.shown _

end Reflection

end Specimen.World
