import Specimen.Proofs.Json.Names
import Specimen.Proofs.Projection.Policies
import Mathlib.Logic.Relation

/-! What projections are made of. Placeholders are fixed samples, plain data that a type quotes, or the name of an
enumeration's first member; what holds of those, and is passed on to the objects of the classes that members lead
to, holds of every value in a projection. -/
namespace Specimen.World

variable (world : World) (visibility : Visibility) (root : ClassRef)

/-- The placeholders that do not depend on what a type holds. -/
def blanks : List Sample := .null :: .object [] :: placeholders.map (·.2)

/-- Plain data that the placeholder of a type is made of: the first value of a literal type, and of an
enumeration the value of its first member or what replaces that member's name. -/
inductive Quotes : Referent → Data → Prop
  | literal {value rest} : Quotes (.literal (value :: rest)) value
  | choice {c name rest own value} (listed : (world.enumeration c).listed = name :: rest)
    (read : world.memberAttribute? c "value" = .ok own)
    (found : own.getD ((List.lookup name (world.enumeration c).members).getD .none) = .data value)
    (scalar : value.isScalar = true) : Quotes (.cls c) value
  | label {c value} (read : world.memberAttribute? c "name" = .ok (some (.data value))) : Quotes (.cls c) value

/-- What placeholders of a type may be. -/
inductive Places : Referent → Except Failure Sample → Prop
  | blank {type sample} (mem : sample ∈ blanks) : Places type (.ok sample)
  | quoted {type value} (quotes : world.Quotes type value) : Places type (dataSample value)
  | label {c name rest} (listed : (world.enumeration c).listed = name :: rest) :
    Places (.cls c) (.ok (.string name))
  | empty : Places (.literal []) (.error .emptyLiteral)
  | unreadable {c name trouble} (failed : world.memberAttribute? c name = .error trouble) :
    Places (.cls c) (.error (.unreflected trouble))

variable {world visibility root}

private theorem places_label {c : ClassRef} {name : Text} {rest : List Text}
    (listed : (world.enumeration c).listed = name :: rest) : world.Places (.cls c) (world.labelSample c name) := by
  rw [labelSample]
  cases read : world.memberAttribute? c "name" with
  | error trouble => exact .unreadable read
  | ok own =>
    simp only [Except.mapError, bind, Except.bind]
    split
    · exact .quoted (.label read)
    · exact .label listed

private theorem places_choice {c : ClassRef} {name : Text} {rest : List Text}
    (listed : (world.enumeration c).listed = name :: rest) :
    world.Places (.cls c)
      (world.choiceSample c name ((List.lookup name (world.enumeration c).members).getD .none)) := by
  rw [choiceSample]
  cases read : world.memberAttribute? c "value" with
  | error trouble => exact .unreadable read
  | ok own =>
    simp only [Except.mapError, bind, Except.bind]
    split
    · rename_i value found
      split
      · rename_i scalar
        exact .quoted (.choice listed read found scalar)
      · exact places_label listed
    · exact places_label listed

private theorem scalar?_mem {c : ClassRef} {sample : Sample} (h : world.scalar? c = some sample) : sample ∈ blanks := by
  rw [scalar?, Option.map_eq_some_iff] at h
  obtain ⟨entry, found, rfl⟩ := h
  exact .tail _ (.tail _ (List.mem_map_of_mem (List.mem_of_find?_eq_some found)))

/-- The placeholder of every type. -/
private theorem places_placeholder (type : Referent) : world.Places type (world.placeholder type) := by
  have null : Json.Value.null ∈ blanks := List.mem_cons_self
  have object : Json.Value.object [] ∈ blanks := .tail _ List.mem_cons_self
  rw [placeholder.eq_def]
  split
  · exact .empty
  · exact .quoted .literal
  · rename_i c
    split
    · exact .blank object
    · split
      · rw [enumerationSample]
        split
        · exact .blank null
        · rename_i listed
          exact places_choice listed
      · cases found : world.scalar? c with
        | none => exact .blank null
        | some sample => exact .blank (scalar?_mem found)
  · split
    · exact .blank object
    · exact .blank null

theorem everyObject_blanks {p : List Data → Prop} (h : p []) : ∀ sample ∈ blanks, sample.EveryObject p := by
  simp [blanks, placeholders, Json.Value.EveryObject, Json.Value.EveryObjectOfMembers, Json.Value.names, h]

theorem ok_of_dataSample {value : Data} {sample : Sample} (h : dataSample value = .ok sample) :
    ∃ document, value.toDocument = .ok document ∧ sample = document.mapNames .str := by
  obtain ⟨document, hdocument, h⟩ := ok_of_bind h
  cases h
  exact ⟨document, hdocument, rfl⟩

section Entry
variable {member : ReflectedMember}

/-- A member that shows no record shows no items, or a placeholder of its type. -/
theorem places_of_entry {sample : Sample} (h : world.entry member = .ok (.inr sample)) :
    sample = .array [] ∨ world.Places member.type (.ok sample) := by
  rw [entry.eq_def] at h
  split at h
  · cases h
  · cases h
  · obtain ⟨placed, hplaced, he⟩ := ok_of_map h
    cases he
    rw [plainSample] at hplaced
    split at hplaced
    · cases hplaced
      exact .inl rfl
    · exact .inr (hplaced ▸ places_placeholder member.type)

end Entry

section Reached
variable (world visibility root)

/-- Whether members lead from the root to a class that reflection gives some members. -/
structure Reaches (c : ClassRef) (members : List ReflectedMember) : Prop where
  leads : Relation.ReflTransGen (world.Follows visibility) root c
  reflected : ∃ memory after, world.reflection visibility c memory = (.ok members, after)

/-- Whether a class that members lead to has a member. -/
def Meets (member : ReflectedMember) : Prop :=
  ∃ c members, world.Reaches visibility root c members ∧ member ∈ members

variable {world visibility root}

theorem Reaches.step {c target : ClassRef} {members inner : List ReflectedMember} {member : ReflectedMember}
    {memory after : Memory} (h : world.Reaches visibility root c members) (mem : member ∈ members)
    (entry : world.entry member = .ok (.inl target))
    (reflected : world.reflection visibility target memory = (.ok inner, after)) :
    world.Reaches visibility root target inner := by
  obtain ⟨before, later, found⟩ := h.reflected
  exact ⟨h.leads.tail ⟨before, members, later, found, member, mem, entry⟩, memory, after, reflected⟩

variable {path : List ClassRef} {memory after : Memory} {members whole : List ReflectedMember}
  {result : Except Failure (List (Data × Sample))} {trail : Trail} {c : ClassRef}

/-- What holds of the samples of members that are no records, and is passed on to arrays and to the objects of
records, holds of the samples of all members. -/
structure Closed (world : World) (visibility : Visibility) (root : ClassRef) (p : Sample → Prop) : Prop where
  plain : ∀ {member sample}, world.Meets visibility root member → world.entry member = .ok (.inr sample) → p sample
  null : p .null
  empty : p (.array [])
  item : ∀ {sample}, p sample → p (.array [sample])
  object : ∀ {c members samples}, world.Reaches visibility root c members →
    Json.Value.names samples = members.map (·.jsonName) → (∀ sample ∈ samples, p sample.2) → p (.object samples)

theorem Closed.omitted {p : Sample → Prop} (closed : Closed world visibility root p) (member : ReflectedMember) :
    p (omittedSample member) := by
  rw [omittedSample]
  split
  · exact closed.empty
  · exact closed.null

theorem Closed.shown {p : Sample → Prop} (closed : Closed world visibility root p) (member : ReflectedMember)
    {sample : Sample} (h : p sample) : p (shownSample member sample) := by
  rw [shownSample]
  split
  · exact closed.item h
  · exact h

/-- The samples of members stand under their names, and what is closed holds of them. -/
private theorem Expands.forall_samples {p : Sample → Prop} (closed : Closed world visibility root p)
    (h : Expands world visibility path memory members result after trail)
    (reaches : world.Reaches visibility root c whole) (part : members ⊆ whole) {samples : List (Data × Sample)}
    (made : result = .ok samples) :
    Json.Value.names samples = members.map (·.jsonName) ∧ ∀ sample ∈ samples, p sample.2 := by
  induction h generalizing c whole samples with
  | nil =>
    cases made
    exact ⟨rfl, nofun⟩
  | failed | unreflected | stopped => cases made
  | plain entry _ ih =>
    obtain ⟨others, hothers, rfl⟩ := ok_of_map made
    obtain ⟨mem, rest⟩ := List.cons_subset.mp part
    obtain ⟨names, each⟩ := ih reaches rest hothers
    exact ⟨congrArg (_ :: ·) names,
      List.forall_mem_cons.mpr ⟨closed.plain ⟨c, whole, reaches, mem⟩ entry, each⟩⟩
  | again _ _ _ ih =>
    obtain ⟨others, hothers, rfl⟩ := ok_of_map made
    obtain ⟨names, each⟩ := ih reaches (List.cons_subset.mp part).2 hothers
    exact ⟨congrArg (_ :: ·) names, List.forall_mem_cons.mpr ⟨closed.omitted _, each⟩⟩
  | nested entry _ reflected _ _ ih ih' =>
    obtain ⟨others, hothers, rfl⟩ := ok_of_map made
    obtain ⟨mem, rest⟩ := List.cons_subset.mp part
    have inner := reaches.step mem entry reflected
    obtain ⟨innerNames, innerEach⟩ := ih inner (List.Subset.refl _) rfl
    obtain ⟨names, each⟩ := ih' reaches rest hothers
    exact ⟨congrArg (_ :: ·) names,
      List.forall_mem_cons.mpr ⟨closed.shown _ (closed.object inner innerNames innerEach), each⟩⟩

/-- What projecting a class gives is an object of its members, and what is closed holds of it. -/
theorem Projects.forall_sample {sample : Sample}
    (h : Projects world visibility root (.ok (members, sample)) trail) :
    world.Reaches visibility root root members ∧ (∃ samples, sample = .object samples ∧
      Json.Value.names samples = members.map (·.jsonName)) ∧ ∀ {p}, Closed world visibility root p → p sample := by
  generalize made : Except.ok (members, sample) = outcome at h
  cases h with
  | unreflected => cases made
  | @expanded shown start result after trail reflected expands =>
    obtain ⟨samples, rfl, he⟩ := ok_of_map made.symm
    cases he
    have reaches : world.Reaches visibility root root members := ⟨.refl, _, _, reflected⟩
    have blank : Closed world visibility root fun _ => True :=
      ⟨fun _ _ => trivial, trivial, trivial, fun _ => trivial, fun _ _ _ => trivial⟩
    refine ⟨reaches, ⟨samples, rfl, (expands.forall_samples blank reaches (List.Subset.refl _) rfl).1⟩, ?_⟩
    intro p closed
    obtain ⟨names, each⟩ := expands.forall_samples closed reaches (List.Subset.refl _) rfl
    exact closed.object reaches names each

end Reached

/-- Either policy gives what leaving out loops gives, unless it refuses one. -/
theorem exists_projects_of_project (world : World) (settings : Settings) (root : ClassRef) :
    ∃ outcome trail, Projects world settings.visibility root outcome trail ∧
      (world.project settings root = outcome ∨ settings.loops = .error ∧
        ∃ message path, world.project settings root = .error (.refusal (.loop message path))) := by
  obtain ⟨visibility, loops, formatting⟩ := settings
  obtain ⟨outcome, trail, projects⟩ := exists_projects world visibility root
  refine ⟨outcome, trail, projects, ?_⟩
  cases loops with
  | ignore => exact .inl (projects.project_ignore formatting)
  | error =>
    rw [projects.project_error formatting, reported]
    split
    · exact .inl rfl
    · exact .inr ⟨rfl, _, _, rfl⟩

end Specimen.World
