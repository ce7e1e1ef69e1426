import Specimen.Proofs.Loading.Order
import Specimen.Proofs.Reflection.Gathering

/-! Where the fields of a class come from, and where its declared names do. A class that is no dataclass, or computes a
name, declares it before a class below makes it a field; of all other names, what classes declare has the order of
the fields. -/
namespace Specimen.World
variable {world : World} {c k : ClassRef} {name : Text} {names : List Text} {fields : List DataField}

section Declared

/-- The names that a class annotates, for all that is seen of its annotations. -/
def annotatedNames (world : World) (k : ClassRef) : List Text :=
  if world.isBuiltin k then [] else (world.ownAnnotations k).entries.map (·.1)

/-- The names that a class annotates and those that it computes. -/
def declaredNames (world : World) (k : ClassRef) : List Text := world.annotatedNames k ++ world.ownProperties k

theorem annotatedNames_of_mem (h : name ∈ world.annotatedNames k) :
    world.annotatedNames k = (world.ownAnnotations k).entries.map (·.1) := by
  rw [annotatedNames] at h ⊢
  split at h
  · cases h
  · rename_i foreign
    rw [if_neg foreign]

private theorem names_visibleAnnotations {entries : Bindings} (h : world.visibleAnnotations k = .ok entries) :
    entries.map (·.1) = world.annotatedNames k := by
  rw [visibleAnnotations] at h
  rw [annotatedNames]
  split at h
  · rename_i builtin
    cases h
    rw [if_pos builtin]
    rfl
  · rename_i foreign
    rw [if_neg foreign]
    extract_lets listed at h
    have listing : listed () = .ok entries := by
      split at h
      · exact (ok_of_bind h).choose_spec.2
      · exact h
    dsimp only [listed] at listing
    split at listing
    · cases listing
    · cases listing
      rfl

theorem names_addMemberNames {kept : List Text} {classes : List ClassRef}
    (h : world.addMemberNames kept classes = .ok names) :
    names = (classes.flatMap world.declaredNames).foldl addName kept := by
  induction classes generalizing kept with
  | nil => exact (Except.ok.inj h).symm
  | cons k rest ih =>
    obtain ⟨entries, visible, h⟩ := ok_of_bind h
    rw [ih h, names_visibleAnnotations visible]
    simp only [List.flatMap_cons, declaredNames, List.foldl_append]

variable (ordered : world.IsOrdered)
include ordered

/-- A class declares a name if it annotates or computes it. -/
theorem IsOrdered.declares_iff : world.declares name k = true ↔ name ∈ world.declaredNames k := by
  have annotates : (world.ownAnnotation? k name).isSome = true ↔ name ∈ world.annotatedNames k := by
    rw [ownAnnotation?, annotatedNames]
    split
    · simp
    · simp
  have computes : ((world.ownAttribute? k name).map (·.isProperty)).getD false = true ↔
      name ∈ world.ownProperties k := by
    constructor
    · intro computed
      cases found : world.ownAttribute? k name with
      | none =>
        rw [found] at computed
        cases computed
      | some bound =>
        rw [found] at computed
        exact List.mem_map.mpr ⟨_, List.mem_filter.mpr ⟨mem_of_lookup found, computed⟩, rfl⟩
    · intro computed
      obtain ⟨⟨_, bound⟩, entry, rfl⟩ := List.mem_map.mp computed
      obtain ⟨entry, isProperty⟩ := List.mem_filter.mp entry
      rw [ownAttribute?, lookup_of_mem (ordered.nodup_ownAttributes k) entry]
      exact isProperty
  rw [declares, Bool.or_eq_true, annotates, computes, declaredNames, List.mem_append]

end Declared

section Owner

/-- The nearest class whose fields a class has. -/
def fieldOwner (world : World) (c : ClassRef) : ClassRef :=
  ((world.resolutionOrder c).find? fun k => (world.ownFieldTable? k).isSome).getD c

private theorem fieldTable?_of_own {table : FieldTable} (own : world.ownFieldTable? k = some table) :
    world.fieldTable? k = some table := by
  rw [fieldTable?, resolutionOrder_eq_cons, List.findSome?_cons, own]

theorem ownFieldTable?_of_fields (own : world.ownFields? k = some fields) :
    world.ownFieldTable? k = some (.known fields) := by
  rw [ownFieldTable?, own]

theorem fieldNames_of_fields (own : world.ownFields? k = some fields) :
    world.fieldNames k = fields.map (·.name) := by
  rw [fieldNames, fieldTable?_of_own (ownFieldTable?_of_fields own)]

/-- The fields of a class are those of a class in its order. -/
theorem fieldOwner_spec (known : world.fieldTable? c = some (.known fields)) :
    world.fieldOwner c ∈ world.resolutionOrder c ∧ world.ownFields? (world.fieldOwner c) = some fields := by
  obtain ⟨nearer, owner, farther, order, own, none⟩ := List.findSome?_eq_some_iff.mp known
  have found : world.fieldOwner c = owner := by
    have first : (world.resolutionOrder c).find? (fun k => (world.ownFieldTable? k).isSome) = some owner :=
      List.find?_eq_some_iff_append.mpr
        ⟨by rw [own]; rfl, nearer, farther, order, fun k hk => by rw [none k hk]; rfl⟩
    rw [fieldOwner, first]
    rfl
  rw [found]
  refine ⟨order ▸ List.mem_append_right _ List.mem_cons_self, ?_⟩
  rw [ownFieldTable?] at own
  split at own
  · rename_i fields found
    cases own
    exact found
  · obtain ⟨_, -, other⟩ := Option.map_eq_some_iff.mp own
    cases other

private theorem fieldTable?_of_mem (has : name ∈ world.fieldNames k) :
    ∃ fields, world.fieldTable? k = some (.known fields) ∧ world.fieldNames k = fields.map (·.name) := by
  rw [fieldNames] at has ⊢
  split at has
  · rename_i fields found
    exact ⟨fields, found, rfl⟩
  · cases has

theorem fields_cases (read : world.fields c = .ok fields) :
    fields = [] ∨ world.fieldTable? c = some (.known fields) := by
  rw [World.fields] at read
  split at read
  · exact .inl (Except.ok.inj read).symm
  · rename_i table found
    rw [readFields.eq_def] at read
    split at read
    · cases read
      exact .inr found
    · exact .inl (Except.ok.inj read).symm
    · cases read
    · cases read

variable (ordered : world.IsOrdered)
include ordered

theorem IsOrdered.extendsFields (own : world.ownFields? k = some fields) :
    world.ExtendsFields (world.resolutionOrder k).tail ((world.ownAnnotations k).entries.map (·.1))
      (fields.map (·.name)) := by
  cases k with
  | standard s => cases own
  | declared index =>
    obtain ⟨info, found, own⟩ := Option.bind_eq_some_iff.mp own
    have placed := ordered.placed index info found
    rw [ownAnnotations, resolutionOrder, found]
    exact placed.fields fields own

/-- The fields of a dataclass are those of the classes in its order, its own among them. -/
theorem IsOrdered.gather_fieldNames (own : world.ownFields? k = some fields) :
    gather world.fieldNames (world.resolutionOrder k).reverse = world.fieldNames k := by
  obtain ⟨_, -, -, names⟩ := ordered.extendsFields own
  rw [resolutionOrder_eq_cons, List.reverse_cons, gather_concat, fieldNames_of_fields own, names, foldl_addName_twice]

end Owner

section Introduced

/-- The farthest class that declares a name or has a field of that name. -/
def introducer? (world : World) (c : ClassRef) (name : Text) : Option ClassRef :=
  (world.resolutionOrder c).reverse.find? fun k =>
    (world.declaredNames k).contains name || (world.fieldNames k).contains name

/-- The farthest class that knows a name annotates it, once, and has it as a field. -/
structure Introduces (world : World) (c k : ClassRef) (name : Text) : Prop where
  first : world.introducer? c name = some k
  annotated : name ∈ world.annotatedNames k
  given : name ∈ world.fieldNames k
  nodup : (world.annotatedNames k).Nodup

instance (world : World) (c k : ClassRef) (name : Text) : Decidable (world.Introduces c k name) :=
  decidable_of_iff (world.introducer? c name = some k ∧ (world.annotatedNames k).contains name = true ∧
      (world.fieldNames k).contains name = true ∧ (world.annotatedNames k).Nodup) <| by
    simp only [List.contains_iff_mem]
    exact ⟨fun ⟨first, annotated, given, nodup⟩ => ⟨first, annotated, given, nodup⟩,
      fun ⟨first, annotated, given, nodup⟩ => ⟨first, annotated, given, nodup⟩⟩

/-- A name is introduced by a class that gives its fields to the one that has the name. -/
def IsIntroduced (world : World) (c : ClassRef) (name : Text) : Prop :=
  ∃ k ∈ world.resolutionOrder (world.fieldOwner c), world.Introduces c k name

instance (world : World) (c : ClassRef) (name : Text) : Decidable (world.IsIntroduced c name) :=
  inferInstanceAs (Decidable (∃ k ∈ _, _))

theorem known_of_introducer (first : world.introducer? c name = some k) :
    name ∈ world.declaredNames k ∨ name ∈ world.fieldNames k := by
  have known := List.find?_some (show List.find? _ _ = _ from first)
  simpa using known

/-- Where no class farther away declares a name that is introduced, the class that knows it introduces it. -/
private theorem introduces_of_fresh {before after : List ClassRef}
    (whole : (world.resolutionOrder c).reverse = before ++ k :: after) (introduced : world.IsIntroduced c name)
    (fresh : name ∉ gather world.declaredNames before)
    (known : name ∈ world.declaredNames k ∨ name ∈ world.fieldNames k) :
    k ∈ world.resolutionOrder (world.fieldOwner c) ∧ world.Introduces c k name := by
  obtain ⟨origin, within, introduces⟩ := introduced
  have first := introduces.first
  suffices origin = k from this ▸ ⟨within, introduces⟩
  rw [introducer?, whole, List.find?_append] at first
  cases earlier : before.find? fun k =>
      (world.declaredNames k).contains name || (world.fieldNames k).contains name with
  | some j =>
    rw [earlier] at first
    obtain rfl : j = origin := Option.some.inj first
    have declared : name ∈ world.declaredNames j := List.mem_append_left _ introduces.annotated
    exact absurd (mem_gather.mpr ⟨j, List.mem_of_find?_eq_some earlier, declared⟩) fresh
  | none =>
    rw [earlier, Option.none_or, List.find?_cons_of_pos (by simpa using known)] at first
    exact (Option.some.inj first).symm

variable (ordered : world.IsOrdered)
include ordered

/-- No class above the one that introduces a name knows it. -/
theorem IsOrdered.unknown_above (first : world.introducer? c name = some k) :
    ∀ j ∈ (world.resolutionOrder k).tail, name ∉ world.declaredNames j ∧ name ∉ world.fieldNames j := by
  obtain ⟨-, farther, nearer, whole, unknown⟩ := List.find?_eq_some_iff_append.mp first
  have order : world.resolutionOrder c = nearer.reverse ++ k :: farther.reverse := by
    simpa using congrArg List.reverse whole
  intro j hj
  simpa using unknown j (List.mem_reverse.mp (ordered.mem_farther order j hj))

/-- A class whose fields have a name that none above it knows was made a dataclass itself. -/
theorem IsOrdered.exists_fields_of_introducer (first : world.introducer? c name = some k)
    (has : name ∈ world.fieldNames k) : ∃ fields, world.ownFields? k = some fields := by
  obtain ⟨fields, known, same⟩ := fieldTable?_of_mem has
  obtain ⟨within, own⟩ := fieldOwner_spec known
  rw [resolutionOrder_eq_cons] at within
  rcases List.mem_cons.mp within with itself | above
  · exact ⟨fields, itself ▸ own⟩
  · exact absurd (fieldNames_of_fields own ▸ same ▸ has) (ordered.unknown_above first _ above).2

section New
variable {new : Text → Bool} (introduces : ∀ name, new name = true →
  name ∈ world.declaredNames k ∨ name ∈ world.fieldNames k → world.Introduces c k name)
include introduces

/-- The fields that a class introduces are annotated names, in their order. -/
private theorem IsOrdered.filter_fieldNames (some : ∃ name, new name = true ∧ name ∈ world.fieldNames k) :
    (world.fieldNames k).filter new = (world.annotatedNames k).filter new := by
  obtain ⟨name, hn, has⟩ := some
  obtain ⟨first, annotated, -, nodup⟩ := introduces name hn (.inr has)
  obtain ⟨fields, own⟩ := ordered.exists_fields_of_introducer first has
  obtain ⟨names, sublist, -, names_eq⟩ := ordered.extendsFields own
  rw [← annotatedNames_of_mem annotated] at sublist
  -- what the classes above contribute is known to them, so it is not introduced here
  have old : (gather world.fieldNames (world.resolutionOrder k).tail.reverse).filter new = [] := by
    refine List.filter_eq_nil_iff.mpr fun name inherited hn => ?_
    obtain ⟨j, above, has⟩ := mem_gather.mp inherited
    have known : name ∈ world.fieldNames k := by
      rw [fieldNames_of_fields own, names_eq]
      exact (mem_foldl_addName _ _).mpr (.inl inherited)
    exact (ordered.unknown_above (introduces name hn (.inr known)).first j (List.mem_reverse.mp above)).2 has
  have added : (world.fieldNames k).filter new = names.filter new := by
    rw [fieldNames_of_fields own, names_eq, filter_foldl_addName, old,
      foldl_addName_of_nodup ((nodup.sublist sublist).filter _)]
  have within : ((world.fieldNames k).filter new).Sublist ((world.annotatedNames k).filter new) :=
    added ▸ sublist.filter new
  rw [← filter_mem_of_sublist within (nodup.filter new), List.filter_eq_self]
  intro name hn
  obtain ⟨annotated, hn⟩ := List.mem_filter.mp hn
  simpa [hn] using (introduces name hn (.inl (List.mem_append_left _ annotated))).given

/-- What a class adds to the members, of the names that it introduces, it adds to the fields. -/
private theorem IsOrdered.foldl_declaredNames : ((world.declaredNames k).filter new).foldl addName [] =
    ((world.fieldNames k).filter new).foldl addName [] := by
  by_cases some : ∃ name, new name = true ∧ (name ∈ world.declaredNames k ∨ name ∈ world.fieldNames k)
  · obtain ⟨name, hn, known⟩ := some
    obtain ⟨-, -, given, nodup⟩ := introduces name hn known
    have computed : ∀ name ∈ (world.ownProperties k).filter new, name ∈ (world.annotatedNames k).filter new := by
      intro name hn
      obtain ⟨computed, hn⟩ := List.mem_filter.mp hn
      exact List.mem_filter.mpr ⟨(introduces name hn (.inl (List.mem_append_right _ computed))).annotated, hn⟩
    rw [ordered.filter_fieldNames introduces ⟨name, hn, given⟩, declaredNames, List.filter_append, List.foldl_append,
      foldl_addName_of_nodup (nodup.filter new), foldl_addName_of_subset computed]
  · have declared : (world.declaredNames k).filter new = [] :=
      List.filter_eq_nil_iff.mpr fun name known hn => some ⟨name, hn, .inl known⟩
    have given : (world.fieldNames k).filter new = [] :=
      List.filter_eq_nil_iff.mpr fun name known hn => some ⟨name, hn, .inr known⟩
    rw [declared, given]

end New

/-- Of the names that are introduced, what all classes declare has the order of the fields. -/
theorem IsOrdered.filter_declaredNames (own : world.ownFields? (world.fieldOwner c) = some fields)
    (within : world.fieldOwner c ∈ world.resolutionOrder c) :
    (gather world.declaredNames (world.resolutionOrder c).reverse).filter (world.IsIntroduced c ·) =
      (world.fieldNames (world.fieldOwner c)).filter (world.IsIntroduced c ·) := by
  have chosen : (world.resolutionOrder c).reverse.filter (· ∈ world.resolutionOrder (world.fieldOwner c)) =
      (world.resolutionOrder (world.fieldOwner c)).reverse := by
    rw [List.filter_reverse, filter_mem_of_sublist (ordered.sublist within) (ordered.nodup_order c)]
  rw [← ordered.gather_fieldNames own, ← chosen, gather_filter]
  refine filter_gather_congr fun before k after whole => ?_
  have introduces (name : Text)
      (hn : (decide (world.IsIntroduced c name) && decide (name ∉ gather world.declaredNames before)) = true)
      (known : name ∈ world.declaredNames k ∨ name ∈ world.fieldNames k) :
      k ∈ world.resolutionOrder (world.fieldOwner c) ∧ world.Introduces c k name := by
    obtain ⟨introduced, fresh⟩ : world.IsIntroduced c name ∧ name ∉ gather world.declaredNames before := by
      simpa using hn
    exact introduces_of_fresh whole introduced fresh known
  split
  · exact ordered.foldl_declaredNames fun name hn known => (introduces name hn known).2
  · -- a class that does not give its fields introduces nothing
    rename_i apart
    have none : (world.declaredNames k).filter (fun name => decide (world.IsIntroduced c name) &&
        decide (name ∉ gather world.declaredNames before)) = [] :=
      List.filter_eq_nil_iff.mpr fun name known hn => apart (decide_eq_true (introduces name hn (.inl known)).1)
    rw [none, List.filter_nil]

end Introduced

end Specimen.World
