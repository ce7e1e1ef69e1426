import Specimen.Proofs.Loading.Module
import Specimen.Proofs.Reflection.Hints
import Specimen.Proofs.Reflection.Members

/-! Classes with some of their annotations removed. A member whose annotation means something by itself is
the same where others are removed, whether those can be evaluated or not. -/
namespace Specimen.World
variable {world : World} {c k : ClassRef} {keep : ClassRef → Text → Bool}
  {visibility : Visibility} {name : Text} {written d : Referent}

section Keeping
variable (world keep c)

@[simp] theorem resolutionOrder_keeping :
    (world.keeping keep).resolutionOrder c = world.resolutionOrder c :=
  eq_keeping world keep (f := (·.resolutionOrder c)) fun world => world.resolutionOrder_bare c

@[simp] theorem label_keeping : (world.keeping keep).label c = world.label c :=
  eq_keeping world keep (f := (·.label c)) fun world => world.label_bare c

@[simp] theorem isBuiltin_keeping : (world.keeping keep).isBuiltin c = world.isBuiltin c :=
  eq_keeping world keep (f := (·.isBuiltin c)) fun world => world.isBuiltin_bare c

@[simp] theorem isUnchecked_keeping : (world.keeping keep).isUnchecked c = world.isUnchecked c :=
  eq_keeping world keep (f := (·.isUnchecked c)) fun world => world.isUnchecked_bare c

@[simp] theorem fields_keeping : (world.keeping keep).fields c = world.fields c :=
  eq_keeping world keep (f := (·.fields c)) fun world => world.fields_bare c

@[simp] theorem isComputed_keeping (name : Text) :
    (world.keeping keep).isComputed c name = world.isComputed c name :=
  eq_keeping world keep (f := fun world => world.isComputed c name) fun world => by simp [isComputed]

@[simp] theorem isShown_keeping (visibility : Visibility) (declaring : ClassRef) (name : Text)
    (written : Referent) (metadata : List (Data × Data)) :
    (world.keeping keep).isShown visibility c declaring name written metadata =
      world.isShown visibility c declaring name written metadata :=
  eq_keeping world keep (f := fun world => world.isShown visibility c declaring name written metadata)
    fun world => by simp [isShown, isVisible.eq_def]

@[simp] theorem evaluate_moduleFirst_keeping (expr : TypeExpr) :
    ((world.keeping keep).moduleFirst c).evaluate expr = (world.moduleFirst c).evaluate expr :=
  eq_keeping world keep (f := fun world => (world.moduleFirst c).evaluate expr) fun world => by
    rw [moduleFirst_bare, Environment.evaluate_bare]
    rfl

@[simp] theorem evaluate_classFirst_keeping (expr : TypeExpr) :
    ((world.keeping keep).classFirst c).evaluate expr = (world.classFirst c).evaluate expr :=
  eq_keeping world keep (f := fun world => (world.classFirst c).evaluate expr) fun world => by
    rw [classFirst_bare, Environment.evaluate_bare]
    rfl

private theorem entries_keeping : ((world.keeping keep).ownAnnotations c).entries =
    (world.ownAnnotations c).entries.filter fun entry => keep c entry.1 := by
  rw [ownAnnotations_keeping]
  cases world.ownAnnotations c <;> rfl

end Keeping

section Kept

theorem IsOrdinary.keeping (h : world.IsOrdinary k) : (world.keeping keep).IsOrdinary k where
  label := by
    rw [label_keeping]
    exact h.label
  outside hb := by
    rw [entries_keeping, h.outside (isBuiltin_keeping world k keep ▸ hb)]
    rfl
  nodup := by
    rw [entries_keeping]
    exact h.nodup.sublist (List.filter_sublist.map _)

theorem IsMeaning.keeping (h : world.IsMeaning k written d) :
    (world.keeping keep).IsMeaning k written d := by
  have settled := eq_keeping world keep (f := fun world => Referent.IsSettled world d) fun world =>
    propext (Referent.isSettled_bare world d)
  have accepted := eq_keeping world keep (f := fun world => Referent.accept world true d) fun world =>
    Referent.accept_bare world true d
  cases h with
  | written own given => exact .written (settled ▸ own) given
  | quoted own taken moduleFirst classFirst =>
    exact .quoted (settled ▸ own) (accepted ▸ taken) (by rwa [evaluate_moduleFirst_keeping])
      (by rwa [evaluate_classFirst_keeping])

/-- The annotation of a name that is kept. -/
private theorem ownAnnotation?_keeping (ordinary : world.IsOrdinary k) (hkeep : keep k name = true) :
    (world.keeping keep).ownAnnotation? k name = world.ownAnnotation? k name := by
  rw [ordinary.keeping.ownAnnotation?_eq, ordinary.ownAnnotation?_eq, entries_keeping,
    lookup_filter fun _ => hkeep]

/-- What is not declared is not declared where annotations are removed. -/
private theorem declares_keeping (ordinary : world.IsOrdinary k) (h : world.declares name k = false) :
    (world.keeping keep).declares name k = false := by
  have out := ordinary.notMem_names (ownAnnotation?_eq_none h)
  have none : (world.keeping keep).ownAnnotation? k name = none := by
    rw [ordinary.keeping.ownAnnotation?_eq, entries_keeping, lookup_eq_none]
    exact fun hin => out ((List.filter_sublist.map _).subset hin)
  have plain := (isComputed_keeping world k keep name).trans (Bool.or_eq_false_iff.mp h).2
  exact Bool.or_eq_false_iff.mpr ⟨by rw [none]; rfl, plain⟩

/-- A class with a kept annotation declares the name as before. -/
private theorem declaringClass_keeping (ordinary : ∀ j ∈ world.resolutionOrder c, world.IsOrdinary j)
    (own : world.ownAnnotation? (world.declaringClass c name) name = some written)
    (hkeep : keep (world.declaringClass c name) name = true) :
    (world.keeping keep).declaringClass c name = world.declaringClass c name := by
  obtain ⟨nearer, farther, order, near⟩ := exists_order own
  have hk : world.IsOrdinary (world.declaringClass c name) :=
    ordinary _ (order ▸ List.mem_append_right _ List.mem_cons_self)
  refine declaringClass_eq ((resolutionOrder_keeping world c keep).trans order) (fun j hj => ?_) ?_
  · exact declares_keeping (ordinary j (order ▸ List.mem_append_left _ hj)) (near j hj)
  · simp [declares, ownAnnotation?_keeping hk hkeep, own]

end Kept

section Candidates
variable {memory middle : Memory} {hints : Bindings}

/-- The type of an annotated name that is a candidate for a member. -/
def annotatedType (world : World) (c : ClassRef) (hints : Bindings) (name : Text) : Referent :=
  ((List.lookup name hints).or (world.ownAnnotation? (world.declaringClass c name) name)).getD .any

theorem annotatedType_of_hint (h : Gives (world.hints c) memory hints middle)
    (own : world.ownAnnotation? (world.declaringClass c name) name = some written)
    (hint : world.isUnchecked c = false → List.lookup name hints = some d) :
    world.annotatedType c hints name = if world.isUnchecked c then written else d := by
  cases hu : world.isUnchecked c with
  | false => rw [annotatedType, hint hu]; rfl
  | true =>
    rw [World.hints, hu] at h
    rw [annotatedType, (Gives.pure h).1, own]
    rfl

/-- The type of a member whose annotation means something by itself depends on nothing else. -/
private theorem IsMeaning.annotatedType_eq
    (meaning : world.IsMeaning (world.declaringClass c name) written d)
    (ordinary : ∀ j ∈ world.resolutionOrder c, world.IsOrdinary j)
    (h : Gives (world.hints c) memory hints middle) (start : memory.IsFaithful)
    (own : world.ownAnnotation? (world.declaringClass c name) name = some written) :
    world.annotatedType c hints name = if world.isUnchecked c then written else d := by
  obtain ⟨nearer, farther, order, near⟩ := exists_order own
  exact annotatedType_of_hint h own fun checked =>
    meaning.hint_eq ordinary checked h start order (fun j hj => ownAnnotation?_eq_none (near j hj)) own

private theorem IsUnresolvable.annotatedType_eq {expr : TypeExpr}
    (unresolvable : world.IsUnresolvable (world.declaringClass c name) expr)
    (ordinary : ∀ j ∈ world.resolutionOrder c, world.IsOrdinary j)
    (h : Gives (world.hints c) memory hints middle) (start : memory.IsFaithful)
    (own : world.ownAnnotation? (world.declaringClass c name) name = some (.text expr)) :
    world.annotatedType c hints name = .text expr := by
  obtain ⟨nearer, farther, order, near⟩ := exists_order own
  exact (annotatedType_of_hint h own fun checked => unresolvable.hint_eq ordinary checked h start order
    (fun j hj => ownAnnotation?_eq_none (near j hj)) own).trans (ite_self _)

end Candidates

section Existence
variable {memory memory' : Memory} {classes : List ClassRef}

/-- Annotation by annotation, hints are always found. -/
private theorem exists_hintsAlone (ordinary : ∀ k ∈ classes, world.IsOrdinary k)
    (visible : ∀ k ∈ classes, ∃ entries, world.visibleAnnotations k = .ok entries)
    (hints : Bindings) (memory : Memory) :
    ∃ found after, Gives (world.hintsAlone hints classes) memory found after := by
  induction classes generalizing hints memory with
  | nil => exact ⟨hints, memory, rfl⟩
  | cons k rest ih =>
    obtain ⟨entries, hentries⟩ := visible k List.mem_cons_self
    have checked := (ordinary k List.mem_cons_self).checkLabel_eq
    obtain ⟨found, after, gives⟩ := ih (fun other ho => ordinary other (List.mem_cons_of_mem _ ho))
      (fun other ho => visible other (List.mem_cons_of_mem _ ho))
      ((world.addAlone k hints entries).run memory).1 ((world.addAlone k hints entries).run memory).2
    refine ⟨found, after, (run_bind (gives_lift checked memory)).trans ?_⟩
    refine (run_bind (gives_lift hentries memory)).trans ?_
    exact (run_bind (gives_state (world.addAlone k hints entries) memory)).trans gives

private theorem exists_hints (ordinary : ∀ k ∈ world.resolutionOrder c, world.IsOrdinary k)
    (visible : ∀ k ∈ world.resolutionOrder c, ∃ entries, world.visibleAnnotations k = .ok entries)
    (memory : Memory) : ∃ hints after, Gives (world.hints c) memory hints after := by
  cases hu : world.isUnchecked c with
  | true =>
    rw [World.hints, hu]
    exact ⟨[], memory, rfl⟩
  | false =>
    rw [World.hints, hu, if_neg Bool.false_ne_true]
    cases hf : (world.followedHints [] (world.resolutionOrder c).reverse).run.run memory with
    | mk outcome middle =>
      cases outcome with
      | ok hints => exact ⟨hints, middle, run_tryCatch hf⟩
      | error trouble =>
        obtain ⟨hints, after, gives⟩ := exists_hintsAlone
          (fun k hk => ordinary k (List.mem_reverse.mp hk)) (fun k hk => visible k (List.mem_reverse.mp hk))
          [] middle
        exact ⟨hints, after, (run_tryCatch_error hf).trans gives⟩

private theorem exists_label (ordinary : ∀ k ∈ world.resolutionOrder c, world.IsOrdinary k) (name : Text) :
    (∃ module, world.label (world.declaringClass c name) = .text module) ∧
      ∃ module, world.label c = .text module := by
  have own : ∃ module, world.label c = .text module := by
    cases c with
    | standard s => exact ⟨_, rfl⟩
    | declared index => exact (ordinary _ List.mem_cons_self).label
  refine ⟨?_, own⟩
  rw [declaringClass]
  cases hf : (world.resolutionOrder c).find? (world.declares name) with
  | none => exact own
  | some k => exact (ordinary k (List.mem_of_find?_eq_some hf)).label

/-- Whether a candidate is shown can always be told. -/
private theorem exists_shows (ordinary : ∀ k ∈ world.resolutionOrder c, world.IsOrdinary k)
    (visibility : Visibility) (fields : List DataField) (name : Text) (written : Referent) :
    ∃ shown, world.shows visibility c fields name written = .ok shown := by
  obtain ⟨⟨declaring, hdeclaring⟩, reflected, hreflected⟩ := exists_label ordinary name
  have related : ∃ b, world.isRelated c (world.declaringClass c name) = .ok b := by
    rw [isRelated, rootPackage, rootPackage, hdeclaring, hreflected]
    exact ⟨_, rfl⟩
  have visible : ∃ b, world.isVisible visibility c (world.declaringClass c name) = .ok b := by
    rw [isVisible.eq_def]
    split
    · exact ⟨_, rfl⟩
    · cases visibility with
      | declaredOnly => exact related
      | resolvedDynamic => exact ⟨_, rfl⟩
  obtain ⟨b, hb⟩ := visible
  rw [shows, isShown, hb]
  cases name.startsWith "_" with
  | false => exact ⟨_, rfl⟩
  | true => exact ⟨_, rfl⟩

private theorem visibleAnnotations_keeping (ordinary : world.IsOrdinary k) {entries : Bindings}
    (h : world.visibleAnnotations k = .ok entries) :
    ∃ others, (world.keeping keep).visibleAnnotations k = .ok others := by
  rw [visibleAnnotations, ordinary.checkLabel_eq] at h
  rw [visibleAnnotations, ordinary.keeping.checkLabel_eq, isBuiltin_keeping, label_keeping,
    ownAnnotations_keeping]
  cases hb : world.isBuiltin k with
  | true => exact ⟨[], rfl⟩
  | false =>
    rw [hb, if_neg Bool.false_ne_true] at h
    rw [if_neg Bool.false_ne_true]
    cases hown : world.ownAnnotations k <;> rw [hown] at h <;>
      cases ht : (world.label k).isTrue <;> rw [ht] at h <;> cases h <;> exact ⟨_, rfl⟩

end Existence

section Reflection
variable {memory memory' after : Memory} {members : List ReflectedMember}

/-- A member is read from an annotation of the class that declares it. -/
def IsAnnotated (world : World) (member : ReflectedMember) (written : Referent) : Prop :=
  world.ownAnnotation? member.declaring member.name = some written ∧
    world.isComputed member.declaring member.name = false

/-- A member that is read from an annotation is made from the type of its name. -/
private theorem Reflects.exists_name {hints : Bindings} {middle : Memory} {fields : List DataField}
    {names : List Text} (h : Reflects world visibility c memory members hints middle fields names)
    {member : ReflectedMember} (hm : member ∈ members) (annotated : world.IsAnnotated member written) :
    ∃ name, world.shows visibility c fields name (world.annotatedType c hints name) = .ok true ∧
      member = world.memberFrom c fields name (world.annotatedType c hints name) := by
  obtain ⟨⟨name, type⟩, he, hshown, rfl⟩ := (mem_membersOf h.shown).mp hm
  have typed : type = world.annotatedType c hints name :=
    (memberTypes_eq world c hints names middle).2 name type he annotated.2
  exact ⟨name, typed ▸ hshown, typed ▸ rfl⟩

theorem Reflects.mem {hints : Bindings} {middle : Memory} {fields : List DataField} {names : List Text}
    (h : Reflects world visibility c memory members hints middle fields names) (hname : name ∈ names)
    (annotated : world.isComputed (world.declaringClass c name) name = false)
    (shown : world.shows visibility c fields name (world.annotatedType c hints name) = .ok true) :
    world.memberFrom c fields name (world.annotatedType c hints name) ∈ members := by
  obtain ⟨hnames, htypes⟩ := memberTypes_eq world c hints names middle
  rw [← hnames] at hname
  obtain ⟨⟨_, type⟩, he, rfl⟩ := List.mem_map.mp hname
  have typed : type = world.annotatedType c hints _ := htypes _ type he annotated
  exact (mem_membersOf h.shown).mpr ⟨_, he, typed ▸ shown, typed ▸ rfl⟩

theorem Reflects.visible {hints : Bindings} {middle : Memory} {fields : List DataField} {names : List Text}
    (h : Reflects world visibility c memory members hints middle fields names) :
    ∀ k ∈ world.resolutionOrder c, ∃ entries, world.visibleAnnotations k = .ok entries :=
  fun k hk => visible_of_addMemberNames h.named k (List.mem_reverse.mpr hk)

/-- The name of an annotation is among those of the members. -/
theorem Reflects.mem_names {hints : Bindings} {middle : Memory} {fields : List DataField}
    {names : List Text} (h : Reflects world visibility c memory members hints middle fields names)
    (hk : k ∈ world.resolutionOrder c) (ordinary : world.IsOrdinary k)
    (own : world.ownAnnotation? k name = some written) : name ∈ names := by
  obtain ⟨entries, visible⟩ := h.visible k hk
  refine (mem_addMemberNames h.named).mpr (.inr ⟨k, List.mem_reverse.mpr hk, entries, visible, .inl ?_⟩)
  rw [ordinary.visibleAnnotations_eq visible]
  exact List.mem_map.mpr ⟨_, mem_of_lookup ((ordinary.ownAnnotation?_eq name).symm.trans own), rfl⟩

/-- Where a class can be reflected, it can be with annotations removed. -/
private theorem Reflects.exists_keeping {hints : Bindings} {middle : Memory} {fields : List DataField}
    {names : List Text} (h : Reflects world visibility c memory members hints middle fields names)
    (ordinary : ∀ k ∈ world.resolutionOrder c, world.IsOrdinary k) (keep : ClassRef → Text → Bool)
    (memory' : Memory) : ∃ members' hints' middle' names',
      Reflects (world.keeping keep) visibility c memory' members' hints' middle' fields names' := by
  have order : ∀ k ∈ (world.keeping keep).resolutionOrder c, k ∈ world.resolutionOrder c := fun k hk =>
    resolutionOrder_keeping world c keep ▸ hk
  have ordinary' : ∀ k ∈ (world.keeping keep).resolutionOrder c, (world.keeping keep).IsOrdinary k :=
    fun k hk => (ordinary k (order k hk)).keeping
  have visible : ∀ k ∈ (world.keeping keep).resolutionOrder c, ∃ entries,
      (world.keeping keep).visibleAnnotations k = .ok entries := fun k hk => by
    obtain ⟨entries, visible⟩ := h.visible k (order k hk)
    exact visibleAnnotations_keeping (ordinary k (order k hk)) visible
  obtain ⟨hints', middle', hinted⟩ := exists_hints ordinary' visible memory'
  obtain ⟨names', named⟩ := exists_addMemberNames (fun k hk => visible k (List.mem_reverse.mp hk)) []
  obtain ⟨members', shown⟩ : ∃ members', (world.keeping keep).membersOf visibility c fields
      (((world.keeping keep).memberTypes c hints' names').run middle').1 = .ok members' :=
    exists_membersOf fun entry _ => exists_shows ordinary' visibility fields entry.1 entry.2
  exact ⟨members', hints', middle', names', hinted, (fields_keeping world c keep).trans h.read, named, shown⟩

/-- A member whose annotation is kept and means something by itself is as it was. -/
theorem Reflects.mem_keeping {hints hints' : Bindings} {middle middle' : Memory} {fields : List DataField}
    {names names' : List Text} {members' : List ReflectedMember}
    (ordinary : ∀ k ∈ world.resolutionOrder c, world.IsOrdinary k)
    (start : memory.IsFaithful) (start' : memory'.IsFaithful)
    (h : Reflects world visibility c memory members hints middle fields names)
    (h' : Reflects (world.keeping keep) visibility c memory' members' hints' middle' fields names')
    {member : ReflectedMember} (hm : member ∈ members) (annotated : world.IsAnnotated member written)
    (hkeep : keep member.declaring member.name = true)
    (meaning : world.IsMeaning member.declaring written d) : member ∈ members' := by
  obtain ⟨name, hshown, rfl⟩ := h.exists_name hm annotated
  have own : world.ownAnnotation? (world.declaringClass c name) name = some written := annotated.1
  replace hkeep : keep (world.declaringClass c name) name = true := hkeep
  replace meaning : world.IsMeaning (world.declaringClass c name) written d := meaning
  obtain ⟨nearer, farther, order, -⟩ := exists_order own
  have hk : world.declaringClass c name ∈ world.resolutionOrder c :=
    order ▸ List.mem_append_right _ List.mem_cons_self
  -- the same class declares the name in both, and its annotation has the same meaning
  have same : (world.keeping keep).declaringClass c name = world.declaringClass c name :=
    declaringClass_keeping ordinary own hkeep
  have own' : (world.keeping keep).ownAnnotation? (world.declaringClass c name) name = some written := by
    rw [ownAnnotation?_keeping (ordinary _ hk) hkeep, own]
  have ordinary' : ∀ k ∈ (world.keeping keep).resolutionOrder c, (world.keeping keep).IsOrdinary k :=
    fun k hk => (ordinary k (resolutionOrder_keeping world c keep ▸ hk)).keeping
  have type := meaning.annotatedType_eq ordinary h.hinted start own
  have meaning' : (world.keeping keep).IsMeaning ((world.keeping keep).declaringClass c name) written
      d := same ▸ meaning.keeping
  have type' := meaning'.annotatedType_eq ordinary' h'.hinted start' (same ▸ own')
  rw [isUnchecked_keeping, ← type] at type'
  have hname : name ∈ names' := h'.mem_names (resolutionOrder_keeping world c keep ▸ hk)
    (ordinary _ hk).keeping own'
  have hm' := h'.mem hname (by rw [same, isComputed_keeping]; exact annotated.2)
    (by rw [shows, same, isShown_keeping, type']; exact hshown)
  rw [memberFrom, same, type'] at hm'
  exact hm'

/-- A member whose annotation is a string that denotes nothing is untyped. -/
theorem Reflects.untyped {hints : Bindings} {middle : Memory} {fields : List DataField} {names : List Text}
    (ordinary : ∀ k ∈ world.resolutionOrder c, world.IsOrdinary k) (start : memory.IsFaithful)
    (h : Reflects world visibility c memory members hints middle fields names) {member : ReflectedMember}
    (hm : member ∈ members) {expr : TypeExpr} (annotated : world.IsAnnotated member (.text expr))
    (unresolvable : world.IsUnresolvable member.declaring expr) :
    (member.type, member.isCollection, member.optional) = (.any, false, false) := by
  obtain ⟨name, hshown, rfl⟩ := h.exists_name hm annotated
  have type := unresolvable.annotatedType_eq ordinary h.hinted start annotated.1
  rw [type]
  rfl

/-- With annotations removed, a class can be reflected as before, and every member whose annotation is kept
and means something by itself is as it was. A member whose annotation is a string that denotes nothing is
untyped. -/
theorem reflect_keeping (ordinary : ∀ k ∈ world.resolutionOrder c, world.IsOrdinary k)
    (start : memory.IsFaithful) (start' : memory'.IsFaithful)
    (h : Gives (world.reflect visibility c) memory members after) (keep : ClassRef → Text → Bool) :
    (∃ members' after', Gives ((world.keeping keep).reflect visibility c) memory' members' after' ∧
      ∀ member ∈ members, ∀ written d, world.IsAnnotated member written →
        keep member.declaring member.name = true → world.IsMeaning member.declaring written d →
          member ∈ members') ∧
    ∀ member ∈ members, ∀ expr, world.IsAnnotated member (.text expr) →
      world.IsUnresolvable member.declaring expr →
        (member.type, member.isCollection, member.optional) = (.any, false, false) := by
  obtain ⟨hints, middle, fields, names, found⟩ := exists_reflects h
  constructor
  · obtain ⟨members', hints', middle', names', found'⟩ := found.exists_keeping ordinary keep memory'
    obtain ⟨after', gives⟩ := found'.gives
    exact ⟨members', after', gives, fun member hm written d annotated hkeep meaning =>
      found.mem_keeping ordinary start start' found' hm annotated hkeep meaning⟩
  · intro member hm expr annotated unresolvable
    exact found.untyped ordinary start hm annotated unresolvable

end Reflection

/-- A class below one with a first item, with items and an owner that asks for arguments of a class that takes
none, all of them in quotes. -/
def orders : World where
  classes :=
    [⟨"Item", "Item", .text "orders", "orders", [.standard .object], ⟨.standard .object, true, true⟩,
        .table [("label", .cls (.standard .str))], [], none, none⟩,
      ⟨"Record", "Record", .text "orders", "orders", [.standard .object], ⟨.standard .object, true, true⟩,
        .table [("first", .text (.name "Item"))], [], none, none⟩,
      ⟨"Order", "Order", .text "orders", "orders", [.declared 1, .standard .object],
        ⟨.standard .object, true, true⟩,
        .table [("items", .text (.subscript "typing.List" [.name "Item"])),
          ("owner", .text (.subscript "Item" [.name "Item"]))], [], none, none⟩]
  modules := [Library.complete "typing" Library.typingNames,
    ⟨"orders", [("typing", .module "typing"), ("Item", .cls (.declared 0))], true⟩]
  memory := .empty

/-- The first item and the items are as they were without the owner, who is untyped. -/
theorem reflect_keeping_orders : ∃ members after members' after',
    Gives (orders.reflect .declaredOnly (.declared 2)) .empty members after ∧
    Gives ((orders.keeping fun _ name => name != "owner").reflect .declaredOnly (.declared 2)) .empty
      members' after' ∧
    (∃ member ∈ members, member.name = "first" ∧ member ∈ members') ∧
    (∃ member ∈ members, member.name = "items" ∧ member ∈ members') ∧
    ∃ member ∈ members, member.name = "owner" ∧
      (member.type, member.isCollection, member.optional) = (.any, false, false) := by
  have shown : ((orders.reflect .declaredOnly (.declared 2)).run.run .empty).1.toOption.map
      (·.map fun member => (member.name, member.declaring)) = some [(("first" : Text), .declared 1),
        (("items" : Text), .declared 2), (("owner" : Text), .declared 2)] := by decide +kernel
  obtain ⟨members, after, reflected, found⟩ := exists_gives_of_map shown
  have ordinary : ∀ k ∈ orders.resolutionOrder (.declared 2), orders.IsOrdinary k := by decide +kernel
  have exists_member {name : Text} {k : ClassRef}
      (h : (name, k) ∈ members.map fun member => (member.name, member.declaring)) :
      ∃ member ∈ members, member.name = name ∧ member.declaring = k := by
    obtain ⟨member, hm, he⟩ := List.mem_map.mp h
    exact ⟨member, hm, congrArg Prod.fst he, congrArg Prod.snd he⟩
  obtain ⟨first, hfirst, fname, fdeclaring⟩ := exists_member (found ▸ List.mem_cons_self)
  obtain ⟨items, hitems, iname, ideclaring⟩ := exists_member (found ▸ List.mem_cons_of_mem _ List.mem_cons_self)
  obtain ⟨owner, howner, oname, odeclaring⟩ :=
    exists_member (found ▸ List.mem_cons_of_mem _ (List.mem_cons_of_mem _ List.mem_cons_self))
  obtain ⟨⟨members', after', reflected', same⟩, untyped⟩ := reflect_keeping
    ordinary Memory.isFaithful_empty Memory.isFaithful_empty reflected
    fun _ name => name != "owner"
  refine ⟨members, after, members', after', reflected, reflected', ⟨first, hfirst, fname, ?_⟩,
    ⟨items, hitems, iname, ?_⟩, ⟨owner, howner, oname, ?_⟩⟩
  · refine same first hfirst (.text (.name "Item")) (.cls (.declared 0)) ?_ ?_ ?_
    · rw [IsAnnotated, fname, fdeclaring]
      exact ⟨rfl, rfl⟩
    · rw [fname]
      rfl
    · rw [fdeclaring]
      exact isMeaning_of_denoted rfl rfl rfl rfl
  · refine same items hitems (.text (.subscript "typing.List" [.name "Item"]))
      (.generic false (.standard .list) [.cls (.declared 0)]) ?_ ?_ ?_
    · rw [IsAnnotated, iname, ideclaring]
      exact ⟨rfl, rfl⟩
    · rw [iname]
      rfl
    · rw [ideclaring]
      exact isMeaning_of_denoted rfl rfl rfl rfl
  · refine untyped owner howner (.subscript "Item" [.name "Item"]) ?_ ?_
    · rw [IsAnnotated, oname, odeclaring]
      exact ⟨rfl, rfl⟩
    · rw [odeclaring]
      exact isUnresolvable_of_isUndefined rfl rfl

/-- A class with a list of items that are in quotes, and an owner that there is not. -/
def nested : World := afterLoading "nested"
  [annotating "Item" [] "label" (.name "str"),
    ⟨"Order", false, [], [.field "items" (.subscript "typing.List" [.quoted (.name "Item")]) .absent,
      .field "owner" (.quoted (.name "Missing")) .absent]⟩]

/-- The names of members, each with the class that declares it and the class that is its type. -/
def shownClasses (members : List ReflectedMember) : List (Text × ClassRef × Option ClassRef) :=
  members.map fun member =>
    (member.name, member.declaring, match member.type with | .cls c => some c | _ => none)

/-- A string inside an annotation is followed without the owner, and stays where the owner is. -/
theorem reflect_keeping_nested : ∃ members after members' after',
    Gives (nested.reflect .declaredOnly (.declared 1)) nested.memory members after ∧
    Gives ((nested.keeping fun _ name => name != "owner").reflect .declaredOnly (.declared 1))
      nested.memory members' after' ∧
    ∃ member ∈ members, member.name = "items" ∧
      (∃ written d left, nested.IsAnnotated member written ∧
        Gives ((nested.moduleFirst member.declaring).followWhole false true written) nested.memory d left) ∧
      ∀ other ∈ members', other.name = "items" → other.type ≠ member.type := by
  have both : ((nested.reflect .declaredOnly (.declared 1)).run.run nested.memory).1.toOption.map
      shownClasses = some [(("items" : Text), .declared 1, none),
        (("owner" : Text), .declared 1, some (.standard .any))] := by decide +kernel
  have alone : (((nested.keeping fun _ name => name != "owner").reflect .declaredOnly
      (.declared 1)).run.run nested.memory).1.toOption.map shownClasses =
        some [(("items" : Text), .declared 1, some (.declared 0))] := by decide +kernel
  have evaluated : (nested.ownAnnotation? (.declared 1) "items").map (fun written =>
      (((nested.moduleFirst (.declared 1)).followWhole false true written).run.run
        nested.memory).1.toOption.map fun _ => ()) = some (some ()) := by decide +kernel
  have plain : nested.isComputed (.declared 1) "items" = false := by decide +kernel
  obtain ⟨members, after, reflected, found⟩ := exists_gives_of_map both
  obtain ⟨members', after', reflected', found'⟩ := exists_gives_of_map alone
  obtain ⟨written, own, gives⟩ := Option.map_eq_some_iff.mp evaluated
  obtain ⟨d, left, followed, -⟩ := exists_gives_of_map gives
  obtain ⟨items, hitems, he⟩ := List.mem_map.mp (show _ ∈ shownClasses members from found ▸ List.mem_cons_self)
  obtain ⟨name, declaring, type⟩ : items.name = "items" ∧ items.declaring = .declared 1 ∧
      (match items.type with | .cls c => some c | _ => none) = none := by
    simpa only [Prod.mk.injEq] using he
  refine ⟨members, after, members', after', reflected, reflected', items, hitems, name,
    ⟨written, d, left, ?_, ?_⟩, fun other ho _ same => ?_⟩
  · rw [IsAnnotated, name, declaring]
    exact ⟨own, plain⟩
  · rw [declaring]
    exact followed
  · have shown : _ ∈ shownClasses members' := List.mem_map.mpr ⟨other, ho, rfl⟩
    rw [found', List.mem_singleton, Prod.mk.injEq, Prod.mk.injEq, same, type] at shown
    cases shown.2.2

end Specimen.World
