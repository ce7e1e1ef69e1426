import Specimen.Proofs.Reflection.Heads
import Specimen.Proofs.Reflection.Removal

/-! Members that their annotations keep out of documents, and members that are left in them. -/
namespace Specimen.World
variable {world : World} {c k : ClassRef} {visibility : Visibility} {name : Text} {written d : Referent}
  {memory middle after : Memory} {hints : Bindings} {names : List Text} {fields : List DataField}
  {members : List ReflectedMember}

/-- A name is annotated by the nearest class that declares it, which does not compute it. -/
structure AnnotatedAs (world : World) (c : ClassRef) (name : Text) (written : Referent) : Prop where
  own : world.ownAnnotation? (world.declaringClass c name) name = some written
  plain : world.isComputed (world.declaringClass c name) name = false

theorem AnnotatedAs.unique {other : Referent} (h : world.AnnotatedAs c name written)
    (h' : world.AnnotatedAs c name other) : written = other :=
  Option.some.inj (h.own.symm.trans h'.own)

/-- A name that is annotated is not computed. -/
private theorem AnnotatedAs.not_computed {type : Option Referent} {readable : Bool}
    (h : world.AnnotatedAs c name written) :
    world.ownAttribute? (world.declaringClass c name) name ≠ some (.property type readable) := fun own => by
  have plain := h.plain
  rw [isComputed, own] at plain
  cases plain

/-- What reflection may find for the type of a name: the annotation itself where annotations are not evaluated;
what comes of it together with all others or by itself; and for a computed attribute, its result type, or any
type. -/
inductive Finds (world : World) (c : ClassRef) (name : Text) : Referent → Prop
  | untouched {written : Referent} (annotated : world.AnnotatedAs c name written)
    (unchecked : world.isUnchecked c = true) : Finds world c name written
  | followed {written d : Referent} {before left : Memory} (annotated : world.AnnotatedAs c name written)
    (start : before.IsSound)
    (gives : Gives ((world.moduleFirst (world.declaringClass c name)).followWhole false true written)
      before d left) : Finds world c name d
  | alone {written d : Referent} {before left : Memory} (annotated : world.AnnotatedAs c name written)
    (start : before.IsSound) (checked : world.isUnchecked c = false)
    (gives : Gives (liftM (evaluateAlone (world.classFirst (world.declaringClass c name)) written) :
      Evaluator Referent) before d left) : Finds world c name d
  | computed {written d : Referent} {before left : Memory}
    (own : world.ownAttribute? (world.declaringClass c name) name = some (.property (some written) true))
    (start : before.IsSound)
    (gives : Gives ((world.moduleOnly (world.declaringClass c name)).followWhole true false written)
      before d left) : Finds world c name d
  | failed {written : Referent} {before left : Memory} {trouble : Trouble}
    (own : world.ownAttribute? (world.declaringClass c name) name = some (.property (some written) true))
    (start : before.IsSound)
    (fails : ((world.moduleOnly (world.declaringClass c name)).followWhole true false written).run.run before =
      (.error trouble, left)) : Finds world c name .any
  | untyped {type : Option Referent} {readable : Bool}
    (own : world.ownAttribute? (world.declaringClass c name) name = some (.property type readable))
    (untyped : type = none ∨ readable = false) : Finds world c name .any

section Finding

private theorem mem_memberTypes {holds : Memory → Prop} [Memory.Invariant holds] (start : holds memory)
    (h : (name, d) ∈ ((world.memberTypes c hints names).run memory).1) :
    ∃ before, holds before ∧
      d = ((world.memberType hints (world.declaringClass c name) name).run before).1 := by
  induction names generalizing memory with
  | nil => cases h
  | cons first rest ih =>
    rcases List.mem_cons.mp h with h | h
    · obtain ⟨rfl, rfl⟩ := Prod.mk.inj h
      exact ⟨memory, start, rfl⟩
    · exact ih (holds_memberType world hints (world.declaringClass c first) first start) h

/-- A computed attribute has its result type, or any type. -/
private theorem finds_resultType {type : Option Referent} {readable : Bool} (start : memory.IsSound)
    (own : world.ownAttribute? (world.declaringClass c name) name = some (.property type readable)) :
    world.Finds c name ((world.resultType (world.declaringClass c name) type readable).run memory).1 := by
  rw [resultType.eq_def]
  split
  · rename_i written
    cases hstep : ((world.moduleOnly (world.declaringClass c name)).followWhole true false written).run.run memory with
    | mk outcome left =>
      rw [StateT.run_bind, hstep]
      cases outcome with
      | ok d => exact .computed own start hstep
      | error trouble => exact .failed own start hstep
  · rename_i untyped
    refine .untyped own ?_
    cases type with
    | none => exact .inl rfl
    | some written =>
      cases readable with
      | false => exact .inr rfl
      | true => exact absurd rfl (untyped written rfl)

private theorem exists_property (computed : world.isComputed k name = true) :
    ∃ type readable, world.ownAttribute? k name = some (.property type readable) := by
  cases own : world.ownAttribute? k name with
  | none => simp [isComputed, own] at computed
  | some found =>
    cases found with
    | property type readable => exact ⟨type, readable, rfl⟩
    | plain => simp [isComputed, own, ClassAttribute.isProperty] at computed
    | specified => simp [isComputed, own, ClassAttribute.isProperty] at computed

/-- The type that a name is reflected with is found for it. -/
private theorem finds_of_mem (ordinary : ∀ j ∈ world.resolutionOrder c, world.IsOrdinary j)
    (hinted : Gives (world.hints c) memory hints middle) (start : memory.IsSound)
    (declared : world.declares name (world.declaringClass c name) = true)
    (h : (name, d) ∈ ((world.memberTypes c hints names).run middle).1) : world.Finds c name d := by
  cases computed : world.isComputed (world.declaringClass c name) name with
  | true =>
    obtain ⟨before, hbefore, rfl⟩ := mem_memberTypes ((keeps_hints world c).of_gives start hinted) h
    obtain ⟨type, readable, own⟩ := exists_property computed
    rw [memberType.eq_def, own]
    exact finds_resultType hbefore own
  | false =>
    rw [declares, show ((world.ownAttribute? _ name).map (·.isProperty)).getD false = _ from computed,
      Bool.or_false, Option.isSome_iff_exists] at declared
    obtain ⟨written, own⟩ := declared
    obtain ⟨nearer, farther, order, near⟩ := exists_order own
    have type : d = world.annotatedType c hints name :=
      (memberTypes_eq world c hints names middle).2 name d h computed
    cases hu : world.isUnchecked c with
    | true =>
      have hint : world.isUnchecked c = false → List.lookup name hints = some d := fun checked => by
        rw [hu] at checked
        cases checked
      rw [annotatedType_of_hint hinted own hint, hu] at type
      exact type ▸ .untouched ⟨own, computed⟩ hu
    | false =>
      obtain ⟨before, found, left, hbefore, hvalue, way⟩ := exists_hint ordinary hu hinted start order
        (fun j hj => ownAnnotation?_eq_none (near j hj)) own
      rw [annotatedType_of_hint hinted own fun _ => hvalue, hu] at type
      rcases way with way | way
      · exact type ▸ .followed ⟨own, computed⟩ hbefore way
      · exact type ▸ .alone ⟨own, computed⟩ hbefore hu way

end Finding

/-- What keeps a name out of documents: an annotation that is a marked type; a string with a mark at its head
that can be evaluated by itself, or begins with the name of class variables; or for a computed attribute, a
marked result type that can be evaluated. -/
inductive Hides (world : World) (c : ClassRef) (name : Text) : Prop
  | typed {written : Referent} (annotated : world.AnnotatedAs c name written) (marked : written.isMarked = true)
  | quoted {expr : TypeExpr} (annotated : world.AnnotatedAs c name (.text expr))
    (moduleFirst : (world.moduleFirst (world.declaringClass c name)).isMarking expr = true)
    (classFirst : (world.classFirst (world.declaringClass c name)).isMarking expr = true)
    (told : (Referent.text expr).isStatic = true ∨
      world.isUnchecked c = false ∧ (world.classFirst (world.declaringClass c name)).Evaluates expr)
  | computed {written : Referent}
    (own : world.ownAttribute? (world.declaringClass c name) name = some (.property (some written) true))
    (marked : written.isMarked = true ∨
      ∃ expr, written = .text expr ∧ (world.moduleOnly (world.declaringClass c name)).isMarking expr = true)
    (evaluates : ∀ memory, memory.IsSound → ∃ d after,
      Gives ((world.moduleOnly (world.declaringClass c name)).followWhole true false written) memory d after)

/-- What leaves a name in documents: an annotation that does once the strings in it are followed; a string that
can only be evaluated to such a type, and is evaluated or does not begin with the name of class variables; or
for a computed attribute, such a result type or none. -/
inductive Admits (world : World) (c : ClassRef) (name : Text) : Prop
  | typed {written : Referent} (annotated : world.AnnotatedAs c name written)
    (type : ∀ expr, written ≠ .text expr)
    (opens : (world.moduleFirst (world.declaringClass c name)).Opens written)
  | quoted {expr : TypeExpr} (annotated : world.AnnotatedAs c name (.text expr))
    (moduleFirst : (world.moduleFirst (world.declaringClass c name)).Yields expr Referent.isOpen)
    (classFirst : (world.classFirst (world.declaringClass c name)).Yields expr Referent.isOpen)
    (told : (Referent.text expr).isStatic = false ∨
      world.isUnchecked c = false ∧ (world.classFirst (world.declaringClass c name)).Evaluates expr)
  | computed {type : Option Referent} {readable : Bool}
    (own : world.ownAttribute? (world.declaringClass c name) name = some (.property type readable))
    (opens : ∀ written, type = some written → written.isOpen = true ∨ ∃ expr, written = .text expr ∧
      (world.moduleOnly (world.declaringClass c name)).Yields expr Referent.isOpen)

section Telling

/-- An annotation that is no string is itself by itself. -/
private theorem eq_of_evaluateAlone {env : Environment} (typed : ∀ expr, written ≠ .text expr)
    (h : Gives (liftM (evaluateAlone env written) : Evaluator Referent) memory d after) : d = written := by
  rw [evaluateAlone.eq_def] at h
  split at h
  · exact absurd rfl (typed _)
  · exact (Gives.pure h).1

/-- For an annotation that is no string itself is found, or what comes of following the strings in it. -/
private theorem Finds.of_typed (h : world.Finds c name d) (annotated : world.AnnotatedAs c name written)
    (typed : ∀ expr, written ≠ .text expr) : d = written ∨ ∃ before left, before.IsSound ∧
      Gives ((world.moduleFirst (world.declaringClass c name)).followWhole false true written)
        before d left := by
  cases h with
  | untouched other => exact .inl (other.unique annotated)
  | followed other start gives =>
    cases annotated.unique other
    exact .inr ⟨_, _, start, gives⟩
  | alone other start _ gives =>
    cases annotated.unique other
    exact .inl (eq_of_evaluateAlone typed gives)
  | computed own | failed own | untyped own => exact absurd own annotated.not_computed

/-- What is found for a string has a property of all that it can be evaluated to, or is the string itself, where
it was not evaluated. -/
private theorem Finds.of_quoted {p : Referent → Bool} {expr : TypeExpr} {static : Bool} (h : world.Finds c name d)
    (annotated : world.AnnotatedAs c name (.text expr)) (stays : Referent.Stays p)
    (moduleFirst : (world.moduleFirst (world.declaringClass c name)).Yields expr p)
    (classFirst : (world.classFirst (world.declaringClass c name)).Yields expr p)
    (told : (Referent.text expr).isStatic = static ∨
      world.isUnchecked c = false ∧ (world.classFirst (world.declaringClass c name)).Evaluates expr) :
    p d = true ∨ d = .text expr ∧ (Referent.text expr).isStatic = static := by
  cases h with
  | untouched other unchecked =>
    cases annotated.unique other
    rcases told with static | ⟨checked, -⟩
    · exact .inr ⟨rfl, static⟩
    · cases checked.symm.trans unchecked
  | followed other start gives =>
    cases annotated.unique other
    exact .inl (moduleFirst.of_followWhole stays start gives)
  | alone other start _ gives =>
    cases annotated.unique other
    rcases gives_evaluateAlone gives with evaluated | ⟨rfl, trouble, failed⟩
    · exact .inl (classFirst _ _ _ start evaluated)
    · rcases told with static | ⟨-, evaluates⟩
      · exact .inr ⟨rfl, static⟩
      · obtain ⟨_, _, evaluated⟩ := evaluates _ start
        cases evaluated.symm.trans failed
  | computed own | failed own | untyped own => exact absurd own annotated.not_computed

/-- For a computed attribute what comes of its result type is found; or any type, where there is none or it
cannot be evaluated. -/
private theorem Finds.of_computed {type : Option Referent} {readable : Bool} (h : world.Finds c name d)
    (own : world.ownAttribute? (world.declaringClass c name) name = some (.property type readable)) :
    (∃ written before left, type = some written ∧ before.IsSound ∧
      Gives ((world.moduleOnly (world.declaringClass c name)).followWhole true false written) before d left) ∨
    d = .any ∧ ∀ written, type = some written → readable = true → ∃ before left trouble, before.IsSound ∧
      ((world.moduleOnly (world.declaringClass c name)).followWhole true false written).run.run before =
        (.error trouble, left) := by
  cases h with
  | untouched annotated | followed annotated | alone annotated => exact absurd own annotated.not_computed
  | computed own' start gives =>
    cases own.symm.trans own'
    exact .inl ⟨_, _, _, rfl, start, gives⟩
  | failed own' start fails =>
    cases own.symm.trans own'
    exact .inr ⟨rfl, fun _ same _ => Option.some.inj same ▸ ⟨_, _, _, start, fails⟩⟩
  | untyped own' untyped =>
    cases own.symm.trans own'
    refine .inr ⟨rfl, fun _ same read => ?_⟩
    rcases untyped with none | unread
    · cases none.symm.trans same
    · cases unread.symm.trans read

theorem Finds.hides (h : world.Finds c name d) (hides : world.Hides c name) : d.hides = true := by
  cases hides with
  | typed annotated marked =>
    refine Referent.hides_of_isMarked ?_
    rcases h.of_typed annotated (Referent.ne_text_of_isMarked marked) with rfl | ⟨_, _, start, gives⟩
    · exact marked
    · exact Environment.of_followWhole Referent.stays_isMarked marked start gives
  | quoted annotated moduleFirst classFirst told =>
    rcases h.of_quoted annotated Referent.stays_isMarked (Environment.yields_isMarked moduleFirst)
      (Environment.yields_isMarked classFirst) told with marked | ⟨rfl, static⟩
    · exact Referent.hides_of_isMarked marked
    · exact Bool.or_eq_true_iff.mpr (.inl static)
  | computed own marked evaluates =>
    rcases h.of_computed own with ⟨written, _, _, ⟨⟩, start, gives⟩ | ⟨-, failing⟩
    · refine Referent.hides_of_isMarked ?_
      rcases marked with marked | ⟨expr, rfl, marking⟩
      · exact Environment.of_followWhole Referent.stays_isMarked marked start gives
      · exact (Environment.yields_isMarked marking).of_followWhole Referent.stays_isMarked start gives
    · obtain ⟨before, _, _, start, failed⟩ := failing _ rfl rfl
      obtain ⟨_, _, gives⟩ := evaluates before start
      cases gives.symm.trans failed

theorem Finds.admits (h : world.Finds c name d) (admits : world.Admits c name) : d.hides = false := by
  cases admits with
  | typed annotated type opens =>
    rcases h.of_typed annotated type with rfl | ⟨_, _, start, gives⟩
    · exact opens.hides type
    · exact opens.of_followWhole start gives
  | quoted annotated moduleFirst classFirst told =>
    rcases h.of_quoted annotated Referent.stays_isOpen moduleFirst classFirst told with opened | ⟨rfl, static⟩
    · exact Referent.hides_of_isOpen opened
    · exact Bool.or_eq_false_iff.mpr ⟨static, rfl⟩
  | computed own opens =>
    rcases h.of_computed own with ⟨written, _, _, rfl, start, gives⟩ | ⟨rfl, -⟩
    · rcases opens written rfl with opened | ⟨expr, rfl, yields⟩
      · exact Referent.hides_of_isOpen (Environment.of_followWhole Referent.stays_isOpen opened start gives)
      · exact Referent.hides_of_isOpen (yields.of_followWhole Referent.stays_isOpen start gives)
    · rfl

theorem Hides.declares (h : world.Hides c name) : world.declares name (world.declaringClass c name) = true := by
  cases h with
  | typed annotated | quoted annotated => simp [World.declares, annotated.own]
  | computed own => simp [World.declares, own, ClassAttribute.isProperty]

end Telling

section Reflection

/-- A name is shown where its class is visible and neither its type nor its metadata keep it out. -/
theorem shows_iff : world.shows visibility c fields name d = .ok true ↔ name.startsWith "_" = false ∧
    world.isVisible visibility c (world.declaringClass c name) = .ok true ∧ d.hides = false ∧
      isExcluded (metadataOf fields name) = false := by
  rw [shows, isShown]
  cases name.startsWith "_" with
  | true => simp [pure, Except.pure]
  | false =>
    cases world.isVisible visibility c (world.declaringClass c name) with
    | error trouble => simp [bind, Except.bind]
    | ok visible =>
      simp [bind, Except.bind, pure, Except.pure, Referent.hides, and_assoc]

/-- A class is the nearest one to itself. -/
private theorem declaringClass_self (h : world.declares name c = true) : world.declaringClass c name = c := by
  obtain ⟨farther, order⟩ : ∃ farther, world.resolutionOrder c = c :: farther := by
    cases c <;> exact ⟨_, rfl⟩
  exact declaringClass_eq (order.trans (List.nil_append _).symm) nofun h

private theorem mem_resolutionOrder (world : World) (c : ClassRef) : c ∈ world.resolutionOrder c := by
  cases c <;> exact List.mem_cons_self

/-- A name that a class annotates or computes is among those of the members. -/
private theorem Reflects.mem_names_of_declares
    (h : Reflects world visibility c memory members hints middle fields names)
    (hk : k ∈ world.resolutionOrder c) (ordinary : world.IsOrdinary k)
    (declared : world.declares name k = true) : name ∈ names := by
  rw [declares, Bool.or_eq_true, Option.isSome_iff_exists] at declared
  rcases declared with ⟨written, own⟩ | computed
  · exact h.mem_names hk ordinary own
  · obtain ⟨type, readable, own⟩ := exists_property computed
    obtain ⟨entries, visible⟩ := h.visible k hk
    refine (mem_addMemberNames h.named).mpr (.inr ⟨k, List.mem_reverse.mpr hk, entries, visible, .inr ?_⟩)
    exact List.mem_map.mpr ⟨_, List.mem_filter.mpr ⟨mem_of_lookup own, rfl⟩, rfl⟩

/-- A name is listed where it has been found to be shown. -/
theorem Reflects.mem_iff (h : Reflects world visibility c memory members hints middle fields names) :
    name ∈ members.map (·.name) ↔ ∃ d, (name, d) ∈ ((world.memberTypes c hints names).run middle).1 ∧
      world.shows visibility c fields name d = .ok true := by
  constructor
  · intro hin
    obtain ⟨member, hm, rfl⟩ := List.mem_map.mp hin
    obtain ⟨⟨name, d⟩, he, hshown, rfl⟩ := (mem_membersOf h.shown).mp hm
    exact ⟨d, he, hshown⟩
  · rintro ⟨d, he, hshown⟩
    exact List.mem_map.mpr ⟨_, (mem_membersOf h.shown).mpr ⟨(name, d), he, hshown, rfl⟩, rfl⟩

/-- A name that is kept out of documents is not among the members that are reflected. -/
theorem Hides.not_mem_of_reflect {name : Text} (hides : world.Hides c name)
    (ordinary : ∀ k ∈ world.resolutionOrder c, world.IsOrdinary k) (start : memory.IsSound)
    (h : Gives (world.reflect visibility c) memory members after) : name ∉ members.map (·.name) := by
  obtain ⟨hints, middle, read, names, found⟩ := exists_reflects h
  intro hin
  obtain ⟨d, he, hshown⟩ := found.mem_iff.mp hin
  have finds := finds_of_mem ordinary found.hinted start hides.declares he
  have left := (shows_iff.mp hshown).2.2.1
  rw [finds.hides hides] at left
  cases left

/-- A name that is kept out of documents is not among the members of a class, whatever else the class and those
above it annotate; and what the class itself declares is, unless it is private or something keeps it out. -/
theorem reflect_marked (ordinary : ∀ k ∈ world.resolutionOrder c, world.IsOrdinary k) (start : memory.IsSound)
    (h : Gives (world.reflect visibility c) memory members after) :
    (∀ name, world.Hides c name → name ∉ members.map (·.name)) ∧
    ∀ fields name, world.fields c = .ok fields → world.declares name c = true →
      name.startsWith "_" = false → isExcluded (metadataOf fields name) = false → world.Admits c name →
        name ∈ members.map (·.name) := by
  constructor
  · intro name hides
    exact hides.not_mem_of_reflect ordinary start h
  · obtain ⟨hints, middle, read, names, found⟩ := exists_reflects h
    intro fields name hfields declared shown included admits
    cases found.read.symm.trans hfields
    have itself := declaringClass_self declared
    have hname : name ∈ names := found.mem_names_of_declares (world.mem_resolutionOrder c)
      (ordinary c (world.mem_resolutionOrder c)) declared
    rw [← (memberTypes_eq world c hints names middle).1] at hname
    obtain ⟨⟨_, d⟩, he, rfl⟩ := List.mem_map.mp hname
    have finds := finds_of_mem ordinary found.hinted start (itself.symm ▸ declared) he
    refine found.mem_iff.mpr ⟨d, he, shows_iff.mpr ⟨shown, ?_, finds.admits admits, included⟩⟩
    rw [itself, isVisible.eq_def, if_pos (beq_self_eq_true c)]

/-- A class with a key, a pin and a total that are kept out of its documents, and with an item, a note and an
owner, some of them in quotes and some asking for arguments of a class that takes none. -/
def secrets : World where
  classes :=
    [⟨"Item", "Item", .text "orders", "orders", [.standard .object], ⟨.standard .object, true, true⟩,
        .table [], [], none, none⟩,
      ⟨"Order", "Order", .text "orders", "orders", [.standard .object], ⟨.standard .object, true, true⟩,
        .table [("key", .annotated (.cls (.standard .str)) [.unserialized false]),
          ("pin", .text (.annotated (.name "Item") [.unserialized false])),
          ("total", .text (.subscript "typing.ClassVar" [.subscript "Item" [.name "Item"]])),
          ("item", .text (.name "Item")),
          ("note", .union false [.forward (.subscript "Item" [.name "Item"]) false 0, .noneType]),
          ("owner", .text (.subscript "Item" [.name "Item"]))], [], none, none⟩]
  modules := [Library.complete "typing" Library.typingNames,
    Library.complete Library.ownPackage (Library.bindClasses [.nonSerialized]),
    ⟨"orders", [("typing", .module "typing"), (Library.ownPackage, .module Library.ownPackage),
      ("Item", .cls (.declared 0))], true⟩]
  memory := .empty

/-- The key, the pin and the total are not listed, and the item, the note and the owner are. -/
theorem reflect_marked_secrets : ∃ members after,
    Gives (secrets.reflect .declaredOnly (.declared 1)) .empty members after ∧
    (∀ name ∈ (["key", "pin", "total"] : List Text), name ∉ members.map (·.name)) ∧
    ∀ name ∈ (["item", "note", "owner"] : List Text), name ∈ members.map (·.name) := by
  have given : ((secrets.reflect .declaredOnly (.declared 1)).run.run .empty).1.toOption.map
      (fun _ => ()) = some () := by decide +kernel
  obtain ⟨members, after, reflected, -⟩ := exists_gives_of_map given
  have ordinary : ∀ k ∈ secrets.resolutionOrder (.declared 1), secrets.IsOrdinary k := by decide +kernel
  obtain ⟨hidden, shown⟩ := reflect_marked ordinary Memory.isSound_empty reflected
  refine ⟨members, after, reflected, ?_, ?_⟩
  · simp only [List.forall_mem_cons]
    refine ⟨hidden _ ?_, hidden _ ?_, hidden _ ?_, nofun⟩
    · exact .typed ⟨rfl, rfl⟩ rfl
    · exact .quoted ⟨rfl, rfl⟩ rfl rfl (.inr ⟨rfl, Environment.evaluates_of_denoted rfl⟩)
    · exact .quoted ⟨rfl, rfl⟩ rfl rfl (.inl rfl)
  · simp only [List.forall_mem_cons]
    refine ⟨shown [] _ rfl rfl rfl rfl ?_, shown [] _ rfl rfl rfl rfl ?_, shown [] _ rfl rfl rfl rfl ?_, nofun⟩
    · exact .quoted ⟨rfl, rfl⟩ (Environment.yields_isOpen rfl) (Environment.yields_isOpen rfl) (.inl rfl)
    · exact .typed ⟨rfl, rfl⟩ nofun ⟨.noneType, by simp, rfl⟩
    · exact .quoted ⟨rfl, rfl⟩ (Environment.yields_isOpen rfl) (Environment.yields_isOpen rfl) (.inl rfl)

/-- The world after a module with a class has been loaded, whose secret is marked in quotes, as of a class that
is not there. -/
def leaking : World :=
  ((Loading.enterModule (fun _ => return ()) ⟨"orders", false, [], [⟨"Order", false, [],
      [.field "secret" (.quoted (.annotated (.name "Missing") [.unserialized false])) .absent]⟩], [], [], none⟩).run.run
    ⟨[], [Library.complete "typing" Library.typingNames, Library.complete "enum" (Library.bindClasses [.enum]),
      Library.complete Library.ownPackage (Library.bindClasses [.nonSerialized])], .empty⟩).2

/-- Whether a class annotates a name with a string whose head is a mark, wherever its names are looked up. -/
def isMarkedText (world : World) (c : ClassRef) (name : Text) : Bool :=
  match world.ownAnnotation? c name with
  | some (.text expr) => (world.moduleFirst c).isMarking expr && (world.classFirst c).isMarking expr
  | _ => false

/-- A string with a mark at its head that cannot be evaluated does not keep its member out. -/
theorem reflect_marked_leaking : ∃ members after expr,
    Gives (leaking.reflect .declaredOnly (.declared 0)) leaking.memory members after ∧
    leaking.ownAnnotation? (.declared 0) "secret" = some (.text expr) ∧
    (leaking.moduleFirst (.declared 0)).isMarking expr = true ∧
    (leaking.classFirst (.declared 0)).isMarking expr = true ∧ ("secret" : Text) ∈ members.map (·.name) := by
  have shown : ((leaking.reflect .declaredOnly (.declared 0)).run.run leaking.memory).1.toOption.map
      (·.map (·.name)) = some [("secret" : Text)] := by decide +kernel
  have quoted : leaking.isMarkedText (.declared 0) "secret" = true := by decide +kernel
  rw [isMarkedText] at quoted
  obtain ⟨members, after, reflected, found⟩ := exists_gives_of_map shown
  split at quoted
  · rename_i expr own
    rw [Bool.and_eq_true] at quoted
    exact ⟨members, after, expr, reflected, own, quoted.1, quoted.2, found ▸ List.mem_cons_self⟩
  · cases quoted

end Reflection

end Specimen.World
