import Specimen.Proofs.Loading.Module
import Specimen.Proofs.Projection.Policies
import Specimen.Proofs.Reflection.Members
import Mathlib.Logic.Relation

/-! The two visibilities side by side. Where only own members are visible, a class shows those of its members
that it declares itself; the document of a class is then the wider one with members deleted, as long as
reflection gives each class the same members in both runs. -/
namespace Specimen

instance {α : Type} (result : Except Failure α) : Decidable (IsQuiet result) :=
  match result with
  | .ok value => isTrue (isQuiet_ok value)
  | .error failure => decidable_of_iff (failure.isLoop = false)
    ⟨fun h _ he => Except.error.inj he ▸ h, fun h => h failure rfl⟩

/-- One member of an object is deleted, at any depth. -/
inductive Deletes : Sample → Sample → Prop
  | member {before after : List (Data × Sample)} {deleted : Data × Sample} :
    Deletes (.object (before ++ deleted :: after)) (.object (before ++ after))
  | inMember {before after : List (Data × Sample)} {name : Data} {value other : Sample}
    (inside : Deletes value other) :
    Deletes (.object (before ++ (name, value) :: after)) (.object (before ++ (name, other) :: after))
  | inItem {before after : List Sample} {item other : Sample} (inside : Deletes item other) :
    Deletes (.array (before ++ item :: after)) (.array (before ++ other :: after))

namespace Sample

mutual

/-- The string values in a sample. -/
def strings : Sample → List Text
  | .string text => [text]
  | .array items => itemStrings items
  | .object members => memberStrings members
  | _ => []

def itemStrings : List Sample → List Text
  | [] => []
  | item :: rest => strings item ++ itemStrings rest

def memberStrings : List (Data × Sample) → List Text
  | [] => []
  | (_, value) :: rest => strings value ++ memberStrings rest

end

private theorem itemStrings_append (items others : List Sample) :
    itemStrings (items ++ others) = itemStrings items ++ itemStrings others := by
  induction items with
  | nil => rfl
  | cons item rest ih => rw [List.cons_append, itemStrings, itemStrings, ih, List.append_assoc]

private theorem memberStrings_append (members others : List (Data × Sample)) :
    memberStrings (members ++ others) = memberStrings members ++ memberStrings others := by
  induction members with
  | nil => rfl
  | cons member rest ih => rw [List.cons_append, memberStrings, memberStrings, ih, List.append_assoc]

end Sample

section Deletes
variable {sample other : Sample}

/-- Deleting members adds no string. -/
private theorem Deletes.strings_subset (h : Deletes sample other) : other.strings ⊆ sample.strings := by
  induction h with
  | member =>
    simp only [Sample.strings, Sample.memberStrings_append, Sample.memberStrings]
    intro text ht
    simp only [List.mem_append] at ht ⊢
    exact ht.imp_right .inr
  | inMember _ ih =>
    simp only [Sample.strings, Sample.memberStrings_append, Sample.memberStrings]
    intro text ht
    simp only [List.mem_append] at ht ⊢
    exact ht.imp_right (.imp_left (@ih text))
  | inItem _ ih =>
    simp only [Sample.strings, Sample.itemStrings_append, Sample.itemStrings]
    intro text ht
    simp only [List.mem_append] at ht ⊢
    exact ht.imp_right (.imp_left (@ih text))

private theorem strings_subset_of_deletes (h : Relation.ReflTransGen Deletes sample other) :
    other.strings ⊆ sample.strings := by
  induction h with
  | refl => exact List.Subset.refl _
  | tail _ last ih => exact List.Subset.trans last.strings_subset ih

private theorem deletes_member (name : Data) (rest : List (Data × Sample))
    (h : Relation.ReflTransGen Deletes sample other) :
    Relation.ReflTransGen Deletes (.object ((name, sample) :: rest)) (.object ((name, other) :: rest)) := by
  induction h with
  | refl => exact .refl
  | tail _ last ih => exact ih.tail (@Deletes.inMember [] rest name _ _ last)

private theorem deletes_items (h : Relation.ReflTransGen Deletes sample other) :
    Relation.ReflTransGen Deletes (.array [sample]) (.array [other]) := by
  induction h with
  | refl => exact .refl
  | tail _ last ih => exact ih.tail (@Deletes.inItem [] [] _ _ last)

private theorem deletes_behind (first : Data × Sample) {members : List (Data × Sample)}
    (h : Relation.ReflTransGen Deletes (.object members) sample) : ∃ rest, sample = .object rest ∧
      Relation.ReflTransGen Deletes (.object (first :: members)) (.object (first :: rest)) := by
  induction h with
  | refl => exact ⟨members, rfl, .refl⟩
  | tail _ last ih =>
    obtain ⟨rest, rfl, steps⟩ := ih
    generalize hw : (.object rest : Sample) = whole at last
    cases last with
    | @member before after deleted =>
      cases hw
      exact ⟨_, rfl, steps.tail (@Deletes.member (first :: before) _ _)⟩
    | @inMember before _ _ _ _ inside =>
      cases hw
      exact ⟨_, rfl, steps.tail (@Deletes.inMember (first :: before) _ _ _ _ inside)⟩
    | inItem => cases hw

/-- What is deleted in a member and in those behind it. -/
private theorem deletes_cons (name : Data) {members rest : List (Data × Sample)}
    (h : Relation.ReflTransGen Deletes sample other)
    (hrest : Relation.ReflTransGen Deletes (.object members) (.object rest)) :
    Relation.ReflTransGen Deletes (.object ((name, sample) :: members)) (.object ((name, other) :: rest)) := by
  obtain ⟨_, ⟨⟩, steps⟩ := deletes_behind (name, sample) hrest
  exact steps.trans (deletes_member name rest h)

end Deletes

/-- Whether the class that is reflected declares a member itself. -/
def ReflectedMember.isOwn (member : ReflectedMember) : Bool := !member.isInherited

namespace World
variable {world : World}

section Reflection
variable {c : ClassRef} {members : List ReflectedMember} {memory after : Memory}

private theorem isShown_inherited {declaring : ClassRef} (h : declaring ≠ c) (name : Text) (written : Referent)
    (metadata : List (Data × Data)) :
    world.isShown .resolvedDynamic c declaring name written metadata = .ok false := by
  have other : (declaring == c) = false := beq_false_of_ne h
  simp only [isShown, isVisible, other]
  cases name.startsWith "_" <;> rfl

private theorem isShown_own (name : Text) (written : Referent) (metadata : List (Data × Data))
    (visibility : Visibility) :
    world.isShown visibility c c name written metadata =
      world.isShown .declaredOnly c c name written metadata := by
  simp only [isShown, isVisible, beq_self_eq_true, if_true]

/-- Of the members that are shown of a class, those it declares itself are shown where only own ones are. -/
private theorem membersOf_own {fields : List DataField} {candidates : Bindings}
    (h : world.membersOf .declaredOnly c fields candidates = .ok members) :
    world.membersOf .resolvedDynamic c fields candidates = .ok (members.filter (·.isOwn)) := by
  induction candidates generalizing members with
  | nil =>
    cases h
    rfl
  | cons candidate rest ih =>
    obtain ⟨name, written⟩ := candidate
    rw [membersOf] at h ⊢
    obtain ⟨shown, hshown, h⟩ := ok_of_bind h
    by_cases own : world.declaringClass c name = c
    · rw [own] at hshown h ⊢
      rw [isShown_own, hshown]
      cases shown with
      | false => exact ih h
      | true =>
        obtain ⟨others, hothers, h⟩ := ok_of_bind h
        cases h
        simp only [bind, Except.bind, ih hothers]
        simp [ReflectedMember.isOwn, pure, Except.pure]
    · rw [isShown_inherited own]
      cases shown with
      | false => exact ih h
      | true =>
        obtain ⟨others, hothers, h⟩ := ok_of_bind h
        cases h
        have inherited : (world.declaringClass c name != c) = true := bne_iff_ne.mpr own
        simp only [bind, Except.bind, ih hothers]
        simp [ReflectedMember.isOwn, inherited]

/-- Reflection chooses among the same candidates, so what is remembered is the same too. -/
private theorem reflection_own (h : world.reflection .declaredOnly c memory = (.ok members, after)) :
    world.reflection .resolvedDynamic c memory = (.ok (members.filter (·.isOwn)), after) := by
  rw [reflection, reflect_eq] at h ⊢
  obtain ⟨found, middle, hfound, h⟩ := Gives.bind h
  rw [run_bind hfound]
  cases hm : world.membersOf .declaredOnly c found.1 found.2 with
  | error trouble =>
    rw [hm] at h
    cases h
  | ok own =>
    rw [hm] at h
    cases h
    rw [membersOf_own hm]
    rfl

end Reflection

/-- Classes of which reflection gives the same whatever has been remembered while others of them were
reflected, and whose members show no other records. -/
structure IsConstant (world : World) (classes : Set ClassRef) (holds : Memory → Prop) : Prop where
  keeps : ∀ c ∈ classes, ∀ memory members after, holds memory →
    world.reflection .declaredOnly c memory = (.ok members, after) → holds after
  same : ∀ c ∈ classes, ∀ memory memory', holds memory → holds memory' →
    (world.reflection .declaredOnly c memory).1 = (world.reflection .declaredOnly c memory').1
  closed : ∀ c ∈ classes, ∀ memory members after, holds memory →
    world.reflection .declaredOnly c memory = (.ok members, after) → ∀ member ∈ members, ∀ target,
      world.entry member = .ok (.inl target) → target ∈ classes

section Expands
variable {classes : Set ClassRef} {holds : Memory → Prop} {path : List ClassRef}
  {memory memory' after : Memory} {members : List ReflectedMember} {trail : Trail}

/-- Classes that answer with the same members every time. -/
private theorem Answers.isConstant {membersOf : ClassRef → List ReflectedMember}
    (answers : Answers world .declaredOnly classes holds)
    (steady : IsSteady world .declaredOnly classes holds membersOf) :
    IsConstant world classes holds where
  keeps c hc memory members after start reflected := by
    obtain ⟨_, ⟨⟩, hafter, -⟩ := answers.given hc start reflected
    exact hafter
  same c hc memory memory' start start' := by
    obtain ⟨members, after, reflected, -⟩ := answers.reflects c hc memory start
    obtain ⟨members', after', reflected', -⟩ := answers.reflects c hc memory' start'
    rw [reflected, reflected', steady c hc _ _ _ start reflected, steady c hc _ _ _ start' reflected']
  closed c hc memory members after start reflected member hm target he := by
    obtain ⟨_, ⟨⟩, -, presents⟩ := answers.given hc start reflected
    exact (presents member hm).mem he

/-- In another memory, reflection gives the own members of a class where it gave all of them. -/
private theorem IsConstant.reflection_own (const : IsConstant world classes holds) {c : ClassRef}
    (hc : c ∈ classes) (start : holds memory) (start' : holds memory')
    (h : world.reflection .declaredOnly c memory = (.ok members, after)) : ∃ after', holds after' ∧
      world.reflection .resolvedDynamic c memory' = (.ok (members.filter (·.isOwn)), after') := by
  cases hr : world.reflection .declaredOnly c memory' with
  | mk reflected after' =>
    have same := const.same c hc memory memory' start start'
    rw [h, hr] at same
    cases same
    exact ⟨after', const.keeps c hc _ _ _ start' hr, World.reflection_own hr⟩

private theorem deletes_shown (member : ReflectedMember) {sample other : Sample}
    (h : Relation.ReflTransGen Deletes sample other) :
    Relation.ReflTransGen Deletes (shownSample member sample) (shownSample member other) := by
  rw [shownSample, shownSample]
  split
  · exact deletes_items h
  · exact h

/-- The own ones of members give samples in a memory, with members deleted from the samples of all of them,
and no class is met again where none was. -/
def Narrows (world : World) (holds : Memory → Prop) (path : List ClassRef) (memory : Memory)
    (members : List ReflectedMember) (samples : List (Data × Sample)) (trail : Trail) : Prop :=
  ∃ samples' after' trail', holds after' ∧
    Expands world .resolvedDynamic path memory (members.filter (·.isOwn)) (.ok samples') after' trail' ∧
    Relation.ReflTransGen Deletes (.object samples) (.object samples') ∧
    (trail.loops = [] → trail'.loops = [])

section Narrows
variable {member : ReflectedMember} {samples : List (Data × Sample)}

/-- An inherited member is deleted. -/
theorem Narrows.inherited (h : world.Narrows holds path memory members samples trail)
    (own : member.isOwn = false) (sample : Sample) {whole : Trail}
    (quiet : whole.loops = [] → trail.loops = []) :
    world.Narrows holds path memory (member :: members) ((member.jsonName, sample) :: samples) whole := by
  obtain ⟨samples', after', trail', hafter, expands, steps, hquiet⟩ := h
  rw [Narrows, List.filter_cons_of_neg (by simp [own])]
  exact ⟨samples', after', trail', hafter, expands, .head (@Deletes.member [] _ _) steps,
    fun none => hquiet (quiet none)⟩

theorem Narrows.plain (h : world.Narrows holds path memory members samples trail) {sample : Sample}
    (entry : world.entry member = .ok (.inr sample)) :
    world.Narrows holds path memory (member :: members) ((member.jsonName, sample) :: samples) trail := by
  cases own : member.isOwn with
  | false => exact h.inherited own sample id
  | true =>
    obtain ⟨samples', after', trail', hafter, expands, steps, quiet⟩ := h
    rw [Narrows, List.filter_cons_of_pos own]
    exact ⟨_, after', trail', hafter, .plain entry expands, deletes_cons _ .refl steps, quiet⟩

theorem Narrows.again (h : world.Narrows holds path memory members samples trail) {target : ClassRef}
    (entry : world.entry member = .ok (.inl target)) (met : target ∈ path) :
    world.Narrows holds path memory (member :: members)
      ((member.jsonName, omittedSample member) :: samples) (trail.meet path target) := by
  cases own : member.isOwn with
  | false => exact h.inherited own _ nofun
  | true =>
    obtain ⟨samples', after', trail', hafter, expands, steps, -⟩ := h
    rw [Narrows, List.filter_cons_of_pos own]
    exact ⟨_, after', _, hafter, .again entry met expands, deletes_cons _ .refl steps, nofun⟩

end Narrows

/-- Expanding the own members only: both runs go the same way, and what is met again depends on the members
alone. -/
private theorem Expands.narrows (const : IsConstant world classes holds)
    {result : Except Failure (List (Data × Sample))} {samples : List (Data × Sample)}
    (h : Expands world .declaredOnly path memory members result after trail) (hok : result = .ok samples)
    (start : holds memory) (start' : holds memory')
    (leads : ∀ member ∈ members, ∀ target, world.entry member = .ok (.inl target) → target ∈ classes) :
    holds after ∧ world.Narrows holds path memory' members samples trail := by
  induction h generalizing samples memory' with
  | nil =>
    cases hok
    exact ⟨start, [], memory', .empty, start', .nil, .refl, fun _ => rfl⟩
  | failed | unreflected | stopped => cases hok
  | plain entry _ ih =>
    obtain ⟨others, hothers, rfl⟩ := ok_of_map hok
    obtain ⟨hafter, narrows⟩ :=
      ih hothers start start' fun member hm => leads member (List.mem_cons_of_mem _ hm)
    exact ⟨hafter, narrows.plain entry⟩
  | again entry met _ ih =>
    obtain ⟨others, hothers, rfl⟩ := ok_of_map hok
    obtain ⟨hafter, narrows⟩ :=
      ih hothers start start' fun member hm => leads member (List.mem_cons_of_mem _ hm)
    exact ⟨hafter, narrows.again entry met⟩
  | @nested path memory member target rest inner _ shown middle inside result after trail entry fresh
      reflected _ _ ih ih' =>
    obtain ⟨others, hothers, rfl⟩ := ok_of_map hok
    have hin := leads member List.mem_cons_self target entry
    have hinner := const.keeps target hin _ _ _ start reflected
    have inward := const.closed target hin _ _ _ start reflected
    have outward := fun member hm => leads member (List.mem_cons_of_mem _ hm)
    obtain ⟨begin', hbegin', reflected'⟩ := const.reflection_own hin start start' reflected
    obtain ⟨hmiddle, shown', middle', inside', hmiddle', nested, steps, quiet⟩ :=
      ih rfl hinner hbegin' inward
    cases own : member.isOwn with
    | false =>
      -- the record is not opened in the other run, whose memory stays as it is
      obtain ⟨hafter, narrows⟩ := ih' hothers hmiddle start' outward
      exact ⟨hafter, narrows.inherited own _ fun none => (List.append_eq_nil_iff.mp none).2⟩
    | true =>
      obtain ⟨hafter, samples', after', trail', hafter', expands, steps', quiet'⟩ :=
        ih' hothers hmiddle hmiddle' outward
      rw [Narrows, List.filter_cons_of_pos own]
      refine ⟨hafter, _, after', _, hafter', .nested entry fresh reflected' nested expands,
        deletes_cons _ (deletes_shown member steps) steps', fun none => ?_⟩
      obtain ⟨hinside, hrest⟩ := List.append_eq_nil_iff.mp none
      exact List.append_eq_nil_iff.mpr ⟨quiet hinside, quiet' hrest⟩

end Expands

section Project
variable {root : ClassRef} {visibility : Visibility} {loops : LoopHandling}
  {outcome : Except Failure (List ReflectedMember × Sample)} {trail : Trail}

/-- Either policy gives a document where leaving out gives it, unless refusing meets a class again. -/
private theorem Projects.project_ok_iff (h : Projects world visibility root outcome trail)
    (formatting : Json.Formatting) (value : List ReflectedMember × Sample) :
    world.project ⟨visibility, loops, formatting⟩ root = .ok value ↔
      outcome = .ok value ∧ (loops = .error → trail.loops = []) := by
  cases loops with
  | ignore => simp [h.project_ignore formatting]
  | error =>
    rw [h.project_error formatting, reported]
    cases trail.loops <;> simp

/-- Where both visibilities start with the same members of each class, the narrower one shows the own members
and shows of the document a part. -/
private theorem project_own {classes : Set ClassRef} {holds : Memory → Prop}
    (const : IsConstant world classes holds) (hroot : root ∈ classes) (start : holds world.memory)
    {formatting : Json.Formatting} {members : List ReflectedMember} {sample : Sample}
    (h : world.project ⟨.declaredOnly, loops, formatting⟩ root = .ok (members, sample)) :
    ∃ other, world.project ⟨.resolvedDynamic, loops, formatting⟩ root =
        .ok (members.filter (·.isOwn), other) ∧ Relation.ReflTransGen Deletes sample other := by
  obtain ⟨outcome, trail, projects⟩ := exists_projects world .declaredOnly root
  obtain ⟨hok, none⟩ := (projects.project_ok_iff formatting _).mp h
  cases projects with
  | unreflected => cases hok
  | expanded reflected expands =>
    obtain ⟨samples, hsamples, hmade⟩ := ok_of_map hok
    cases hmade
    obtain ⟨-, samples', _, _, -, expands', steps, quiet⟩ := expands.narrows const hsamples
      (const.keeps root hroot _ _ _ start reflected) (const.keeps root hroot _ _ _ start reflected)
      (const.closed root hroot _ _ _ start reflected)
    have projects' := Projects.expanded (World.reflection_own reflected) expands'
    exact ⟨.object samples', (projects'.project_ok_iff formatting _).mpr
      ⟨rfl, fun refuses => quiet (none refuses)⟩, steps⟩

end Project

/-- Reflection shows where only own members are visible those of the other visibility that the class declares
itself, in their order. Leaving out what is met again, no visibility reports a loop. And where reflection
gives each class the same whatever has been remembered, a class with a document has one where only own
members are visible: the same with members deleted, at any depth. -/
theorem project_visibilities (world : World) (root : ClassRef) (loops : LoopHandling)
    (formatting : Json.Formatting) :
    (∀ memory members after, world.reflection .declaredOnly root memory = (.ok members, after) →
      world.reflection .resolvedDynamic root memory = (.ok (members.filter (·.isOwn)), after)) ∧
    (∀ visibility, loops = .ignore → IsQuiet (world.project ⟨visibility, loops, formatting⟩ root)) ∧
    ∀ classes holds, IsConstant world classes holds → root ∈ classes → holds world.memory →
      ∀ members sample,
        world.project ⟨.declaredOnly, loops, formatting⟩ root = .ok (members, sample) →
        ∃ other, world.project ⟨.resolvedDynamic, loops, formatting⟩ root =
            .ok (members.filter (·.isOwn), other) ∧ Relation.ReflTransGen Deletes sample other := by
  refine ⟨fun memory members after => reflection_own, fun visibility hloops => ?_,
    fun classes holds const hroot start members sample => project_own const hroot start⟩
  obtain ⟨outcome, trail, projects⟩ := exists_projects world visibility root
  have policies := projects.policyOutcome formatting
  rw [hloops, policies.ignored]
  exact policies.isQuiet

/-- A node with a leaf from its base, and a twig that has a label from the leaf and leads back. -/
def tree : World where
  classes :=
    [⟨"Leaf", "Leaf", .text "tree", "tree", [.standard .object], ⟨.standard .object, true, true⟩,
        .table [("label", .cls (.standard .str))], [], none, none⟩,
      ⟨"Base", "Base", .text "tree", "tree", [.standard .object], ⟨.standard .object, true, true⟩,
        .table [("leaf", .cls (.declared 0))], [], none, none⟩,
      ⟨"Twig", "Twig", .text "tree", "tree", [.declared 0, .standard .object],
        ⟨.standard .object, true, true⟩,
        .table [("nodes", .generic false (.standard .list) [.cls (.declared 3)]),
          ("leaf", .cls (.declared 0))], [], none, none⟩,
      ⟨"Node", "Node", .text "tree", "tree", [.declared 1, .standard .object],
        ⟨.standard .object, true, true⟩,
        .table [("twigs", .generic false (.standard .list) [.cls (.declared 2)])], [], none, none⟩]
  modules := []
  memory := .empty

/-- The base's leaf, and inside a twig the leaf's label, are deleted; the twig's own leaf keeps its label, and
the way back is left out in both. -/
theorem project_visibilities_tree :
    IsConstant tree {c | c ∈ (List.range 4).map .declared} (· = .empty) ∧ ∃ members sample other,
      tree.project ⟨.declaredOnly, .ignore, .compact⟩ (.declared 3) = .ok (members, sample) ∧
      tree.project ⟨.resolvedDynamic, .ignore, .compact⟩ (.declared 3) =
        .ok (members.filter (·.isOwn), other) ∧
      Relation.ReflTransGen Deletes sample other ∧
      (sample.render .compact).toOption = some
        "\x7b\"leaf\":\x7b\"label\":\"\"\x7d,\"twigs\":[\x7b\"label\":\"\",\"nodes\":[],\"leaf\":\x7b\"label\":\"\"\x7d\x7d]\x7d" ∧
      (other.render .compact).toOption = some "\x7b\"twigs\":[\x7b\"nodes\":[],\"leaf\":\x7b\"label\":\"\"\x7d\x7d]\x7d" := by
  have answers := answers_atFirst
    (show tree.answersAtFirst .declaredOnly ((List.range 4).map .declared) = true by decide +kernel)
  have const := answers.isConstant (isSteady_atFirst _)
  have wide : (tree.project ⟨.declaredOnly, .ignore, .compact⟩ (.declared 3)).toOption.map
      (fun made => (made.2.render .compact).toOption) = some (some (
        "\x7b\"leaf\":\x7b\"label\":\"\"\x7d,\"twigs\":[\x7b\"label\":\"\",\"nodes\":[],\"leaf\":\x7b\"label\":\"\"\x7d\x7d]\x7d" :
          Text)) := by
    decide +kernel
  have narrow : (tree.project ⟨.resolvedDynamic, .ignore, .compact⟩ (.declared 3)).toOption.map
      (fun made => (made.2.render .compact).toOption) =
        some (some ("\x7b\"twigs\":[\x7b\"nodes\":[],\"leaf\":\x7b\"label\":\"\"\x7d\x7d]\x7d" : Text)) := by
    decide +kernel
  obtain ⟨⟨members, sample⟩, projected, shown⟩ := exists_ok_of_map wide
  obtain ⟨-, -, narrows⟩ := project_visibilities tree (.declared 3) .ignore .compact
  obtain ⟨other, projected', steps⟩ := narrows _ _ const (by simp) rfl members sample projected
  rw [projected'] at narrow
  exact ⟨const, members, sample, other, projected, projected', steps, shown, Option.some.inj narrow⟩

/-- An optional literal type in quotes. -/
def quotedChoice (values : List Text) : TypeExpr :=
  .quoted (.subscript "typing.Optional" [.literal (values.map .str)])

/-- A literal type takes the order of its values from an equal one that was made before, here while the type
of an inherited member was reflected. -/
def choices : World := afterLoading "choices"
  [annotating "First" [] "w" (quotedChoice ["a", "b"]), annotating "Second" [] "z" (quotedChoice ["b", "a"]),
    annotating "Base" [] "x" (.name "First"), annotating "Derived" ["Base"] "y" (.name "Second")]

/-- An inherited member of an enumeration whose value cannot be read, before one that leads back. -/
def unreadable : World := afterLoading "unreadable"
  [⟨"Choice", false, ["enum.Enum"], [.constant "ONE" (.int 1), .property "value" none false]⟩,
    annotating "Base" [] "x" (.name "Choice"), annotating "Derived" ["Base"] "y" (.quoted (.name "Derived"))]

/-- What earlier types decide is not deleted, and a failure on an inherited member can hide a loop. -/
theorem project_visibilities_apart :
    (∃ members sample members' other,
      choices.project ⟨.declaredOnly, .ignore, .compact⟩ (.declared 3) = .ok (members, sample) ∧
      choices.project ⟨.resolvedDynamic, .ignore, .compact⟩ (.declared 3) = .ok (members', other) ∧
      ¬ Relation.ReflTransGen Deletes sample other) ∧
    IsQuiet (unreadable.project ⟨.declaredOnly, .error, .compact⟩ (.declared 2)) ∧
    ¬ IsQuiet (unreadable.project ⟨.resolvedDynamic, .error, .compact⟩ (.declared 2)) := by
  have wide : (choices.project ⟨.declaredOnly, .ignore, .compact⟩ (.declared 3)).toOption.map
      (·.2.strings) = some [("a" : Text), "a"] := by decide +kernel
  have narrow : (choices.project ⟨.resolvedDynamic, .ignore, .compact⟩ (.declared 3)).toOption.map
      (·.2.strings) = some [("b" : Text)] := by decide +kernel
  obtain ⟨⟨members, sample⟩, projected, hwide⟩ := exists_ok_of_map wide
  obtain ⟨⟨members', other⟩, projected', hnarrow⟩ := exists_ok_of_map narrow
  refine ⟨⟨members, sample, members', other, projected, projected', fun steps => ?_⟩,
    by decide +kernel, by decide +kernel⟩
  have subset := strings_subset_of_deletes steps
  rw [show sample.strings = _ from hwide, show other.strings = _ from hnarrow] at subset
  exact absurd subset (by decide)

end World

end Specimen
