import Specimen.Reflection.Hints

/-! What is found without looking at annotations: names, attributes and the types that expressions denote.
All of it stays the same where annotations are left out. -/
namespace Specimen

/-- A class without annotations. -/
def ClassInfo.bare (info : ClassInfo) : ClassInfo := { info with annotations := .table [] }

namespace World

/-- The world whose classes have no annotations. -/
def bare (world : World) : World := { world with classes := world.classes.map (·.bare) }

variable (world : World)

section Classes
variable (c : ClassRef)

private theorem info?_bare : world.bare.info? c = (world.info? c).map (·.bare) := by
  cases c with
  | standard s => rfl
  | declared index => exact List.getElem?_map

@[simp] theorem module?_bare (name : Text) : world.bare.module? name = world.module? name := rfl

@[simp] theorem namesOf_bare (name : Text) : world.bare.namesOf name = world.namesOf name := rfl

@[simp] theorem className_bare : world.bare.className c = world.className c := by
  cases c <;> simp [className, info?_bare, Function.comp_def, ClassInfo.bare]

@[simp] theorem qualname_bare : world.bare.qualname c = world.qualname c := by
  cases c <;> simp [qualname, info?_bare, Function.comp_def, ClassInfo.bare]

@[simp] theorem label_bare : world.bare.label c = world.label c := by
  cases c <;> simp [label, info?_bare, Function.comp_def, ClassInfo.bare]

@[simp] theorem moduleName_bare : world.bare.moduleName c = world.moduleName c := by
  rw [moduleName, label_bare, moduleName]

@[simp] theorem isBuiltin_bare : world.bare.isBuiltin c = world.isBuiltin c := by
  rw [isBuiltin, moduleName_bare, isBuiltin]

@[simp] theorem resolutionOrder_bare : world.bare.resolutionOrder c = world.resolutionOrder c := by
  cases c <;> simp [resolutionOrder, info?_bare, Function.comp_def, ClassInfo.bare]

@[simp] theorem descends_bare (ancestor : StandardClass) :
    world.bare.descends c ancestor = world.descends c ancestor := by
  rw [descends, resolutionOrder_bare, descends]

@[simp] theorem ownAttributes_bare : world.bare.ownAttributes c = world.ownAttributes c := by
  rw [ownAttributes.eq_def, ownAttributes.eq_def]
  split <;> simp [info?_bare, Function.comp_def, ClassInfo.bare]

@[simp] theorem ownAttribute?_bare (name : Text) :
    world.bare.ownAttribute? c name = world.ownAttribute? c name := by
  rw [ownAttribute?, ownAttributes_bare, ownAttribute?]

@[simp] theorem ownFields?_bare : world.bare.ownFields? c = world.ownFields? c := by
  rw [ownFields?, ownFields?, info?_bare]
  cases world.info? c <;> rfl

@[simp] theorem metaclass_bare : world.bare.metaclass c = world.metaclass c := by
  simp [metaclass]

end Classes

section Attributes

@[simp] theorem reportName_bare (c : ClassRef) : world.bare.reportName c = world.reportName c := by
  cases c <;> simp [reportName]

@[simp] theorem typeNameOf_bare (found : ClassAttribute) :
    world.bare.typeNameOf found = world.typeNameOf found := by
  rw [typeNameOf.eq_def, typeNameOf.eq_def]
  split <;> simp

@[simp] theorem inherited?_bare (standardMember : StandardClass) (c : ClassRef) (name : Text) :
    world.bare.inherited? standardMember c name = world.inherited? standardMember c name := by
  simp [inherited?]

@[simp] theorem classFact?_bare (c : ClassRef) (name : Text) :
    world.bare.classFact? c name = world.classFact? c name := by
  simp [classFact?]

@[simp] theorem select_bare (owner : Referent) (name : Text) :
    world.bare.select owner name = world.select owner name := by
  have ofClass : ∀ c, world.bare.classAttribute c name = world.classAttribute c name := fun c => by
    simp [classAttribute]
  have ofObject : ∀ c, world.bare.objectAttribute c name = world.objectAttribute c name := fun c => by
    simp [objectAttribute]
  cases owner <;> simp [select, moduleAttribute, ofClass, ofObject]

@[simp] theorem lacks_bare (found : ClassAttribute) (name : Text) :
    world.bare.lacks found name = world.lacks found name := by
  simp [lacks]

@[simp] theorem selectAll_bare (owner : Referent) (names : List Text) :
    world.bare.selectAll owner names = world.selectAll owner names := by
  induction names generalizing owner with
  | nil => rfl
  | cons name rest ih => simp only [selectAll, select_bare, ih]

@[simp] theorem isGeneric_bare (c : ClassRef) : world.bare.isGeneric c = world.isGeneric c := by
  simp [isGeneric]

end Attributes

section Texts

@[simp] theorem classText_bare (c : ClassRef) : world.bare.classText c = world.classText c := by
  simp [classText]

mutual

@[simp] theorem typeText_bare : ∀ d : Referent, world.bare.typeText d = world.typeText d
  | .data _ | .ellipsis | .module _ | .form _ | .text _ | .forward _ _ _ | .literal _ => by
    simp only [typeText]
  | .cls c | .object c | .member c _ => by simp only [typeText, classText_bare]
  | .generic native origin args => by
    cases native <;> cases origin <;> simp only [typeText, classText_bare, typeTexts_bare args]
  | .annotated inner _ => by simp only [typeText, typeText_bare inner]
  | .classVar inner | .final inner => by simp only [typeText, typeText_bare inner]
  | .initVar inner => by
    have inside := typeText_bare inner
    cases inner with
    | cls c => simp only [typeText, className_bare]
    | _ => simp_all only [typeText]
  | .union true members => by simp only [typeText, operandTexts_bare members]
  | .union false members => by simp only [typeText, typeTexts_bare members]

private theorem typeTexts_bare : ∀ several : List Referent,
    world.bare.typeTexts several = world.typeTexts several
  | [] => rfl
  | d :: rest => by simp only [typeTexts, typeText_bare d, typeTexts_bare rest]

private theorem operandTexts_bare : ∀ several : List Referent,
    world.bare.operandTexts several = world.operandTexts several
  | [] => rfl
  | d :: rest => by simp only [operandTexts, typeText_bare d, operandTexts_bare rest]

end

@[simp] theorem shownClass_bare (c : ClassRef) : world.bare.shownClass c = world.shownClass c := by
  simp [shownClass]

@[simp] theorem argumentText_bare (d : Referent) : world.bare.argumentText d = world.argumentText d := by
  cases d <;> simp [argumentText]

@[simp] theorem shownText_bare (d : Referent) : world.bare.shownText d = world.shownText d := by
  cases d <;> simp [shownText]

@[simp] theorem groupText_bare (args : List Referent) : world.bare.groupText args = world.groupText args := by
  rw [groupText, show world.bare.argumentText = world.argumentText from funext world.argumentText_bare,
    groupText]

end Texts

end World

namespace Referent
variable (world : World)

section Forms

@[simp] theorem operandName_bare (d : Referent) : d.operandName world.bare = d.operandName world := by
  cases d <;> simp [operandName]

@[simp] theorem accept_bare (lenient : Bool) (d : Referent) :
    accept world.bare lenient d = accept world lenient d := by
  cases d <;> simp [accept]

@[simp] theorem acceptAll_bare (several : List Referent) :
    acceptAll world.bare several = acceptAll world several := by
  induction several with
  | nil => rfl
  | cons d rest ih => simp only [acceptAll, accept_bare, ih]

@[simp] theorem makeUnion_bare (members : List Referent) :
    makeUnion world.bare members = makeUnion world members := by
  simp only [makeUnion, acceptAll_bare]

@[simp] theorem apply_bare (form : TypingForm) (args : List Referent) :
    apply world.bare form args = apply world form args := by
  rw [apply.eq_def, apply.eq_def]
  split <;> simp

@[simp] theorem indexTrouble_bare (args : List Referent) (d : Referent) :
    indexTrouble world.bare args d = indexTrouble world args d := by
  have place : indexTrouble.placeName world.bare args = indexTrouble.placeName world args := by
    rw [indexTrouble.placeName.eq_def, indexTrouble.placeName.eq_def]
    split <;> simp
  have texts : world.bare.argumentText = world.argumentText := funext world.argumentText_bare
  rw [indexTrouble.eq_def, indexTrouble.eq_def]
  split <;> simp [place, texts]

@[simp] theorem subscribe_bare (head : Referent) (args : List Referent) :
    subscribe world.bare head args = subscribe world head args := by
  rw [subscribe.eq_def, subscribe.eq_def]
  split <;> simp

@[simp] theorem marked_bare (markers : List Marker) (d : Referent) :
    marked world.bare markers d = marked world markers d := by
  rw [marked.eq_def, marked.eq_def]
  simp

@[simp] theorem annotate_bare (d : Referent) (markers : List Marker) :
    annotate world.bare d markers = annotate world d markers := by
  simp only [annotate, accept_bare, marked_bare]

@[simp] theorem join_bare (a b : Referent) : join world.bare a b = join world a b := by
  simp only [join, makeUnion_bare, operandName_bare]

end Forms

variable (find : TypeExpr → Bool → Nat → Evaluator Referent)

mutual

@[simp] theorem replace_bare : ∀ d : Referent, replace world.bare find d = replace world find d
  | .text _ | .forward _ _ _ | .data _ | .ellipsis | .cls _ | .module _ | .form _ | .object _ | .member _ _
  | .literal _ | .initVar _ => by simp only [replace]
  | .generic _ _ args => by simp only [replace, replaceAll_bare args]
  | .annotated inner _ => by simp only [replace, replace_bare inner, marked_bare]
  | .classVar inner | .final inner => by simp only [replace, replace_bare inner]
  | .union _ members => by simp only [replace, replaceAll_bare members, makeUnion_bare]

private theorem replaceAll_bare : ∀ several : List Referent,
    replaceAll world.bare find several = replaceAll world find several
  | [] => rfl
  | d :: rest => by simp only [replaceAll, replace_bare d, replaceAll_bare rest]

end

end Referent

namespace Environment
variable (world : World) (layers : List Bindings)

@[simp] theorem denote_bare (dotted : Text) :
    (⟨world.bare, layers⟩ : Environment).denote dotted = (⟨world, layers⟩ : Environment).denote dotted := by
  rw [denote.eq_def, denote.eq_def]
  split
  · rfl
  · simp only [World.selectAll_bare]
    rfl

@[simp] theorem denoteType_bare (dotted : Text) : (⟨world.bare, layers⟩ : Environment).denoteType dotted =
    (⟨world, layers⟩ : Environment).denoteType dotted := by
  simp only [denoteType, denote_bare]

@[simp] theorem denoteMarker_bare (marker : Marker) :
    (⟨world.bare, layers⟩ : Environment).denoteMarker marker =
      (⟨world, layers⟩ : Environment).denoteMarker marker := by
  cases marker <;> simp only [denoteMarker, denote_bare, World.typeText_bare]

@[simp] theorem denoteMarkers_bare (markers : List Marker) :
    (⟨world.bare, layers⟩ : Environment).denoteMarkers markers =
      (⟨world, layers⟩ : Environment).denoteMarkers markers := by
  induction markers with
  | nil => rfl
  | cons marker rest ih => simp only [denoteMarkers, denoteMarker_bare, ih]

mutual

theorem evaluate_bare : ∀ expr : TypeExpr,
    (⟨world.bare, layers⟩ : Environment).evaluate expr = (⟨world, layers⟩ : Environment).evaluate expr
  | .none | .ellipsis | .quoted _ => by simp only [evaluate]
  | .name dotted => by simp only [evaluate, denoteType_bare]
  | .subscript head args => by
    simp only [evaluate, denote_bare, evaluateAll_bare args, Referent.subscribe_bare]
  | .literal values => by simp only [evaluate, denote_bare, Referent.subscribe_bare]
  | .annotated inner markers => by
    simp only [evaluate, denote_bare, evaluate_bare inner, denoteMarkers_bare, Referent.annotate_bare,
      Referent.subscribe_bare]
  | .union operands => by simp only [evaluate, evaluateBars_bare operands]

private theorem evaluateAll_bare : ∀ several : List TypeExpr,
    (⟨world.bare, layers⟩ : Environment).evaluateAll several =
      (⟨world, layers⟩ : Environment).evaluateAll several
  | [] => by simp only [evaluateAll]
  | expr :: rest => by simp only [evaluateAll, evaluate_bare expr, evaluateAll_bare rest]

private theorem evaluateBars_bare : ∀ (operands : List TypeExpr) (joined : Option Referent),
    (⟨world.bare, layers⟩ : Environment).evaluateBars joined operands =
      (⟨world, layers⟩ : Environment).evaluateBars joined operands
  | [], _ => by simp only [evaluateBars]
  | expr :: rest, joined => by
    simp only [evaluateBars, evaluate_bare expr, evaluateBars_bare rest, Referent.join_bare]

end

end Environment

namespace World
variable (world : World)

@[simp] theorem moduleFirst_bare (c : ClassRef) :
    world.bare.moduleFirst c = ⟨world.bare, (world.moduleFirst c).layers⟩ := by
  simp [moduleFirst, ownNames]

@[simp] theorem classFirst_bare (c : ClassRef) :
    world.bare.classFirst c = ⟨world.bare, (world.classFirst c).layers⟩ := by
  simp [classFirst, ownNames]

private theorem ownFieldTable?_bare : world.bare.ownFieldTable? = world.ownFieldTable? := by
  funext c
  simp [ownFieldTable?]

@[simp] theorem fieldTable?_bare (c : ClassRef) : world.bare.fieldTable? c = world.fieldTable? c := by
  rw [fieldTable?, resolutionOrder_bare, ownFieldTable?_bare, fieldTable?]

@[simp] theorem readFields_bare (asked : Text) (table : FieldTable) :
    world.bare.readFields asked table = world.readFields asked table := by
  rw [readFields.eq_def, readFields.eq_def]
  split <;> simp

@[simp] theorem fields_bare (c : ClassRef) : world.bare.fields c = world.fields c := by
  simp [fields]

@[simp] theorem isUnchecked_bare (c : ClassRef) : world.bare.isUnchecked c = world.isUnchecked c := by
  simp [isUnchecked]

@[simp] theorem rootPackage_bare (c : ClassRef) : world.bare.rootPackage c = world.rootPackage c := by
  simp [rootPackage]

@[simp] theorem isRelated_bare (reflected base : ClassRef) :
    world.bare.isRelated reflected base = world.isRelated reflected base := by
  simp [isRelated]

end World

section Keeping

/-- The annotations of some names only. -/
def Annotations.keeping (keep : Text → Bool) : Annotations → Annotations
  | .table entries => .table (entries.filter fun entry => keep entry.1)
  | other => other

namespace World
variable (world : World) (keep : ClassRef → Text → Bool)

/-- The world whose classes keep the annotations of some names only. -/
def keeping : World :=
  { world with classes := world.classes.mapIdx fun index info =>
      { info with annotations := info.annotations.keeping (keep (.declared index)) } }

private theorem bare_keeping : (world.keeping keep).bare = world.bare := by
  have classes : (world.keeping keep).classes.map (·.bare) = world.classes.map (·.bare) :=
    List.ext_getElem? fun index => by
      simp [keeping, ClassInfo.bare, List.getElem?_mapIdx, Function.comp_def]
  rw [bare, classes]
  rfl

/-- What does not look at annotations is the same where only some are kept. -/
theorem eq_keeping {α : Type} {f : World → α} (hf : ∀ world, f world.bare = f world) :
    f (world.keeping keep) = f world := by
  rw [← hf, bare_keeping, hf]

theorem ownAnnotations_keeping (c : ClassRef) :
    (world.keeping keep).ownAnnotations c = (world.ownAnnotations c).keeping (keep c) := by
  cases c with
  | standard s => rfl
  | declared index =>
    simp only [ownAnnotations, info?, keeping, List.getElem?_mapIdx]
    cases world.classes[index]? <;> rfl

end World

end Keeping

end Specimen
