import Specimen.Reflection.Lookup
import Specimen.Reflection.TypeText

/-!
Evaluation of type expressions. Strings inside an expression are kept; following a type evaluates them
in turn.
-/
namespace Specimen

/-- Whether a class takes arguments in brackets, by itself or by inheritance. -/
def World.isGeneric (world : World) (c : ClassRef) : Bool :=
  (world.resolutionOrder c).any fun
    | .standard s => s.isGeneric
    | .declared _ => false

abbrev Evaluator := ExceptT Trouble (StateM Memory)

def Evaluator.newNumber : Evaluator Nat := do
  let memory ← get
  set memory.refer
  return memory.found.length

/-- The type of a form with its arguments: the one that was made first, or else a new one. Nothing is
remembered of arguments that cannot be dictionary keys. -/
def Evaluator.recalling (form : TypingForm) (args : List Referent) (markers : List Marker)
    (make : Evaluator Referent) : Evaluator Referent := do
  if !Referent.areHashable args then make
  else match (← get).madeBefore? form args markers with
    | some type => return type
    | none =>
      let type ← make
      modify (·.keep ⟨form, args, markers, type⟩)
      return type

namespace Referent

def operandName (world : World) : Referent → Text
  | .data value => value.typeName
  | .ellipsis => "ellipsis"
  | .cls c => (world.metaclass c).name
  | .generic true _ _ => "types.GenericAlias"
  | .union true _ => "types.UnionType"
  | .module _ => "module"
  | .text _ => "str"
  | .object (.standard s) => s.name
  | .member c _ => world.className c
  | .initVar _ => "InitVar"
  | .form (.alias _ _ _) => "_SpecialGenericAlias"
  | .form _ => "_SpecialForm"
  | .generic false _ _ | .classVar _ | .final _ => "_GenericAlias"
  | .union false _ => "_UnionGenericAlias"
  | .literal _ => "_LiteralGenericAlias"
  | .annotated _ _ => "_AnnotatedAlias"
  | _ => "object"

/-- A referent in the place of a type: the absent value is its type, a string is a forward
reference, and a class variable has to be in a lenient place. -/
def accept (world : World) (lenient : Bool) : Referent → Evaluator Referent
  | .data .none => return noneType
  | .text expr => return .forward expr lenient (← Evaluator.newNumber)
  | .classVar inner =>
    if lenient then return .classVar inner
    else throw (.notAnArgument (world.typeText (.classVar inner)))
  | .final inner =>
    if lenient then return .final inner
    else throw (.notAnArgument (world.typeText (.final inner)))
  | .form (.alias name origin arity) => return .form (.alias name origin arity)
  | .form bare =>
    if lenient && (bare == .classVar || bare == .final) then return .form bare
    else throw (.bareForm ("typing." ++ Library.formName bare))
  | .cls (.standard .generic) => throw (.bareForm "<class 'typing.Generic'>")
  | d => return d

def acceptAll (world : World) : List Referent → Evaluator (List Referent)
  | [] => return []
  | d :: rest => do
    let first ← accept world false d
    return first :: (← acceptAll world rest)

def isNativeOperand : Referent → Bool
  | .data .none | .cls _ | .generic true _ _ | .union true _ => true
  | _ => false

def isTypingOperand : Referent → Bool
  | .form _ | .forward _ _ _ | .generic false _ _ | .union false _ | .literal _ | .annotated _ _
  | .classVar _ | .final _ => true
  | _ => false

/-- An operand of bars as a member of their union: the absent value is its type. -/
def asMember : Referent → Referent
  | .data .none => noneType
  | d => d

def isNone : Referent → Bool
  | .data .none => true
  | _ => false

def checkCount (name : Text) (actual : Nat) (arity : Option Nat) : Except Trouble Unit :=
  match arity.filter (· ≠ actual) with
  | Option.none => .ok ()
  | some 0 => .error (.notGeneric (typingModule ++ name))
  | some expected => .error (.argumentCount (typingModule ++ name) actual expected)

def uniteNew (native : Bool) (members : List Referent) : Evaluator Referent := do
  match unite (← get).agree native members with
  | .ok d => return d
  | .error typeName => throw (.conversion (.unhashable typeName))

def makeUnion (world : World) (members : List Referent) : Evaluator Referent :=
  .recalling .union members [] do uniteNew false (← acceptAll world members)

def apply (world : World) (form : TypingForm) (args : List Referent) : Evaluator Referent :=
  match form, args with
  | .alias name origin arity, args => do
    if origin = .callable then
      if args.length ≠ 2 then throw .callableForm
    .recalling form args [] do
      let accepted ← acceptAll world args
      checkCount name args.length arity
      return .generic false (.standard origin) accepted
  | .optional, [arg] =>
    .recalling form args [] do makeUnion world [← accept world false arg, noneType]
  | .union, args => makeUnion world args
  | .classVar, [arg] => .recalling form args [] do return .classVar (← accept world false arg)
  | .final, [arg] => .recalling form args [] do return .final (← accept world false arg)
  | bare, args =>
    throw (.severalTypes ("typing." ++ Library.formName bare) (bare == .optional)
      (world.groupText args))

def indexTrouble (world : World) (args : List Referent) : Referent → Trouble
  | .data (.str _) => .wrongPlace "str" placeName
  | .data (.list _) => .wrongPlace "list" placeName
  | .data (.dict _) =>
    match args with
    | [arg] => .noEntry (world.argumentText arg)
    | args => .noEntry ("(" ++ List.intercalate ", " (args.map world.argumentText) ++ ")")
  | d => .notIndexable (d.operandName world)
where
  /-- The name of the class of the arguments. -/
  placeName : Text :=
    match args with
    | [arg] => arg.operandName world
    | _ => "tuple"

def subscribe (world : World) (head : Referent) (args : List Referent) : Evaluator Referent :=
  match head, args with
  | .form bare, args => apply world bare args
  | .cls (.standard .initVar), [arg] => return .initVar arg
  | .cls (.standard .callable), args => do
    match args with
    | [.ellipsis, result] => return .generic true (.standard .callable) [.ellipsis, result]
    | [parameters, _] => throw (.parameterList (world.shownText parameters))
    | _ => throw .callableForm
  | .cls c, args =>
    if world.isGeneric c then return .generic true c args
    else throw (.notSubscriptable (world.className c))
  | d, args => throw (indexTrouble world args d)

def literalOf (values : List Data) : Evaluator Referent :=
  .recalling .literal (values.map .data) [] do
    return .literal (if values.all Data.isHashable then Data.distinctLiterals values else values)

def modular : List StandardClass := [.function, .builtinFunction, .fieldSpec]

/-- A referent with markers. It has to tell its module. -/
def marked (world : World) (markers : List Marker) (d : Referent) : Except Trouble Referent := do
  match d with
  | .data _ | .module _ => let _ ← world.select d "__module__"
  | .ellipsis => let _ ← world.select (.object (.standard .ellipsisType)) "__module__"
  | .object (.standard s) => if !modular.contains s then let _ ← world.select d "__module__"
  | _ => pure ()
  return d.mark markers

def annotate (world : World) (d : Referent) (markers : List Marker) : Evaluator Referent :=
  .recalling .annotated [d] markers do marked world markers (← accept world true d)

def join (world : World) (a b : Referent) : Evaluator Referent := do
  if a.isNativeOperand && b.isNativeOperand && !(a.isNone && b.isNone) then
    uniteNew true [a.asMember, b.asMember]
  else if a.isTypingOperand || b.isTypingOperand then makeUnion world [a, b]
  else throw (.badOperands (a.operandName world) (b.operandName world))

mutual

/-- A type with every string inside it replaced by what is found for it. -/
def replace (world : World) (find : TypeExpr → Bool → Nat → Evaluator Referent) :
    Referent → Evaluator Referent
  | .text expr => do find expr false (← Evaluator.newNumber)
  | .forward expr lenient number => find expr lenient number
  | .generic native origin args => return .generic native origin (← replaceAll world find args)
  | .annotated inner markers => do marked world markers (← replace world find inner)
  | .classVar inner => return .classVar (← replace world find inner)
  | .final inner => return .final (← replace world find inner)
  | .union native members => do
    let found ← replaceAll world find members
    if sameList (← get).agree members found then return .union native members
    else if native then uniteNew true found
    else makeUnion world found
  | d => return d

/-- Types with every string inside them replaced by what is found for it. -/
def replaceAll (world : World) (find : TypeExpr → Bool → Nat → Evaluator Referent) :
    List Referent → Evaluator (List Referent)
  | [] => return []
  | d :: rest => do
    let first ← replace world find d
    return first :: (← replaceAll world find rest)

end

end Referent

namespace Environment

/-- What a name denotes in a type expression. One that is bound to a text stands for a string with that
text as its expression. -/
def denoteType (env : Environment) (dotted : Text) : Except Trouble Referent := do
  match ← env.denote dotted with
  | .data (.str text) => return .text (.name text)
  | d => return d

/-- What a marker stands for. Where its name is bound to something else, that is a note. -/
def denoteMarker (env : Environment) : Marker → Except Trouble Marker
  | .note text => .ok (.note text)
  | .unserialized isInstance => do
    match ← env.denote Marker.className with
    | .cls (.standard .nonSerialized) => return .unserialized isInstance
    | d => return .note (env.world.typeText d)

def denoteMarkers (env : Environment) : List Marker → Except Trouble (List Marker)
  | [] => .ok []
  | m :: rest => do
    let first ← denoteMarker env m
    return first :: (← denoteMarkers env rest)

mutual

def evaluate (env : Environment) : TypeExpr → Evaluator Referent
  | .none => return .none
  | .ellipsis => return .ellipsis
  | .name dotted => env.denoteType dotted
  | .quoted inner => return .text inner
  | .subscript head args => do
    let owner ← env.denote head
    Referent.subscribe env.world owner (← evaluateAll env args)
  | .literal values => do
    match ← env.denote "typing.Literal" with
    | .form .literal => Referent.literalOf values
    | owner => Referent.subscribe env.world owner (values.map .data)
  | .annotated inner markers => do
    let owner ← env.denote "typing.Annotated"
    let d ← evaluate env inner
    let markers ← env.denoteMarkers markers
    match owner with
    | .form .annotated => Referent.annotate env.world d markers
    | owner => Referent.subscribe env.world owner [d]
  | .union operands => evaluateBars env Option.none operands

def evaluateAll (env : Environment) : List TypeExpr → Evaluator (List Referent)
  | [] => return []
  | expr :: rest => do
    let first ← evaluate env expr
    return first :: (← evaluateAll env rest)

/-- Operands joined by bars from the left, after those that have been joined. -/
def evaluateBars (env : Environment) (joined : Option Referent) :
    List TypeExpr → Evaluator Referent
  | [] => return joined.getD .none
  | expr :: rest => do
    let next ← evaluate env expr
    match joined with
    | some before => evaluateBars env (some (← Referent.join env.world before next)) rest
    | Option.none => evaluateBars env (some next) rest

end

def chainLimit : Nat := 1000

/-- What a forward reference denotes, every string in that followed too. One that leads back to itself
stays, and so does one at the end of a chain that is too long. Where knowledge is reused, what was found
before is not looked for again. -/
def find (env : Environment) (reuse : Bool) :
    (fuel : Nat) → (seen : List Text) → TypeExpr → (lenient : Bool) → (number : Nat) →
      Evaluator Referent
  | 0, _, expr, lenient, number => return .forward expr lenient number
  | fuel + 1, seen, expr, lenient, number => do
    if seen.contains expr.text then return .forward expr lenient number
    match (← get).found? number, reuse with
    | some d, true => return d
    | _, _ =>
      let d ← Referent.accept env.world lenient (← env.evaluate expr)
      let found ← Referent.replace env.world (find env reuse fuel (expr.text :: seen)) d
      modify (·.settle number found)
      return found

def follow (env : Environment) (reuse : Bool) (d : Referent) : Evaluator Referent :=
  Referent.replace env.world (env.find reuse chainLimit []) d

def followWhole (env : Environment) (reuse lenient : Bool) (d : Referent) : Evaluator Referent := do
  match d with
  | .text expr => env.follow reuse (.forward expr lenient (← Evaluator.newNumber))
  | .data .none => return .noneType
  | d => env.follow reuse d

end Environment

end Specimen
