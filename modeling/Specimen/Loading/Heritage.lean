import Specimen.Reflection.Lookup

/-!
What a class declaration inherits from: the classes that its bases stand for. A generic name stands for
the class behind it and for the class of generic classes.
-/
namespace Specimen

/-- The bases of a class declaration. -/
structure Heritage where
  bases : List ClassRef
  /-- Whether generic names were written among the bases. -/
  isRewritten : Bool
  /-- Whether the class of generic classes was written among the bases. -/
  isPlain : Bool
  /-- Why no class comes of the bases, where that shows only once the body has been run. -/
  fault : Option BaseFault
  deriving Repr, Inhabited

namespace Heritage

def generic : Referent := .standard .generic

def isGenericName : Referent → Bool
  | .form (.alias _ _ _) => true
  | _ => false

/-- Whether bases name generic classes; every one in front of such a base has to be a class. -/
def namesGeneric (world : World) : List Referent → Except BaseFault Bool
  | [] => .ok false
  | .form (.alias _ _ _) :: _ => .ok true
  | .cls c :: rest => if world.descends c .generic then .ok true else namesGeneric world rest
  | _ :: _ => .error .notAClass

def expand (world : World) (written : List Referent) : List Referent → Except BaseFault (List Referent)
  | [] => .ok []
  | .form (.alias _ origin _) :: rest => do
    let its := if written.any (Referent.standard origin).same then [] else [Referent.standard origin]
    let last := if ← namesGeneric world rest then [] else [generic]
    return its ++ last ++ (← expand world written rest)
  | .form .annotated :: rest => do return .form .annotated :: (← expand world written rest)
  | .form bare :: _ => .error (.sealed ("typing." ++ Library.formName bare))
  | base :: rest => do return base :: (← expand world written rest)

def kindOf (world : World) : Referent → ClassRef
  | .cls c => .standard (world.metaclass c)
  | .data value => .standard value.standardClass
  | .module _ => .standard .module
  | .object c => c
  | .member enumeration _ => enumeration
  | .ellipsis => .standard .ellipsisType
  | _ => .standard .type

/-- The lowest of classes, one of every two being above the other. -/
def lowest (world : World) (kind : ClassRef) : List ClassRef → Except BaseFault ClassRef
  | [] => .ok kind
  | other :: rest =>
    if (world.resolutionOrder kind).contains other then lowest world kind rest
    else if (world.resolutionOrder other).contains kind then lowest world other rest
    else .error .metaclassConflict

/-- Why a class that is not one of classes makes no object of what a class is made of. -/
def refusal (kind : ClassRef) : BaseFault :=
  match kind with
  | .declared _ => .other
  | .standard s =>
    match s with
    | .int | .module => .argumentLimit s.name 2
    | .mappingProxy => .argumentLimit s.name 1
    | .float | .bool | .list | .dict | .tuple | .set => .singleArgument s.name
    | .noneType | .notImplementedType => .noArguments s.name
    | .ellipsisType => .noArguments "EllipsisType"
    | .str => .encoding
    | .function => .code
    | .builtinFunction | .methodDescriptor | .memberDescriptor => .uncreatable s.name
    | _ => .other

def asBase : Referent → Option ClassRef
  | .cls c => some c
  | _ => none

def ofReferents (world : World) (moduleName : Text) (written : List Referent) :
    Except BaseFault Heritage := do
  let bases ← expand world written written
  let kinds := bases.map (kindOf world)
  let kind ← lowest world (kinds.headD (.standard .type)) kinds
  if world.descends kind .enum then throw (.noAncestors (world.className kind))
  let fault :=
    if !world.descends kind .type then some (refusal kind)
    else if written.any (Referent.form .annotated).same then
      some (.sealed (moduleName ++ "." ++ Library.formName .annotated))
    else none
  return ⟨bases.filterMap asBase, written.any isGenericName, written.any generic.same, fault⟩

def denoteAll (env : Environment) : List Text → Except Trouble (List Referent)
  | [] => .ok []
  | name :: rest => do
    let found ← env.denote name
    return found :: (← denoteAll env rest)

/-- What a class declared in a module inherits from, its bases being written as dotted names. -/
def ofNames (env : Environment) (moduleName : Text) (names : List Text) : Except Trouble Heritage := do
  let written ← denoteAll env names
  (ofReferents env.world moduleName written).mapError .base

end Heritage

end Specimen
