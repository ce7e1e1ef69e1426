import Specimen.Text.Quoted

/-!
Why there is no enumeration of a declaration.
-/
namespace Specimen

/-- Why a declaration gives no enumeration. -/
inductive EnumerationFault where
  /-- A name between single underscores without a meaning. -/
  | reservedName (name : Text)
  /-- A name that is bound again, to a member or after something else. -/
  | redefined (name shown : Text)
  /-- Names to be ignored that are members already. -/
  | ignoredMembers (names : List Text)
  | invalidName (name : Text)
  /-- An enumeration below one that has members, which may be flags. -/
  | extended (name base : Text) (areFlags : Bool)
  /-- An enumeration whose last base is none. -/
  | baseOrder
  /-- Several classes that could make the members' values. -/
  | severalBases (name : Text) (types : List Text)
  /-- An enumeration shown like its values whose values belong to no class. -/
  | missingBasis
  /-- Objects of identifiers cannot be changed. -/
  | immutable
  /-- A stated order of members that is not theirs. -/
  | order (members given : Text)
  /-- A member of flags whose value is no number, where its bits are looked at. -/
  | badDifference (typeName : Text)
  | badIntersection (typeName : Text)
  deriving DecidableEq, Repr

def EnumerationFault.text : EnumerationFault → Text
  | .reservedName name =>
    "_sunder_ names, such as " ++ name.quoted ++ ", are reserved for future Enum use"
  | .redefined name shown => name.quoted ++ " already defined as " ++ shown
  | .ignoredMembers names =>
    "_ignore_ cannot specify already set names: \x7b" ++ List.intercalate ", " (names.map Text.quoted) ++ "\x7d"
  | .invalidName name => "invalid enum member name(s) " ++ name.quoted
  | .extended name base areFlags =>
    "<enum " ++ name.quoted ++ "> cannot extend <" ++ (if areFlags then ("flag" : Text) else "enum") ++
      " " ++ base.quoted ++ ">"
  | .baseOrder =>
    "new enumerations should be created as " ++
      "\x60EnumName([mixin_type, ...] [data_type,] enum_type)\x60"
  | .severalBases name types =>
    "too many data types for " ++ name.quoted ++ ": \x7b" ++ List.intercalate ", " types ++ "\x7d"
  | .missingBasis =>
    "ReprEnum subclasses must be mixed with a data type (i.e. int, str, float, etc.)"
  | .immutable => "UUID objects are immutable"
  | .order members given =>
    "member order does not match _order_:\n  " ++ members ++ "\n  " ++ given
  | .badDifference typeName => "unsupported operand type(s) for -: '" ++ typeName ++ "' and 'int'"
  | .badIntersection typeName =>
    "unsupported operand type(s) for &=: '" ++ typeName ++ "' and '" ++ typeName ++ "'"

end Specimen
