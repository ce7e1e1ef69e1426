import Specimen.Loading.Enumeration.Value

/-!
Dates, times of day and durations: what becomes of the fields that they are made of.
-/
namespace Specimen.Enumeration

def wordLimit : Int := 2147483647

private def checkWord (n : Int) : Except ConversionFault Unit :=
  if countLimit ≤ n || n < -countLimit then .error (.largeWord "long")
  else if wordLimit < n then .error .aboveWord
  else if n < -wordLimit - 1 then .error .belowWord
  else .ok ()

private def wordOf : Data → Except ConversionFault Int
  | .int n => do
    checkWord n
    return n
  | .bool b => .ok (countOf b)
  | value => .error (.notAnIndex value.typeName)

def monthDays (year month : Int) : Int :=
  if month = 2 then
    if year % 4 = 0 && (year % 100 ≠ 0 || year % 400 = 0) then 29 else 28
  else if [4, 6, 9, 11].contains month then 30
  else 31

private def checkField (name : Text) (least greatest value : Int) : Except ConversionFault Unit :=
  if least ≤ value && value ≤ greatest then .ok () else .error (.fieldRange name least greatest)

private def missingField (name : Text) (position : Nat) : Except ConversionFault Unit :=
  .error (.missingArgument "function" name position)

def checkDay : List Int → Except ConversionFault Unit
  | [] => missingField "year" 1
  | [_] => missingField "month" 2
  | [_, _] => missingField "day" 3
  | year :: month :: day :: _ => do
    if year < 1 || 9999 < year then throw (.yearRange year)
    checkField "month" 1 12 month
    if day < 1 || monthDays year month < day then throw .dayRange

def clockFields : List (Text × Int) :=
  [("hour", 23), ("minute", 59), ("second", 59), ("microsecond", 999999)]

def checkClock (values : List Int) : Except ConversionFault Unit :=
  (clockFields.zip values).forM fun ((name, greatest), value) => checkField name 0 greatest value

def checkZone : Option Data → Except ConversionFault Unit
  | none | some .none => .ok ()
  | some value => .error (.noZone value.typeName)

/-- The fields that a function takes by place. One more could be given by its name; that it is not is
found once the fields have been read. -/
private def fieldsOf (limit : Nat) (arguments : List Data) : Except ConversionFault (List Int) := do
  let given := arguments.length
  if limit + 1 < given then throw (.argumentLimit "function" (limit + 1) false given)
  let fields ← (arguments.take (limit - 1)).mapM wordOf
  if limit < given then throw (.argumentLimit "function" limit true given)
  return fields

private def filled (count : Nat) (fields : List Int) : Data :=
  .list ((fields ++ List.replicate (count - fields.length) 0).map .int)

def dateOf (arguments : List Data) : Except ConversionFault Data := do
  if 3 < arguments.length then throw (.argumentLimit "function" 3 false arguments.length)
  let fields ← arguments.mapM wordOf
  checkDay fields
  return filled 3 fields

def datetimeOf (arguments : List Data) : Except ConversionFault Data := do
  let fields ← fieldsOf 8 arguments
  checkDay fields
  checkClock (fields.drop 3)
  checkZone arguments[7]?
  return filled 7 fields

def timeOf (arguments : List Data) : Except ConversionFault Data := do
  let fields ← fieldsOf 5 arguments
  checkClock fields
  checkZone arguments[4]?
  return filled 4 fields

/-- The components of a duration in the order in which they are added up: their places among the
arguments, and their lengths in microseconds. -/
def components : List (Text × Nat × Int) :=
  [("microseconds", 2, 1), ("milliseconds", 3, 1000), ("seconds", 1, 1000000), ("minutes", 4, 60000000),
    ("hours", 5, 3600000000), ("days", 0, 86400000000), ("weeks", 6, 604800000000)]

private def grain : Nat := Nat.pow 2 1074

private def grainsOf (component : Text) : Data → Except ConversionFault Int
  | .int n => .ok (n * grain)
  | .bool b => .ok (countOf b * grain)
  | .float .nan => .error .nanInteger
  | .float (.infinite _) => .error .infiniteInteger
  | .float (.finite negative significand exponent) =>
    let (n, d) := Binary64.ratio significand exponent
    let size : Int := n * (grain / d)
    .ok (if negative then -size else size)
  | value => .error (.noDuration component value.typeName)

private def checkDays (days : Int) : Except ConversionFault Unit :=
  if wordLimit < days || days < -wordLimit - 1 then .error (.largeWord "int")
  else if 999999999 < days || days < -999999999 then .error (.durationRange days)
  else .ok ()

/-- The microseconds of a duration, the nearest even number of them where two are as near. -/
def durationOf (arguments : List Data) : Except ConversionFault Data := do
  if 7 < arguments.length then throw (.argumentLimit "__new__()" 7 false arguments.length)
  let total ← components.foldlM (fun total (name, place, length) => do
    let size ← (arguments[place]?).elim (.ok 0) (grainsOf name)
    return total + size * length) (0 : Int)
  let size : Int := Binary64.roundHalfEven total.natAbs grain
  let count := if total < 0 then -size else size
  checkDays (count / 86400000000)
  return .int count

end Specimen.Enumeration
