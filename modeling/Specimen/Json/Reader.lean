import Specimen.Json.Token

/-!
Reading JSON text. A machine takes one token at a time; its stack holds the arrays and objects that
are still open, so the stack's height is the nesting depth.
-/
namespace Specimen.Json

/-- Why a text cannot be read. -/
inductive ReadFailure where
  | fault (fault : Fault) (position : Nat)
  /-- More arrays and objects inside each other than the reader keeps open. -/
  | tooDeep
  /-- An integer literal with more digits than the reader takes. -/
  | longInteger (digits : Nat)
  deriving DecidableEq, Repr

/-- Bounds of a reader: the most containers open at once, and the most digits of a plain integer
where there is such a bound. -/
structure ReadLimits where
  nesting : Nat
  digits : Option Nat
  deriving DecidableEq, Repr

namespace Reader

/-- An open container with what it holds so far, the last first. -/
inductive Frame where
  | array (items : List Document)
  | object (members : List (Text × Document))
  /-- An object whose next value belongs to a name. -/
  | member (members : List (Text × Document)) (name : Text)
  deriving Repr

inductive Expected where
  | value
  | itemOrClose
  | name
  | nameOrClose
  | colon
  | separator
  | nothing (document : Document)
  deriving Repr

/-- The open containers, the innermost first, and what is expected. -/
structure State where
  stack : List Frame
  expected : Expected
  deriving Repr

def start : State := ⟨[], .value⟩

def finish (value : Document) : List Frame → State
  | [] => ⟨[], .nothing value⟩
  | .array items :: rest => ⟨.array (value :: items) :: rest, .separator⟩
  | .object members :: rest => ⟨.object members :: rest, .separator⟩
  | .member members name :: rest => ⟨.object ((name, value) :: members) :: rest, .separator⟩

def close : List Frame → State
  | .array items :: rest => finish (.array items.reverse) rest
  | .object members :: rest => finish (.object members.reverse) rest
  | stack => ⟨stack, .separator⟩

def Expected.fault : Expected → Fault
  | .value | .itemOrClose => .expectingValue
  | .name | .nameOrClose => .expectingName
  | .colon => .expectingColon
  | .separator => .expectingComma
  | .nothing _ => .extraData

def digitsOf (literal : Text) : Nat := (literal.filter Numeral.isDigit).length

def beginValue (limits : ReadLimits) (stack : List Frame) (token : Located) :
    Except ReadFailure State :=
  match token.token with
  | .null => .ok (finish .null stack)
  | .bool value => .ok (finish (.bool value) stack)
  | .string value => .ok (finish (.string value) stack)
  | .number literal plain =>
    match limits.digits with
    | some most =>
      if plain && most < digitsOf literal then .error (.longInteger (digitsOf literal))
      else .ok (finish (.number literal) stack)
    | none => .ok (finish (.number literal) stack)
  | .openArray =>
    if limits.nesting ≤ stack.length then .error .tooDeep else .ok ⟨.array [] :: stack, .itemOrClose⟩
  | .openObject =>
    if limits.nesting ≤ stack.length then .error .tooDeep else .ok ⟨.object [] :: stack, .nameOrClose⟩
  | .brokenString fault position => .error (.fault fault position)
  | _ => .error (.fault .expectingValue token.position)

def beginName (stack : List Frame) (token : Located) : Except ReadFailure State :=
  match token.token, stack with
  | .string name, .object members :: rest => .ok ⟨.member members name :: rest, .colon⟩
  | .brokenString fault position, _ => .error (.fault fault position)
  | _, _ => .error (.fault .expectingName token.position)

/-- The machine after a token between the values of a container. -/
def separate (stack : List Frame) (token : Located) : Except ReadFailure State :=
  match token.token, stack with
  | .comma, .array _ :: _ => .ok ⟨stack, .value⟩
  | .comma, .object _ :: _ => .ok ⟨stack, .name⟩
  | .closeArray, .array _ :: _ => .ok (close stack)
  | .closeObject, .object _ :: _ => .ok (close stack)
  | _, _ => .error (.fault .expectingComma token.position)

def step (limits : ReadLimits) (state : State) (token : Located) : Except ReadFailure State :=
  match state.expected with
  | .value => beginValue limits state.stack token
  | .itemOrClose =>
    if token.token = .closeArray then .ok (close state.stack) else beginValue limits state.stack token
  | .name => beginName state.stack token
  | .nameOrClose =>
    if token.token = .closeObject then .ok (close state.stack) else beginName state.stack token
  | .colon =>
    if token.token = .colon then .ok ⟨state.stack, .value⟩
    else .error (.fault .expectingColon token.position)
  | .separator => separate state.stack token
  | .nothing _ => .error (.fault .extraData token.position)

/-- The document that the machine ends with; `stop` is the position after the last character. -/
def run (limits : ReadLimits) (stop : Nat) : State → List Located → Except ReadFailure Document
  | state, [] =>
    match state.expected with
    | .nothing document => .ok document
    | expected => .error (.fault expected.fault stop)
  | state, token :: rest => do run limits stop (← step limits state token) rest

end Reader

/-- The document that a text denotes, names repeated as written; or the first obstacle. -/
def read (limits : ReadLimits) (text : Text) : Except ReadFailure Document :=
  if text.head? = some 0xFEFF then .error (.fault .byteOrderMark 0)
  else Reader.run limits text.length Reader.start (Token.scan text)

end Specimen.Json
