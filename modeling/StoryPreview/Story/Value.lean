import StoryPreview.Number.Decimal
import StoryPreview.Script.Node
/-!
Values of story variables: how a literal is read, how values are computed with and how they compare.
All arithmetic is that of double precision; a result that is a whole number is kept as one.
-/
namespace StoryPreview

inductive Value
  | int (n : Int)
  | float (x : Number.Binary)
  | bool (b : Bool)
  | text (s : String)
  deriving DecidableEq

/-- Why a value could not be modified or compared. -/
inductive ValueError
  | notANumber (text : String)
  | divisionByZero
  | notOrdered (left right : String)
  deriving DecidableEq

def ValueError.message : ValueError → String
  | .notANumber text => "'" ++ text ++ "' is not a number"
  | .divisionByZero => "division by zero"
  | .notOrdered left right =>
    "'" ++ left ++ "' and '" ++ right ++ "' can only be compared for equality"

namespace Value

open Number (Binary)

/-- The whole numbers that a value may be: those of 64 bits with a sign. -/
def inRange (n : Int) : Bool := -9223372036854775808 ≤ n && n < 9223372036854775808

/-- Reads a literal as the first of these that it is: a whole number, a number, a truth value, a
text. -/
def ofLiteral (literal : String) : Value :=
  let cs := literal.toList
  match (Number.int? cs).filter inRange with
  | some n => .int n
  | none =>
    match Binary.ofText? .double cs with
    | some x => .float x
    | none =>
      if literal = "true" then .bool true
      else if literal = "false" then .bool false
      else .text literal

/-- The value of a number: whole numbers below `2 ^ 63` in size are kept as such. -/
def ofNumber (x : Binary) : Value :=
  match x.toInt? with
  | some n => if n.natAbs < 9223372036854775808 then .int n else .float x
  | none => .float x

/-- The number a value is. -/
def toNumber? : Value → Option Binary
  | .int n => some (.ofInt .double n)
  | .float x => some x
  | _ => none

def render : Value → String
  | .int n => toString n
  | .float x => x.text .double
  | .bool b => if b then "true" else "false"
  | .text s => s

/-- A number that is required. -/
def number (v : Value) : Except ValueError Binary :=
  match v.toNumber? with
  | some x => .ok x
  | none => .error (.notANumber v.render)

/-- The result of an operation on numbers. -/
def compute (op : Operation) (a b : Binary) : Except ValueError Binary :=
  match op with
  | .add => .ok (a.add .double b)
  | .subtract => .ok (a.sub .double b)
  | .multiply => .ok (a.mul .double b)
  | .divide => if b.isZero then .error .divisionByZero else .ok (a.div .double b)

/-- The value after an operation; one that is missing counts as zero. -/
def modify (current : Option Value) (op : Operation) (operand : String) :
    Except ValueError Value := do
  let a ← (current.getD (.int 0)).number
  let b ← match (ofLiteral operand).toNumber? with
    | some b => .ok b
    | none => .error (.notANumber operand)
  return ofNumber (← compute op a b)

/-- Two numbers less than this apart count as equal: the gap between one and the next number. -/
def tolerance : Binary := .finite false 1 (-52)

def compareNumbers (cmp : Comparison) (a b : Binary) : Bool :=
  match cmp with
  | .equal => (a.sub .double b).abs.lt tolerance
  | .notEqual => tolerance.le (a.sub .double b).abs
  | .less => a.lt b
  | .lessOrEqual => a.le b
  | .greater => b.lt a
  | .greaterOrEqual => b.le a

/-- Whether the comparison holds. Two numbers compare as such; any other pair only for equality of
their texts. -/
def compare (cmp : Comparison) (a b : Value) : Except ValueError Bool :=
  match a.toNumber?, b.toNumber? with
  | some x, some y => .ok (compareNumbers cmp x y)
  | _, _ =>
    match cmp with
    | .equal => .ok (a.render = b.render)
    | .notEqual => .ok (a.render ≠ b.render)
    | _ => .error (.notOrdered a.render b.render)

end Value

end StoryPreview
