import StoryPreview.Number.Decimal
/-!
JSON values, and how they are written.

A number keeps the one distinction readers of this library make: written as a whole number that a
64-bit integer holds, or in any other way.
-/
namespace StoryPreview

/-- A JSON number: a whole number from `-2 ^ 63` up to `2 ^ 64 - 1` written without point and
exponent, or any other decimal. -/
inductive JsonNumber
  | integer (n : Int)
  | decimal (d : Number.Decimal)
  deriving DecidableEq

/-- A JSON value. The fields of an object stand in the order they were written, repeated ones
included. `invalid` is a well-formed value that stands for nothing: a number beyond the range of
double precision, a text with an unpaired surrogate, an object with such a key, or an array or
object that is nested too deeply. -/
inductive Json
  | null
  | bool (b : Bool)
  | number (n : JsonNumber)
  | text (s : String)
  | array (items : List Json)
  | object (fields : List (String × Json))
  | invalid

namespace Json

/-- A natural number. -/
def nat (n : Nat) : Json := .number (.integer n)

/-- A list of texts. -/
def texts (ss : List String) : Json := .array (ss.map .text)

/-- The value, or `null` for none. -/
def ofOption (toJson : α → Json) : Option α → Json
  | none => .null
  | some a => toJson a

/-- A field that is left out when there is no value. -/
def optionalField (name : String) (toJson : α → Json) : Option α → List (String × Json)
  | none => []
  | some a => [(name, toJson a)]

/-! ## Reading a value apart -/

/-- Every value the object has under the key. -/
def values (key : String) (fields : List (String × Json)) : List Json :=
  (fields.filter (fun f => f.1 = key)).map Prod.snd

def asText? : Json → Option String
  | .text s => some s
  | _ => none

def asBool? : Json → Option Bool
  | .bool b => some b
  | _ => none

/-- A natural number below `2 ^ 64`. -/
def asNat? : Json → Option Nat
  | .number (.integer n) => if 0 ≤ n then some n.toNat else none
  | _ => none

def asArray? : Json → Option (List Json)
  | .array items => some items
  | _ => none

mutual
/-- Whether the value and all it holds stand for something. -/
def isValid : Json → Bool
  | .invalid => false
  | .array items => allValid items
  | .object fields => allFieldsValid fields
  | _ => true

/-- `isValid` of every item. -/
def allValid : List Json → Bool
  | [] => true
  | v :: vs => v.isValid && allValid vs

/-- `isValid` of every field's value. -/
def allFieldsValid : List (String × Json) → Bool
  | [] => true
  | (_, v) :: fs => v.isValid && allFieldsValid fs
end

mutual
/-- The value with every key of an object standing once, for the last value it had. -/
def lastWins : Json → Json
  | .array items => .array (lastWinsItems items)
  | .object fields => .object (lastWinsFields fields)
  | v => v

/-- `lastWins` of every item. -/
def lastWinsItems : List Json → List Json
  | [] => []
  | v :: vs => v.lastWins :: lastWinsItems vs

/-- The fields whose key does not come again. -/
def lastWinsFields : List (String × Json) → List (String × Json)
  | [] => []
  | (k, v) :: fs =>
    if fs.any (fun f => f.1 = k) then lastWinsFields fs else (k, v.lastWins) :: lastWinsFields fs
end

/-! ## Writing -/

/-- One character of a text: the quote, the backslash and the control characters are escaped. -/
def writeChar (c : Char) : List Char :=
  if c = '"' then ['\\', '"']
  else if c = '\\' then ['\\', '\\']
  else if c = '\n' then ['\\', 'n']
  else if c = '\r' then ['\\', 'r']
  else if c = '\t' then ['\\', 't']
  else if c = '\x08' then ['\\', 'b']
  else if c = '\x0c' then ['\\', 'f']
  else if c.toNat < 0x10 then ['\\', 'u', '0', '0', '0'] ++ Nat.toDigits 16 c.toNat
  else if c.toNat < 0x20 then ['\\', 'u', '0', '0'] ++ Nat.toDigits 16 c.toNat
  else [c]

/-- A text between quotes. -/
def writeText (s : String) : List Char := '"' :: s.toList.flatMap writeChar ++ ['"']

def writeNumber : JsonNumber → List Char
  | .integer n => (toString n).toList
  | .decimal d =>
    (if d.negative then ['-'] else []) ++ Nat.toDigits 10 d.digits ++
      'e' :: (toString d.exponent).toList

mutual
/-- The shortest form of a value, without blanks. -/
def write : Json → List Char
  | .null => ['n', 'u', 'l', 'l']
  | .bool true => ['t', 'r', 'u', 'e']
  | .bool false => ['f', 'a', 'l', 's', 'e']
  | .number n => writeNumber n
  | .text s => writeText s
  | .array [] => ['[', ']']
  | .array (v :: vs) => '[' :: v.write ++ writeItems vs
  | .object [] => ['{', '}']
  | .object ((k, v) :: fs) => '{' :: writeText k ++ ':' :: v.write ++ writeFields fs
  | .invalid => ['n', 'u', 'l', 'l']

/-- The items after the first, and the bracket that closes the array. -/
def writeItems : List Json → List Char
  | [] => [']']
  | v :: vs => ',' :: v.write ++ writeItems vs

/-- The fields after the first, and the brace that closes the object. -/
def writeFields : List (String × Json) → List Char
  | [] => ['}']
  | (k, v) :: fs => ',' :: writeText k ++ ':' :: v.write ++ writeFields fs
end

/-- A value as one line of text. -/
def compact (v : Json) : String := String.ofList v.write

end Json

end StoryPreview
