import StoryPreview.Json.Basic
/-!
The tokens of a JSON text. The scanner takes one character at a time, so a text is scanned by one
recursion over its characters and a scan of a longer text goes on where that of its beginning
stopped.
-/
namespace StoryPreview.Json

inductive Token
  | openArray
  | closeArray
  | openObject
  | closeObject
  | comma
  | colon
  /-- `null`, a truth value or a number. -/
  | scalar (v : Json)
  /-- A text; none if it has an unpaired surrogate. -/
  | text (s : Option String)

/-! ## Numbers -/

/-- The digits appended to `n` as far as the result stays below `2 ^ 64`, and how many are left. -/
def appendDigits (n : Nat) : List Char → Nat × Nat
  | [] => (n, 0)
  | c :: cs =>
    let n' := 10 * n + (c.toNat - '0'.toNat)
    if n' < 18446744073709551616 then appendDigits n' cs else (n, cs.length + 1)

/-- Whether a number is beyond double precision: its leading digits, as many as a 64-bit integer
holds, and the power of ten are each rounded, and their product is rounded to infinity. -/
def overflows (whole fraction : List Char) (exponent : Int) : Bool :=
  let (head, dropped) := appendDigits 0 whole
  let (significand, unread) := appendDigits head fraction
  let e := exponent + dropped - (fraction.length - unread : Nat)
  significand ≠ 0 && 0 ≤ e &&
    (308 < e ||
      match Number.Binary.mul .double (.ofInt .double significand)
          (.round .double false (.pow 10 e.toNat) 1) with
      | .infinite _ => true
      | _ => false)

/-- The value of a number from its sign, its digits before and behind the point, and the power of
ten, if it has one. -/
def numberOf (negative : Bool) (whole : List Char) (fraction : List Char) (exponent : Option Int) :
    Json :=
  let n := Number.ofDigits whole
  let isInteger := exponent.isNone && fraction = [] &&
    (if negative then 0 < n && n ≤ 9223372036854775808 else n < 18446744073709551616)
  if isInteger then .number (.integer (if negative then -(n : Int) else n))
  else
    let e := exponent.getD 0
    if overflows whole fraction e then .invalid
    else .number (.decimal ⟨negative, Number.ofDigits (whole ++ fraction), e - fraction.length⟩)

/-- The part of a number behind its whole digits. -/
def numberTail? (negative : Bool) (whole : List Char) (cs : List Char) : Option Json :=
  let exponent? (fraction : List Char) : List Char → Option Json
    | [] => some (numberOf negative whole fraction none)
    | c :: r =>
      if c = 'e' || c = 'E' then
        (Number.int? r).map fun e => numberOf negative whole fraction (some e)
      else none
  match cs with
  | '.' :: r =>
    let fraction := r.takeWhile Char.isDigit
    if fraction = [] then none else exponent? fraction (r.dropWhile Char.isDigit)
  | r => exponent? [] r

/-- A number: an optional minus sign, whole digits without a leading zero, an optional fraction and
an optional power of ten. -/
def number? (cs : List Char) : Option Json :=
  let (negative, rest) := match cs with
    | '-' :: r => (true, r)
    | r => (false, r)
  let whole := rest.takeWhile Char.isDigit
  let leadingZero := match whole with
    | '0' :: _ :: _ => true
    | _ => false
  if whole = [] || leadingZero then none
  else numberTail? negative whole (rest.dropWhile Char.isDigit)

/-- A scalar that is not a text. -/
def scalar? (cs : List Char) : Option Json :=
  if cs = ['n', 'u', 'l', 'l'] then some .null
  else if cs = ['t', 'r', 'u', 'e'] then some (.bool true)
  else if cs = ['f', 'a', 'l', 's', 'e'] then some (.bool false)
  else number? cs

/-! ## Texts -/

/-- A text read in part: its characters, last first; a surrogate that still lacks its partner; and
whether every surrogate so far had one. -/
structure PartialText where
  read : List Char
  high : Option Nat
  paired : Bool

namespace PartialText

def empty : PartialText := ⟨[], none, true⟩

/-- Adds a character that was written as itself or by a short escape. -/
def push (t : PartialText) (c : Char) : PartialText :=
  ⟨c :: t.read, none, t.paired && t.high.isNone⟩

/-- Adds a character given by its number, which may be one half of a surrogate pair. -/
def pushUnit (t : PartialText) (n : Nat) : PartialText :=
  if 0xDC00 ≤ n && n ≤ 0xDFFF then
    match t.high with
    | some h =>
      ⟨Char.ofNat (0x10000 + (h - 0xD800) * 0x400 + (n - 0xDC00)) :: t.read, none, t.paired⟩
    | none => ⟨t.read, none, false⟩
  else if 0xD800 ≤ n && n ≤ 0xDBFF then ⟨t.read, some n, t.paired && t.high.isNone⟩
  else t.push (Char.ofNat n)

def finish (t : PartialText) : Option String :=
  if t.paired && t.high.isNone then some (String.ofList t.read.reverse) else none

end PartialText

/-- The character that a short escape stands for. -/
def escaped? (c : Char) : Option Char :=
  if c = '"' || c = '\\' || c = '/' then some c
  else if c = 'b' then some '\x08'
  else if c = 'f' then some '\x0c'
  else if c = 'n' then some '\n'
  else if c = 'r' then some '\r'
  else if c = 't' then some '\t'
  else none

def hexDigit? (c : Char) : Option Nat :=
  if c.isDigit then some (c.toNat - '0'.toNat)
  else if 'a' ≤ c && c ≤ 'f' then some (c.toNat - 'a'.toNat + 10)
  else if 'A' ≤ c && c ≤ 'F' then some (c.toNat - 'A'.toNat + 10)
  else none

/-! ## The scanner -/

/-- Where the scanner is. -/
inductive Place
  /-- Between two tokens. -/
  | between
  /-- In a scalar, whose characters so far stand last first. -/
  | word (read : List Char)
  | text (t : PartialText)
  /-- Behind a backslash. -/
  | escape (t : PartialText)
  /-- In the number of a character, with this many digits to come. -/
  | hex (t : PartialText) (value : Nat) (left : Nat)

def isSpace (c : Char) : Bool := c = ' ' || c = '\n' || c = '\t' || c = '\r'

/-- The token of one character, if the character is one. -/
def punctuation? (c : Char) : Option Token :=
  if c = '[' then some .openArray
  else if c = ']' then some .closeArray
  else if c = '{' then some .openObject
  else if c = '}' then some .closeObject
  else if c = ',' then some .comma
  else if c = ':' then some .colon
  else none

/-- What a character does between two tokens: the tokens it completes, behind `done`, and the place
after it. -/
def startToken (done : List Token) (c : Char) : Place × List Token :=
  if isSpace c then (.between, done)
  else if c = '"' then (.text .empty, done)
  else match punctuation? c with
    | some t => (.between, t :: done)
    | none => (.word [c], done)

/-- Takes one character; the tokens stand last first. -/
def scanChar (place : Place) (done : List Token) (c : Char) : Option (Place × List Token) :=
  match place with
  | .between => some (startToken done c)
  | .word read =>
    if isSpace c || c = '"' || (punctuation? c).isSome then
      (scalar? read.reverse).map fun v => startToken (.scalar v :: done) c
    else some (.word (c :: read), done)
  | .text t =>
    if c = '"' then some (.between, .text t.finish :: done)
    else if c = '\\' then some (.escape t, done)
    else if c.toNat < 0x20 then none
    else some (.text (t.push c), done)
  | .escape t =>
    if c = 'u' then some (.hex t 0 4, done)
    else (escaped? c).map fun d => (.text (t.push d), done)
  | .hex t value left =>
    (hexDigit? c).map fun d =>
      let value := 16 * value + d
      if left ≤ 1 then (.text (t.pushUnit value), done) else (.hex t value (left - 1), done)

/-- Takes a whole text from a place on. -/
def scan (place : Place) (done : List Token) : List Char → Option (Place × List Token)
  | [] => some (place, done)
  | c :: cs =>
    match scanChar place done c with
    | some (place, done) => scan place done cs
    | none => none

/-- The tokens of a text. -/
def tokens? (cs : List Char) : Option (List Token) :=
  match scan .between [] cs with
  | some (.between, done) => some done.reverse
  | some (.word read, done) => (scalar? read.reverse).map fun v => (.scalar v :: done).reverse
  | _ => none

end StoryPreview.Json
