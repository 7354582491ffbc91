/-!
Binary floating-point numbers, computed exactly and then rounded.

A number of a format is `± m · 2 ^ e` with `m` below `2 ^ precision` and `e` between the two
exponent bounds. Every operation forms the exact result and rounds it to the nearest number of the
format, a tie going to the even significand; a result that rounds beyond the greatest number is
infinite. Nothing here goes through the machine's own floating point, so each operation can be
computed by the kernel and reasoned about in `Nat` and `Int`.
-/
namespace StoryPreview.Number

/-- Precision in bits and the range of the exponent. -/
structure Format where
  precision : Nat
  minExp : Int
  maxExp : Int

/-- Eight-byte numbers. -/
def Format.double : Format := ⟨53, -1074, 971⟩

/-- Four-byte numbers. -/
def Format.single : Format := ⟨24, -149, 104⟩

/-- A floating-point number: `finite negative m e` is `± m · 2 ^ e`. -/
inductive Binary
  | nan
  | infinite (negative : Bool)
  | finite (negative : Bool) (significand : Nat) (exponent : Int)
  deriving DecidableEq

namespace Binary

/-- Zero with a sign. -/
def zero (F : Format) (negative : Bool) : Binary := .finite negative 0 F.minExp

/-- The greatest `k` with `2 ^ k ≤ num / den`, both positive. -/
def floorLog (num den : Nat) : Int :=
  let k : Int := (num.log2 : Int) - (den.log2 : Int)
  let reaches := if 0 ≤ k then den * .pow 2 k.toNat ≤ num else den ≤ num * .pow 2 (-k).toNat
  if reaches then k else k - 1

/-- The quotient rounded to a whole number, a half going to the even neighbour. -/
def roundHalfEven (num den : Nat) : Nat :=
  let q := num / den
  let r := num % den
  if den < 2 * r || (2 * r = den && q % 2 = 1) then q + 1 else q

/-- The number of the format nearest to `± num / den`. -/
def round (F : Format) (negative : Bool) (num den : Nat) : Binary :=
  if num = 0 then zero F negative
  else
    let e := max (floorLog num den - (F.precision - 1 : Nat)) F.minExp
    let m :=
      if 0 ≤ e then roundHalfEven num (den * .pow 2 e.toNat)
      else roundHalfEven (num * .pow 2 (-e).toNat) den
    let carried := m = .pow 2 F.precision
    let m' := if carried then .pow 2 (F.precision - 1) else m
    let e' := if carried then e + 1 else e
    if m' = 0 then zero F negative
    else if F.maxExp < e' then .infinite negative
    else .finite negative m' e'

/-- The number nearest to `± m · 2 ^ e`. -/
def roundScaled (F : Format) (negative : Bool) (m : Nat) (e : Int) : Binary :=
  if 0 ≤ e then round F negative (m * .pow 2 e.toNat) 1
  else round F negative m (.pow 2 (-e).toNat)

/-- The number nearest to a whole number. -/
def ofInt (F : Format) (n : Int) : Binary := round F (n < 0) n.natAbs 1

/-- `m · 2 ^ e` as a multiple of `2 ^ base`, where `base ≤ e`. -/
def scaledTo (base : Int) (negative : Bool) (m : Nat) (e : Int) : Int :=
  let n : Int := (m * .pow 2 (e - base).toNat : Nat)
  if negative then -n else n

def neg : Binary → Binary
  | .nan => .nan
  | .infinite s => .infinite (!s)
  | .finite s m e => .finite (!s) m e

def abs : Binary → Binary
  | .nan => .nan
  | .infinite _ => .infinite false
  | .finite _ m e => .finite false m e

/-- The sum. Of two opposite numbers it is positive zero; two zeros of one sign keep it. -/
def add (F : Format) : Binary → Binary → Binary
  | .nan, _ => .nan
  | _, .nan => .nan
  | .infinite s, .infinite t => if s = t then .infinite s else .nan
  | .infinite s, .finite .. => .infinite s
  | .finite .., .infinite t => .infinite t
  | .finite s m e, .finite t n f =>
    let base := min e f
    let sum := scaledTo base s m e + scaledTo base t n f
    if sum = 0 then zero F (s && t)
    else roundScaled F (sum < 0) sum.natAbs base

def sub (F : Format) (a b : Binary) : Binary := add F a b.neg

def mul (F : Format) : Binary → Binary → Binary
  | .nan, _ => .nan
  | _, .nan => .nan
  | .infinite s, .infinite t => .infinite (s != t)
  | .infinite s, .finite t n _ => if n = 0 then .nan else .infinite (s != t)
  | .finite s m _, .infinite t => if m = 0 then .nan else .infinite (s != t)
  | .finite s m e, .finite t n f => roundScaled F (s != t) (m * n) (e + f)

/-- The quotient; a number over zero is infinite and zero over zero is not a number. -/
def div (F : Format) : Binary → Binary → Binary
  | .nan, _ => .nan
  | _, .nan => .nan
  | .infinite _, .infinite _ => .nan
  | .infinite s, .finite t _ _ => .infinite (s != t)
  | .finite s _ _, .infinite t => zero F (s != t)
  | .finite s m e, .finite t n f =>
    if n = 0 then (if m = 0 then .nan else .infinite (s != t))
    else
      let shift := e - f
      if 0 ≤ shift then round F (s != t) (m * .pow 2 shift.toNat) n
      else round F (s != t) m (n * .pow 2 (-shift).toNat)

/-- Strictly less; never so when one side is not a number. -/
def lt : Binary → Binary → Bool
  | .nan, _ => false
  | _, .nan => false
  | .infinite s, .infinite t => s && !t
  | .infinite s, .finite .. => s
  | .finite .., .infinite t => !t
  | .finite s m e, .finite t n f =>
    let base := min e f
    scaledTo base s m e < scaledTo base t n f

/-- Less or equal; never so when one side is not a number. -/
def le : Binary → Binary → Bool
  | .nan, _ => false
  | _, .nan => false
  | a, b => !lt b a

def isZero : Binary → Bool
  | .finite _ m _ => m = 0
  | _ => false

/-- The whole number a finite number stands for, if it stands for one. -/
def toInt? : Binary → Option Int
  | .finite s m e =>
    let whole : Option Nat :=
      if 0 ≤ e then some (m * .pow 2 e.toNat)
      else if m % .pow 2 (-e).toNat = 0 then some (m / .pow 2 (-e).toNat) else none
    whole.map fun n => if s then -(n : Int) else n
  | _ => none

end Binary

end StoryPreview.Number
