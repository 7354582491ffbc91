import StoryPreview.Number.Binary
/-!
Decimal notation of numbers: reading a decimal into the nearest binary number, and writing a binary
number with the fewest digits that read back.
-/
namespace StoryPreview.Number

/-- `± digits · 10 ^ exponent`. -/
structure Decimal where
  negative : Bool
  digits : Nat
  exponent : Int
  deriving DecidableEq

/-- The value of a number that goes on with a digit. -/
def pushDigit (n : Nat) (c : Char) : Nat := 10 * n + (c.toNat - '0'.toNat)

/-- The value of `total · scale + part` with digits behind it, where `scale` is a power of ten. They
are gathered in `part` until there are eighteen, so that `total` is multiplied seldom. -/
def ofDigitsBehind (total part scale : Nat) : List Char → Nat
  | [] => total * scale + part
  | c :: cs =>
    if scale < 1000000000000000000 then ofDigitsBehind total (pushDigit part c) (10 * scale) cs
    else ofDigitsBehind (total * scale + part) (pushDigit 0 c) 10 cs

/-- The value of a run of decimal digits. -/
def ofDigits (cs : List Char) : Nat := ofDigitsBehind 0 0 1 cs

theorem ofDigitsBehind_eq_foldl (cs : List Char) (total part scale : Nat) :
    ofDigitsBehind total part scale cs = cs.foldl pushDigit (total * scale + part) := by
  induction cs generalizing total part scale with
  | nil => rfl
  | cons c cs ih =>
    rw [ofDigitsBehind, ih, ih, List.foldl_cons]
    have grown : total * (10 * scale) + pushDigit part c = pushDigit (total * scale + part) c := by
      rw [pushDigit, pushDigit, Nat.mul_left_comm, Nat.mul_add, Nat.add_assoc]
    have moved : (total * scale + part) * 10 + pushDigit 0 c =
        pushDigit (total * scale + part) c := by
      rw [pushDigit, pushDigit, Nat.mul_zero, Nat.zero_add, Nat.mul_comm]
    rw [grown, moved, ite_self]

theorem ofDigits_eq_foldl (cs : List Char) : ofDigits cs = cs.foldl pushDigit 0 := by
  rw [ofDigits, ofDigitsBehind_eq_foldl]

/-- A sign, if the text starts with one, and what follows it. -/
def splitSign : List Char → Bool × List Char
  | '-' :: cs => (true, cs)
  | '+' :: cs => (false, cs)
  | cs => (false, cs)

/-- A nonempty run of digits and nothing else. -/
def digits? (cs : List Char) : Option Nat :=
  if cs ≠ [] && cs.all Char.isDigit then some (ofDigits cs) else none

/-- A whole number: an optional sign and digits. -/
def int? (cs : List Char) : Option Int :=
  let (negative, rest) := splitSign cs
  (digits? rest).map fun n => if negative then -(n : Int) else n

namespace Decimal

/-- The power of ten that follows the digits: nothing, or `e` and a whole number. -/
def exponent? : List Char → Option Int
  | [] => some 0
  | c :: cs => if c = 'e' || c = 'E' then int? cs else none

/-- A decimal without its sign: digits with at most one point among or around them, at least one
digit, and then the power of ten. -/
def unsigned? (negative : Bool) (cs : List Char) : Option Decimal :=
  let whole := cs.takeWhile Char.isDigit
  let rest := cs.dropWhile Char.isDigit
  let (fraction, rest) := match rest with
    | '.' :: r => (r.takeWhile Char.isDigit, r.dropWhile Char.isDigit)
    | r => ([], r)
  if whole = [] && fraction = [] then none
  else (exponent? rest).map fun e =>
    ⟨negative, ofDigits (whole ++ fraction), e - fraction.length⟩

/-- The nearest number of the format. A decimal whose size alone decides that it is infinite or
zero is not worked out. -/
def toBinary (F : Format) (d : Decimal) : Binary :=
  let magnitude := (d.digits.log2 : Int) + 3 * d.exponent
  if d.digits = 0 then .zero F d.negative
  else if 0 ≤ d.exponent then
    if F.maxExp + F.precision < magnitude then .infinite d.negative
    else .round F d.negative (d.digits * .pow 10 d.exponent.toNat) 1
  else if magnitude + 1 < F.minExp - 1 then .zero F d.negative
  else .round F d.negative d.digits (.pow 10 (-d.exponent).toNat)

end Decimal

namespace Binary

/-- A number in decimal notation, `inf`, `infinity` or `nan`, the words in letters of either case,
each with an optional sign. -/
def ofText? (F : Format) (cs : List Char) : Option Binary :=
  let (negative, rest) := splitSign cs
  -- no word has more than eight letters
  let word := (rest.take 9).map Char.toLower
  if word = "inf".toList || word = "infinity".toList then some (.infinite negative)
  else if word = "nan".toList then some .nan
  else (Decimal.unsigned? negative rest).map (Decimal.toBinary F)

/-- The numbers that round to a given one: `above` and `below` bound them, `value` is the number
itself, all three in units of `1 / unit`; the bounds belong to them if `closed`. -/
structure Neighbourhood where
  below : Nat
  value : Nat
  above : Nat
  unit : Nat
  closed : Bool

/-- The neighbourhood of `m · 2 ^ e`; below a power of two it reaches half as far. -/
def neighbourhood (F : Format) (m : Nat) (e : Int) : Neighbourhood :=
  let scale := if 2 ≤ e then .pow 2 (e - 2).toNat else 1
  { below := (if m = .pow 2 (F.precision - 1) then 4 * m - 1 else 4 * m - 2) * scale
    value := 4 * m * scale
    above := (4 * m + 2) * scale
    unit := if 2 ≤ e then 1 else .pow 2 (2 - e).toNat
    closed := m % 2 = 0 }

/-- The multiple of `10 ^ p` that lies in the neighbourhood and nearest to its value, of two equally
near ones the greater. -/
def Neighbourhood.onGrid (w : Neighbourhood) (p : Int) : Option Nat :=
  let up := Nat.pow 10 (-p).toNat
  let step := w.unit * .pow 10 p.toNat
  let q := w.value * up / step
  let lowerIn := if w.closed then w.below * up ≤ q * step else w.below * up < q * step
  let upperIn :=
    if w.closed then (q + 1) * step ≤ w.above * up else (q + 1) * step < w.above * up
  if upperIn && (!lowerIn || step ≤ 2 * (w.value * up % step)) then some (q + 1)
  else if lowerIn then some q
  else none

/-- The coarsest grid of powers of ten from `10 ^ p` downwards that meets the neighbourhood, and the
point of it. -/
def Neighbourhood.coarsest (w : Neighbourhood) : Nat → Int → Nat × Int
  | 0, p => (w.value * .pow 10 (-p).toNat / (w.unit * .pow 10 p.toNat), p)
  | n + 1, p =>
    match w.onGrid p with
    | some d => (d, p)
    | none => w.coarsest n (p - 1)

/-- The decimal of fewest digits that rounds to `m · 2 ^ e`, of those the nearest. The first grid
tried has steps greater than the number. -/
def shortest (F : Format) (m : Nat) (e : Int) : Nat × Int :=
  let start := (floorLog m 1 + e) * 30103 / 100000 + 2
  (neighbourhood F m e).coarsest (F.precision / 3 + 6) start

/-- `d · 10 ^ x` in positional notation. -/
def positional (d : Nat) (x : Int) : List Char :=
  let ds := Nat.toDigits 10 d
  if 0 ≤ x then ds ++ List.replicate x.toNat '0'
  else
    let places := (-x).toNat
    if places < ds.length then
      ds.take (ds.length - places) ++ '.' :: ds.drop (ds.length - places)
    else '0' :: '.' :: List.replicate (places - ds.length) '0' ++ ds

/-- `d · 10 ^ x` with one digit before the point. -/
def scientific (d : Nat) (x : Int) : List Char :=
  let ds := Nat.toDigits 10 d
  let power := x + (ds.length - 1 : Nat)
  ds.take 1 ++ (if ds.length ≤ 1 then [] else '.' :: ds.drop 1) ++ 'e' :: (toString power).toList

/-- `d · 10 ^ x` with digits on both sides of the point; from `10 ^ 16` on and below `10 ^ -4` it is
scientific. -/
def pointed (d : Nat) (x : Int) : List Char :=
  let size := x + ((Nat.toDigits 10 d).length : Nat)
  if d = 0 then ['0', '.', '0']
  else if size ≤ -4 || 16 < size then scientific d x
  else if 0 ≤ x then positional d x ++ ['.', '0']
  else positional d x

/-- The shortest decimal that reads back the same, as a way of writing decimals writes it. -/
def write (F : Format) (decimal : Nat → Int → List Char) : Binary → String
  | .nan => "NaN"
  | .infinite s => if s then "-inf" else "inf"
  | .finite s m e =>
    let (d, x) := if m = 0 then (0, 0) else shortest F m e
    let body := decimal d x
    String.ofList (if s then '-' :: body else body)

/-- The shortest decimal that reads back the same, in positional notation and without a point for
whole numbers. -/
def text (F : Format) (x : Binary) : String := x.write F positional

/-- The shortest decimal that reads back the same, with a point for whole numbers too. -/
def pointedText (F : Format) (x : Binary) : String := x.write F pointed

end Binary

end StoryPreview.Number
