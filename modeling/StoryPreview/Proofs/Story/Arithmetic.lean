import StoryPreview.Proofs.Number.Whole
import StoryPreview.Proofs.Story.Equality
/-!
Arithmetic of whole numbers. A variable is computed with in double precision, also if it is a whole number:
both operands and the result are rounded (`Operation.rounded`), and what is below `2 ^ 63` in size is a
whole number again. So the result is exact if double precision holds the operands and the result
(`Operation.rounded_of_holds`), and otherwise only if the roundings happen to make up for one another.
-/
namespace StoryPreview

open Number (Binary)

namespace Operation

/-- The exact result on whole numbers, which a quotient need not be. -/
def exact : Operation → Int → Int → Option Int
  | .add, a, b => some (a + b)
  | .subtract, a, b => some (a - b)
  | .multiply, a, b => some (a * b)
  | .divide, _, _ => none

/-- The result on whole numbers in double precision: both numbers are rounded, and their result is. -/
def rounded (op : Operation) (a b : Int) : Option Int :=
  (op.exact (Binary.nearestInt a) (Binary.nearestInt b)).map Binary.nearestInt

variable {op : Operation} {a b r : Int}

/-- Whether there is an exact result depends on the operation only. -/
theorem exists_exact (h : op.exact a b = some r) (a' b' : Int) : ∃ r', op.exact a' b' = some r' := by
  cases op with
  | divide => cases h
  | _ => exact ⟨_, rfl⟩

theorem natAbs_lt_of_exact (h : op.exact a b = some r) (ha : a.natAbs ≤ 2 ^ 64) (hb : b.natAbs ≤ 2 ^ 64) :
    r.natAbs < 2 ^ 200 := by
  cases op with
  | add =>
    cases h
    omega
  | subtract =>
    cases h
    omega
  | multiply =>
    cases h
    rw [Int.natAbs_mul]
    exact Nat.lt_of_le_of_lt (Nat.mul_le_mul ha hb) (by decide)
  | divide => cases h

/-- Nothing is lost where double precision holds the operands and the result. -/
theorem rounded_of_holds (h : op.exact a b = some r) (ha : Binary.Holds a) (hb : Binary.Holds b)
    (hr : Binary.Holds r) : op.rounded a b = some r := by
  unfold rounded
  rw [Binary.nearestInt_of_holds ha, Binary.nearestInt_of_holds hb, h, Option.map_some,
    Binary.nearestInt_of_holds hr]

end Operation

namespace Value

variable {op : Operation} {x y : Binary} {a b r n : Int}

/-- On numbers that stand for whole ones an operation gives the exact result, rounded. -/
theorem compute_whole (hx : x.toInt? = some a) (hy : y.toInt? = some b) (h : op.exact a b = some r)
    (hsize : r.natAbs < 2 ^ 200) :
    ∃ z, compute op x y = .ok z ∧ z.toInt? = some (Binary.nearestInt r) := by
  cases op with
  | add =>
    cases h
    exact ⟨_, rfl, Binary.toInt?_add hx hy hsize⟩
  | subtract =>
    cases h
    exact ⟨_, rfl, Binary.toInt?_sub hx hy hsize⟩
  | multiply =>
    cases h
    exact ⟨_, rfl, Binary.toInt?_mul hx hy hsize⟩
  | divide => cases h

theorem ofNumber_eq_int_iff (hx : x.toInt? = some n) (hr : r.natAbs < 2 ^ 63) :
    ofNumber x = .int r ↔ n = r := by
  unfold ofNumber
  rw [hx]
  dsimp only
  split
  · exact int.injEq n r ▸ Iff.rfl
  · rename_i hlarge
    refine ⟨nofun, ?_⟩
    rintro rfl
    exact absurd hr hlarge

/-- What becomes of a whole number in range, computed with a literal that is one. -/
theorem modify_int {literal : String} (ha : inRange a = true) (hliteral : ofLiteral literal = .int b)
    (h : op.exact a b = some r) :
    ∃ z n, modify (some (.int a)) op literal = .ok (ofNumber z) ∧ z.toInt? = some n ∧
      op.rounded a b = some n := by
  have hasize := natAbs_le_of_inRange ha
  have hbsize := natAbs_le_of_inRange (inRange_of_ofLiteral hliteral)
  have hadouble := Binary.natAbs_nearestInt_le a
  have hbdouble := Binary.natAbs_nearestInt_le b
  obtain ⟨r', hr'⟩ := Operation.exists_exact h (Binary.nearestInt a) (Binary.nearestInt b)
  have hsize := Operation.natAbs_lt_of_exact hr' (by omega) (by omega)
  have hx : (Binary.ofInt .double a).toInt? = some (Binary.nearestInt a) :=
    Binary.toInt?_ofInt (by omega)
  have hy : (Binary.ofInt .double b).toInt? = some (Binary.nearestInt b) :=
    Binary.toInt?_ofInt (by omega)
  obtain ⟨z, hz, hwhole⟩ := compute_whole hx hy hr' hsize
  refine ⟨z, Binary.nearestInt r', ?_, hwhole, ?_⟩
  · unfold modify
    rw [hliteral]
    show (compute op (.ofInt .double a) (.ofInt .double b) >>= fun z => pure (ofNumber z)) = _
    rw [hz]
    rfl
  · unfold Operation.rounded
    rw [hr', Option.map_some]

end Value

namespace Cursor

theorem get?_set_self (c : Cursor) (name literal : String) :
    (c.set name literal).get? name = some (.ofLiteral literal) :=
  get?_put_self c name _

theorem modify_of_ok {c : Cursor} {name literal : String} {op : Operation} {v w : Value}
    (hvar : c.get? name = some v) (h : Value.modify (some v) op literal = .ok w) :
    c.modify name op literal = .ok (c.put name w) := by
  unfold modify
  rw [hvar, h]

/-- A sum, a difference or a product of whole numbers that is below `2 ^ 63` in size is exact just if it
comes out of double precision, so in particular if that holds both numbers and their result. Whatever comes
out, all other variables stay as they are. -/
theorem modify_whole {c : Cursor} {name literal : String} {op : Operation} {a b r : Int}
    (hvar : c.get? name = some (.int a)) (ha : Value.inRange a = true)
    (hliteral : Value.ofLiteral literal = .int b) (hop : op.exact a b = some r) :
    ∃ c', c.modify name op literal = .ok c' ∧
      (r.natAbs < 2 ^ 63 →
        (c'.get? name = some (.int r) ↔ op.rounded a b = some r) ∧
          (Binary.Holds a → Binary.Holds b → Binary.Holds r → c'.get? name = some (.int r))) ∧
      ∀ other, other ≠ name → c'.get? other = c.get? other := by
  obtain ⟨z, n, hmodify, hz, hrounded⟩ := Value.modify_int ha hliteral hop
  have hiff (hr : r.natAbs < 2 ^ 63) :
      (c.put name (.ofNumber z)).get? name = some (.int r) ↔ op.rounded a b = some r := by
    rw [get?_put_self, Option.some.injEq, hrounded, Option.some.injEq]
    exact Value.ofNumber_eq_int_iff hz hr
  refine ⟨c.put name (.ofNumber z), modify_of_ok hvar hmodify, fun hr => ⟨hiff hr, ?_⟩,
    fun other hother => get?_put_of_ne c _ hother⟩
  intro hahold hbhold hrhold
  exact (hiff hr).mpr (Operation.rounded_of_holds hop hahold hbhold hrhold)

/-- The greatest whole number in range that double precision holds, and the least one in range. -/
theorem modify_whole_limits :
    ∃ c', (start.set "gold" "9223372036854774784").modify "gold" .add "-9223372036854775808" = .ok c' ∧
      c'.get? "gold" = some (.int (-1024)) ∧ ∀ other, other ≠ "gold" → c'.get? other = none := by
  have hvar : (start.set "gold" "9223372036854774784").get? "gold" = some (.int 9223372036854774784) :=
    get?_set_self _ _ _
  have hliteral : Value.ofLiteral "-9223372036854775808" = .int (-9223372036854775808) := rfl
  have hop : Operation.add.exact 9223372036854774784 (-9223372036854775808) = some (-1024) := rfl
  obtain ⟨c', hmodify, hexact, hothers⟩ := modify_whole hvar (by decide) hliteral hop
  refine ⟨c', hmodify, (hexact (by decide)).2 ?_ ?_ ?_, fun other hother => ?_⟩
  · exact ⟨2 ^ 53 - 1, 10, by decide, by decide⟩
  · exact ⟨1, 63, by decide, by decide⟩
  · exact Binary.holds_of_natAbs_le (by decide)
  · rw [hothers other hother]
    exact get?_put_of_ne start _ hother

/-- One more than an odd number above `2 ^ 53` is not what comes out; and the least number in range comes
out as a number that is not kept as a whole one. -/
theorem modify_inexact :
    ((start.set "gold" "9007199254740993").get? "gold" = some (.int 9007199254740993) ∧
      Value.ofLiteral "1" = .int 1 ∧ Value.inRange (9007199254740993 + 1) = true ∧
      ∃ c', (start.set "gold" "9007199254740993").modify "gold" .add "1" = .ok c' ∧
        c'.get? "gold" = some (.int 9007199254740992)) ∧
      (start.set "debt" "-4611686018427387904").get? "debt" = some (.int (-4611686018427387904)) ∧
      Value.ofLiteral "2" = .int 2 ∧ Value.inRange (-4611686018427387904 * 2) = true ∧
      ∃ c', (start.set "debt" "-4611686018427387904").modify "debt" .multiply "2" = .ok c' ∧
        ∀ n, c'.get? "debt" ≠ some (.int n) := by
  have hgold : Value.modify (some (.int 9007199254740993)) .add "1" = .ok (.int 9007199254740992) := by
    decide +kernel
  have hdebt : Value.modify (some (.int (-4611686018427387904))) .multiply "2" =
      .ok (.float (.finite true (2 ^ 52) 11)) := by
    decide +kernel
  have hgoldBefore := get?_set_self start "gold" "9007199254740993"
  have hdebtBefore := get?_set_self start "debt" "-4611686018427387904"
  refine ⟨⟨hgoldBefore, rfl, rfl, _, modify_of_ok hgoldBefore hgold, get?_put_self _ _ _⟩,
    hdebtBefore, rfl, rfl, _, modify_of_ok hdebtBefore hdebt, ?_⟩
  rw [get?_put_self]
  exact nofun

end Cursor

end StoryPreview
