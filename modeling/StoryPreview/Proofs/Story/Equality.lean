import Mathlib.Logic.Basic
import StoryPreview.Proofs.Number.Whole
import StoryPreview.Story.Cursor
/-!
Equality of values. Numbers are equal if they differ by less than the tolerance, and unequal if they
differ by no less. Where they have no difference they are neither: one of them is no number, or both are
the same infinity (`compareNumbers_notEqual`). So a variable that is set to a literal is equal to it
unless the literal is read as such a number (`check_set_iff`), and it may be a word, such as `Nan`.
-/
namespace StoryPreview

namespace Number.Binary

/-! ## Differences -/

theorem round_ne_nan (F : Format) (negative : Bool) (num den : Nat) :
    round F negative num den ≠ .nan := by
  unfold round
  split
  · exact nofun
  · extract_lets e m carried m' e'
    split
    · exact nofun
    · split <;> exact nofun

theorem roundScaled_ne_nan (F : Format) (negative : Bool) (m : Nat) (e : Int) :
    roundScaled F negative m e ≠ .nan := by
  unfold roundScaled
  split <;> exact round_ne_nan _ _ _ _

/-- Numbers that have no difference: one of them is no number, or both are the same infinity. -/
def WithoutDifference (x y : Binary) : Prop :=
  x = .nan ∨ y = .nan ∨ ∃ s, x = .infinite s ∧ y = .infinite s

theorem sub_eq_nan_iff {F : Format} {x y : Binary} :
    x.sub F y = .nan ↔ x.WithoutDifference y := by
  have hfinite (s t : Bool) (m n : Nat) (e f : Int) :
      add F (.finite s m e) (.finite t n f) ≠ .nan := by
    unfold add
    dsimp only
    split
    · exact nofun
    · exact roundScaled_ne_nan _ _ _ _
  unfold WithoutDifference sub
  cases x with
  | nan => simp [add]
  | infinite s =>
    cases y with
    | infinite t => cases s <;> cases t <;> simp [add, neg]
    | _ => simp [add, neg]
  | finite s m e =>
    cases y with
    | finite t n f => simpa [neg] using hfinite s (!t) m n e f
    | _ => simp [add, neg]

theorem abs_eq_nan_iff {x : Binary} : x.abs = .nan ↔ x = .nan := by
  cases x <;> simp [abs]

/-- Of two numbers the one is less or equal unless the other is less. -/
theorem le_eq_not_lt {x y : Binary} (hx : x ≠ .nan) (hy : y ≠ .nan) : x.le y = !y.lt x := by
  cases x with
  | nan => exact absurd rfl hx
  | _ =>
    cases y with
    | nan => exact absurd rfl hy
    | _ => rfl

/-- A finite number differs from itself by nothing. -/
theorem sub_self (F : Format) (s : Bool) (m : Nat) (e : Int) :
    sub F (.finite s m e) (.finite s m e) = zero F false := by
  have hsum : scaledTo e s m e + scaledTo e (!s) m e = 0 := by
    unfold scaledTo
    cases s
    · exact Int.add_right_neg _
    · exact Int.add_left_neg _
  unfold sub neg add
  dsimp only
  rw [Int.min_self, if_pos hsum, Bool.and_not_self]

/-! ## Whole numbers -/

/-- A whole number of 64 bits is finite. -/
theorem ofInt_ne_infinite {n : Int} (h : n.natAbs < UInt64.size) (s : Bool) :
    ofInt .double n ≠ .infinite s := by
  intro hinfinite
  have hsize : UInt64.size < 2 ^ 200 := by decide
  have hwhole := toInt?_ofInt (Nat.lt_trans h hsize)
  rw [hinfinite] at hwhole
  cases hwhole

end Number.Binary

namespace Value

open Number (Binary)

/-- A number is equal to itself if it is finite. -/
theorem compareNumbers_self_iff {x : Binary} :
    compareNumbers .equal x x = true ↔ x ≠ .nan ∧ ∀ s, x ≠ .infinite s := by
  cases x with
  | nan => exact ⟨nofun, fun h => absurd rfl h.1⟩
  | infinite s =>
    refine ⟨fun h => ?_, fun h => absurd rfl (h.2 s)⟩
    cases s <;> cases h
  | finite s m e =>
    refine ⟨fun _ => ⟨nofun, nofun⟩, fun _ => ?_⟩
    unfold compareNumbers
    dsimp only
    rw [Binary.sub_self]
    decide +kernel

/-- Numbers without a difference are neither equal nor unequal; all others are the one if they are not
the other. -/
theorem compareNumbers_notEqual (x y : Binary) :
    (x.WithoutDifference y ∧ compareNumbers .equal x y = false ∧
        compareNumbers .notEqual x y = false) ∨
      (¬ x.WithoutDifference y ∧ compareNumbers .notEqual x y = !compareNumbers .equal x y) := by
  unfold compareNumbers
  dsimp only
  by_cases hnan : x.sub .double y = .nan
  · refine .inl ⟨Binary.sub_eq_nan_iff.mp hnan, ?_, ?_⟩ <;> rw [hnan] <;> rfl
  · have habs := mt Binary.abs_eq_nan_iff.mp hnan
    exact .inr ⟨mt Binary.sub_eq_nan_iff.mpr hnan, Binary.le_eq_not_lt nofun habs⟩

/-- Values that are numbers without a difference. -/
def WithoutDifference (a b : Value) : Prop :=
  ∃ x y, a.toNumber? = some x ∧ b.toNumber? = some y ∧ x.WithoutDifference y

theorem compare_notEqual (a b : Value) :
    ∃ equal unequal, compare .equal a b = .ok equal ∧ compare .notEqual a b = .ok unequal ∧
      (a.WithoutDifference b ∧ equal = false ∧ unequal = false ∨
        ¬ a.WithoutDifference b ∧ unequal = !equal) := by
  by_cases hnumbers : ∃ x y, a.toNumber? = some x ∧ b.toNumber? = some y
  · obtain ⟨x, y, hx, hy⟩ := hnumbers
    have hiff : a.WithoutDifference b ↔ x.WithoutDifference y := by
      unfold WithoutDifference
      simp [hx, hy]
    refine ⟨compareNumbers .equal x y, compareNumbers .notEqual x y, ?_, ?_, ?_⟩
    · unfold compare
      rw [hx, hy]
    · unfold compare
      rw [hx, hy]
    · rw [hiff]
      exact compareNumbers_notEqual x y
  · have htexts : compare .equal a b = .ok (a.render = b.render) ∧
        compare .notEqual a b = .ok (a.render ≠ b.render) := by
      unfold compare
      split
      · next x y hx hy => exact absurd ⟨x, y, hx, hy⟩ hnumbers
      · exact ⟨rfl, rfl⟩
    refine ⟨_, _, htexts.1, htexts.2, .inr ⟨?_, by simp⟩⟩
    rintro ⟨x, y, hx, hy, _⟩
    exact hnumbers ⟨x, y, hx, hy⟩

/-! ## Literals -/

theorem natAbs_le_of_inRange {n : Int} (h : inRange n = true) : n.natAbs ≤ 2 ^ 63 := by
  unfold inRange at h
  rw [Bool.and_eq_true, decide_eq_true_iff, decide_eq_true_iff] at h
  omega

theorem inRange_of_ofLiteral {literal : String} {n : Int} (h : ofLiteral literal = .int n) :
    inRange n = true := by
  unfold ofLiteral at h
  dsimp only at h
  split at h
  · rename_i k hk
    cases h
    exact (Option.filter_eq_some_iff.mp hk).2
  · split at h
    · cases h
    · split at h
      · cases h
      · split at h <;> cases h

/-- A literal is equal to itself unless it is read as a number that has no difference to itself. -/
theorem compare_self_iff (literal : String) :
    compare .equal (ofLiteral literal) (ofLiteral literal) = .ok true ↔
      ofLiteral literal ≠ .float .nan ∧ ∀ s, ofLiteral literal ≠ .float (.infinite s) := by
  cases hliteral : ofLiteral literal with
  | int n =>
    have hrange := natAbs_le_of_inRange (inRange_of_ofLiteral hliteral)
    have hsize : n.natAbs < UInt64.size := Nat.lt_of_le_of_lt hrange (by decide)
    have hself : compareNumbers .equal (.ofInt .double n) (.ofInt .double n) = true :=
      compareNumbers_self_iff.mpr
        ⟨Binary.round_ne_nan _ _ _ _, Binary.ofInt_ne_infinite hsize⟩
    exact ⟨fun _ => ⟨nofun, nofun⟩, fun _ => congrArg Except.ok hself⟩
  | float x =>
    have hfloat : compare .equal (.float x) (.float x) = .ok (compareNumbers .equal x x) := rfl
    rw [hfloat, Except.ok.injEq, compareNumbers_self_iff, Ne, Ne, float.injEq]
    simp only [Ne, float.injEq]
  | bool b => exact ⟨fun _ => ⟨nofun, nofun⟩, fun _ => congrArg Except.ok (decide_eq_true rfl)⟩
  | text s => exact ⟨fun _ => ⟨nofun, nofun⟩, fun _ => congrArg Except.ok (decide_eq_true rfl)⟩

end Value

namespace Cursor

theorem check_set (c : Cursor) (name literal : String) (cmp : Comparison) :
    (c.set name literal).check name cmp literal =
      Value.compare cmp (.ofLiteral literal) (.ofLiteral literal) := by
  unfold check set
  rw [get?_put_self, Option.getD_some]

/-- A variable that is set to a literal is equal to it and not unequal, unless the literal is read as no
number or as an infinite one. Whatever the variable is, both questions have an answer. The answers are
opposite if there is a difference, or one of the two is a text or a truth value; and if both are numbers
and there is no difference, both answers are no. -/
theorem check_set_iff (c : Cursor) (name literal : String) :
    ((c.set name literal).check name .equal literal = .ok true ∧
        (c.set name literal).check name .notEqual literal = .ok false ↔
      Value.ofLiteral literal ≠ .float .nan ∧
        ∀ s, Value.ofLiteral literal ≠ .float (.infinite s)) ∧
      ∃ equal unequal, c.check name .equal literal = .ok equal ∧
        c.check name .notEqual literal = .ok unequal ∧
          (((c.get? name).getD (.int 0)).WithoutDifference (.ofLiteral literal) ∧
              equal = false ∧ unequal = false ∨
            ¬ ((c.get? name).getD (.int 0)).WithoutDifference (.ofLiteral literal) ∧
              unequal = !equal) := by
  refine ⟨?_, Value.compare_notEqual _ _⟩
  rw [check_set, check_set, ← Value.compare_self_iff]
  refine ⟨And.left, fun hself => ⟨hself, ?_⟩⟩
  obtain ⟨equal, unequal, hequal, hunequal, h⟩ :=
    Value.compare_notEqual (.ofLiteral literal) (.ofLiteral literal)
  rw [hself] at hequal
  cases hequal
  rcases h with ⟨_, h, _⟩ | ⟨_, rfl⟩
  · cases h
  · exact hunequal

/-- A name that reads as no number is neither equal to itself nor unequal; and infinity is neither, though
it is at least and at most itself. -/
theorem check_set_nan :
    ((start.set "guest" "Nan").check "guest" .equal "Nan" = .ok false ∧
      (start.set "guest" "Nan").check "guest" .notEqual "Nan" = .ok false) ∧
      (start.set "way" "infinity").check "way" .equal "infinity" = .ok false ∧
      (start.set "way" "infinity").check "way" .notEqual "infinity" = .ok false ∧
      (start.set "way" "infinity").check "way" .lessOrEqual "infinity" = .ok true ∧
      (start.set "way" "infinity").check "way" .greaterOrEqual "infinity" = .ok true := by
  simp only [check_set]
  exact ⟨⟨rfl, rfl⟩, rfl, rfl, rfl, rfl⟩

end Cursor

end StoryPreview
