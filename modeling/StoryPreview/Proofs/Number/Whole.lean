import Mathlib.Algebra.Order.Ring.Int
import StoryPreview.Number.Binary
/-!
Whole numbers in double precision. Double precision holds a whole number that has no more than fifty-three
bits before its last zeros (`Holds`). Any other is rounded to the nearest one it holds (`holds_nearestInt`,
`natAbs_sub_nearestInt_le`), of two equally near ones to the one whose last of these bits is zero. Numbers
that stand for whole ones (`toInt?`) are added, subtracted and multiplied like whole numbers, and the result
is rounded (`toInt?_add`, `toInt?_sub`, `toInt?_mul`), whatever the exponents are that they are written with
(`Denotes`).
-/
namespace StoryPreview.Number.Binary

/-! ## The nearest whole number -/

/-- Around `n` the numbers of double precision are the multiples of this, if it is not one. -/
def spacing (n : Nat) : Nat := 2 ^ (n.log2 - 52)

/-- The multiple of the spacing nearest to `n`, of two equally near ones the even multiple. -/
def nearest (n : Nat) : Nat := roundHalfEven n (spacing n) * spacing n

theorem spacing_pos (n : Nat) : 0 < spacing n := Nat.two_pow_pos _

theorem spacing_le {n : Nat} (hn : n ≠ 0) : spacing n ≤ n :=
  Nat.le_trans (Nat.pow_le_pow_right (by decide) (Nat.sub_le _ _)) (Nat.log2_self_le hn)

theorem roundHalfEven_mul {c : Nat} (hc : 0 < c) (n d : Nat) :
    roundHalfEven (n * c) (d * c) = roundHalfEven n d := by
  have hlt : d * c < 2 * (n % d * c) ↔ d < 2 * (n % d) := by
    rw [← Nat.mul_assoc]
    exact Nat.mul_lt_mul_right hc
  have heq : 2 * (n % d * c) = d * c ↔ 2 * (n % d) = d := by
    rw [← Nat.mul_assoc]
    exact Nat.mul_left_inj (Nat.ne_of_gt hc)
  unfold roundHalfEven
  dsimp only
  rw [Nat.mul_div_mul_right n d hc, Nat.mul_mod_mul_right]
  simp only [hlt, heq]

theorem roundHalfEven_of_dvd {n d : Nat} (hd : 0 < d) (h : d ∣ n) : roundHalfEven n d = n / d := by
  have hzero : ¬ (0 = d) := by omega
  unfold roundHalfEven
  dsimp only
  rw [Nat.mod_eq_zero_of_dvd h]
  simp [hzero]

/-- A rounded quotient is off by no more than a half. -/
theorem roundHalfEven_near (n : Nat) {d : Nat} (hd : 0 < d) :
    2 * (roundHalfEven n d * d) ≤ 2 * n + d ∧ 2 * n ≤ 2 * (roundHalfEven n d * d) + d := by
  have hdiv := Nat.div_add_mod' n d
  have hmod := Nat.mod_lt n hd
  unfold roundHalfEven
  dsimp only
  split
  · rename_i hup
    rw [Bool.or_eq_true, Bool.and_eq_true, decide_eq_true_iff, decide_eq_true_iff] at hup
    rw [Nat.succ_mul (n / d) d]
    omega
  · rename_i hdown
    rw [Bool.or_eq_true, decide_eq_true_iff] at hdown
    have hlt := not_or.mp hdown
    omega

/-- No multiple is nearer than the rounded quotient's. -/
theorem roundHalfEven_closest (n : Nat) {d : Nat} (hd : 0 < d) (k : Nat) :
    ((n : Int) - (roundHalfEven n d * d : Nat)).natAbs ≤ ((n : Int) - (k * d : Nat)).natAbs := by
  have hnear := roundHalfEven_near n hd
  generalize roundHalfEven n d = q at hnear ⊢
  rcases Nat.lt_trichotomy k q with hlt | rfl | hlt
  · have hmul := Nat.mul_le_mul_right d (Nat.succ_le_of_lt hlt)
    rw [Nat.succ_mul] at hmul
    omega
  · exact Nat.le_refl _
  · have hmul := Nat.mul_le_mul_right d (Nat.succ_le_of_lt hlt)
    rw [Nat.succ_mul] at hmul
    omega

theorem nearest_of_dvd {n : Nat} (h : spacing n ∣ n) : nearest n = n := by
  unfold nearest
  rw [roundHalfEven_of_dvd (spacing_pos n) h, Nat.div_mul_cancel h]

theorem nearest_pos {n : Nat} (hn : n ≠ 0) : nearest n ≠ 0 := by
  have hnear := (roundHalfEven_near n (spacing_pos n)).2
  have hle := spacing_le hn
  unfold nearest
  omega

theorem nearest_le (n : Nat) : nearest n ≤ 2 * n := by
  rcases Nat.eq_zero_or_pos n with rfl | hpos
  · decide
  · have hnear := (roundHalfEven_near n (spacing_pos n)).1
    have hle := spacing_le (Nat.ne_of_gt hpos)
    unfold nearest
    omega

/-! ## Whole numbers and their exponents -/

/-- A magnitude with a sign. -/
def signed (negative : Bool) (n : Nat) : Int := if negative then -(n : Int) else n

theorem signed_mul (s : Bool) (n c : Nat) : signed s n * (c : Int) = signed s (n * c) := by
  cases s <;> simp [signed]

theorem signed_mul_signed (s t : Bool) (m n : Nat) :
    signed s m * signed t n = signed (s != t) (m * n) := by
  cases s <;> cases t <;> simp [signed]

theorem natAbs_signed (s : Bool) (n : Nat) : (signed s n).natAbs = n := by
  cases s <;> simp [signed]

theorem signed_natAbs (i : Int) : signed (i < 0) i.natAbs = i := by
  unfold signed
  simp only [decide_eq_true_eq]
  split <;> omega

/-- `m · 2 ^ e` is the whole number `n`. -/
def Denotes (m : Nat) (e : Int) (n : Nat) : Prop := m * 2 ^ e.toNat = n * 2 ^ (-e).toNat

/-- Any two exponents with this difference tell what is denoted. -/
theorem denotes_iff {m n p q : Nat} {e : Int} (h : (p : Int) - q = e) :
    Denotes m e n ↔ m * 2 ^ p = n * 2 ^ q := by
  have hpow : 2 ^ p * 2 ^ (-e).toNat = 2 ^ q * 2 ^ e.toNat := by
    rw [← Nat.pow_add, ← Nat.pow_add]
    congr 1
    omega
  unfold Denotes
  constructor
  · intro hm
    refine Nat.eq_of_mul_eq_mul_right (Nat.two_pow_pos e.toNat) ?_
    rw [Nat.mul_right_comm, hm, Nat.mul_assoc, Nat.mul_comm _ (2 ^ p), hpow, Nat.mul_assoc]
  · intro hm
    refine Nat.eq_of_mul_eq_mul_right (Nat.two_pow_pos q) ?_
    rw [Nat.mul_assoc, Nat.mul_comm _ (2 ^ q), ← hpow, ← Nat.mul_assoc, hm, Nat.mul_right_comm]

theorem Denotes.mul {m n k l : Nat} {e f : Int} (hm : Denotes m e k) (hn : Denotes n f l) :
    Denotes (m * n) (e + f) (k * l) := by
  have hexp : ((e.toNat + f.toNat : Nat) : Int) - ((-e).toNat + (-f).toNat : Nat) = e + f := by omega
  rw [denotes_iff hexp, Nat.pow_add, Nat.pow_add, Nat.mul_mul_mul_comm, hm, hn, Nat.mul_mul_mul_comm]

theorem Denotes.carry {k n : Nat} {e : Int} (h : Denotes (2 ^ (k + 1)) e n) : Denotes (2 ^ k) (e + 1) n := by
  have hexp : ((e.toNat + 1 : Nat) : Int) - (-e).toNat = e + 1 := by omega
  unfold Denotes at h
  rw [denotes_iff hexp, ← h, ← Nat.pow_add, ← Nat.pow_add, Nat.add_right_comm, Nat.add_assoc]

theorem Denotes.ne_zero {m n : Nat} {e : Int} (h : Denotes m e n) (hn : n ≠ 0) : m ≠ 0 := by
  rintro rfl
  unfold Denotes at h
  rw [Nat.zero_mul] at h
  exact Nat.mul_ne_zero hn (Nat.ne_of_gt (Nat.two_pow_pos _)) h.symm

/-- A finite number stands for the whole number that it denotes, with its sign. -/
theorem toInt?_finite {s : Bool} {m : Nat} {e i : Int} :
    (finite s m e).toInt? = some i ↔ ∃ n, Denotes m e n ∧ i = signed s n := by
  have hread (w : Option Nat) (h : ∀ n, w = some n ↔ Denotes m e n) :
      ((w.bind fun n => some (n : Int)).map fun n => if s then -n else n) = some i ↔
        ∃ n, Denotes m e n ∧ i = signed s n := by
    simp only [Option.map_eq_some_iff, Option.bind_eq_some_iff, Option.some.injEq, h]
    constructor
    · rintro ⟨_, ⟨n, hn, rfl⟩, rfl⟩
      exact ⟨n, hn, rfl⟩
    · rintro ⟨n, hn, rfl⟩
      exact ⟨n, ⟨n, hn, rfl⟩, rfl⟩
  unfold toInt?
  refine hread _ fun n => ?_
  unfold Denotes
  split
  · have hzero : (-e).toNat = 0 := by omega
    rw [hzero, Nat.pow_zero, Nat.mul_one, Option.some.injEq]
    rfl
  · have hzero : e.toNat = 0 := by omega
    rw [hzero, Nat.pow_zero, Nat.mul_one]
    have hpow : 0 < 2 ^ (-e).toNat := Nat.two_pow_pos _
    simp only [Nat.pow_eq]
    split
    · rename_i hmod
      rw [Option.some.injEq, Nat.div_eq_iff_eq_mul_left hpow (Nat.dvd_of_mod_eq_zero hmod)]
    · rename_i hmod
      refine ⟨nofun, fun h => absurd ?_ hmod⟩
      rw [h, Nat.mul_mod_left]

theorem toInt?_zero (F : Format) (s : Bool) : (zero F s).toInt? = some 0 := by
  refine toInt?_finite.mpr ⟨0, ?_, by cases s <;> rfl⟩
  unfold Denotes
  rw [Nat.zero_mul, Nat.zero_mul]

/-- What is scaled to a smaller exponent denotes the same. -/
theorem scaledTo_mul {s : Bool} {m n : Nat} {e base : Int} (h : Denotes m e n) (hbase : base ≤ e) :
    scaledTo base s m e * ((2 ^ base.toNat : Nat) : Int) =
      signed s n * ((2 ^ (-base).toNat : Nat) : Int) := by
  have hexp : (((e - base).toNat + base.toNat : Nat) : Int) - (-base).toNat = e := by omega
  have hscaled : scaledTo base s m e = signed s (m * 2 ^ (e - base).toNat) := rfl
  rw [hscaled, signed_mul, signed_mul, Nat.mul_assoc, ← Nat.pow_add, (denotes_iff hexp).mp h]

/-! ## Rounding -/

theorem floorLog_mul_pow {n : Nat} (hn : n ≠ 0) (j : Nat) : floorLog (n * 2 ^ j) (2 ^ j) = n.log2 := by
  have hlog : (n * 2 ^ j).log2 = n.log2 + j := by
    rw [Nat.log2_eq_iff (Nat.mul_ne_zero hn (Nat.ne_of_gt (Nat.two_pow_pos j))), Nat.pow_add,
      Nat.add_right_comm, Nat.pow_add _ (n.log2 + 1)]
    exact ⟨Nat.mul_le_mul_right _ (Nat.log2_self_le hn),
      Nat.mul_lt_mul_of_pos_right Nat.lt_log2_self (Nat.two_pow_pos j)⟩
  have hdiff : ((n.log2 + j : Nat) : Int) - (j : Int) = n.log2 := by omega
  have hreach : 2 ^ j * 2 ^ n.log2 ≤ n * 2 ^ j := by
    rw [Nat.mul_comm]
    exact Nat.mul_le_mul_right _ (Nat.log2_self_le hn)
  unfold floorLog
  rw [hlog, Nat.log2_two_pow, hdiff]
  simp [hreach]

/-- The significand that a whole number has before a carry. -/
theorem denotes_significand (n j : Nat) {e : Int} (he : e = (n.log2 : Int) - 52) :
    Denotes (if 0 ≤ e then roundHalfEven (n * 2 ^ j) (2 ^ j * .pow 2 e.toNat)
      else roundHalfEven (n * 2 ^ j * .pow 2 (-e).toNat) (2 ^ j)) e (nearest n) := by
  unfold Denotes
  by_cases hbits : 52 ≤ n.log2
  · have hexp : e.toNat = n.log2 - 52 ∧ (-e).toNat = 0 := by omega
    rw [if_pos (by omega), Nat.pow_eq, hexp.1, hexp.2, Nat.pow_zero, Nat.mul_one, Nat.mul_comm (2 ^ j),
      roundHalfEven_mul (Nat.two_pow_pos j)]
    rfl
  · -- a number of fewer bits is scaled up, so nothing is rounded
    have hone : spacing n = 1 := by
      unfold spacing
      rw [Nat.sub_eq_zero_of_le (by omega), Nat.pow_zero]
    have hexp : e.toNat = 0 := by omega
    rw [if_neg (by omega), Nat.pow_eq, hexp, Nat.pow_zero, Nat.mul_one, Nat.mul_right_comm,
      roundHalfEven_of_dvd (Nat.two_pow_pos j) (Nat.dvd_mul_left _ _),
      Nat.mul_div_cancel _ (Nat.two_pow_pos j), nearest_of_dvd (hone ▸ Nat.one_dvd n)]

/-- A whole number is rounded to the nearest one, with any denominator that is a power of two. -/
theorem toInt?_round (s : Bool) {n : Nat} (hn : n < 2 ^ 200) (j : Nat) :
    (round .double s (n * 2 ^ j) (2 ^ j)).toInt? = some (signed s (nearest n)) := by
  unfold round
  by_cases hzero : n = 0
  · rw [hzero, Nat.zero_mul, if_pos rfl, toInt?_zero]
    cases s <;> rfl
  · have hlog : n.log2 < 200 := (Nat.log2_lt hzero).mpr hn
    rw [if_neg (Nat.mul_ne_zero hzero (Nat.ne_of_gt (Nat.two_pow_pos j))), floorLog_mul_pow hzero]
    extract_lets e m carried m' e'
    have he : e = (n.log2 : Int) - 52 := by
      show max ((n.log2 : Int) - (53 - 1 : Nat)) (-1074) = _
      omega
    have hm : Denotes m e (nearest n) := denotes_significand n j he
    have hm' : Denotes m' e' (nearest n) ∧ e' ≤ e + 1 := by
      unfold m' e'
      split
      · rename_i hcarried
        have htop : m = 2 ^ (52 + 1) := hcarried
        rw [htop] at hm
        exact ⟨hm.carry, Int.le_refl _⟩
      · exact ⟨hm, by omega⟩
    have hpos : m' ≠ 0 := fun h => (h ▸ hm'.1).ne_zero (nearest_pos hzero) rfl
    have hmax : ¬ Format.double.maxExp < e' := by
      show ¬ (971 < e')
      omega
    rw [if_neg hpos, if_neg hmax]
    exact toInt?_finite.mpr ⟨nearest n, hm'.1, rfl⟩

theorem toInt?_roundScaled (s : Bool) {m n : Nat} {e : Int} (h : Denotes m e n) (hn : n < 2 ^ 200) :
    (roundScaled .double s m e).toInt? = some (signed s (nearest n)) := by
  unfold Denotes at h
  unfold roundScaled
  split
  · have hzero : (-e).toNat = 0 := by omega
    rw [hzero, Nat.pow_zero, Nat.mul_one] at h
    rw [Nat.pow_eq, h]
    simpa using toInt?_round s hn 0
  · have hzero : e.toNat = 0 := by omega
    rw [hzero, Nat.pow_zero, Nat.mul_one] at h
    rw [Nat.pow_eq, h]
    exact toInt?_round s hn _

/-- The whole number of double precision nearest to `i`. -/
def nearestInt (i : Int) : Int := signed (i < 0) (nearest i.natAbs)

theorem nearestInt_signed (s : Bool) (n : Nat) : nearestInt (signed s n) = signed s (nearest n) := by
  unfold nearestInt
  rw [natAbs_signed]
  rcases Nat.eq_zero_or_pos n with rfl | hpos
  · cases s <;> rfl
  · congr 1
    cases s
    · simp [signed]
    · simpa [signed] using hpos

/-- A whole number that double precision holds: it has no more than fifty-three bits before its last
zeros. -/
def Holds (i : Int) : Prop := ∃ m k : Nat, m < 2 ^ 53 ∧ i.natAbs = m * 2 ^ k

theorem holds_of_natAbs_le {i : Int} (h : i.natAbs ≤ 2 ^ 53) : Holds i := by
  rcases Nat.lt_or_eq_of_le h with hlt | heq
  · exact ⟨i.natAbs, 0, hlt, (Nat.mul_one _).symm⟩
  · exact ⟨2 ^ 52, 1, by decide, heq⟩

/-- Numbers that double precision holds have the spacing of all that are no longer. -/
theorem spacing_dvd {n m k : Nat} (hm : m < 2 ^ 53) (hlog : n.log2 ≤ (m * 2 ^ k).log2) :
    spacing n ∣ m * 2 ^ k := by
  rcases Nat.eq_zero_or_pos (m * 2 ^ k) with hzero | hpos
  · rw [hzero]
    exact Nat.dvd_zero _
  · have hlength : (m * 2 ^ k).log2 < 53 + k := by
      rw [Nat.log2_lt (Nat.ne_of_gt hpos), Nat.pow_add]
      exact Nat.mul_lt_mul_of_pos_right hm (Nat.two_pow_pos k)
    exact Nat.dvd_mul_left_of_dvd (Nat.pow_dvd_pow 2 (by omega)) m

theorem nearestInt_of_holds {i : Int} (h : Holds i) : nearestInt i = i := by
  obtain ⟨m, k, hm, hi⟩ := h
  have hdvd : spacing i.natAbs ∣ i.natAbs := by
    rw [hi]
    exact spacing_dvd hm (Nat.le_refl _)
  unfold nearestInt
  rw [nearest_of_dvd hdvd, signed_natAbs]

/-- The nearest one is held: what is rounded up to `2 ^ 53` multiples is `2 ^ 52` of the double. -/
theorem holds_nearestInt (i : Int) : Holds (nearestInt i) := by
  unfold nearestInt Holds
  rw [natAbs_signed]
  generalize i.natAbs = n
  have hquot : n / spacing n < 2 ^ 53 := by
    rw [Nat.div_lt_iff_lt_mul (spacing_pos n)]
    unfold spacing
    rw [← Nat.pow_add]
    exact Nat.lt_of_lt_of_le Nat.lt_log2_self (Nat.pow_le_pow_right (by decide) (by omega))
  have hround : roundHalfEven n (spacing n) ≤ n / spacing n + 1 := by
    unfold roundHalfEven
    dsimp only
    split <;> omega
  rcases Nat.lt_or_eq_of_le (Nat.le_trans hround hquot) with hlt | heq
  · exact ⟨_, _, hlt, rfl⟩
  · refine ⟨2 ^ 52, n.log2 - 52 + 1, by decide, ?_⟩
    unfold nearest
    rw [heq, spacing, Nat.pow_succ 2 52, Nat.pow_succ 2 (n.log2 - 52), Nat.mul_assoc, Nat.mul_comm 2]

/-- Nothing that double precision holds is nearer. -/
theorem natAbs_sub_nearestInt_le (i : Int) {j : Int} (hj : Holds j) :
    (i - nearestInt i).natAbs ≤ (i - j).natAbs := by
  obtain ⟨m, k, hm, hjabs⟩ := hj
  have hmagnitudes : ((i.natAbs : Int) - nearest i.natAbs).natAbs ≤
      ((i.natAbs : Int) - j.natAbs).natAbs := by
    generalize i.natAbs = n
    rw [hjabs]
    by_cases hlog : n.log2 ≤ (m * 2 ^ k).log2
    · obtain ⟨t, ht⟩ := spacing_dvd hm hlog
      rw [ht, Nat.mul_comm]
      exact roundHalfEven_closest n (spacing_pos n) t
    · -- a shorter number is below the least one of this length, which is a multiple of the spacing
      have hn : n ≠ 0 := by
        rintro rfl
        exact hlog (Nat.zero_le _)
      have hpower : 2 ^ n.log2 ≤ n := Nat.log2_self_le hn
      have hshorter : m * 2 ^ k < 2 ^ n.log2 :=
        Nat.lt_of_lt_of_le Nat.lt_log2_self (Nat.pow_le_pow_right (by decide) (by omega))
      obtain ⟨t, ht⟩ : spacing n ∣ 2 ^ n.log2 := Nat.pow_dvd_pow 2 (Nat.sub_le _ _)
      have hclosest := roundHalfEven_closest n (spacing_pos n) t
      rw [Nat.mul_comm t, ← ht] at hclosest
      unfold nearest
      omega
  unfold nearestInt signed
  simp only [decide_eq_true_eq]
  split <;> omega

theorem natAbs_nearestInt_le (i : Int) : (nearestInt i).natAbs ≤ 2 * i.natAbs := by
  unfold nearestInt
  rw [natAbs_signed]
  exact nearest_le i.natAbs

/-! ## Sums, differences and products -/

theorem toInt?_ofInt {i : Int} (hi : i.natAbs < 2 ^ 200) :
    (ofInt .double i).toInt? = some (nearestInt i) := by
  unfold ofInt nearestInt
  simpa using toInt?_round (i < 0) hi 0

theorem toInt?_add {x y : Binary} {a b : Int} (hx : x.toInt? = some a) (hy : y.toInt? = some b)
    (hsize : (a + b).natAbs < 2 ^ 200) : (x.add .double y).toInt? = some (nearestInt (a + b)) := by
  cases x with
  | finite s m e =>
    cases y with
    | finite t n f =>
      obtain ⟨k, hk, rfl⟩ := toInt?_finite.mp hx
      obtain ⟨l, hl, rfl⟩ := toInt?_finite.mp hy
      unfold add
      dsimp only
      generalize hbase : min e f = base
      have hsum : (scaledTo base s m e + scaledTo base t n f) * ((2 ^ base.toNat : Nat) : Int) =
          (signed s k + signed t l) * ((2 ^ (-base).toNat : Nat) : Int) := by
        rw [Int.add_mul, Int.add_mul, scaledTo_mul hk (by omega), scaledTo_mul hl (by omega)]
      generalize scaledTo base s m e + scaledTo base t n f = sum at hsum ⊢
      generalize signed s k + signed t l = whole at hsum hsize ⊢
      split
      · rename_i hzero
        rw [hzero, Int.zero_mul, eq_comm, Int.mul_eq_zero] at hsum
        have hwhole : whole = 0 := hsum.resolve_right (by exact_mod_cast Nat.ne_of_gt (Nat.two_pow_pos _))
        rw [toInt?_zero, hwhole]
        rfl
      · have hden : Denotes sum.natAbs base whole.natAbs := by
          have habs := congrArg Int.natAbs hsum
          rwa [Int.natAbs_mul, Int.natAbs_mul, Int.natAbs_natCast, Int.natAbs_natCast] at habs
        have hsign : decide (sum < 0) = decide (whole < 0) := by
          have hpow (k : Nat) : Int.sign ((2 ^ k : Nat) : Int) = 1 :=
            Int.sign_eq_one_of_pos (Int.natCast_pos.mpr (Nat.two_pow_pos k))
          have hsame := congrArg Int.sign hsum
          rw [Int.sign_mul, Int.sign_mul, hpow, hpow, Int.mul_one, Int.mul_one] at hsame
          rw [decide_eq_decide, ← Int.sign_eq_neg_one_iff_neg, hsame, Int.sign_eq_neg_one_iff_neg]
        rw [toInt?_roundScaled _ hden hsize, hsign]
        rfl
    | _ => cases hy
  | _ => cases hx

theorem toInt?_neg {x : Binary} {a : Int} (hx : x.toInt? = some a) : x.neg.toInt? = some (-a) := by
  cases x with
  | finite s m e =>
    obtain ⟨n, hn, rfl⟩ := toInt?_finite.mp hx
    exact toInt?_finite.mpr ⟨n, hn, by cases s <;> simp [signed]⟩
  | _ => cases hx

theorem toInt?_sub {x y : Binary} {a b : Int} (hx : x.toInt? = some a) (hy : y.toInt? = some b)
    (hsize : (a - b).natAbs < 2 ^ 200) : (x.sub .double y).toInt? = some (nearestInt (a - b)) :=
  toInt?_add hx (toInt?_neg hy) hsize

theorem toInt?_mul {x y : Binary} {a b : Int} (hx : x.toInt? = some a) (hy : y.toInt? = some b)
    (hsize : (a * b).natAbs < 2 ^ 200) : (x.mul .double y).toInt? = some (nearestInt (a * b)) := by
  cases x with
  | finite s m e =>
    cases y with
    | finite t n f =>
      obtain ⟨k, hk, rfl⟩ := toInt?_finite.mp hx
      obtain ⟨l, hl, rfl⟩ := toInt?_finite.mp hy
      rw [signed_mul_signed] at hsize ⊢
      rw [natAbs_signed] at hsize
      rw [nearestInt_signed]
      exact toInt?_roundScaled _ (hk.mul hl) hsize
    | _ => cases hy
  | _ => cases hx

end StoryPreview.Number.Binary
