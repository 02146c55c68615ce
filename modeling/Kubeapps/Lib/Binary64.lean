/-
  Numbers with 53 significant bits.

  `float64 x` is the number with 53 bits that is nearest to `x`, of two the one with an even
  mantissa (`roundEven`). Exponents have no bounds: numbers that overflow, or that are not
  normal, are not modelled.

  * `float64_mono`, `float64_eq_self`: rounding is monotone, and numbers with 53 bits stay.
  * `float64_down`, `float64_up`: a number between two neighbours, by the half it lies in.
  * `lt_float64`: a number above the middle rounds to more than the lower neighbour.
-/
import Mathlib.Data.Int.Log
import Mathlib.Data.Rat.Floor
import Mathlib.Tactic.Linarith
import Mathlib.Tactic.FieldSimp
import Mathlib.Tactic.Positivity

namespace Kubeapps.Lib

/-- The nearest integer, of two the even one. -/
def roundEven (x : ℚ) : ℤ :=
  if Int.fract x < 1 / 2 ∨ Int.fract x = 1 / 2 ∧ Even ⌊x⌋ then ⌊x⌋ else ⌊x⌋ + 1

/-- The distance of the numbers with 53 bits next to `x`. -/
def ulp (x : ℚ) : ℚ := 2 ^ (Int.log 2 x - 52)

def float64 (x : ℚ) : ℚ := roundEven (x / ulp x) * ulp x

/-! ## Integers -/

theorem roundEven_intCast (k : ℤ) : roundEven k = k := by
  unfold roundEven
  rw [Int.fract_intCast, Int.floor_intCast, if_pos (Or.inl (by norm_num))]

theorem floor_le_roundEven (x : ℚ) : ⌊x⌋ ≤ roundEven x := by
  unfold roundEven
  split_ifs <;> omega

theorem roundEven_le_floor (x : ℚ) : roundEven x ≤ ⌊x⌋ + 1 := by
  unfold roundEven
  split_ifs <;> omega

theorem roundEven_mono {x y : ℚ} (h : x ≤ y) : roundEven x ≤ roundEven y := by
  have hfloor : ⌊x⌋ ≤ ⌊y⌋ := Int.floor_mono h
  by_cases heq : ⌊x⌋ = ⌊y⌋
  · have hfract : Int.fract x ≤ Int.fract y := by
      unfold Int.fract
      rw [heq]
      linarith
    unfold roundEven
    rw [heq]
    split_ifs with hx hy
    · exact le_rfl
    · omega
    · -- `y` rounds down, so `x` does
      exfalso
      apply hx
      rcases ‹Int.fract y < 1 / 2 ∨ _› with hlt | ⟨hhalf, heven⟩
      · exact Or.inl (by linarith)
      · rcases lt_or_eq_of_le hfract with hlt | heqf
        · exact Or.inl (by linarith)
        · exact Or.inr ⟨by linarith, heven⟩
    · exact le_rfl
  · have hx := roundEven_le_floor x
    have hy := floor_le_roundEven y
    omega

theorem half_le_roundEven (x : ℚ) : x - 1 / 2 ≤ roundEven x := by
  have hfract : x = ⌊x⌋ + Int.fract x := (Int.floor_add_fract x).symm
  have hlt := Int.fract_lt_one x
  unfold roundEven
  split_ifs with h
  · have hle : Int.fract x ≤ 1 / 2 := by
      rcases h with h | h
      · exact le_of_lt h
      · exact le_of_eq h.1
    linarith
  · push_cast
    linarith

theorem roundEven_down {k : ℤ} {x : ℚ} (hlow : k ≤ x)
    (hhigh : x < k + 1 / 2 ∨ x = k + 1 / 2 ∧ Even k) : roundEven x = k := by
  have hfloor : ⌊x⌋ = k := by
    apply Int.floor_eq_iff.mpr
    rcases hhigh with h | h
    · exact ⟨hlow, by linarith⟩
    · exact ⟨hlow, by linarith⟩
  have hfract : Int.fract x = x - k := by
    unfold Int.fract
    rw [hfloor]
  unfold roundEven
  rw [hfract, hfloor, if_pos]
  rcases hhigh with h | ⟨h, heven⟩
  · exact Or.inl (by linarith)
  · exact Or.inr ⟨by linarith, heven⟩

theorem roundEven_up {k : ℤ} {x : ℚ} (hlow : k + 1 / 2 < x ∨ x = k + 1 / 2 ∧ ¬ Even k)
    (hhigh : x ≤ k + 1) : roundEven x = k + 1 := by
  rcases eq_or_lt_of_le hhigh with heq | hlt
  · have hcast : x = ((k + 1 : ℤ) : ℚ) := by
      rw [heq]
      push_cast
      rfl
    rw [hcast, roundEven_intCast]
  · have hfloor : ⌊x⌋ = k := by
      apply Int.floor_eq_iff.mpr
      rcases hlow with h | h
      · exact ⟨by linarith, hlt⟩
      · exact ⟨by linarith, hlt⟩
    have hfract : Int.fract x = x - k := by
      unfold Int.fract
      rw [hfloor]
    unfold roundEven
    rw [hfract, hfloor, if_neg]
    rintro (h | ⟨h, heven⟩)
    · rcases hlow with h' | h'
      · linarith
      · linarith
    · rcases hlow with h' | h'
      · linarith
      · exact h'.2 heven

/-! ## Numbers -/

theorem ulp_pos (x : ℚ) : 0 < ulp x := zpow_pos two_pos _

/-- `2 ^ 52` ulps are the power of two below the number. -/
theorem ulp_mul (x : ℚ) : ulp x * 2 ^ 52 = 2 ^ Int.log 2 x := by
  unfold ulp
  rw [show (2 : ℚ) ^ 52 = 2 ^ (52 : ℤ) from (zpow_natCast 2 52).symm, ← zpow_add₀ two_ne_zero]
  congr 1
  omega

theorem ulp_mul_le {x : ℚ} (hx : 0 < x) : ulp x * 2 ^ 52 ≤ x := by
  rw [ulp_mul]
  exact_mod_cast Int.zpow_log_le_self (b := 2) one_lt_two hx

theorem lt_ulp_mul (x : ℚ) : x < ulp x * 2 ^ 53 := by
  have hlt := Int.lt_zpow_succ_log_self (b := 2) one_lt_two x
  have hmul : ulp x * 2 ^ 53 = 2 ^ (Int.log 2 x + 1) := by
    rw [zpow_add_one₀ two_ne_zero, ← ulp_mul]
    ring
  rw [hmul]
  exact_mod_cast hlt

theorem ulp_eq {x : ℚ} {e : ℤ} (hlow : 2 ^ 52 * 2 ^ e ≤ x) (hhigh : x < 2 ^ 53 * 2 ^ e) :
    ulp x = 2 ^ e := by
  have he : (0 : ℚ) < 2 ^ e := zpow_pos two_pos e
  have hx : 0 < x := by
    have : (0 : ℚ) < 2 ^ 52 * 2 ^ e := by positivity
    linarith
  have hlog : Int.log 2 x = e + 52 := by
    apply le_antisymm
    · have hlt : x < ((2 : ℕ) : ℚ) ^ (e + 53) := by
        rw [Nat.cast_ofNat, zpow_add₀ two_ne_zero, mul_comm]
        exact_mod_cast hhigh
      have := (Int.lt_zpow_iff_log_lt one_lt_two hx).mp hlt
      omega
    · apply (Int.zpow_le_iff_le_log one_lt_two hx).mp
      rw [Nat.cast_ofNat, zpow_add₀ two_ne_zero, mul_comm]
      exact_mod_cast hlow
  unfold ulp
  rw [hlog]
  congr 1
  omega

/-- Rounding between two powers of two. -/
theorem float64_eq {x : ℚ} {e : ℤ} (hlow : 2 ^ 52 * 2 ^ e ≤ x) (hhigh : x < 2 ^ 53 * 2 ^ e) :
    float64 x = roundEven (x / 2 ^ e) * 2 ^ e := by
  unfold float64
  rw [ulp_eq hlow hhigh]

@[simp] theorem float64_zero : float64 0 = 0 := by
  unfold float64
  rw [zero_div, show (0 : ℚ) = ((0 : ℤ) : ℚ) from rfl, roundEven_intCast]
  simp

/-- A mantissa of at most 53 bits, or the next power of two. -/
theorem float64_two_pow_mul {m : ℕ} (e : ℤ) (hlow : 2 ^ 52 ≤ m) (hhigh : m ≤ 2 ^ 53) :
    float64 (m * 2 ^ e) = m * 2 ^ e := by
  have he : (0 : ℚ) < 2 ^ e := zpow_pos two_pos e
  have hlow' : (2 : ℚ) ^ 52 ≤ m := by exact_mod_cast hlow
  rcases Nat.lt_or_eq_of_le hhigh with hlt | heq
  · have hlt' : (m : ℚ) < 2 ^ 53 := by exact_mod_cast hlt
    rw [float64_eq (mul_le_mul_of_nonneg_right hlow' he.le) (mul_lt_mul_of_pos_right hlt' he),
      mul_div_assoc, div_self he.ne', mul_one, show (m : ℚ) = ((m : ℤ) : ℚ) from rfl,
      roundEven_intCast]
  · have hpow : (m : ℚ) * 2 ^ e = ((2 ^ 52 : ℤ) : ℚ) * 2 ^ (e + 1) := by
      rw [heq, zpow_add_one₀ two_ne_zero]
      push_cast
      ring
    have he' : (0 : ℚ) < 2 ^ (e + 1) := zpow_pos two_pos _
    rw [hpow, float64_eq (e := e + 1), mul_div_assoc, div_self he'.ne', mul_one, roundEven_intCast]
    · push_cast
      exact le_rfl
    · push_cast
      exact mul_lt_mul_of_pos_right (by norm_num) he'

/-- A mantissa of at most 53 bits. -/
theorem float64_mul_zpow {m : ℕ} (e : ℤ) (hpos : 0 < m) (hm : m ≤ 2 ^ 53) :
    float64 (m * 2 ^ e) = m * 2 ^ e := by
  by_cases hlow : 2 ^ 52 ≤ m
  · exact float64_two_pow_mul e hlow hm
  · -- shift the mantissa up to its 53 bits
    have hlog : Nat.log 2 m < 52 := Nat.log_lt_of_lt_pow hpos.ne' (by omega)
    have hshift : 2 ^ (52 - Nat.log 2 m) * 2 ^ Nat.log 2 m = 2 ^ 52 := by
      rw [← pow_add]
      congr 1
      omega
    have hge : 2 ^ Nat.log 2 m ≤ m := Nat.pow_log_le_self 2 hpos.ne'
    have hlt : m < 2 ^ (Nat.log 2 m + 1) := Nat.lt_pow_succ_log_self one_lt_two m
    rw [pow_succ] at hlt
    have hmul : (m : ℚ) * 2 ^ e =
        ((m * 2 ^ (52 - Nat.log 2 m) : ℕ) : ℚ) * 2 ^ (e - (52 - Nat.log 2 m : ℕ)) := by
      rw [zpow_sub₀ two_ne_zero, zpow_natCast]
      push_cast
      field_simp
    rw [hmul]
    apply float64_two_pow_mul
    · calc 2 ^ 52 = 2 ^ Nat.log 2 m * 2 ^ (52 - Nat.log 2 m) := by rw [← hshift, mul_comm]
        _ ≤ m * 2 ^ (52 - Nat.log 2 m) := Nat.mul_le_mul_right _ hge
    · calc m * 2 ^ (52 - Nat.log 2 m)
          ≤ 2 ^ Nat.log 2 m * 2 * 2 ^ (52 - Nat.log 2 m) := Nat.mul_le_mul_right _ hlt.le
        _ = 2 * (2 ^ (52 - Nat.log 2 m) * 2 ^ Nat.log 2 m) := by ring
        _ = 2 ^ 53 := by rw [hshift]; norm_num

theorem float64_natCast {n : ℕ} (h : n ≤ 2 ^ 53) : float64 n = n := by
  by_cases hn : n = 0
  · rw [hn, Nat.cast_zero, float64_zero]
  · have hself := float64_mul_zpow 0 (Nat.pos_of_ne_zero hn) h
    rwa [zpow_zero, mul_one] at hself

/-- The result lies between the powers of two around the number. -/
theorem float64_bounds {x : ℚ} (hx : 0 < x) :
    ulp x * 2 ^ 52 ≤ float64 x ∧ float64 x ≤ ulp x * 2 ^ 53 := by
  have hpos := ulp_pos x
  have hlow : ((2 ^ 52 : ℤ) : ℚ) ≤ x / ulp x := by
    rw [le_div_iff₀ hpos, mul_comm]
    exact_mod_cast ulp_mul_le hx
  have hhigh : x / ulp x ≤ ((2 ^ 53 : ℤ) : ℚ) := by
    rw [div_le_iff₀ hpos, mul_comm]
    exact_mod_cast (lt_ulp_mul x).le
  have hlow' := roundEven_mono hlow
  have hhigh' := roundEven_mono hhigh
  rw [roundEven_intCast] at hlow' hhigh'
  unfold float64
  constructor
  · rw [mul_comm]
    exact mul_le_mul_of_nonneg_right (by exact_mod_cast hlow') hpos.le
  · rw [mul_comm (ulp x)]
    exact mul_le_mul_of_nonneg_right (by exact_mod_cast hhigh') hpos.le

theorem float64_pos {x : ℚ} (hx : 0 < x) : 0 < float64 x := by
  have hpos := ulp_pos x
  have hlow := (float64_bounds hx).1
  have : 0 < ulp x * 2 ^ 52 := by positivity
  linarith

theorem float64_mono {x y : ℚ} (hx : 0 < x) (hxy : x ≤ y) : float64 x ≤ float64 y := by
  have hy : 0 < y := lt_of_lt_of_le hx hxy
  have hlog : Int.log 2 x ≤ Int.log 2 y := Int.log_mono_right hx hxy
  rcases lt_or_eq_of_le hlog with hlt | heq
  · calc float64 x ≤ ulp x * 2 ^ 53 := (float64_bounds hx).2
      _ = 2 ^ (Int.log 2 x + 1) := by
          rw [zpow_add_one₀ two_ne_zero, ← ulp_mul]
          ring
      _ ≤ 2 ^ Int.log 2 y := zpow_le_zpow_right₀ one_le_two (by omega)
      _ = ulp y * 2 ^ 52 := (ulp_mul y).symm
      _ ≤ float64 y := (float64_bounds hy).1
  · have hulp : ulp x = ulp y := by
      unfold ulp
      rw [heq]
    have hround := roundEven_mono (div_le_div_of_nonneg_right hxy (ulp_pos y).le)
    unfold float64
    rw [hulp]
    exact mul_le_mul_of_nonneg_right (by exact_mod_cast hround) (ulp_pos y).le

/-- At most half an ulp is lost. -/
theorem le_float64 {x : ℚ} (hx : 0 < x) : x * (2 ^ 53 - 1) ≤ float64 x * 2 ^ 53 := by
  have hpos := ulp_pos x
  have hhalf := mul_le_mul_of_nonneg_right (half_le_roundEven (x / ulp x)) hpos.le
  rw [sub_mul, div_mul_cancel₀ x hpos.ne'] at hhalf
  have hulp := ulp_mul_le hx
  unfold float64
  linarith

section Neighbours

variable {m : ℕ} {e : ℤ} {x : ℚ}

/-- Below the middle of two neighbours, or in it with an even lower neighbour. -/
theorem float64_down (hlow : 2 ^ 52 ≤ m) (hhigh : m < 2 ^ 53) (hx : m * 2 ^ e ≤ x)
    (hx' : x < (m + 1 / 2) * 2 ^ e ∨ x = (m + 1 / 2) * 2 ^ e ∧ Even m) :
    float64 x = m * 2 ^ e := by
  have he : (0 : ℚ) < 2 ^ e := zpow_pos two_pos e
  have hlow' : (2 : ℚ) ^ 52 ≤ m := by exact_mod_cast hlow
  have hhigh' : (m : ℚ) + 1 ≤ 2 ^ 53 := by exact_mod_cast hhigh
  have hround : roundEven (x / 2 ^ e) = m := by
    apply roundEven_down
    · rw [le_div_iff₀ he]
      exact_mod_cast hx
    · rcases hx' with h | ⟨h, heven⟩
      · left
        rw [div_lt_iff₀ he]
        exact_mod_cast h
      · right
        rw [div_eq_iff he.ne']
        exact ⟨by exact_mod_cast h, by exact_mod_cast heven⟩
  have hbelow : x < 2 ^ 53 * 2 ^ e := by
    apply lt_of_le_of_lt _ (mul_lt_mul_of_pos_right (show (m + 1 / 2 : ℚ) < 2 ^ 53 by linarith) he)
    rcases hx' with h | h
    · exact h.le
    · exact h.1.le
  rw [float64_eq (le_trans (mul_le_mul_of_nonneg_right hlow' he.le) hx) hbelow, hround]
  norm_cast

/-- Above the middle of two neighbours, or in it with an odd lower neighbour. -/
theorem float64_up (hlow : 2 ^ 52 ≤ m) (hhigh : m < 2 ^ 53)
    (hx : (m + 1 / 2) * 2 ^ e < x ∨ x = (m + 1 / 2) * 2 ^ e ∧ ¬ Even m)
    (hx' : x ≤ (m + 1) * 2 ^ e) : float64 x = (m + 1) * 2 ^ e := by
  have he : (0 : ℚ) < 2 ^ e := zpow_pos two_pos e
  have hlow' : (2 : ℚ) ^ 52 ≤ m := by exact_mod_cast hlow
  have hhigh' : (m : ℚ) + 1 ≤ 2 ^ 53 := by exact_mod_cast hhigh
  rcases eq_or_lt_of_le hx' with heq | hlt
  · have hself := float64_two_pow_mul (m := m + 1) e (by omega) (by omega)
    push_cast at hself
    rw [heq, hself]
  · have hround : roundEven (x / 2 ^ e) = m + 1 := by
      apply roundEven_up
      · rcases hx with h | ⟨h, hodd⟩
        · left
          rw [lt_div_iff₀ he]
          exact_mod_cast h
        · right
          rw [div_eq_iff he.ne']
          exact ⟨by exact_mod_cast h, by exact_mod_cast hodd⟩
      · rw [div_le_iff₀ he]
        exact_mod_cast hx'
    have habove : 2 ^ 52 * 2 ^ e ≤ x := by
      apply le_trans (mul_le_mul_of_nonneg_right (show (2 : ℚ) ^ 52 ≤ m + 1 / 2 by linarith) he.le)
      rcases hx with h | h
      · exact h.le
      · exact h.1.ge
    rw [float64_eq habove (lt_of_lt_of_le hlt (mul_le_mul_of_nonneg_right hhigh' he.le)), hround]
    push_cast
    rfl

theorem lt_float64 (hlow : 2 ^ 52 ≤ m) (hhigh : m < 2 ^ 53) (hx : (m + 1 / 2) * 2 ^ e < x) :
    m * 2 ^ e < float64 x := by
  have he : (0 : ℚ) < 2 ^ e := zpow_pos two_pos e
  have hlow' : (2 : ℚ) ^ 52 ≤ m := by exact_mod_cast hlow
  have hnext : (m : ℚ) * 2 ^ e < (m + 1) * 2 ^ e := mul_lt_mul_of_pos_right (by linarith) he
  by_cases hx' : x ≤ (m + 1) * 2 ^ e
  · rw [float64_up hlow hhigh (Or.inl hx) hx']
    exact hnext
  · have hself := float64_two_pow_mul (m := m + 1) e (by omega) (by omega)
    push_cast at hself
    have hpos : (0 : ℚ) < (m + 1) * 2 ^ e := by positivity
    have hmono := float64_mono hpos (le_of_not_ge hx')
    rw [hself] at hmono
    linarith

/-! ## Natural numbers -/

variable {f r : ℕ}

theorem float64_add_down (hlow : 2 ^ 52 ≤ m) (hhigh : m < 2 ^ 53)
    (hr : 2 * r < 2 ^ f ∨ 2 * r = 2 ^ f ∧ Even m) :
    float64 (m * 2 ^ f + r : ℕ) = (m * 2 ^ f : ℕ) := by
  have hdown := float64_down (e := f) (x := (m * 2 ^ f + r : ℕ)) hlow hhigh
  rw [zpow_natCast] at hdown
  push_cast at hdown ⊢
  apply hdown
  · have : (0 : ℚ) ≤ r := Nat.cast_nonneg r
    linarith
  · rcases hr with h | ⟨h, heven⟩
    · left
      have hcast : (2 * r : ℚ) < 2 ^ f := by exact_mod_cast h
      linarith
    · right
      have hcast : (2 * r : ℚ) = 2 ^ f := by exact_mod_cast h
      exact ⟨by linarith, heven⟩

theorem float64_add_up (hlow : 2 ^ 52 ≤ m) (hhigh : m < 2 ^ 53)
    (hr : 2 ^ f < 2 * r ∨ 2 * r = 2 ^ f ∧ ¬ Even m) (hr' : r ≤ 2 ^ f) :
    float64 (m * 2 ^ f + r : ℕ) = ((m + 1) * 2 ^ f : ℕ) := by
  have hup := float64_up (e := f) (x := (m * 2 ^ f + r : ℕ)) hlow hhigh
  rw [zpow_natCast] at hup
  push_cast at hup ⊢
  apply hup
  · rcases hr with h | ⟨h, hodd⟩
    · left
      have hcast : (2 ^ f : ℚ) < 2 * r := by exact_mod_cast h
      linarith
    · right
      have hcast : (2 * r : ℚ) = 2 ^ f := by exact_mod_cast h
      exact ⟨by linarith, hodd⟩
  · have hcast : (r : ℚ) ≤ 2 ^ f := by exact_mod_cast hr'
    linarith

end Neighbours

/-- The mantissa of a number with more than 53 bits, and what is behind it. -/
theorem exists_mantissa {n : ℕ} (hn : 2 ^ 53 ≤ n) :
    ∃ m f r, 2 ^ 52 ≤ m ∧ m < 2 ^ 53 ∧ r < 2 ^ (f + 1) ∧ n = m * 2 ^ (f + 1) + r := by
  have hpos : n ≠ 0 := by omega
  have hlog : 53 ≤ Nat.log 2 n := Nat.le_log_of_pow_le one_lt_two hn
  have hge : 2 ^ Nat.log 2 n ≤ n := Nat.pow_log_le_self 2 hpos
  have hlt : n < 2 ^ (Nat.log 2 n + 1) := Nat.lt_pow_succ_log_self one_lt_two n
  have hexp : Nat.log 2 n - 53 + 1 = Nat.log 2 n - 52 := by omega
  have hpow : 0 < 2 ^ (Nat.log 2 n - 52) := by positivity
  refine ⟨n / 2 ^ (Nat.log 2 n - 52), Nat.log 2 n - 53, n % 2 ^ (Nat.log 2 n - 52), ?_, ?_, ?_, ?_⟩
  · rw [Nat.le_div_iff_mul_le hpow, ← pow_add]
    rwa [show 52 + (Nat.log 2 n - 52) = Nat.log 2 n by omega]
  · rw [Nat.div_lt_iff_lt_mul hpow, ← pow_add]
    rwa [show 53 + (Nat.log 2 n - 52) = Nat.log 2 n + 1 by omega]
  · rw [hexp]
    exact Nat.mod_lt n hpow
  · rw [hexp, mul_comm]
    exact (Nat.div_add_mod n _).symm

end Kubeapps.Lib
