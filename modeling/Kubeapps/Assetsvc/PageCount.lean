/-
  The number of pages of `GetPaginatedChartList`, a quotient of two numbers with 53 bits that is
  rounded up.

  * `numPages_of_lt`: below `2 ^ 53` rows it is exact, for every size. A table has no more
    (`getPaginatedChartList_numPages`).
  * `exists_wrong`: for almost every size some count of 64 bits is reported wrong, as the count or
    the quotient is rounded to a multiple of the size.
  * `numPages_of_lastRounded`: the sizes that are left are those of which three pages hold every
    count, and of these the last that are rounded to one number.
  * `rightPaging_iff`, `rightPaging_of_small`: when the clause and the number of pages are right.
-/
import Kubeapps.Assetsvc.PageParams

namespace Kubeapps.Assetsvc

open Kubeapps.Lib

/-! ## The number of pages -/

section Pages

variable {count size k : Nat}

theorem ceil_div (hlow : k * size < count) (hhigh : count ≤ (k + 1) * size) :
    ⌈(count / size : ℚ)⌉ = (k + 1 : Nat) := by
  have hsize : 0 < size := by
    apply Nat.pos_of_ne_zero
    intro hzero
    rw [hzero] at hlow hhigh
    omega
  have hpos : (0 : ℚ) < size := by exact_mod_cast hsize
  apply Int.ceil_eq_iff.mpr
  constructor
  · rw [lt_div_iff₀ hpos]
    push_cast
    rw [add_sub_cancel_right]
    exact_mod_cast hlow
  · rw [div_le_iff₀ hpos]
    exact_mod_cast hhigh

/-- The page of the last row. -/
theorem last_page (hcount : 0 < count) (hsize : 0 < size) :
    (count - 1) / size * size < count ∧ count ≤ ((count - 1) / size + 1) * size := by
  have hdiv := Nat.div_add_mod (count - 1) size
  have hmod := Nat.mod_lt (count - 1) hsize
  rw [add_mul, one_mul, mul_comm]
  omega

theorem numPages_eq (hsize : 0 < size) :
    numPages count size = toInt ⌈float64 (float64 count / float64 size)⌉ := by
  unfold numPages
  rw [if_pos (by omega), Int.cast_natCast, Int.cast_natCast]

theorem float64_quot_pos (hcount : 0 < count) (hsize : 0 < size) :
    0 < float64 count / float64 size :=
  div_pos (float64_pos (by exact_mod_cast hcount)) (float64_pos (by exact_mod_cast hsize))

/-- The rounded quotient is on the right page. -/
theorem numPages_of_between (hcount : 0 < count) (hsize : 0 < size) (hk : k < 2 ^ 53)
    (hlow : k < float64 (float64 count / float64 size))
    (hhigh : float64 count ≤ (k + 1 : Nat) * float64 size) :
    numPages count size = (k + 1 : Nat) := by
  have hpos : 0 < float64 size := float64_pos (by exact_mod_cast hsize)
  have hle : float64 (float64 count / float64 size) ≤ (k + 1 : Nat) := by
    rw [← float64_natCast (n := k + 1) (by omega)]
    apply float64_mono (float64_quot_pos hcount hsize)
    rwa [div_le_iff₀ hpos]
  have hceil : ⌈float64 (float64 count / float64 size)⌉ = (k + 1 : Nat) := by
    apply Int.ceil_eq_iff.mpr
    constructor
    · push_cast
      rwa [add_sub_cancel_right]
    · exact hle
  rw [numPages_eq hsize, hceil, toInt_of_lt (by omega)]

/-- The rounded count fits on fewer pages. -/
theorem numPages_ne_of_le (hsize : 0 < size) (hk : float64 k = k) (hk' : k < 2 ^ 63)
    (hlow : k * size < count) (hle : float64 count ≤ k * float64 size) :
    numPages count size ≠ ⌈(count / size : ℚ)⌉ := by
  have hcount : 0 < count := by omega
  have hpos : 0 < float64 size := float64_pos (by exact_mod_cast hsize)
  have hquot := float64_quot_pos hcount hsize
  have hceil : ⌈float64 (float64 count / float64 size)⌉ ≤ k := by
    apply Int.ceil_le.mpr
    rw [Int.cast_natCast, ← hk]
    apply float64_mono hquot
    rwa [div_le_iff₀ hpos]
  have hceil' : 0 < ⌈float64 (float64 count / float64 size)⌉ :=
    Int.ceil_pos.mpr (float64_pos hquot)
  have hexact : (k : Int) < ⌈(count / size : ℚ)⌉ := by
    rw [Int.lt_ceil, lt_div_iff₀ (by exact_mod_cast hsize)]
    exact_mod_cast hlow
  obtain ⟨n, hn⟩ := Int.eq_ofNat_of_zero_le hceil'.le
  rw [numPages_eq hsize, hn, toInt_of_lt (by omega)]
  omega

/-- The rounded count needs one more page. -/
theorem numPages_ne_of_lt (hcount : 0 < count) (hsize : 0 < size) (hk : k < 2 ^ 53)
    (hhigh : count ≤ k * size) (hlow : k < float64 (float64 count / float64 size))
    (hle : float64 count ≤ (k + 1 : Nat) * float64 size) :
    numPages count size ≠ ⌈(count / size : ℚ)⌉ := by
  have hexact : ⌈(count / size : ℚ)⌉ ≤ k := by
    rw [Int.ceil_le, div_le_iff₀ (by exact_mod_cast hsize)]
    exact_mod_cast hhigh
  rw [numPages_of_between hcount hsize hk hlow hle]
  omega

/-- Below `2 ^ 53` rows nothing is lost, however large the pages are. -/
theorem numPages_of_lt (hcount : count < 2 ^ 53) (hsize : 0 < size) :
    numPages count size = ⌈(count / size : ℚ)⌉ := by
  by_cases hzero : count = 0
  · rw [numPages_eq hsize, hzero, Nat.cast_zero, float64_zero, zero_div, zero_div, float64_zero]
    rfl
  · have hpos : 0 < count := Nat.pos_of_ne_zero hzero
    have hself : float64 count = count := float64_natCast hcount.le
    have hquot := float64_quot_pos hpos hsize
    have hcountQ : (count : ℚ) < 2 ^ 53 := by exact_mod_cast hcount
    by_cases hsmall : size ≤ 2 ^ 53
    · have hself' : float64 size = size := float64_natCast hsmall
      have hsizeQ : (0 : ℚ) < size := by exact_mod_cast hsize
      obtain ⟨hlow, hhigh⟩ := last_page hpos hsize
      have hk : (count - 1) / size < 2 ^ 53 :=
        lt_of_le_of_lt (Nat.div_le_self _ _) (by omega)
      rw [ceil_div hlow hhigh]
      apply numPages_of_between hpos hsize hk
      · have hround := le_float64 hquot
        rw [hself, hself'] at hround ⊢
        have hlowQ : (((count - 1) / size : Nat) : ℚ) * size + 1 ≤ count := by exact_mod_cast hlow
        have hkey : (((count - 1) / size : Nat) : ℚ) * 2 ^ 53 * size <
            count / size * (2 ^ 53 - 1) * size := by
          rw [mul_right_comm, mul_right_comm (_ / _ : ℚ), div_mul_cancel₀ _ hsizeQ.ne']
          linarith
        have hlt := lt_of_mul_lt_mul_right hkey hsizeQ.le
        linarith
      · rw [hself, hself']
        exact_mod_cast hhigh
    · have hbig : (2 : ℚ) ^ 53 ≤ float64 size := by
        have hle : ((2 ^ 53 : Nat) : ℚ) ≤ size := by exact_mod_cast le_of_not_ge hsmall
        have hmono := float64_mono (by positivity) hle
        rw [float64_natCast le_rfl] at hmono
        exact_mod_cast hmono
      rw [ceil_div (k := 0) (by omega) (by omega)]
      apply numPages_of_between hpos hsize (by norm_num)
      · exact_mod_cast float64_pos hquot
      · rw [hself, Nat.zero_add, Nat.cast_one, one_mul]
        linarith

end Pages

/-! ## Sizes for which every count is right -/

section Sizes

variable {size m f r : Nat}

/-- A power of two of pages, and one row. -/
theorem exists_wrong_of_small (hsize : 0 < size) (hsmall : size < 2 ^ 53) :
    ∃ count : Nat, count < 2 ^ 63 ∧ numPages count size ≠ ⌈(count / size : ℚ)⌉ := by
  have hlog : Nat.log 2 size ≤ 52 := by
    have := Nat.log_lt_of_lt_pow hsize.ne' hsmall
    omega
  have hge : 2 ^ Nat.log 2 size ≤ size := Nat.pow_log_le_self 2 hsize.ne'
  have hlt : size < 2 ^ (Nat.log 2 size + 1) := Nat.lt_pow_succ_log_self one_lt_two size
  have hshift : 2 ^ Nat.log 2 size * 2 ^ (52 - Nat.log 2 size) = 2 ^ 52 := by
    rw [← pow_add]
    congr 1
    omega
  have hlow : 2 ^ 52 ≤ size * 2 ^ (52 - Nat.log 2 size) := by
    rw [← hshift]
    exact Nat.mul_le_mul_right _ hge
  have hhigh : size * 2 ^ (52 - Nat.log 2 size) < 2 ^ 53 := by
    have hmul := Nat.mul_lt_mul_of_pos_right hlt (Nat.two_pow_pos (52 - Nat.log 2 size))
    rw [pow_succ, mul_right_comm, hshift] at hmul
    omega
  have hround := float64_add_down (f := 2) (r := 1) hlow hhigh (Or.inl (by norm_num))
  have hpages : 2 ^ (52 - Nat.log 2 size) * 2 ^ 2 * size =
      size * 2 ^ (52 - Nat.log 2 size) * 2 ^ 2 := by ring
  have hpow : 2 ^ (52 - Nat.log 2 size) ≤ 2 ^ 52 := Nat.pow_le_pow_right two_pos (by omega)
  refine ⟨size * 2 ^ (52 - Nat.log 2 size) * 2 ^ 2 + 1, by omega, ?_⟩
  apply numPages_ne_of_le (k := 2 ^ (52 - Nat.log 2 size) * 2 ^ 2) hsize
  · have hself := float64_mul_zpow (m := 1) ((52 - Nat.log 2 size : Nat) + 2) one_pos (by norm_num)
    rw [Nat.cast_one, one_mul, zpow_add₀ two_ne_zero, zpow_natCast] at hself
    push_cast
    exact hself
  · omega
  · rw [hpages]
    omega
  · rw [hround, float64_natCast hsmall.le, ← hpages]
    push_cast
    rfl

/-- One row more than a page is rounded to a page. -/
theorem exists_wrong_of_eq (hsize : 0 < size) (hlt : size + 1 < 2 ^ 63)
    (heq : float64 (size + 1 : Nat) = float64 size) :
    ∃ count : Nat, count < 2 ^ 63 ∧ numPages count size ≠ ⌈(count / size : ℚ)⌉ := by
  refine ⟨size + 1, hlt, ?_⟩
  apply numPages_ne_of_le (k := 1) hsize (by exact_mod_cast float64_natCast (n := 1) (by norm_num))
    (by norm_num) (by omega)
  rw [heq, Nat.cast_one, one_mul]

/-- Unless the size is the last one that is rounded like it. -/
theorem float64_succ_eq (hlow : 2 ^ 52 ≤ m) (hhigh : m < 2 ^ 53) (hr : r < 2 ^ (f + 1))
    (heven : ¬ (r = 2 ^ f ∧ Even m)) (hodd : ¬ (r + 1 = 2 ^ f ∧ ¬ Even m)) :
    float64 (m * 2 ^ (f + 1) + r + 1 : Nat) = float64 (m * 2 ^ (f + 1) + r : Nat) := by
  have hpow : 2 ^ (f + 1) = 2 * 2 ^ f := by rw [pow_succ, mul_comm]
  rw [Nat.add_assoc]
  by_cases hdown : r + 1 < 2 ^ f ∨ r + 1 = 2 ^ f ∧ Even m
  · rw [float64_add_down hlow hhigh (r := r + 1), float64_add_down hlow hhigh (r := r)]
    · left
      rcases hdown with h | h
      · omega
      · omega
    · rcases hdown with h | ⟨h, hm⟩
      · left
        omega
      · right
        exact ⟨by omega, hm⟩
  · have hup : 2 ^ f < r ∨ r = 2 ^ f ∧ ¬ Even m := by
      by_cases hm : Even m
      · left
        have h1 : r ≠ 2 ^ f := fun h => heven ⟨h, hm⟩
        have h2 : ¬ r + 1 < 2 ^ f := fun h => hdown (Or.inl h)
        have h3 : r + 1 ≠ 2 ^ f := fun h => hdown (Or.inr ⟨h, hm⟩)
        omega
      · have h1 : r + 1 ≠ 2 ^ f := fun h => hodd ⟨h, hm⟩
        have h2 : ¬ r + 1 < 2 ^ f := fun h => hdown (Or.inl h)
        by_cases hr' : r = 2 ^ f
        · exact Or.inr ⟨hr', hm⟩
        · exact Or.inl (by omega)
    rw [float64_add_up hlow hhigh (r := r + 1), float64_add_up hlow hhigh (r := r)]
    · rcases hup with h | ⟨h, hm⟩
      · left
        omega
      · right
        exact ⟨by omega, hm⟩
    · omega
    · left
      rcases hup with h | h
      · omega
      · omega
    · omega

/-- Two pages and a row, where the mantissa is odd. -/
theorem exists_wrong_of_odd (hlow : 2 ^ 52 ≤ m) (hhigh : m < 2 ^ 53) (hr : r + 1 = 2 ^ f)
    (hsize : size = m * 2 ^ (f + 1) + r) (hlt : 2 * size + 1 < 2 ^ 63) :
    ∃ count : Nat, count < 2 ^ 63 ∧ numPages count size ≠ ⌈(count / size : ℚ)⌉ := by
  have hpow : 2 ^ (f + 1) = 2 * 2 ^ f := by rw [pow_succ, mul_comm]
  have hpow' : 2 ^ (f + 2) = 4 * 2 ^ f := by rw [pow_succ, hpow]; ring
  have hpos : 0 < 2 ^ f := Nat.two_pow_pos f
  have hround : float64 size = (m * 2 ^ (f + 1) : Nat) := by
    rw [hsize]
    exact float64_add_down hlow hhigh (Or.inl (by omega))
  have hcount : 2 * size + 1 = m * 2 ^ (f + 2) + (2 * r + 1) := by
    rw [hsize, hpow, hpow']
    ring
  have hround' : float64 (2 * size + 1 : Nat) = (m * 2 ^ (f + 2) : Nat) := by
    rw [hcount]
    exact float64_add_down hlow hhigh (Or.inl (by omega))
  have hsize' : 0 < size := by
    have := Nat.mul_pos (show 0 < m by omega) (Nat.two_pow_pos (f + 1))
    omega
  refine ⟨2 * size + 1, hlt, ?_⟩
  apply numPages_ne_of_le (k := 2) hsize' (by exact_mod_cast float64_natCast (n := 2) (by norm_num))
    (by norm_num) (by omega)
  rw [hround', hround, hpow, hpow']
  push_cast
  linarith

/-- Three pages are rounded to more. -/
theorem exists_wrong_of_up {n : Nat} (hn : n < 2 ^ 52) (hpos : 0 < n)
    (hround : float64 size = (n * 2 ^ (f + 2) : Nat)) (hsize : 0 < size)
    (hround' : float64 (3 * size : Nat) = ((3 * n + 1) * 2 ^ (f + 2) : Nat))
    (hlt : 3 * size < 2 ^ 63) :
    ∃ count : Nat, count < 2 ^ 63 ∧ numPages count size ≠ ⌈(count / size : ℚ)⌉ := by
  have hn' : (0 : ℚ) < n := by exact_mod_cast hpos
  have hnQ : (n : ℚ) < 2 ^ 52 := by exact_mod_cast hn
  have hpow : (0 : ℚ) < 2 ^ (f + 2) := by positivity
  refine ⟨3 * size, hlt, ?_⟩
  apply numPages_ne_of_lt (k := 3) (by omega) hsize (by norm_num) le_rfl
  · have hquot : float64 (3 * size : Nat) / float64 size = 3 + 1 / n := by
      rw [hround, hround']
      push_cast
      field_simp
    have hthree : ((3 * 2 ^ 51 : Nat) : ℚ) * 2 ^ (-51 : ℤ) = 3 := by norm_num
    rw [hquot, show ((3 : Nat) : ℚ) = ((3 * 2 ^ 51 : Nat) : ℚ) * 2 ^ (-51 : ℤ) by
      rw [hthree]; norm_num]
    apply lt_float64 (by norm_num) (by norm_num)
    have hinv : (1 : ℚ) / 2 ^ 52 < 1 / n := one_div_lt_one_div_of_lt hn' hnQ
    rw [add_mul, hthree]
    have hhalf : (1 / 2 : ℚ) * 2 ^ (-51 : ℤ) = 1 / 2 ^ 52 := by norm_num
    linarith
  · rw [hround, hround']
    push_cast
    have : (1 : ℚ) * 2 ^ (f + 2) ≤ n * 2 ^ (f + 2) :=
      mul_le_mul_of_nonneg_right (by exact_mod_cast hpos) hpow.le
    linarith

/-- Three pages, or six and a row, where the mantissa is even. -/
theorem exists_wrong_of_even {n : Nat} (hlow : 2 ^ 51 ≤ n) (hhigh : n < 2 ^ 52)
    (hsize : size = 2 * n * 2 ^ (f + 1) + 2 ^ f) (hlt : 3 * size + 1 < 2 ^ 63) :
    ∃ count : Nat, count < 2 ^ 63 ∧ numPages count size ≠ ⌈(count / size : ℚ)⌉ := by
  have hpow : 2 ^ (f + 1) = 2 * 2 ^ f := by rw [pow_succ, mul_comm]
  have hpow2 : 2 ^ (f + 2) = 4 * 2 ^ f := by rw [pow_succ, hpow]; ring
  have hpow3 : 2 ^ (f + 3) = 8 * 2 ^ f := by rw [pow_succ, hpow2]; ring
  have hpos : 0 < 2 ^ f := Nat.two_pow_pos f
  have hround : float64 size = (n * 2 ^ (f + 2) : Nat) := by
    rw [hsize, float64_add_down (by omega) (by omega) (Or.inr ⟨by omega, even_two_mul n⟩), hpow,
      hpow2]
    congr 1
    ring
  have hsize' : 0 < size := by omega
  by_cases hsmall : 3 * n < 2 ^ 53
  · apply exists_wrong_of_up hhigh (by omega) hround hsize' _ (by omega)
    have hthree : 3 * size = 3 * n * 2 ^ (f + 2) + 3 * 2 ^ f := by
      rw [hsize, hpow, hpow2]
      ring
    rw [hthree]
    exact float64_add_up (by omega) hsmall (Or.inl (by omega)) (by omega)
  · rcases Nat.even_or_odd' (3 * n) with ⟨q, hq | hq⟩
    · have hfour : n * (4 * 2 ^ f) * 3 = q * (8 * 2 ^ f) := by
        calc n * (4 * 2 ^ f) * 3 = 3 * n * (4 * 2 ^ f) := by ring
          _ = 2 * q * (4 * 2 ^ f) := by rw [hq]
          _ = q * (8 * 2 ^ f) := by ring
      by_cases hf : f = 0
      · -- six pages, as the row is too much for three
        have hcount : 6 * size + 1 = q * 2 ^ 4 + 7 := by
          rw [hf] at hsize
          omega
        have hround' : float64 (6 * size + 1 : Nat) = (q * 2 ^ 4 : Nat) := by
          rw [hcount]
          exact float64_add_down (by omega) (by omega) (Or.inl (by norm_num))
        refine ⟨6 * size + 1, by rw [hf] at hsize; omega, ?_⟩
        apply numPages_ne_of_le (k := 6) hsize'
          (by exact_mod_cast float64_natCast (n := 6) (by norm_num)) (by norm_num) (by omega)
        rw [hround', hround, hf]
        norm_cast
        omega
      · have hbig : 2 ≤ 2 ^ f := by
          have := Nat.pow_le_pow_right two_pos (Nat.one_le_iff_ne_zero.mpr hf)
          omega
        have hcount : 3 * size + 1 = q * 2 ^ (f + 3) + (3 * 2 ^ f + 1) := by
          rw [hsize, hpow, hpow3, ← hfour]
          ring
        have hround' : float64 (3 * size + 1 : Nat) = (q * 2 ^ (f + 3) : Nat) := by
          rw [hcount]
          exact float64_add_down (by omega) (by omega) (Or.inl (by omega))
        refine ⟨3 * size + 1, hlt, ?_⟩
        apply numPages_ne_of_le (k := 3) hsize'
          (by exact_mod_cast float64_natCast (n := 3) (by norm_num)) (by norm_num) (by omega)
        rw [hround', hround, hpow2, hpow3, ← hfour]
        push_cast
        linarith
    · apply exists_wrong_of_up hhigh (by omega) hround hsize' _ (by omega)
      have hthree : 3 * size = q * 2 ^ (f + 3) + 7 * 2 ^ f := by
        calc 3 * size = 3 * n * (4 * 2 ^ f) + 3 * 2 ^ f := by rw [hsize, hpow]; ring
          _ = (2 * q + 1) * (4 * 2 ^ f) + 3 * 2 ^ f := by rw [hq]
          _ = q * 2 ^ (f + 3) + 7 * 2 ^ f := by rw [hpow3]; ring
      rw [hthree, float64_add_up (by omega) (by omega) (Or.inl (by omega)) (by omega), hq, hpow2,
        hpow3]
      congr 1
      ring

/-- The exponent of a size between `2 ^ (52 + e)` and `2 ^ (53 + e)`. -/
theorem exponent_eq {e : Nat} (hlow : 2 ^ 52 ≤ m) (hhigh : m < 2 ^ 53) (hr : r < 2 ^ f)
    (hsize : size = m * 2 ^ f + r) (hge : 2 ^ (52 + e) ≤ size) (hlt : size < 2 ^ (53 + e)) :
    f = e := by
  have hle : 2 ^ (52 + f) ≤ size := by
    rw [pow_add, hsize]
    have := Nat.mul_le_mul_right (2 ^ f) hlow
    omega
  have hlt' : size < 2 ^ (53 + f) := by
    rw [pow_add, hsize]
    have := Nat.mul_le_mul_right (2 ^ f) (Nat.succ_le_of_lt hhigh)
    rw [Nat.succ_mul] at this
    omega
  have h1 := (Nat.pow_lt_pow_iff_right one_lt_two).mp (lt_of_le_of_lt hle hlt)
  have h2 := (Nat.pow_lt_pow_iff_right one_lt_two).mp (lt_of_le_of_lt hge hlt')
  omega

theorem exists_wrong (hsize : 0 < size) (hlt : size < 2 ^ 63) (hlast : ¬ LastRounded size) :
    ∃ count : Nat, count < 2 ^ 63 ∧ numPages count size ≠ ⌈(count / size : ℚ)⌉ := by
  by_cases hsmall : size < 2 ^ 53
  · exact exists_wrong_of_small hsize hsmall
  · obtain ⟨m, f, r, hlow, hhigh, hr, heq⟩ := exists_mantissa (le_of_not_gt hsmall)
    unfold LastRounded at hlast
    by_cases heven : r = 2 ^ f ∧ Even m
    · obtain ⟨hrf, n, hn⟩ := heven
      apply exists_wrong_of_even (n := n) (f := f) (by omega) (by omega)
      · rw [heq, hrf, hn]
        ring
      · -- else the size would be one of the last ones
        by_contra hbig
        by_cases htop : 2 ^ 62 ≤ size
        · have hf := exponent_eq (e := 10) hlow hhigh hr heq (by omega) (by omega)
          obtain rfl : f = 9 := by omega
          omega
        · have hf := exponent_eq (e := 9) hlow hhigh hr heq (by omega) (by omega)
          obtain rfl : f = 8 := by omega
          omega
    · by_cases hodd : r + 1 = 2 ^ f ∧ ¬ Even m
      · apply exists_wrong_of_odd hlow hhigh hodd.1 heq
        by_contra hbig
        have hf := exponent_eq (e := 10) hlow hhigh hr heq (by omega) (by omega)
        obtain rfl : f = 9 := by omega
        rw [Nat.not_even_iff] at hodd
        omega
      · apply exists_wrong_of_eq hsize
        · by_contra hbig
          omega
        · rw [heq]
          exact float64_succ_eq hlow hhigh hr heven hodd

/-- A count that is rounded to the next mantissa is rounded to the next page. -/
theorem lt_float64_quot {count t : Nat} (hpos : 0 < m) (hhigh : m < 2 ^ 53)
    (hround : float64 size = (m * 2 ^ f : Nat))
    (hcount : ((m + 1) * 2 ^ (f + t) : Nat) ≤ float64 count) :
    ((2 ^ t : Nat) : ℚ) < float64 (float64 count / float64 size) := by
  have hm : (0 : ℚ) < m := by exact_mod_cast hpos
  have hmQ : (m : ℚ) < 2 ^ 53 := by exact_mod_cast hhigh
  have hpow : (0 : ℚ) < m * 2 ^ f := by positivity
  have hquot : (2 : ℚ) ^ t + 2 ^ t * (1 / m) ≤ float64 count / float64 size := by
    rw [hround]
    push_cast at hcount ⊢
    rw [le_div_iff₀ hpow]
    calc ((2 : ℚ) ^ t + 2 ^ t * (1 / m)) * (m * 2 ^ f) = (m + 1) * 2 ^ (f + t) := by
          rw [pow_add]
          field_simp
      _ ≤ float64 count := hcount
  have ht : ((2 ^ 52 : Nat) : ℚ) * 2 ^ ((t : ℤ) - 52) = 2 ^ t := by
    rw [zpow_sub₀ two_ne_zero, zpow_natCast]
    norm_num
    field_simp
  have hhalf : (1 / 2 : ℚ) * 2 ^ ((t : ℤ) - 52) = 2 ^ t * (1 / 2 ^ 53) := by
    rw [zpow_sub₀ two_ne_zero, zpow_natCast]
    norm_num
    field_simp
    norm_num
  have hlt := lt_float64 (m := 2 ^ 52) (e := (t : ℤ) - 52)
    (x := float64 count / float64 size) le_rfl (by norm_num)
  rw [add_mul, ht, hhalf] at hlt
  push_cast
  apply hlt
  have hinv : (1 : ℚ) / 2 ^ 53 < 1 / m := one_div_lt_one_div_of_lt hm hmQ
  have hmul := mul_lt_mul_of_pos_left hinv (show (0 : ℚ) < 2 ^ t by positivity)
  linarith

theorem float64_le_two_pow {count : Nat} (hpos : 0 < count) (hcount : count < 2 ^ 63) :
    float64 count ≤ (2 ^ 63 : Nat) := by
  have hle : (count : ℚ) ≤ (2 ^ 63 : Nat) := by exact_mod_cast hcount.le
  have hmono := float64_mono (by exact_mod_cast hpos) hle
  have hself : float64 (2 ^ 63 : Nat) = (2 ^ 63 : Nat) := by
    have h := float64_add_down (m := 2 ^ 52) (f := 11) (r := 0) le_rfl (by norm_num)
      (Or.inl (by norm_num))
    exact_mod_cast h
  rwa [hself] at hmono

/-- One page or two. -/
theorem numPages_of_top {count : Nat} (hlow : 2 ^ 52 ≤ m) (hhigh : m < 2 ^ 53)
    (hround : float64 size = (m * 2 ^ 10 : Nat))
    (hround' : float64 (size + 1 : Nat) = ((m + 1) * 2 ^ 10 : Nat)) (hsize : 2 ^ 62 ≤ size)
    (hlt : size < count) (hcount : count < 2 ^ 63) :
    numPages count size = ⌈(count / size : ℚ)⌉ := by
  have hsucc : float64 (size + 1 : Nat) ≤ float64 count :=
    float64_mono (by positivity) (by exact_mod_cast hlt)
  rw [ceil_div (k := 1) (by omega) (by omega)]
  apply numPages_of_between (by omega) (by omega) (by norm_num)
  · exact lt_float64_quot (t := 0) (by omega) hhigh hround (by rw [← hround']; exact hsucc)
  · have hle := float64_le_two_pow (by omega) hcount
    rw [hround]
    apply le_trans hle
    norm_cast
    omega

/-- One page, two or three. -/
theorem numPages_of_third {count : Nat} (hlow : 2 ^ 52 ≤ m) (hhigh : m < 2 ^ 53) (hm : Even m)
    (heq : size = m * 2 ^ 9 + 2 ^ 8) (hsize : 2 ^ 63 ≤ 3 * size) (hlt : size < count)
    (hcount : count < 2 ^ 63) : numPages count size = ⌈(count / size : ℚ)⌉ := by
  have hround : float64 size = (m * 2 ^ 9 : Nat) := by
    rw [heq]
    exact float64_add_down hlow hhigh (Or.inr ⟨by norm_num, hm⟩)
  by_cases htwo : count ≤ 2 * size
  · have hround1 : float64 (size + 1 : Nat) = ((m + 1) * 2 ^ 9 : Nat) := by
      rw [heq, Nat.add_assoc]
      exact float64_add_up hlow hhigh (Or.inl (by norm_num)) (by norm_num)
    have hround2 : float64 (2 * size : Nat) = (m * 2 ^ 10 : Nat) := by
      rw [show 2 * size = m * 2 ^ 10 + 2 ^ 9 by omega]
      exact float64_add_down hlow hhigh (Or.inr ⟨by norm_num, hm⟩)
    have hsucc : float64 (size + 1 : Nat) ≤ float64 count :=
      float64_mono (by positivity) (by exact_mod_cast hlt)
    have hdouble : float64 count ≤ float64 (2 * size : Nat) :=
      float64_mono (by exact_mod_cast (by omega : 0 < count)) (by exact_mod_cast htwo)
    rw [ceil_div (k := 1) (by omega) (by omega)]
    apply numPages_of_between (by omega) (by omega) (by norm_num)
    · exact lt_float64_quot (t := 0) (by omega) hhigh hround (by rw [← hround1]; exact hsucc)
    · apply le_trans hdouble
      rw [hround2, hround]
      norm_cast
      omega
  · have hround3 : float64 (2 * size + 1 : Nat) = ((m + 1) * 2 ^ 10 : Nat) := by
      rw [show 2 * size + 1 = m * 2 ^ 10 + (2 ^ 9 + 1) by omega]
      exact float64_add_up hlow hhigh (Or.inl (by norm_num)) (by norm_num)
    have hsucc : float64 (2 * size + 1 : Nat) ≤ float64 count :=
      float64_mono (by positivity) (by exact_mod_cast (by omega : 2 * size + 1 ≤ count))
    rw [ceil_div (k := 2) (by omega) (by omega)]
    apply numPages_of_between (by omega) (by omega) (by norm_num)
    · exact lt_float64_quot (t := 1) (by omega) hhigh hround (by rw [← hround3]; exact hsucc)
    · have hle := float64_le_two_pow (by omega) hcount
      rw [hround]
      apply le_trans hle
      norm_cast
      have := Nat.even_iff.mp hm
      omega

theorem numPages_of_lastRounded {count : Nat} (hsize : LastRounded size) (hcount : count < 2 ^ 63) :
    numPages count size = ⌈(count / size : ℚ)⌉ := by
  have hbig : 2 ^ 61 ≤ size := by
    unfold LastRounded at hsize
    omega
  by_cases hzero : count = 0
  · rw [hzero]
    exact numPages_of_lt (by norm_num) (by omega)
  · by_cases hone : count ≤ size
    · have hmono : float64 count ≤ float64 size :=
        float64_mono (by exact_mod_cast Nat.pos_of_ne_zero hzero) (by exact_mod_cast hone)
      rw [ceil_div (k := 0) (by omega) (by omega)]
      apply numPages_of_between (by omega) (by omega) (by norm_num)
      · exact_mod_cast float64_pos (float64_quot_pos (by omega) (by omega))
      · rwa [Nat.zero_add, Nat.cast_one, one_mul]
    · rcases hsize with ⟨hthree, hlt, hmod⟩ | ⟨hge, hlt, hmod | hmod | hmod⟩
      · apply numPages_of_third (m := size / 2 ^ 9) _ _ _ _ hthree (by omega) hcount
        · omega
        · omega
        · rw [Nat.even_iff]
          omega
        · omega
      · have heq : size = size / 2 ^ 10 * 2 ^ 10 + 2 ^ 9 := by omega
        have heven : Even (size / 2 ^ 10) := by
          rw [Nat.even_iff]
          omega
        apply numPages_of_top (m := size / 2 ^ 10) (by omega) (by omega) _ _ hge (by omega) hcount
        · nth_rewrite 1 [heq]
          exact float64_add_down (by omega) (by omega) (Or.inr ⟨by norm_num, heven⟩)
        · nth_rewrite 1 [heq]
          rw [Nat.add_assoc]
          exact float64_add_up (by omega) (by omega) (Or.inl (by norm_num)) (by norm_num)
      · have heq : size = size / 2 ^ 10 * 2 ^ 10 + (2 ^ 9 - 1) := by omega
        have hodd : ¬ Even (size / 2 ^ 10) := by
          rw [Nat.even_iff]
          omega
        apply numPages_of_top (m := size / 2 ^ 10) (by omega) (by omega) _ _ hge (by omega) hcount
        · nth_rewrite 1 [heq]
          exact float64_add_down (by omega) (by omega) (Or.inl (by norm_num))
        · nth_rewrite 1 [heq]
          rw [Nat.add_assoc]
          exact float64_add_up (by omega) (by omega) (Or.inr ⟨by norm_num, hodd⟩) (by norm_num)
      · omega

end Sizes

/-! ## Pages -/

/-- A table has so few rows that the number of pages of a query is the exact one. -/
theorem getPaginatedChartList_numPages {pg : Postgres} {table : ChartTable} {order : RowOrder pg}
    {whereQuery : String} {params : List String} {pageNumber pageSize : Int}
    {rows charts : List ChartRow} {n : Nat} (hrows : matching pg table whereQuery params = .ok rows)
    (h : getPaginatedChartList pg table order whereQuery params pageNumber pageSize =
      .ok (charts, n)) : (n : Int) = numPages rows.length pageSize := by
  have hlength : rows.length ≤ 2 ^ 31 := by
    unfold matching at hrows
    cases hp : pg.where_ whereQuery params with
    | error err =>
        rw [hp] at hrows
        cases hrows
    | ok p =>
        rw [hp] at hrows
        rw [← Except.ok.inj hrows]
        exact le_trans (List.length_filter_le _ _) table.length_le
  unfold getPaginatedChartList at h
  rw [hrows] at h
  simp only [bind, Except.bind] at h
  generalize (if pageNumber ≤ 0 then 1 else pageNumber) = page at h
  by_cases hsize : pageSize > 0
  · obtain ⟨size, rfl⟩ := Int.eq_ofNat_of_zero_le hsize.le
    have hpos : 0 < size := by omega
    rw [if_pos hsize] at h
    split_ifs at h
    have hn : (rows.length + size - 1) / size = n := (Prod.mk.inj (Except.ok.inj h)).2
    rw [numPages_of_lt (by omega) hpos, ← hn]
    by_cases hzero : rows.length = 0
    · rw [hzero, Nat.zero_add, Nat.div_eq_of_lt (by omega), Nat.cast_zero, Nat.cast_zero,
        zero_div, Int.ceil_zero]
    · obtain ⟨hlow, hhigh⟩ := last_page (Nat.pos_of_ne_zero hzero) hpos
      rw [ceil_div hlow hhigh, ← Nat.add_div_right _ hpos]
      congr 2
      omega
  · rw [if_neg hsize] at h
    have hn : 1 = n := (Prod.mk.inj (Except.ok.inj h)).2
    unfold numPages
    rw [if_neg hsize, ← hn]
    rfl

section RightPaging

variable {page size : String}

theorem rightPages_iff (hsize : number size < 2 ^ 63) :
    RightPages (2 ^ 63) size (getPageAndSizeParams page size).2 ↔
      number size = 0 ∨ LastRounded (number size) := by
  by_cases hzero : number size = 0
  · exact ⟨fun _ => Or.inl hzero, fun _ _ _ hne => absurd hzero hne⟩
  · unfold RightPages
    rw [(pageSize_eq page size).1 hsize hzero]
    constructor
    · intro hright
      right
      by_contra hlast
      obtain ⟨count, hcount, hne⟩ := exists_wrong (Nat.pos_of_ne_zero hzero) hsize hlast
      exact hne (hright count hcount hzero)
    · intro hlast count hcount _
      exact numPages_of_lastRounded (hlast.resolve_left hzero) hcount

/-- For all counts of 64 bits. -/
theorem rightPaging_iff : RightPaging (2 ^ 63) page size ↔
    number size = 0 ∨ (Fits page size ∧ LastRounded (number size)) := by
  constructor
  · intro hright
    rcases rightClause_iff.1 hright.clause with hzero | hfits
    · exact Or.inl hzero
    · rcases (rightPages_iff hfits.size_lt).mp hright.pages with hzero | hlast
      · exact Or.inl hzero
      · exact Or.inr ⟨hfits, hlast⟩
  · rintro (hzero | ⟨hfits, hlast⟩)
    · exact ⟨rightClause_iff.2 (Or.inl hzero),
        (rightPages_iff (by omega)).mpr (Or.inl hzero)⟩
    · exact ⟨rightClause_iff.2 (Or.inr hfits),
        (rightPages_iff hfits.size_lt).mpr (Or.inr hlast)⟩

/-- For counts of 53 bits only the clause can go wrong. -/
theorem rightPaging_of_small {bound : Nat} (hbound : bound ≤ 2 ^ 53) :
    RightPaging bound page size ↔ number size = 0 ∨ Fits page size := by
  constructor
  · exact fun hright => rightClause_iff.1 hright.clause
  · intro hfits
    refine ⟨rightClause_iff.2 hfits, fun count hcount hne => ?_⟩
    rw [(pageSize_eq page size).1 (hfits.resolve_left hne).size_lt hne]
    exact numPages_of_lt (by omega) (Nat.pos_of_ne_zero hne)

/-- The offset of the third page wraps around. -/
theorem not_rightPaging_wraps : ¬ ∀ page size, RightPaging (2 ^ 63) page size := by
  intro hright
  have hfits := rightClause_iff.1 (hright "3" "4611686018427387904").clause
  rcases hfits with hzero | hfits
  · exact absurd hzero (by decide)
  · exact absurd hfits.offset_lt (by decide)

end RightPaging

end Kubeapps.Assetsvc
