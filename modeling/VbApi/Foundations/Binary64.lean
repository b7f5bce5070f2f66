import VbApi.Foundations.Decimal

/-! The conversion of a decimal number to a double, whose range the amounts of the database do not
reach. -/
namespace VbApi.Foundations

/-- The nearest number with 53 binary digits, half to even: `float(x)`. -/
def toDouble (x : ℚ) : ℚ :=
  if x=0 then 0
  else
    let scale : ℚ := 2^(52-Int.log 2 |x|)
    roundHalfEven (x*scale)/scale

lemma roundHalfEven_le_add_half (x : ℚ) : (roundHalfEven x : ℚ) ≤ x+1/2 := by
  have hfloor := Int.floor_le x
  unfold roundHalfEven
  dsimp only
  split_ifs <;> push_cast <;> linarith

lemma toDouble_neg (x : ℚ) : toDouble (-x)=-toDouble x := by
  by_cases hx : x=0
  · simp [toDouble,hx]
  · rw [toDouble,toDouble,if_neg (neg_ne_zero.mpr hx),if_neg hx]
    simp only [abs_neg,neg_mul,roundHalfEven_neg,Int.cast_neg,neg_div]

variable {x : ℚ}

/-- A positive number has 53 binary digits before the point once it is scaled. -/
lemma exists_binade (hx : 0 < x) : ∃ k : ℤ, (2 : ℚ)^k*2^(52-k)=2^52 ∧ (2 : ℚ)^52 ≤ x*2^(52-k) ∧
    toDouble x=roundHalfEven (x*2^(52-k))/2^(52-k) := by
  have hunit : (2 : ℚ)^(Int.log 2 x)*2^(52-Int.log 2 x)=2^52 := by
    rw [← zpow_add₀ (by norm_num),add_sub_cancel]
    norm_num
  refine ⟨Int.log 2 x,hunit,?_,?_⟩
  · rw [← hunit]
    exact mul_le_mul_of_nonneg_right (Int.zpow_log_le_self (by norm_num) hx) (by positivity)
  · rw [toDouble,if_neg hx.ne',abs_of_pos hx]

lemma toDouble_pos (hx : 0 < x) : 0 < toDouble x := by
  obtain ⟨k,-,hdigits,hdouble⟩ := exists_binade hx
  have hround : (2 : ℤ)^52 ≤ roundHalfEven (x*2^(52-k)) :=
    le_roundHalfEven (by push_cast; exact hdigits)
  have hpos : (0 : ℚ) < roundHalfEven (x*2^(52-k)) := by
    exact_mod_cast lt_of_lt_of_le (by norm_num) hround
  rw [hdouble]
  positivity

/-- The rounding adds at most half a unit in the last place. -/
lemma toDouble_le (hx : 0 < x) : toDouble x ≤ x*(1+1/2^53) := by
  obtain ⟨k,-,hdigits,hdouble⟩ := exists_binade hx
  have hround := roundHalfEven_le_add_half (x*2^(52-k))
  rw [hdouble,div_le_iff₀ (by positivity)]
  linarith

/-- An integer that a double holds stays below. -/
lemma natCast_le_toDouble {n : ℕ} (hn : n ≤ 2^53) (hx : 0 < x) (h : (n : ℚ) ≤ x) :
    (n : ℚ) ≤ toDouble x := by
  obtain ⟨k,hunit,hdigits,hdouble⟩ := exists_binade hx
  have hscale : (0 : ℚ) < 2^(52-k) := by positivity
  have hmono : (n : ℚ)*2^(52-k) ≤ x*2^(52-k) := mul_le_mul_of_nonneg_right h hscale.le
  rw [hdouble,le_div_iff₀ hscale]
  rcases le_or_gt k 52 with hsmall | hlarge
  · obtain ⟨e,he⟩ := Int.eq_ofNat_of_zero_le (sub_nonneg.mpr hsmall)
    rw [he,zpow_natCast] at hmono ⊢
    have hint := le_roundHalfEven (n := (n : ℤ)*2^e) (by push_cast; exact hmono)
    exact_mod_cast hint
  · have hround : (2 : ℚ)^52 ≤ roundHalfEven (x*2^(52-k)) := by
      have := le_roundHalfEven (n := 2^52) (by push_cast; exact hdigits)
      exact_mod_cast this
    have hpow : (2 : ℚ)^53 ≤ 2^k := by
      rw [← zpow_natCast]
      exact zpow_le_zpow_right₀ (by norm_num) (by push_cast; omega)
    have hbound : (n : ℚ) ≤ 2^k := le_trans (by exact_mod_cast hn) hpow
    calc (n : ℚ)*2^(52-k) ≤ 2^k*2^(52-k) := mul_le_mul_of_nonneg_right hbound hscale.le
      _ = 2^52 := hunit
      _ ≤ _ := hround

end VbApi.Foundations
