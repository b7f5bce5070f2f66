import Mathlib.Tactic
import Mathlib.Data.Int.Log
import Mathlib.Algebra.Order.Floor.Ring
import Mathlib.Data.Rat.Floor

/-! Decimal arithmetic in Python's default context, and the rounding of NUMERIC columns. -/
namespace VbApi.Foundations

def roundHalfEven (x : ℚ) : ℤ :=
  let rest := x-⌊x⌋
  if rest < 1/2 then ⌊x⌋ else if 1/2 < rest then ⌊x⌋+1
  else if ⌊x⌋%2=0 then ⌊x⌋ else ⌊x⌋+1

def contextPrecision : ℤ := 28

/-- The result of an operation, rounded to the digits of the context. -/
def roundToContext (x : ℚ) : ℚ :=
  if x=0 then 0
  else
    let scale : ℚ := 10^(contextPrecision-1-Int.log 10 |x|)
    roundHalfEven (x*scale)/scale

/-- `sum` over decimals: every addition rounds. -/
def decimalSum (xs : List ℚ) : ℚ := xs.foldl (fun total x => roundToContext (total+x)) 0

/-- A value stored with two decimals: the database rounds half away from zero. -/
def toNumeric (x : ℚ) : ℤ :=
  if 0 ≤ x then ⌊x*100+1/2⌋ else -⌊-x*100+1/2⌋

lemma roundHalfEven_intCast (n : ℤ) : roundHalfEven n=n := by
  simp [roundHalfEven]

/-- A number that needs no more digits than the context has is kept. -/
lemma roundToContext_eq {x : ℚ} {n : ℤ} (h : x*10^(contextPrecision-1-Int.log 10 |x|)=n) :
    roundToContext x=x := by
  unfold roundToContext
  split_ifs with hx
  · exact hx.symm
  · have hscale : (10 : ℚ)^(contextPrecision-1-Int.log 10 |x|) ≠ 0 := zpow_ne_zero _ (by norm_num)
    dsimp only
    rw [h,roundHalfEven_intCast,← h,mul_div_assoc,div_self hscale,mul_one]

/-- Amounts of a NUMERIC(12,2) column fit the context. -/
lemma roundToContext_cents {c : ℤ} (h : |c| < 10^12) : roundToContext ((c : ℚ)/100)=(c : ℚ)/100 := by
  by_cases hc : c=0
  · simp [hc,roundToContext]
  · have hpos : 0 < |(c : ℚ)/100| := abs_pos.mpr (div_ne_zero (by exact_mod_cast hc) (by norm_num))
    have hlt : |(c : ℚ)/100| < ((10 : ℕ) : ℚ)^(10 : ℤ) := by
      have : |(c : ℚ)| < 10^12 := by exact_mod_cast h
      rw [abs_div,abs_of_pos (by norm_num : (0 : ℚ) < 100),div_lt_iff₀ (by norm_num)]
      norm_num at this ⊢
      exact this
    have hlog : Int.log 10 |(c : ℚ)/100| < 10 :=
      (Int.lt_zpow_iff_log_lt (by norm_num) hpos).mp hlt
    obtain ⟨k,hk⟩ : ∃ k : ℕ, contextPrecision-1-Int.log 10 |(c : ℚ)/100|=k+2 := by
      refine ⟨(25-Int.log 10 |(c : ℚ)/100|).toNat,?_⟩
      rw [contextPrecision]
      omega
    apply roundToContext_eq (n := c*10^k)
    rw [hk,zpow_add₀ (by norm_num : (10 : ℚ) ≠ 0),zpow_natCast]
    push_cast
    field_simp

lemma toNumeric_cents (c : ℤ) : toNumeric ((c : ℚ)/100)=c := by
  unfold toNumeric
  have hhalf : ∀ n : ℤ, ⌊((n : ℚ)/100)*100+1/2⌋=n := by
    intro n
    rw [div_mul_cancel₀ _ (by norm_num : (100 : ℚ) ≠ 0),Int.floor_intCast_add]
    norm_num
  split_ifs
  · exact hhalf c
  · have hneg : -((c : ℚ)/100)=((-c : ℤ) : ℚ)/100 := by push_cast; ring
    rw [hneg,hhalf]
    ring

/-! What rounding does to the order. -/

lemma floor_le_roundHalfEven (x : ℚ) : ⌊x⌋ ≤ roundHalfEven x := by
  unfold roundHalfEven
  dsimp only
  split_ifs <;> omega

lemma roundHalfEven_le_floor (x : ℚ) : roundHalfEven x ≤ ⌊x⌋+1 := by
  unfold roundHalfEven
  dsimp only
  split_ifs <;> omega

lemma le_roundHalfEven {x : ℚ} {n : ℤ} (h : (n : ℚ) ≤ x) : n ≤ roundHalfEven x :=
  (Int.le_floor.mpr h).trans (floor_le_roundHalfEven x)

lemma roundHalfEven_le {x : ℚ} {n : ℤ} (h : x ≤ n) : roundHalfEven x ≤ n := by
  rcases h.eq_or_lt with rfl | hlt
  · exact (roundHalfEven_intCast n).le
  · exact (roundHalfEven_le_floor x).trans (Int.floor_lt.mpr hlt)

/-- An even number is reached from the half before it on. -/
lemma roundHalfEven_lt_iff {x : ℚ} {n : ℤ} (hn : n%2=0) : roundHalfEven x < n ↔ x < n-1/2 := by
  by_cases hfloor : ⌊x⌋=n-1
  · have hodd : ¬ ⌊x⌋%2=0 := by omega
    have hcast : (⌊x⌋ : ℚ)=n-1 := by rw [hfloor]; push_cast; ring
    unfold roundHalfEven
    dsimp only
    split_ifs with hbelow habove
    · exact iff_of_true (by omega) (by linarith)
    · exact iff_of_false (by omega) (by linarith)
    · exact iff_of_false (by omega) (by linarith)
  · rcases lt_or_gt_of_ne hfloor with hlt | hgt
    · have hsmall : x < n-1 := by
        have hx : x < ((n-1 : ℤ) : ℚ) := Int.floor_lt.mp hlt
        push_cast at hx
        exact hx
      refine iff_of_true ?_ (by linarith)
      have := roundHalfEven_le_floor x
      omega
    · have hlarge : (n : ℚ) ≤ x := Int.le_floor.mp (by omega)
      exact iff_of_false (not_lt.mpr (le_roundHalfEven hlarge)) (by linarith)

lemma roundHalfEven_neg (x : ℚ) : roundHalfEven (-x)=-roundHalfEven x := by
  have hlo := Int.floor_le x
  have hhi := Int.lt_floor_add_one x
  rcases hlo.eq_or_lt with hint | hfract
  · rw [← hint,← Int.cast_neg,roundHalfEven_intCast,roundHalfEven_intCast]
  · have hfloor : ⌊-x⌋=-⌊x⌋-1 := by
      rw [Int.floor_eq_iff]
      push_cast
      constructor <;> linarith
    have hrest : -x-((-⌊x⌋-1 : ℤ) : ℚ)=1-(x-⌊x⌋) := by push_cast; ring
    unfold roundHalfEven
    dsimp only
    rw [hfloor,hrest]
    rcases lt_trichotomy (x-⌊x⌋) (1/2) with h | h | h
    · rw [if_neg (by linarith),if_pos (by linarith),if_pos h]
      ring
    · rw [h]
      norm_num
      split_ifs <;> omega
    · rw [if_pos (by linarith),if_neg (by linarith),if_pos h]
      ring

lemma roundToContext_neg (x : ℚ) : roundToContext (-x)=-roundToContext x := by
  unfold roundToContext
  by_cases hx : x=0
  · simp [hx]
  · rw [if_neg (neg_ne_zero.mpr hx),if_neg hx]
    dsimp only
    rw [abs_neg,neg_mul,roundHalfEven_neg]
    push_cast
    ring

section Decades
variable {x : ℚ} {k : ℤ}

/-- In a decade the context keeps the same number of decimals. -/
lemma roundToContext_decade (hlo : 10^k ≤ x) (hhi : x < 10^(k+1)) :
    roundToContext x=roundHalfEven (x*10^(27-k))/10^(27-k) := by
  have hpos : 0 < x := (zpow_pos (by norm_num) k).trans_le hlo
  have hlog : Int.log 10 |x|=k := by
    rw [abs_of_pos hpos]
    apply le_antisymm
    · have hlt := (Int.lt_zpow_iff_log_lt (b := 10) (by norm_num) hpos).mp (by exact_mod_cast hhi)
      omega
    · exact (Int.zpow_le_iff_le_log (b := 10) (by norm_num) hpos).mp (by exact_mod_cast hlo)
  unfold roundToContext
  rw [if_neg hpos.ne',hlog]
  rfl

lemma exists_decade (hpos : 0 < x) : ∃ k : ℤ, 10^k ≤ x ∧ x < 10^(k+1) := by
  refine ⟨Int.log 10 x,?_,?_⟩
  · exact_mod_cast Int.zpow_log_le_self (by norm_num : 1 < 10) hpos
  · exact_mod_cast Int.lt_zpow_succ_log_self (by norm_num : 1 < 10) x

/-- Rounding does not leave a decade, except for its upper end. -/
lemma roundToContext_mem_decade (hlo : 10^k ≤ x) (hhi : x < 10^(k+1)) :
    10^k ≤ roundToContext x ∧ roundToContext x ≤ 10^(k+1) := by
  have hscale : (0 : ℚ) < 10^(27-k) := zpow_pos (by norm_num) _
  have hbase : (10 : ℚ) ≠ 0 := by norm_num
  have hlower : ((10^27 : ℤ) : ℚ)=10^k*10^(27-k) := by
    rw [← zpow_add₀ hbase]
    norm_num
  have hupper : ((10^28 : ℤ) : ℚ)=10^(k+1)*10^(27-k) := by
    have hexponent : k+1+(27-k)=28 := by ring
    rw [← zpow_add₀ hbase,hexponent]
    norm_num
  have hge : (10^27 : ℤ) ≤ roundHalfEven (x*10^(27-k)) := by
    apply le_roundHalfEven
    rw [hlower]
    exact mul_le_mul_of_nonneg_right hlo hscale.le
  have hle : roundHalfEven (x*10^(27-k)) ≤ (10^28 : ℤ) := by
    apply roundHalfEven_le
    rw [hupper]
    exact mul_le_mul_of_nonneg_right hhi.le hscale.le
  rw [roundToContext_decade hlo hhi,le_div_iff₀ hscale,div_le_iff₀ hscale,← hlower,← hupper]
  exact ⟨by exact_mod_cast hge,by exact_mod_cast hle⟩

lemma le_roundToContext (h : 10^k ≤ x) : 10^k ≤ roundToContext x := by
  obtain ⟨j,hlo,hhi⟩ := exists_decade ((zpow_pos (by norm_num) k).trans_le h)
  have hlt : (10 : ℚ)^k < 10^(j+1) := h.trans_lt hhi
  have hjk : k ≤ j := Int.lt_add_one_iff.mp ((zpow_lt_zpow_iff_right₀ (by norm_num)).mp hlt)
  exact (zpow_le_zpow_right₀ (by norm_num) hjk).trans (roundToContext_mem_decade hlo hhi).1

lemma roundToContext_le (hpos : 0 ≤ x) (h : x < 10^k) : roundToContext x ≤ 10^k := by
  rcases hpos.eq_or_lt with rfl | hpos
  · rw [roundToContext,if_pos rfl]
    exact (zpow_pos (by norm_num) k).le
  · obtain ⟨j,hlo,hhi⟩ := exists_decade hpos
    have hlt : (10 : ℚ)^j < 10^k := hlo.trans_lt h
    have hjk : j+1 ≤ k := (zpow_lt_zpow_iff_right₀ (by norm_num)).mp hlt
    exact (roundToContext_mem_decade hlo hhi).2.trans (zpow_le_zpow_right₀ (by norm_num) hjk)

lemma roundToContext_nonneg (h : 0 ≤ x) : 0 ≤ roundToContext x := by
  rcases h.eq_or_lt with rfl | hpos
  · rw [roundToContext,if_pos rfl]
  · obtain ⟨j,hlo,-⟩ := exists_decade hpos
    exact (zpow_pos (by norm_num) j).le.trans (le_roundToContext hlo)

lemma abs_roundToContext (x : ℚ) : |roundToContext x|=roundToContext |x| := by
  rcases le_total 0 x with h | h
  · rw [abs_of_nonneg h,abs_of_nonneg (roundToContext_nonneg h)]
  · have hneg : 0 ≤ roundToContext (-x) := roundToContext_nonneg (neg_nonneg.mpr h)
    rw [abs_of_nonpos h,← abs_of_nonneg hneg,roundToContext_neg,abs_neg]

end Decades

end VbApi.Foundations
