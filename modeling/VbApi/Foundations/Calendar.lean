import Mathlib.Tactic
import Mathlib.Order.Lattice

/-! The proleptic Gregorian calendar of the years 1 to 9999, as Python's `date` has it:
constructing a date outside the calendar is a value error, stepping out of it an overflow. -/
namespace VbApi.Foundations

inductive DateError
  | valueError
  | overflowError
  deriving DecidableEq, Repr

def isLeapYear (year : ℕ) : Bool :=
  year % 4 = 0 && (year % 100 ≠ 0 || year % 400 = 0)

def daysInMonth (year month : ℕ) : ℕ :=
  if month=2 then (if isLeapYear year then 29 else 28)
  else if month=4 ∨ month=6 ∨ month=9 ∨ month=11 then 30 else 31

lemma daysInMonth_ge (year month : ℕ) : 28 ≤ daysInMonth year month := by
  unfold daysInMonth
  split_ifs <;> omega

lemma daysInMonth_le (year month : ℕ) : daysInMonth year month ≤ 31 := by
  unfold daysInMonth
  split_ifs <;> omega

lemma daysInMonth_december (year : ℕ) : daysInMonth year 12=31 := rfl

/-- A date carries its validity, so a day outside the calendar cannot be built. -/
@[ext] structure Date where
  year : ℕ
  month : ℕ
  day : ℕ
  year_pos : 1 ≤ year
  year_le : year ≤ 9999
  month_pos : 1 ≤ month
  month_le : month ≤ 12
  day_pos : 1 ≤ day
  day_le : day ≤ daysInMonth year month
  deriving Repr

namespace Date

/-- Months are counted through all years: January of year 1 is month 12. -/
def monthIndex (d : Date) : ℕ := d.year*12+(d.month-1)

/-- The position in the calendar, with 32 places for each month. -/
def key (d : Date) : ℕ := d.monthIndex*32+d.day

lemma day_le_31 (d : Date) : d.day ≤ 31 := d.day_le.trans (daysInMonth_le _ _)

lemma key_injective : Function.Injective key := by
  intro a b h
  have ha := a.day_le_31
  have hb := b.day_le_31
  have hma := a.month_pos
  have hmb := b.month_pos
  have hna := a.month_le
  have hnb := b.month_le
  simp only [key,monthIndex] at h
  have hm : a.year*12+(a.month-1)=b.year*12+(b.month-1) := by omega
  apply Date.ext <;> omega

/-- Dates are ordered by year, month and day. -/
instance : LinearOrder Date := LinearOrder.lift' key key_injective

lemma le_iff_key (a b : Date) : a ≤ b ↔ a.key ≤ b.key := Iff.rfl
lemma lt_iff_key (a b : Date) : a < b ↔ a.key < b.key := Iff.rfl

lemma monthIndex_bounds (d : Date) : 12 ≤ d.monthIndex ∧ d.monthIndex ≤ 119999 := by
  have h₁ := d.year_pos
  have h₂ := d.year_le
  have h₃ := d.month_pos
  have h₄ := d.month_le
  simp only [monthIndex]
  omega

lemma monthIndex_mono {a b : Date} (h : a ≤ b) : a.monthIndex ≤ b.monthIndex := by
  rw [le_iff_key,key,key] at h
  have ha := a.day_le_31
  have hb := b.day_le_31
  have ha' := a.day_pos
  omega

/-- `datetime.date` takes these parts. -/
def Valid (year month day : ℕ) : Prop :=
  1 ≤ year ∧ year ≤ 9999 ∧ 1 ≤ month ∧ month ≤ 12 ∧ 1 ≤ day ∧ day ≤ daysInMonth year month

instance (year month day : ℕ) : Decidable (Valid year month day) :=
  inferInstanceAs (Decidable (_ ∧ _))

def ofValid (year month day : ℕ) (h : Valid year month day) : Date :=
  ⟨year,month,day,h.1,h.2.1,h.2.2.1,h.2.2.2.1,h.2.2.2.2.1,h.2.2.2.2.2⟩

/-- A date literal. -/
def of (year month day : ℕ) (h : decide (Valid year month day)=true := by exact @rfl Bool true) :
    Date :=
  ofValid year month day (of_decide_eq_true h)

/-- `date(year, month, day)`. -/
def ofParts (year month day : ℕ) : Except DateError Date :=
  if h : Valid year month day then .ok (ofValid year month day h)
  else .error .valueError

/-- A day that every month has. -/
def withDay (d : Date) (day : ℕ) (h : 1 ≤ day ∧ day ≤ 28 := by decide) : Date where
  year := d.year
  month := d.month
  day := day
  year_pos := d.year_pos
  year_le := d.year_le
  month_pos := d.month_pos
  month_le := d.month_le
  day_pos := h.1
  day_le := h.2.trans (daysInMonth_ge _ _)

/-- `d.replace(day=1)`. -/
def firstOfMonth (d : Date) : Date := d.withDay 1

/-- The last day of the month of `d`. -/
def lastOfMonth (d : Date) : Date where
  year := d.year
  month := d.month
  day := daysInMonth d.year d.month
  year_pos := d.year_pos
  year_le := d.year_le
  month_pos := d.month_pos
  month_le := d.month_le
  day_pos := by have := daysInMonth_ge d.year d.month; omega
  day_le := le_rfl

/-- The first day of a month given by its index. -/
def ofMonthIndex (i : ℕ) (h : 12 ≤ i ∧ i ≤ 119999) : Date where
  year := i/12
  month := i%12+1
  day := 1
  year_pos := by omega
  year_le := by omega
  month_pos := by omega
  month_le := by omega
  day_pos := le_rfl
  day_le := le_trans (by omega) (daysInMonth_ge _ _)

/-- `d - timedelta(days=1)`. -/
def predDay (d : Date) : Except DateError Date :=
  if h : 1 < d.day then
    .ok { d with day := d.day-1, day_pos := by omega, day_le := le_trans (by omega) d.day_le }
  else if h : 12 < d.monthIndex then
    .ok (ofMonthIndex (d.monthIndex-1) (by have := d.monthIndex_bounds; omega)).lastOfMonth
  else .error .overflowError

/-- `d + timedelta(days=1)`. -/
def succDay (d : Date) : Except DateError Date :=
  if h : d.day < daysInMonth d.year d.month then
    .ok { d with day := d.day+1, day_pos := by omega, day_le := h }
  else if h : d.monthIndex < 119999 then
    .ok (ofMonthIndex (d.monthIndex+1) (by have := d.monthIndex_bounds; omega))
  else .error .overflowError

@[simp] lemma withDay_monthIndex (d : Date) (n : ℕ) (h) : (d.withDay n h).monthIndex=d.monthIndex := rfl
@[simp] lemma withDay_day (d : Date) (n : ℕ) (h) : (d.withDay n h).day=n := rfl
@[simp] lemma firstOfMonth_monthIndex (d : Date) : d.firstOfMonth.monthIndex=d.monthIndex := rfl
@[simp] lemma firstOfMonth_day (d : Date) : d.firstOfMonth.day=1 := rfl
@[simp] lemma lastOfMonth_monthIndex (d : Date) : d.lastOfMonth.monthIndex=d.monthIndex := rfl
@[simp] lemma ofMonthIndex_day (i : ℕ) (h) : (ofMonthIndex i h).day=1 := rfl

@[simp] lemma ofMonthIndex_monthIndex (i : ℕ) (h) : (ofMonthIndex i h).monthIndex=i := by
  simp only [ofMonthIndex,monthIndex]
  omega

lemma ext_monthIndex {a b : Date} (hi : a.monthIndex=b.monthIndex) (hd : a.day=b.day) : a=b :=
  key_injective (by rw [key,key,hi,hd])

lemma firstOfMonth_eq_self {d : Date} (h : d.day=1) : d.firstOfMonth=d :=
  ext_monthIndex rfl h.symm

lemma le_iff_of_day_one {a : Date} (h : a.day=1) (b : Date) : a ≤ b ↔ a.monthIndex ≤ b.monthIndex := by
  have hb := b.day_pos
  have hb' := b.day_le_31
  rw [le_iff_key,key,key,h]
  omega

lemma lt_iff_of_day_one {b : Date} (h : b.day=1) (a : Date) : a < b ↔ a.monthIndex < b.monthIndex := by
  rw [← not_le,le_iff_of_day_one h,not_le]

lemma firstOfMonth_le (d : Date) : d.firstOfMonth ≤ d :=
  (le_iff_of_day_one rfl d).mpr le_rfl

lemma day_le_lastOfMonth {a b : Date} (h : a.monthIndex=b.monthIndex) : a.day ≤ b.lastOfMonth.day := by
  have ha₁ := a.month_pos
  have hb₁ := b.month_pos
  have ha₂ := a.month_le
  have hb₂ := b.month_le
  simp only [monthIndex] at h
  have hy : a.year=b.year := by omega
  have hm : a.month=b.month := by omega
  have := a.day_le
  rw [hy,hm] at this
  exact this

lemma le_lastOfMonth_iff (a b : Date) : a ≤ b.lastOfMonth ↔ a.monthIndex ≤ b.monthIndex := by
  constructor
  · exact monthIndex_mono
  · intro h
    rw [le_iff_key,key,key,lastOfMonth_monthIndex]
    have ha := a.day_le_31
    rcases h.lt_or_eq with h | h
    · have := b.lastOfMonth.day_pos
      omega
    · have := day_le_lastOfMonth h
      omega

lemma ofParts_ok (d : Date) : ofParts d.year d.month d.day=.ok d := by
  have h : Valid d.year d.month d.day :=
    ⟨d.year_pos,d.year_le,d.month_pos,d.month_le,d.day_pos,d.day_le⟩
  rw [ofParts,dif_pos h]
  rfl

lemma ofParts_month (i : ℕ) (h : 12 ≤ i ∧ i ≤ 119999) :
    ofParts (i/12) (i%12+1) 1=.ok (ofMonthIndex i h) :=
  ofParts_ok (ofMonthIndex i h)

lemma ofParts_year_error {year : ℕ} (h : 9999 < year) (month day : ℕ) :
    ofParts year month day=.error .valueError := by
  have hnot : ¬ Valid year month day := fun hvalid => absurd hvalid.2.1 (not_le.mpr h)
  rw [ofParts,dif_neg hnot]

lemma predDay_ofMonthIndex_succ (d : Date) (h : d.monthIndex < 119999) (h') :
    (ofMonthIndex (d.monthIndex+1) h').predDay=.ok d.lastOfMonth := by
  have hi := d.monthIndex_bounds
  rw [predDay,dif_neg (by simp),dif_pos (by simp; omega)]
  congr 1
  have hm : (ofMonthIndex ((ofMonthIndex (d.monthIndex+1) h').monthIndex-1)
      (by simp; omega)).monthIndex=d.monthIndex := by simp
  apply ext_monthIndex
  · simp
  · exact le_antisymm (day_le_lastOfMonth (by simp)) (day_le_lastOfMonth (by simp))

/-- The day before the first of a month, unless the calendar starts there. -/
lemma predDay_firstOfMonth (d : Date) (h : 12 < d.monthIndex) :
    ∃ e : Date, d.firstOfMonth.predDay=.ok e ∧ e.monthIndex+1=d.monthIndex ∧
      ∀ a : Date, a ≤ e ↔ a.monthIndex < d.monthIndex := by
  have hi := d.monthIndex_bounds
  refine ⟨(ofMonthIndex (d.monthIndex-1) (by omega)).lastOfMonth,?_,?_,?_⟩
  · rw [predDay,dif_neg (by simp),dif_pos (by simpa using h)]
    rfl
  · simp; omega
  · intro a
    rw [le_lastOfMonth_iff,ofMonthIndex_monthIndex]
    omega

lemma predDay_firstOfMonth_error (d : Date) (h : d.monthIndex=12) :
    d.firstOfMonth.predDay=.error .overflowError := by
  rw [predDay,dif_neg (by simp),dif_neg (by simp [h])]

/-- `date.min`. -/
def minDate : Date := of 1 1 1

/-- `date.max`. -/
def maxDate : Date := of 9999 12 31

lemma eq_minDate_iff (d : Date) : d=minDate ↔ d.day=1 ∧ d.monthIndex=12 :=
  ⟨fun h => h ▸ ⟨rfl,rfl⟩,fun h => ext_monthIndex h.2 h.1⟩

lemma eq_maxDate_iff (d : Date) :
    d=maxDate ↔ d.day=daysInMonth d.year d.month ∧ d.monthIndex=119999 := by
  constructor
  · intro h
    subst h
    exact ⟨rfl,rfl⟩
  · intro h
    have hyear : d.year=9999 ∧ d.month=12 := by
      have hindex := h.2
      have hpos := d.month_pos
      have hle := d.month_le
      simp only [monthIndex] at hindex
      omega
    apply ext_monthIndex h.2
    rw [h.1,hyear.1,hyear.2]
    rfl

/-- The calendar begins with its first day. -/
lemma predDay_isOk_iff (d : Date) : (∃ e, d.predDay=.ok e) ↔ d ≠ minDate := by
  have hday := d.day_pos
  have hindex := d.monthIndex_bounds
  rw [Ne,eq_minDate_iff,predDay]
  split_ifs with h₁ h₂
  · simp only [Except.ok.injEq,exists_eq',true_iff]
    omega
  · simp only [Except.ok.injEq,exists_eq',true_iff]
    omega
  · simp only [exists_false,false_iff,not_not]
    omega

lemma succDay_isOk_iff (d : Date) : (∃ e, d.succDay=.ok e) ↔ d ≠ maxDate := by
  have hday := d.day_le
  have hindex := d.monthIndex_bounds
  rw [Ne,eq_maxDate_iff,succDay]
  split_ifs with h₁ h₂
  · simp only [Except.ok.injEq,exists_eq',true_iff]
    omega
  · simp only [Except.ok.injEq,exists_eq',true_iff]
    omega
  · simp only [exists_false,false_iff,not_not]
    omega

/-- A day that follows another one is not the first. -/
lemma succDay_ne_minDate {d e : Date} (h : d.succDay=.ok e) : e ≠ minDate := by
  have hday := d.day_pos
  have hindex := d.monthIndex_bounds
  rw [Ne,eq_minDate_iff]
  rw [succDay] at h
  split_ifs at h with h₁ h₂
  · cases h
    dsimp only
    omega
  · cases h
    simp only [ofMonthIndex_monthIndex]
    omega

lemma ofParts_eq_ok {year month day : ℕ} {d : Date} (h : ofParts year month day=.ok d) :
    d.year=year ∧ d.month=month ∧ d.day=day := by
  rw [ofParts] at h
  split_ifs at h
  cases h
  exact ⟨rfl,rfl,rfl⟩

end Date
end VbApi.Foundations
