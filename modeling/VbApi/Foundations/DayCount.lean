import VbApi.Foundations.IsoDate

/-! Days counted from the first day of the calendar: the number grows with the date, a step of some
days adds to it, and the anniversaries of a date lie about a year apart. -/
namespace VbApi.Foundations
namespace Date

def daysInYear (year : ℕ) : ℕ := if isLeapYear year then 366 else 365

lemma isLeapYear_iff (year : ℕ) : isLeapYear year=true ↔
    year%4=0 ∧ (year%100 ≠ 0 ∨ year%400=0) := by
  simp [isLeapYear]

/-- Among consecutive numbers one more multiple is counted where there is one. -/
lemma succ_div_eq (n k : ℕ) : (n+1)/k=n/k+(if (n+1)%k=0 then 1 else 0) := by
  rw [Nat.succ_div]
  simp only [Nat.dvd_iff_mod_eq_zero]

lemma daysBeforeYear_succ {year : ℕ} (h : 1 ≤ year) :
    daysBeforeYear (year+1)=daysBeforeYear year+daysInYear year := by
  obtain ⟨n,rfl⟩ := Nat.exists_eq_add_of_le' h
  have hle : n/100 ≤ n/4 := Nat.div_le_div_left (by decide) (by decide)
  have hleap := isLeapYear_iff (n+1)
  have hmod : (n+1)%100=0 → (n+1)%4=0 := by omega
  have hmod' : (n+1)%400=0 → (n+1)%100=0 := by omega
  simp only [daysBeforeYear,daysInYear,Nat.add_sub_cancel,succ_div_eq]
  generalize n/4=q at *
  generalize n/100=c at *
  generalize n/400=f at *
  split_ifs <;> grind

lemma daysInYear_bounds (year : ℕ) : 365 ≤ daysInYear year ∧ daysInYear year ≤ 366 := by
  unfold daysInYear
  split_ifs <;> omega

lemma daysBeforeMonth_succ (year month : ℕ) :
    daysBeforeMonth year (month+2)=daysBeforeMonth year (month+1)+daysInMonth year (month+1) := by
  simp [daysBeforeMonth,List.range_succ]

lemma daysBeforeMonth_one (year : ℕ) : daysBeforeMonth year 1=0 := rfl

/-- After the last month the year is over. -/
lemma daysBeforeMonth_end (year : ℕ) : daysBeforeMonth year 13=daysInYear year := by
  by_cases hleap : isLeapYear year=true <;>
    simp [daysBeforeMonth,List.range_succ,daysInMonth,daysInYear,hleap]

lemma daysBeforeMonth_mono {year m n : ℕ} (h : m ≤ n) :
    daysBeforeMonth year m ≤ daysBeforeMonth year n := by
  have hsub : List.Sublist (List.range (m-1)) (List.range (n-1)) :=
    List.range_sublist.mpr (by omega)
  exact (hsub.map fun i => daysInMonth year (i+1)).sum_le_sum fun _ _ => Nat.zero_le _

/-- Only the leap day makes the months of two years begin on different days. -/
lemma daysBeforeMonth_le (year year' : ℕ) {month : ℕ} (h : month ≤ 13) :
    daysBeforeMonth year month ≤ daysBeforeMonth year' month+1 := by
  by_cases hleap : isLeapYear year=true <;> by_cases hleap' : isLeapYear year'=true <;>
    interval_cases month <;>
      simp [daysBeforeMonth,List.range_succ,daysInMonth,hleap,hleap']

lemma daysBeforeYear_mono {m n : ℕ} (h : m ≤ n) : daysBeforeYear m ≤ daysBeforeYear n := by
  induction n,h using Nat.le_induction with
  | base => exact le_rfl
  | succ n _ ih =>
    apply ih.trans
    rcases Nat.eq_zero_or_pos n with rfl | hpos
    · exact le_rfl
    · rw [daysBeforeYear_succ hpos]
      exact Nat.le_add_right _ _

/-! ### The number of a day -/

variable {a b d e : Date}

/-- A day of a month lies before the next month. -/
lemma toOrdinal_bounds (d : Date) :
    daysBeforeYear d.year+daysBeforeMonth d.year d.month < d.toOrdinal ∧
    d.toOrdinal ≤ daysBeforeYear d.year+daysBeforeMonth d.year (d.month+1) := by
  have hpos := d.day_pos
  have hle := d.day_le
  obtain ⟨month,hmonth⟩ := Nat.exists_eq_add_of_le' d.month_pos
  rw [hmonth] at hle
  simp only [toOrdinal,hmonth,daysBeforeMonth_succ]
  omega

lemma toOrdinal_year_bounds (d : Date) :
    daysBeforeYear d.year < d.toOrdinal ∧ d.toOrdinal ≤ daysBeforeYear (d.year+1) := by
  have hbounds := d.toOrdinal_bounds
  have hend : daysBeforeMonth d.year (d.month+1) ≤ daysBeforeMonth d.year (12+1) :=
    daysBeforeMonth_mono (Nat.add_le_add_right d.month_le 1)
  rw [daysBeforeMonth_end] at hend
  rw [daysBeforeYear_succ d.year_pos]
  omega

theorem toOrdinal_strictMono : StrictMono toOrdinal := by
  intro a b h
  rw [lt_iff_key,key,key,monthIndex,monthIndex] at h
  have ha := a.day_le_31
  have hb := b.day_le_31
  have hma := a.month_pos
  have hmb := b.month_pos
  have hna := a.month_le
  have hnb := b.month_le
  rcases Nat.lt_trichotomy a.year b.year with hyear | hyear | hyear
  · have hmono := daysBeforeYear_mono (show a.year+1 ≤ b.year from hyear)
    have hupper := a.toOrdinal_year_bounds.2
    have hlower := b.toOrdinal_year_bounds.1
    omega
  · rcases Nat.lt_trichotomy a.month b.month with hmonth | hmonth | hmonth
    · have hmono : daysBeforeMonth b.year (a.month+1) ≤ daysBeforeMonth b.year b.month :=
        daysBeforeMonth_mono hmonth
      have hupper := a.toOrdinal_bounds.2
      have hlower := b.toOrdinal_bounds.1
      rw [hyear] at hupper
      omega
    · simp only [toOrdinal,hyear,hmonth]
      omega
    · omega
  · omega

lemma toOrdinal_injective : Function.Injective toOrdinal := toOrdinal_strictMono.injective

lemma toOrdinal_le_iff : a.toOrdinal ≤ b.toOrdinal ↔ a ≤ b := toOrdinal_strictMono.le_iff_le

/-- The next day has the next number. -/
lemma succDay_toOrdinal (h : d.succDay=.ok e) : e.toOrdinal=d.toOrdinal+1 := by
  rw [succDay] at h
  split_ifs at h with hday hindex
  · cases h
    simp only [toOrdinal]
    omega
  · cases h
    have hpos := d.month_pos
    have hle := d.month_le
    have hdle := d.day_le
    have hlast : d.day=daysInMonth d.year d.month := by omega
    have hmonths := daysBeforeMonth_succ d.year (d.month-1)
    rw [show d.month-1+2=d.month+1 by omega,show d.month-1+1=d.month by omega] at hmonths
    by_cases hdecember : d.month=12
    · have hparts : (d.monthIndex+1)/12=d.year+1 ∧ (d.monthIndex+1)%12+1=1 := by
        simp only [monthIndex]
        omega
      have hend := daysBeforeMonth_end d.year
      rw [hdecember,hend] at hmonths
      rw [hdecember] at hlast
      simp only [toOrdinal,ofMonthIndex,hparts.1,hparts.2,hdecember,hlast,daysBeforeMonth_one,
        daysBeforeYear_succ d.year_pos]
      omega
    · have hparts : (d.monthIndex+1)/12=d.year ∧ (d.monthIndex+1)%12+1=d.month+1 := by
        simp only [monthIndex]
        omega
      simp only [toOrdinal,ofMonthIndex,hparts.1,hparts.2,hmonths,hlast]
      omega

lemma iterDays_toOrdinal (n : ℕ) (h : iterDays succDay n d=.ok e) :
    e.toOrdinal=d.toOrdinal+n := by
  induction n generalizing d with
  | zero =>
    cases h
    rfl
  | succ n ih =>
    cases hd : d.succDay with
    | error err =>
      rw [iterDays,hd] at h
      cases h
    | ok d' =>
      rw [iterDays,hd] at h
      rw [ih h,succDay_toOrdinal hd]
      omega

/-- `d + timedelta(days=n)` counts on by `n`. -/
theorem addDays_toOrdinal {n : ℕ} (h : d.addDays n=.ok e) : e.toOrdinal=d.toOrdinal+n :=
  iterDays_toOrdinal n h

lemma iterDays_add (next : Date → Except DateError Date) (m n : ℕ) (d : Date) :
    iterDays next (m+n) d=iterDays next m d >>= iterDays next n := by
  induction m generalizing d with
  | zero =>
    rw [Nat.zero_add]
    rfl
  | succ m ih =>
    rw [Nat.succ_add,iterDays,iterDays]
    cases hd : next d with
    | error err => rfl
    | ok d' => exact ih d'

/-- Up to the last day of the calendar the count goes on. -/
lemma addDays_isOk {n : ℕ} (h : d.toOrdinal+n ≤ maxDate.toOrdinal) : ∃ e, d.addDays n=.ok e := by
  change ∃ e, iterDays succDay n d=.ok e
  induction n generalizing d with
  | zero => exact ⟨d,rfl⟩
  | succ n ih =>
    have hne : d ≠ maxDate := by
      rintro rfl
      omega
    obtain ⟨d',hd⟩ := (succDay_isOk_iff d).mpr hne
    have hord := succDay_toOrdinal hd
    obtain ⟨e,he⟩ := ih (d := d') (by omega)
    exact ⟨e,by rw [iterDays,hd]; exact he⟩

lemma addDays_one (d : Date) : d.addDays 1=d.succDay := by
  change iterDays succDay 1 d=d.succDay
  rw [iterDays]
  cases d.succDay <;> rfl

/-- The date with a number. -/
def ofOrdinal (n : ℤ) : Except DateError Date := minDate.addDays (n-1)

lemma toOrdinal_minDate : minDate.toOrdinal=1 := by decide +kernel

lemma toOrdinal_le_max (d : Date) : d.toOrdinal ≤ maxDate.toOrdinal := by
  have hyear := daysBeforeYear_mono (show d.year+1 ≤ 9999+1 by have := d.year_le; omega)
  have hend : daysBeforeYear (9999+1)=maxDate.toOrdinal := by decide +kernel
  have hbound := d.toOrdinal_year_bounds.2
  omega

theorem toOrdinal_of_ofOrdinal {n : ℤ} (h : ofOrdinal n=.ok d) : (d.toOrdinal : ℤ)=n := by
  have hmin := toOrdinal_minDate
  rw [ofOrdinal] at h
  cases hn : n-1 with
  | ofNat k =>
    rw [hn] at h
    have hnumber := addDays_toOrdinal h
    have hk : n-1=(k : ℤ) := hn
    omega
  | negSucc k =>
    have herror : minDate.predDay=.error .overflowError := rfl
    rw [hn,addDays,iterDays,herror] at h
    cases h

lemma exists_ofOrdinal {n : ℤ} (hpos : 1 ≤ n) (hmax : n ≤ maxDate.toOrdinal) :
    ∃ d, ofOrdinal n=.ok d := by
  have hmin := toOrdinal_minDate
  have hsub : n-1=((n-1).toNat : ℤ) := by omega
  rw [ofOrdinal,hsub]
  exact addDays_isOk (by omega)

theorem ofOrdinal_toOrdinal (d : Date) : ofOrdinal d.toOrdinal=.ok d := by
  have hpos := d.toOrdinal_bounds.1
  have hmax := d.toOrdinal_le_max
  obtain ⟨e,he⟩ := exists_ofOrdinal (n := d.toOrdinal) (by omega) (by omega)
  have heq : e=d := toOrdinal_injective (Int.ofNat.inj (toOrdinal_of_ofOrdinal he))
  rw [he,heq]

lemma year_mono (h : a ≤ b) : a.year ≤ b.year := by
  rw [le_iff_key,key,key,monthIndex,monthIndex] at h
  have ha := a.month_pos
  have hb := b.month_le
  have hday := b.day_le_31
  have hpos := a.day_pos
  omega

/-- The days of one month in two years lie far apart. -/
theorem toOrdinal_later_year (hyear : a.year < b.year) (hmonth : b.month=a.month) :
    a.toOrdinal+300 ≤ b.toOrdinal := by
  have ha := a.day_le_31
  have hb := b.day_pos
  have hmonths := daysBeforeMonth_le a.year b.year (show a.month ≤ 13 by have := a.month_le; omega)
  have hlength := (daysInYear_bounds a.year).1
  have hyears := daysBeforeYear_mono (show a.year+1 ≤ b.year from hyear)
  rw [daysBeforeYear_succ a.year_pos] at hyears
  simp only [toOrdinal,hmonth]
  omega

/-- A few days touch two years at most. -/
theorem year_between (hab : a ≤ d) (hdb : d ≤ b) (hlength : b.toOrdinal < a.toOrdinal+300) :
    d.year=a.year ∨ d.year=b.year := by
  have hlower := year_mono hab
  have hupper := year_mono hdb
  by_contra hbetween
  have ha := daysBeforeYear_mono (show a.year+1 ≤ d.year by omega)
  have hb := daysBeforeYear_mono (show d.year+1 ≤ b.year by omega)
  rw [daysBeforeYear_succ d.year_pos] at hb
  have hyear := (daysInYear_bounds d.year).1
  have haord := a.toOrdinal_year_bounds.2
  have hbord := b.toOrdinal_year_bounds.1
  omega

end Date
end VbApi.Foundations
