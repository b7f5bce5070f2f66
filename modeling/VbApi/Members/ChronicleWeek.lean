import VbApi.Members.Chronicle

/-! The week of a run, and the anniversary that lies in it. -/
namespace VbApi.Members
open VbApi.Foundations

/-! ### The windows -/

section Windows
variable {given weekStart weekEnd : Date}

/-- The window begins on the Monday after the run, or on the day of the run. -/
lemma weekWindow_toOrdinal (h : weekWindow given=.ok (weekStart,weekEnd)) :
    weekStart.toOrdinal=given.toOrdinal+(7-(given.toOrdinal+6)%7)%7 ∧
    weekEnd.toOrdinal=weekStart.toOrdinal+6 := by
  obtain ⟨first,hfirst,h⟩ := bind_eq_ok_iff.mp h
  obtain ⟨last,hlast,h⟩ := bind_eq_ok_iff.mp h
  cases h
  refine ⟨?_,Date.addDays_toOrdinal hlast⟩
  have hcount := Date.addDays_toOrdinal hfirst
  rw [Date.weekday] at hcount
  omega

lemma weekWindow_isOk (h : given.toOrdinal+12 ≤ Date.maxDate.toOrdinal) :
    ∃ window, weekWindow given=.ok window := by
  have hshift : (8-(given.weekday+1))%7 ≤ 6 := Nat.le_of_lt_succ (Nat.mod_lt _ (by decide))
  obtain ⟨first,hfirst⟩ := Date.addDays_isOk (d := given) (n := (8-(given.weekday+1))%7) (by omega)
  have hcount := Date.addDays_toOrdinal hfirst
  obtain ⟨last,hlast⟩ := Date.addDays_isOk (d := first) (n := 6) (by omega)
  refine ⟨(first,last),?_⟩
  rw [weekWindow,hfirst,ok_bind,hlast]
  rfl

end Windows

/-! ### The anniversary of a year -/

/-- Every date has an anniversary in every year: its own day, or 28 February. -/
theorem safeAnniversaryDate_spec (value : Date) {y : ℕ} (hpos : 1 ≤ y) (hle : y ≤ 9999) :
    ∃ d shifted, safeAnniversaryDate y value.month value.day=.ok (some (d,shifted)) ∧ d.year=y ∧
      d.month=value.month ∧
      if value.month=2 ∧ value.day=29 ∧ isLeapYear y=false then d.day=28 ∧ shifted=true
      else d.day=value.day ∧ shifted=false := by
  have hday := value.day_le
  by_cases hvalid : Date.Valid y value.month value.day
  · have hparts : Date.ofParts y value.month value.day=.ok (Date.ofValid y value.month value.day hvalid) :=
      dif_pos hvalid
    have hnot : ¬ (value.month=2 ∧ value.day=29 ∧ isLeapYear y=false) := by
      rintro ⟨hmonth,hlast,hleap⟩
      have hshort := hvalid.2.2.2.2.2
      rw [hmonth,hlast] at hshort
      simp [daysInMonth,hleap] at hshort
    rw [safeAnniversaryDate,hparts]
    refine ⟨_,_,rfl,rfl,rfl,?_⟩
    rw [if_neg hnot]
    exact ⟨rfl,rfl⟩
  · have hparts : Date.ofParts y value.month value.day=.error .valueError := dif_neg hvalid
    have hmissing : ¬ value.day ≤ daysInMonth y value.month :=
      fun hfits => hvalid ⟨hpos,hle,value.month_pos,value.month_le,value.day_pos,hfits⟩
    -- only the length of February depends on the year
    have hleapDay : value.month=2 ∧ value.day=29 ∧ isLeapYear y=false := by
      unfold daysInMonth at hday hmissing
      split_ifs at hday hmissing <;> simp_all <;> omega
    have hvalid' : Date.Valid y 2 28 :=
      ⟨hpos,hle,by decide,by decide,by decide,daysInMonth_ge y 2⟩
    have hparts' : Date.ofParts y 2 28=.ok (Date.ofValid y 2 28 hvalid') := dif_pos hvalid'
    rw [safeAnniversaryDate,hparts]
    simp only [if_pos (And.intro hleapDay.1 hleapDay.2.1),hparts']
    refine ⟨_,_,rfl,rfl,hleapDay.1.symm,?_⟩
    rw [if_pos hleapDay]
    exact ⟨rfl,rfl⟩

section Search
variable {value weekStart weekEnd : Date}

/-- The anniversary of the year lies in the window. -/
structure Hit (value weekStart weekEnd : Date) (y : ℕ) (c : Date × Bool) : Prop where
  date : safeAnniversaryDate y value.month value.day=.ok (some c)
  lower : weekStart ≤ c.1
  upper : c.1 ≤ weekEnd

lemma anniversaryLoop_spec (years : List ℕ) (hyears : ∀ y ∈ years, 1 ≤ y ∧ y ≤ 9999) :
    ∃ r, anniversaryLoop value weekStart weekEnd years=.ok r ∧
      (∀ c, r=some c → ∃ y ∈ years, Hit value weekStart weekEnd y c) ∧
      (r=none → ∀ y ∈ years, ∀ c, ¬ Hit value weekStart weekEnd y c) := by
  induction years with
  | nil => exact ⟨none,rfl,by simp,by simp⟩
  | cons y years ih =>
    obtain ⟨hpos,hle⟩ := hyears y List.mem_cons_self
    obtain ⟨d,shifted,hdate,-⟩ := safeAnniversaryDate_spec value hpos hle
    rw [anniversaryLoop,hdate,ok_bind]
    by_cases hwindow : weekStart ≤ d ∧ d ≤ weekEnd
    · refine ⟨some (d,shifted),if_pos hwindow,?_,by simp⟩
      rintro c ⟨⟩
      exact ⟨y,List.mem_cons_self,hdate,hwindow.1,hwindow.2⟩
    · obtain ⟨r,hr,hfound,hnone⟩ := ih fun y' hy' => hyears y' (List.mem_cons_of_mem y hy')
      refine ⟨r,(if_neg hwindow).trans hr,?_,?_⟩
      · intro c hc
        obtain ⟨y',hy',hhit⟩ := hfound c hc
        exact ⟨y',List.mem_cons_of_mem y hy',hhit⟩
      · intro hr y' hy' c hhit
        rcases List.mem_cons.mp hy' with rfl | hy'
        · have hsame := hhit.date
          rw [hdate] at hsame
          cases hsame
          exact hwindow ⟨hhit.lower,hhit.upper⟩
        · exact hnone hr y' hy' c hhit

lemma Hit.parts {y : ℕ} {c : Date × Bool} (h : Hit value weekStart weekEnd y c) (hpos : 1 ≤ y)
    (hle : y ≤ 9999) : c.1.year=y ∧ c.1.month=value.month := by
  obtain ⟨d,shifted,hdate,hyear,hmonth,-⟩ := safeAnniversaryDate_spec value hpos hle
  rw [h.date] at hdate
  cases hdate
  exact ⟨hyear,hmonth⟩

/-- A week holds the anniversary of one year at most. -/
lemma Hit.unique {y y' : ℕ} {c c' : Date × Bool} (hlength : weekEnd.toOrdinal=weekStart.toOrdinal+6)
    (h : Hit value weekStart weekEnd y c) (h' : Hit value weekStart weekEnd y' c')
    (hy : 1 ≤ y ∧ y ≤ 9999) (hy' : 1 ≤ y' ∧ y' ≤ 9999) : c=c' := by
  obtain ⟨hyear,hmonth⟩ := h.parts hy.1 hy.2
  obtain ⟨hyear',hmonth'⟩ := h'.parts hy'.1 hy'.2
  have hlower := Date.toOrdinal_le_iff.mpr h.lower
  have hupper := Date.toOrdinal_le_iff.mpr h.upper
  have hlower' := Date.toOrdinal_le_iff.mpr h'.lower
  have hupper' := Date.toOrdinal_le_iff.mpr h'.upper
  rcases Nat.lt_trichotomy y y' with hlt | heq | hlt
  · have hfar := Date.toOrdinal_later_year (a := c.1) (b := c'.1) (by omega) (hmonth'.trans hmonth.symm)
    omega
  · subst heq
    have hdate := h.date
    rw [h'.date] at hdate
    cases hdate
    rfl
  · have hfar := Date.toOrdinal_later_year (a := c'.1) (b := c.1) (by omega) (hmonth.trans hmonth'.symm)
    omega

/-- The search finds the anniversary of a year exactly when it lies in the week. -/
theorem anniversaryInWindow_spec (hlength : weekEnd.toOrdinal=weekStart.toOrdinal+6) :
    ∃ r, anniversaryInWindow value weekStart weekEnd=.ok r ∧
      (∀ c, r=some c → Hit value weekStart weekEnd c.1.year c) ∧
      ∀ y c, 1 ≤ y → y ≤ 9999 → safeAnniversaryDate y value.month value.day=.ok (some c) →
        weekStart ≤ c.1 → c.1 ≤ weekEnd → r=some c := by
  have hmem : ∀ y, y ∈ sortBy id [weekStart.year,weekEnd.year].dedup ↔
      y=weekStart.year ∨ y=weekEnd.year := by
    intro y
    rw [mem_sortBy,List.mem_dedup]
    simp
  have hyears : ∀ y ∈ sortBy id [weekStart.year,weekEnd.year].dedup, 1 ≤ y ∧ y ≤ 9999 := by
    intro y hy
    rcases (hmem y).mp hy with rfl | rfl
    · exact ⟨weekStart.year_pos,weekStart.year_le⟩
    · exact ⟨weekEnd.year_pos,weekEnd.year_le⟩
  obtain ⟨r,hr,hfound,hnone⟩ := @anniversaryLoop_spec value weekStart weekEnd _ hyears
  refine ⟨r,hr,?_,?_⟩
  · intro c hc
    obtain ⟨y,hy,hhit⟩ := hfound c hc
    obtain ⟨hpos,hle⟩ := hyears y hy
    rw [(hhit.parts hpos hle).1]
    exact hhit
  · intro y c hpos hle hdate hlower hupper
    have hhit : Hit value weekStart weekEnd y c := ⟨hdate,hlower,hupper⟩
    have hyear : y ∈ sortBy id [weekStart.year,weekEnd.year].dedup := by
      rw [hmem,← (hhit.parts hpos hle).1]
      exact Date.year_between hlower hupper (by omega)
    cases hcase : r with
    | none => exact absurd hhit (hnone hcase y hyear c)
    | some c' =>
      obtain ⟨y',hy',hhit'⟩ := hfound c' hcase
      rw [Hit.unique hlength hhit' hhit (hyears y' hy') ⟨hpos,hle⟩]

end Search

end VbApi.Members
