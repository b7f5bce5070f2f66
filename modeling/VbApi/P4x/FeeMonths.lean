import VbApi.P4x.Fees

/-! The fee of a month is that of the latest fee step, and the months of a range are exactly the
calendar's, so the fees of consecutive ranges add up. -/
namespace VbApi.P4x
open VbApi.Foundations

/-- The fee that the rows put in force for the month of a date. -/
structure FeeInForce (s : Store) (date : Date) (fee : Cents) : Prop where
  latest : ∀ f ∈ s.fees, f.start ≤ date.firstOfMonth →
    (∀ g ∈ s.fees, g.start ≤ date.firstOfMonth → g.start ≤ f.start) → fee=f.fee
  before : (∀ f ∈ s.fees, date.firstOfMonth < f.start) → fee=0

/-- The first days of the months from `a` to the month of `e`, each once and in order. -/
structure EnumeratesMonths (a e : Date) (months : List Date) : Prop where
  mem_iff : ∀ d, d ∈ months ↔ d.day=1 ∧ a ≤ d ∧ d ≤ e
  ascending : months.Pairwise (· < ·)
  empty : e < a → months=[]

/-- The sum over the months up to the day before `b` and the sum from `b` on give the whole sum. -/
def SumsAddUp (monthStarts : List Date) (monthFees : List Cents) (a b e : Date) : Prop :=
  ∀ dayBefore, b.predDay=.ok dayBefore → dayBefore ≤ e → ∃ x y,
    sumFeesForPeriod monthStarts monthFees a (countMonths a dayBefore)=.ok x ∧
    sumFeesForPeriod monthStarts monthFees b (countMonths b e)=.ok y ∧
    sumFeesForPeriod monthStarts monthFees a (countMonths a e)=.ok (x+y)

structure FeeMonthsLaw (s : Store) : Prop where
  lookup : ∀ date, feeAt (feeStepFunction s).1 (feeStepFunction s).2 date=feeForMonth s date ∧
    FeeInForce s date (feeForMonth s date)
  months : ∀ a e, a.day=1 → ∃ months, monthsFrom a (countMonths a e)=.ok months ∧
    EnumeratesMonths a e months
  sums : ∀ monthStarts monthFees a b e, a.day=1 → b.day=1 → a ≤ b →
    SumsAddUp monthStarts monthFees a b e

lemma feeInForce (s : Store) (hdistinct : (s.fees.map (·.start)).Nodup) (date : Date) :
    FeeInForce s date (feeForMonth s date) := by
  constructor
  · intro f hf hstart hlatest
    exact feeForMonth_eq hdistinct date hf hstart hlatest
  · intro hafter
    have hnone : (s.fees.filter fun f => decide (f.start ≤ date.firstOfMonth))=[] := by
      rw [List.filter_eq_nil_iff]
      intro f hf
      simpa using hafter f hf
    simp [feeForMonth,hnone,sortBy]

/-- The months of a range, as the code lists them. -/
def rangeMonths (a e : Date) : List Date :=
  (List.range (e.monthIndex+1-a.monthIndex)).map fun i => monthAt (a.monthIndex+i)

lemma monthsFrom_countMonths (a e : Date) :
    monthsFrom a (countMonths a e)=.ok (rangeMonths a e) := by
  have hle := e.monthIndex_bounds.2
  have hcount := countMonths_eq a e
  have hlen : (countMonths a e).toNat=e.monthIndex+1-a.monthIndex := by omega
  rw [monthsFrom_eq a (by omega),hlen]
  rfl

lemma mem_rangeMonths {a e : Date} (ha : a.day=1) (d : Date) :
    d ∈ rangeMonths a e ↔ d.day=1 ∧ a ≤ d ∧ d ≤ e := by
  have hlower := a.monthIndex_bounds.1
  have hupper := e.monthIndex_bounds.2
  rw [rangeMonths,List.mem_map]
  constructor
  · rintro ⟨i,hi,rfl⟩
    rw [List.mem_range] at hi
    have hday := monthAt_day (a.monthIndex+i)
    have hindex : (monthAt (a.monthIndex+i)).monthIndex=a.monthIndex+i :=
      monthAt_monthIndex (by omega)
    refine ⟨hday,?_,?_⟩
    · rw [Date.le_iff_of_day_one ha]
      omega
    · rw [Date.le_iff_of_day_one hday]
      omega
  · rintro ⟨hday,hfrom,hto⟩
    rw [Date.le_iff_of_day_one ha] at hfrom
    rw [Date.le_iff_of_day_one hday] at hto
    refine ⟨d.monthIndex-a.monthIndex,List.mem_range.mpr (by omega),?_⟩
    rw [Nat.add_sub_cancel' hfrom]
    apply Date.ext_monthIndex
    · exact monthAt_monthIndex d.monthIndex_bounds
    · rw [monthAt_day,hday]

lemma rangeMonths_ascending (a e : Date) : (rangeMonths a e).Pairwise (· < ·) := by
  have hlower := a.monthIndex_bounds.1
  have hupper := e.monthIndex_bounds.2
  rw [rangeMonths,List.pairwise_map]
  apply List.pairwise_lt_range.imp_of_mem
  intro i j hi hj hij
  rw [List.mem_range] at hi hj
  rw [Date.lt_iff_of_day_one (monthAt_day _),monthAt_monthIndex (by omega),
    monthAt_monthIndex (by omega)]
  omega

lemma enumeratesMonths {a : Date} (ha : a.day=1) (e : Date) :
    EnumeratesMonths a e (rangeMonths a e) := by
  refine ⟨mem_rangeMonths ha,rangeMonths_ascending a e,?_⟩
  intro hlt
  rw [Date.lt_iff_of_day_one ha] at hlt
  have hlen : e.monthIndex+1-a.monthIndex=0 := by omega
  rw [rangeMonths,hlen]
  rfl

lemma rangeMonths_append {a b d e : Date} (hd : d.monthIndex+1=b.monthIndex)
    (hab : a.monthIndex ≤ b.monthIndex) (hde : d.monthIndex ≤ e.monthIndex) :
    rangeMonths a d ++ rangeMonths b e=rangeMonths a e := by
  have hlen : e.monthIndex+1-a.monthIndex=(d.monthIndex+1-a.monthIndex)+(e.monthIndex+1-b.monthIndex) := by
    omega
  rw [rangeMonths,rangeMonths,rangeMonths,hlen,List.range_add,List.map_append,List.map_map]
  congr 1
  apply List.map_congr_left
  intro i _
  have hindex : b.monthIndex+i=a.monthIndex+(d.monthIndex+1-a.monthIndex+i) := by omega
  rw [Function.comp_apply,hindex]

lemma predDay_of_day_one {b d : Date} (hb : b.day=1) (h : b.predDay=.ok d) :
    d.monthIndex+1=b.monthIndex := by
  have hfirst := Date.firstOfMonth_eq_self hb
  by_cases hindex : 12 < b.monthIndex
  · obtain ⟨d',hd',hmonth,-⟩ := Date.predDay_firstOfMonth b hindex
    rw [hfirst,h] at hd'
    cases hd'
    exact hmonth
  · have hbounds := b.monthIndex_bounds
    have herror := Date.predDay_firstOfMonth_error b (by omega)
    rw [hfirst,h] at herror
    contradiction

lemma sumsAddUp (monthStarts : List Date) (monthFees : List Cents) {a b : Date} (hb : b.day=1)
    (hab : a ≤ b) (e : Date) : SumsAddUp monthStarts monthFees a b e := by
  intro dayBefore hbefore hle
  have hmonth := predDay_of_day_one hb hbefore
  refine ⟨_,_,by rw [sumFeesForPeriod,monthsFrom_countMonths]; rfl,
    by rw [sumFeesForPeriod,monthsFrom_countMonths]; rfl,?_⟩
  rw [sumFeesForPeriod,monthsFrom_countMonths,
    ← rangeMonths_append hmonth (Date.monthIndex_mono hab) (Date.monthIndex_mono hle)]
  simp only [ok_bind,List.map_append,List.sum_append]
  rfl

theorem feeMonths_law (s : Store) (hdistinct : (s.fees.map (·.start)).Nodup) : FeeMonthsLaw s where
  lookup date := ⟨feeAt_eq_feeForMonth s hdistinct date,feeInForce s hdistinct date⟩
  months a e ha := ⟨rangeMonths a e,monthsFrom_countMonths a e,enumeratesMonths ha e⟩
  sums monthStarts monthFees _ _ e _ hb hab := sumsAddUp monthStarts monthFees hb hab e

/-- Two steps, entered newest first. -/
theorem feeMonths_twoSteps :
    FeeMonthsLaw ⟨[],[],[],[],[],[],[⟨Date.of 2024 7 1,3000⟩,⟨Date.of 2020 1 1,2500⟩],[],[],0⟩ :=
  feeMonths_law _ (by decide)

end VbApi.P4x
