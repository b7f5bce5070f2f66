import VbApi.Foundations.Results
import VbApi.Foundations.Sorting
import VbApi.P4x.Store

/-! The monthly membership fee as a step function of the month. -/
namespace VbApi.P4x
open VbApi.Foundations

/-- The fee rows, oldest first. -/
def getAllFees (s : Store) : List P4xFee := sortBy (·.start) s.fees

def feeStepFunction (s : Store) : List Date × List Cents :=
  ((getAllFees s).map (·.start),(getAllFees s).map (·.fee))

/-- Fee in force in a month: the latest one that started on or before its first day. -/
def feeAt (monthStarts : List Date) (monthFees : List Cents) (month : Date) : Cents :=
  match bisectRight monthStarts month.firstOfMonth with
  | 0 => 0
  | index+1 => monthFees.getD index 0

def feeForMonth (s : Store) (targetDate : Date) : Cents :=
  let rows := sortBy (fun f => OrderDual.toDual f.start)
    (s.fees.filter fun f => f.start ≤ targetDate.firstOfMonth)
  match rows.head? with
  | some f => f.fee
  | none => 0

/-- The calendar months from the first to the last date, both included. -/
def countMonths (startDate endDate : Date) : ℤ :=
  ((endDate.year : ℤ)-startDate.year)*12+endDate.month-startDate.month+1

/-- The first day of `n` consecutive months; no month for a negative number. -/
def monthsFrom (firstMonth : Date) (n : ℤ) : Except DateError (List Date) :=
  (List.range n.toNat).mapM fun i =>
    Date.ofParts (firstMonth.year+(firstMonth.month-1+i)/12) ((firstMonth.month-1+i)%12+1) 1

def sumFeesForPeriod (monthStarts : List Date) (monthFees : List Cents) (firstMonth : Date)
    (n : ℤ) : Except DateError Cents := do
  let months ← monthsFrom firstMonth n
  return (months.map (feeAt monthStarts monthFees)).sum

lemma getAllFees_sorted (s : Store) : ((getAllFees s).map (·.start)).Pairwise (· ≤ ·) := by
  rw [List.pairwise_map]
  exact sortBy_sorted _ _

/-- The single query reads the newest fee row that has started. -/
lemma feeForMonth_eq {s : Store} {f : P4xFee} (hdistinct : (s.fees.map (·.start)).Nodup)
    (target : Date) (hf : f ∈ s.fees) (hstart : f.start ≤ target.firstOfMonth)
    (hlatest : ∀ g ∈ s.fees, g.start ≤ target.firstOfMonth → g.start ≤ f.start) :
    feeForMonth s target=f.fee := by
  unfold feeForMonth
  generalize hrows : sortBy (fun f => OrderDual.toDual f.start)
    (s.fees.filter fun f => f.start ≤ target.firstOfMonth)=rows
  have hmem : ∀ g, g ∈ rows ↔ g ∈ s.fees ∧ g.start ≤ target.firstOfMonth := by
    simp [← hrows]
  have hsorted : rows.Pairwise fun a b => b.start ≤ a.start := by
    rw [← hrows]
    exact sortBy_sorted (fun f : P4xFee => OrderDual.toDual f.start) _
  have hfm := (hmem f).mpr ⟨hf,hstart⟩
  cases rows with
  | nil => simp at hfm
  | cons g gs =>
    have hg := (hmem g).mp List.mem_cons_self
    have hfg : f.start ≤ g.start := by
      rcases List.mem_cons.mp hfm with rfl | hfm
      · exact le_rfl
      · exact (List.pairwise_cons.mp hsorted).1 f hfm
    have heq : g.start=f.start := le_antisymm (hlatest g hg.1 hg.2) hfg
    have : g=f := List.inj_on_of_nodup_map hdistinct hg.1 hf heq
    simp [this]

/-- The bisection over all fees and the query for one month give the same fee. -/
theorem feeAt_eq_feeForMonth (s : Store) (hdistinct : (s.fees.map (·.start)).Nodup) (month : Date) :
    feeAt (feeStepFunction s).1 (feeStepFunction s).2 month=feeForMonth s month := by
  unfold feeAt feeStepFunction
  dsimp only
  cases hi : bisectRight ((getAllFees s).map (·.start)) month.firstOfMonth with
  | zero =>
    obtain ⟨-,-,hafter⟩ := bisectRight_spec (getAllFees_sorted s) month.firstOfMonth
    rw [hi,List.drop_zero] at hafter
    have hnone : (s.fees.filter fun f => decide (f.start ≤ month.firstOfMonth))=[] := by
      rw [List.filter_eq_nil_iff]
      intro f hf
      have := hafter f.start (List.mem_map_of_mem ((mem_sortBy _ _ f).mpr hf))
      simpa using this
    simp [feeForMonth,hnone,sortBy]
  | succ index =>
    obtain ⟨hlen,hstart,hlatest⟩ := bisectRight_greatest (getAllFees_sorted s) hi
    rw [List.getElem_map] at hstart hlatest
    rw [List.length_map] at hlen
    dsimp only
    rw [List.getD_eq_getElem?_getD,List.getElem?_map,List.getElem?_eq_getElem hlen]
    symm
    refine feeForMonth_eq hdistinct month ((mem_sortBy _ _ _).mp (List.getElem_mem hlen)) hstart ?_
    intro g hg
    exact hlatest g.start (List.mem_map_of_mem ((mem_sortBy _ _ g).mpr hg))

lemma countMonths_eq (a b : Date) : countMonths a b=(b.monthIndex : ℤ)-a.monthIndex+1 := by
  have ha := a.month_pos
  have hb := b.month_pos
  simp only [countMonths,Date.monthIndex]
  omega

lemma monthsFrom_nonpos (first : Date) {n : ℤ} (h : n ≤ 0) : monthsFrom first n=.ok [] := by
  rw [monthsFrom,Int.toNat_of_nonpos h]
  rfl

/-- The first day of a month given by its index; an index outside the calendar reads as its start. -/
def monthAt (i : ℕ) : Date :=
  if h : 12 ≤ i ∧ i ≤ 119999 then Date.ofMonthIndex i h else Date.minDate

lemma monthAt_eq {i : ℕ} (h : 12 ≤ i ∧ i ≤ 119999) : monthAt i=Date.ofMonthIndex i h := dif_pos h

lemma monthAt_monthIndex {i : ℕ} (h : 12 ≤ i ∧ i ≤ 119999) : (monthAt i).monthIndex=i := by
  rw [monthAt_eq h,Date.ofMonthIndex_monthIndex]

lemma monthAt_day (i : ℕ) : (monthAt i).day=1 := by
  unfold monthAt
  split_ifs
  · rfl
  · rfl

/-- A span that stays in the calendar has all its months. -/
theorem monthsFrom_eq (first : Date) {n : ℤ} (h : (first.monthIndex : ℤ)+n ≤ 120000) :
    monthsFrom first n=.ok ((List.range n.toNat).map fun i => monthAt (first.monthIndex+i)) := by
  have hstart := first.monthIndex_bounds
  have hpos := first.month_pos
  have hall : ∀ is : List ℕ, (∀ i ∈ is, i < n.toNat) → (is.mapM fun i =>
      Date.ofParts (first.year+(first.month-1+i)/12) ((first.month-1+i)%12+1) 1)=
        (.ok (is.map fun i => monthAt (first.monthIndex+i)) : Except DateError (List Date)) := by
    intro is
    induction is with
    | nil => exact fun _ => rfl
    | cons i is ih =>
      intro his
      have hi := his i List.mem_cons_self
      have hindex : 12 ≤ first.monthIndex+i ∧ first.monthIndex+i ≤ 119999 := by omega
      have hmonth := Date.ofParts_month (first.monthIndex+i) hindex
      have hy : first.year+(first.month-1+i)/12=(first.monthIndex+i)/12 := by
        simp only [Date.monthIndex]
        omega
      have hm : (first.month-1+i)%12=(first.monthIndex+i)%12 := by
        simp only [Date.monthIndex]
        omega
      rw [List.mapM_cons,hy,hm,hmonth,ih fun j hj => his j (List.mem_cons_of_mem _ hj),
        ← monthAt_eq hindex]
      rfl
  exact hall _ fun i hi => List.mem_range.mp hi

lemma monthsFrom_ok (first : Date) {n : ℤ} (h : (first.monthIndex : ℤ)+n ≤ 120000) :
    ∃ months, monthsFrom first n=.ok months :=
  ⟨_,monthsFrom_eq first h⟩

end VbApi.P4x
