import VbApi.P4x.Fees
import VbApi.P4x.CategoryReaders
import Mathlib.Data.List.Lex

/-! The fee balance of one member: the fees of its months against its payments. -/
namespace VbApi.P4x
open VbApi.Foundations

def isFeeMember (m : Member) : Bool :=
  m.orgId=some (text "vbw") && m.stateId=some (text "up") && !m.entlassen && !m.verstorben

/-- `member.p4x_init_date or member.philistrierungsdatum`. -/
def initDateRaw (m : Member) : Option Date := m.p4xInitDate <|> m.philistrierungsdatum

/-- `not member.p4x_freed`; the column is nullable. -/
def paysFees (m : Member) : Bool := m.p4xFreed ≠ some true

/-- Last calendar day of a date's month; the balance of one member writes it out in line. -/
def endOfMonth (target : Date) : Except DateError Date :=
  if target.month=12 then Date.ofParts (target.year+1) 1 1 >>= Date.predDay
  else Date.ofParts target.year (target.month+1) 1 >>= Date.predDay

/-- `except ValueError`; an overflow passes through. -/
def onValueError {α : Type*} (handler body : Except DateError α) : Except DateError α :=
  match body with
  | .error .valueError => handler
  | result => result

def prevMonthEnd (today : Date) : Except DateError Date := today.firstOfMonth.predDay

def balanceStart (initDate : Date) (startDateStr : Option PyText) : Except DateError Date := do
  let start ← match startDateStr with
    | none | some [] => pure initDate
    | some s => onValueError (pure initDate) do
      return (← Date.fromIsoformat (s.take 10)).firstOfMonth
  return max start initDate

def balanceEnd (today startDate : Date) (endDateStr : Option PyText) : Except DateError Date := do
  let endDate ← match endDateStr with
    | none | some [] => prevMonthEnd today
    | some s => onValueError (prevMonthEnd today) do
      let parsedEnd ← Date.fromIsoformat (s.take 10)
      endOfMonth parsedEnd
  if endDate < startDate then endOfMonth startDate else return endDate

/-- The IBANs of a member's live partner rows. -/
def partnerIbans (s : Store) (m : Member) : List (Option PyText) :=
  (s.partners.filter fun p => p.memberId=some m.id && p.active).map (·.iban)

/-- The member's positive fee payments: from its own accounts unless delegated, or delegated to it. -/
def isFeePayment (s : Store) (m : Member) (t : P4xTransaction) : Bool :=
  t.active && 0 < t.amount && t.id ∈ feeCategoryTxIds s &&
  ((some t.iban ∈ partnerIbans s m && noDelegationFilter t) || t.delegatingMemberId=some m.id)

/-- The fee payments from one date up to, but excluding, another. -/
def getFeePaymentsSum (s : Store) (m : Member) (fromDate toDate : Date) : Cents :=
  if partnerIbans s m=[] then 0
  else if feeCategoryTxIds s=∅ then 0
  else ((s.transactions.filter fun t => isFeePayment s m t &&
    fromDate ≤ t.booking && t.booking < toDate).map (·.amount)).sum

inductive EntryType
  | fee
  | payment
  deriving DecidableEq, Repr

structure ProgressEntry where
  type : EntryType
  booking : PyText
  amount : Cents
  deriving DecidableEq

/-- The fee payments from one date to another, both included, for the progress view. -/
def getFeePaymentsList (s : Store) (m : Member) (fromDate toDate : Date) : List ProgressEntry :=
  if partnerIbans s m=[] then []
  else if feeCategoryTxIds s=∅ then []
  else (s.transactions.filter fun t => isFeePayment s m t &&
    fromDate ≤ t.booking && t.booking ≤ toDate).map
      fun t => ⟨.payment,t.booking.isoformat,t.amount⟩

/-- The entries with the balance after each of them. -/
def runningBalances (balance : Cents) : List ProgressEntry → List (ProgressEntry × Cents)
  | [] => []
  | e::es => (e,balance+e.amount)::runningBalances (balance+e.amount) es

structure FeeBalanceResult where
  startDate : PyText
  startBalance : Cents
  countFees : ℕ
  countPayments : ℕ
  sumFees : Cents
  sumPayments : Cents
  endDate : PyText
  endBalance : Cents
  progress : List (ProgressEntry × Cents)

def amountsOf (type : EntryType) (es : List ProgressEntry) : List Cents :=
  (es.filter fun e => e.type=type).map (·.amount)

/-- The fees before the first month of the balance. -/
def feesBefore (s : Store) (m : Member) (initDate startDate : Date) : Except DateError Cents :=
  if paysFees m then do
    let prevMonthDate ← startDate.firstOfMonth.predDay
    sumFeesForPeriod (feeStepFunction s).1 (feeStepFunction s).2 initDate
      (countMonths initDate prevMonthDate)
  else return 0

/-- One fee entry for each month of the balance, booked on its tenth day. -/
def feeEntries (s : Store) (m : Member) (startDate endDate : Date) :
    Except DateError (List ProgressEntry) :=
  if paysFees m then do
    let months ← monthsFrom startDate (countMonths startDate endDate)
    return months.map fun month => ⟨.fee,(month.withDay 10).isoformat,
      -feeAt (feeStepFunction s).1 (feeStepFunction s).2 month⟩
  else return []

/-- The fee balance of a member between two dates, or nothing. -/
def calculateFeeBalance (s : Store) (today : Date) (m : Member)
    (startDateStr endDateStr : Option PyText := none) : Except DateError (Option FeeBalanceResult) :=
  if ¬ isFeeMember m then return none
  else match initDateRaw m with
  | none => return none
  | some raw => do
    let initDate := raw.firstOfMonth
    let startDate ← balanceStart initDate startDateStr
    let endDate ← balanceEnd today startDate endDateStr
    let earlierFees ← feesBefore s m initDate startDate
    let startBalance := m.p4xInitBalance.getD 0-earlierFees+getFeePaymentsSum s m initDate startDate
    let fees ← feeEntries s m startDate endDate
    let entries := fees ++ getFeePaymentsList s m startDate endDate
    let endBalance := startBalance+(entries.map (·.amount)).sum
    let progress := sortBy (·.booking) entries
    return some
      { startDate := startDate.isoformat
        startBalance := startBalance
        countFees := (amountsOf .fee progress).length
        countPayments := (amountsOf .payment progress).length
        sumFees := (amountsOf .fee progress).sum
        sumPayments := (amountsOf .payment progress).sum
        endDate := endDate.isoformat
        endBalance := endBalance
        progress := runningBalances startBalance progress }

/-! The calendar bounds of the default dates. -/

lemma endOfMonth_ok (d : Date) (h : d.monthIndex ≠ 119999) : endOfMonth d=.ok d.lastOfMonth := by
  have hd := d.monthIndex_bounds
  have hm := d.month_pos
  have hm' := d.month_le
  have hindex : 12 ≤ d.monthIndex+1 ∧ d.monthIndex+1 ≤ 119999 := by omega
  have hprev := Date.predDay_ofMonthIndex_succ d (by omega) hindex
  have hparts := Date.ofParts_month (d.monthIndex+1) hindex
  rw [endOfMonth]
  split_ifs with hdec
  · have hy : (d.monthIndex+1)/12=d.year+1 := by simp only [Date.monthIndex]; omega
    have hi : (d.monthIndex+1)%12+1=1 := by simp only [Date.monthIndex]; omega
    rw [hy,hi] at hparts
    rw [hparts]
    exact hprev
  · have hy : (d.monthIndex+1)/12=d.year := by simp only [Date.monthIndex]; omega
    have hi : (d.monthIndex+1)%12+1=d.month+1 := by simp only [Date.monthIndex]; omega
    rw [hy,hi] at hparts
    rw [hparts]
    exact hprev

lemma endOfMonth_error (d : Date) (h : d.monthIndex=119999) : endOfMonth d=.error .valueError := by
  have hd := d.year_le
  have hm := d.month_pos
  have hm' := d.month_le
  simp only [Date.monthIndex] at h
  have hyear : d.year=9999 := by omega
  have hmonth : d.month=12 := by omega
  rw [endOfMonth,if_pos hmonth,Date.ofParts_year_error (by omega)]
  rfl

lemma prevMonthEnd_error {today : Date} (h : today.monthIndex=12) :
    prevMonthEnd today=.error .overflowError :=
  Date.predDay_firstOfMonth_error today h

lemma prevMonthEnd_ok (today : Date) (h : today.monthIndex ≠ 12) :
    ∃ e : Date, prevMonthEnd today=.ok e ∧ e.monthIndex+1=today.monthIndex ∧
      ∀ a : Date, a ≤ e ↔ a.monthIndex < today.monthIndex := by
  have := today.monthIndex_bounds
  exact Date.predDay_firstOfMonth today (by omega)

end VbApi.P4x
