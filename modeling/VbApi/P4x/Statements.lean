import VbApi.Foundations.Windows
import VbApi.P4x.FeeWindows
import VbApi.P4x.Listings

/-! Account statements: the month view with the balances around the month, and the summary with its
account sections and the balances of the fee members. -/
namespace VbApi.P4x.Statements
open VbApi.Foundations
open VbApi.P4x.Listings

/-- The initial balance and every active booking up to and on a day. -/
def getAccountBalance (s : Store) (account : P4xAccount) (upToDate : Date) : Cents :=
  account.initBalance+((s.transactions.filter fun t =>
    (t.p4xAccountId=account.id && t.active) && decide (t.booking ≤ upToDate)).map (·.amount)).sum

/-- The path of a month view, as it is validated. -/
structure MonthPath where
  year : ℕ
  month : ℕ
  year_ge : 2000 ≤ year
  year_le : year ≤ 2100
  month_ge : 1 ≤ month
  month_le : month ≤ 12

structure TransactionsByMonthResponse where
  items : List P4xTransaction
  total : ℕ
  page : ℕ
  perPage : ℕ
  startbalance : Cents
  endbalance : Cents

/-- One page of the transactions of a month, with the balances before and after the month. -/
def monthView (orderBy : OrderBy bookingDesc) (s : Store) (account : P4xAccount) (path : MonthPath)
    (page : ℕ) : Except DateError TransactionsByMonthResponse := do
  let (items,total) :=
    getTransactionsByMonth orderBy paginationSize s account.id path.year path.month page
  let given ← Date.ofParts path.year path.month 10
  let lastOfPrev ← given.firstOfMonth.predDay
  let lastOfMonth ← endOfMonth given
  return {
    items := items
    total := total
    page := page
    perPage := paginationSize
    startbalance := getAccountBalance s account lastOfPrev
    endbalance := getAccountBalance s account lastOfMonth }

/-- The order of a summary; the endpoint refuses an end before the start. -/
structure SummaryOrderRequest (today : Date) where
  start : Date
  stop : Date
  start_bound : .of 2015 1 1 ≤ start
  stop_bound : stop ≤ today
  start_le : start ≤ stop

/-- What the workbook shows for an account: both balances, and the rows of its sheet. -/
structure AccountSection where
  account : P4xAccount
  opening : Cents
  closing : Cents
  transactions : List P4xTransaction

/-- A row of the sheet `MB-Zahlungen`. -/
structure FeeMemberRow where
  nachname : PyText
  cn : PyText
  startDate : PyText
  startBalance : Cents
  fees : Cents
  payments : Cents
  endDate : PyText
  endBalance : Cents
  freed : PyText

structure Summary where
  start : Date
  stop : Date
  sections : List AccountSection
  feeMembers : List FeeMemberRow

/-- `ORDER BY booking`. -/
def bookingAsc (t : P4xTransaction) : Date := t.booking

/-- The active bookings of an account in a period, the first and the last day included. -/
def periodRows (s : Store) (accountId : Uuid) (start stop : Date) : List P4xTransaction :=
  s.transactions.filter fun t => (t.p4xAccountId=accountId && t.active) &&
    (decide (start ≤ t.booking) && decide (t.booking ≤ stop))

/-- The sections of the accounts with a booking in the period. -/
def accountSections (orderBy : OrderBy bookingAsc) (s : Store) (start stop : Date) :
    List AccountSection :=
  (s.accounts.filter fun a => a.deletedAt.isNone && periodRows s a.id start stop ≠ []).map fun a =>
    ⟨a,getAccountBalance s a start,getAccountBalance s a stop,
      orderBy.pick (periodRows s a.id start stop)⟩

/-- A member who is freed has no balance to show. -/
def FeeMemberRow.of (m : Member) (balance : FeeBalanceResult) : FeeMemberRow :=
  let freed := m.p4xFreed=some true
  { nachname := m.nachname.getD []
    cn := m.cn
    startDate := if freed then [] else balance.startDate
    startBalance := if freed then 0 else balance.startBalance
    fees := if freed then 0 else balance.sumFees
    payments := if freed then 0 else balance.sumPayments
    endDate := if freed then [] else balance.endDate
    endBalance := if freed then 0 else balance.endBalance
    freed := if freed then text "x" else [] }

/-- The row of a fee member whose balance meets the period. -/
def feeMemberRow (s : Store) (today start stop : Date) (m : Member) :
    Except DateError (Option FeeMemberRow) := do
  match ← calculateFeeBalance s today m (some start.isoformat) (some stop.isoformat) with
  | none => return none
  | some balance =>
    let balanceStart ← Date.fromIsoformat balance.startDate
    let balanceEnd ← Date.fromIsoformat balance.endDate
    if stop < balanceStart ∨ balanceEnd < start then return none
    else return some (.of m balance)

/-- `generate_summary_xlsx`; the period is that of the months asked for. -/
def generateSummary (orderBy : OrderBy bookingAsc) (s : Store) {today : Date}
    (data : SummaryOrderRequest today) : Except DateError Summary := do
  let start := data.start.firstOfMonth
  let stop ← endOfMonth data.stop
  let feeMembers ← (getFeeMembers s).mapM (feeMemberRow s today start stop)
  return ⟨start,stop,accountSections orderBy s start stop,feeMembers.reduceOption⟩

/-- All pages of a month come, each of them with balances that differ by what all of them show. -/
def MonthReconciles (s : Store) (account : P4xAccount) (path : MonthPath) : Prop :=
  ∀ orders : ℕ → OrderBy bookingDesc, ∃ pages : ℕ → TransactionsByMonthResponse,
    (∀ page, monthView (orders page) s account path page=.ok (pages page)) ∧
    ∀ page, (pages page).startbalance+
      (((List.range (pageCount (pages page).perPage (pages page).total)).flatMap
        fun i => (pages (i+1)).items).map (·.amount)).sum=(pages page).endbalance

/-- The summary comes, and the section of the account adds up. -/
def SummaryReconciles (s : Store) (account : P4xAccount) {today : Date}
    (data : SummaryOrderRequest today) : Prop :=
  ∀ orderBy, ∃ summary, generateSummary orderBy s data=.ok summary ∧
    ∀ part ∈ summary.sections, part.account=account →
      part.opening+(part.transactions.map (·.amount)).sum=part.closing

/-- No ledger of a fee member begins in the last month of the calendar. -/
def LedgersBegin (s : Store) : Prop :=
  ∀ m ∈ s.members, isFeeMember m=true → ∀ init ∈ initDateRaw m, init.monthIndex ≠ 119999

instance (s : Store) : Decidable (LedgersBegin s) :=
  inferInstanceAs (Decidable (∀ m ∈ s.members, _ → _))

/-- What an account has booked on one day. -/
def bookedOn (s : Store) (account : P4xAccount) (day : Date) : Cents :=
  ((s.transactions.filter fun t =>
    (t.p4xAccountId=account.id && t.active) && decide (t.booking=day)).map (·.amount)).sum

section Balances
variable (s : Store) (account : P4xAccount) {start stop : Date}

/-- Between two days the balance grows by what is listed, less what the first day has already. -/
lemma periodRows_sum (h : start ≤ stop) : getAccountBalance s account stop+bookedOn s account start=
    getAccountBalance s account start+
      ((periodRows s account.id start stop).map (·.amount)).sum := by
  have hafter := sum_upTo_eq P4xTransaction.amount P4xTransaction.booking
    (fun t => decide (t.p4xAccountId=account.id) && t.active) s.transactions h
  have hperiod : ((periodRows s account.id start stop).map (·.amount)).sum=
      bookedOn s account start+((s.transactions.filter fun t =>
        (decide (t.p4xAccountId=account.id) && t.active) &&
          (decide (start < t.booking) && decide (t.booking ≤ stop))).map (·.amount)).sum := by
    apply sum_filter_split
    · intro t _
      simp only [Bool.and_eq_true,decide_eq_true_eq]
      constructor
      · rintro ⟨ht,hge,hle⟩
        rcases hge.eq_or_lt with heq | hlt
        · exact Or.inl ⟨ht,heq.symm⟩
        · exact Or.inr ⟨ht,hlt,hle⟩
      · rintro (⟨ht,heq⟩ | ⟨ht,hlt,hle⟩)
        · exact ⟨ht,heq.ge,heq.le.trans h⟩
        · exact ⟨ht,hlt.le,hle⟩
    · rintro t _ ⟨heq,hgt⟩
      simp only [Bool.and_eq_true,decide_eq_true_eq] at heq hgt
      exact absurd heq.2 hgt.2.1.ne'
  rw [getAccountBalance,getAccountBalance,hafter,hperiod]
  ring

end Balances

section MonthViews
variable {s : Store} {account : P4xAccount} {path : MonthPath}

/-- Neither of the two balance days of a month view lies outside the calendar. -/
lemma MonthPath.days (path : MonthPath) : ∃ given lastOfPrev : Date,
    Date.ofParts path.year path.month 10=.ok given ∧ given.firstOfMonth.predDay=.ok lastOfPrev ∧
    endOfMonth given=.ok given.lastOfMonth ∧ given.year=path.year ∧ given.month=path.month ∧
    ∀ a : Date, a ≤ lastOfPrev ↔ a.monthIndex < given.monthIndex := by
  have hyear := path.year_ge
  have hyear' := path.year_le
  have hday := daysInMonth_ge path.year path.month
  have hvalid : Date.Valid path.year path.month 10 :=
    ⟨by omega,by omega,path.month_ge,path.month_le,by omega,by omega⟩
  let given := Date.ofValid path.year path.month 10 hvalid
  have hindex : given.monthIndex=path.year*12+(path.month-1) := rfl
  have hmonth := path.month_le
  obtain ⟨lastOfPrev,hprev,-,hle⟩ := Date.predDay_firstOfMonth given (by omega)
  refine ⟨given,lastOfPrev,?_,hprev,endOfMonth_ok given (by omega),rfl,rfl,hle⟩
  rw [Date.ofParts,dif_pos hvalid]

/-- Every page comes, and the balances differ by what was booked in the month. -/
lemma monthView_ok (s : Store) (account : P4xAccount) (path : MonthPath) :
    ∃ startbalance endbalance : Cents,
      (∀ orderBy page, monthView orderBy s account path page=.ok
        ⟨(getTransactionsByMonth orderBy paginationSize s account.id path.year path.month page).1,
          (monthRows s account.id path.year path.month).length,page,paginationSize,startbalance,
          endbalance⟩) ∧
      endbalance=startbalance+
        ((monthRows s account.id path.year path.month).map (·.amount)).sum := by
  obtain ⟨given,lastOfPrev,hgiven,hprev,hlast,hyear,hmonth,hle⟩ := path.days
  refine ⟨getAccountBalance s account lastOfPrev,getAccountBalance s account given.lastOfMonth,?_,?_⟩
  · intro orderBy page
    simp only [monthView,hgiven,ok_bind,hprev,hlast]
    rfl
  · have hsplit : ((s.transactions.filter fun t => (decide (t.p4xAccountId=account.id) && t.active) &&
        decide (t.booking ≤ given.lastOfMonth)).map (·.amount)).sum=
        ((s.transactions.filter fun t => (decide (t.p4xAccountId=account.id) && t.active) &&
          decide (t.booking ≤ lastOfPrev)).map (·.amount)).sum+
        ((monthRows s account.id path.year path.month).map (·.amount)).sum := by
      have hpart : ∀ t : P4xTransaction, t.booking.monthIndex=given.monthIndex ↔
          t.booking.year=path.year ∧ t.booking.month=path.month := by
        intro t
        have h₁ := t.booking.month_pos
        have h₂ := t.booking.month_le
        have h₃ := given.month_pos
        have h₄ := given.month_le
        simp only [Date.monthIndex,← hyear,← hmonth]
        omega
      apply sum_filter_split
      · intro t _
        simp only [Bool.and_eq_true,decide_eq_true_eq,Date.le_lastOfMonth_iff,hle,← hpart t]
        rw [← and_or_left,← le_iff_lt_or_eq]
      · rintro t _ ⟨hbefore,hin⟩
        simp only [Bool.and_eq_true,decide_eq_true_eq,hle,← hpart t] at hbefore hin
        exact absurd hin.2 hbefore.2.ne
    rw [getAccountBalance,getAccountBalance,hsplit,add_assoc]

/-- A month view adds up exactly when no page boundary splits a day with different amounts. -/
lemma monthReconciles_iff : MonthReconciles s account path ↔
    ∀ n k, SplitsAt bookingDesc (monthRows s account.id path.year path.month) (n*paginationSize) k →
      ∀ a ∈ monthRows s account.id path.year path.month,
      ∀ b ∈ monthRows s account.id path.year path.month,
        bookingDesc a=k → bookingDesc b=k → a.amount=b.amount := by
  obtain ⟨startbalance,endbalance,hview,hend⟩ := monthView_ok s account path
  let get orderBy page :=
    getTransactionsByMonth orderBy paginationSize s account.id path.year path.month page
  have hpages : ∀ orderBy page, get orderBy page=
      ((pageOf paginationSize page
        (orderBy.pick (monthRows s account.id path.year path.month))).map id,
        (monthRows s account.id path.year path.month).length) := by
    intro orderBy page
    rw [List.map_id]
    rfl
  have hsum := sum_allPages_iff (f := id) P4xTransaction.amount (by decide) hpages
  refine Iff.trans ?_ hsum
  have hall : ∀ orders : ℕ → OrderBy bookingDesc, allPages get paginationSize orders=
      (List.range (pageCount paginationSize
        (monthRows s account.id path.year path.month).length)).flatMap
          fun i => (get (orders (i+1)) (i+1)).1 := fun _ => rfl
  simp only [List.map_id,hall]
  constructor
  · intro h orders
    obtain ⟨pages,hpage,hadds⟩ := h orders
    have hpage' : ∀ page, pages page=_ := fun page =>
      Except.ok.inj ((hpage page).symm.trans (hview (orders page) page))
    have hfirst := hadds 1
    simp only [hpage'] at hfirst
    rw [hend] at hfirst
    exact add_left_cancel hfirst
  · intro h orders
    refine ⟨_,fun page => hview (orders page) page,?_⟩
    intro page
    rw [hend]
    exact congrArg (startbalance+·) (h orders)

end MonthViews

section FeeMembers
variable {s : Store} {today init a b : Date} {m : Member}

variable (s today) in
/-- The balance of a period inside the calendar, from the later one of its start and the ledger's. -/
lemma calculateFeeBalance_period (hm : isFeeMember m=true) (hraw : initDateRaw m=some init)
    (hinit : init.monthIndex ≠ 119999) (ha : 12 < a.monthIndex) (hb : b.monthIndex < 119999)
    (hab : a.monthIndex ≤ b.monthIndex) : ∃ r, ∃ c d : Date,
    calculateFeeBalance s today m (some a.firstOfMonth.isoformat) (some b.lastOfMonth.isoformat)=
      .ok (some r) ∧ r.startDate=c.isoformat ∧ r.endDate=d.isoformat := by
  obtain ⟨c,hstart,hc,hc'⟩ : ∃ c : Date,
      max a.firstOfMonth init.firstOfMonth=c.firstOfMonth ∧ c.monthIndex ≠ 119999 ∧
        c.monthIndex ≠ 12 := by
    rcases le_total a.firstOfMonth init.firstOfMonth with hle | hle
    · have hindex : a.firstOfMonth.monthIndex ≤ init.firstOfMonth.monthIndex :=
        Date.monthIndex_mono hle
      rw [Date.firstOfMonth_monthIndex,Date.firstOfMonth_monthIndex] at hindex
      exact ⟨init,max_eq_right hle,hinit,by omega⟩
    · exact ⟨a,max_eq_left hle,by omega,by omega⟩
  have hend := balanceEnd_ok today (readsAs_isoformat b.lastOfMonth) hc
    (by simpa using hb.ne)
  simp only [calculateFeeBalance,hm,hraw,balanceStart_eq_max (readsAs_isoformat a.firstOfMonth),
    Date.firstOfMonth_eq_self (Date.firstOfMonth_day a),hstart,ok_bind,hend,not_true,if_false,
    feesBefore_ok init fun _ => hc',feeEntries_ok]
  exact ⟨_,_,_,rfl,rfl,rfl⟩

lemma feeMemberRow_ok (hm : isFeeMember m=true) (hinit : ∀ init ∈ initDateRaw m, init.monthIndex ≠ 119999)
    (ha : 12 < a.monthIndex) (hb : b.monthIndex < 119999) (hab : a.monthIndex ≤ b.monthIndex) :
    ∃ row, feeMemberRow s today a.firstOfMonth b.lastOfMonth m=.ok row := by
  unfold feeMemberRow
  cases hraw : initDateRaw m with
  | none =>
    have hnone : calculateFeeBalance s today m (some a.firstOfMonth.isoformat)
        (some b.lastOfMonth.isoformat)=.ok none := by simp [calculateFeeBalance,hm,hraw]
    rw [hnone]
    exact ⟨_,rfl⟩
  | some init =>
    obtain ⟨r,c,d,hr,hstart,hend⟩ := calculateFeeBalance_period s today hm hraw
      (hinit init hraw) ha hb hab
    simp only [hr,ok_bind,hstart,hend,Date.fromIsoformat_isoformat]
    split_ifs <;> exact ⟨_,rfl⟩

variable (s today) in
lemma feeMemberRow_error (hm : isFeeMember m=true) (hraw : initDateRaw m=some init)
    (hinit : init.monthIndex=119999) (hb : b.monthIndex < 119999) (hab : a.monthIndex ≤ b.monthIndex) :
    ∃ e, feeMemberRow s today a.firstOfMonth b.lastOfMonth m=.error e := by
  have hstart : max a.firstOfMonth init.firstOfMonth=init.firstOfMonth :=
    max_eq_right ((Date.le_iff_of_day_one (Date.firstOfMonth_day a) _).mpr (by
      simp only [Date.firstOfMonth_monthIndex]
      omega))
  have hend := balanceEnd_error today (readsAs_isoformat b.lastOfMonth) hinit
    (by simpa using hb)
  simp only [feeMemberRow,calculateFeeBalance,hm,hraw,
    balanceStart_eq_max (readsAs_isoformat a.firstOfMonth),
    Date.firstOfMonth_eq_self (Date.firstOfMonth_day a),hstart,ok_bind,hend,not_true,if_false,
    error_bind]
  exact ⟨_,rfl⟩

end FeeMembers

section Summaries
variable {s : Store} {account : P4xAccount} {today : Date} {data : SummaryOrderRequest today}

lemma mem_accountSections {orderBy : OrderBy bookingAsc} {start stop : Date} {part : AccountSection} :
    part ∈ accountSections orderBy s start stop ↔
      ∃ a ∈ s.accounts, a.deletedAt=none ∧ periodRows s a.id start stop ≠ [] ∧
        part=⟨a,getAccountBalance s a start,getAccountBalance s a stop,
          orderBy.pick (periodRows s a.id start stop)⟩ := by
  simp only [accountSections,List.mem_map,List.mem_filter,Bool.and_eq_true,
    Option.isNone_iff_eq_none,decide_eq_true_eq]
  constructor
  · rintro ⟨a,⟨ha,hdeleted,hrows⟩,rfl⟩
    exact ⟨a,ha,hdeleted,hrows,rfl⟩
  · rintro ⟨a,ha,hdeleted,hrows,rfl⟩
    exact ⟨a,⟨ha,hdeleted,hrows⟩,rfl⟩

lemma SummaryOrderRequest.months (data : SummaryOrderRequest today) :
    12 < data.start.monthIndex ∧ data.start.monthIndex ≤ data.stop.monthIndex := by
  have hbound : (Date.of 2015 1 1).monthIndex ≤ data.start.monthIndex :=
    Date.monthIndex_mono data.start_bound
  have hindex : (Date.of 2015 1 1).monthIndex=24180 := rfl
  exact ⟨by omega,Date.monthIndex_mono data.start_le⟩

lemma generateSummary_ok (orderBy : OrderBy bookingAsc) (h : data.stop.monthIndex ≠ 119999)
    (hledgers : LedgersBegin s) : ∃ feeMembers, generateSummary orderBy s data=
      .ok ⟨data.start.firstOfMonth,data.stop.lastOfMonth,
        accountSections orderBy s data.start.firstOfMonth data.stop.lastOfMonth,feeMembers⟩ := by
  have hbounds := data.stop.monthIndex_bounds
  obtain ⟨hstart,hmonths⟩ := data.months
  obtain ⟨rows,hrows⟩ : ∃ rows, (getFeeMembers s).mapM
      (feeMemberRow s today data.start.firstOfMonth data.stop.lastOfMonth)=.ok rows := by
    apply exists_mapM_eq_ok
    intro m hm
    obtain ⟨hmem,hfee⟩ := (mem_getFeeMembers s m).mp hm
    exact feeMemberRow_ok hfee (hledgers m hmem hfee) hstart (by omega) hmonths
  refine ⟨rows.reduceOption,?_⟩
  simp only [generateSummary,endOfMonth_ok data.stop h,ok_bind,hrows]
  rfl

/-- A summary that comes ends before the last month, and no ledger begins there. -/
lemma months_of_generateSummary {orderBy : OrderBy bookingAsc} {summary : Summary}
    (h : generateSummary orderBy s data=.ok summary) :
    data.stop.monthIndex ≠ 119999 ∧ LedgersBegin s := by
  have hbounds := data.stop.monthIndex_bounds
  obtain ⟨-,hmonths⟩ := data.months
  have hlate : data.stop.monthIndex ≠ 119999 := by
    intro hlate
    rw [generateSummary,endOfMonth_error data.stop hlate] at h
    cases h
  refine ⟨hlate,?_⟩
  intro m hmem hfee init hraw hinit
  rw [generateSummary,endOfMonth_ok data.stop hlate,ok_bind,bind_eq_ok_iff] at h
  obtain ⟨rows,hrows,-⟩ := h
  obtain ⟨row,hrow⟩ := exists_ok_of_mapM hrows ((mem_getFeeMembers s m).mpr ⟨hmem,hfee⟩)
  obtain ⟨e,he⟩ := feeMemberRow_error s today hfee hraw hinit
    (by omega : data.stop.monthIndex < 119999) hmonths
  rw [he] at hrow
  cases hrow

/-- A section adds up exactly when the bookings of the first day add up to zero. -/
lemma summaryReconciles_iff (haccount : account ∈ s.accounts) (hactive : account.deletedAt=none) :
    SummaryReconciles s account data ↔ data.stop.monthIndex ≠ 119999 ∧ LedgersBegin s ∧
      bookedOn s account data.start.firstOfMonth=0 := by
  have hle : data.start.firstOfMonth ≤ data.stop.lastOfMonth :=
    (Date.firstOfMonth_le _).trans ((Date.le_lastOfMonth_iff _ _).mpr
      (Date.monthIndex_mono data.start_le))
  have hsum := periodRows_sum s account hle
  have hpick : ∀ orderBy : OrderBy bookingAsc,
      ((orderBy.pick (periodRows s account.id data.start.firstOfMonth
        data.stop.lastOfMonth)).map P4xTransaction.amount).sum=
      ((periodRows s account.id data.start.firstOfMonth data.stop.lastOfMonth).map
        (·.amount)).sum := fun orderBy => ((orderBy.pick_perm _).map _).sum_eq
  constructor
  · intro h
    obtain ⟨summary,hsummary,hparts⟩ := h (.stable bookingAsc)
    obtain ⟨hlate,hledgers⟩ := months_of_generateSummary hsummary
    obtain ⟨feeMembers,hcomes⟩ := generateSummary_ok (.stable bookingAsc) hlate hledgers
    cases hsummary.symm.trans hcomes
    refine ⟨hlate,hledgers,?_⟩
    by_cases hrows : periodRows s account.id data.start.firstOfMonth data.stop.lastOfMonth=[]
    · have hnone : s.transactions.filter (fun t =>
          (decide (t.p4xAccountId=account.id) && t.active) &&
            decide (t.booking=data.start.firstOfMonth))=[] := by
        rw [periodRows,List.filter_eq_nil_iff] at hrows
        rw [List.filter_eq_nil_iff]
        intro t ht hday
        apply hrows t ht
        simp only [Bool.and_eq_true,decide_eq_true_eq] at hday ⊢
        exact ⟨hday.1,hday.2.ge,hday.2.le.trans hle⟩
      rw [bookedOn,hnone]
      rfl
    · have hpart := hparts _ (mem_accountSections.mpr ⟨account,haccount,hactive,hrows,rfl⟩) rfl
      rw [hpick] at hpart
      linarith
  · rintro ⟨hlate,hledgers,hzero⟩ orderBy
    obtain ⟨feeMembers,hcomes⟩ := generateSummary_ok orderBy hlate hledgers
    refine ⟨_,hcomes,?_⟩
    rintro part hpart rfl
    obtain ⟨a,-,-,-,rfl⟩ := mem_accountSections.mp hpart
    dsimp only at hpick hsum hzero ⊢
    rw [hpick]
    linarith

end Summaries

section Samples

def january : MonthPath := ⟨2026,1,by decide,by decide,by decide,by decide⟩

def januaryOrder : SummaryOrderRequest (.of 2026 2 15) :=
  ⟨.of 2026 1 1,.of 2026 1 31,by decide,by decide,by decide⟩

def sampleAccount : P4xAccount := ⟨1,none,0,none⟩

/-- Two bookings, and a fee member. -/
def twoDaysWithMember : Store := { twoDays with
  members := [⟨7,some (text "Max"),some (text "Muster"),none,some (text "vbw"),some (text "up"),false,
    false,none,some (.of 2025 10 1),some (-3000),none⟩] }

/-- A single booking, on the first day of the month. -/
def newYearsDay : Store := storeWith [sampleBooking 1 (.of 2026 1 1)]

/-- More bookings of one day than a page holds, of different amounts. -/
def busyDayOfAmounts : Store :=
  storeWith ((List.range 101).map fun id => { sampleBooking id (.of 2026 1 12) with amount := id })

end Samples

end VbApi.P4x.Statements
