import VbApi.Foundations.Binary64
import VbApi.P4x.FeeWindows
import VbApi.P4x.SumUpBalance

/-! The reminder job writes to the members whose fee balance at the end of the last month is too low.
A delivery that fails is counted and does not stop the others. -/
namespace VbApi.P4x
open VbApi.Foundations

/-! ### The tables and the mails -/

structure MemberRow extends Member where
  email : Option PyText
  deriving DecidableEq

structure AccountRow extends P4xAccount where
  iban : PyText
  bic : Option PyText
  deriving DecidableEq

structure MemberRole where
  memberId : Uuid
  roleId : PyText
  startdate : Date
  enddate : Option Date

/-- The finance tables, with the columns of members and accounts that only the job reads. -/
structure MailStore where
  store : Store
  members : List MemberRow
  accounts : List AccountRow
  memberRoles : List MemberRole
  member_columns : store.members=members.map (·.toMember)
  account_columns : store.accounts=accounts.map (·.toP4xAccount)

inductive JobError
  | date (e : DateError)
  | runtimeError (msg : PyText)
  deriving DecidableEq

/-- Outcome of a job that sends one mail per member. -/
structure MailRun where
  sent : ℕ
  failed : List PyText
  deriving DecidableEq

/-- The arguments of the template and of one delivery. -/
structure DebtorMail where
  recipient : MemberRow
  toEmail : PyText
  name : PyText
  fee : Cents
  target : PyText
  debt : ℤ
  senderName : PyText
  iban : PyText
  bic : Option PyText
  replyTo : Option PyText
  bccEmails : List PyText

/-! ### The job -/

def monthsDe : List String :=
  ["","Jänner","Februar","März","April","Mai","Juni","Juli","August","September","Oktober","November",
    "Dezember"]

/-- `strftime("%Y-%m")`. -/
def monthText (d : Date) : PyText := padded 4 d.year ++ text "-" ++ padded 2 d.month

/-- The newest booking is of this month; else an import is missing. -/
def validateLatestBooking (s : Store) (today : Date) : Bool :=
  match ((s.transactions.filter (·.active)).map (·.booking)).max? with
  | none => false
  | some latestBooking => latestBooking.isoformat.take 7=monthText today

def computeTargetDate (today : Date) : Except DateError Date :=
  if today.month=1 then Date.ofParts (today.year-1) 12 31
  else do
    let nextMonthFirst ← Date.ofParts today.year today.month 1
    nextMonthFirst.predDay

/-- The name a mail greets a member with: the student name, else the name. -/
def greetingName (m : Member) : PyText := (m.couleurname.filter (· ≠ [])).getD m.cn

def getRoleHolderEmails (t : MailStore) (today : Date) (roleIds : List PyText) (orgId : PyText) :
    List PyText :=
  let memberIds := (t.memberRoles.filter fun mr => mr.roleId ∈ roleIds && mr.startdate ≤ today &&
    mr.enddate.all fun enddate => today < enddate).map (·.memberId)
  (t.members.filter fun m => m.id ∈ memberIds && m.orgId=some orgId).filterMap fun m =>
    m.email.filter (· ≠ [])

def getPhilXxxxEmail (t : MailStore) (today : Date) : Option PyText :=
  (getRoleHolderEmails t today [text "phil-xxxx"] (text "vbw")).head?

def getPhilXxxxName (t : MailStore) (today : Date) : PyText :=
  let holder := (getPhilXxxxEmail t today).bind fun email =>
    t.members.find? fun m => m.email=some email
  (holder.map fun m => m.cn).getD (text "Philisterkassier")

/-- The account a reminder asks to pay into; a missing one stops the job. -/
def getPaymentAccount (t : MailStore) : Except JobError AccountRow :=
  match t.accounts.find? fun a => a.id=girokontoAccountId with
  | some account => .ok account
  | none => .error (.runtimeError
      (text "The account for the payment details of the reminder is missing."))

/-- `payment_account or _payment_account(db)`. -/
def cachedAccount (t : MailStore) : Option AccountRow → Except JobError AccountRow
  | some account => .ok account
  | none => getPaymentAccount t

/-- `int(-float(balance))` of a negative balance; `int` cuts off the cents. -/
def debtOf (endBalance : Cents) : ℤ :=
  let amount := toDouble ((endBalance : ℚ)/100)
  if amount < 0 then ⌊-amount⌋ else 0

def feeMemberRows (t : MailStore) : List MemberRow := t.members.filter fun m => isFeeMember m.toMember

/-- The run, the account once it is read, and the deliveries that were attempted. -/
structure ReminderState where
  run : MailRun
  paymentAccount : Option AccountRow
  attempts : List DebtorMail

def ReminderState.start : ReminderState := ⟨⟨0,[]⟩,none,[]⟩

section Job
variable (fails : ℕ → Bool) (t : MailStore) (today target : Date) (targetStr : PyText)

/-- What stands in the mail to a member. -/
def debtorMail (account : AccountRow) (m : MemberRow) (email : PyText) (debt : ℤ) : DebtorMail where
  recipient := m
  toEmail := email
  name := greetingName m.toMember
  fee := feeForMonth t.store target
  target := padded 1 target.day ++ text ". " ++ text (monthsDe.getD target.month "") ++ text " " ++
    padded 1 target.year
  debt := debt
  senderName := getPhilXxxxName t today
  iban := account.iban
  bic := account.bic
  replyTo := getPhilXxxxEmail t today
  bccEmails := getRoleHolderEmails t today [text "phil-x",text "phil-xxxx"] (text "vbw")

/-- One delivery; `fails` tells which of the attempts raise an `OSError`. -/
def ReminderState.deliver (st : ReminderState) (account : AccountRow) (mail : DebtorMail) :
    ReminderState where
  run := if fails st.attempts.length then
      { st.run with failed := st.run.failed ++ [mail.recipient.cn] }
    else { st.run with sent := st.run.sent+1 }
  paymentAccount := some account
  attempts := st.attempts ++ [mail]

/-- One round of the loop. -/
def remindMember (st : ReminderState) (m : MemberRow) : Except JobError ReminderState := do
  let balanceData ← (calculateFeeBalance t.store today m.toMember none (some targetStr)).mapError .date
  match balanceData,m.email with
  | none,_ => return st
  | some _,none => return st
  | some balance,some email =>
    let debt := debtOf balance.endBalance
    if debt ≤ 300 ∨ email=[] then return st
    else
      let account ← cachedAccount t st.paymentAccount
      return st.deliver fails account (debtorMail t today target account m email debt)

def sendDebtorReminders : Except JobError ReminderState :=
  (feeMemberRows t).foldlM (remindMember fails t today target targetStr) .start

end Job

/-- How a run of the job ends. -/
inductive JobEnd
  /-- The month is one of the quarter's ends. -/
  | notDue
  /-- The newest booking is too old. -/
  | importMissing
  | raised (e : JobError)
  | finished (st : ReminderState)

def jobDebtorReminder (fails : ℕ → Bool) (t : MailStore) (today : Date) : JobEnd :=
  if today.month%3=0 then .notDue
  else if ¬ validateLatestBooking t.store today then .importMissing
  else match computeTargetDate today with
    | .error e => .raised (.date e)
    | .ok target =>
      match sendDebtorReminders fails t today target target.isoformat with
      | .error e => .raised e
      | .ok st => .finished st

/-! ### Who is to be reminded -/

/-- The last month of a ledger: that of the target date, unless the ledger begins later. -/
def ledgerEnd (init target : Date) : Date :=
  if init.monthIndex ≤ target.monthIndex then target else init

/-- The exact balance of a ledger at its end. -/
def ledgerBalance (s : Store) (m : Member) (init target : Date) : Cents :=
  balanceAt s m init.monthIndex ((ledgerEnd init target).monthIndex+1)

/-- A fee member with an email address and a balance that meets a test. -/
def isRecipient (s : Store) (target : Date) (test : Cents → Bool) (m : MemberRow) : Bool :=
  isFeeMember m.toMember && m.email.any (· ≠ []) &&
    (initDateRaw m.toMember).any fun init => test (ledgerBalance s m.toMember init target)

/-- A debt of more than 300, but less than 301 EUR. -/
def lessThanOneMore (b : Cents) : Bool := -30100 < b && b < -30000

/-- The members whose debt is more than 300 EUR. -/
def debtors (t : MailStore) (target : Date) : List MemberRow :=
  t.members.filter (isRecipient t.store target (· < -30000))

/-- One delivery is attempted to each debtor and none to anybody else, and all are counted. -/
structure RemindsDebtors (fails : ℕ → Bool) (t : MailStore) (target : Date) (st : ReminderState) :
    Prop where
  recipients : st.attempts.map (·.recipient)=debtors t target
  addresses : ∀ mail ∈ st.attempts, mail.recipient.email=some mail.toEmail
  sent : st.run.sent=(List.range st.attempts.length).countP fun i => !fails i
  failed : st.run.failed.length=(List.range st.attempts.length).countP fails
  total : st.run.sent+st.run.failed.length=(debtors t target).length

/-- A run that returns early attempts and counts nothing, so that nobody may be a debtor; one that
raises reports no counts at all. -/
def JobEnd.RemindsDebtors (fails : ℕ → Bool) (t : MailStore) (target : Date) : JobEnd → Prop
  | .notDue | .importMissing => debtors t target=[]
  | .raised _ => False
  | .finished st => P4x.RemindsDebtors fails t target st

def ReminderLaw (fails : ℕ → Bool) (t : MailStore) (today : Date) : Prop :=
  ∃ target, computeTargetDate today=.ok target ∧
    (jobDebtorReminder fails t today).RemindsDebtors fails t target

/-- The run returns before any balance is read. -/
def ReturnsEarly (t : MailStore) (today : Date) : Prop :=
  today.month%3=0 ∨ validateLatestBooking t.store today=false

instance (t : MailStore) (today : Date) : Decidable (ReturnsEarly t today) :=
  inferInstanceAs (Decidable (_ ∨ _))

/-! ### The threshold -/

lemma debtOf_of_nonneg {c : ℤ} (h : 0 ≤ c) : debtOf c=0 := by
  have hamount : 0 ≤ toDouble ((c : ℚ)/100) := by
    rcases h.eq_or_lt with rfl | hpos
    · simp [toDouble]
    · exact (toDouble_pos (by positivity)).le
  rw [debtOf]
  exact if_neg (not_lt.mpr hamount)

lemma debtOf_of_neg {c : ℤ} (h : c < 0) : debtOf c=⌊toDouble (((-c : ℤ) : ℚ)/100)⌋ := by
  have hpos : 0 < ((-c : ℤ) : ℚ)/100 := by
    have : (0 : ℚ) < ((-c : ℤ) : ℚ) := by exact_mod_cast neg_pos.mpr h
    positivity
  have hcast : (c : ℚ)/100=-(((-c : ℤ) : ℚ)/100) := by
    push_cast
    ring
  rw [debtOf,hcast,toDouble_neg]
  rw [if_pos (neg_neg_of_pos (toDouble_pos hpos)),neg_neg]

/-- Without its cents a debt is more than 300 EUR from 301 EUR on. -/
lemma debtOf_iff (c : ℤ) : 300 < debtOf c ↔ c ≤ -30100 := by
  rcases le_or_gt 0 c with hnonneg | hneg
  · rw [debtOf_of_nonneg hnonneg]
    omega
  · have hpos : (0 : ℚ) < ((-c : ℤ) : ℚ) := by exact_mod_cast neg_pos.mpr hneg
    have hfloor : 300 < debtOf c ↔ ((301 : ℤ) : ℚ) ≤ toDouble (((-c : ℤ) : ℚ)/100) := by
      rw [debtOf_of_neg hneg,← Int.le_floor]
      exact Iff.rfl
    rw [hfloor]
    constructor
    · intro hdebt
      by_contra hc
      have hcents : ((-c : ℤ) : ℚ) ≤ ((30099 : ℤ) : ℚ) := by
        exact_mod_cast (by omega : -c ≤ 30099)
      have hround := toDouble_le (x := ((-c : ℤ) : ℚ)/100) (by positivity)
      norm_num at hdebt hcents hround
      linarith
    · intro hc
      have hcents : ((30100 : ℤ) : ℚ) ≤ ((-c : ℤ) : ℚ) := by exact_mod_cast (by omega : 30100 ≤ -c)
      have hdebt := natCast_le_toDouble (n := 301) (x := ((-c : ℤ) : ℚ)/100) (by norm_num)
        (by positivity) (by push_cast at hcents ⊢; linarith)
      exact_mod_cast hdebt

/-! ### The balance that the job reads -/

lemma computeTargetDate_ok {today : Date} (h : today.monthIndex ≠ 12) :
    ∃ target, computeTargetDate today=.ok target ∧ target.monthIndex+1=today.monthIndex := by
  have hbounds := today.monthIndex_bounds
  have hyear := today.year_le
  unfold computeTargetDate
  split_ifs with hmonth
  · have hpos := today.year_pos
    have hindex : today.monthIndex=today.year*12 := by rw [Date.monthIndex,hmonth,Nat.sub_self,add_zero]
    have hvalid : Date.Valid (today.year-1) 12 31 :=
      ⟨by omega,by omega,by norm_num,le_rfl,by norm_num,(daysInMonth_december _).ge⟩
    refine ⟨Date.ofValid _ _ _ hvalid,dif_pos hvalid,?_⟩
    rw [hindex]
    simp only [Date.monthIndex,Date.ofValid]
    omega
  · obtain ⟨target,htarget,hindex,-⟩ := Date.predDay_firstOfMonth today (by omega)
    have hparts : Date.ofParts today.year today.month 1=.ok today.firstOfMonth :=
      Date.ofParts_ok today.firstOfMonth
    exact ⟨target,by rw [hparts]; exact htarget,hindex⟩

lemma computeTargetDate_error {today : Date} (h : today.monthIndex=12) :
    computeTargetDate today=.error .valueError := by
  obtain ⟨hyear,hmonth⟩ := (monthIndex_first_iff today).mp h
  rw [computeTargetDate,if_pos hmonth,hyear]
  rfl

section Balance
variable {s : Store} {today init target : Date} {m : Member}

lemma balanceEnd_target (hinit : init.monthIndex ≠ 119999) (htarget : target.monthIndex ≠ 119999) :
    balanceEnd today init.firstOfMonth (some target.isoformat)=
      .ok (ledgerEnd init target).lastOfMonth :=
  balanceEnd_ok _ (readsAs_isoformat target) hinit htarget

lemma ledgerEnd_bounds : init.monthIndex ≤ (ledgerEnd init target).monthIndex := by
  unfold ledgerEnd
  split_ifs with hle
  · exact hle
  · exact le_rfl

/-- Inside the calendar the code computes the exact balance. -/
lemma calculateFeeBalance_target (hdistinct : (s.fees.map (·.start)).Nodup)
    (hm : isFeeMember m=true) (hraw : initDateRaw m=some init) (hinit : init.monthIndex ≠ 119999)
    (hfirst : paysFees m=true → init.monthIndex ≠ 12) (htarget : target.monthIndex ≠ 119999) :
    ∃ r, calculateFeeBalance s today m none (some target.isoformat)=.ok (some r) ∧
      r.endBalance=ledgerBalance s m init target := by
  refine ⟨windowResult s m init init (ledgerEnd init target),?_,
    windowResult_endBalance le_rfl ledgerEnd_bounds⟩
  simp only [calculateFeeBalance,hm,hraw,balanceStart_default,ok_bind,
    balanceEnd_target hinit htarget,feesBefore_eq hdistinct init hfirst,
    feeEntries_eq hdistinct,not_true,if_false,getFeePaymentsSum_credited,getFeePaymentsList_eq]
  rfl

/-- Outside the calendar it raises. -/
lemma calculateFeeBalance_target_error (hm : isFeeMember m=true) (hraw : initDateRaw m=some init)
    (htarget : target.monthIndex < 119999)
    (h : init.monthIndex=119999 ∨ (paysFees m=true ∧ init.monthIndex=12)) :
    ∃ e, calculateFeeBalance s today m none (some target.isoformat)=.error e := by
  simp only [calculateFeeBalance,hm,hraw,balanceStart_default,ok_bind,not_true,if_false]
  rcases h with hlast | ⟨hpays,hfirst⟩
  · rw [balanceEnd_error _ (readsAs_isoformat target) hlast htarget,error_bind]
    exact ⟨_,rfl⟩
  · have hbefore : feesBefore s m init.firstOfMonth init.firstOfMonth=.error .overflowError := by
      rw [feesBefore,if_pos hpays,Date.predDay_firstOfMonth_error _ (by simpa using hfirst)]
      rfl
    rw [balanceEnd_target (by omega) (by omega),ok_bind,hbefore,error_bind]
    exact ⟨_,rfl⟩

end Balance

/-! ### The run -/

section Run
variable {fails : ℕ → Bool} {t : MailStore} {today target : Date}

/-- What holds of the attempts so far. -/
structure Counted (fails : ℕ → Bool) (st : ReminderState) : Prop where
  addresses : ∀ mail ∈ st.attempts, mail.recipient.email=some mail.toEmail
  sent : st.run.sent=(List.range st.attempts.length).countP fun i => !fails i
  failed : st.run.failed.length=(List.range st.attempts.length).countP fails

lemma Counted.deliver {st : ReminderState} (h : Counted fails st) (account : AccountRow)
    {mail : DebtorMail} (hmail : mail.recipient.email=some mail.toEmail) :
    Counted fails (st.deliver fails account mail) := by
  have hsent := h.sent
  have hfailed := h.failed
  refine ⟨?_,?_,?_⟩
  · intro mail' hmem
    rcases List.mem_append.mp hmem with hold | hnew
    · exact h.addresses mail' hold
    · rw [List.mem_singleton.mp hnew]
      exact hmail
  · simp only [ReminderState.deliver,List.length_append,List.length_singleton,List.range_succ,
      List.countP_append,List.countP_singleton]
    cases fails st.attempts.length <;> simp [hsent]
  · simp only [ReminderState.deliver,List.length_append,List.length_singleton,List.range_succ,
      List.countP_append,List.countP_singleton]
    cases fails st.attempts.length <;> simp [hfailed]

/-- The recipients that the code selects: a debt of 301 EUR or more. -/
def selected (t : MailStore) (target : Date) : MemberRow → Bool :=
  isRecipient t.store target (· ≤ -30100)

lemma cachedAccount_ok (h : ∃ a ∈ t.accounts, a.id=girokontoAccountId) (cached : Option AccountRow) :
    ∃ account, cachedAccount t cached=.ok account := by
  cases cached with
  | some account => exact ⟨account,rfl⟩
  | none =>
    obtain ⟨a,ha,hid⟩ := h
    rw [cachedAccount,getPaymentAccount]
    cases hfind : t.accounts.find? fun a => a.id=girokontoAccountId with
    | some account => exact ⟨account,rfl⟩
    | none =>
      have hnot := List.find?_eq_none.mp hfind a ha
      simp [hid] at hnot

variable (fails) in
/-- One round reminds the member, or leaves everything as it was. -/
lemma remindMember_spec (hdistinct : (t.store.fees.map (·.start)).Nodup)
    (haccount : ∃ a ∈ t.accounts, a.id=girokontoAccountId) (hinside : InsideCalendar t.store today)
    (htarget : target.monthIndex < 119999) {st : ReminderState} (hst : Counted fails st)
    {m : MemberRow} (hmem : m ∈ t.members) (hm : isFeeMember m.toMember=true) :
    ∃ st', remindMember fails t today target target.isoformat st m=.ok st' ∧ Counted fails st' ∧
      st'.attempts.map (·.recipient)=
        st.attempts.map (·.recipient) ++ if selected t target m then [m] else [] := by
  have hrow : m.toMember ∈ t.store.members := by
    rw [t.member_columns]
    exact List.mem_map_of_mem hmem
  have hunchanged : selected t target m=false → ∃ st', (pure st : Except JobError ReminderState)=.ok st' ∧
      Counted fails st' ∧ st'.attempts.map (·.recipient)=
        st.attempts.map (·.recipient) ++ if selected t target m then [m] else [] := by
    intro hnot
    exact ⟨st,rfl,hst,by rw [hnot]; simp⟩
  unfold remindMember
  cases hraw : initDateRaw m.toMember with
  | none =>
    have hnone : calculateFeeBalance t.store today m.toMember none (some target.isoformat)=.ok none := by
      simp [calculateFeeBalance,hm,hraw]
    rw [hnone]
    exact hunchanged (by simp [selected,isRecipient,hraw])
  | some init =>
    obtain ⟨hlast,hfirst⟩ := hinside.2 _ hrow hm init hraw
    rw [← monthIndex_last_iff] at hlast
    rw [← monthIndex_first_iff] at hfirst
    have hread : ∃ r, calculateFeeBalance t.store today m.toMember none (some target.isoformat)=.ok (some r) ∧
        r.endBalance=ledgerBalance t.store m.toMember init target :=
      calculateFeeBalance_target hdistinct hm hraw hlast hfirst htarget.ne
    obtain ⟨r,hr,hbalance⟩ := hread
    have hselected : selected t target m=
        (m.email.any (· ≠ []) && decide (300 < debtOf r.endBalance)) := by
      have hdebt : decide (300 < debtOf r.endBalance)=decide (r.endBalance ≤ -30100) :=
        decide_eq_decide.mpr (debtOf_iff _)
      rw [hdebt,hbalance]
      simp [selected,isRecipient,hm,hraw]
    rw [hr]
    cases hemail : m.email with
    | none => exact hunchanged (by simp [hselected,hemail])
    | some email =>
      simp only [Except.mapError,ok_bind]
      by_cases hskip : debtOf r.endBalance ≤ 300 ∨ email=[]
      · rw [if_pos hskip]
        apply hunchanged
        rw [hselected,hemail]
        rcases hskip with hsmall | rfl
        · simp [hsmall]
        · simp
      · rw [if_neg hskip]
        rw [not_or,not_le] at hskip
        have hyes : selected t target m=true := by simp [hselected,hemail,hskip]
        obtain ⟨account,hread⟩ := cachedAccount_ok haccount st.paymentAccount
        rw [hread,ok_bind]
        exact ⟨_,rfl,hst.deliver account hemail,by simp [ReminderState.deliver,debtorMail,hyes]⟩

variable (fails) in
lemma remindMembers_spec (hdistinct : (t.store.fees.map (·.start)).Nodup)
    (haccount : ∃ a ∈ t.accounts, a.id=girokontoAccountId) (hinside : InsideCalendar t.store today)
    (htarget : target.monthIndex < 119999) {ms : List MemberRow}
    (hms : ∀ m ∈ ms, m ∈ t.members ∧ isFeeMember m.toMember=true) {st : ReminderState}
    (hst : Counted fails st) :
    ∃ st', ms.foldlM (remindMember fails t today target target.isoformat) st=.ok st' ∧
      Counted fails st' ∧ st'.attempts.map (·.recipient)=
        st.attempts.map (·.recipient) ++ ms.filter (selected t target) := by
  induction ms generalizing st with
  | nil => exact ⟨st,rfl,hst,by simp⟩
  | cons m ms ih =>
    obtain ⟨hmem,hm⟩ := hms m List.mem_cons_self
    obtain ⟨mid,hmid,hcounted,hrecipients⟩ :=
      remindMember_spec fails hdistinct haccount hinside htarget hst hmem hm
    obtain ⟨st',hst',hcounted',hrecipients'⟩ :=
      ih (fun m' hm' => hms m' (List.mem_cons_of_mem _ hm')) hcounted
    refine ⟨st',by rw [List.foldlM_cons,hmid]; exact hst',hcounted',?_⟩
    rw [hrecipients',hrecipients,List.filter_cons,List.append_assoc]
    split_ifs <;> rfl

lemma filter_feeMemberRows (t : MailStore) (target : Date) :
    (feeMemberRows t).filter (selected t target)=t.members.filter (selected t target) := by
  rw [feeMemberRows,List.filter_filter]
  apply List.filter_congr
  intro m _
  unfold selected isRecipient
  cases isFeeMember m.toMember <;> simp

/-- The run inside the calendar: all deliveries are attempted, whichever of them fail. -/
lemma sendDebtorReminders_spec (fails : ℕ → Bool) (hdistinct : (t.store.fees.map (·.start)).Nodup)
    (haccount : ∃ a ∈ t.accounts, a.id=girokontoAccountId) (hinside : InsideCalendar t.store today)
    (htarget : target.monthIndex < 119999) :
    ∃ st, sendDebtorReminders fails t today target target.isoformat=.ok st ∧ Counted fails st ∧
      st.attempts.map (·.recipient)=t.members.filter (selected t target) := by
  have hstart : Counted fails .start := ⟨by simp [ReminderState.start],rfl,rfl⟩
  have hrows : ∀ m ∈ feeMemberRows t, m ∈ t.members ∧ isFeeMember m.toMember=true :=
    fun m hm => List.mem_filter.mp hm
  obtain ⟨st,hst,hcounted,hrecipients⟩ :=
    remindMembers_spec fails hdistinct haccount hinside htarget hrows hstart
  refine ⟨st,hst,hcounted,?_⟩
  rw [hrecipients,filter_feeMemberRows]
  rfl

/-- A run that ends has read the balance of every fee member. -/
lemma insideCalendar_of_run {fails : ℕ → Bool} {st : ReminderState}
    (htarget : computeTargetDate today=.ok target)
    (h : sendDebtorReminders fails t today target target.isoformat=.ok st) :
    InsideCalendar t.store today := by
  have htoday : today.monthIndex ≠ 12 := by
    intro hfirst
    rw [computeTargetDate_error hfirst] at htarget
    contradiction
  have hbefore : target.monthIndex < 119999 := by
    obtain ⟨target',htarget',hindex⟩ := computeTargetDate_ok htoday
    rw [htarget] at htarget'
    cases htarget'
    have := today.monthIndex_bounds
    omega
  refine ⟨by rwa [← monthIndex_first_iff],?_⟩
  intro m hmem hm init hraw
  rw [t.member_columns] at hmem
  obtain ⟨row,hrow,rfl⟩ := List.mem_map.mp hmem
  obtain ⟨st,st',hround⟩ := exists_round_of_foldlM h (List.mem_filter.mpr ⟨hrow,hm⟩)
  rw [← monthIndex_last_iff,← monthIndex_first_iff]
  by_contra hout
  have hraises : ∃ e, calculateFeeBalance t.store today row.toMember none (some target.isoformat)=.error e :=
    calculateFeeBalance_target_error hm hraw hbefore (by tauto)
  obtain ⟨e,he⟩ := hraises
  rw [remindMember,he] at hround
  contradiction

lemma isRecipient_iff {s : Store} {test : Cents → Bool} {m : MemberRow} :
    isRecipient s target test m=true ↔ isFeeMember m.toMember=true ∧
      m.email.any (· ≠ [])=true ∧ ∃ init, initDateRaw m.toMember=some init ∧
        test (ledgerBalance s m.toMember init target)=true := by
  unfold isRecipient
  rw [Bool.and_eq_true,Bool.and_eq_true,and_assoc,Option.any_eq_true (x := initDateRaw m.toMember)]

/-- The code forgets the members whose debt is less than one euro too high. -/
lemma filter_selected_iff (t : MailStore) (target : Date) :
    t.members.filter (selected t target)=debtors t target ↔
      ∀ m ∈ t.members, isRecipient t.store target lessThanOneMore m=false := by
  unfold debtors selected
  constructor
  · intro heq m hm
    by_contra hbetween
    rw [Bool.not_eq_false,isRecipient_iff] at hbetween
    obtain ⟨hfee,hemail,init,hraw,htest⟩ := hbetween
    have hdebt := Bool.and_eq_true_iff.mp htest
    have hdebtor : m ∈ t.members.filter (isRecipient t.store target (· < -30000)) :=
      List.mem_filter.mpr ⟨hm,isRecipient_iff.mpr ⟨hfee,hemail,init,hraw,hdebt.2⟩⟩
    rw [← heq,List.mem_filter,isRecipient_iff] at hdebtor
    obtain ⟨-,-,-,init',hraw',hselected⟩ := hdebtor
    rw [hraw,Option.some.injEq] at hraw'
    subst hraw'
    have hlow := of_decide_eq_true hdebt.1
    have hhigh := of_decide_eq_true hselected
    exact absurd hlow (not_lt.mpr hhigh)
  · intro hnone
    apply List.filter_congr
    intro m hm
    rw [Bool.eq_iff_iff,isRecipient_iff,isRecipient_iff]
    constructor
    · rintro ⟨hfee,hemail,init,hraw,htest⟩
      refine ⟨hfee,hemail,init,hraw,decide_eq_true ?_⟩
      exact lt_of_le_of_lt (of_decide_eq_true htest) (by norm_num)
    · rintro ⟨hfee,hemail,init,hraw,htest⟩
      refine ⟨hfee,hemail,init,hraw,decide_eq_true ?_⟩
      by_contra hlow
      have hbetween : isRecipient t.store target lessThanOneMore m=true :=
        isRecipient_iff.mpr ⟨hfee,hemail,init,hraw,
          Bool.and_eq_true_iff.mpr ⟨decide_eq_true (not_le.mp hlow),htest⟩⟩
      rw [hnone m hm] at hbetween
      contradiction

/-- Inside the calendar the run ends. -/
lemma run_insideCalendar (fails : ℕ → Bool) (hdistinct : (t.store.fees.map (·.start)).Nodup)
    (haccount : ∃ a ∈ t.accounts, a.id=girokontoAccountId) (hinside : InsideCalendar t.store today) :
    ∃ target st, computeTargetDate today=.ok target ∧
      sendDebtorReminders fails t today target target.isoformat=.ok st ∧ Counted fails st ∧
      st.attempts.map (·.recipient)=t.members.filter (selected t target) := by
  have htoday : today.monthIndex ≠ 12 := by
    rw [ne_eq,monthIndex_first_iff]
    exact hinside.1
  obtain ⟨target,htarget,hindex⟩ := computeTargetDate_ok htoday
  have hbounds := today.monthIndex_bounds
  have hindex' : target.monthIndex < 119999 := by omega
  obtain ⟨st,hst⟩ := sendDebtorReminders_spec fails hdistinct haccount hinside hindex'
  exact ⟨target,st,htarget,hst⟩

lemma Counted.total {fails : ℕ → Bool} {st : ReminderState} (h : Counted fails st) :
    st.run.sent+st.run.failed.length=st.attempts.length := by
  have htotal := List.length_eq_countP_add_countP fails (l := List.range st.attempts.length)
  have hnot : (fun i => decide ¬ fails i=true)=fun i => !fails i := by
    funext i
    cases fails i <;> rfl
  rw [List.length_range,hnot] at htotal
  rw [h.sent,h.failed]
  omega

/-- A run that returns early reminds nobody. -/
lemma jobDebtorReminder_early {fails : ℕ → Bool} (h : ReturnsEarly t today) :
    (jobDebtorReminder fails t today).RemindsDebtors fails t target ↔ debtors t target=[] := by
  unfold jobDebtorReminder
  by_cases hmonth : today.month%3=0
  · rw [if_pos hmonth]
    rfl
  · have hbooking := h.resolve_left hmonth
    rw [if_neg hmonth,if_pos (by simp [hbooking])]
    rfl

/-- Else it comes to the deliveries, unless it raises. -/
lemma jobDebtorReminder_due {fails : ℕ → Bool} (h : ¬ ReturnsEarly t today)
    (htarget : computeTargetDate today=.ok target) :
    (jobDebtorReminder fails t today).RemindsDebtors fails t target ↔
      ∃ st, sendDebtorReminders fails t today target target.isoformat=.ok st ∧
        RemindsDebtors fails t target st := by
  rw [ReturnsEarly,not_or,Bool.not_eq_false] at h
  rw [jobDebtorReminder,if_neg h.1,if_neg (by simp [h.2])]
  simp only [htarget]
  cases sendDebtorReminders fails t today target target.isoformat with
  | error e => exact ⟨False.elim,fun ⟨st,hst,_⟩ => by cases hst⟩
  | ok st =>
    constructor
    · exact fun hlaw => ⟨st,rfl,hlaw⟩
    · rintro ⟨st',hst,hlaw⟩
      cases hst
      exact hlaw

lemma no_gap_of_remindsDebtors {fails : ℕ → Bool} {st : ReminderState}
    (hdistinct : (t.store.fees.map (·.start)).Nodup)
    (haccount : ∃ a ∈ t.accounts, a.id=girokontoAccountId)
    (htarget : computeTargetDate today=.ok target)
    (hst : sendDebtorReminders fails t today target target.isoformat=.ok st)
    (hlaw : RemindsDebtors fails t target st) :
    InsideCalendar t.store today ∧ ∀ m ∈ t.members, isRecipient t.store target lessThanOneMore m=false := by
  have hinside := insideCalendar_of_run htarget hst
  refine ⟨hinside,?_⟩
  obtain ⟨target',st',htarget',hst',-,hrecipients⟩ := run_insideCalendar fails hdistinct haccount hinside
  rw [htarget] at htarget'
  cases htarget'
  rw [hst] at hst'
  cases hst'
  rw [← filter_selected_iff,← hrecipients]
  exact hlaw.recipients

end Run

/-- A fee member since January 2026 with the balance of `cents` then, who pays no fees. The account has
a booking of 12 May. -/
def mailStore (cents : Cents) : MailStore where
  store := {
    members := [⟨1,some (text "Max"),some (text "Muster"),none,some (text "vbw"),some (text "up"),false,
      false,none,some (Date.of 2026 1 1),some cents,some true⟩]
    accounts := [⟨girokontoAccountId,none,0,none⟩]
    transactions := [⟨40,"h",Date.of 2026 5 12,Date.of 2026 5 12,[],-1500,[],girokontoAccountId,none,none,
      none,none,"{}",none⟩]
    categories := []
    filters := []
    filterHits := []
    directs := []
    fees := []
    partners := []
    nextUuid := 50 }
  members := [⟨⟨1,some (text "Max"),some (text "Muster"),none,some (text "vbw"),some (text "up"),false,
    false,none,some (Date.of 2026 1 1),some cents,some true⟩,some (text "max@example.org")⟩]
  accounts := [⟨⟨girokontoAccountId,none,0,none⟩,text "AT00",none⟩]
  memberRoles := []
  member_columns := rfl
  account_columns := rfl

end VbApi.P4x
