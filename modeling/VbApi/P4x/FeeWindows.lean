import VbApi.Foundations.IsoOrder
import VbApi.Foundations.Windows
import VbApi.P4x.FeeBalanceAgreement

/-! The ledger of a member between two dates: every window reads one balance, which the months and
the payments since the first month make up. -/
namespace VbApi.P4x
open VbApi.Foundations

/-- A caller's text that stands for a date. -/
def ReadsAs (str : PyText) (d : Date) : Prop := Date.fromIsoformat (str.take 10)=.ok d

lemma readsAs_isoformat (d : Date) : ReadsAs d.isoformat d := by
  have htake : d.isoformat.take 10=d.isoformat := List.take_of_length_le (by rw [Date.length_isoformat])
  rw [ReadsAs,htake]
  exact Date.fromIsoformat_isoformat d

/-! ### The balance as a function of the month -/

/-- The first days of the months from one index up to, but excluding, another. -/
def monthsBetween (i j : ℕ) : List Date := (List.range' i (j-i)).map monthAt

/-- The payments credited to a member. -/
def paymentsIn (s : Store) (m : Member) (inWindow : Date → Bool) : List P4xTransaction :=
  s.transactions.filter fun t => (hasPartner s m && isFeePayment s m t) && inWindow t.booking

def feesDue (s : Store) (m : Member) (i j : ℕ) : Cents :=
  if paysFees m then ((monthsBetween i j).map (feeForMonth s)).sum else 0

def credited (s : Store) (m : Member) (i j : ℕ) : Cents :=
  ((paymentsIn s m fun d => i ≤ d.monthIndex && d.monthIndex < j).map (·.amount)).sum

/-- What a member who is kept since month `i` has when month `k` begins. -/
def balanceAt (s : Store) (m : Member) (i k : ℕ) : Cents :=
  m.p4xInitBalance.getD 0-feesDue s m i k+credited s m i k

lemma monthsBetween_append {i j k : ℕ} (hij : i ≤ j) (hjk : j ≤ k) :
    monthsBetween i j ++ monthsBetween j k=monthsBetween i k := by
  have hlen : k-i=(j-i)+(k-j) := by omega
  have hmid : j=i+1*(j-i) := by omega
  rw [monthsBetween,monthsBetween,monthsBetween,hlen,← List.range'_append,← hmid,List.map_append]

lemma feesDue_add (s : Store) (m : Member) {i j k : ℕ} (hij : i ≤ j) (hjk : j ≤ k) :
    feesDue s m i k=feesDue s m i j+feesDue s m j k := by
  unfold feesDue
  split_ifs
  · rw [← monthsBetween_append hij hjk,List.map_append,List.sum_append]
  · rfl

lemma credited_add (s : Store) (m : Member) {i j k : ℕ} (hij : i ≤ j) (hjk : j ≤ k) :
    credited s m i k=credited s m i j+credited s m j k := by
  apply sum_filter_split
  · intro t _
    simp only [Bool.and_eq_true,decide_eq_true_eq]
    constructor
    · rintro ⟨hpay,hi,hk⟩
      by_cases hj : t.booking.monthIndex < j
      · exact Or.inl ⟨hpay,hi,hj⟩
      · exact Or.inr ⟨hpay,not_lt.mp hj,hk⟩
    · rintro (⟨hpay,hi,hj⟩ | ⟨hpay,hj,hk⟩)
      · exact ⟨hpay,hi,by omega⟩
      · exact ⟨hpay,by omega,hk⟩
  · intro t _
    simp only [Bool.and_eq_true,decide_eq_true_eq]
    omega

/-- A window adds its payments to the balance and takes its fees from it. -/
theorem balanceAt_window (s : Store) (m : Member) {i j k : ℕ} (hij : i ≤ j) (hjk : j ≤ k) :
    balanceAt s m i k=balanceAt s m i j-feesDue s m j k+credited s m j k := by
  rw [balanceAt,balanceAt,feesDue_add s m hij hjk,credited_add s m hij hjk]
  ring

/-! ### What the parts of the calculation compute -/

lemma tenth_exists : 1 ≤ 10 ∧ 10 ≤ 28 := by omega

/-- The fee of a month, booked on its tenth day. -/
def monthlyFee (s : Store) (month : Date) : ProgressEntry :=
  ⟨.fee,(month.withDay 10 tenth_exists).isoformat,-feeForMonth s month⟩

def paymentEntry (t : P4xTransaction) : ProgressEntry := ⟨.payment,t.booking.isoformat,t.amount⟩

section Parts
variable {s : Store} {today : Date} {m : Member} {init a b : Date} {x y : PyText}

lemma ReadsAs.ne_nil (h : ReadsAs x a) : x ≠ [] := by
  rintro rfl
  contradiction

lemma balanceStart_eq_max (hx : ReadsAs x a) (init : Date) :
    balanceStart init (some x)=.ok (max a.firstOfMonth init) := by
  unfold balanceStart
  split
  · contradiction
  · rename_i hnil
    cases hnil
    exact absurd rfl hx.ne_nil
  · rename_i str hstr
    cases hstr
    rw [hx]
    rfl

lemma balanceStart_of_readsAs (hx : ReadsAs x a) (ha : init.monthIndex ≤ a.monthIndex) :
    balanceStart init.firstOfMonth (some x)=.ok a.firstOfMonth := by
  have hle : init.firstOfMonth ≤ a.firstOfMonth := (Date.le_iff_of_day_one rfl _).mpr ha
  rw [balanceStart_eq_max hx,max_eq_left hle]

lemma balanceEnd_eq (hy : ReadsAs y b) (start : Date) : balanceEnd today start (some y)=(do
    let endDate ← onValueError (prevMonthEnd today) (endOfMonth b)
    if endDate < start then endOfMonth start else return endDate) := by
  unfold balanceEnd
  split
  · contradiction
  · rename_i hnil
    cases hnil
    exact absurd rfl hy.ne_nil
  · rename_i str hstr
    cases hstr
    rw [hy]
    rfl

lemma balanceEnd_of_readsAs (hy : ReadsAs y b) (hlast : b.monthIndex ≠ 119999)
    (hab : a.monthIndex ≤ b.monthIndex) :
    balanceEnd today a.firstOfMonth (some y)=.ok b.lastOfMonth := by
  have hnot : ¬ b.lastOfMonth < a.firstOfMonth :=
    not_lt.mpr ((Date.le_iff_of_day_one rfl _).mpr hab)
  rw [balanceEnd_eq hy]
  simp only [endOfMonth_ok b hlast,onValueError,ok_bind,if_neg hnot]
  rfl

variable (today) in
/-- A balance that begins after its end is that of its first month. -/
lemma balanceEnd_ok (hy : ReadsAs y b) (ha : a.monthIndex ≠ 119999) (hb : b.monthIndex ≠ 119999) :
    balanceEnd today a.firstOfMonth (some y)=
      .ok (if a.monthIndex ≤ b.monthIndex then b else a).lastOfMonth := by
  split_ifs with hle
  · exact balanceEnd_of_readsAs hy hb hle
  · have hbefore : b.lastOfMonth < a.firstOfMonth := by
      rw [Date.lt_iff_of_day_one rfl]
      simpa using hle
    rw [balanceEnd_eq hy]
    simp only [endOfMonth_ok b hb,onValueError,ok_bind,if_pos hbefore]
    exact endOfMonth_ok _ (by simpa using ha)

variable (today) in
lemma balanceEnd_error (hy : ReadsAs y b) (ha : a.monthIndex=119999) (hb : b.monthIndex < 119999) :
    balanceEnd today a.firstOfMonth (some y)=.error .valueError := by
  have hbefore : b.lastOfMonth < a.firstOfMonth := by
    rw [Date.lt_iff_of_day_one rfl]
    simp only [Date.lastOfMonth_monthIndex,Date.firstOfMonth_monthIndex]
    omega
  rw [balanceEnd_eq hy]
  simp only [endOfMonth_ok b hb.ne,onValueError,ok_bind,if_pos hbefore]
  exact endOfMonth_error a.firstOfMonth (by simpa using ha)

/-- The end of December 9999 cannot be built: the balance ends in another month. -/
lemma balanceEnd_december_9999 {start e : Date} (hy : ReadsAs y b) (hlast : b.monthIndex=119999)
    (h : balanceEnd today start (some y)=.ok e) : e.monthIndex ≠ 119999 := by
  rw [balanceEnd_eq hy,endOfMonth_error b hlast] at h
  change (prevMonthEnd today >>= _)=_ at h
  rw [bind_eq_ok_iff] at h
  obtain ⟨p,hp,h⟩ := h
  split_ifs at h with hlt
  · by_cases hstart : start.monthIndex=119999
    · rw [endOfMonth_error start hstart] at h
      contradiction
    · rw [endOfMonth_ok start hstart] at h
      cases h
      exact hstart
  · cases h
    have htoday : today.monthIndex ≠ 12 := by
      intro h12
      rw [prevMonthEnd_error h12] at hp
      contradiction
    obtain ⟨p',hp',hindex,-⟩ := prevMonthEnd_ok today htoday
    rw [hp'] at hp
    cases hp
    have := today.monthIndex_bounds
    omega

lemma monthsFrom_between (first : Date) {j : ℕ} (hj : j ≤ 120000) (n : ℤ)
    (hn : n=(j : ℤ)-first.monthIndex) :
    monthsFrom first n=.ok (monthsBetween first.monthIndex j) := by
  have hlen : n.toNat=j-first.monthIndex := by omega
  by_cases hle : first.monthIndex ≤ j
  · rw [monthsFrom_eq first (by omega),monthsBetween,List.range'_eq_map_range,List.map_map,hlen]
    rfl
  · rw [monthsFrom_nonpos first (by omega),monthsBetween,Nat.sub_eq_zero_of_le (by omega)]
    rfl

lemma feesBefore_ok (init : Date) (hfirst : paysFees m=true → a.monthIndex ≠ 12) :
    feesBefore s m init.firstOfMonth a.firstOfMonth=.ok (if paysFees m then
      ((monthsBetween init.monthIndex a.monthIndex).map
        (feeAt (feeStepFunction s).1 (feeStepFunction s).2)).sum else 0) := by
  have hbounds := a.monthIndex_bounds
  unfold feesBefore
  split_ifs with hpays
  · have h12 := hfirst hpays
    obtain ⟨prev,hprev,hindex,-⟩ := Date.predDay_firstOfMonth a.firstOfMonth
      (by rw [Date.firstOfMonth_monthIndex]; omega)
    rw [Date.firstOfMonth_monthIndex] at hindex
    have hcount : countMonths init.firstOfMonth prev=
        (a.monthIndex : ℤ)-init.firstOfMonth.monthIndex := by
      rw [countMonths_eq]
      omega
    simp only [hprev,ok_bind,sumFeesForPeriod,
      monthsFrom_between init.firstOfMonth (by omega) _ hcount]
    rfl
  · rfl

lemma feeEntries_ok (a b : Date) :
    feeEntries s m a.firstOfMonth b.lastOfMonth=.ok (if paysFees m then
      (monthsBetween a.monthIndex (b.monthIndex+1)).map fun month =>
        ⟨.fee,(month.withDay 10).isoformat,-feeAt (feeStepFunction s).1 (feeStepFunction s).2 month⟩
      else []) := by
  have hbounds := b.monthIndex_bounds
  unfold feeEntries
  split_ifs
  · have hcount : countMonths a.firstOfMonth b.lastOfMonth=
        ((b.monthIndex+1 : ℕ) : ℤ)-a.firstOfMonth.monthIndex := by
      rw [countMonths_eq,Date.lastOfMonth_monthIndex]
      omega
    simp only [monthsFrom_between a.firstOfMonth (by omega) _ hcount,ok_bind]
    rfl
  · rfl

variable (hdistinct : (s.fees.map (·.start)).Nodup)
include hdistinct

lemma feeAt_eq : feeAt (feeStepFunction s).1 (feeStepFunction s).2=feeForMonth s :=
  funext (feeAt_eq_feeForMonth s hdistinct)

lemma feesBefore_eq (init : Date) (hfirst : paysFees m=true → a.monthIndex ≠ 12) :
    feesBefore s m init.firstOfMonth a.firstOfMonth=
      .ok (feesDue s m init.monthIndex a.monthIndex) := by
  rw [feesBefore_ok init hfirst,feeAt_eq hdistinct,feesDue]

lemma feeEntries_eq (a b : Date) :
    feeEntries s m a.firstOfMonth b.lastOfMonth=.ok (if paysFees m then
      (monthsBetween a.monthIndex (b.monthIndex+1)).map (monthlyFee s) else []) := by
  rw [feeEntries_ok,feeAt_eq hdistinct]
  rfl

end Parts

/-! ### The ledger of a window -/

/-- The payments of the months of a window. -/
def windowPayments (s : Store) (m : Member) (a b : Date) : List P4xTransaction :=
  paymentsIn s m fun d => a.monthIndex ≤ d.monthIndex && d.monthIndex < b.monthIndex+1

/-- The ledger of the months from `a` to `b`. -/
structure LedgerLaw (s : Store) (m : Member) (a b : Date) (r : FeeBalanceResult) : Prop where
  start_date : r.startDate=a.firstOfMonth.isoformat
  end_date : r.endDate=b.lastOfMonth.isoformat
  sorted : ∃ dates : List Date, r.progress.map (·.1.booking)=dates.map Date.isoformat ∧
    dates.Pairwise (· ≤ ·)
  -- a month has its fee, a month outside the window has none
  fees : ∀ d : Date, (r.progress.map (·.1)).filter
      (fun e => e.type=.fee && e.booking=(d.withDay 10).isoformat)=
    if paysFees m ∧ a.monthIndex ≤ d.monthIndex ∧ d.monthIndex ≤ b.monthIndex then
      [monthlyFee s d] else []
  fee_bookings : ∀ e ∈ r.progress, e.1.type=.fee → ∃ d : Date, e.1.booking=(d.withDay 10).isoformat
  payments : ((r.progress.map (·.1)).filter fun e => e.type=.payment).Perm
    ((windowPayments s m a b).map paymentEntry)
  balances : ∀ front e back, r.progress=front ++ e::back →
    e.2=r.startBalance+((front ++ [e]).map (·.1.amount)).sum
  last : ∀ e ∈ r.progress.getLast?, e.2=r.endBalance
  sum_fees : r.sumFees=(amountsOf .fee (r.progress.map (·.1))).sum
  sum_payments : r.sumPayments=(amountsOf .payment (r.progress.map (·.1))).sum
  total : r.endBalance=r.startBalance+r.sumFees+r.sumPayments

lemma map_runningBalances (c : Cents) (es : List ProgressEntry) :
    (runningBalances c es).map (·.1)=es := by
  induction es generalizing c with
  | nil => rfl
  | cons e es ih => rw [runningBalances,List.map_cons,ih]

/-- The balance after an entry is the first balance plus what stands up to the entry. -/
lemma runningBalances_front {c : Cents} {es : List ProgressEntry}
    {front back : List (ProgressEntry × Cents)} {x : ProgressEntry × Cents}
    (h : runningBalances c es=front ++ x::back) :
    x.2=c+((front ++ [x]).map (·.1.amount)).sum := by
  induction front generalizing c es with
  | nil =>
    cases es with
    | nil => contradiction
    | cons e es =>
      rw [runningBalances,List.nil_append,List.cons.injEq] at h
      simp [← h.1]
  | cons y front ih =>
    cases es with
    | nil => contradiction
    | cons e es =>
      rw [runningBalances,List.cons_append,List.cons.injEq] at h
      rw [ih h.2,← h.1]
      simp [add_assoc]

lemma runningBalances_last {c : Cents} {es : List ProgressEntry} {x : ProgressEntry × Cents}
    (h : x ∈ (runningBalances c es).getLast?) : x.2=c+(es.map (·.amount)).sum := by
  obtain ⟨front,hfront⟩ := List.getLast?_eq_some_iff.mp h
  have hmap := congrArg (List.map (·.amount)) (map_runningBalances c es)
  rw [List.map_map] at hmap
  rw [runningBalances_front hfront,← hfront]
  exact congrArg (fun amounts => c+amounts.sum) hmap

lemma sum_amountsOf (es : List ProgressEntry) :
    (es.map (·.amount)).sum=(amountsOf .fee es).sum+(amountsOf .payment es).sum := by
  induction es with
  | nil => rfl
  | cons e es ih =>
    rw [List.map_cons,List.sum_cons,ih]
    unfold amountsOf
    cases he : e.type <;> simp [he] <;> ring

lemma getFeePaymentsList_eq (s : Store) (m : Member) (a b : Date) :
    getFeePaymentsList s m a.firstOfMonth b.lastOfMonth=
      (windowPayments s m a b).map paymentEntry := by
  have hwindow : ∀ t : P4xTransaction, (decide (a.firstOfMonth ≤ t.booking) &&
      decide (t.booking ≤ b.lastOfMonth))=(decide (a.monthIndex ≤ t.booking.monthIndex) &&
        decide (t.booking.monthIndex < b.monthIndex+1)) := by
    intro t
    rw [Bool.eq_iff_iff]
    simp only [Bool.and_eq_true,decide_eq_true_eq,Date.le_lastOfMonth_iff,Nat.lt_succ_iff,
      Date.le_iff_of_day_one (Date.firstOfMonth_day a),Date.firstOfMonth_monthIndex]
  unfold getFeePaymentsList windowPayments paymentsIn hasPartner
  split_ifs with hibans hids
  · simp [hibans]
  · simp [isFeePayment_eq_false hids]
  · simp [hibans,hwindow,Bool.and_assoc,paymentEntry]

lemma getFeePaymentsSum_credited (s : Store) (m : Member) (init a : Date) :
    getFeePaymentsSum s m init.firstOfMonth a.firstOfMonth=
      credited s m init.monthIndex a.monthIndex := by
  have hwindow : ∀ d : Date, (decide (init.firstOfMonth ≤ d) && decide (d < a.firstOfMonth))=
      (decide (init.monthIndex ≤ d.monthIndex) && decide (d.monthIndex < a.monthIndex)) := by
    intro d
    rw [Bool.eq_iff_iff]
    simp only [Bool.and_eq_true,decide_eq_true_eq,
      Date.le_iff_of_day_one (Date.firstOfMonth_day init),
      Date.lt_iff_of_day_one (Date.firstOfMonth_day a),Date.firstOfMonth_monthIndex]
  rw [getFeePaymentsSum_eq,creditedSum_eq]
  simp only [hwindow]
  rfl

lemma filter_range' (i n k : ℕ) :
    (List.range' i n).filter (fun l => l=k)=if i ≤ k ∧ k < i+n then [k] else [] := by
  have hcount := List.Nodup.count (a := k) (List.nodup_range' (s := i) (n := n))
  have hfilter : (List.range' i n).filter (fun l => l=k)=
      List.replicate ((List.range' i n).count k) k := by
    rw [← List.filter_beq]
    rfl
  rw [hfilter,hcount]
  simp only [List.mem_range'_1]
  split_ifs <;> rfl

/-- A month of a span stands in it once. -/
lemma filter_monthsBetween {i j : ℕ} (hi : 12 ≤ i) (hj : j ≤ 120000) (d : Date) :
    (monthsBetween i j).filter (fun month => month.monthIndex=d.monthIndex)=
      if i ≤ d.monthIndex ∧ d.monthIndex < j then [d.firstOfMonth] else [] := by
  have hbounds := d.monthIndex_bounds
  have hindex : ∀ k ∈ List.range' i (j-i), (decide ((monthAt k).monthIndex=d.monthIndex))=
      decide (k=d.monthIndex) := by
    intro k hk
    rw [List.mem_range'_1] at hk
    rw [monthAt_monthIndex (by omega)]
  rw [monthsBetween,List.filter_map]
  simp only [Function.comp_def]
  rw [List.filter_congr hindex,filter_range']
  by_cases h : i ≤ d.monthIndex ∧ d.monthIndex < j
  · rw [if_pos h,if_pos (by omega),List.map_singleton]
    congr 1
    exact Date.ext_monthIndex (monthAt_monthIndex hbounds) (monthAt_day _)
  · rw [if_neg h,if_neg (by omega),List.map_nil]

lemma isoformat_tenth_iff (a d : Date) :
    (a.withDay 10).isoformat=(d.withDay 10).isoformat ↔ a.monthIndex=d.monthIndex := by
  rw [Date.isoformat_injective.eq_iff]
  constructor
  · intro h
    simpa using congrArg Date.monthIndex h
  · intro h
    exact Date.ext_monthIndex h rfl

/-- The entries of one month among the fees of a span. -/
lemma filter_monthlyFees (s : Store) {i j : ℕ} (hi : 12 ≤ i) (hj : j ≤ 120000) (d : Date) :
    ((monthsBetween i j).map (monthlyFee s)).filter
        (fun e => e.type=.fee && e.booking=(d.withDay 10).isoformat)=
      if i ≤ d.monthIndex ∧ d.monthIndex < j then [monthlyFee s d] else [] := by
  have hpred : ∀ month ∈ monthsBetween i j, ((fun e : ProgressEntry => decide (e.type=.fee) &&
      decide (e.booking=(d.withDay 10).isoformat)) ∘ monthlyFee s) month=
        decide (month.monthIndex=d.monthIndex) := by
    intro month _
    simp [monthlyFee,isoformat_tenth_iff]
  rw [List.filter_map,List.filter_congr hpred,filter_monthsBetween hi hj]
  split_ifs <;> rfl

lemma exists_dates {es : List ProgressEntry} (h : ∀ e ∈ es, ∃ d : Date, e.booking=d.isoformat) :
    ∃ dates : List Date, es.map (·.booking)=dates.map Date.isoformat := by
  induction es with
  | nil => exact ⟨[],rfl⟩
  | cons e es ih =>
    obtain ⟨dates,hdates⟩ := ih fun x hx => h x (List.mem_cons_of_mem _ hx)
    obtain ⟨d,hd⟩ := h e List.mem_cons_self
    exact ⟨d::dates,by rw [List.map_cons,List.map_cons,hdates,hd]⟩

section Windows
variable {s : Store} {today : Date} {m : Member} {init a b : Date} {x y : PyText}

/-- What makes up the entries of a window. -/
def windowEntries (s : Store) (m : Member) (a b : Date) : List ProgressEntry :=
  (if paysFees m then (monthsBetween a.monthIndex (b.monthIndex+1)).map (monthlyFee s) else []) ++
    (windowPayments s m a b).map paymentEntry

lemma sum_windowEntries (s : Store) (m : Member) (a b : Date) :
    ((windowEntries s m a b).map (·.amount)).sum=
      credited s m a.monthIndex (b.monthIndex+1)-feesDue s m a.monthIndex (b.monthIndex+1) := by
  have hfees : ∀ months : List Date, ((months.map (monthlyFee s)).map (·.amount)).sum=
      -(months.map (feeForMonth s)).sum := by
    intro months
    induction months with
    | nil => rfl
    | cons month months ih =>
      simp only [List.map_cons,List.sum_cons,ih,monthlyFee]
      ring
  have hpayments : ((windowPayments s m a b).map paymentEntry).map (·.amount)=
      (windowPayments s m a b).map (·.amount) := by
    rw [List.map_map]
    rfl
  unfold windowEntries feesDue credited
  rw [List.map_append,List.sum_append,hpayments]
  split_ifs
  · rw [hfees]
    unfold windowPayments
    ring
  · simp [windowPayments]

lemma windowEntries_booking {e : ProgressEntry} (he : e ∈ windowEntries s m a b) :
    (∃ d : Date, e.booking=d.isoformat) ∧
      (e.type=.fee → ∃ d : Date, e.booking=(d.withDay 10).isoformat) := by
  unfold windowEntries at he
  rcases List.mem_append.mp he with he | he
  · split_ifs at he
    · obtain ⟨month,-,rfl⟩ := List.mem_map.mp he
      exact ⟨⟨_,rfl⟩,fun _ => ⟨month,rfl⟩⟩
    · contradiction
  · obtain ⟨t,-,rfl⟩ := List.mem_map.mp he
    exact ⟨⟨_,rfl⟩,fun h => by contradiction⟩

lemma windowEntries_fees (d : Date) :
    (windowEntries s m a b).filter (fun e => e.type=.fee && e.booking=(d.withDay 10).isoformat)=
      if paysFees m ∧ a.monthIndex ≤ d.monthIndex ∧ d.monthIndex ≤ b.monthIndex then
        [monthlyFee s d] else [] := by
  have ha := a.monthIndex_bounds
  have hb := b.monthIndex_bounds
  have hpayments : ((windowPayments s m a b).map paymentEntry).filter
      (fun e => e.type=.fee && e.booking=(d.withDay 10).isoformat)=[] := by
    rw [List.filter_eq_nil_iff]
    intro e he
    obtain ⟨t,-,rfl⟩ := List.mem_map.mp he
    simp [paymentEntry]
  unfold windowEntries
  rw [List.filter_append,hpayments,List.append_nil]
  by_cases hpays : paysFees m=true
  · rw [if_pos hpays,filter_monthlyFees s ha.1 (by omega)]
    simp only [hpays,true_and,Nat.lt_succ_iff]
  · simp [hpays]

lemma windowEntries_payments :
    (windowEntries s m a b).filter (fun e => e.type=.payment)=
      (windowPayments s m a b).map paymentEntry := by
  have hfees : (if paysFees m then (monthsBetween a.monthIndex (b.monthIndex+1)).map (monthlyFee s)
      else []).filter (fun e => e.type=.payment)=[] := by
    rw [List.filter_eq_nil_iff]
    intro e he
    split_ifs at he
    · obtain ⟨month,-,rfl⟩ := List.mem_map.mp he
      simp [monthlyFee]
    · contradiction
  have hpayments : ((windowPayments s m a b).map paymentEntry).filter (fun e => e.type=.payment)=
      (windowPayments s m a b).map paymentEntry := by
    rw [List.filter_eq_self]
    intro e he
    obtain ⟨t,-,rfl⟩ := List.mem_map.mp he
    rfl
  rw [windowEntries,List.filter_append,hfees,hpayments,List.nil_append]

/-- The balance of a member between two months. -/
def windowResult (s : Store) (m : Member) (init a b : Date) : FeeBalanceResult :=
  let startBalance := balanceAt s m init.monthIndex a.monthIndex
  let progress := sortBy (·.booking) (windowEntries s m a b)
  { startDate := a.firstOfMonth.isoformat
    startBalance := startBalance
    countFees := (amountsOf .fee progress).length
    countPayments := (amountsOf .payment progress).length
    sumFees := (amountsOf .fee progress).sum
    sumPayments := (amountsOf .payment progress).sum
    endDate := b.lastOfMonth.isoformat
    endBalance := startBalance+((windowEntries s m a b).map (·.amount)).sum
    progress := runningBalances startBalance progress }

/-- What the calculation gives for two months of the calendar. -/
lemma calculateFeeBalance_window (hdistinct : (s.fees.map (·.start)).Nodup)
    (hm : isFeeMember m=true) (hraw : initDateRaw m=some init) (hx : ReadsAs x a) (hy : ReadsAs y b)
    (ha : init.monthIndex ≤ a.monthIndex) (hab : a.monthIndex ≤ b.monthIndex)
    (hlast : b.monthIndex ≠ 119999) (hfirst : paysFees m=true → a.monthIndex ≠ 12) :
    calculateFeeBalance s today m (some x) (some y)=.ok (some (windowResult s m init a b)) := by
  simp only [calculateFeeBalance,hm,hraw,balanceStart_of_readsAs hx ha,ok_bind,
    balanceEnd_of_readsAs hy hlast hab,feesBefore_eq hdistinct init hfirst,
    feeEntries_eq hdistinct,not_true,if_false,getFeePaymentsSum_credited,getFeePaymentsList_eq]
  rfl

lemma windowResult_endBalance (ha : init.monthIndex ≤ a.monthIndex)
    (hab : a.monthIndex ≤ b.monthIndex) :
    (windowResult s m init a b).endBalance=balanceAt s m init.monthIndex (b.monthIndex+1) := by
  change balanceAt s m init.monthIndex a.monthIndex+((windowEntries s m a b).map (·.amount)).sum=_
  rw [sum_windowEntries,balanceAt_window s m ha (by omega : a.monthIndex ≤ b.monthIndex+1)]
  ring

lemma windowResult_ledger : LedgerLaw s m a b (windowResult s m init a b) := by
  have hperm := sortBy_perm (fun e : ProgressEntry => e.booking) (windowEntries s m a b)
  have hprogress : (windowResult s m init a b).progress.map (·.1)=
      sortBy (·.booking) (windowEntries s m a b) := map_runningBalances _ _
  have hsum : ((sortBy (·.booking) (windowEntries s m a b)).map (·.amount)).sum=
      ((windowEntries s m a b).map (·.amount)).sum := (hperm.map _).sum_eq
  refine ⟨rfl,rfl,?_,?_,?_,?_,?_,?_,?_,?_,?_⟩
  · have hbooking : ∀ e ∈ sortBy (·.booking) (windowEntries s m a b),∃ d : Date, e.booking=d.isoformat :=
      fun e he => (windowEntries_booking ((mem_sortBy _ _ e).mp he)).1
    obtain ⟨dates,hdates⟩ := exists_dates hbooking
    refine ⟨dates,?_,?_⟩
    · rw [← hdates,← hprogress,List.map_map]
      rfl
    · have hsorted := sortBy_sorted (fun e : ProgressEntry => e.booking) (windowEntries s m a b)
      have htexts := List.pairwise_map.mpr hsorted
      rw [hdates,List.pairwise_map] at htexts
      exact htexts.imp Date.isoformat_le_iff.mp
  · intro d
    have hmonth := hperm.filter fun e => e.type=.fee && e.booking=(d.withDay 10).isoformat
    rw [windowEntries_fees] at hmonth
    rw [hprogress]
    split_ifs at hmonth ⊢
    · exact List.perm_singleton.mp hmonth
    · exact List.perm_nil.mp hmonth
  · intro e he
    have hmem : e.1 ∈ sortBy (·.booking) (windowEntries s m a b) := by
      rw [← hprogress]
      exact List.mem_map_of_mem he
    exact (windowEntries_booking ((mem_sortBy _ _ _).mp hmem)).2
  · rw [hprogress,← windowEntries_payments]
    exact hperm.filter _
  · intro front e back h
    exact runningBalances_front h
  · intro e he
    rw [runningBalances_last he,hsum]
    rfl
  · rw [hprogress]
    rfl
  · rw [hprogress]
    rfl
  · change balanceAt s m init.monthIndex a.monthIndex+_=_
    rw [← hsum,sum_amountsOf,← add_assoc]
    rfl

/-- Before its first month the calendar has no day. -/
lemma calculateFeeBalance_january_1 (hm : isFeeMember m=true) (hraw : initDateRaw m=some init)
    (hx : ReadsAs x a) (ha : a.monthIndex=12) (hpays : paysFees m=true)
    (hinit : init.monthIndex ≤ a.monthIndex) (r : Option FeeBalanceResult) :
    calculateFeeBalance s today m (some x) (some y) ≠ .ok r := by
  intro h
  have hbefore : feesBefore s m init.firstOfMonth a.firstOfMonth=.error .overflowError := by
    rw [feesBefore,if_pos hpays,Date.predDay_firstOfMonth_error _ (by simpa using ha)]
    rfl
  simp only [calculateFeeBalance,hm,hraw,balanceStart_of_readsAs hx hinit,ok_bind,not_true,if_false,
    bind_eq_ok_iff] at h
  obtain ⟨e,-,fees,hfees,-⟩ := h
  rw [hbefore] at hfees
  contradiction

lemma calculateFeeBalance_december_9999 (hm : isFeeMember m=true) (hraw : initDateRaw m=some init)
    (hx : ReadsAs x a) (ha : init.monthIndex ≤ a.monthIndex) (hy : ReadsAs y b)
    (hlast : b.monthIndex=119999) {r : FeeBalanceResult}
    (h : calculateFeeBalance s today m (some x) (some y)=.ok (some r)) :
    r.endDate ≠ b.lastOfMonth.isoformat := by
  simp only [calculateFeeBalance,hm,hraw,balanceStart_of_readsAs hx ha,ok_bind,not_true,if_false,
    bind_eq_ok_iff] at h
  obtain ⟨e,he,fees,-,es,-,h⟩ := h
  cases h
  intro heq
  have hindex := congrArg Date.monthIndex (Date.isoformat_injective heq)
  exact balanceEnd_december_9999 hy hlast he (hindex.trans hlast)

/-- The balance of a window: the ledger is right, the end balance is the one of every window with the
same end, the start balance that of every window that ends on the day before. -/
def WindowLaw (s : Store) (today : Date) (m : Member) (init a b : Date) (x y : PyText) : Prop :=
  ∃ r, calculateFeeBalance s today m (some x) (some y)=.ok (some r) ∧ LedgerLaw s m a b r ∧
    (∀ a' x', ReadsAs x' a' → init.monthIndex ≤ a'.monthIndex → a'.monthIndex ≤ b.monthIndex →
      ∃ r', calculateFeeBalance s today m (some x') (some y)=.ok (some r') ∧
        r'.endBalance=r.endBalance) ∧
    (init.monthIndex < a.monthIndex → ∃ dayBefore, a.firstOfMonth.predDay=.ok dayBefore ∧
      ∀ a' x' y', ReadsAs x' a' → ReadsAs y' dayBefore → init.monthIndex ≤ a'.monthIndex →
        a'.monthIndex ≤ dayBefore.monthIndex →
        ∃ r', calculateFeeBalance s today m (some x') (some y')=.ok (some r') ∧
          r'.endBalance=r.startBalance)

/-- The windows of a member fit together, unless one would leave the calendar. -/
theorem windowLaw_iff (hdistinct : (s.fees.map (·.start)).Nodup) (today : Date)
    (hm : isFeeMember m=true) (hraw : initDateRaw m=some init) (hx : ReadsAs x a) (hy : ReadsAs y b)
    (ha : init.monthIndex ≤ a.monthIndex) (hab : a.monthIndex ≤ b.monthIndex) :
    WindowLaw s today m init a b x y ↔ ¬ (b.year=9999 ∧ b.month=12) ∧
      (paysFees m=true → ¬ (init.year=1 ∧ init.month=1)) := by
  rw [← monthIndex_last_iff,← monthIndex_first_iff]
  constructor
  · rintro ⟨r,hr,hledger,hend,-⟩
    constructor
    · intro hlast
      exact calculateFeeBalance_december_9999 hm hraw hx ha hy hlast hr hledger.end_date
    · intro hpays hfirst
      obtain ⟨r',hr',-⟩ := hend init init.isoformat (readsAs_isoformat init) le_rfl (ha.trans hab)
      exact calculateFeeBalance_january_1 hm hraw (readsAs_isoformat init) hfirst hpays le_rfl _ hr'
  · rintro ⟨hlast,hfirst⟩
    have hinit := init.monthIndex_bounds
    have hcalc : ∀ {a b : Date} {x y : PyText}, ReadsAs x a → ReadsAs y b →
        init.monthIndex ≤ a.monthIndex → a.monthIndex ≤ b.monthIndex → b.monthIndex ≠ 119999 →
        calculateFeeBalance s today m (some x) (some y)=.ok (some (windowResult s m init a b)) := by
      intro a b x y hx hy ha hab hlast
      refine calculateFeeBalance_window hdistinct hm hraw hx hy ha hab hlast ?_
      intro hpays h12
      have := hfirst hpays
      omega
    refine ⟨_,hcalc hx hy ha hab hlast,windowResult_ledger,?_,?_⟩
    · intro a' x' hx' ha' hab'
      refine ⟨_,hcalc hx' hy ha' hab' hlast,?_⟩
      rw [windowResult_endBalance ha' hab',windowResult_endBalance ha hab]
    · intro hlt
      obtain ⟨dayBefore,hbefore,hindex,-⟩ := Date.predDay_firstOfMonth a (by omega)
      refine ⟨dayBefore,hbefore,?_⟩
      intro a' x' y' hx' hy' ha' hab'
      have hbounds := b.monthIndex_bounds
      refine ⟨_,hcalc hx' hy' ha' hab' (by omega),?_⟩
      rw [windowResult_endBalance ha' hab',hindex]
      rfl

end Windows

theorem windowLaw_feeStore :
    WindowLaw (feeStore [feeMember 1 (Date.of 2025 1 1)]) (Date.of 2026 3 15)
      (feeMember 1 (Date.of 2025 1 1)) (Date.of 2025 1 1) (Date.of 2025 2 7) (Date.of 2025 6 15)
      (Date.of 2025 2 7).isoformat (Date.of 2025 6 15).isoformat :=
  (windowLaw_iff (by decide) (Date.of 2026 3 15) (by decide) rfl (readsAs_isoformat _)
    (readsAs_isoformat _) (by decide) (by decide)).mpr ⟨by decide,fun _ => by decide⟩

/-- A window up to December 9999 ends with the month before the current one. -/
theorem not_windowLaw_december_9999 :
    isFeeMember (feeMember 1 (Date.of 2025 1 1))=true ∧
    initDateRaw (feeMember 1 (Date.of 2025 1 1))=some (Date.of 2025 1 1) ∧
    ¬ WindowLaw (feeStore [feeMember 1 (Date.of 2025 1 1)]) (Date.of 2026 3 15)
      (feeMember 1 (Date.of 2025 1 1)) (Date.of 2025 1 1) (Date.of 2025 2 7) (Date.of 9999 12 24)
      (Date.of 2025 2 7).isoformat (Date.of 9999 12 24).isoformat := by
  refine ⟨by decide,rfl,?_⟩
  rintro ⟨r,hr,hledger,-⟩
  exact calculateFeeBalance_december_9999 (by decide) rfl (readsAs_isoformat _) (by decide)
    (readsAs_isoformat _) (by decide) hr hledger.end_date

end VbApi.P4x
