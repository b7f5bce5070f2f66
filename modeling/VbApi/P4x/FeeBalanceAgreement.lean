import VbApi.P4x.PaymentAttribution

/-! The balance list against the balance of each member. -/
namespace VbApi.P4x
open VbApi.Foundations

/-- What the keys and checks of the tables guarantee, with an IBAN on every live partner. -/
structure FeeTablesValid (s : Store) : Prop extends PartnerKeys s where
  fee_starts : (s.fees.map (·.start)).Nodup
  fee_first_of_month : ∀ f ∈ s.fees, f.start.day=1
  partner_ibans : ∀ p ∈ s.partners, p.active=true → p.iban ≠ none

/-- The list shows every member with a balance once, with the end balance that
`calculateFeeBalance` computes for its default dates, and nobody else. -/
def ListAgrees (s : Store) (today : Date) (entries : List FeeBalanceListEntry) : Prop :=
  (∀ e ∈ entries, ∃ m ∈ s.members, m.id=e.id) ∧
  ∀ m ∈ s.members, ∃ balance, calculateFeeBalance s today m=.ok balance ∧
    (entries.filter fun e => e.id=m.id).map (·.endBalance)=
      (balance.map (·.endBalance)).toList

def BalancesAgree (s : Store) (today : Date) : Prop :=
  ∃ entries, getFeeBalances s today=.ok entries ∧ ListAgrees s today entries

section DefaultDates
variable {s : Store} {today e : Date} {m : Member} {d : Date}

/-- The last day of a balance up to the end of the last month. -/
def windowEnd (defaultEndDate initDate : Date) : Date :=
  if initDate ≤ defaultEndDate then defaultEndDate else initDate.lastOfMonth

lemma monthsFrom_span (a b : Date) : ∃ months, monthsFrom a (countMonths a b)=.ok months := by
  have := b.monthIndex_bounds
  apply monthsFrom_ok
  rw [countMonths_eq]
  omega

lemma memberEndDate_ok (h : d.monthIndex ≠ 119999) :
    memberEndDate e d.firstOfMonth=.ok (windowEnd e d.firstOfMonth) := by
  unfold memberEndDate windowEnd
  split_ifs with hle
  · rfl
  · exact endOfMonth_ok _ (by simpa using h)

/-- The months of a balance cost the list and the balance of one member the same. -/
lemma fees_agree (s : Store) (m : Member) (hfees : ∀ f ∈ s.fees, f.start.day=1) (a b : Date) :
    ∃ es fees, feeEntries s m a b=.ok es ∧
      memberFeeSum ((getAllFees s).map (·.start.firstOfMonth)) ((getAllFees s).map (·.fee)) m a b=
        .ok fees ∧
      (es.map (·.amount)).sum=-fees := by
  have hstarts : (getAllFees s).map (·.start.firstOfMonth)=(getAllFees s).map (·.start) := by
    apply List.map_congr_left
    intro f hf
    exact Date.firstOfMonth_eq_self (hfees f ((mem_sortBy _ _ f).mp hf))
  rw [hstarts]
  unfold feeEntries memberFeeSum
  split_ifs with hpays
  · obtain ⟨months,hmonths⟩ := monthsFrom_span a b
    rw [hmonths,sumFeesForPeriod,hmonths]
    refine ⟨_,_,rfl,rfl,?_⟩
    clear hmonths
    rw [List.map_map]
    induction months with
    | nil => rfl
    | cons month months ih =>
      simp only [Function.comp_def,feeStepFunction,List.map_cons,List.sum_cons] at ih ⊢
      rw [ih]
      ring
  · exact ⟨[],0,rfl,rfl,rfl⟩

lemma memberFeeState_error (hraw : initDateRaw m=some d) (h : d.monthIndex=119999)
    (he : e.monthIndex < 119999) (starts : List Date) (fees : List Cents) :
    memberFeeState starts fees e m=.error .valueError := by
  have hlate : ¬ d.firstOfMonth ≤ e := by
    rw [Date.le_iff_of_day_one rfl,Date.firstOfMonth_monthIndex]
    omega
  simp only [memberFeeState,hraw]
  rw [memberEndDate,if_neg hlate,endOfMonth_error _ (by simpa using h)]
  rfl

lemma feesBefore_default (h : paysFees m=true → d.monthIndex ≠ 12) :
    feesBefore s m d.firstOfMonth d.firstOfMonth=.ok 0 := by
  unfold feesBefore
  split_ifs with hpays
  · have hd := d.monthIndex_bounds
    have h12 := h hpays
    obtain ⟨prev,hprev,hindex,-⟩ := Date.predDay_firstOfMonth d.firstOfMonth
      (by rw [Date.firstOfMonth_monthIndex]; omega)
    have hcount : countMonths d.firstOfMonth prev ≤ 0 := by
      rw [countMonths_eq]
      omega
    rw [hprev]
    change sumFeesForPeriod _ _ _ _=_
    rw [sumFeesForPeriod,monthsFrom_nonpos _ hcount]
    rfl
  · rfl

lemma balanceStart_default (initDate : Date) : balanceStart initDate none=.ok initDate := by
  simp [balanceStart]

lemma balanceEnd_default (he : prevMonthEnd today=.ok e) (h : d.monthIndex ≠ 119999) :
    balanceEnd today d.firstOfMonth none=.ok (windowEnd e d.firstOfMonth) := by
  rw [← memberEndDate_ok h,memberEndDate]
  simp only [balanceEnd,he,ok_bind,pure_eq_ok]
  by_cases hlt : e < d.firstOfMonth
  · rw [if_pos hlt,if_neg (not_le.mpr hlt)]
  · rw [if_neg hlt,if_pos (not_lt.mp hlt)]

lemma hasPartner_eq_hasIban (hvalid : FeeTablesValid s) (m : Member) : hasPartner s m=hasIban s m := by
  rw [Bool.eq_iff_iff,hasPartner,hasIban,decide_eq_true_eq,List.any_eq_true]
  constructor
  · intro hne
    obtain ⟨iban,hiban⟩ := List.exists_mem_of_ne_nil _ hne
    obtain ⟨p,hp,ha,rfl,-⟩ := (mem_partnerIbans m _).mp hiban
    exact ⟨_,hiban,Option.isSome_iff_ne_none.mpr (hvalid.partner_ibans p hp ha)⟩
  · rintro ⟨iban,hiban,-⟩
    exact List.ne_nil_of_mem hiban

/-- Inside the calendar both paths compute a balance, and the same one. -/
lemma balance_agrees (hfees : ∀ f ∈ s.fees, f.start.day=1) (hm : isFeeMember m=true)
    (hraw : initDateRaw m=some d) (he : prevMonthEnd today=.ok e) (hlast : d.monthIndex ≠ 119999)
    (hfirst : paysFees m=true → d.monthIndex ≠ 12) :
    ∃ balance fees, calculateFeeBalance s today m=.ok (some balance) ∧
      memberFeeState ((getAllFees s).map (·.start.firstOfMonth)) ((getAllFees s).map (·.fee)) e m=
        .ok (some ⟨d.firstOfMonth,windowEnd e d.firstOfMonth,fees,0⟩) ∧
      balance.endBalance=m.p4xInitBalance.getD 0-fees+
        creditedSum s m (hasPartner s m) fun b => d.firstOfMonth ≤ b && b ≤ windowEnd e d.firstOfMonth := by
  obtain ⟨es,fees,hes,hsum,hamounts⟩ := fees_agree s m hfees d.firstOfMonth (windowEnd e d.firstOfMonth)
  have hnone : creditedSum s m (hasPartner s m)
      (fun b => d.firstOfMonth ≤ b && b < d.firstOfMonth)=0 := by
    have : ∀ b : Date, (decide (d.firstOfMonth ≤ b) && decide (b < d.firstOfMonth))=false := by
      intro b
      by_cases hb : d.firstOfMonth ≤ b
      · simp [not_lt.mpr hb]
      · simp [hb]
    simp [creditedSum,incomingIn,this]
  have hstate : memberFeeState ((getAllFees s).map (·.start.firstOfMonth))
      ((getAllFees s).map (·.fee)) e m=
        .ok (some ⟨d.firstOfMonth,windowEnd e d.firstOfMonth,fees,0⟩) := by
    simp only [memberFeeState,hraw,memberEndDate_ok hlast,ok_bind,hsum,pure_eq_ok]
  simp only [calculateFeeBalance,hm,hraw,balanceStart_default,ok_bind,balanceEnd_default he hlast,
    feesBefore_default hfirst,hes,not_true,if_false]
  refine ⟨_,fees,rfl,hstate,?_⟩
  rw [List.map_append,List.sum_append,hamounts,getFeePaymentsList_sum,getFeePaymentsSum_eq,hnone]
  ring

/-- Outside the calendar the balance of one member raises. -/
lemma calculateFeeBalance_error (hm : isFeeMember m=true) (hraw : initDateRaw m=some d)
    (he : prevMonthEnd today=.ok e)
    (h : d.monthIndex=119999 ∨ (paysFees m=true ∧ d.monthIndex=12)) :
    ∃ err, calculateFeeBalance s today m=.error err := by
  simp only [calculateFeeBalance,hm,hraw,balanceStart_default,ok_bind,not_true,if_false]
  cases hend : balanceEnd today d.firstOfMonth none with
  | error err => exact ⟨err,rfl⟩
  | ok last =>
    rcases h with h | ⟨hpays,h⟩
    · exfalso
      have hlate : e < d.firstOfMonth := by
        obtain ⟨e',he',hindex,-⟩ := prevMonthEnd_ok today (by
          intro h12
          rw [prevMonthEnd_error h12] at he
          contradiction)
        rw [he] at he'
        cases he'
        have := today.monthIndex_bounds
        rw [Date.lt_iff_of_day_one rfl,Date.firstOfMonth_monthIndex]
        omega
      simp only [balanceEnd,he,pure_eq_ok] at hend
      rw [ok_bind,if_pos hlate,endOfMonth_error _ (by simpa using h)] at hend
      contradiction
    · have hbefore : feesBefore s m d.firstOfMonth d.firstOfMonth=.error .overflowError := by
        rw [feesBefore,if_pos hpays,Date.predDay_firstOfMonth_error _ (by simpa using h)]
        rfl
      exact ⟨_,by rw [ok_bind,hbefore,error_bind]⟩

end DefaultDates

/-- Neither today's previous month nor a month of the fee members' balances leaves the calendar:
no balance starts in its last month, none that counts fees in its first. -/
def InsideCalendar (s : Store) (today : Date) : Prop :=
  ¬ (today.year=1 ∧ today.month=1) ∧ ∀ m ∈ s.members, isFeeMember m=true → ∀ d ∈ initDateRaw m,
    ¬ (d.year=9999 ∧ d.month=12) ∧ (paysFees m=true → ¬ (d.year=1 ∧ d.month=1))

lemma monthIndex_first_iff (d : Date) : d.monthIndex=12 ↔ d.year=1 ∧ d.month=1 := by
  have h₁ := d.year_pos
  have h₂ := d.month_pos
  have h₃ := d.month_le
  simp only [Date.monthIndex]
  omega

lemma monthIndex_last_iff (d : Date) : d.monthIndex=119999 ↔ d.year=9999 ∧ d.month=12 := by
  have h₁ := d.year_le
  have h₂ := d.month_pos
  have h₃ := d.month_le
  simp only [Date.monthIndex]
  omega

lemma calculateFeeBalance_none {s : Store} {today : Date} {m : Member}
    (h : isFeeMember m=true → initDateRaw m=none) : calculateFeeBalance s today m=.ok none := by
  unfold calculateFeeBalance
  split_ifs with hm
  · rw [h hm]
    rfl
  · rfl

/-- The entries of a list with one row for each member at most. -/
lemma filter_filterMap_id {ms : List Member} (hids : (ms.map (·.id)).Nodup)
    (states : Dict Uuid MemberFeeState) (m : Member) :
    (m ∈ ms → (ms.filterMap (balanceListEntry states)).filter (fun e => e.id=m.id)=
      (balanceListEntry states m).toList) ∧
    (m.id ∉ ms.map (·.id) →
      (ms.filterMap (balanceListEntry states)).filter (fun e => e.id=m.id)=[]) := by
  have hid : ∀ m e, balanceListEntry states m=some e → e.id=m.id := by
    intro m e he
    obtain ⟨st,-,rfl⟩ := Option.map_eq_some_iff.mp he
    rfl
  have hother : ∀ ms : List Member, m.id ∉ ms.map (·.id) →
      (ms.filterMap (balanceListEntry states)).filter (fun e => e.id=m.id)=[] := by
    intro ms hm
    rw [List.filter_eq_nil_iff]
    intro e he
    obtain ⟨m',hm',hentry⟩ := List.mem_filterMap.mp he
    rw [decide_eq_true_eq,hid m' e hentry]
    exact fun heq => hm (heq ▸ List.mem_map_of_mem hm')
  refine ⟨?_,hother ms⟩
  intro hm
  induction ms with
  | nil => simp at hm
  | cons m' ms ih =>
    simp only [List.map_cons,List.nodup_cons] at hids
    rcases List.mem_cons.mp hm with rfl | hm
    · cases hentry : balanceListEntry states m with
      | none => simpa [List.filterMap_cons,hentry] using hother ms hids.1
      | some e => simpa [List.filterMap_cons,hentry,hid m e hentry] using hother ms hids.1
    · have hne : m'.id ≠ m.id := fun he => hids.1 (he ▸ List.mem_map_of_mem hm)
      cases hentry : balanceListEntry states m' with
      | none => simpa [List.filterMap_cons,hentry] using ih hids.2 hm
      | some e => simpa [List.filterMap_cons,hentry,hid m' e hentry,hne] using ih hids.2 hm

/-- What the loop over the fee members stores inside the calendar. -/
lemma memberFeeState_inside {s : Store} {today e : Date} (hvalid : FeeTablesValid s)
    (hinside : InsideCalendar s today) (he : prevMonthEnd today=.ok e) {m : Member}
    (hm : m ∈ getFeeMembers s) :
    ∃ state balance, memberFeeState ((getAllFees s).map (·.start.firstOfMonth))
        ((getAllFees s).map (·.fee)) e m=.ok state ∧
      calculateFeeBalance s today m=.ok balance ∧ state.isSome=balance.isSome ∧
      ∀ st b, state=some st → balance=some b → st.paymentSum=0 ∧
        b.endBalance=m.p4xInitBalance.getD 0-st.feeSum+
          creditedSum s m (hasIban s m) fun d => st.initDate ≤ d && d ≤ st.endDate := by
  obtain ⟨hmem,hfee⟩ := (mem_getFeeMembers s m).mp hm
  cases hraw : initDateRaw m with
  | none =>
    refine ⟨none,none,by simp [memberFeeState,hraw],calculateFeeBalance_none fun _ => hraw,rfl,?_⟩
    intro st b hst
    contradiction
  | some d =>
    obtain ⟨hlast,hfirst⟩ := hinside.2 m hmem hfee d hraw
    rw [← monthIndex_last_iff] at hlast
    rw [← monthIndex_first_iff] at hfirst
    obtain ⟨balance,fees,hcalc,hstate,hend⟩ :=
      balance_agrees hvalid.fee_first_of_month hfee hraw he hlast hfirst
    refine ⟨_,_,hstate,hcalc,rfl,?_⟩
    intro st b hst hb
    cases hst
    cases hb
    refine ⟨rfl,?_⟩
    rw [← hasPartner_eq_hasIban hvalid]
    exact hend

/-- Inside the calendar the list shows the balance of each member. -/
lemma balancesAgree_inside {s : Store} {today : Date} (hvalid : FeeTablesValid s)
    (hinside : InsideCalendar s today) : BalancesAgree s today := by
  obtain ⟨e,he,-,-⟩ := prevMonthEnd_ok today (by
    rw [ne_eq,monthIndex_first_iff]
    exact hinside.1)
  have hids : ((getFeeMembers s).map (·.id)).Nodup :=
    hvalid.member_ids.sublist (List.filter_sublist.map _)
  have hstate := fun m hm => memberFeeState_inside (m := m) hvalid hinside he hm
  obtain ⟨states,hstates⟩ := buildMemberStates_total _ _ _
    (fun m hm => (hstate m hm).imp fun r h => h.choose_spec.1) Dict.empty
  obtain ⟨hget,-⟩ := buildMemberStates_ok _ _ _ hids hstates
  obtain ⟨credited,hpass,hcredited⟩ := creditedStates_ok hvalid.toPartnerKeys he hstates
  refine ⟨_,by rw [getFeeBalances,hpass]; rfl,?_,?_⟩
  · intro entry hentry
    rw [mem_sortBy,List.mem_filterMap] at hentry
    obtain ⟨m,hm,hentry⟩ := hentry
    obtain ⟨st,-,rfl⟩ := Option.map_eq_some_iff.mp hentry
    exact ⟨m,((mem_getFeeMembers s m).mp hm).1,rfl⟩
  · intro m hm
    have hperm := ((sortBy_perm (fun x : FeeBalanceListEntry => x.endBalance)
      ((getFeeMembers s).filterMap (balanceListEntry credited))).filter fun x => x.id=m.id).map
        (·.endBalance)
    obtain ⟨hlisted,hunlisted⟩ := filter_filterMap_id hids credited m
    by_cases hfee : isFeeMember m=true
    · have hmem := (mem_getFeeMembers s m).mpr ⟨hm,hfee⟩
      obtain ⟨state,balance,hms,hcalc,hsome,hend⟩ := hstate m hmem
      obtain ⟨r,hr,hgetm⟩ := hget m hmem
      rw [hms] at hr
      cases hr
      have hcred := hcredited m hmem
      rw [hgetm] at hcred
      rw [hlisted hmem] at hperm
      refine ⟨balance,hcalc,?_⟩
      cases state with
      | none =>
        cases balance with
        | some b => simp at hsome
        | none => simpa [balanceListEntry,hcred] using hperm
      | some st =>
        cases balance with
        | none => simp at hsome
        | some b =>
          obtain ⟨hzero,hend⟩ := hend st b rfl rfl
          have hentry : balanceListEntry credited m=some ⟨m.id,m.cn,m.p4xFreed.getD false,
              b.endBalance⟩ := by
            rw [balanceListEntry,hcred,hend]
            simp [hzero]
          rw [hentry] at hperm
          exact List.perm_singleton.mp hperm
    · have hnot : m.id ∉ (getFeeMembers s).map (·.id) := by
        intro hin
        obtain ⟨m',hm',hid⟩ := List.mem_map.mp hin
        obtain ⟨hmem',hfee'⟩ := (mem_getFeeMembers s m').mp hm'
        have : m'=m := List.inj_on_of_nodup_map hvalid.member_ids hmem' hm hid
        exact hfee (this ▸ hfee')
      refine ⟨none,calculateFeeBalance_none fun h => absurd h hfee,?_⟩
      rw [hunlisted hnot] at hperm
      simpa using hperm

/-- Outside the calendar the list, or the balance of some member, raises. -/
lemma insideCalendar_of_balancesAgree {s : Store} {today : Date} (h : BalancesAgree s today) :
    InsideCalendar s today := by
  obtain ⟨entries,hentries,-,hall⟩ := h
  have htoday : today.monthIndex ≠ 12 := by
    intro h12
    rw [getFeeBalances,creditedStates,prevMonthEnd_error h12] at hentries
    contradiction
  obtain ⟨e,he,-,-⟩ := prevMonthEnd_ok _ htoday
  refine ⟨by rwa [← monthIndex_first_iff],?_⟩
  intro m hm hfee d hraw
  rw [← monthIndex_last_iff,← monthIndex_first_iff]
  obtain ⟨balance,hcalc,-⟩ := hall m hm
  by_contra hout
  have hcase : d.monthIndex=119999 ∨ (paysFees m=true ∧ d.monthIndex=12) := by
    by_contra hcase
    rw [not_or,not_and] at hcase
    exact hout hcase
  obtain ⟨err,herr⟩ := calculateFeeBalance_error hfee hraw he hcase
  rw [herr] at hcalc
  contradiction

/-- A fee member whose balance starts in the last month of the calendar makes the list raise. -/
lemma getFeeBalances_raises {s : Store} (hids : (s.members.map (·.id)).Nodup) (today : Date)
    {m : Member} (hm : m ∈ getFeeMembers s) {d : Date} (hraw : initDateRaw m=some d)
    (hlast : d.monthIndex=119999) (entries : List FeeBalanceListEntry) :
    getFeeBalances s today ≠ .ok entries := by
  intro hok
  obtain ⟨credited,hpass,-⟩ := bind_eq_ok_iff.mp hok
  obtain ⟨e,he,hrest⟩ := bind_eq_ok_iff.mp hpass
  obtain ⟨states,hstates,-⟩ := bind_eq_ok_iff.mp hrest
  have htoday : today.monthIndex ≠ 12 := by
    intro h12
    rw [prevMonthEnd_error h12] at he
    contradiction
  obtain ⟨e',he',hindex,-⟩ := prevMonthEnd_ok _ htoday
  rw [he] at he'
  cases he'
  have hbound := today.monthIndex_bounds
  obtain ⟨hget,-⟩ := buildMemberStates_ok _ _ _ (hids.sublist (List.filter_sublist.map _)) hstates
  obtain ⟨r,hr,-⟩ := hget m hm
  rw [memberFeeState_error hraw hlast (by omega)] at hr
  contradiction

/-- The list agrees with the balances of the members exactly inside the calendar. -/
theorem balancesAgree_iff {s : Store} (today : Date) (hvalid : FeeTablesValid s) :
    BalancesAgree s today ↔ InsideCalendar s today :=
  ⟨insideCalendar_of_balancesAgree,balancesAgree_inside hvalid⟩

/-- A fee member whose balance starts on the given day. -/
def feeMember (id : Uuid) (initDate : Date) : Member where
  id := id
  vorname := some (text "Anna")
  nachname := some (text "Beispiel")
  couleurname := none
  orgId := some (text "vbw")
  stateId := some (text "up")
  entlassen := false
  verstorben := false
  philistrierungsdatum := none
  p4xInitDate := some initDate
  p4xInitBalance := some 500
  p4xFreed := none

/-- A fee of 10.00 from January 2025, and a payment of 25.00 that a category filter hits. -/
def feeStore (members : List Member) : Store where
  members := members
  accounts := [⟨10,none,0,none⟩]
  categories := [⟨20,feeCategoryName⟩]
  filters := [⟨30,text "Beitrag",10,none,none,none,some (text "Beitrag"),.contains,20⟩]
  filterHits := [⟨30,40⟩]
  directs := []
  fees := [⟨Date.of 2025 1 1,1000⟩]
  partners := [⟨some (text "AT1"),some 1,none,none,none,none⟩]
  transactions := [⟨40,"h",Date.of 2025 2 3,Date.of 2025 2 3,text "AT1",2500,text "Beitrag",10,none,
    none,none,none,"{}",none⟩]
  nextUuid := 50

theorem balancesAgree_feeStore :
    BalancesAgree (feeStore [feeMember 1 (Date.of 2025 1 1),feeMember 2 (Date.of 2025 3 1)])
      (Date.of 2026 3 15) :=
  (balancesAgree_iff (Date.of 2026 3 15) ⟨⟨by decide,by decide⟩,by decide,by decide,by decide⟩).mpr
    (by unfold InsideCalendar; decide)

/-- The members of `feeStore` with a balance that starts in the last month of the calendar. -/
def lateMembers : List Member := [feeMember 1 (Date.of 2025 1 1),feeMember 2 (Date.of 9999 12 1)]

/-- The list raises because of the second member, while the first one has a balance. -/
theorem not_balancesAgree_december_9999 :
    FeeTablesValid (feeStore lateMembers) ∧
    (∃ balance, calculateFeeBalance (feeStore lateMembers) (Date.of 2026 3 15)
      (feeMember 1 (Date.of 2025 1 1))=.ok (some balance)) ∧
    (∀ entries, getFeeBalances (feeStore lateMembers) (Date.of 2026 3 15) ≠ .ok entries) ∧
    ¬ BalancesAgree (feeStore lateMembers) (Date.of 2026 3 15) := by
  have hvalid : FeeTablesValid (feeStore lateMembers) :=
    ⟨⟨by decide,by decide⟩,by decide,by decide,by decide⟩
  have hraises : ∀ entries, getFeeBalances (feeStore lateMembers) (Date.of 2026 3 15) ≠ .ok entries :=
    getFeeBalances_raises hvalid.member_ids _ (m := feeMember 2 (Date.of 9999 12 1)) (by decide)
      (d := Date.of 9999 12 1) rfl rfl
  obtain ⟨e,he,-,-⟩ := prevMonthEnd_ok (Date.of 2026 3 15) (by decide)
  obtain ⟨balance,fees,hcalc,-,-⟩ := balance_agrees hvalid.fee_first_of_month
    (m := feeMember 1 (Date.of 2025 1 1)) (d := Date.of 2025 1 1) (by decide) rfl he (by decide)
    (by decide)
  refine ⟨hvalid,⟨balance,hcalc⟩,hraises,?_⟩
  rintro ⟨entries,hentries,-⟩
  exact hraises entries hentries

end VbApi.P4x
