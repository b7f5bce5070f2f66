import VbApi.Foundations.Dict
import VbApi.P4x.FeeBalance

/-! The balance list of all fee members, computed in one pass over the transactions. -/
namespace VbApi.P4x
open VbApi.Foundations

def getFeeMembers (s : Store) : List Member :=
  s.members.filter fun m => m.orgId=some (text "vbw") && m.stateId=some (text "up") &&
    m.entlassen=false && m.verstorben=false

def Member.cn (m : Member) : PyText :=
  let name := strip (m.vorname.getD [] ++ text " " ++ m.nachname.getD [])
  let couleurname := m.couleurname.getD []
  let honorific := if m.verstorben || m.entlassen then text "wl." else text "v/o"
  let full := if name ≠ [] ∧ couleurname ≠ [] then
      name ++ text " " ++ honorific ++ text " " ++ couleurname
    else if couleurname ≠ [] then couleurname else name
  join (text " ") (splitWords full)

/-- Per-member working state accumulated during the pass. -/
structure MemberFeeState where
  initDate : Date
  endDate : Date
  feeSum : Cents
  paymentSum : Cents

structure FeeCategoryTxRow where
  iban : PyText
  booking : Date
  amount : Cents
  delegatingMemberId : Option Uuid
  noDelegation : Bool

structure FeeBalanceListEntry where
  id : Uuid
  cn : PyText
  p4xFreed : Bool
  endBalance : Cents

def memberEndDate (defaultEndDate initDate : Date) : Except DateError Date :=
  if initDate ≤ defaultEndDate then .ok defaultEndDate else endOfMonth initDate

def memberFeeSum (monthStarts : List Date) (monthFees : List Cents) (m : Member)
    (initDate endDate : Date) : Except DateError Cents :=
  if paysFees m then sumFeesForPeriod monthStarts monthFees initDate (countMonths initDate endDate)
  else .ok 0

/-- The state of one member, or nothing when the member has no usable init date. -/
def memberFeeState (monthStarts : List Date) (monthFees : List Cents) (defaultEndDate : Date)
    (m : Member) : Except DateError (Option MemberFeeState) :=
  match initDateRaw m with
  | none => return none
  | some raw => do
    let initDate := raw.firstOfMonth
    let endDate ← memberEndDate defaultEndDate initDate
    let feeSum ← memberFeeSum monthStarts monthFees m initDate endDate
    return some ⟨initDate,endDate,feeSum,0⟩

def addMemberState (monthStarts : List Date) (monthFees : List Cents) (defaultEndDate : Date)
    (states : Dict Uuid MemberFeeState) (m : Member) : Except DateError (Dict Uuid MemberFeeState) := do
  match ← memberFeeState monthStarts monthFees defaultEndDate m with
  | none => return states
  | some st => return states.set m.id st

def buildMemberStates (feeMembers : List Member) (monthStarts : List Date) (monthFees : List Cents)
    (defaultEndDate : Date) : Except DateError (Dict Uuid MemberFeeState) :=
  feeMembers.foldlM (addMemberState monthStarts monthFees defaultEndDate) Dict.empty

/-- The pair of a live partner row that belongs to one of the given members. -/
def ibanOfMember (memberIds : List Uuid) (p : P4xPartner) : Option (PyText × Uuid) :=
  match p.iban,p.memberId with
  | some iban,some id => if id ∈ memberIds ∧ p.active then some (iban,id) else none
  | _,_ => none

/-- The owner of every IBAN of the given members. -/
def ibanToMemberIdMap (s : Store) (memberIds : List Uuid) : Dict PyText Uuid :=
  Dict.ofPairs (s.partners.filterMap (ibanOfMember memberIds))

def fetchFeeCategoryTransactions (s : Store) (txIds : Finset Uuid) (bookingFrom bookingTo : Date) :
    List FeeCategoryTxRow :=
  if txIds=∅ then []
  else (s.transactions.filter fun t => t.active && 0 < t.amount && t.id ∈ txIds &&
    bookingFrom ≤ t.booking && t.booking ≤ bookingTo).map
      fun t => ⟨t.iban,t.booking,t.amount,t.delegatingMemberId,noDelegationFilter t⟩

/-- The member that a payment belongs to. A delegation to a member without any own IBAN is not
credited, as the balance of one member has it. -/
def paymentTarget (ibanMap : Dict PyText Uuid) (row : FeeCategoryTxRow) : Option Uuid :=
  let targetId := match row.delegatingMemberId with
    | some id => if id ∈ ibanMap.values then some id else none
    | none => none
  if targetId=none ∧ row.noDelegation then ibanMap.get? row.iban else targetId

def attributePayment (ibanMap : Dict PyText Uuid) (states : Dict Uuid MemberFeeState)
    (row : FeeCategoryTxRow) : Dict Uuid MemberFeeState :=
  match paymentTarget ibanMap row with
  | none => states
  | some id =>
    match states.get? id with
    | none => states
    | some st =>
      if st.initDate ≤ row.booking ∧ row.booking ≤ st.endDate then
        states.set id { st with paymentSum := st.paymentSum+row.amount }
      else states

def balanceListEntry (states : Dict Uuid MemberFeeState) (m : Member) : Option FeeBalanceListEntry :=
  (states.get? m.id).map fun st =>
    { id := m.id
      cn := m.cn
      p4xFreed := m.p4xFreed.getD false
      endBalance := m.p4xInitBalance.getD 0-st.feeSum+st.paymentSum }

/-- The member states after the pass over the payments. -/
def creditedStates (s : Store) (today : Date) : Except DateError (Dict Uuid MemberFeeState) := do
  let feeMembers := getFeeMembers s
  let monthStarts := (getAllFees s).map (·.start.firstOfMonth)
  let monthFees := (getAllFees s).map (·.fee)
  let defaultEndDate ← prevMonthEnd today
  let states ← buildMemberStates feeMembers monthStarts monthFees defaultEndDate
  if h : states.values=[] then return states
  else
    let memberIds := (feeMembers.filter fun m => m.id ∈ states.keys).map (·.id)
    let ibanMap := ibanToMemberIdMap s memberIds
    let bookingFrom := (states.values.map (·.initDate)).min (by simpa using h)
    let bookingTo := (states.values.map (·.endDate)).max (by simpa using h)
    let txRows := fetchFeeCategoryTransactions s (feeCategoryTxIds s) bookingFrom bookingTo
    return txRows.foldl (attributePayment ibanMap) states

/-- The fee balance of every fee member up to the end of the last month, lowest first. -/
def getFeeBalances (s : Store) (today : Date) : Except DateError (List FeeBalanceListEntry) := do
  let states ← creditedStates s today
  return sortBy (·.endBalance) ((getFeeMembers s).filterMap (balanceListEntry states))

lemma mem_getFeeMembers (s : Store) (m : Member) :
    m ∈ getFeeMembers s ↔ m ∈ s.members ∧ isFeeMember m=true := by
  simp [getFeeMembers,isFeeMember]

lemma ibanOfMember_eq_some_iff (memberIds : List Uuid) (p : P4xPartner) (iban : PyText) (id : Uuid) :
    ibanOfMember memberIds p=some (iban,id) ↔
      id ∈ memberIds ∧ p.active=true ∧ p.iban=some iban ∧ p.memberId=some id := by
  unfold ibanOfMember
  cases p.iban <;> cases p.memberId <;> simp
  constructor
  · rintro ⟨⟨hmem,ha⟩,rfl,rfl⟩
    exact ⟨hmem,ha,rfl,rfl⟩
  · rintro ⟨hmem,ha,rfl,rfl⟩
    exact ⟨⟨hmem,ha⟩,rfl,rfl⟩

section Loop
variable (monthStarts : List Date) (monthFees : List Cents) (defaultEndDate : Date)

lemma addMemberState_ok {states states' : Dict Uuid MemberFeeState} {m : Member}
    (h : addMemberState monthStarts monthFees defaultEndDate states m=.ok states') :
    ∃ r, memberFeeState monthStarts monthFees defaultEndDate m=.ok r ∧
      states'.get? m.id=(r <|> states.get? m.id) ∧
      ∀ id, id ≠ m.id → states'.get? id=states.get? id := by
  unfold addMemberState at h
  cases hm : memberFeeState monthStarts monthFees defaultEndDate m with
  | error e =>
    rw [hm] at h
    contradiction
  | ok r =>
    rw [hm] at h
    cases r with
    | none =>
      cases h
      exact ⟨none,rfl,rfl,fun _ _ => rfl⟩
    | some st =>
      cases h
      refine ⟨some st,rfl,by simp,?_⟩
      intro id hid
      exact Dict.get?_set_of_ne _ hid _

/-- The loop gives every member its own state. -/
lemma buildMemberStates_ok {ms : List Member} (hids : (ms.map (·.id)).Nodup)
    {states states' : Dict Uuid MemberFeeState}
    (h : ms.foldlM (addMemberState monthStarts monthFees defaultEndDate) states=.ok states') :
    (∀ m ∈ ms, ∃ r, memberFeeState monthStarts monthFees defaultEndDate m=.ok r ∧
      states'.get? m.id=(r <|> states.get? m.id)) ∧
    ∀ id, id ∉ ms.map (·.id) → states'.get? id=states.get? id := by
  induction ms generalizing states with
  | nil =>
    cases h
    exact ⟨by simp,fun _ _ => rfl⟩
  | cons m ms ih =>
    simp only [List.map_cons,List.nodup_cons] at hids
    rw [List.foldlM_cons] at h
    cases hm : addMemberState monthStarts monthFees defaultEndDate states m with
    | error e =>
      rw [hm] at h
      contradiction
    | ok mid =>
      rw [hm] at h
      obtain ⟨r,hr,hself,hother⟩ := addMemberState_ok _ _ _ hm
      obtain ⟨hall,hrest⟩ := ih hids.2 h
      refine ⟨?_,?_⟩
      · intro m' hm'
        rcases List.mem_cons.mp hm' with rfl | hm'
        · exact ⟨r,hr,by rw [hrest _ hids.1,hself]⟩
        · obtain ⟨r',hr',hget⟩ := hall m' hm'
          have hne : m'.id ≠ m.id := fun he => hids.1 (he ▸ List.mem_map_of_mem hm')
          exact ⟨r',hr',by rw [hget,hother _ hne]⟩
      · intro id hid
        simp only [List.map_cons,List.mem_cons,not_or] at hid
        rw [hrest id hid.2,hother id hid.1]

/-- The loop raises only when the state of a member raises. -/
lemma buildMemberStates_total {ms : List Member}
    (h : ∀ m ∈ ms, ∃ r, memberFeeState monthStarts monthFees defaultEndDate m=.ok r)
    (states : Dict Uuid MemberFeeState) :
    ∃ states', ms.foldlM (addMemberState monthStarts monthFees defaultEndDate) states=.ok states' := by
  induction ms generalizing states with
  | nil => exact ⟨states,rfl⟩
  | cons m ms ih =>
    obtain ⟨r,hr⟩ := h m List.mem_cons_self
    have hstep : ∃ mid, addMemberState monthStarts monthFees defaultEndDate states m=.ok mid := by
      unfold addMemberState
      rw [hr]
      cases r with
      | none => exact ⟨_,rfl⟩
      | some st => exact ⟨_,rfl⟩
    obtain ⟨mid,hmid⟩ := hstep
    obtain ⟨states',hstates⟩ := ih (fun m' hm' => h m' (List.mem_cons_of_mem _ hm')) mid
    exact ⟨states',by rw [List.foldlM_cons,hmid]; exact hstates⟩

end Loop

/-- The amounts of the rows that belong to a member and were booked in its window. -/
def attributedSum (ibanMap : Dict PyText Uuid) (id : Uuid) (st : MemberFeeState)
    (rows : List FeeCategoryTxRow) : Cents :=
  ((rows.filter fun row => paymentTarget ibanMap row=some id &&
    st.initDate ≤ row.booking && row.booking ≤ st.endDate).map (·.amount)).sum

lemma attributedSum_singleton (ibanMap : Dict PyText Uuid) (id : Uuid) (st : MemberFeeState)
    (row : FeeCategoryTxRow) :
    attributedSum ibanMap id st [row]=if paymentTarget ibanMap row=some id ∧
      st.initDate ≤ row.booking ∧ row.booking ≤ st.endDate then row.amount else 0 := by
  split_ifs with h
  · simp [attributedSum,h]
  · have hp : (paymentTarget ibanMap row=some id && decide (st.initDate ≤ row.booking) &&
        decide (row.booking ≤ st.endDate))=false := by
      simpa [and_assoc] using h
    rw [attributedSum,List.filter_cons_of_neg (by rw [hp]; simp)]
    rfl

/-- One row credits its target, when the row was booked in the window, and nobody else. -/
lemma attributePayment_get? (ibanMap : Dict PyText Uuid) (states : Dict Uuid MemberFeeState)
    (row : FeeCategoryTxRow) (id : Uuid) :
    (attributePayment ibanMap states row).get? id=(states.get? id).map fun st =>
      { st with paymentSum := st.paymentSum+attributedSum ibanMap id st [row] } := by
  simp only [attributedSum_singleton]
  unfold attributePayment
  cases htarget : paymentTarget ibanMap row with
  | none => simp
  | some target =>
    dsimp only
    by_cases hid : target=id
    · subst hid
      cases hst : states.get? target with
      | none => simp [hst]
      | some st =>
        dsimp only
        split_ifs with hwindow
        · simp [hwindow]
        · simp [hst,hwindow]
    · have hframe : ∀ st : MemberFeeState, (states.set target st).get? id=states.get? id :=
        Dict.get?_set_of_ne _ (Ne.symm hid)
      cases states.get? target with
      | none => simp [hid]
      | some st =>
        dsimp only
        split_ifs with hwindow
        · simp [hid,hframe]
        · simp [hid]

/-- After the pass every member has the sum of its own rows. -/
lemma attributePayments_get? (ibanMap : Dict PyText Uuid) (rows : List FeeCategoryTxRow)
    (states : Dict Uuid MemberFeeState) (id : Uuid) :
    (rows.foldl (attributePayment ibanMap) states).get? id=(states.get? id).map fun st =>
      { st with paymentSum := st.paymentSum+attributedSum ibanMap id st rows } := by
  induction rows generalizing states with
  | nil => cases hst : states.get? id <;> simp [attributedSum,hst]
  | cons row rows ih =>
    rw [List.foldl_cons,ih,attributePayment_get?,Option.map_map]
    congr 1
    funext st
    simp only [Function.comp,MemberFeeState.mk.injEq,true_and]
    have hsplit : attributedSum ibanMap id st (row::rows)=
        attributedSum ibanMap id st [row]+attributedSum ibanMap id st rows := by
      simp only [attributedSum]
      rw [← List.singleton_append,List.filter_append,List.map_append,List.sum_append]
    rw [hsplit,add_assoc]
    rfl

end VbApi.P4x
