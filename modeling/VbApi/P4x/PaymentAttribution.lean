import VbApi.P4x.FeeBalanceList

/-! Which bookings are credited to a member, by the queries for one member and by the pass over
the bookings of all members. -/
namespace VbApi.P4x
open VbApi.Foundations

/-- The keys of the tables: member ids, and the IBANs of the live partners. -/
structure PartnerKeys (s : Store) : Prop where
  member_ids : (s.members.map (·.id)).Nodup
  partner_ibans_nodup : ((s.partners.filter P4xPartner.active).filterMap (·.iban)).Nodup

/-- The positive bookings on the member's own accounts without a delegation, and those
delegated to the member. -/
def isIncoming (s : Store) (m : Member) (t : P4xTransaction) : Bool :=
  t.active && 0 < t.amount &&
  ((some t.iban ∈ partnerIbans s m && noDelegationFilter t) || t.delegatingMemberId=some m.id)

/-- The member has a partner row: without one the queries for one member credit nothing. -/
def hasPartner (s : Store) (m : Member) : Bool := partnerIbans s m ≠ []

/-- The member has an IBAN: without one the pass credits nothing. -/
def hasIban (s : Store) (m : Member) : Bool := (partnerIbans s m).any (·.isSome)

/-- The member's incoming bookings of a window. -/
def incomingIn (s : Store) (m : Member) (registered : Bool) (inWindow : Date → Bool) :
    List P4xTransaction :=
  s.transactions.filter fun t => registered && isIncoming s m t && inWindow t.booking

/-- The amounts of those that are in the fee category. -/
def creditedSum (s : Store) (m : Member) (registered : Bool) (inWindow : Date → Bool) : Cents :=
  (((incomingIn s m registered inWindow).filter fun t => t.id ∈ feeCategoryTxIds s).map
    (·.amount)).sum

lemma creditedSum_eq (s : Store) (m : Member) (registered : Bool) (inWindow : Date → Bool) :
    creditedSum s m registered inWindow=((s.transactions.filter fun t =>
      registered && isFeePayment s m t && inWindow t.booking).map (·.amount)).sum := by
  rw [creditedSum,incomingIn,List.filter_filter]
  refine congrArg (fun ts => (List.map P4xTransaction.amount ts).sum) ?_
  apply List.filter_congr
  intro t _
  rw [Bool.eq_iff_iff]
  simp only [isFeePayment,isIncoming,Bool.and_eq_true]
  tauto

lemma isFeePayment_eq_false {s : Store} (h : feeCategoryTxIds s=∅) (m : Member) (t : P4xTransaction) :
    isFeePayment s m t=false := by
  simp [isFeePayment,h]

lemma getFeePaymentsSum_eq (s : Store) (m : Member) (fromDate toDate : Date) :
    getFeePaymentsSum s m fromDate toDate=
      creditedSum s m (hasPartner s m) fun d => fromDate ≤ d && d < toDate := by
  rw [creditedSum_eq]
  unfold getFeePaymentsSum hasPartner
  split_ifs with hibans hids
  · simp [hibans]
  · simp [isFeePayment_eq_false hids]
  · simp [hibans,Bool.and_assoc]

lemma getFeePaymentsList_sum (s : Store) (m : Member) (fromDate toDate : Date) :
    ((getFeePaymentsList s m fromDate toDate).map (·.amount)).sum=
      creditedSum s m (hasPartner s m) fun d => fromDate ≤ d && d ≤ toDate := by
  rw [creditedSum_eq]
  unfold getFeePaymentsList hasPartner
  split_ifs with hibans hids
  · simp [hibans]
  · simp [isFeePayment_eq_false hids]
  · simp [hibans,Bool.and_assoc,Function.comp_def]

section Target
variable {s : Store} (hkeys : PartnerKeys s) (memberIds : List Uuid)

include hkeys in
lemma ibanToMemberIdMap_get? (iban : PyText) (id : Uuid) :
    (ibanToMemberIdMap s memberIds).get? iban=some id ↔ id ∈ memberIds ∧
      ∃ p ∈ s.partners, p.active=true ∧ p.iban=some iban ∧ p.memberId=some id := by
  have hnodup := hkeys.partner_ibans_nodup
  rw [List.Nodup,List.pairwise_filterMap,List.pairwise_filter] at hnodup
  have hpairs : ((s.partners.filterMap (ibanOfMember memberIds)).map Prod.fst).Nodup := by
    rw [List.Nodup,List.pairwise_map,List.pairwise_filterMap]
    refine hnodup.imp ?_
    rintro p q hne ⟨iban₁,id₁⟩ hp ⟨iban₂,id₂⟩ hq rfl
    obtain ⟨-,hpa,hpi,-⟩ := (ibanOfMember_eq_some_iff _ _ _ _).mp hp
    obtain ⟨-,hqa,hqi,-⟩ := (ibanOfMember_eq_some_iff _ _ _ _).mp hq
    exact hne hpa hqa iban₁ hpi iban₁ hqi rfl
  rw [ibanToMemberIdMap,Dict.get?_ofPairs_iff _ hpairs,List.mem_filterMap]
  simp only [ibanOfMember_eq_some_iff]
  constructor
  · rintro ⟨p,hp,hmem,h⟩
    exact ⟨hmem,p,hp,h⟩
  · rintro ⟨hmem,p,hp,h⟩
    exact ⟨p,hp,hmem,h⟩

lemma mem_partnerIbans (m : Member) (iban : Option PyText) :
    iban ∈ partnerIbans s m ↔ ∃ p ∈ s.partners, p.active=true ∧ p.iban=iban ∧ p.memberId=some m.id := by
  simp only [partnerIbans,List.mem_map,List.mem_filter,Bool.and_eq_true,decide_eq_true_eq]
  constructor
  · rintro ⟨p,⟨hp,hm,ha⟩,hi⟩
    exact ⟨p,hp,ha,hi,hm⟩
  · rintro ⟨p,hp,ha,hi,hm⟩
    exact ⟨p,⟨hp,hm,ha⟩,hi⟩

include hkeys in
lemma mem_values_iff_hasIban {m : Member} (hm : m.id ∈ memberIds) :
    m.id ∈ (ibanToMemberIdMap s memberIds).values ↔ hasIban s m=true := by
  simp only [Dict.mem_values_iff,ibanToMemberIdMap_get? hkeys,hasIban,List.any_eq_true,
    mem_partnerIbans]
  constructor
  · rintro ⟨iban,-,p,hp,ha,hi,hid⟩
    exact ⟨some iban,⟨p,hp,ha,hi,hid⟩,rfl⟩
  · rintro ⟨iban,⟨p,hp,ha,hi,hid⟩,hsome⟩
    obtain ⟨iban',rfl⟩ := Option.isSome_iff_exists.mp hsome
    exact ⟨iban',hm,p,hp,ha,hi,hid⟩

include hkeys in
/-- The pass attributes a booking to the member that owns it or that it is delegated to. -/
lemma paymentTarget_eq_iff {m : Member} (hm : m.id ∈ memberIds) (t : P4xTransaction) :
    paymentTarget (ibanToMemberIdMap s memberIds)
        ⟨t.iban,t.booking,t.amount,t.delegatingMemberId,noDelegationFilter t⟩=some m.id ↔
      hasIban s m=true ∧ ((some t.iban ∈ partnerIbans s m ∧ noDelegationFilter t=true) ∨
        t.delegatingMemberId=some m.id) := by
  have hown := mem_values_iff_hasIban hkeys memberIds hm
  have hiban : (ibanToMemberIdMap s memberIds).get? t.iban=some m.id ↔
      some t.iban ∈ partnerIbans s m := by
    rw [ibanToMemberIdMap_get? hkeys,mem_partnerIbans]
    simp [hm]
  have hiban' : some t.iban ∈ partnerIbans s m → hasIban s m=true := fun h =>
    List.any_eq_true.mpr ⟨_,h,rfl⟩
  unfold paymentTarget
  dsimp only
  cases hdelegate : t.delegatingMemberId with
  | none =>
    by_cases hno : noDelegationFilter t=true
    · simp only [hno,and_self,if_true,hiban,and_true]
      constructor
      · intro h
        exact ⟨hiban' h,.inl h⟩
      · rintro ⟨-,h | h⟩
        · exact h
        · contradiction
    · simp [hno]
  | some d =>
    have hno : noDelegationFilter t=false := by simp [noDelegationFilter,hdelegate]
    simp only [hno,Bool.false_eq_true,and_false,if_false,false_or,Option.some.injEq]
    split_ifs with hd
    · rw [Option.some.injEq]
      constructor
      · rintro rfl
        exact ⟨hown.mp hd,rfl⟩
      · rintro ⟨-,h⟩
        exact h
    · constructor
      · intro h
        contradiction
      · rintro ⟨h,rfl⟩
        exact absurd (hown.mpr h) hd

include hkeys in
/-- The rows fetched for all members hold every payment of a member's window. -/
lemma attributedSum_fetch {m : Member} (hm : m.id ∈ memberIds) {st : MemberFeeState}
    {bookingFrom bookingTo : Date} (hfrom : bookingFrom ≤ st.initDate) (hto : st.endDate ≤ bookingTo) :
    attributedSum (ibanToMemberIdMap s memberIds) m.id st
        (fetchFeeCategoryTransactions s (feeCategoryTxIds s) bookingFrom bookingTo)=
      creditedSum s m (hasIban s m) fun d => st.initDate ≤ d && d ≤ st.endDate := by
  rw [creditedSum_eq]
  unfold fetchFeeCategoryTransactions
  split_ifs with hids
  · simp [attributedSum,isFeePayment_eq_false hids]
  · rw [attributedSum,List.filter_map,List.map_map,List.filter_filter]
    simp only [Function.comp_def,paymentTarget_eq_iff hkeys memberIds hm]
    refine congrArg (fun ts => (List.map P4xTransaction.amount ts).sum) ?_
    apply List.filter_congr
    intro t _
    rw [Bool.eq_iff_iff]
    simp only [isFeePayment,Bool.and_eq_true,Bool.or_eq_true,decide_eq_true_eq]
    constructor
    · rintro ⟨⟨⟨⟨hibans,htarget⟩,hinit⟩,hend⟩,⟨⟨⟨hactive,hpos⟩,hid⟩,-⟩,-⟩
      exact ⟨⟨hibans,⟨⟨hactive,hpos⟩,hid⟩,htarget⟩,hinit,hend⟩
    · rintro ⟨⟨hibans,⟨⟨hactive,hpos⟩,hid⟩,htarget⟩,hinit,hend⟩
      exact ⟨⟨⟨⟨hibans,htarget⟩,hinit⟩,hend⟩,⟨⟨⟨hactive,hpos⟩,hid⟩,hfrom.trans hinit⟩,
        hend.trans hto⟩

end Target

/-- The pass adds to every member state the payments of its window. -/
lemma creditedStates_ok {s : Store} {today e : Date} (hkeys : PartnerKeys s)
    (he : prevMonthEnd today=.ok e) {states : Dict Uuid MemberFeeState}
    (hstates : buildMemberStates (getFeeMembers s) ((getAllFees s).map (·.start.firstOfMonth))
      ((getAllFees s).map (·.fee)) e=.ok states) :
    ∃ credited, creditedStates s today=.ok credited ∧
      ∀ m ∈ getFeeMembers s, credited.get? m.id=(states.get? m.id).map fun st =>
        { st with paymentSum := st.paymentSum+
            creditedSum s m (hasIban s m) fun d => st.initDate ≤ d && d ≤ st.endDate } := by
  simp only [creditedStates,he,hstates,ok_bind]
  split_ifs with hnil
  · refine ⟨states,rfl,?_⟩
    intro m _
    have hget : states.get? m.id=none := by
      by_contra hsome
      obtain ⟨st,hst⟩ := Option.ne_none_iff_exists'.mp hsome
      have := (Dict.mem_values_iff states st).mpr ⟨_,hst⟩
      simp [hnil] at this
    rw [hget]
    rfl
  · refine ⟨_,rfl,?_⟩
    intro m hm
    rw [attributePayments_get?]
    cases hst : states.get? m.id with
    | none => rfl
    | some st =>
      have hvalue : st ∈ states.values := (Dict.mem_values_iff states st).mpr ⟨_,hst⟩
      have hkey : m.id ∈ states.keys := (Dict.mem_keys_iff states _).mpr ⟨_,hst⟩
      have hmember : m.id ∈ ((getFeeMembers s).filter fun m => m.id ∈ states.keys).map (·.id) := by
        apply List.mem_map_of_mem
        simp [hm,hkey]
      rw [Option.map_some,Option.map_some,attributedSum_fetch hkeys _ hmember]
      · exact List.min_le_of_mem (List.mem_map_of_mem hvalue)
      · exact List.le_max_of_mem (List.mem_map_of_mem hvalue)

lemma memberFeeState_paymentSum {starts : List Date} {fees : List Cents} {e : Date} {m : Member}
    {st : MemberFeeState} (h : memberFeeState starts fees e m=.ok (some st)) : st.paymentSum=0 := by
  unfold memberFeeState at h
  cases hraw : initDateRaw m with
  | none =>
    rw [hraw] at h
    cases h
  | some d =>
    rw [hraw] at h
    obtain ⟨last,-,h⟩ := bind_eq_ok_iff.mp h
    obtain ⟨sum,-,h⟩ := bind_eq_ok_iff.mp h
    cases h
    rfl

/-- What the list credits to a member is what is credited in the window of its balance. -/
theorem creditedStates_paymentSum {s : Store} {today : Date} (hkeys : PartnerKeys s)
    {credited : Dict Uuid MemberFeeState} (h : creditedStates s today=.ok credited) {m : Member}
    (hm : m ∈ getFeeMembers s) {st : MemberFeeState} (hst : credited.get? m.id=some st) :
    st.paymentSum=creditedSum s m (hasIban s m) fun d => st.initDate ≤ d && d ≤ st.endDate := by
  obtain ⟨e,he,hrest⟩ := bind_eq_ok_iff.mp h
  obtain ⟨states,hstates,-⟩ := bind_eq_ok_iff.mp hrest
  obtain ⟨credited',hcredited,hget⟩ := creditedStates_ok hkeys he hstates
  rw [h] at hcredited
  cases hcredited
  obtain ⟨hall,-⟩ := buildMemberStates_ok _ _ _
    (hkeys.member_ids.sublist (List.filter_sublist.map _)) hstates
  obtain ⟨r,hr,hr'⟩ := hall m hm
  rw [hget m hm,hr',Option.map_eq_some_iff] at hst
  obtain ⟨st₀,hst₀,rfl⟩ := hst
  cases r with
  | none => simp at hst₀
  | some st₁ =>
    cases hst₀
    simp [memberFeeState_paymentSum hr]

end VbApi.P4x
