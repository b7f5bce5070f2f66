import VbApi.P4x.FeeBalanceAgreement
import VbApi.P4x.SumUpBalance
import Mathlib.Algebra.BigOperators.Group.Finset.Basic
import Mathlib.Algebra.BigOperators.Group.List.Basic

/-! Bookings that direct assignments split between categories. The readers of a category first
collect the ids of its bookings and then add up whole bookings, so the part that a split assigns
to another category is counted as well. -/
namespace VbApi.P4x
open VbApi.Foundations
open scoped BigOperators

/-- What the constraint trigger and the foreign key of the direct assignments guarantee. -/
structure SplitsValid (s : Store) : Prop where
  sums : ∀ t ∈ s.transactions, DirectSumHolds s t
  categories : ∀ d ∈ s.directs, ∃ c ∈ s.categories, c.id=d.p4xCategoryId

/-- The part of a booking that its directs assign to a category. -/
def directAmount (s : Store) (c : Option Uuid) (t : P4xTransaction) : Cents :=
  (((activeDirects s t.id).filter fun d => some d.p4xCategoryId=c).map (·.amount)).sum

/-- The part of a booking that its directs assign elsewhere. -/
def otherDirectAmount (s : Store) (c : Option Uuid) (t : P4xTransaction) : Cents :=
  (((activeDirects s t.id).filter fun d => some d.p4xCategoryId ≠ c).map (·.amount)).sum

/-- The amount of a booking that belongs to a category: its direct there when it is split by
directs, all of it when a filter of the category hits it. -/
def assignedAmount (s : Store) (c : Option Uuid) (t : P4xTransaction) : Cents :=
  if t.id ∈ txWithDirects s then directAmount s c t
  else if t.id ∈ filterTxIds s c then t.amount else 0

/-- What the readers add up for a booking. -/
def countedAmount (s : Store) (c : Option Uuid) (t : P4xTransaction) : Cents :=
  if t.id ∈ categoryTxIds s c then t.amount else 0

def assignedTotal (s : Store) (c : Option Uuid) (ts : List P4xTransaction) : Cents :=
  (ts.map (assignedAmount s c)).sum

/-- The directs that bookings with a direct in a category have in other categories. -/
def foreignDirects (s : Store) (c : Option Uuid) (ts : List P4xTransaction) : List P4xCategoryDirect :=
  (ts.filter fun t => t.id ∈ directTxIds s c).flatMap fun t =>
    (activeDirects s t.id).filter fun d => some d.p4xCategoryId ≠ c

def foreignTotal (s : Store) (c : Option Uuid) (ts : List P4xTransaction) : Cents :=
  ((foreignDirects s c ts).map (·.amount)).sum

/-- The member's own incoming bookings of a window, with or without a partner row. -/
def memberBookings (s : Store) (m : Member) (inWindow : Date → Bool) : List P4xTransaction :=
  s.transactions.filter fun t => isIncoming s m t && inWindow t.booking

/-- The foreign directs cancel; for a member whom the readers leave out, without a live partner row or
without an IBAN, nothing is assigned at all. -/
def CreditsAssigned (s : Store) (c : Option Uuid) (registered : Bool) (ts : List P4xTransaction) : Prop :=
  if registered then foreignTotal s c ts=0 else assignedTotal s c ts=0

instance (s : Store) (c : Option Uuid) (registered : Bool) (ts : List P4xTransaction) :
    Decidable (CreditsAssigned s c registered ts) := by
  unfold CreditsAssigned
  infer_instance

/-- The active bookings of an account with a given sign. -/
def bookingsOf (s : Store) (account : P4xAccount) (sign : Cents → Bool) : List P4xTransaction :=
  s.transactions.filter fun t => t.p4xAccountId=account.id && t.active && sign t.amount

/-- The categories that the directs of a booking name. -/
def directCategories (s : Store) (t : P4xTransaction) : Finset Uuid :=
  ((activeDirects s t.id).map (·.p4xCategoryId)).toFinset

def categoryIds (s : Store) : Finset Uuid := (s.categories.map (·.id)).toFinset

lemma mem_directTxIds_iff_activeDirects (s : Store) (c : Option Uuid) (txId : Uuid) :
    txId ∈ directTxIds s c ↔ ∃ d ∈ activeDirects s txId, some d.p4xCategoryId=c := by
  rw [mem_directTxIds]
  simp only [mem_activeDirects,and_assoc]

lemma directAmount_add_other (s : Store) (c : Option Uuid) (t : P4xTransaction) :
    directAmount s c t+otherDirectAmount s c t=((activeDirects s t.id).map (·.amount)).sum := by
  unfold directAmount otherDirectAmount
  induction activeDirects s t.id with
  | nil => rfl
  | cons d ds ih =>
    by_cases hd : some d.p4xCategoryId=c
    · simp only [List.filter_cons,hd,decide_true,if_true,ne_eq,not_true_eq_false,decide_false,
        Bool.false_eq_true,if_false,List.map_cons,List.sum_cons] at ih ⊢
      rw [← ih]
      ring
    · simp only [List.filter_cons,hd,decide_false,Bool.false_eq_true,if_false,ne_eq,
        not_false_eq_true,decide_true,if_true,List.map_cons,List.sum_cons] at ih ⊢
      rw [← ih]
      ring

lemma foreignTotal_cons (s : Store) (c : Option Uuid) (t : P4xTransaction) (ts : List P4xTransaction) :
    foreignTotal s c (t::ts)=
      (if t.id ∈ directTxIds s c then otherDirectAmount s c t else 0)+foreignTotal s c ts := by
  unfold foreignTotal foreignDirects otherDirectAmount
  by_cases ht : t.id ∈ directTxIds s c <;> simp [ht]

/-- A reader counts the assigned part of a booking and, when it is split, the foreign parts. -/
lemma countedAmount_eq {s : Store} (hsplits : SplitsValid s) (c : Option Uuid) {t : P4xTransaction}
    (ht : t ∈ s.transactions) : countedAmount s c t=
      assignedAmount s c t+if t.id ∈ directTxIds s c then otherDirectAmount s c t else 0 := by
  unfold countedAmount assignedAmount
  simp only [categoryTxIds,Finset.mem_union,Finset.mem_sdiff]
  by_cases hdirects : t.id ∈ txWithDirects s
  · have hne := (mem_txWithDirects_iff_activeDirects s t.id).mp hdirects
    have hsum := (hsplits.sums t ht).resolve_left hne
    by_cases hc : t.id ∈ directTxIds s c
    · simp only [hc,true_or,hdirects,if_true]
      rw [directAmount_add_other,hsum]
    · have hzero : directAmount s c t=0 := by
        have hnil : (activeDirects s t.id).filter (fun d => some d.p4xCategoryId=c)=[] := by
          rw [List.filter_eq_nil_iff]
          intro d hd hdc
          exact hc ((mem_directTxIds_iff_activeDirects s c t.id).mpr ⟨d,hd,of_decide_eq_true hdc⟩)
        rw [directAmount,hnil]
        rfl
      simp [hc,hdirects,hzero]
  · have hc : t.id ∉ directTxIds s c := by
      intro h
      obtain ⟨d,hd,-⟩ := (mem_directTxIds_iff_activeDirects s c t.id).mp h
      exact hdirects ((mem_txWithDirects_iff_activeDirects s t.id).mpr (List.ne_nil_of_mem hd))
    simp [hc,hdirects]

lemma sum_counted {s : Store} (hsplits : SplitsValid s) (c : Option Uuid) {ts : List P4xTransaction}
    (hts : ∀ t ∈ ts, t ∈ s.transactions) :
    ((ts.filter fun t => t.id ∈ categoryTxIds s c).map (·.amount)).sum=
      assignedTotal s c ts+foreignTotal s c ts := by
  induction ts with
  | nil => rfl
  | cons t ts ih =>
    have hhead := countedAmount_eq hsplits c (hts t List.mem_cons_self)
    have htail := ih fun t' ht' => hts t' (List.mem_cons_of_mem _ ht')
    have hsum : (((t::ts).filter fun t => t.id ∈ categoryTxIds s c).map (·.amount)).sum=
        countedAmount s c t+((ts.filter fun t => t.id ∈ categoryTxIds s c).map (·.amount)).sum := by
      by_cases ht : t.id ∈ categoryTxIds s c <;> simp [countedAmount,ht]
    rw [hsum,hhead,htail,foreignTotal_cons]
    simp only [assignedTotal,List.map_cons,List.sum_cons]
    ring

/-- Whole bookings add up to their assigned parts exactly when the foreign parts cancel. -/
lemma counted_eq_assigned_iff {s : Store} (hsplits : SplitsValid s) (c : Option Uuid)
    {ts : List P4xTransaction} (hts : ∀ t ∈ ts, t ∈ s.transactions) :
    ((ts.filter fun t => t.id ∈ categoryTxIds s c).map (·.amount)).sum=assignedTotal s c ts ↔
      foreignTotal s c ts=0 := by
  rw [sum_counted hsplits c hts]
  exact add_eq_left

lemma credited_eq_assigned_iff {s : Store} (hsplits : SplitsValid s) (m : Member) (registered : Bool)
    (inWindow : Date → Bool) :
    creditedSum s m registered inWindow=assignedTotal s (feeCategoryId s) (memberBookings s m inWindow) ↔
      CreditsAssigned s (feeCategoryId s) registered (memberBookings s m inWindow) := by
  cases registered with
  | true =>
    have hbookings : incomingIn s m true inWindow=memberBookings s m inWindow := by
      simp only [incomingIn,memberBookings,Bool.true_and]
    rw [creditedSum,hbookings]
    exact counted_eq_assigned_iff hsplits _ fun _ ht => List.mem_of_mem_filter ht
  | false =>
    have hnone : creditedSum s m false inWindow=0 := by simp [creditedSum,incomingIn]
    rw [hnone]
    exact eq_comm

lemma sumup_eq_assigned_iff {s : Store} (hsplits : SplitsValid s) (account : P4xAccount)
    (category : P4xCategory) (sign : Cents → Bool) :
    (((sumupTransactions s account category).filter fun t => sign t.amount).map (·.amount)).sum=
        assignedTotal s (some category.id) (bookingsOf s account sign) ↔
      foreignTotal s (some category.id) (bookingsOf s account sign)=0 := by
  have hrows : (sumupTransactions s account category).filter (fun t => sign t.amount)=
      (bookingsOf s account sign).filter fun t => t.id ∈ categoryTxIds s (some category.id) := by
    rw [sumupTransactions,bookingsOf,List.filter_filter,List.filter_filter]
    apply List.filter_congr
    intro t _
    rw [Bool.eq_iff_iff]
    simp only [Bool.and_eq_true]
    tauto
  rw [hrows]
  exact counted_eq_assigned_iff hsplits _ fun _ ht => List.mem_of_mem_filter ht

/-- A booking with directs is counted once for each category that they name. -/
lemma sum_countedAmount {s : Store} (hsplits : SplitsValid s) {t : P4xTransaction}
    (hdirects : activeDirects s t.id ≠ []) :
    ∑ c ∈ categoryIds s, countedAmount s (some c) t=(directCategories s t).card*t.amount := by
  have hcounted : ∀ c, countedAmount s (some c) t=if c ∈ directCategories s t then t.amount else 0 := by
    intro c
    have hmem : t.id ∈ categoryTxIds s (some c) ↔ c ∈ directCategories s t := by
      rw [categoryTxIds,Finset.mem_union,Finset.mem_sdiff,mem_directTxIds_iff_activeDirects]
      simp [(mem_txWithDirects_iff_activeDirects s t.id).mpr hdirects,directCategories]
    simp only [countedAmount,hmem]
  have hsub : directCategories s t ⊆ categoryIds s := by
    intro c hc
    simp only [directCategories,List.mem_toFinset,List.mem_map] at hc
    obtain ⟨d,hd,rfl⟩ := hc
    obtain ⟨c,hc,hid⟩ := hsplits.categories d ((mem_activeDirects s _ d).mp hd).1
    simp only [categoryIds,List.mem_toFinset,List.mem_map]
    exact ⟨c,hc,hid⟩
  simp only [hcounted]
  rw [Finset.sum_ite_mem,Finset.inter_eq_right.mpr hsub,Finset.sum_const,nsmul_eq_mul]

lemma overcount_iff {s : Store} (hsplits : SplitsValid s) {t : P4xTransaction}
    (hdirects : activeDirects s t.id ≠ []) :
    ∑ c ∈ categoryIds s, countedAmount s (some c) t ≤ t.amount ↔
      t.amount ≤ 0 ∨ (directCategories s t).card=1 := by
  have hpos : 0 < (directCategories s t).card := by
    obtain ⟨d,hd⟩ := List.exists_mem_of_ne_nil _ hdirects
    apply Finset.card_pos.mpr
    exact ⟨d.p4xCategoryId,by
      simp only [directCategories,List.mem_toFinset]
      exact List.mem_map_of_mem hd⟩
  rw [sum_countedAmount hsplits hdirects]
  generalize (directCategories s t).card=n at hpos ⊢
  constructor
  · intro hle
    by_contra hnot
    rw [not_or,not_le] at hnot
    have htwo : (2 : ℤ) ≤ n := by omega
    nlinarith
  · rintro (hneg | rfl)
    · have hone : (1 : ℤ) ≤ n := by omega
      nlinarith
    · simp

/-- Every reader credits the assigned parts of the member's bookings exactly when the directs that the
counted bookings have in other categories cancel and, for a member without a partner row, nothing is
assigned; the categories together count no more than the booking exactly when it is not positive or
not split. -/
theorem payments_eq_assigned_iff {s : Store} (hsplits : SplitsValid s) (hkeys : PartnerKeys s) :
    (∀ m fromDate toDate,
      let bookings := memberBookings s m fun d => fromDate ≤ d && d < toDate
      getFeePaymentsSum s m fromDate toDate=assignedTotal s (feeCategoryId s) bookings ↔
        CreditsAssigned s (feeCategoryId s) (hasPartner s m) bookings) ∧
    (∀ m fromDate toDate,
      let bookings := memberBookings s m fun d => fromDate ≤ d && d ≤ toDate
      ((getFeePaymentsList s m fromDate toDate).map (·.amount)).sum=
          assignedTotal s (feeCategoryId s) bookings ↔
        CreditsAssigned s (feeCategoryId s) (hasPartner s m) bookings) ∧
    (∀ today credited, creditedStates s today=.ok credited → ∀ m ∈ getFeeMembers s,
      ∀ st, credited.get? m.id=some st →
      let bookings := memberBookings s m fun d => st.initDate ≤ d && d ≤ st.endDate
      st.paymentSum=assignedTotal s (feeCategoryId s) bookings ↔
        CreditsAssigned s (feeCategoryId s) (hasIban s m) bookings) ∧
    (∀ account category, girokonto s=some account → sumupCategory s=some category →
      ((getSumupBalance s).inSum=
          assignedTotal s (some category.id) (bookingsOf s account fun a => 0 < a) ↔
        foreignTotal s (some category.id) (bookingsOf s account fun a => 0 < a)=0) ∧
      ((getSumupBalance s).outSum=
          assignedTotal s (some category.id) (bookingsOf s account fun a => a < 0) ↔
        foreignTotal s (some category.id) (bookingsOf s account fun a => a < 0)=0)) ∧
    ∀ t ∈ s.transactions, activeDirects s t.id ≠ [] →
      (∑ c ∈ categoryIds s, countedAmount s (some c) t ≤ t.amount ↔
        t.amount ≤ 0 ∨ (directCategories s t).card=1) := by
  refine ⟨?_,?_,?_,?_,?_⟩
  · intro m fromDate toDate
    rw [getFeePaymentsSum_eq]
    exact credited_eq_assigned_iff hsplits m _ _
  · intro m fromDate toDate
    rw [getFeePaymentsList_sum]
    exact credited_eq_assigned_iff hsplits m _ _
  · intro today credited hpass m hm st hst
    rw [creditedStates_paymentSum hkeys hpass hm hst]
    exact credited_eq_assigned_iff hsplits m _ _
  · intro account category ha hc
    obtain ⟨hin,hout⟩ := getSumupBalance_sums ha hc
    rw [hin,hout]
    exact ⟨sumup_eq_assigned_iff hsplits account category fun a => 0 < a,
      sumup_eq_assigned_iff hsplits account category fun a => a < 0⟩
  · intro t _ hdirects
    exact overcount_iff hsplits hdirects

/-- Three bookings of a member: one all of whose directs are fees, one split between two other
categories, and one that a filter of the fee category hits. -/
def directsStore : Store where
  members := [feeMember 1 (Date.of 2025 1 1)]
  accounts := [⟨10,none,0,none⟩]
  categories := [⟨20,feeCategoryName⟩,⟨21,text "sonstiges"⟩,⟨22,text "spende"⟩]
  filters := [⟨30,text "Beitrag",10,none,none,none,some (text "Beitrag"),.contains,20⟩]
  filterHits := [⟨30,42⟩]
  directs := [⟨40,20,10000,none⟩,⟨41,21,1000,none⟩,⟨41,22,2000,none⟩]
  fees := [⟨Date.of 2025 1 1,1000⟩]
  partners := [⟨some (text "AT1"),some 1,none,none,none,none⟩]
  transactions := [⟨40,"h",Date.of 2025 2 3,Date.of 2025 2 3,text "AT1",10000,text "Jahr",10,none,
      none,none,none,"{}",none⟩,
    ⟨41,"i",Date.of 2025 3 3,Date.of 2025 3 3,text "AT1",3000,text "Abend",10,none,none,none,none,"{}",
      none⟩,
    ⟨42,"j",Date.of 2025 4 3,Date.of 2025 4 3,text "AT1",2500,text "Beitrag",10,none,none,none,none,"{}",
      none⟩]
  nextUuid := 50

/-- The member is credited its fees of 125.00. -/
theorem payments_eq_assigned_iff_directs :
    getFeePaymentsSum directsStore (feeMember 1 (Date.of 2025 1 1)) (Date.of 2025 1 1)
        (Date.of 2025 12 1)=
      assignedTotal directsStore (feeCategoryId directsStore)
        (memberBookings directsStore (feeMember 1 (Date.of 2025 1 1))
          fun d => Date.of 2025 1 1 ≤ d && d < Date.of 2025 12 1) ∧
    getFeePaymentsSum directsStore (feeMember 1 (Date.of 2025 1 1)) (Date.of 2025 1 1)
        (Date.of 2025 12 1)=12500 :=
  ⟨((payments_eq_assigned_iff ⟨by decide,by decide⟩ ⟨by decide,by decide⟩).1
    (feeMember 1 (Date.of 2025 1 1)) (Date.of 2025 1 1) (Date.of 2025 12 1)).mpr (by decide),by decide⟩

/-- One booking of 100.00, split into a fee of 60.00 and another category's 40.00. -/
def splitStore : Store where
  members := [feeMember 1 (Date.of 2025 1 1)]
  accounts := [⟨10,none,0,none⟩]
  categories := [⟨20,feeCategoryName⟩,⟨21,text "sonstiges"⟩]
  filters := []
  filterHits := []
  directs := [⟨40,20,6000,none⟩,⟨40,21,4000,none⟩]
  fees := [⟨Date.of 2025 1 1,1000⟩]
  partners := [⟨some (text "AT1"),some 1,none,none,none,none⟩]
  transactions := [⟨40,"h",Date.of 2025 2 3,Date.of 2025 2 3,text "AT1",10000,text "Beitrag",10,none,
    none,none,none,"{}",none⟩]
  nextUuid := 50

/-- The whole booking is credited as a fee, and counted for both categories. -/
theorem split_booking_overcounted :
    SplitsValid splitStore ∧ PartnerKeys splitStore ∧
    getFeePaymentsSum splitStore (feeMember 1 (Date.of 2025 1 1)) (Date.of 2025 1 1)
      (Date.of 2025 12 1)=10000 ∧
    assignedTotal splitStore (feeCategoryId splitStore)
      (memberBookings splitStore (feeMember 1 (Date.of 2025 1 1))
        fun d => Date.of 2025 1 1 ≤ d && d < Date.of 2025 12 1)=6000 ∧
    ∃ t ∈ splitStore.transactions, activeDirects splitStore t.id ≠ [] ∧ t.amount=10000 ∧
      ∑ c ∈ categoryIds splitStore, countedAmount splitStore (some c) t=20000 := by
  refine ⟨⟨by decide,by decide⟩,⟨by decide,by decide⟩,by decide,by decide,?_⟩
  exact ⟨_,List.mem_cons_self,by decide,rfl,by decide⟩

end VbApi.P4x
