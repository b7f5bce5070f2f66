import VbApi.P4x.FilterHits

/-! One replacement of the directs of a transaction against the rules of the database: when the check
of the application and the unique index and the trigger say the same. -/
namespace VbApi.P4x
open VbApi.Foundations

/-- The valid slots of a request whose amounts are decimals. -/
def slotValues (slots : List Slot) : List (Uuid × ℚ) :=
  (validSlots slots).filterMap fun slot =>
    match slot.2 with
    | .decimal value => some (slot.1,value)
    | _ => none

/-- Slots that name present categories with decimal amounts. -/
def SlotsDecimal (s : Store) (slots : List Slot) : Prop :=
  ∀ slot ∈ slots, (∃ c ∈ s.categories, slot.p4xCategoryId=some c.id) ∧
    (slot.amount=.falsy ∨ ∃ value, slot.amount=.decimal value)

/-- The application's own refusal: the slots do not add up. -/
def RefusesSum (t : P4xTransaction) (values : List (Uuid × ℚ)) : Prop :=
  values ≠ [] ∧ (t.amount : ℚ)/100 ≠ decimalSum (values.map (·.2))

/-- What the column, the unique index and the trigger ask of the values, as they are stored. -/
def StoredSplit (t : P4xTransaction) (values : List (Uuid × ℚ)) : Prop :=
  (values.map (·.1)).Nodup ∧ (∀ value ∈ values, InNumericRange (toNumeric value.2)) ∧
  (values=[] ∨ (values.map fun value => toNumeric value.2).sum=t.amount)

/-- A replacement is refused and changes nothing, or it commits the valid slots, at most one for a
category, which add up to the amount of the transaction if there are any. -/
def DirectLaw (lower : PyText → PyText) (s : Store) (now : Timestamp) (t : P4xTransaction)
    (slots : List Slot) : Prop :=
  (∃ message, setCategoryDirectCore lower s now t slots=.ok (some message,s) ∧
    setCategoryDirect lower s now t slots=.error (.refused message)) ∨
  ∃ s', setCategoryDirect lower s now t slots=.ok s' ∧
    activeDirects s' t.id=(slotValues slots).map (newDirect t.id) ∧
    ((activeDirects s' t.id).map (·.p4xCategoryId)).Nodup ∧
    (activeDirects s' t.id=[] ∨ ((activeDirects s' t.id).map (·.amount)).sum=t.amount)

section Slots
variable {s : Store} {slots : List Slot}

lemma mem_validSlots {slot : Uuid × SlotAmount} (h : slot ∈ validSlots slots) :
    slot.2 ≠ .falsy ∧ ∃ given ∈ slots, given.p4xCategoryId=some slot.1 ∧ given.amount=slot.2 := by
  obtain ⟨given,hgiven,heq⟩ := List.mem_filterMap.mp h
  obtain ⟨category,amount⟩ := given
  cases category with
  | none => cases heq
  | some categoryId =>
    cases amount with
    | falsy => cases heq
    | decimal value =>
      cases heq
      exact ⟨by simp,_,hgiven,rfl,rfl⟩
    | invalid =>
      cases heq
      exact ⟨by simp,_,hgiven,rfl,rfl⟩

/-- Decimal amounts are all read. -/
lemma SlotsDecimal.mapM (h : SlotsDecimal s slots) :
    (validSlots slots).mapM slotDecimal=.ok (slotValues slots) := by
  have hall : ∀ slot ∈ validSlots slots, ∃ value, slot.2=.decimal value := by
    intro slot hslot
    obtain ⟨hne,given,hgiven,-,hamount⟩ := mem_validSlots hslot
    rcases (h given hgiven).2 with hfalsy | ⟨value,hvalue⟩
    · exact absurd (hamount.symm.trans hfalsy) hne
    · exact ⟨value,hamount.symm.trans hvalue⟩
  rw [slotValues]
  generalize validSlots slots=valid at hall
  induction valid with
  | nil => rfl
  | cons slot valid ih =>
    obtain ⟨categoryId,amount⟩ := slot
    obtain ⟨value,rfl⟩ := hall _ List.mem_cons_self
    rw [List.mapM_cons,ih fun slot hslot => hall slot (List.mem_cons_of_mem _ hslot)]
    rfl

/-- The values name present categories. -/
lemma SlotsDecimal.categories (h : SlotsDecimal s slots) :
    ∀ value ∈ slotValues slots, ∃ c ∈ s.categories, c.id=value.1 := by
  intro value hvalue
  obtain ⟨slot,hslot,heq⟩ := List.mem_filterMap.mp hvalue
  obtain ⟨-,given,hgiven,hcategory,-⟩ := mem_validSlots hslot
  obtain ⟨c,hc,hid⟩ := (h given hgiven).1
  have hfirst : slot.1=value.1 := by
    split at heq
    · cases heq
      rfl
    · cases heq
  exact ⟨c,hc,by rw [← hfirst]; exact Option.some.inj (hid.symm.trans hcategory)⟩

end Slots

section Constraints
variable (lower : PyText → PyText) {s : Store} (now : Timestamp) {t : P4xTransaction}
  {values : List (Uuid × ℚ)}

/-- The live directs after a replacement: those of other transactions, and the new ones. -/
lemma replaceDirects_active (txId : Uuid) :
    (replaceDirects s now txId values).directs.filter P4xCategoryDirect.active=
      s.directs.filter (fun d => d.active && decide (d.p4xTransactionId ≠ txId)) ++
        values.map (newDirect txId) := by
  have hold : (s.directs.map (setAsideDirect now txId)).filter P4xCategoryDirect.active=
      s.directs.filter fun d => d.active && decide (d.p4xTransactionId ≠ txId) := by
    have hcounts : ∀ d, (setAsideDirect now txId d).active=
        (d.active && decide (d.p4xTransactionId ≠ txId)) := by
      intro d
      unfold setAsideDirect
      split_ifs with hd
      · simp [P4xCategoryDirect.active,hd.1]
      · by_cases hid : d.p4xTransactionId=txId
        · have hnot : d.active=false := by
            rw [← Bool.not_eq_true]
            exact fun ha => hd ⟨hid,ha⟩
          simp [hnot]
        · simp [hid]
    rw [List.filter_map]
    simp only [Function.comp_def,hcounts]
    refine (List.map_congr_left ?_).trans (List.map_id _)
    intro d hd
    have hid : d.active=true ∧ d.p4xTransactionId ≠ txId := by simpa using (List.mem_filter.mp hd).2
    simp [setAsideDirect,hid.2]
  rw [replaceDirects,List.filter_append,hold]
  congr 1
  rw [List.filter_eq_self]
  intro d hd
  obtain ⟨value,-,rfl⟩ := List.mem_map.mp hd
  rfl

/-- The unique index holds after a replacement exactly when the new categories differ. -/
lemma replaceDirects_unique_iff
    (h : ((s.directs.filter P4xCategoryDirect.active).map
      fun d => (d.p4xTransactionId,d.p4xCategoryId)).Nodup) (txId : Uuid) :
    (((replaceDirects s now txId values).directs.filter P4xCategoryDirect.active).map
      fun d => (d.p4xTransactionId,d.p4xCategoryId)).Nodup ↔ (values.map (·.1)).Nodup := by
  have hnew : ((values.map (newDirect txId)).map fun d => (d.p4xTransactionId,d.p4xCategoryId))=
      (values.map (·.1)).map fun categoryId => (txId,categoryId) := by
    simp [newDirect,Function.comp_def]
  have hothers : s.directs.filter (fun d => d.active && decide (d.p4xTransactionId ≠ txId))=
      (s.directs.filter P4xCategoryDirect.active).filter
        fun d => decide (d.p4xTransactionId ≠ txId) := by
    rw [List.filter_filter]
    apply List.filter_congr
    intro d _
    exact Bool.and_comm _ _
  have hpair : Function.Injective fun categoryId : Uuid => (txId,categoryId) :=
    fun a b hab => (Prod.mk.inj hab).2
  rw [replaceDirects_active now,List.map_append,hnew,List.nodup_append',List.nodup_map_iff hpair]
  constructor
  · exact fun hall => hall.2.1
  · intro hcategories
    refine ⟨?_,hcategories,?_⟩
    · rw [hothers]
      exact h.sublist (List.filter_sublist.map _)
    · intro pair hold hfresh
      obtain ⟨d,hd,rfl⟩ := List.mem_map.mp hold
      obtain ⟨categoryId,-,heq⟩ := List.mem_map.mp hfresh
      have hid : d.active=true ∧ d.p4xTransactionId ≠ txId := by
        simpa using (List.mem_filter.mp hd).2
      exact hid.2 (Prod.mk.inj heq).1.symm

/-- The rows of the other columns after a replacement: the old ones, and those of the values. -/
lemma replaceDirects_rows_iff (h : ∀ d ∈ s.directs, DirectRowValid s d) (ht : t ∈ s.transactions)
    (hcategories : ∀ value ∈ values, ∃ c ∈ s.categories, c.id=value.1) :
    (∀ d ∈ (replaceDirects s now t.id values).directs, DirectRowValid s d) ↔
      ∀ value ∈ values, InNumericRange (toNumeric value.2) := by
  have hold : ∀ d ∈ s.directs.map (setAsideDirect now t.id), DirectRowValid s d := by
    intro d hd
    obtain ⟨row,hrow,rfl⟩ := List.mem_map.mp hd
    unfold setAsideDirect
    split_ifs
    · exact h row hrow
    · exact h row hrow
  constructor
  · intro hall value hvalue
    exact (hall _ (List.mem_append_right _ (List.mem_map_of_mem hvalue))).2.2
  · intro hrange d hd
    rcases List.mem_append.mp hd with hd | hd
    · exact hold d hd
    · obtain ⟨value,hvalue,rfl⟩ := List.mem_map.mp hd
      exact ⟨⟨t,ht,rfl⟩,hcategories value hvalue,hrange value hvalue⟩

/-- The trigger holds after a replacement exactly when the new directs add up. -/
lemma replaceDirects_sums_iff (h : ∀ row ∈ s.transactions, TransactionRowValid s row)
    (hids : (s.transactions.map (·.id)).Nodup) (ht : t ∈ s.transactions) :
    (∀ row ∈ s.transactions, TransactionRowValid (replaceDirects s now t.id values) row) ↔
      values=[] ∨ (values.map fun value => toNumeric value.2).sum=t.amount := by
  have hsum : DirectSumHolds (replaceDirects s now t.id values) t ↔
      values=[] ∨ (values.map fun value => toNumeric value.2).sum=t.amount := by
    rw [DirectSumHolds,activeDirects_replaceDirects,if_pos rfl,List.map_map,List.map_eq_nil_iff]
    rfl
  rw [← hsum]
  constructor
  · intro hall
    exact (hall t ht).2.2.2.2
  · intro hadds row hrow
    obtain ⟨haccount,hiban,hsubject,hamount,hold⟩ := h row hrow
    refine ⟨haccount,hiban,hsubject,hamount,?_⟩
    by_cases hid : row.id=t.id
    · obtain rfl := List.inj_on_of_nodup_map hids hrow ht hid
      exact hadds
    · rw [DirectSumHolds,activeDirects_replaceDirects,if_neg hid]
      exact hold

/-- The database accepts a replacement exactly when the values split the amount as they are stored. -/
lemma replaceDirects_constraints_iff (h : DbConstraints s) (hfilters : (s.filters.map (·.id)).Nodup)
    (hids : (s.transactions.map (·.id)).Nodup) (ht : t ∈ s.transactions)
    (hcategories : ∀ value ∈ values, ∃ c ∈ s.categories, c.id=value.1) (assigned : Bool) :
    DbConstraints (refreshTransactionHits lower (replaceDirects s now t.id values) t.id assigned) ↔
      StoredSplit t values := by
  obtain ⟨hnames,hrows,hhits,hunique,hdirects,hhashes,htransactions⟩ := h
  have hrefresh : ∃ hits, refreshTransactionHits lower (replaceDirects s now t.id values) t.id assigned=
      { replaceDirects s now t.id values with filterHits := hits } := by
    cases assigned <;> exact ⟨_,rfl⟩
  have hnodup := refreshTransactionHits_nodup lower
    (s := replaceDirects s now t.id values) hfilters hhits t.id assigned
  obtain ⟨hits,hrefresh⟩ := hrefresh
  rw [hrefresh] at hnodup ⊢
  rw [StoredSplit,← replaceDirects_unique_iff now hunique t.id,
    ← replaceDirects_rows_iff now hdirects ht hcategories,
    ← replaceDirects_sums_iff now htransactions hids ht]
  constructor
  · rintro ⟨-,-,-,hnew,hvalid,-,hsums⟩
    exact ⟨hnew,hvalid,hsums⟩
  · rintro ⟨hnew,hvalid,hsums⟩
    exact ⟨hnames,hrows,hnodup,hnew,hvalid,hhashes,hsums⟩

end Constraints

section Law
variable (lower : PyText → PyText) {s : Store} {t : P4xTransaction} {slots : List Slot}

lemma directLaw_of_refused (hslots : SlotsDecimal s slots) (hrefuse : RefusesSum t (slotValues slots))
    (now : Timestamp) : DirectLaw lower s now t slots := by
  have hcore : setCategoryDirectCore lower s now t slots=
      .ok (some "Summe der Beträge stimmt nicht mit dem Transaktionsbetrag überein.",s) := by
    rw [RefusesSum] at hrefuse
    rw [setCategoryDirectCore,hslots.mapM,ok_bind,if_pos hrefuse]
    rfl
  refine Or.inl ⟨_,hcore,?_⟩
  rw [setCategoryDirect,hcore]
  rfl

/-- What passes the check is committed exactly when it splits the amount as it is stored. -/
lemma directLaw_iff_of_accepted (hvalid : DbConstraints s) (hfilters : (s.filters.map (·.id)).Nodup)
    (hids : (s.transactions.map (·.id)).Nodup) (ht : t ∈ s.transactions)
    (hslots : SlotsDecimal s slots) (haccept : ¬ RefusesSum t (slotValues slots)) (now : Timestamp) :
    DirectLaw lower s now t slots ↔ StoredSplit t (slotValues slots) := by
  let s' := refreshTransactionHits lower (replaceDirects s now t.id (slotValues slots)) t.id
    (slotValues slots ≠ [])
  have hcore : setCategoryDirectCore lower s now t slots=.ok (none,s') := by
    rw [RefusesSum] at haccept
    rw [setCategoryDirectCore,hslots.mapM,ok_bind,if_neg haccept]
    rfl
  have hset : setCategoryDirect lower s now t slots=commit s' := by
    rw [setCategoryDirect,hcore]
    rfl
  have hconstraints := replaceDirects_constraints_iff lower now hvalid hfilters hids ht
    hslots.categories (slotValues slots ≠ [])
  have hactive : activeDirects s' t.id=(slotValues slots).map (newDirect t.id) := by
    have hsame : activeDirects s' t.id=
        activeDirects (replaceDirects s now t.id (slotValues slots)) t.id := by
      unfold activeDirects s' refreshTransactionHits
      split_ifs <;> rfl
    rw [hsame,activeDirects_replaceDirects,if_pos rfl]
  rw [← hconstraints]
  constructor
  · rintro (⟨message,hmessage,-⟩ | ⟨s'',hcommit,-⟩)
    · rw [hcore] at hmessage
      cases hmessage
    · rw [hset] at hcommit
      exact (commit_eq_ok hcommit).2
  · intro hok
    obtain ⟨hcategories,-,hsum⟩ := hconstraints.mp hok
    refine Or.inr ⟨s',?_,hactive,?_,?_⟩
    · rw [hset,commit,if_pos hok]
    · rw [hactive,List.map_map]
      exact hcategories
    · rw [hactive,List.map_map,List.map_eq_nil_iff]
      exact hsum

/-- The law holds exactly when the slots are refused for their sum, or when they split the amount as
they are stored: each category once, in the range of the column, and adding up after rounding. -/
theorem directLaw_iff (hvalid : DbConstraints s) (hfilters : (s.filters.map (·.id)).Nodup)
    (hids : (s.transactions.map (·.id)).Nodup) (ht : t ∈ s.transactions)
    (hslots : SlotsDecimal s slots) (now : Timestamp) : DirectLaw lower s now t slots ↔
      RefusesSum t (slotValues slots) ∨ StoredSplit t (slotValues slots) := by
  by_cases hrefuse : RefusesSum t (slotValues slots)
  · exact iff_of_true (directLaw_of_refused lower hslots hrefuse now) (Or.inl hrefuse)
  · rw [directLaw_iff_of_accepted lower hvalid hfilters hids ht hslots hrefuse now]
    exact (or_iff_right hrefuse).symm

end Law

/-- A store with two categories and one booking of 25.00. -/
def twoCategories : Store :=
  { beitragStore with categories := [⟨2,text "eingang.mitgliedsbeitrag"⟩,⟨3,text "projekt.bude"⟩] }

def beitragBooking : P4xTransaction where
  id := 11
  sha256Hash := "h"
  booking := .of 2025 2 3
  valuation := .of 2025 2 3
  iban := text "AT1"
  amount := 2500
  subject := text "mitgliedsbeitrag"
  p4xAccountId := 1
  delegatingMemberId := none
  delegatingContactId := none
  delegatingP4xAccountId := none
  delegatingP4xSpecialContactId := none
  raw := "{}"
  deletedAt := none

def decimalSlots (values : List (Uuid × ℚ)) : List Slot :=
  values.map fun value => ⟨some value.1,.decimal value.2⟩

lemma slotValues_decimalSlots (values : List (Uuid × ℚ)) : slotValues (decimalSlots values)=values := by
  induction values with
  | nil => rfl
  | cons value values ih =>
    change value::slotValues (decimalSlots values)=value::values
    rw [ih]

lemma slotsDecimal_decimalSlots {s : Store} {values : List (Uuid × ℚ)}
    (h : ∀ value ∈ values, ∃ c ∈ s.categories, c.id=value.1) : SlotsDecimal s (decimalSlots values) := by
  intro slot hslot
  obtain ⟨value,hvalue,rfl⟩ := List.mem_map.mp hslot
  obtain ⟨c,hc,hid⟩ := h value hvalue
  exact ⟨⟨c,hc,by rw [hid]⟩,Or.inr ⟨_,rfl⟩⟩

lemma twoCategories_constraints : DbConstraints twoCategories := by decide +kernel

lemma beitragBooking_mem : beitragBooking ∈ twoCategories.transactions := by decide +kernel

theorem directLaw_twoCategories :
    DirectLaw id twoCategories 9 beitragBooking (decimalSlots [(2,10),(3,15)]) := by
  refine (directLaw_iff id twoCategories_constraints (by decide +kernel) (by decide +kernel)
    beitragBooking_mem (slotsDecimal_decimalSlots (by decide +kernel)) 9).mpr (Or.inr ?_)
  rw [slotValues_decimalSlots]
  refine ⟨by decide,?_,Or.inr ?_⟩
  · decide +kernel
  · decide +kernel

/-- A repeated category, and amounts of three decimals: the check passes, the database refuses. -/
theorem directLaw_fails :
    ¬ DirectLaw id twoCategories 9 beitragBooking (decimalSlots [(2,25/2),(2,25/2)]) ∧
    ¬ DirectLaw id twoCategories 9 beitragBooking (decimalSlots [(2,2499/200),(3,2501/200)]) := by
  have hiff : ∀ values : List (Uuid × ℚ), (∀ value ∈ values, ∃ c ∈ twoCategories.categories,
      c.id=value.1) → ¬ RefusesSum beitragBooking values →
        (DirectLaw id twoCategories 9 beitragBooking (decimalSlots values) ↔
          StoredSplit beitragBooking values) := by
    intro values hvalues haccept
    rw [directLaw_iff_of_accepted id twoCategories_constraints (by decide +kernel)
      (by decide +kernel) beitragBooking_mem (slotsDecimal_decimalSlots hvalues)
      (by rw [slotValues_decimalSlots]; exact haccept) 9,slotValues_decimalSlots]
  constructor
  · rw [hiff _ (by decide +kernel) fun hrefuse => hrefuse.2 (by decide +kernel)]
    intro hsplit
    have hcategories := hsplit.1
    simp at hcategories
  · rw [hiff _ (by decide +kernel) fun hrefuse => hrefuse.2 (by decide +kernel)]
    intro hsplit
    rcases hsplit.2.2 with hnil | hsum
    · cases hnil
    · revert hsum
      decide +kernel

end VbApi.P4x
