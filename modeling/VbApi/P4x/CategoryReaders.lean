import VbApi.Foundations.Sorting
import VbApi.P4x.Store

/-! Which transactions a category holds. The rule is written out three times in the source: for
the category listing, for the fee payments and for the SumUp balance. -/
namespace VbApi.P4x
open VbApi.Foundations

def feeCategoryName : PyText := text "eingang.mitgliedsbeitrag"
def sumupCategoryName : PyText := text "projekt.bude.sumup"

def directTxIds (s : Store) (categoryId : Option Uuid) : Finset Uuid :=
  ((s.directs.filter fun d => some d.p4xCategoryId=categoryId && d.active).map
    (·.p4xTransactionId)).toFinset

def filterIds (s : Store) (categoryId : Option Uuid) : List Uuid :=
  (s.filters.filter fun f => some f.p4xCategoryId=categoryId).map (·.id)

def filterTxIds (s : Store) (categoryId : Option Uuid) : Finset Uuid :=
  if filterIds s categoryId=[] then ∅
  else ((s.filterHits.filter fun h => h.p4xCategoryFilterId ∈ filterIds s categoryId).map
    (·.p4xTransactionId)).toFinset

/-- The direct assignments of a category, and the hits of its filters on transactions without
any direct assignment. -/
def categoryTxIds (s : Store) (categoryId : Option Uuid) : Finset Uuid :=
  directTxIds s categoryId ∪ (filterTxIds s categoryId \ txWithDirects s)

/-- The id of the membership-fee category, or nothing. -/
def feeCategoryId (s : Store) : Option Uuid :=
  (s.categories.find? fun c => c.name=feeCategoryName).map (·.id)

def feeCategoryTxIds (s : Store) : Finset Uuid := categoryTxIds s (feeCategoryId s)

/-- The newest booking first; the order among equal bookings is the database's. -/
def byBookingDesc (ts : List P4xTransaction) : List P4xTransaction :=
  sortBy (fun t => OrderDual.toDual t.booking) ts

def paginationSize : ℕ := 100

/-- The rows that the listing of a category in an account selects. -/
def transactionsOfCategory (s : Store) (accountId categoryId : Uuid) : List P4xTransaction :=
  s.transactions.filter fun t =>
    t.p4xAccountId=accountId && t.active && t.id ∈ categoryTxIds s (some categoryId)

/-- One page of a category's transactions and their total number. -/
def getTransactionsByCategory (s : Store) (accountId categoryId : Uuid) (page : ℕ) :
    List P4xTransaction × ℕ :=
  if categoryTxIds s (some categoryId)=∅ then ([],0)
  else
    let rows := byBookingDesc (transactionsOfCategory s accountId categoryId)
    ((rows.drop ((page-1)*paginationSize)).take paginationSize,rows.length)

/-- What the pages of a category's listing show. -/
def ListedInCategory (s : Store) (accountId categoryId : Uuid) (t : P4xTransaction) : Prop :=
  ∃ page, 1 ≤ page ∧ t ∈ (getTransactionsByCategory s accountId categoryId page).1

lemma mem_directTxIds (s : Store) (c : Option Uuid) (txId : Uuid) :
    txId ∈ directTxIds s c ↔
      ∃ d ∈ s.directs, d.active=true ∧ d.p4xTransactionId=txId ∧ some d.p4xCategoryId=c := by
  simp only [directTxIds,List.mem_toFinset,List.mem_map,List.mem_filter,Bool.and_eq_true,
    decide_eq_true_eq]
  constructor
  · rintro ⟨d,⟨hd,hc,ha⟩,ht⟩
    exact ⟨d,hd,ha,ht,hc⟩
  · rintro ⟨d,hd,ha,ht,hc⟩
    exact ⟨d,⟨hd,hc,ha⟩,ht⟩

lemma mem_filterTxIds (s : Store) (c : Option Uuid) (txId : Uuid) :
    txId ∈ filterTxIds s c ↔
      ∃ f ∈ s.filters, some f.p4xCategoryId=c ∧ ⟨f.id,txId⟩ ∈ s.filterHits := by
  have hids : ∀ i, i ∈ filterIds s c ↔ ∃ f ∈ s.filters, some f.p4xCategoryId=c ∧ f.id=i := by
    intro i
    simp [filterIds,and_assoc]
  unfold filterTxIds
  split_ifs with h
  · constructor
    · simp
    · rintro ⟨f,hf,hc,-⟩
      have hi := (hids f.id).mpr ⟨f,hf,hc,rfl⟩
      rw [h] at hi
      contradiction
  · simp only [List.mem_toFinset,List.mem_map,List.mem_filter,decide_eq_true_eq,hids]
    constructor
    · rintro ⟨hit,⟨hmem,f,hf,hc,hid⟩,rfl⟩
      exact ⟨f,hf,hc,by rw [hid]; exact hmem⟩
    · rintro ⟨f,hf,hc,hmem⟩
      exact ⟨_,⟨hmem,f,hf,hc,rfl⟩,rfl⟩

lemma mem_categoryTxIds (s : Store) (c : Option Uuid) (txId : Uuid) :
    txId ∈ categoryTxIds s c ↔
      (∃ d ∈ s.directs, d.active=true ∧ d.p4xTransactionId=txId ∧ some d.p4xCategoryId=c) ∨
      ((∃ f ∈ s.filters, some f.p4xCategoryId=c ∧ ⟨f.id,txId⟩ ∈ s.filterHits) ∧
        txId ∉ txWithDirects s) := by
  rw [categoryTxIds,Finset.mem_union,Finset.mem_sdiff,mem_directTxIds,mem_filterTxIds]

lemma mem_byBookingDesc (ts : List P4xTransaction) (t : P4xTransaction) :
    t ∈ byBookingDesc ts ↔ t ∈ ts := mem_sortBy _ _ _

/-- All pages together show exactly the selected rows. -/
theorem listedInCategory_iff (s : Store) (accountId categoryId : Uuid) (t : P4xTransaction) :
    ListedInCategory s accountId categoryId t ↔
      t ∈ s.transactions ∧ t.p4xAccountId=accountId ∧ t.active=true ∧
        t.id ∈ categoryTxIds s (some categoryId) := by
  have hrows : t ∈ transactionsOfCategory s accountId categoryId ↔
      t ∈ s.transactions ∧ t.p4xAccountId=accountId ∧ t.active=true ∧
        t.id ∈ categoryTxIds s (some categoryId) := by
    simp [transactionsOfCategory,and_assoc]
  rw [← hrows]
  unfold ListedInCategory getTransactionsByCategory
  split_ifs with hempty
  · simp [transactionsOfCategory,hempty]
  · rw [← mem_byBookingDesc]
    generalize byBookingDesc (transactionsOfCategory s accountId categoryId)=rows
    constructor
    · rintro ⟨page,-,hmem⟩
      exact List.mem_of_mem_drop (List.mem_of_mem_take hmem)
    · intro hmem
      obtain ⟨i,hi,rfl⟩ := List.getElem_of_mem hmem
      -- the row at position i stands on page i/100+1
      have hdiv := Nat.div_add_mod i 100
      have hmod := Nat.mod_lt i (by norm_num : 0 < 100)
      refine ⟨i/100+1,by omega,?_⟩
      rw [List.mem_iff_getElem]
      refine ⟨i%100,?_,?_⟩
      · simp only [paginationSize,List.length_take,List.length_drop,Nat.add_sub_cancel]
        omega
      · simp only [paginationSize,List.getElem_take,List.getElem_drop,Nat.add_sub_cancel]
        congr 1
        omega

end VbApi.P4x
