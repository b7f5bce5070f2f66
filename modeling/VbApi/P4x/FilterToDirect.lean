import VbApi.P4x.CategoryReaders
import VbApi.P4x.FilterHits

/-! The conversion of a filter's hits into direct assignments as the readers see it: each category
holds the transactions that it held before. -/
namespace VbApi.P4x
open VbApi.Foundations

section Conversion
variable (lower : PyText → PyText)

lemma activeDirects_categories {s : Store} {txId : Uuid} {c : Option Uuid} :
    (∃ d ∈ s.directs, d.active=true ∧ d.p4xTransactionId=txId ∧ some d.p4xCategoryId=c) ↔
      ∃ d ∈ activeDirects s txId, some d.p4xCategoryId=c := by
  simp only [mem_activeDirects,and_assoc]

/-- The readers' rule for one transaction: its directs decide, and without any the hits do. -/
lemma mem_categoryTxIds_iff_directs {s : Store} {txId : Uuid} {c : Option Uuid}
    (h : activeDirects s txId ≠ []) :
    txId ∈ categoryTxIds s c ↔ ∃ d ∈ activeDirects s txId, some d.p4xCategoryId=c := by
  have hdirect := (mem_txWithDirects_iff_activeDirects s txId).mpr h
  simp only [mem_categoryTxIds,activeDirects_categories,hdirect,not_true_eq_false,and_false,or_false]

lemma mem_categoryTxIds_iff_hits {s : Store} {txId : Uuid} {c : Option Uuid}
    (h : activeDirects s txId=[]) :
    txId ∈ categoryTxIds s c ↔
      ∃ f ∈ s.filters, some f.p4xCategoryId=c ∧ ⟨f.id,txId⟩ ∈ s.filterHits := by
  have hdirect : txId ∉ txWithDirects s := by
    rw [mem_txWithDirects_iff_activeDirects,not_not]
    exact h
  simp [mem_categoryTxIds,activeDirects_categories,h,hdirect]

/-- Without category warnings the hits of a transaction without directs come from one filter. -/
lemma hit_unique_of_no_warnings {s : Store} (hexact : HitsExact lower s)
    (hnone : (getWarningsCategory s).2=0) {filterId filterId' txId : Uuid}
    (hhit : ⟨filterId,txId⟩ ∈ s.filterHits) (hhit' : ⟨filterId',txId⟩ ∈ s.filterHits) :
    filterId=filterId' := by
  obtain ⟨f,-,t,ht,heq,ha,hd,-⟩ := (hexact.mem_iff _).mp hhit
  cases heq
  have hcount : hitCount s t.id=1 := by
    have hnil := List.eq_nil_of_length_eq_zero hnone
    rw [List.filter_eq_nil_iff] at hnil
    have ht := hnil t ht
    by_contra hne
    exact ht (by simp [ha,hd,hne])
  rw [hitCount,List.countP_eq_length_filter,List.length_eq_one_iff] at hcount
  obtain ⟨only,honly⟩ := hcount
  have hmem : ∀ id, ⟨id,t.id⟩ ∈ s.filterHits → (⟨id,t.id⟩ : P4xCategoryFilterHit)=only := by
    intro id hid
    have : (⟨id,t.id⟩ : P4xCategoryFilterHit) ∈ s.filterHits.filter
        fun h => h.p4xTransactionId=t.id := by simpa using hid
    rw [honly] at this
    exact List.mem_singleton.mp this
  have := (hmem _ hhit).trans (hmem _ hhit').symm
  exact (P4xCategoryFilterHit.mk.inj this).1

/-- A filter hits exactly the transactions that the conversion goes through. -/
lemma hit_iff_mem_getFilterHits {s : Store} (hexact : HitsExact lower s) (f : P4xCategoryFilter)
    (txId : Uuid) : ⟨f.id,txId⟩ ∈ s.filterHits ↔ txId ∈ (getFilterHits s f).map (·.id) := by
  simp only [List.mem_map,mem_getFilterHits]
  constructor
  · intro hhit
    obtain ⟨g,-,t,ht,heq,ha,hd,-⟩ := (hexact.mem_iff _).mp hhit
    obtain ⟨-,rfl⟩ := P4xCategoryFilterHit.mk.inj heq
    exact ⟨t,⟨ht,ha,hhit,hd⟩,rfl⟩
  · rintro ⟨t,⟨-,-,hhit,-⟩,rfl⟩
    exact hhit

/-- Away from the converted transactions the hits stay. -/
lemma Converted.hit_iff {s s' : Store} {f : P4xCategoryFilter} (h : Converted lower s f s')
    (hexact : HitsExact lower s) {txId : Uuid} (hother : txId ∉ (getFilterHits s f).map (·.id))
    (filterId : Uuid) : ⟨filterId,txId⟩ ∈ s'.filterHits ↔ ⟨filterId,txId⟩ ∈ s.filterHits := by
  obtain ⟨directs,hits,rfl⟩ := h.rows
  have hdirect : txId ∈ txWithDirects { s with directs := directs, filterHits := hits } ↔
      txId ∈ txWithDirects s := by
    rw [mem_txWithDirects_iff_activeDirects,mem_txWithDirects_iff_activeDirects,h.others _ hother]
  rw [h.exact.mem_iff,hexact.mem_iff,shouldHit_iff,shouldHit_iff]
  simp only [mem_matchingTransactions,hdirect]

/-- The conversion moves no transaction between categories. -/
lemma Converted.categoryTxIds_eq {s s' : Store} {f : P4xCategoryFilter} (hf : f ∈ s.filters)
    (hids : (s.filters.map (·.id)).Nodup) (hexact : HitsExact lower s)
    (h : Converted lower s f s') (c : Option Uuid) : categoryTxIds s' c=categoryTxIds s c := by
  ext txId
  have hfilters : s'.filters=s.filters := by
    obtain ⟨directs,hits,rfl⟩ := h.rows
    rfl
  by_cases hmem : txId ∈ (getFilterHits s f).map (·.id)
  · -- f is the only filter that hits it, and its category is the one the direct names
    have hhit := (hit_iff_mem_getFilterHits lower hexact f txId).mpr hmem
    obtain ⟨t,ht,rfl⟩ := List.mem_map.mp hmem
    have hd : activeDirects s t.id=[] := by
      obtain ⟨-,-,-,hd⟩ := (mem_getFilterHits s f t).mp ht
      rwa [mem_txWithDirects_iff_activeDirects,not_not] at hd
    have hdirect := h.converted t ht
    rw [mem_categoryTxIds_iff_hits hd,mem_categoryTxIds_iff_directs (by simp [hdirect]),hdirect]
    constructor
    · rintro ⟨d,hdmem,hc⟩
      rw [List.mem_singleton.mp hdmem] at hc
      exact ⟨f,hf,hc,hhit⟩
    · rintro ⟨g,hg,hc,hghit⟩
      have hid := hit_unique_of_no_warnings lower hexact h.no_warnings.2 hghit hhit
      have hgf : g=f := List.inj_on_of_nodup_map hids hg hf hid
      exact ⟨_,List.mem_singleton_self _,by rw [← hgf]; exact hc⟩
  · have hsame := h.others txId hmem
    by_cases hd : activeDirects s txId=[]
    · rw [mem_categoryTxIds_iff_hits hd,mem_categoryTxIds_iff_hits (hsame.trans hd),hfilters]
      simp only [h.hit_iff lower hexact hmem]
    · have hd' : activeDirects s' txId ≠ [] := by rwa [hsame]
      rw [mem_categoryTxIds_iff_directs hd,mem_categoryTxIds_iff_directs hd',hsame]

/-- What the two readers and the tables show after a conversion that went through. -/
structure SameAssignments (s : Store) (f : P4xCategoryFilter) (s' : Store) : Prop where
  listed : ∀ accountId categoryId t,
    ListedInCategory s' accountId categoryId t ↔ ListedInCategory s accountId categoryId t
  fees : feeCategoryTxIds s'=feeCategoryTxIds s
  full_direct : ∀ t ∈ s.transactions, ⟨f.id,t.id⟩ ∈ s.filterHits →
    activeDirects s' t.id=[⟨t.id,f.p4xCategoryId,t.amount,none⟩]
  other_directs : ∀ txId, ⟨f.id,txId⟩ ∉ s.filterHits → activeDirects s' txId=activeDirects s txId
  no_hits : ∀ hit ∈ s'.filterHits, hit.p4xCategoryFilterId ≠ f.id

/-- A conversion of filter hits to directs that is let through leaves every category as it was. -/
theorem filterToDirect_sameAssignments {s s' : Store} (hids : IdsFresh s)
    (hamounts : ∀ t ∈ s.transactions, t.amount ≠ 0 ∧ InNumericRange t.amount)
    (hexact : HitsExact lower s) {f : P4xCategoryFilter} (hf : f ∈ s.filters) {now : Timestamp}
    (hok : filterToDirect lower s now f=.ok s') : SameAssignments s f s' := by
  have h := filterToDirect_ok lower hids hamounts hexact hok
  have hcategories := h.categoryTxIds_eq lower hf hids.filters_nodup hexact
  obtain ⟨directs,hits,hs'⟩ := h.rows
  constructor
  · intro accountId categoryId t
    rw [listedInCategory_iff,listedInCategory_iff,hcategories,hs']
  · have hfee : feeCategoryId s'=feeCategoryId s := by rw [hs']; rfl
    rw [feeCategoryTxIds,feeCategoryTxIds,hfee,hcategories]
  · intro t ht hhit
    obtain ⟨t',ht',hid⟩ := List.mem_map.mp ((hit_iff_mem_getFilterHits lower hexact f t.id).mp hhit)
    obtain ⟨htx,-⟩ := (mem_getFilterHits s f t').mp ht'
    rw [← List.inj_on_of_nodup_map hids.transactions_nodup htx ht hid]
    exact h.converted t' ht'
  · intro txId hhit
    exact h.others txId (mt (hit_iff_mem_getFilterHits lower hexact f txId).mpr hhit)
  · exact h.no_hits

end Conversion

/-- The converted store of the example: a direct over 25.00 in place of the hit. -/
def convertedBeitragStore : Store :=
  deleteHitsOf ((getFilterHits beitragStore (beitragFilter.toRow 10)).foldl
    (convertedStore id 8 (beitragFilter.toRow 10)) beitragStore) (beitragFilter.toRow 10)

lemma filterToDirect_beitrag :
    filterToDirect id beitragStore 8 (beitragFilter.toRow 10)=.ok convertedBeitragStore := by
  have hnone : ¬ (getWarningsPartner beitragStore).2+(getWarningsCategory beitragStore).2 > 0 := by
    decide +kernel
  have hamounts : ∀ t ∈ getFilterHits beitragStore (beitragFilter.toRow 10),
      t.amount ≠ 0 ∧ InNumericRange t.amount := by
    decide +kernel
  have hvalid : DbConstraints convertedBeitragStore := by
    decide +kernel
  rw [filterToDirect,if_neg hnone,foldlM_convertHit id 8 _ hamounts,ok_bind]
  exact if_pos hvalid

theorem filterToDirect_sameAssignments_beitrag :
    convertedBeitragStore.directs=[⟨11,2,2500,none⟩] ∧
      SameAssignments beitragStore (beitragFilter.toRow 10) convertedBeitragStore := by
  have h := beitragStore_invariant
  refine ⟨by decide +kernel,?_⟩
  exact filterToDirect_sameAssignments id h.ids (h.amounts_valid id) h.hits (by decide +kernel)
    filterToDirect_beitrag

end VbApi.P4x
