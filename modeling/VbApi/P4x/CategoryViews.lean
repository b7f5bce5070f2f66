import VbApi.P4x.FilterHits
import VbApi.P4x.Listings

/-! What the pages show of the categories: the categories of an account, the listings, the counts of
hits, the categories beside a transaction and the warnings. In every reachable store they agree. -/
namespace VbApi.P4x
open VbApi.Foundations

/-- The categories that an account uses. -/
def getAccountCategories (s : Store) (accountId : Uuid) : List P4xCategory :=
  let txIds := (s.transactions.filter fun t => t.p4xAccountId=accountId && t.active).map (·.id)
  if txIds=[] then []
  else
    let directCatIds := (s.directs.filter fun d => d.p4xTransactionId ∈ txIds && d.active).map
      (·.p4xCategoryId)
    let filterIds := (s.filterHits.filter fun h => h.p4xTransactionId ∈ txIds).map
      (·.p4xCategoryFilterId)
    let filterCatIds := if filterIds=[] then []
      else (s.filters.filter fun f => f.id ∈ filterIds).map (·.p4xCategoryId)
    let allCatIds := directCatIds ++ filterCatIds
    if allCatIds=[] then [] else s.categories.filter fun c => c.id ∈ allCatIds

/-- The count beside a filter: its hits on transactions without directs. -/
def getFilterHitCount (s : Store) (f : P4xCategoryFilter) : ℕ :=
  let query := s.filterHits.filter fun h => h.p4xCategoryFilterId=f.id
  let query := if txWithDirects s=∅ then query
    else query.filter fun h => h.p4xTransactionId ∉ txWithDirects s
  query.length

/-- `_filter_hit_counts`: the number of hits of each of these filters. -/
def filterHitCounts (s : Store) (filterIds : List Uuid) (filterId : Uuid) : ℕ :=
  if filterId ∈ filterIds then s.filterHits.countP fun h => h.p4xCategoryFilterId=filterId else 0

/-- The directs, and the filters with their hit counts, of a transaction's response. -/
structure CategoriesShown where
  directs : List (Uuid × Cents)
  filters : List (P4xCategoryFilter × ℕ)

/-- The filters that hit a transaction. -/
def hitsOf (s : Store) (t : P4xTransaction) : List P4xCategoryFilterHit :=
  s.filterHits.filter fun h => h.p4xTransactionId=t.id

/-- `_build_transaction_response`, its categories. -/
def categoriesShown (s : Store) (hitCounts : Uuid → ℕ) (t : P4xTransaction) : CategoriesShown where
  directs := (activeDirects s t.id).map fun d => (d.p4xCategoryId,d.amount)
  filters := (hitsOf s t).filterMap fun h =>
    (s.filters.find? fun f => f.id=h.p4xCategoryFilterId).map fun f => (f,hitCounts f.id)

/-- The categories of `build_transaction_responses`, with the counts of all their filters. -/
def buildTransactionResponses (s : Store) (txs : List P4xTransaction) : List CategoriesShown :=
  let hitCounts := filterHitCounts s (txs.flatMap fun t => (hitsOf s t).map (·.p4xCategoryFilterId))
  txs.map (categoriesShown s hitCounts)

/-- The response shows the category, by a direct or by a filter. -/
def CategoriesShown.shows (r : CategoriesShown) (categoryId : Uuid) : Prop :=
  (∃ d ∈ r.directs, d.1=categoryId) ∨ ∃ f ∈ r.filters, f.1.p4xCategoryId=categoryId

/-- What is shown of the categories in different places is the same. -/
structure CategoryViewsAgree (s : Store) : Prop where
  /-- An account offers the categories with transactions to list. -/
  account : ∀ orderBy size accountId page c, c ∈ getAccountCategories s accountId ↔
    c ∈ s.categories ∧ 0 < (Listings.getTransactionsByCategory orderBy size s accountId c.id page).2
  /-- A category lists the transactions beside which it is shown. -/
  listing : ∀ accountId categoryId, ∀ t ∈ s.transactions, ∀ hitCounts,
    t ∈ Listings.categoryRows s accountId categoryId ↔
      t.p4xAccountId=accountId ∧ t.active=true ∧ (categoriesShown s hitCounts t).shows categoryId
  /-- The count beside a filter, the count beside its transactions and the number of its listed
  transactions are one number. -/
  counts : ∀ f ∈ s.filters, ∀ orderBy size page,
    (Listings.getTransactionsByFilter orderBy size s f.p4xAccountId f.id page).2=
      getFilterHitCount s f ∧
    (getFilterHits s f).length=getFilterHitCount s f ∧
    ∀ txs, ∀ r ∈ buildTransactionResponses s txs, ∀ n, (f,n) ∈ r.filters → n=getFilterHitCount s f
  /-- Warned of is what shows no direct and not exactly one filter. -/
  warnings : ∀ t ∈ s.transactions, ∀ hitCounts, t ∈ (getWarningsCategory s).1 ↔
    t.active=true ∧ (categoriesShown s hitCounts t).directs=[] ∧
      (categoriesShown s hitCounts t).filters.length ≠ 1

/-- The early returns leave nothing out. -/
lemma mem_getAccountCategories_iff (s : Store) (accountId : Uuid) (c : P4xCategory) :
    c ∈ getAccountCategories s accountId ↔ c ∈ s.categories ∧
      ((∃ d ∈ s.directs, (d.p4xTransactionId ∈ (s.transactions.filter fun t =>
        t.p4xAccountId=accountId && t.active).map (·.id) ∧ d.active=true) ∧ d.p4xCategoryId=c.id) ∨
      ∃ f ∈ s.filters, f.id ∈ (s.filterHits.filter fun hit => hit.p4xTransactionId ∈
        (s.transactions.filter fun t => t.p4xAccountId=accountId && t.active).map (·.id)).map
          (·.p4xCategoryFilterId) ∧ f.p4xCategoryId=c.id) := by
  unfold getAccountCategories
  generalize (s.transactions.filter fun t => t.p4xAccountId=accountId && t.active).map (·.id)=txIds
  dsimp only
  generalize hids : (s.filterHits.filter fun h => h.p4xTransactionId ∈ txIds).map
    (·.p4xCategoryFilterId)=ids
  have hnone : ∀ xs : List Uuid, (if xs=[] then [] else s.categories.filter fun c => c.id ∈ xs)=
      s.categories.filter fun c => c.id ∈ xs := by
    intro xs
    split_ifs with hxs
    · simp [hxs]
    · rfl
  have hfilters : (if ids=[] then [] else (s.filters.filter fun f => f.id ∈ ids).map
      (·.p4xCategoryId))=(s.filters.filter fun f => f.id ∈ ids).map (·.p4xCategoryId) := by
    split_ifs with hnil
    · simp [hnil]
    · rfl
  rw [hnone,hfilters]
  split_ifs with htx
  · subst htx
    simp [← hids]
  · simp only [List.mem_filter,decide_eq_true_eq,List.mem_append,List.mem_map,Bool.and_eq_true,
      and_assoc]

section Hits
variable {lower : PyText → PyText} {s : Store} (h : CategoryInvariant lower s)
include h

/-- A hit leads to its filter and to an active transaction of the filter's account without directs. -/
lemma CategoryInvariant.hit {hit : P4xCategoryFilterHit} (hhit : hit ∈ s.filterHits) :
    ∃ f ∈ s.filters, ∃ t ∈ s.transactions, hit=⟨f.id,t.id⟩ ∧ t.active=true ∧
      t.id ∉ txWithDirects s ∧ t.p4xAccountId=f.p4xAccountId := by
  obtain ⟨f,hf,t,ht,rfl,hactive,hdirects,hmeets⟩ := (h.hits.mem_iff hit).mp hhit
  refine ⟨f,hf,t,ht,rfl,hactive,hdirects,?_⟩
  simp only [meetsCriteria,Bool.and_eq_true,decide_eq_true_eq] at hmeets
  exact hmeets.1.1.1.1

lemma CategoryInvariant.filter_unique {f f' : P4xCategoryFilter} (hf : f ∈ s.filters)
    (hf' : f' ∈ s.filters) (hid : f.id=f'.id) : f=f' :=
  List.inj_on_of_nodup_map h.ids.filters_nodup hf hf' hid

lemma CategoryInvariant.transaction_unique {t t' : P4xTransaction} (ht : t ∈ s.transactions)
    (ht' : t' ∈ s.transactions) (hid : t.id=t'.id) : t=t' :=
  List.inj_on_of_nodup_map h.ids.transactions_nodup ht ht' hid

/-- A filter's hit on a transaction. -/
lemma CategoryInvariant.mem_hits {f : P4xCategoryFilter} {t : P4xTransaction} (hf : f ∈ s.filters)
    (ht : t ∈ s.transactions) (hhit : (⟨f.id,t.id⟩ : P4xCategoryFilterHit) ∈ s.filterHits) :
    t.active=true ∧ t.id ∉ txWithDirects s ∧ t.p4xAccountId=f.p4xAccountId := by
  obtain ⟨f',hf',t',ht',heq,hactive,hdirects,haccount⟩ := h.hit hhit
  obtain ⟨hfid,htid⟩ := (P4xCategoryFilterHit.mk.injEq _ _ _ _).mp heq
  rw [h.filter_unique hf hf' hfid,h.transaction_unique ht ht' htid]
  exact ⟨hactive,hdirects,haccount⟩

lemma CategoryInvariant.find?_filter {f : P4xCategoryFilter} (hf : f ∈ s.filters) :
    s.filters.find? (fun g => g.id=f.id)=some f := by
  cases hfind : s.filters.find? (fun g => g.id=f.id) with
  | none => simpa using List.find?_eq_none.mp hfind f hf
  | some g =>
    have hg := List.mem_of_find?_eq_some hfind
    have hid : g.id=f.id := by simpa using List.find?_some hfind
    rw [h.filter_unique hg hf hid]

/-- The rows of a filter, however they are selected, are as many as its hits. -/
lemma CategoryInvariant.length_rows {f : P4xCategoryFilter} {rows : List P4xTransaction}
    (hf : f ∈ s.filters) (hnodup : rows.Nodup)
    (hrows : ∀ t, t ∈ rows ↔ t ∈ s.transactions ∧ (⟨f.id,t.id⟩ : P4xCategoryFilterHit) ∈ s.filterHits) :
    rows.length=(s.filterHits.filter fun hit => hit.p4xCategoryFilterId=f.id).length := by
  have hmap : (rows.map fun t => (⟨f.id,t.id⟩ : P4xCategoryFilterHit)).Perm
      (s.filterHits.filter fun hit => hit.p4xCategoryFilterId=f.id) := by
    apply (List.perm_ext_iff_of_nodup ?_ (h.hits.nodup.filter _)).mpr
    · intro hit
      rw [List.mem_map,List.mem_filter,decide_eq_true_eq]
      constructor
      · rintro ⟨t,ht,heq⟩
        subst heq
        exact ⟨((hrows t).mp ht).2,rfl⟩
      · rintro ⟨hhit,hid⟩
        obtain ⟨f',hf',t,ht,rfl,-⟩ := h.hit hhit
        obtain rfl := h.filter_unique hf' hf hid
        exact ⟨t,(hrows t).mpr ⟨ht,hhit⟩,rfl⟩
    · apply List.Nodup.map_on ?_ hnodup
      intro t ht t' ht' heq
      have hid : t.id=t'.id := (P4xCategoryFilterHit.mk.injEq _ _ _ _ ▸ heq).2
      exact h.transaction_unique ((hrows t).mp ht).1 ((hrows t').mp ht').1 hid
  rw [← hmap.length_eq,List.length_map]

/-- No hit stands beside a direct, so the count leaves none out. -/
lemma CategoryInvariant.getFilterHitCount_eq (f : P4xCategoryFilter) : getFilterHitCount s f=
    (s.filterHits.filter fun hit => hit.p4xCategoryFilterId=f.id).length := by
  unfold getFilterHitCount
  dsimp only
  split_ifs with hempty
  · rfl
  · rw [List.filter_eq_self.mpr]
    intro hit hhit
    obtain ⟨f',-,t,-,rfl,-,hdirects,-⟩ := h.hit (List.mem_of_mem_filter hhit)
    exact decide_eq_true hdirects

lemma CategoryInvariant.mem_filterRows {f : P4xCategoryFilter} (hf : f ∈ s.filters)
    (t : P4xTransaction) : t ∈ Listings.filterRows s f.p4xAccountId f.id ↔
      t ∈ s.transactions ∧ (⟨f.id,t.id⟩ : P4xCategoryFilterHit) ∈ s.filterHits := by
  have hids : t.id ∈ Listings.filterHitTxIds s f.id ↔
      (⟨f.id,t.id⟩ : P4xCategoryFilterHit) ∈ s.filterHits ∧ t.id ∉ txWithDirects s := by
    simp only [Listings.filterHitTxIds,Finset.mem_sdiff,List.mem_toFinset,List.mem_map,
      List.mem_filter,decide_eq_true_eq]
    constructor
    · rintro ⟨⟨⟨fid,tid⟩,⟨hhit,hf⟩,ht⟩,hdirects⟩
      dsimp only at hf ht
      subst hf ht
      exact ⟨hhit,hdirects⟩
    · rintro ⟨hhit,hdirects⟩
      exact ⟨⟨_,⟨hhit,rfl⟩,rfl⟩,hdirects⟩
  simp only [Listings.filterRows,Listings.activeOf,List.mem_filter,Bool.and_eq_true,
    decide_eq_true_eq,hids]
  constructor
  · rintro ⟨ht,_,hhit,_⟩
    exact ⟨ht,hhit⟩
  · rintro ⟨ht,hhit⟩
    obtain ⟨hactive,hdirects,haccount⟩ := h.mem_hits hf ht hhit
    exact ⟨ht,⟨haccount,hactive⟩,hhit,hdirects⟩

/-- A filter shown beside a transaction is one that hits it. -/
lemma CategoryInvariant.mem_filters_shown {hitCounts : Uuid → ℕ} {t : P4xTransaction}
    {f : P4xCategoryFilter} {n : ℕ} : (f,n) ∈ (categoriesShown s hitCounts t).filters ↔
      f ∈ s.filters ∧ n=hitCounts f.id ∧ (⟨f.id,t.id⟩ : P4xCategoryFilterHit) ∈ s.filterHits := by
  simp only [categoriesShown,hitsOf,List.mem_filterMap,List.mem_filter,decide_eq_true_eq,
    Option.map_eq_some_iff,Prod.mk.injEq]
  constructor
  · rintro ⟨⟨fid,tid⟩,⟨hhit,ht⟩,g,hfind,hg,hn⟩
    dsimp only at ht hfind
    subst hg ht
    have hid : g.id=fid := by simpa using List.find?_some hfind
    subst hid
    exact ⟨List.mem_of_find?_eq_some hfind,hn.symm,hhit⟩
  · rintro ⟨hf,hn,hhit⟩
    exact ⟨_,⟨hhit,rfl⟩,f,h.find?_filter hf,rfl,hn.symm⟩

lemma CategoryInvariant.length_filters_shown (hitCounts : Uuid → ℕ) (t : P4xTransaction) :
    (categoriesShown s hitCounts t).filters.length=hitCount s t.id := by
  have hsome : ∀ hit ∈ hitsOf s t, ((s.filters.find? fun f => f.id=hit.p4xCategoryFilterId).map
      fun f => (f,hitCounts f.id)).isSome=true := by
    intro hit hhit
    obtain ⟨f,hf,t',-,rfl,-⟩ := h.hit (List.mem_of_mem_filter hhit)
    rw [h.find?_filter hf]
    rfl
  have hlength : ∀ hits : List P4xCategoryFilterHit, (∀ hit ∈ hits,
      ((s.filters.find? fun f => f.id=hit.p4xCategoryFilterId).map
        fun f => (f,hitCounts f.id)).isSome=true) →
      (hits.filterMap fun hit => (s.filters.find? fun f => f.id=hit.p4xCategoryFilterId).map
        fun f => (f,hitCounts f.id)).length=hits.length := by
    intro hits hall
    induction hits with
    | nil => rfl
    | cons hit hits ih =>
      obtain ⟨x,hx⟩ := Option.isSome_iff_exists.mp (hall hit List.mem_cons_self)
      rw [List.filterMap_cons,hx]
      exact congrArg Nat.succ (ih fun hit' hhit' => hall hit' (List.mem_cons_of_mem _ hhit'))
  rw [hitCount,List.countP_eq_length_filter]
  exact hlength _ hsome

/-- A transaction is among those of a category when it shows the category. -/
lemma CategoryInvariant.mem_categoryTxIds {t : P4xTransaction} (hitCounts : Uuid → ℕ)
    (categoryId : Uuid) :
    t.id ∈ categoryTxIds s (some categoryId) ↔ (categoriesShown s hitCounts t).shows categoryId := by
  have hdirects : t.id ∈ directTxIds s (some categoryId) ↔
      ∃ d ∈ (categoriesShown s hitCounts t).directs, d.1=categoryId := by
    simp only [directTxIds,List.mem_toFinset,List.mem_map,List.mem_filter,Bool.and_eq_true,
      decide_eq_true_eq,Option.some.injEq,categoriesShown,activeDirects]
    constructor
    · rintro ⟨d,⟨hd,hcategory,hactive⟩,htx⟩
      exact ⟨_,⟨d,⟨hd,hactive,htx⟩,rfl⟩,hcategory⟩
    · rintro ⟨_,⟨d,⟨hd,hactive,htx⟩,heq⟩,hcategory⟩
      subst heq
      exact ⟨d,⟨hd,hcategory,hactive⟩,htx⟩
  have hfilters : t.id ∈ filterTxIds s (some categoryId) \ txWithDirects s ↔
      ∃ f ∈ (categoriesShown s hitCounts t).filters, f.1.p4xCategoryId=categoryId := by
    have htx : t.id ∈ filterTxIds s (some categoryId) ↔ ∃ f ∈ s.filters,
        f.p4xCategoryId=categoryId ∧ (⟨f.id,t.id⟩ : P4xCategoryFilterHit) ∈ s.filterHits := by
      have hmem : ∀ id, id ∈ filterIds s (some categoryId) ↔
          ∃ f ∈ s.filters, f.p4xCategoryId=categoryId ∧ f.id=id := by
        intro id
        simp [filterIds,and_assoc]
      unfold filterTxIds
      split_ifs with hnil
      · simp only [Finset.notMem_empty,false_iff]
        rintro ⟨f,hf,hcategory,_⟩
        have hid := (hmem f.id).mpr ⟨f,hf,hcategory,rfl⟩
        rw [hnil] at hid
        cases hid
      · simp only [List.mem_toFinset,List.mem_map,List.mem_filter,decide_eq_true_eq,hmem]
        constructor
        · rintro ⟨⟨fid,tid⟩,⟨hhit,f,hf,hcategory,hid⟩,ht⟩
          dsimp only at hid ht
          subst hid ht
          exact ⟨f,hf,hcategory,hhit⟩
        · rintro ⟨f,hf,hcategory,hhit⟩
          exact ⟨_,⟨hhit,f,hf,hcategory,rfl⟩,rfl⟩
    rw [Finset.mem_sdiff,htx]
    constructor
    · rintro ⟨⟨f,hf,hcategory,hhit⟩,_⟩
      exact ⟨(f,hitCounts f.id),h.mem_filters_shown.mpr ⟨hf,rfl,hhit⟩,hcategory⟩
    · rintro ⟨⟨f,n⟩,hmem,hcategory⟩
      obtain ⟨hf,-,hhit⟩ := h.mem_filters_shown.mp hmem
      obtain ⟨f',-,t',-,heq,-,hdirects,-⟩ := h.hit hhit
      obtain ⟨-,htid⟩ := (P4xCategoryFilterHit.mk.injEq _ _ _ _).mp heq
      exact ⟨⟨f,hf,hcategory,hhit⟩,htid ▸ hdirects⟩
  rw [categoryTxIds,Finset.mem_union,hdirects,hfilters]
  rfl

/-- The categories that an account uses are those of its transactions. -/
lemma CategoryInvariant.mem_getAccountCategories (accountId : Uuid) (c : P4xCategory) :
    c ∈ getAccountCategories s accountId ↔
      c ∈ s.categories ∧ ∃ t, t ∈ Listings.categoryRows s accountId c.id := by
  have hrow : ∀ t, t ∈ Listings.categoryRows s accountId c.id ↔ t ∈ s.transactions ∧
      (t.p4xAccountId=accountId ∧ t.active=true) ∧
      (categoriesShown s (fun _ => 0) t).shows c.id := by
    intro t
    rw [← h.mem_categoryTxIds]
    simp only [Listings.categoryRows,Listings.activeOf,List.mem_filter,Bool.and_eq_true,
      decide_eq_true_eq]
  have htxIds : ∀ txId, txId ∈ (s.transactions.filter fun t =>
      t.p4xAccountId=accountId && t.active).map (·.id) ↔
      ∃ t ∈ s.transactions, (t.p4xAccountId=accountId ∧ t.active=true) ∧ t.id=txId := by
    intro txId
    simp only [List.mem_map,List.mem_filter,Bool.and_eq_true,decide_eq_true_eq,and_assoc]
  have hdirect : (∃ d ∈ s.directs, (d.p4xTransactionId ∈ (s.transactions.filter fun t =>
        t.p4xAccountId=accountId && t.active).map (·.id) ∧ d.active=true) ∧ d.p4xCategoryId=c.id) ↔
      ∃ t ∈ s.transactions, (t.p4xAccountId=accountId ∧ t.active=true) ∧
        ∃ d ∈ (categoriesShown s (fun _ => 0) t).directs, d.1=c.id := by
    simp only [htxIds,categoriesShown,List.mem_map,mem_activeDirects]
    constructor
    · rintro ⟨d,hd,⟨⟨t,ht,hown,htx⟩,hactive⟩,hcategory⟩
      exact ⟨t,ht,hown,_,⟨d,⟨hd,hactive,htx.symm⟩,rfl⟩,hcategory⟩
    · rintro ⟨t,ht,hown,_,⟨d,⟨hd,hactive,htx⟩,heq⟩,hcategory⟩
      subst heq
      exact ⟨d,hd,⟨⟨t,ht,hown,htx.symm⟩,hactive⟩,hcategory⟩
  have hfilter : (∃ f ∈ s.filters, f.id ∈ (s.filterHits.filter fun hit => hit.p4xTransactionId ∈
        (s.transactions.filter fun t => t.p4xAccountId=accountId && t.active).map (·.id)).map
          (·.p4xCategoryFilterId) ∧ f.p4xCategoryId=c.id) ↔
      ∃ t ∈ s.transactions, (t.p4xAccountId=accountId ∧ t.active=true) ∧
        ∃ f ∈ (categoriesShown s (fun _ => 0) t).filters, f.1.p4xCategoryId=c.id := by
    constructor
    · rintro ⟨f,hf,hid,hcategory⟩
      obtain ⟨⟨fid,tid⟩,hmem,heq⟩ := List.mem_map.mp hid
      rw [List.mem_filter,decide_eq_true_eq] at hmem
      obtain ⟨t,ht,hown,htx⟩ := (htxIds tid).mp hmem.2
      dsimp only at heq
      subst heq htx
      exact ⟨t,ht,hown,(f,0),h.mem_filters_shown.mpr ⟨hf,rfl,hmem.1⟩,hcategory⟩
    · rintro ⟨t,ht,hown,⟨f,n⟩,hmem,hcategory⟩
      obtain ⟨hf,-,hhit⟩ := h.mem_filters_shown.mp hmem
      refine ⟨f,hf,List.mem_map.mpr ⟨_,List.mem_filter.mpr ⟨hhit,?_⟩,rfl⟩,hcategory⟩
      exact decide_eq_true ((htxIds t.id).mpr ⟨t,ht,hown,rfl⟩)
  have hall : (∃ t, t ∈ Listings.categoryRows s accountId c.id) ↔
      (∃ d ∈ s.directs, (d.p4xTransactionId ∈ (s.transactions.filter fun t =>
        t.p4xAccountId=accountId && t.active).map (·.id) ∧ d.active=true) ∧ d.p4xCategoryId=c.id) ∨
      ∃ f ∈ s.filters, f.id ∈ (s.filterHits.filter fun hit => hit.p4xTransactionId ∈
        (s.transactions.filter fun t => t.p4xAccountId=accountId && t.active).map (·.id)).map
          (·.p4xCategoryFilterId) ∧ f.p4xCategoryId=c.id := by
    rw [hdirect,hfilter]
    constructor
    · rintro ⟨t,ht⟩
      obtain ⟨ht,hown,hd | hf⟩ := (hrow t).mp ht
      · exact .inl ⟨t,ht,hown,hd⟩
      · exact .inr ⟨t,ht,hown,hf⟩
    · intro hshown
      obtain ⟨t,ht,hown,hd⟩ | ⟨t,ht,hown,hf⟩ := hshown
      · exact ⟨t,(hrow t).mpr ⟨ht,hown,.inl hd⟩⟩
      · exact ⟨t,(hrow t).mpr ⟨ht,hown,.inr hf⟩⟩
  rw [hall]
  exact mem_getAccountCategories_iff s accountId c

/-- In a store with exact hits the views agree. -/
lemma CategoryInvariant.viewsAgree : CategoryViewsAgree s where
  account orderBy size accountId page c := by
    rw [h.mem_getAccountCategories,Listings.getTransactionsByCategory_eq]
    apply and_congr_right
    intro _
    exact List.length_pos_iff_exists_mem.symm
  listing accountId categoryId t ht hitCounts := by
    rw [← h.mem_categoryTxIds]
    simp only [Listings.categoryRows,Listings.activeOf,List.mem_filter,Bool.and_eq_true,
      decide_eq_true_eq,ht,true_and,and_assoc]
  counts f hf orderBy size page := by
    rw [Listings.getTransactionsByFilter_eq,h.getFilterHitCount_eq]
    have hnodup : ∀ p : P4xTransaction → Bool, (s.transactions.filter p).Nodup := fun p =>
      h.ids.transactions_nodup.of_map.filter p
    refine ⟨h.length_rows hf (hnodup _) (h.mem_filterRows hf),?_,?_⟩
    · apply h.length_rows hf
      · unfold getFilterHits
        dsimp only
        split_ifs
        · exact List.nodup_nil
        · exact hnodup _
      · intro t
        rw [mem_getFilterHits]
        constructor
        · rintro ⟨ht,_,hhit,_⟩
          exact ⟨ht,hhit⟩
        · rintro ⟨ht,hhit⟩
          obtain ⟨hactive,hdirects,-⟩ := h.mem_hits hf ht hhit
          exact ⟨ht,hactive,hhit,hdirects⟩
    · intro txs r hr n hn
      obtain ⟨t,ht,rfl⟩ := List.mem_map.mp hr
      obtain ⟨-,rfl,hhit⟩ := h.mem_filters_shown.mp hn
      rw [filterHitCounts,if_pos,List.countP_eq_length_filter]
      apply List.mem_flatMap.mpr
      refine ⟨t,ht,List.mem_map.mpr ⟨_,List.mem_filter.mpr ⟨hhit,decide_eq_true rfl⟩,rfl⟩⟩
  warnings t ht hitCounts := by
    rw [h.length_filters_shown]
    simp only [getWarningsCategory,mem_sortBy,List.mem_filter,Bool.and_eq_true,decide_eq_true_eq,ht,
      true_and,mem_txWithDirects_iff_activeDirects,categoriesShown,List.map_eq_nil_iff,not_not,
      and_assoc]

end Hits

/-- After any run of imports, filter and direct operations from an empty store the views of the
categories agree. -/
theorem category_views_agree (lower : PyText → PyText) (sha256 : List Char → String) {s₀ s : Store}
    (hempty : EmptyStore s₀) (hrun : (categoryMachine lower sha256).Reaches Machine.Any s₀ s) :
    CategoryViewsAgree s := by
  have hinv : CategoryInvariant lower s := by
    refine hrun.invariant (hempty.invariant lower) ?_
    intro t op u ht _ hstep
    simp only [categoryMachine,CategoryOp.after,Option.some.injEq] at hstep
    rw [← hstep]
    exact after_invariant lower sha256 ht op
  exact hinv.viewsAgree

theorem category_views_agree_beitrag : (getAccountCategories beitragStore 1).map (·.id)=[2] ∧
    CategoryViewsAgree beitragStore := by
  refine ⟨by decide +kernel,?_⟩
  exact category_views_agree id (fun _ => "h") bareStore_empty
    (.next (.next .refl trivial rfl) trivial rfl)

end VbApi.P4x
