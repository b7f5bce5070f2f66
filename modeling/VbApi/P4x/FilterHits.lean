import VbApi.Foundations.Machine
import VbApi.P4x.Import

/-! The stored filter hits over whole runs of the writes: every operation that touches filters,
directs or transactions leaves exactly the hits that a rebuild would compute. -/
namespace VbApi.P4x
open VbApi.Foundations

section Directs
variable {s : Store} {now : Timestamp} {txId : Uuid} {values : List (Uuid × ℚ)}

lemma setAsideDirect_counts (d : P4xCategoryDirect) (id : Uuid) :
    ((setAsideDirect now txId d).active && decide ((setAsideDirect now txId d).p4xTransactionId=id))=
      (d.active && decide (d.p4xTransactionId=id) && decide (id ≠ txId)) := by
  unfold setAsideDirect
  split_ifs with hd
  · obtain ⟨rfl,ha⟩ := hd
    by_cases hid : id=d.p4xTransactionId
    · simp [P4xCategoryDirect.active,hid]
    · simp [P4xCategoryDirect.active,Ne.symm hid]
  · by_cases hid : id=txId
    · subst hid
      rw [Bool.eq_iff_iff]
      simp only [Bool.and_eq_true,decide_eq_true_eq,ne_eq,not_true_eq_false,and_false,iff_false]
      exact fun h => hd ⟨h.2,h.1⟩
    · simp [hid]

/-- The directs of a transaction after they were replaced; the others are untouched. -/
lemma activeDirects_replaceDirects (id : Uuid) :
    activeDirects (replaceDirects s now txId values) id=
      if id=txId then values.map (newDirect txId) else activeDirects s id := by
  have hold : (s.directs.map (setAsideDirect now txId)).filter
      (fun d => d.active && d.p4xTransactionId=id)=if id=txId then [] else activeDirects s id := by
    rw [List.filter_map]
    simp only [Function.comp_def,setAsideDirect_counts]
    split_ifs with hid
    · simp [hid]
    · simp only [hid,ne_eq,not_false_eq_true,decide_true,Bool.and_true]
      rw [← activeDirects]
      refine (List.map_congr_left ?_).trans (List.map_id _)
      intro d hd
      obtain ⟨-,-,rfl⟩ := (mem_activeDirects s id d).mp hd
      simp [setAsideDirect,hid]
  have hnew : (values.map (newDirect txId)).filter (fun d => d.active && d.p4xTransactionId=id)=
      if id=txId then values.map (newDirect txId) else [] := by
    split_ifs with hid
    · rw [List.filter_eq_self]
      intro d hd
      obtain ⟨v,-,rfl⟩ := List.mem_map.mp hd
      simp [newDirect,P4xCategoryDirect.active,hid]
    · rw [List.filter_eq_nil_iff]
      intro d hd
      obtain ⟨v,-,rfl⟩ := List.mem_map.mp hd
      simp [newDirect,Ne.symm hid]
  rw [activeDirects,replaceDirects,List.filter_append,hold,hnew]
  split_ifs <;> simp

lemma mem_txWithDirects_replaceDirects (id : Uuid) :
    id ∈ txWithDirects (replaceDirects s now txId values) ↔
      if id=txId then values ≠ [] else id ∈ txWithDirects s := by
  rw [mem_txWithDirects_iff_activeDirects,activeDirects_replaceDirects]
  split_ifs
  · simp
  · rw [mem_txWithDirects_iff_activeDirects]

end Directs

section Runs
variable (lower : PyText → PyText) (sha256 : List Char → String)

/-- What every committed store keeps. -/
structure CategoryInvariant (s : Store) : Prop where
  ids : IdsFresh s
  amounts : ∀ t ∈ s.transactions, t.amount ≠ 0
  constraints : DbConstraints s
  hits : HitsExact lower s

/-- New directs of one transaction, with its hits brought up to date. -/
lemma HitsExact.replaceDirects {s : Store} (h : HitsExact lower s) (hids : IdsFresh s)
    (now : Timestamp) (txId : Uuid) (values : List (Uuid × ℚ)) :
    HitsExact lower (refreshTransactionHits lower (replaceDirects s now txId values) txId
      (values ≠ [])) := by
  apply h.refresh lower hids (P4x.replaceDirects s now txId values) ⟨rfl,rfl,rfl⟩
  · intro id hid
    rw [mem_txWithDirects_replaceDirects,if_neg hid]
  · rw [mem_txWithDirects_replaceDirects,if_pos rfl]
    simp

lemma IdsFresh.congr {s s' : Store} (h : IdsFresh s) (hfilters : s'.filters=s.filters)
    (htransactions : s'.transactions=s.transactions) (hnext : s'.nextUuid=s.nextUuid) : IdsFresh s' := by
  constructor
  · rw [hfilters]; exact h.filters_nodup
  · rw [htransactions]; exact h.transactions_nodup
  · rw [hfilters,hnext]; exact h.filters_lt
  · rw [htransactions,hnext]; exact h.transactions_lt

/-- A committed rebuild of a store whose hits name present filters. -/
lemma CategoryInvariant.of_rebuild {s s' : Store} {truncateFirst : Bool}
    (h : commit (applyAllCategoryFiltersCore lower s truncateFirst)=.ok s') (hids : IdsFresh s)
    (hamounts : ∀ t ∈ s.transactions, t.amount ≠ 0) (hnodup : s.filterHits.Nodup)
    (hpresent : ∀ hit ∈ s.filterHits, hit.p4xCategoryFilterId ∈ s.filters.map (·.id)) :
    CategoryInvariant lower s' := by
  obtain ⟨hits,hrun,hexact⟩ :=
    applyAllCategoryFiltersCore_spec lower hids truncateFirst hnodup hpresent
  obtain ⟨rfl,hvalid⟩ := commit_eq_ok h
  rw [hrun] at hvalid ⊢
  exact ⟨hids.congr rfl rfl rfl,hamounts,hvalid,hexact⟩

lemma createCategoryFilter_invariant {s s' : Store} (h : CategoryInvariant lower s)
    {data : CategoryFilterSaveRequest} (hok : createCategoryFilter lower s data=.ok s') :
    CategoryInvariant lower s' := by
  simp only [createCategoryFilter,bind_eq_ok_iff] at hok
  obtain ⟨-,-,-,-,hok⟩ := hok
  refine CategoryInvariant.of_rebuild lower hok ?_ h.amounts h.hits.nodup ?_
  · constructor
    · rw [List.map_append,List.map_singleton]
      refine h.ids.filters_nodup.append (List.nodup_singleton _) ?_
      intro id hold hnew
      obtain ⟨f,hf,rfl⟩ := List.mem_map.mp hold
      have hid : f.id=s.nextUuid := List.mem_singleton.mp hnew
      exact absurd hid (h.ids.filters_lt f hf).ne
    · exact h.ids.transactions_nodup
    · intro f hf
      rcases List.mem_append.mp hf with hf | hf
      · exact (h.ids.filters_lt f hf).trans (Nat.lt_succ_self _)
      · rw [List.mem_singleton.mp hf]
        exact Nat.lt_succ_self _
    · exact fun t ht => (h.ids.transactions_lt t ht).trans (Nat.lt_succ_self _)
  · intro hit hhit
    rw [List.map_append]
    exact List.mem_append_left _ (h.hits.present lower hit hhit)

lemma updateCategoryFilter_invariant {s s' : Store} (h : CategoryInvariant lower s)
    {f : P4xCategoryFilter} {data : CategoryFilterSaveRequest}
    (hok : updateCategoryFilter lower s f data=.ok s') : CategoryInvariant lower s' := by
  simp only [updateCategoryFilter,bind_eq_ok_iff] at hok
  obtain ⟨-,-,-,-,hok⟩ := hok
  have hsame : (s.filters.map fun g => if g.id=f.id then data.toRow g.id else g).map (·.id)=
      s.filters.map (·.id) := by
    rw [List.map_map]
    apply List.map_congr_left
    intro g _
    by_cases hg : g.id=f.id <;> simp [hg,CategoryFilterSaveRequest.toRow]
  refine CategoryInvariant.of_rebuild lower hok ?_ h.amounts h.hits.nodup ?_
  · constructor
    · rw [hsame]
      exact h.ids.filters_nodup
    · exact h.ids.transactions_nodup
    · intro g hg
      have hid : g.id ∈ s.filters.map (·.id) := by
        rw [← hsame]
        exact List.mem_map_of_mem hg
      obtain ⟨g',hg',hid⟩ := List.mem_map.mp hid
      rw [← hid]
      exact h.ids.filters_lt g' hg'
    · exact h.ids.transactions_lt
  · intro hit hhit
    rw [hsame]
    exact h.hits.present lower hit hhit

lemma deleteCategoryFilter_invariant {s s' : Store} (h : CategoryInvariant lower s)
    {f : P4xCategoryFilter} (hok : deleteCategoryFilter s f=.ok s') : CategoryInvariant lower s' := by
  obtain ⟨rfl,hvalid⟩ := commit_eq_ok hok
  refine ⟨?_,h.amounts,hvalid,?_,?_⟩
  · constructor
    · exact h.ids.filters_nodup.sublist (List.filter_sublist.map _)
    · exact h.ids.transactions_nodup
    · exact fun g hg => h.ids.filters_lt g (List.mem_of_mem_filter hg)
    · exact h.ids.transactions_lt
  · exact h.hits.nodup.filter _
  · intro hit
    simp only [deleteHitsOf,List.mem_filter,decide_eq_true_eq,h.hits.mem_iff]
    constructor
    · rintro ⟨⟨g,hg,t,ht,rfl,hrest⟩,hne⟩
      exact ⟨g,List.mem_filter.mpr ⟨hg,by simpa using hne⟩,t,ht,rfl,hrest⟩
    · rintro ⟨g,hg,t,ht,rfl,hrest⟩
      obtain ⟨hg,hne⟩ := List.mem_filter.mp hg
      exact ⟨⟨g,hg,t,ht,rfl,hrest⟩,by simpa using hne⟩

lemma commit_refresh_invariant {s s' : Store} (h : CategoryInvariant lower s) (now : Timestamp)
    (txId : Uuid) (values : List (Uuid × ℚ))
    (hok : commit (refreshTransactionHits lower (replaceDirects s now txId values) txId
      (values ≠ []))=.ok s') : CategoryInvariant lower s' := by
  obtain ⟨rfl,hvalid⟩ := commit_eq_ok hok
  have hrows : ∃ hits, refreshTransactionHits lower (replaceDirects s now txId values) txId
      (values ≠ [])={ replaceDirects s now txId values with filterHits := hits } := by
    cases decide (values ≠ []) <;> exact ⟨_,rfl⟩
  obtain ⟨hits,hrows⟩ := hrows
  have hexact := h.hits.replaceDirects lower h.ids now txId values
  rw [hrows] at hvalid hexact ⊢
  exact ⟨h.ids.congr rfl rfl rfl,h.amounts,hvalid,hexact⟩

lemma setCategoryDirect_invariant {s s' : Store} (h : CategoryInvariant lower s) {now : Timestamp}
    {t : P4xTransaction} {slots : List Slot} (hok : setCategoryDirect lower s now t slots=.ok s') :
    CategoryInvariant lower s' := by
  simp only [setCategoryDirect,setCategoryDirectCore,bind_eq_ok_iff] at hok
  obtain ⟨⟨message,mid⟩,⟨values,-,hcore⟩,hok⟩ := hok
  split_ifs at hcore with hsum
  · cases hcore
    cases hok
  · cases hcore
    exact commit_refresh_invariant lower h now t.id values hok

lemma unsetCategoryDirect_invariant {s s' : Store} (h : CategoryInvariant lower s) {now : Timestamp}
    {t : P4xTransaction} (hok : unsetCategoryDirect lower s now t=.ok s') :
    CategoryInvariant lower s' :=
  commit_refresh_invariant lower h now t.id [] hok

/-- A transaction after a round of the conversion: one direct over its full amount, no hits. -/
def convertedStore (now : Timestamp) (f : P4xCategoryFilter) (s : Store) (t : P4xTransaction) : Store :=
  refreshTransactionHits lower
    (replaceDirects s now t.id [(f.p4xCategoryId,(t.amount : ℚ)/100)]) t.id true

/-- An amount that the column can hold adds up to itself. -/
lemma convertHit_eq (now : Timestamp) (f : P4xCategoryFilter) (s : Store) {t : P4xTransaction}
    (hne : t.amount ≠ 0) (hrange : InNumericRange t.amount) :
    convertHit lower now f s t=.ok (convertedStore lower now f s t) := by
  have hslot : validSlots [⟨some f.p4xCategoryId,SlotAmount.ofNumeric t.amount⟩]=
      [(f.p4xCategoryId,.decimal ((t.amount : ℚ)/100))] := by
    simp [validSlots,SlotAmount.ofNumeric,hne]
  have hsum : decimalSum [(t.amount : ℚ)/100]=(t.amount : ℚ)/100 := by
    rw [decimalSum,List.foldl_cons,List.foldl_nil,zero_add,roundToContext_cents hrange]
  have hvalues : [(f.p4xCategoryId,SlotAmount.decimal ((t.amount : ℚ)/100))].mapM slotDecimal=
      .ok [(f.p4xCategoryId,(t.amount : ℚ)/100)] := rfl
  rw [convertHit,setCategoryDirectCore,hslot,hvalues]
  simp [hsum,convertedStore]

lemma foldlM_convertHit (now : Timestamp) (f : P4xCategoryFilter) {ts : List P4xTransaction}
    (hts : ∀ t ∈ ts, t.amount ≠ 0 ∧ InNumericRange t.amount) (s : Store) :
    ts.foldlM (convertHit lower now f) s=.ok (ts.foldl (convertedStore lower now f) s) := by
  induction ts generalizing s with
  | nil => rfl
  | cons t ts ih =>
    obtain ⟨hne,hrange⟩ := hts t List.mem_cons_self
    rw [List.foldlM_cons,convertHit_eq lower now f s hne hrange,ok_bind,List.foldl_cons]
    exact ih (fun t' ht' => hts t' (List.mem_cons_of_mem _ ht')) _

/-- What the conversion of a list of transactions writes. -/
lemma foldl_convertedStore (now : Timestamp) (f : P4xCategoryFilter) {ts : List P4xTransaction}
    (hts : (ts.map (·.id)).Nodup) {s : Store} (hids : IdsFresh s) (hexact : HitsExact lower s) :
    ∃ directs hits, ts.foldl (convertedStore lower now f) s=
        { s with directs := directs, filterHits := hits } ∧
      HitsExact lower { s with directs := directs, filterHits := hits } ∧
      (∀ t ∈ ts, activeDirects { s with directs := directs } t.id=
        [⟨t.id,f.p4xCategoryId,t.amount,none⟩]) ∧
      ∀ id, id ∉ ts.map (·.id) → activeDirects { s with directs := directs } id=activeDirects s id := by
  induction ts generalizing s with
  | nil => exact ⟨s.directs,s.filterHits,rfl,hexact,by simp,fun _ _ => rfl⟩
  | cons t ts ih =>
    simp only [List.map_cons,List.nodup_cons] at hts
    let values : List (Uuid × ℚ) := [(f.p4xCategoryId,(t.amount : ℚ)/100)]
    have hstep : convertedStore lower now f s t={ s with
        directs := (replaceDirects s now t.id values).directs
        filterHits := s.filterHits.filter fun h => h.p4xTransactionId ≠ t.id } := rfl
    have hexact' : HitsExact lower (convertedStore lower now f s t) :=
      hexact.replaceDirects lower hids now t.id values
    obtain ⟨directs,hits,hfold,hfinal,hin,hout⟩ :=
      ih hts.2 (s := convertedStore lower now f s t) (hids.congr rfl rfl rfl) hexact'
    have hdirects : ∀ id, activeDirects (convertedStore lower now f s t) id=
        if id=t.id then [⟨t.id,f.p4xCategoryId,t.amount,none⟩] else activeDirects s id := by
      intro id
      have h : activeDirects (replaceDirects s now t.id values) id=_ :=
        activeDirects_replaceDirects id
      simp only [values,newDirect,toNumeric_cents,List.map_cons,List.map_nil] at h
      exact h
    refine ⟨directs,hits,by rw [List.foldl_cons,hfold,hstep],by rw [hstep] at hfinal; exact hfinal,?_,?_⟩
    · intro t' ht'
      rcases List.mem_cons.mp ht' with rfl | ht'
      · have h := hout t'.id hts.1
        rw [hdirects,if_pos rfl] at h
        exact h
      · exact hin t' ht'
    · intro id hid
      simp only [List.map_cons,List.mem_cons,not_or] at hid
      have h := hout id hid.2
      rw [hdirects,if_neg hid.1] at h
      exact h

lemma mem_getFilterHits (s : Store) (f : P4xCategoryFilter) (t : P4xTransaction) :
    t ∈ getFilterHits s f ↔ t ∈ s.transactions ∧ t.active=true ∧ ⟨f.id,t.id⟩ ∈ s.filterHits ∧
      t.id ∉ txWithDirects s := by
  have hvalid : ∀ txId, txId ∈ ((s.filterHits.filter fun h => h.p4xCategoryFilterId=f.id).map
      (·.p4xTransactionId)).filter (fun txId => txId ∉ txWithDirects s) ↔
        ⟨f.id,txId⟩ ∈ s.filterHits ∧ txId ∉ txWithDirects s := by
    intro txId
    simp only [List.mem_filter,List.mem_map,decide_eq_true_eq]
    constructor
    · rintro ⟨⟨hit,⟨hmem,hid⟩,rfl⟩,hd⟩
      exact ⟨by rw [← hid]; exact hmem,hd⟩
    · rintro ⟨hmem,hd⟩
      exact ⟨⟨_,⟨hmem,rfl⟩,rfl⟩,hd⟩
  unfold getFilterHits
  dsimp only
  split_ifs with hnil
  · have hnone := hvalid t.id
    rw [hnil] at hnone
    simp only [List.not_mem_nil,false_iff,not_and] at hnone ⊢
    exact fun _ _ hhit => hnone hhit
  · rw [List.mem_filter,Bool.and_eq_true,decide_eq_true_eq,hvalid]
    tauto

/-- What a conversion that goes through has written. -/
structure Converted (s : Store) (f : P4xCategoryFilter) (s' : Store) : Prop where
  no_warnings : (getWarningsPartner s).2=0 ∧ (getWarningsCategory s).2=0
  rows : ∃ directs hits, s'={ s with directs := directs, filterHits := hits }
  constraints : DbConstraints s'
  exact : HitsExact lower s'
  converted : ∀ t ∈ getFilterHits s f, activeDirects s' t.id=[⟨t.id,f.p4xCategoryId,t.amount,none⟩]
  others : ∀ id, id ∉ (getFilterHits s f).map (·.id) → activeDirects s' id=activeDirects s id
  no_hits : ∀ hit ∈ s'.filterHits, hit.p4xCategoryFilterId ≠ f.id

lemma filterToDirect_ok {s s' : Store} (hids : IdsFresh s)
    (hamounts : ∀ t ∈ s.transactions, t.amount ≠ 0 ∧ InNumericRange t.amount)
    (hexact : HitsExact lower s) {now : Timestamp} {f : P4xCategoryFilter}
    (hok : filterToDirect lower s now f=.ok s') : Converted lower s f s' := by
  unfold filterToDirect at hok
  split_ifs at hok with hwarnings
  have hts : ∀ t ∈ getFilterHits s f, t ∈ s.transactions := fun t ht =>
    ((mem_getFilterHits s f t).mp ht).1
  have htsids : ((getFilterHits s f).map (·.id)).Nodup := by
    refine hids.transactions_nodup.sublist (List.Sublist.map _ ?_)
    unfold getFilterHits
    dsimp only
    split_ifs
    · exact List.nil_sublist _
    · exact List.filter_sublist
  obtain ⟨directs,hits,hfold,hfinal,hin,hout⟩ :=
    foldl_convertedStore lower now f htsids hids hexact
  rw [foldlM_convertHit lower now f (fun t ht => hamounts t (hts t ht)),ok_bind,hfold] at hok
  obtain ⟨rfl,hvalid⟩ := commit_eq_ok hok
  have hnone : ∀ hit ∈ hits, hit.p4xCategoryFilterId ≠ f.id := by
    rintro hit hhit hid
    obtain ⟨g,hg,t,ht,rfl,ha,hd,hc⟩ := (hfinal.mem_iff hit).mp hhit
    have hempty : activeDirects { s with directs := directs } t.id=[] := by
      by_contra hne
      exact hd ((mem_txWithDirects_iff_activeDirects _ _).mpr hne)
    by_cases hmem : t.id ∈ (getFilterHits s f).map (·.id)
    · obtain ⟨t',ht',hid'⟩ := List.mem_map.mp hmem
      have h := hin t' ht'
      rw [hid',hempty] at h
      contradiction
    · refine hmem (List.mem_map_of_mem ((mem_getFilterHits s f t).mpr ⟨ht,ha,?_,?_⟩))
      · rw [← hid,hexact.mem_iff]
        refine ⟨g,hg,t,ht,rfl,ha,?_,hc⟩
        rw [mem_txWithDirects_iff_activeDirects,not_not,← hout _ hmem]
        exact hempty
      · rw [mem_txWithDirects_iff_activeDirects,not_not,← hout _ hmem]
        exact hempty
  have hkept : hits.filter (fun h => h.p4xCategoryFilterId ≠ f.id)=hits := by
    rw [List.filter_eq_self]
    intro hit hhit
    simpa using hnone hit hhit
  have hsame : deleteHitsOf { s with directs := directs, filterHits := hits } f=
      { s with directs := directs, filterHits := hits } := by
    simp only [deleteHitsOf,hkept]
  rw [hsame] at hvalid ⊢
  refine ⟨?_,⟨directs,hits,rfl⟩,hvalid,hfinal,hin,hout,hnone⟩
  omega

lemma CategoryInvariant.amounts_valid {s : Store} (h : CategoryInvariant lower s) :
    ∀ t ∈ s.transactions, t.amount ≠ 0 ∧ InNumericRange t.amount := by
  intro t ht
  obtain ⟨-,-,-,-,-,-,hrows⟩ := h.constraints
  exact ⟨h.amounts t ht,(hrows t ht).2.2.2.1⟩

lemma filterToDirect_invariant {s s' : Store} (h : CategoryInvariant lower s) {now : Timestamp}
    {f : P4xCategoryFilter} (hok : filterToDirect lower s now f=.ok s') :
    CategoryInvariant lower s' := by
  have hconverted := filterToDirect_ok lower h.ids (h.amounts_valid lower) h.hits hok
  obtain ⟨directs,hits,rfl⟩ := hconverted.rows
  exact ⟨h.ids.congr rfl rfl rfl,h.amounts,hconverted.constraints,hconverted.exact⟩

/-- The import touches transactions only, and none gets an amount of zero. -/
structure ImportFrame (s : Store) (st : ImportState) : Prop where
  store : ∃ rows, st.store={ s with transactions := rows } ∧
    rows.map (·.id)=s.transactions.map (·.id) ∧ ∀ t ∈ rows, t.amount ≠ 0
  pending : ∀ t ∈ st.pending, t.amount ≠ 0

/-- A change of one row that keeps its id. -/
lemma ImportFrame.updateHash {s : Store} {st : ImportState} (h : ImportFrame s st) (hash : String)
    {change : P4xTransaction → P4xTransaction} (hid : ∀ t, (change t).id=t.id)
    (hamount : ∀ t, t.amount ≠ 0 → (change t).amount ≠ 0) :
    ∃ rows, P4x.updateHash st.store hash change={ s with transactions := rows } ∧
      rows.map (·.id)=s.transactions.map (·.id) ∧ ∀ t ∈ rows, t.amount ≠ 0 := by
  obtain ⟨rows,hstore,hrows,hamounts⟩ := h.store
  refine ⟨rows.map fun t => if t.sha256Hash=hash then change t else t,?_,?_,?_⟩
  · rw [hstore]
    rfl
  · rw [← hrows,List.map_map]
    apply List.map_congr_left
    intro t _
    by_cases ht : t.sha256Hash=hash <;> simp [ht,hid]
  · intro t ht
    obtain ⟨t₀,ht₀,rfl⟩ := List.mem_map.mp ht
    split_ifs
    · exact hamount t₀ (hamounts t₀ ht₀)
    · exact hamounts t₀ ht₀

lemma ImportFrame.storeEntry {s : Store} {st : ImportState} (h : ImportFrame s st)
    (account : P4xAccount) (now : Timestamp) (hash : String) {p : CompletePayload}
    (hp : p.amount.value ≠ 0) (raw : String) :
    ImportFrame s (storeEntry account now st hash p raw) := by
  unfold P4x.storeEntry
  split_ifs
  · exact ⟨h.updateHash hash (fun _ => rfl) (fun _ ht => ht),h.pending⟩
  · cases st.store.transactions.find? fun t => t.sha256Hash=hash with
    | some existing => exact ⟨h.updateHash hash (fun _ => rfl) (fun _ _ => hp),h.pending⟩
    | none =>
      refine ⟨h.store,?_⟩
      intro t ht
      rcases List.mem_append.mp ht with ht | ht
      · exact h.pending t ht
      · rw [List.mem_singleton.mp ht]
        exact hp

lemma ImportFrame.importEntry {s : Store} {st st' : ImportState} (h : ImportFrame s st)
    {account : P4xAccount} {now : Timestamp} {e : ImportEntry}
    (hok : importEntry sha256 account now st e=.ok st') : ImportFrame s st' := by
  unfold P4x.importEntry at hok
  cases hp : e.payload.complete with
  | none =>
    rw [hp] at hok
    cases hok
    exact ⟨h.store,h.pending⟩
  | some p =>
    rw [hp] at hok
    dsimp only at hok
    split_ifs at hok with hzero
    · cases hok
      exact ⟨h.store,h.pending⟩
    · simp only [bind_eq_ok_iff] at hok
      obtain ⟨bookingCarbon,-,valuationCarbon,-,hok⟩ := hok
      cases hok
      refine ImportFrame.storeEntry ?_ account now _ hzero e.raw
      exact ⟨h.store,h.pending⟩

lemma foldlM_importEntry_frame {s : Store} {account : P4xAccount} {now : Timestamp}
    {entries : List ImportEntry} {st st' : ImportState} (h : ImportFrame s st)
    (hok : entries.foldlM (importEntry sha256 account now) st=.ok st') : ImportFrame s st' := by
  induction entries generalizing st with
  | nil =>
    cases hok
    exact h
  | cons e entries ih =>
    rw [List.foldlM_cons,bind_eq_ok_iff] at hok
    obtain ⟨mid,hmid,hok⟩ := hok
    exact ih (h.importEntry sha256 hmid) hok

lemma flush_frame {s : Store} {st : ImportState} (h : ImportFrame s st) (hids : IdsFresh s) :
    ∃ rows next, flush st={ s with transactions := rows, nextUuid := next } ∧
      IdsFresh (flush st) ∧ ∀ t ∈ rows, t.amount ≠ 0 := by
  obtain ⟨rows,hstore,hrows,hamounts⟩ := h.store
  have hnew : (st.pending.mapIdx fun i t => { t with id := s.nextUuid+i }).map (·.id)=
      (List.range st.pending.length).map (s.nextUuid+·) := by
    apply List.ext_getElem
    · simp
    · intro i h₁ h₂
      simp
  have hflush : flush st={ s with
      transactions := rows ++ st.pending.mapIdx fun i t => { t with id := s.nextUuid+i }
      nextUuid := s.nextUuid+st.pending.length } := by
    rw [flush,hstore]
  have holdlt : ∀ t ∈ rows, t.id < s.nextUuid := by
    intro t ht
    have hid : t.id ∈ s.transactions.map (·.id) := by
      rw [← hrows]
      exact List.mem_map_of_mem ht
    obtain ⟨t',ht',hid⟩ := List.mem_map.mp hid
    rw [← hid]
    exact hids.transactions_lt t' ht'
  refine ⟨_,_,hflush,?_,?_⟩
  · rw [hflush]
    constructor
    · exact hids.filters_nodup
    · rw [List.map_append,hrows,hnew]
      refine hids.transactions_nodup.append ?_ ?_
      · exact List.nodup_range.map fun a b hab => by simpa using hab
      · intro id hold hnew
        obtain ⟨t,ht,rfl⟩ := List.mem_map.mp hold
        obtain ⟨i,-,hi⟩ := List.mem_map.mp hnew
        have hle : s.nextUuid ≤ t.id := by
          rw [← hi]
          exact Nat.le_add_right _ _
        exact absurd (hids.transactions_lt t ht) (not_lt.mpr hle)
    · exact fun f hf => (hids.filters_lt f hf).trans_le (Nat.le_add_right _ _)
    · intro t ht
      rcases List.mem_append.mp ht with ht | ht
      · exact (holdlt t ht).trans_le (Nat.le_add_right _ _)
      · obtain ⟨i,hi,rfl⟩ := List.mem_mapIdx.mp ht
        simpa using hi
  · intro t ht
    rcases List.mem_append.mp ht with ht | ht
    · exact hamounts t ht
    · obtain ⟨i,hi,rfl⟩ := List.mem_mapIdx.mp ht
      exact h.pending st.pending[i] (List.getElem_mem hi)

lemma importAndApplyFilters_invariant {s s' : Store} (h : CategoryInvariant lower s)
    {account : P4xAccount} {now : Timestamp} {entries : List ImportEntry} {summary : Summary}
    (hok : importAndApplyFilters sha256 lower s account now entries=.ok (s',summary)) :
    CategoryInvariant lower s' := by
  unfold importAndApplyFilters importTransactions at hok
  cases hrun : entries.foldlM (importEntry sha256 account now) ⟨s,[],Dict.empty,Dict.empty⟩ with
  | error e =>
    rw [hrun] at hok
    contradiction
  | ok st =>
    rw [hrun] at hok
    simp only [ok_bind,pure_eq_ok,bind_eq_ok_iff] at hok
    obtain ⟨s'',hcommit,hok⟩ := hok
    cases hok
    have hframe : ImportFrame s st := foldlM_importEntry_frame sha256
      ⟨⟨s.transactions,rfl,rfl,h.amounts⟩,by simp⟩ hrun
    obtain ⟨rows,next,hflush,hids,hamounts⟩ := flush_frame hframe h.ids
    rw [hflush] at hids hcommit
    exact CategoryInvariant.of_rebuild lower hcommit hids hamounts h.hits.nodup
      (h.hits.present lower)

/-- A request to write filters, directs or transactions. -/
inductive CategoryOp
  | importAndApplyFilters (accountId : Uuid) (now : Timestamp) (entries : List ImportEntry)
  | createCategoryFilter (data : CategoryFilterSaveRequest)
  | updateCategoryFilter (filterId : Uuid) (data : CategoryFilterSaveRequest)
  | deleteCategoryFilter (filterId : Uuid)
  | setCategoryDirect (transactionId : Uuid) (now : Timestamp) (slots : List Slot)
  | unsetCategoryDirect (transactionId : Uuid) (now : Timestamp)
  | filterToDirect (filterId : Uuid) (now : Timestamp)

def CategoryOp.perform (s : Store) : CategoryOp → Except OpError Store
  | .importAndApplyFilters accountId now entries => do
    let account ← getAccountOr404 s accountId
    return (← P4x.importAndApplyFilters sha256 lower s account now entries).1
  | .createCategoryFilter data => P4x.createCategoryFilter lower s data
  | .updateCategoryFilter filterId data => do
    P4x.updateCategoryFilter lower s (← getFilterOr404 s filterId) data
  | .deleteCategoryFilter filterId => do P4x.deleteCategoryFilter s (← getFilterOr404 s filterId)
  | .setCategoryDirect transactionId now slots => do
    P4x.setCategoryDirect lower s now (← getTransactionOr404 s transactionId) slots
  | .unsetCategoryDirect transactionId now => do
    P4x.unsetCategoryDirect lower s now (← getTransactionOr404 s transactionId)
  | .filterToDirect filterId now => do
    P4x.filterToDirect lower s now (← getFilterOr404 s filterId)

/-- The store after a request; one that raises is rolled back. -/
def CategoryOp.after (s : Store) (op : CategoryOp) : Store :=
  match op.perform lower sha256 s with
  | .ok s' => s'
  | .error _ => s

/-- The store under a sequence of requests. -/
def categoryMachine : Machine Store CategoryOp where
  step s op := some (op.after lower sha256 s)

/-- Every committed operation keeps the invariant. -/
lemma perform_invariant {s s' : Store} (h : CategoryInvariant lower s) {op : CategoryOp}
    (hok : op.perform lower sha256 s=.ok s') : CategoryInvariant lower s' := by
  cases op with
  | importAndApplyFilters accountId now entries =>
    simp only [CategoryOp.perform,bind_eq_ok_iff] at hok
    obtain ⟨account,-,⟨s'',summary⟩,himport,hok⟩ := hok
    cases hok
    exact importAndApplyFilters_invariant lower sha256 h himport
  | createCategoryFilter data => exact createCategoryFilter_invariant lower h hok
  | updateCategoryFilter filterId data =>
    simp only [CategoryOp.perform,bind_eq_ok_iff] at hok
    obtain ⟨f,-,hok⟩ := hok
    exact updateCategoryFilter_invariant lower h hok
  | deleteCategoryFilter filterId =>
    simp only [CategoryOp.perform,bind_eq_ok_iff] at hok
    obtain ⟨f,-,hok⟩ := hok
    exact deleteCategoryFilter_invariant lower h hok
  | setCategoryDirect transactionId now slots =>
    simp only [CategoryOp.perform,bind_eq_ok_iff] at hok
    obtain ⟨t,-,hok⟩ := hok
    exact setCategoryDirect_invariant lower h hok
  | unsetCategoryDirect transactionId now =>
    simp only [CategoryOp.perform,bind_eq_ok_iff] at hok
    obtain ⟨t,-,hok⟩ := hok
    exact unsetCategoryDirect_invariant lower h hok
  | filterToDirect filterId now =>
    simp only [CategoryOp.perform,bind_eq_ok_iff] at hok
    obtain ⟨f,-,hok⟩ := hok
    exact filterToDirect_invariant lower h hok

/-- A request keeps the invariant, committed or rolled back. -/
lemma after_invariant {s : Store} (h : CategoryInvariant lower s) (op : CategoryOp) :
    CategoryInvariant lower (op.after lower sha256 s) := by
  unfold CategoryOp.after
  cases hop : op.perform lower sha256 s with
  | ok s' => exact perform_invariant lower sha256 h hop
  | error e => exact h

/-- No filters, hits, directs or transactions yet. -/
structure EmptyStore (s : Store) : Prop where
  filters : s.filters=[]
  filterHits : s.filterHits=[]
  directs : s.directs=[]
  transactions : s.transactions=[]

lemma EmptyStore.invariant {s : Store} (h : EmptyStore s) : CategoryInvariant lower s := by
  obtain ⟨hf,hh,hd,ht⟩ := h
  refine ⟨⟨?_,?_,?_,?_⟩,?_,?_,?_,?_⟩
  · simp [hf]
  · simp [ht]
  · simp [hf]
  · simp [ht]
  · simp [ht]
  · simp [DbConstraints,hf,hh,hd,ht]
  · simp [hh]
  · simp [hh,ShouldHit,hf]

/-- In every reachable store the hits are exact, and the nightly rebuild leaves the same rows. -/
theorem filterHits_exact {s₀ s : Store} (hempty : EmptyStore s₀)
    (hrun : (categoryMachine lower sha256).Reaches Machine.Any s₀ s) :
    HitsExact lower s ∧ ∀ truncateFirst, ∃ hits,
      applyAllCategoryFilters lower s truncateFirst=.ok { s with filterHits := hits } ∧
        hits.Perm s.filterHits := by
  have hinv : CategoryInvariant lower s := by
    refine hrun.invariant (hempty.invariant lower) ?_
    intro t op u ht _ hstep
    simp only [categoryMachine,CategoryOp.after,Option.some.injEq] at hstep
    rw [← hstep]
    exact after_invariant lower sha256 ht op
  refine ⟨hinv.hits,?_⟩
  intro truncateFirst
  obtain ⟨hits,hrebuild,hperm⟩ := hinv.hits.rebuild_perm lower hinv.ids truncateFirst
  refine ⟨hits,?_,hperm⟩
  have hvalid : DbConstraints { s with filterHits := hits } := by
    obtain ⟨h₁,h₂,-,hrest⟩ := hinv.constraints
    exact ⟨h₁,h₂,hperm.nodup_iff.mpr hinv.hits.nodup,hrest⟩
  rw [applyAllCategoryFilters,hrebuild,commit,if_pos hvalid]

end Runs

/-- One account, one category and one partner, nothing else. -/
def bareStore : Store where
  members := []
  accounts := [⟨1,none,0,none⟩]
  categories := [⟨2,text "eingang.mitgliedsbeitrag"⟩]
  filters := []
  filterHits := []
  directs := []
  fees := []
  partners := [⟨some (text "AT1"),some 3,none,none,none,none⟩]
  transactions := []
  nextUuid := 10

def beitragFilter : CategoryFilterSaveRequest where
  name := text "Beitrag"
  p4xAccountId := 1
  iban := none
  minAmount := none
  maxAmount := none
  subject := some (text "beitrag")
  subjectMode := .contains
  p4xCategoryId := 2
  name_length := by decide
  iban_format := by decide
  min_bound := by decide
  max_bound := by decide
  subject_length := by decide

lemma merged_at1 : Merged (text "AT1") := by decide

lemma merged_mitgliedsbeitrag : Merged (text "mitgliedsbeitrag") := by decide

def beitragEntry : ImportEntry where
  payload := ⟨some (Date.of 2025 2 3),some (Date.of 2025 2 3),some ⟨text "AT1",merged_at1⟩,
    some ⟨false,2500⟩,some ⟨text "mitgliedsbeitrag",merged_mitgliedsbeitrag⟩⟩
  raw := "{}"
  originalBooking := text "2025-02-03T00:00:00.000+0100"
  originalValuation := text "2025-02-03T00:00:00.000+0100"

/-- The store after a filter was saved and one matching entry imported. -/
def beitragStore : Store :=
  CategoryOp.after id (fun _ => "h") (CategoryOp.after id (fun _ => "h") bareStore
    (.createCategoryFilter beitragFilter)) (.importAndApplyFilters 1 7 [beitragEntry])

lemma bareStore_empty : EmptyStore bareStore := ⟨rfl,rfl,rfl,rfl⟩

lemma beitragStore_invariant : CategoryInvariant id beitragStore :=
  after_invariant id _ (after_invariant id _ (bareStore_empty.invariant id) _) _

theorem filterHits_exact_beitrag : beitragStore.filterHits=[⟨10,11⟩] ∧ HitsExact id beitragStore := by
  refine ⟨by decide +kernel,?_⟩
  exact (filterHits_exact id (fun _ => "h") bareStore_empty (.next (.next .refl trivial rfl) trivial rfl)).1

end VbApi.P4x
