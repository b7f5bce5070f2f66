import VbApi.Foundations.LikePattern
import VbApi.P4x.Store

/-! The category filter engine: which transactions a filter matches, and the stored hits. -/
namespace VbApi.P4x
open VbApi.Foundations

section Engine
variable (lower : PyText → PyText)

/-- The pattern of a filter's subject; wildcards typed into a filter are text. -/
def subjectPattern (mode : SubjectMode) (subject : PyText) : PyText :=
  match mode with
  | .equals => escapeLike subject
  | .contains => codePoint '%'::(escapeLike subject ++ [codePoint '%'])
  | .starts => escapeLike subject ++ [codePoint '%']

/-- The IBAN a filter asks for, without blanks and in capitals; an empty text asks for none. -/
def ibanCriterion (iban : Option PyText) : Option PyText :=
  match iban with
  | none | some [] => none
  | some v => some (upperAscii (join [] (splitWords v)))

/-- The conditions of a filter, the directs apart. -/
def meetsCriteria (f : P4xCategoryFilter) (t : P4xTransaction) : Bool :=
  t.p4xAccountId=f.p4xAccountId &&
  (ibanCriterion f.iban).all (fun iban => t.iban=iban) &&
  f.minAmount.all (fun amount => amount ≤ t.amount) &&
  f.maxAmount.all (fun amount => t.amount ≤ amount) &&
  f.subject.all fun subject => ilikeMatch lower (subjectPattern f.subjectMode subject) t.subject

/-- The ids of the active transactions that a filter matches, without those with directs. -/
def matchingTransactions (s : Store) (f : P4xCategoryFilter) (directs : Finset Uuid) : List Uuid :=
  (s.transactions.filter fun t => t.active && t.id ∉ directs && meetsCriteria lower f t).map (·.id)

/-- Replace the hits of one filter. -/
def applyFilterWithCache (directs : Finset Uuid) (s : Store) (f : P4xCategoryFilter) : Store :=
  { s with filterHits := s.filterHits.filter (fun h => h.p4xCategoryFilterId ≠ f.id) ++
      (matchingTransactions lower s f directs).map fun txId => ⟨f.id,txId⟩ }

/-- Bring the hits of one transaction up to date after its directs changed. -/
def refreshTransactionHits (s : Store) (txId : Uuid) (assigned : Bool) : Store :=
  let kept := s.filterHits.filter fun h => h.p4xTransactionId ≠ txId
  if assigned then { s with filterHits := kept }
  else { s with filterHits := kept ++
      (s.filters.filter fun f => txId ∈ matchingTransactions lower s f ∅).map fun f => ⟨f.id,txId⟩ }

/-- Rebuild the hits of every filter. -/
def applyAllCategoryFiltersCore (s : Store) (truncateFirst : Bool := false) : Store :=
  let s := if truncateFirst then { s with filterHits := [] } else s
  s.filters.foldl (applyFilterWithCache lower (txWithDirects s)) s

/-- A filter that is present, and an active transaction without directs that it matches. -/
def ShouldHit (s : Store) (hit : P4xCategoryFilterHit) : Prop :=
  ∃ f ∈ s.filters, ∃ t ∈ s.transactions, hit=⟨f.id,t.id⟩ ∧ t.active=true ∧
    t.id ∉ txWithDirects s ∧ meetsCriteria lower f t=true

/-- The stored hits are exactly the pairs that should be there, each once. -/
structure HitsExact (s : Store) : Prop where
  nodup : s.filterHits.Nodup
  mem_iff : ∀ hit, hit ∈ s.filterHits ↔ ShouldHit lower s hit

/-- Primary keys: distinct, and older than the next one. -/
structure IdsFresh (s : Store) : Prop where
  filters_nodup : (s.filters.map (·.id)).Nodup
  transactions_nodup : (s.transactions.map (·.id)).Nodup
  filters_lt : ∀ f ∈ s.filters, f.id < s.nextUuid
  transactions_lt : ∀ t ∈ s.transactions, t.id < s.nextUuid

lemma mem_matchingTransactions (s : Store) (f : P4xCategoryFilter) (directs : Finset Uuid)
    (txId : Uuid) :
    txId ∈ matchingTransactions lower s f directs ↔ ∃ t ∈ s.transactions, t.id=txId ∧
      t.active=true ∧ txId ∉ directs ∧ meetsCriteria lower f t=true := by
  simp only [matchingTransactions,List.mem_map,List.mem_filter,Bool.and_eq_true,decide_eq_true_eq]
  constructor
  · rintro ⟨t,⟨ht,⟨ha,hd⟩,hc⟩,rfl⟩
    exact ⟨t,ht,rfl,ha,hd,hc⟩
  · rintro ⟨t,ht,rfl,ha,hd,hc⟩
    exact ⟨t,⟨ht,⟨ha,hd⟩,hc⟩,rfl⟩

lemma shouldHit_iff (s : Store) (hit : P4xCategoryFilterHit) :
    ShouldHit lower s hit ↔ ∃ f ∈ s.filters, f.id=hit.p4xCategoryFilterId ∧
      hit.p4xTransactionId ∈ matchingTransactions lower s f (txWithDirects s) := by
  simp only [mem_matchingTransactions]
  constructor
  · rintro ⟨f,hf,t,ht,rfl,ha,hd,hc⟩
    exact ⟨f,hf,rfl,t,ht,rfl,ha,hd,hc⟩
  · rintro ⟨f,hf,hid,t,ht,htid,ha,hd,hc⟩
    obtain ⟨filterId,txId⟩ := hit
    cases hid
    cases htid
    exact ⟨f,hf,t,ht,rfl,ha,hd,hc⟩

lemma matchingTransactions_nodup {s : Store} (hids : (s.transactions.map (·.id)).Nodup)
    (f : P4xCategoryFilter) (directs : Finset Uuid) :
    (matchingTransactions lower s f directs).Nodup :=
  hids.sublist (List.filter_sublist.map _)

/-- What the rebuild of a list of filters leaves: the hits of other filters, and the matches. -/
lemma foldl_applyFilterWithCache (directs : Finset Uuid) (fs : List P4xCategoryFilter) (s : Store)
    (hfs : (fs.map (·.id)).Nodup) (hids : (s.transactions.map (·.id)).Nodup)
    (hnodup : s.filterHits.Nodup) :
    ∃ hits, fs.foldl (applyFilterWithCache lower directs) s={ s with filterHits := hits } ∧
      hits.Nodup ∧ ∀ hit, hit ∈ hits ↔
        (hit ∈ s.filterHits ∧ hit.p4xCategoryFilterId ∉ fs.map (·.id)) ∨
        ∃ f ∈ fs, f.id=hit.p4xCategoryFilterId ∧
          hit.p4xTransactionId ∈ matchingTransactions lower s f directs := by
  induction fs generalizing s with
  | nil => exact ⟨s.filterHits,rfl,hnodup,by simp⟩
  | cons f fs ih =>
    simp only [List.map_cons,List.nodup_cons] at hfs
    have hmid : (applyFilterWithCache lower directs s f).filterHits.Nodup := by
      refine List.Nodup.append (hnodup.filter _) ?_ ?_
      · refine (matchingTransactions_nodup lower hids f directs).map ?_
        intro a b hab
        exact (P4xCategoryFilterHit.mk.inj hab).2
      · intro hit hkept hnew
        obtain ⟨txId,-,rfl⟩ := List.mem_map.mp hnew
        simp at hkept
    obtain ⟨hits,hfold,hhits,hmem⟩ := ih (applyFilterWithCache lower directs s f) hfs.2 hids hmid
    refine ⟨hits,by rw [List.foldl_cons,hfold]; rfl,hhits,?_⟩
    intro hit
    rw [hmem]
    simp only [applyFilterWithCache,List.mem_append,List.mem_filter,decide_eq_true_eq,
      List.mem_map,List.map_cons,List.mem_cons,not_or,exists_eq_or_imp]
    constructor
    · rintro (⟨⟨hold,hne⟩ | ⟨txId,htx,rfl⟩,hfs'⟩ | hlater)
      · exact .inl ⟨hold,hne,hfs'⟩
      · exact .inr (.inl ⟨rfl,htx⟩)
      · exact .inr (.inr hlater)
    · rintro (⟨hold,hne,hfs'⟩ | ⟨hid,htx⟩ | hlater)
      · exact .inl ⟨.inl ⟨hold,hne⟩,hfs'⟩
      · refine .inl ⟨.inr ⟨hit.p4xTransactionId,htx,by rw [hid]⟩,?_⟩
        rw [← hid]
        simpa using hfs.1
      · exact .inr hlater

/-- The rebuild makes the hits exact, whatever they were, if they name present filters. -/
theorem applyAllCategoryFiltersCore_spec {s : Store} (hids : IdsFresh s) (truncateFirst : Bool)
    (hnodup : s.filterHits.Nodup)
    (hpresent : ∀ hit ∈ s.filterHits, hit.p4xCategoryFilterId ∈ s.filters.map (·.id)) :
    ∃ hits, applyAllCategoryFiltersCore lower s truncateFirst={ s with filterHits := hits } ∧
      HitsExact lower { s with filterHits := hits } := by
  let start : Store := if truncateFirst then { s with filterHits := [] } else s
  have hstart : ∃ hits₀, start={ s with filterHits := hits₀ } ∧ hits₀.Nodup ∧
      ∀ hit ∈ hits₀, hit.p4xCategoryFilterId ∈ s.filters.map (·.id) := by
    cases truncateFirst with
    | true => exact ⟨[],rfl,List.nodup_nil,by simp⟩
    | false => exact ⟨s.filterHits,rfl,hnodup,hpresent⟩
  obtain ⟨hits₀,hstart,hnodup₀,hpresent₀⟩ := hstart
  obtain ⟨hits,hfold,hhits,hmem⟩ := foldl_applyFilterWithCache lower (txWithDirects start)
    s.filters { s with filterHits := hits₀ } hids.filters_nodup hids.transactions_nodup hnodup₀
  have hrun : applyAllCategoryFiltersCore lower s truncateFirst={ s with filterHits := hits } := by
    rw [← hstart] at hfold
    have hfilters : start.filters=s.filters := by rw [hstart]
    change start.filters.foldl (applyFilterWithCache lower (txWithDirects start)) start=_
    rw [hfilters,hfold,hstart]
  have hdirects : txWithDirects start=txWithDirects s := by
    rw [hstart]
    rfl
  refine ⟨hits,hrun,hhits,?_⟩
  intro hit
  rw [hmem,shouldHit_iff,hdirects]
  constructor
  · rintro (⟨hold,hnot⟩ | hnew)
    · exact absurd (hpresent₀ hit hold) hnot
    · exact hnew
  · exact .inr

lemma HitsExact.present {s : Store} (h : HitsExact lower s) :
    ∀ hit ∈ s.filterHits, hit.p4xCategoryFilterId ∈ s.filters.map (·.id) := by
  intro hit hmem
  obtain ⟨f,hf,t,-,rfl,-⟩ := (h.mem_iff hit).mp hmem
  exact List.mem_map_of_mem hf

/-- Exact hits are the same rows after a rebuild. -/
theorem HitsExact.rebuild_perm {s : Store} (h : HitsExact lower s) (hids : IdsFresh s)
    (truncateFirst : Bool) :
    ∃ hits, applyAllCategoryFiltersCore lower s truncateFirst={ s with filterHits := hits } ∧
      hits.Perm s.filterHits := by
  obtain ⟨hits,hrun,hexact⟩ :=
    applyAllCategoryFiltersCore_spec lower hids truncateFirst h.nodup h.present
  refine ⟨hits,hrun,?_⟩
  rw [List.perm_ext_iff_of_nodup hexact.nodup h.nodup]
  intro hit
  exact (hexact.mem_iff hit).trans (h.mem_iff hit).symm

/-- The hits of one transaction after its directs changed. -/
lemma mem_refreshTransactionHits (s : Store) (txId : Uuid) (assigned : Bool)
    (hit : P4xCategoryFilterHit) :
    hit ∈ (refreshTransactionHits lower s txId assigned).filterHits ↔
      (hit ∈ s.filterHits ∧ hit.p4xTransactionId ≠ txId) ∨
      (assigned=false ∧ hit.p4xTransactionId=txId ∧ ∃ f ∈ s.filters,
        f.id=hit.p4xCategoryFilterId ∧ txId ∈ matchingTransactions lower s f ∅) := by
  cases assigned with
  | true => simp [refreshTransactionHits]
  | false =>
    simp only [refreshTransactionHits,Bool.false_eq_true,if_false,List.mem_append,List.mem_filter,
      decide_eq_true_eq,List.mem_map,true_and]
    constructor
    · rintro (h | ⟨f,⟨hf,hmatch⟩,rfl⟩)
      · exact .inl h
      · exact .inr ⟨rfl,f,hf,rfl,hmatch⟩
    · rintro (h | ⟨htx,f,hf,hid,hmatch⟩)
      · exact .inl h
      · refine .inr ⟨f,⟨hf,hmatch⟩,?_⟩
        rw [hid,← htx]

/-- The refreshed hits of a transaction are written once each. -/
lemma refreshTransactionHits_nodup {s : Store} (hfilters : (s.filters.map (·.id)).Nodup)
    (hnodup : s.filterHits.Nodup) (txId : Uuid) (assigned : Bool) :
    (refreshTransactionHits lower s txId assigned).filterHits.Nodup := by
  have hkept := hnodup.filter fun hit => decide (hit.p4xTransactionId ≠ txId)
  cases assigned with
  | true => exact hkept
  | false =>
    simp only [refreshTransactionHits,Bool.false_eq_true,if_false]
    refine List.Nodup.append hkept ?_ ?_
    · have hfs := (hfilters.sublist
        ((List.filter_sublist (p := fun f => decide (txId ∈ matchingTransactions lower s f ∅))).map
          (fun f : P4xCategoryFilter => f.id))).of_map
      refine hfs.map_on ?_
      intro f hf g hg hfg
      exact List.inj_on_of_nodup_map hfilters (List.mem_of_mem_filter hf)
        (List.mem_of_mem_filter hg) (P4xCategoryFilterHit.mk.inj hfg).1
    · intro hit hkept hnew
      obtain ⟨f,-,rfl⟩ := List.mem_map.mp hnew
      simp at hkept

/-- A refresh after the directs of one transaction changed keeps the hits exact. -/
theorem HitsExact.refresh {s : Store} (h : HitsExact lower s) (hids : IdsFresh s) (s' : Store) {txId : Uuid}
    (hrows : s'.filters=s.filters ∧ s'.transactions=s.transactions ∧ s'.filterHits=s.filterHits)
    (hother : ∀ id, id ≠ txId → (id ∈ txWithDirects s' ↔ id ∈ txWithDirects s)) {assigned : Bool}
    (hassigned : assigned=true ↔ txId ∈ txWithDirects s') :
    HitsExact lower (refreshTransactionHits lower s' txId assigned) := by
  obtain ⟨hfilters,htransactions,hhits⟩ := hrows
  have hrefreshed : ∃ hits, refreshTransactionHits lower s' txId assigned=
      { s' with filterHits := hits } := by
    cases assigned <;> exact ⟨_,rfl⟩
  constructor
  · refine refreshTransactionHits_nodup lower ?_ ?_ txId assigned
    · rw [hfilters]
      exact hids.filters_nodup
    · rw [hhits]
      exact h.nodup
  · intro hit
    rw [mem_refreshTransactionHits,shouldHit_iff]
    obtain ⟨hits,hrefreshed⟩ := hrefreshed
    rw [hrefreshed]
    change _ ↔ ∃ f ∈ s'.filters, f.id=hit.p4xCategoryFilterId ∧
      hit.p4xTransactionId ∈ matchingTransactions lower s' f (txWithDirects s')
    by_cases htx : hit.p4xTransactionId=txId
    · simp only [htx,ne_eq,not_true_eq_false,and_false,false_or,true_and,mem_matchingTransactions]
      by_cases hdirect : txId ∈ txWithDirects s'
      · simp [hassigned.mpr hdirect,hdirect]
      · have hfalse : assigned=false := by
          rw [← Bool.not_eq_true,hassigned]
          exact hdirect
        simp [hfalse,hdirect]
    · simp only [htx,ne_eq,not_false_eq_true,and_true,false_and,and_false,or_false]
      rw [hhits,h.mem_iff,shouldHit_iff]
      simp only [mem_matchingTransactions,hfilters,htransactions,hother _ htx]

end Engine
end VbApi.P4x
