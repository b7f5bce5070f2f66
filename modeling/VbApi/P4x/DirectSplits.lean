import VbApi.Foundations.RowLocks
import VbApi.P4x.CategoryWrites

/-! Concurrent replacements of the directs of a transaction. Each statement sees the rows that are
committed when it starts, a changed row is locked, and the deferred trigger adds up what its own
transaction can see. -/
namespace VbApi.P4x
open VbApi.Foundations

/-- A row that is changed, or a unique key that is inserted. -/
inductive SplitKey
  | direct (txId categoryId : Uuid)
  | hit (txId filterId : Uuid)
  deriving DecidableEq, Repr

/-- The committed rows and who has changed which of them. Rows with the same key follow each other: a
row is known by its key and by how many have been inserted under it. -/
structure SplitState where
  store : Store
  locks : Locks SplitKey
  inserted : SplitKey → ℕ

/-- A row that a statement saw when it started: the category or the filter of its key, and its number. -/
abbrev SeenRow := Uuid × ℕ

/-- A call that passed its checks: the rows that it is going to insert, none to unset. -/
structure SplitCall where
  transaction : P4xTransaction
  rows : List P4xCategoryDirect
  now : Timestamp

/-- What the transaction of a call has written: the categories whose directs it has set aside, and
the filters whose hits it has deleted and inserted. -/
structure SplitWork where
  call : SplitCall
  setAside : List Uuid
  deletedHits : List Uuid
  newHits : List Uuid

inductive SplitPlace
  | idle
  | selected (call : SplitCall)
  /-- The `UPDATE` takes the directs it saw one after the other. -/
  | update (call : SplitCall) (pending : List SeenRow) (setAside : List Uuid)
  /-- The `DELETE` takes the hits it saw one after the other. -/
  | deleteHits (call : SplitCall) (setAside : List Uuid) (pending : List SeenRow)
      (deletedHits : List Uuid)
  | flush (work : SplitWork)
  /-- The commit runs the trigger first. -/
  | check (work : SplitWork)
  /-- The trigger has added up these rows, besides the new ones. -/
  | commit (work : SplitWork) (seen : List P4xCategoryDirect)

inductive SplitInput
  | setCategoryDirect (txId : Uuid) (slots : List Slot) (now : Timestamp)
  | unsetCategoryDirect (txId : Uuid) (now : Timestamp)
  | next
  | fail

/-- The valid slots of a request as rows; nothing when they are refused. -/
def splitRows (t : P4xTransaction) (slots : List Slot) : Option (List P4xCategoryDirect) :=
  match (validSlots slots).mapM slotDecimal with
  | .error _ => none
  | .ok values =>
    if values ≠ [] ∧ (t.amount : ℚ)/100 ≠ decimalSum (values.map (·.2)) then none
    else some (values.map (newDirect t.id))

def SplitWork.setAsideRow (work : SplitWork) (d : P4xCategoryDirect) : P4xCategoryDirect :=
  if d.p4xTransactionId=work.call.transaction.id ∧ d.active=true ∧ d.p4xCategoryId ∈ work.setAside then
    { d with deletedAt := some work.call.now }
  else d

/-- The rows as the transaction itself sees them, and as it commits them. -/
def SplitWork.apply (work : SplitWork) (s : Store) : Store :=
  let txId := work.call.transaction.id
  { s with
    directs := s.directs.map work.setAsideRow ++ work.call.rows
    filterHits := s.filterHits.filter (fun h =>
      ¬ (h.p4xTransactionId=txId ∧ h.p4xCategoryFilterId ∈ work.deletedHits)) ++
      work.newHits.map fun f => ⟨f,txId⟩ }

/-- Without a changed direct no trigger runs. -/
def SplitWork.ChangesDirects (work : SplitWork) : Prop := work.setAside ≠ [] ∨ work.call.rows ≠ []

instance (work : SplitWork) : Decidable work.ChangesDirects :=
  inferInstanceAs (Decidable (_ ∨ _))

/-- Unique keys and foreign keys of the rows to insert: an active direct of a category that is not set
aside by the call itself refuses a new one. -/
def SplitWork.Insertable (work : SplitWork) (s : Store) : Prop :=
  (work.call.rows.map (·.p4xCategoryId)).Nodup ∧
  (∀ row ∈ work.call.rows, (∃ category ∈ s.categories, category.id=row.p4xCategoryId) ∧
    InNumericRange row.amount ∧ ∀ d ∈ activeDirects s work.call.transaction.id,
      d.p4xCategoryId=row.p4xCategoryId → d.p4xCategoryId ∈ work.setAside) ∧
  ∀ h ∈ s.filterHits, h.p4xTransactionId=work.call.transaction.id →
    h.p4xCategoryFilterId ∈ work.newHits → h.p4xCategoryFilterId ∈ work.deletedHits

instance (work : SplitWork) (s : Store) : Decidable (work.Insertable s) :=
  inferInstanceAs (Decidable (_ ∧ _ ∧ _))

/-- The keys of the rows to insert. -/
def SplitWork.keys (work : SplitWork) : List SplitKey :=
  work.call.rows.map (fun row => .direct work.call.transaction.id row.p4xCategoryId) ++
    work.newHits.map (.hit work.call.transaction.id)

section Program
variable (lower : PyText → PyText) (c : ClientId) (s : SplitState)

def SplitState.unlock : SplitState := { s with locks := s.locks.release c }

def SplitState.lock (keys : List SplitKey) : SplitState := { s with locks := s.locks.acquire c keys }

/-- The step, once nobody else holds the keys. -/
def SplitState.await (keys : List SplitKey) (r : SplitState × SplitPlace) :
    Option (SplitState × SplitPlace) :=
  if ∀ key ∈ keys, s.locks.FreeFor c key then some r else none

/-- The rows are there for all, and each inserted one has its number. -/
def SplitState.commit (work : SplitWork) : SplitState where
  store := work.apply s.store
  locks := s.locks.release c
  inserted key := if key ∈ work.keys then s.inserted key+1 else s.inserted key

def beginSetCategoryDirect (txId : Uuid) (slots : List Slot) (now : Timestamp) : SplitPlace :=
  match getTransactionOr404 s.store txId with
  | .error _ => .idle
  | .ok t =>
    match splitRows t slots with
    | none => .idle
    | some rows => .selected ⟨t,rows,now⟩

def beginUnsetCategoryDirect (txId : Uuid) (now : Timestamp) : SplitPlace :=
  match getTransactionOr404 s.store txId with
  | .error _ => .idle
  | .ok t => .selected ⟨t,[],now⟩

def categoriesOf (txId : Uuid) : List Uuid := (activeDirects s.store txId).map (·.p4xCategoryId)

def hitFiltersOf (txId : Uuid) : List Uuid :=
  (s.store.filterHits.filter fun h => h.p4xTransactionId=txId).map (·.p4xCategoryFilterId)

/-- The hits to insert: those of the matching filters, for a transaction without directs. -/
def newHitsOf (call : SplitCall) : List Uuid :=
  if call.rows ≠ [] then []
  else (s.store.filters.filter fun f =>
    call.transaction.id ∈ matchingTransactions lower s.store f ∅).map (·.id)

def seenDirects (txId : Uuid) : List SeenRow :=
  (categoriesOf s txId).map fun category => (category,s.inserted (.direct txId category))

def seenHits (txId : Uuid) : List SeenRow :=
  (hitFiltersOf s txId).map fun filter => (filter,s.inserted (.hit txId filter))

/-- One direct of the `UPDATE`. One that is set aside by now is passed over; a direct that was
inserted since, of the same category even, is none of the rows that the statement saw. -/
def updateNext (call : SplitCall) (setAside : List Uuid) :
    List SeenRow → Option (SplitState × SplitPlace)
  | [] => some (s,.deleteHits call setAside (seenHits s call.transaction.id) [])
  | row::pending =>
    if row ∈ seenDirects s call.transaction.id then
      s.await c [.direct call.transaction.id row.1]
        (s.lock c [.direct call.transaction.id row.1],.update call pending (row.1::setAside))
    else some (s,.update call pending setAside)

/-- One hit of the `DELETE`. -/
def deleteHitsNext (call : SplitCall) (setAside deletedHits : List Uuid) :
    List SeenRow → Option (SplitState × SplitPlace)
  | [] => some (s,.flush ⟨call,setAside,deletedHits,newHitsOf lower s call⟩)
  | row::pending =>
    if row ∈ seenHits s call.transaction.id then
      s.await c [.hit call.transaction.id row.1]
        (s.lock c [.hit call.transaction.id row.1],
          .deleteHits call setAside pending (row.1::deletedHits))
    else some (s,.deleteHits call setAside pending deletedHits)

def flushSplits (work : SplitWork) : Option (SplitState × SplitPlace) :=
  s.await c work.keys <|
    if work.Insertable s.store then (s.lock c work.keys,.check work) else (s.unlock c,.idle)

def checkSum (work : SplitWork) : SplitState × SplitPlace :=
  if work.ChangesDirects → DirectSumHolds (work.apply s.store) work.call.transaction then
    (s,.commit work (activeDirects s.store work.call.transaction.id))
  else (s.unlock c,.idle)

def splitResume : SplitPlace → Option (SplitState × SplitPlace)
  | .idle => none
  | .selected call => some (s,.update call (seenDirects s call.transaction.id) [])
  | .update call pending setAside => updateNext c s call setAside pending
  | .deleteHits call setAside pending deletedHits =>
    deleteHitsNext lower c s call setAside deletedHits pending
  | .flush work => flushSplits c s work
  | .check work => some (checkSum c s work)
  | .commit work _ => some (s.commit c work,.idle)

end Program

def splitProgram (lower : PyText → PyText) : Program SplitState SplitPlace SplitInput :=
  fun c s place input =>
    match place,input with
    | .idle,.setCategoryDirect txId slots now => some (s,beginSetCategoryDirect s txId slots now)
    | .idle,.unsetCategoryDirect txId now => some (s,beginUnsetCategoryDirect s txId now)
    | place,.next => splitResume lower c s place
    | _,.fail => some (s.unlock c,.idle)
    | _,_ => none

/-- Every transaction has no active directs, or they add up to its amount. -/
def SplitsConsistent (s : SplitState) : Prop :=
  ∀ t ∈ s.store.transactions, DirectSumHolds s.store t

instance (s : SplitState) : Decidable (SplitsConsistent s) :=
  inferInstanceAs (Decidable (∀ t ∈ s.store.transactions, _))

/-- A call that has changed directs commits while the directs are those that the trigger added up. -/
def CommitsFresh (w : World SplitState SplitPlace) (a : ClientId × SplitInput) : Prop :=
  a.2=.next → ∀ work seen, w.clients a.1=.commit work seen → work.ChangesDirects →
    activeDirects w.shared.store work.call.transaction.id=seen

/-- The transaction of a call is a row, and the rows to insert are its directs. -/
structure SplitCall.Known (s : Store) (call : SplitCall) : Prop where
  transaction : call.transaction ∈ s.transactions
  rows : ∀ row ∈ call.rows, row.p4xTransactionId=call.transaction.id

/-- What a client knows about its call; before the commit the trigger has passed. -/
def SplitPlace.Known (s : Store) : SplitPlace → Prop
  | .idle => True
  | .selected call => call.Known s
  | .update call _ _ => call.Known s
  | .deleteHits call _ _ _ => call.Known s
  | .flush work => work.call.Known s
  | .check work => work.call.Known s
  | .commit work seen => work.call.Known s ∧
      (work.ChangesDirects → ∃ s', activeDirects s' work.call.transaction.id=seen ∧
        DirectSumHolds (work.apply s') work.call.transaction)

/-- Rows that a map takes out of the selection, and rows that it leaves alone. -/
lemma filter_map_eq_filter {α : Type*} {f : α → α} {p q : α → Bool} {l : List α}
    (h : ∀ a ∈ l, p (f a)=q a ∧ (q a=true → f a=a)) : (l.map f).filter p=l.filter q := by
  induction l with
  | nil => rfl
  | cons a l ih =>
    obtain ⟨hp,hf⟩ := h a List.mem_cons_self
    have ih := ih fun b hb => h b (List.mem_cons_of_mem _ hb)
    rw [List.map_cons,List.filter_cons,List.filter_cons,hp,ih]
    split_ifs with hq
    · rw [hf hq]
    · rfl

lemma activeDirects_apply (work : SplitWork) (s : Store) :
    activeDirects (work.apply s) work.call.transaction.id=
      (activeDirects s work.call.transaction.id).filter (fun d => d.p4xCategoryId ∉ work.setAside) ++
      work.call.rows.filter (fun d => d.active && d.p4xTransactionId=work.call.transaction.id) := by
  simp only [activeDirects,SplitWork.apply,List.filter_append,List.filter_filter]
  congr 1
  apply filter_map_eq_filter
  intro d _
  unfold SplitWork.setAsideRow
  split_ifs with hset
  · simp [hset,P4xCategoryDirect.active]
  · refine ⟨?_,fun _ => rfl⟩
    by_cases hcat : d.p4xCategoryId ∈ work.setAside
    · have hother : ¬ (d.p4xTransactionId=work.call.transaction.id ∧ d.active=true) :=
        fun h => hset ⟨h.1,h.2,hcat⟩
      have hout : (d.active && decide (d.p4xTransactionId=work.call.transaction.id))=false := by
        rw [Bool.and_eq_false_iff,decide_eq_false_iff_not,← Bool.not_eq_true]
        by_contra hin
        rw [not_or,not_not,not_not] at hin
        exact hother ⟨hin.2,hin.1⟩
      simp [hcat,hout]
    · simp [hcat]

lemma activeDirects_apply_of_ne {work : SplitWork} {s : Store} (hknown : work.call.Known s)
    {txId : Uuid} (hne : txId ≠ work.call.transaction.id) :
    activeDirects (work.apply s) txId=activeDirects s txId := by
  have hrows : work.call.rows.filter (fun d => d.active && d.p4xTransactionId=txId)=[] := by
    rw [List.filter_eq_nil_iff]
    intro row hrow
    simp [hknown.rows row hrow,hne.symm]
  simp only [activeDirects,SplitWork.apply,List.filter_append,hrows,List.append_nil]
  apply filter_map_eq_filter
  intro d _
  unfold SplitWork.setAsideRow
  split_ifs with hset
  · have hother : d.p4xTransactionId ≠ txId := fun heq => hne (heq.symm.trans hset.1)
    simp [hother]
  · exact ⟨rfl,fun _ => rfl⟩

/-- What the trigger has passed holds after the commit, when the directs are still the same. -/
lemma splitsConsistent_commit {work : SplitWork} {s : Store} {seen : List P4xCategoryDirect}
    (hids : (s.transactions.map (·.id)).Nodup)
    (hs : ∀ t ∈ s.transactions, DirectSumHolds s t)
    (hplace : SplitPlace.Known s (.commit work seen))
    (hfresh : work.ChangesDirects → activeDirects s work.call.transaction.id=seen) :
    ∀ t ∈ s.transactions, DirectSumHolds (work.apply s) t := by
  obtain ⟨hknown,hpassed⟩ := hplace
  intro t ht
  by_cases hid : t.id=work.call.transaction.id
  · have htx : t=work.call.transaction :=
      List.inj_on_of_nodup_map hids ht hknown.transaction hid
    subst htx
    by_cases hchanges : work.ChangesDirects
    · obtain ⟨s',hseen,hsum⟩ := hpassed hchanges
      have hsame := activeDirects_apply work s
      rw [hfresh hchanges,← hseen,← activeDirects_apply] at hsame
      unfold DirectSumHolds
      rw [hsame]
      exact hsum
    · simp only [SplitWork.ChangesDirects,not_or,not_not] at hchanges
      have hsame := activeDirects_apply work s
      rw [hchanges.1,hchanges.2,List.filter_nil,List.append_nil] at hsame
      unfold DirectSumHolds
      rw [hsame,List.filter_eq_self.mpr fun _ _ => decide_eq_true List.not_mem_nil]
      exact hs _ ht
  · unfold DirectSumHolds
    rw [activeDirects_apply_of_ne hknown hid]
    exact hs t ht

lemma getTransactionOr404_mem {s : Store} {txId : Uuid} {t : P4xTransaction}
    (h : getTransactionOr404 s txId=.ok t) : t ∈ s.transactions := by
  unfold getTransactionOr404 at h
  split at h
  · rename_i hfind
    cases h
    exact List.mem_of_find?_eq_some hfind
  · contradiction

lemma splitRows_txId {t : P4xTransaction} {slots : List Slot} {rows : List P4xCategoryDirect}
    (h : splitRows t slots=some rows) : ∀ row ∈ rows, row.p4xTransactionId=t.id := by
  unfold splitRows at h
  split at h
  · contradiction
  · split_ifs at h
    cases h
    intro row hrow
    obtain ⟨value,-,rfl⟩ := List.mem_map.mp hrow
    rfl

section Steps
variable {lower : PyText → PyText} {c : ClientId} {s s' : SplitState} {place place' : SplitPlace}
  {input : SplitInput}

lemma SplitState.await_eq_some {keys : List SplitKey} {r : SplitState × SplitPlace}
    (h : s.await c keys r=some (s',place')) :
    (∀ key ∈ keys, s.locks.FreeFor c key) ∧ r=(s',place') := by
  unfold SplitState.await at h
  split_ifs at h with hfree
  exact ⟨hfree,Option.some.inj h⟩

/-- Only the commit changes the rows; what the client knows goes on. -/
lemma splitResume_known (h : splitResume lower c s place=some (s',place'))
    (hplace : place.Known s.store) :
    s'.store=s.store ∧ place'.Known s.store ∨
      ∃ work seen, place=.commit work seen ∧ s'.store=work.apply s.store ∧ place'=.idle := by
  cases place with
  | idle => contradiction
  | selected call =>
    cases h
    exact .inl ⟨rfl,hplace⟩
  | update call pending setAside =>
    refine .inl ?_
    cases pending with
    | nil =>
      cases h
      exact ⟨rfl,hplace⟩
    | cons row pending =>
      simp only [splitResume,updateNext] at h
      split_ifs at h
      · obtain ⟨-,heq⟩ := SplitState.await_eq_some h
        cases heq
        exact ⟨rfl,hplace⟩
      · cases h
        exact ⟨rfl,hplace⟩
  | deleteHits call setAside pending deletedHits =>
    refine .inl ?_
    cases pending with
    | nil =>
      cases h
      exact ⟨rfl,hplace⟩
    | cons row pending =>
      simp only [splitResume,deleteHitsNext] at h
      split_ifs at h
      · obtain ⟨-,heq⟩ := SplitState.await_eq_some h
        cases heq
        exact ⟨rfl,hplace⟩
      · cases h
        exact ⟨rfl,hplace⟩
  | flush work =>
    refine .inl ?_
    obtain ⟨-,heq⟩ := SplitState.await_eq_some h
    split_ifs at heq
    · cases heq
      exact ⟨rfl,hplace⟩
    · cases heq
      exact ⟨rfl,trivial⟩
  | check work =>
    refine .inl ?_
    simp only [splitResume,checkSum] at h
    split_ifs at h with hpassed
    · cases h
      exact ⟨rfl,hplace,fun hchanges => ⟨s.store,rfl,hpassed hchanges⟩⟩
    · cases h
      exact ⟨rfl,trivial⟩
  | commit work seen =>
    cases h
    exact .inr ⟨work,seen,rfl,rfl,rfl⟩

lemma splitProgram_known (h : splitProgram lower c s place input=some (s',place'))
    (hplace : place.Known s.store) :
    s'.store=s.store ∧ place'.Known s.store ∨ ∃ work seen, input=.next ∧
      place=.commit work seen ∧ s'.store=work.apply s.store ∧ place'=.idle := by
  unfold splitProgram at h
  split at h
  · cases h
    refine .inl ⟨rfl,?_⟩
    unfold beginSetCategoryDirect
    split
    · trivial
    · rename_i t ht
      split
      · trivial
      · rename_i rows hrows
        exact ⟨getTransactionOr404_mem ht,splitRows_txId hrows⟩
  · cases h
    refine .inl ⟨rfl,?_⟩
    unfold beginUnsetCategoryDirect
    split
    · trivial
    · rename_i t ht
      exact ⟨getTransactionOr404_mem ht,nofun⟩
  · rcases splitResume_known h hplace with hkept | ⟨work,seen,hcommit⟩
    · exact .inl hkept
    · exact .inr ⟨work,seen,rfl,hcommit⟩
  · cases h
    exact .inl ⟨rfl,trivial⟩
  · contradiction

/-- A place is about the transactions, which no step changes. -/
lemma SplitPlace.Known.of_transactions {s s' : Store} (h : s'.transactions=s.transactions)
    (hplace : place.Known s) : place.Known s' := by
  have hcall : ∀ {call : SplitCall}, call.Known s → call.Known s' :=
    fun hknown => ⟨by rw [h]; exact hknown.transaction,hknown.rows⟩
  cases place with
  | idle => trivial
  | commit work seen => exact ⟨hcall hplace.1,hplace.2⟩
  | _ => exact hcall hplace

end Steps

/-- In every run whose calls commit what their trigger has added up, the directs of every transaction
split its amount. -/
theorem splitsConsistent_of_fresh {lower : PyText → PyText} {w₀ w : World SplitState SplitPlace}
    (hidle : ∀ c, w₀.clients c=.idle) (hids : (w₀.shared.store.transactions.map (·.id)).Nodup)
    (h₀ : SplitsConsistent w₀.shared)
    (hrun : (splitProgram lower).interleave.Reaches CommitsFresh w₀ w) :
    SplitsConsistent w.shared := by
  have hstart : Program.Holds (fun s => (s.store.transactions.map (·.id)).Nodup ∧ SplitsConsistent s)
      (fun _ s place => place.Known s.store) w₀ := by
    refine ⟨⟨hids,h₀⟩,?_⟩
    intro c
    rw [hidle c]
    trivial
  have hinv := Program.Holds.of_reaches hrun hstart ?_ ?_
  · exact hinv.shared.2
  · intro w c input s place hw hok hstep
    rcases splitProgram_known hstep (hw.clients c) with ⟨hstore,hplace⟩ |
        ⟨work,seen,rfl,hcommit,hstore,rfl⟩
    · refine ⟨?_,by rw [hstore]; exact hplace⟩
      unfold SplitsConsistent
      rw [hstore]
      exact hw.shared
    · refine ⟨?_,trivial⟩
      unfold SplitsConsistent
      rw [hstore]
      refine ⟨hw.shared.1,?_⟩
      have hknown := hw.clients c
      rw [hcommit] at hknown
      exact splitsConsistent_commit hw.shared.1 hw.shared.2 hknown (hok rfl work seen hcommit)
  · intro w c input s place c' hw _ hstep _
    rcases splitProgram_known hstep (hw.clients c) with ⟨hstore,-⟩ | ⟨work,seen,-,-,hstore,-⟩
    · rw [hstore]
      exact hw.clients c'
    · refine SplitPlace.Known.of_transactions ?_ (hw.clients c')
      rw [hstore]
      rfl

/-- A booking of 25.00 without directs that no filter matches. -/
def bookingWithoutDirects : P4xTransaction :=
  ⟨40,"h",Date.of 2025 2 3,Date.of 2025 2 3,[],2500,[],10,none,none,none,none,"{}",none⟩

def racingStore : Store where
  members := []
  accounts := [⟨10,none,0,none⟩]
  categories := [⟨20,[]⟩,⟨21,[]⟩]
  filters := []
  filterHits := []
  directs := []
  fees := []
  partners := []
  transactions := [bookingWithoutDirects]
  nextUuid := 50

def splitWorld : World SplitState SplitPlace := ⟨⟨racingStore,fun _ => none,fun _ => 0⟩,fun _ => .idle⟩

/-- The whole amount to one category. -/
def wholeAmount (categoryId : Uuid) : SplitInput :=
  .setCategoryDirect 40 [⟨some categoryId,.ofNumeric bookingWithoutDirects.amount⟩] 0

lemma splitRows_whole {t : P4xTransaction} (hzero : t.amount ≠ 0) (hrange : InNumericRange t.amount)
    (categoryId : Uuid) : splitRows t [⟨some categoryId,.ofNumeric t.amount⟩]=
      some [⟨t.id,categoryId,t.amount,none⟩] := by
  have hslots : (validSlots [⟨some categoryId,.ofNumeric t.amount⟩]).mapM slotDecimal=
      .ok [(categoryId,(t.amount : ℚ)/100)] := by
    rw [SlotAmount.ofNumeric,if_neg hzero]
    rfl
  have hsum : decimalSum [(t.amount : ℚ)/100]=(t.amount : ℚ)/100 := by
    simpa [decimalSum] using roundToContext_cents hrange
  simp [splitRows,hslots,hsum,newDirect,toNumeric_cents]

/-- The client has its rows ready. -/
def selectedCall (categoryId : Uuid) : SplitPlace :=
  .selected ⟨bookingWithoutDirects,[⟨40,categoryId,2500,none⟩],0⟩

lemma beginSetCategoryDirect_eq {s : SplitState} {txId : Uuid} {slots : List Slot} {now : Timestamp}
    {t : P4xTransaction} {rows : List P4xCategoryDirect}
    (hget : getTransactionOr404 s.store txId=.ok t) (hrows : splitRows t slots=some rows) :
    beginSetCategoryDirect s txId slots now=.selected ⟨t,rows,now⟩ := by
  simp only [beginSetCategoryDirect,hget,hrows]

lemma begin_wholeAmount (categoryId : Uuid) : beginSetCategoryDirect splitWorld.shared 40
    [⟨some categoryId,.ofNumeric bookingWithoutDirects.amount⟩] 0=selectedCall categoryId := by
  have hrange : InNumericRange bookingWithoutDirects.amount := by
    norm_num [InNumericRange,bookingWithoutDirects]
  exact beginSetCategoryDirect_eq rfl (splitRows_whole (by decide) hrange categoryId)

lemma splitWorld_selected (lower : PyText → PyText) (clients : ClientId → SplitPlace) (c : ClientId)
    (hidle : clients c=.idle) (categoryId : Uuid) :
    (splitProgram lower).interleave.step ⟨splitWorld.shared,clients⟩ (c,wholeAmount categoryId)=
      some ⟨splitWorld.shared,Function.update clients c (selectedCall categoryId)⟩ := by
  refine Program.interleave_step_eq_some.mpr ⟨splitWorld.shared,selectedCall categoryId,?_,rfl⟩
  change splitProgram lower c splitWorld.shared (clients c) _=_
  rw [hidle,← begin_wholeAmount]
  rfl

/-- The steps of one call after its checks. -/
def splitSteps (c : ClientId) : List (ClientId × SplitInput) := List.replicate 6 (c,.next)

lemma splitSteps_meets : (splitProgram id).interleave.Meets CommitsFresh
    ⟨splitWorld.shared,Function.update splitWorld.clients 0 (selectedCall 20)⟩ (splitSteps 0) := by
  refine ⟨fun _ => nofun,fun w₁ h₁ => ?_⟩
  cases h₁
  refine ⟨fun _ => nofun,fun w₂ h₂ => ?_⟩
  cases h₂
  refine ⟨fun _ => nofun,fun w₃ h₃ => ?_⟩
  cases h₃
  refine ⟨fun _ => nofun,fun w₄ h₄ => ?_⟩
  cases h₄
  refine ⟨fun _ => nofun,fun w₅ h₅ => ?_⟩
  cases h₅
  refine ⟨?_,fun _ _ => trivial⟩
  intro _ work seen hplace _
  cases hplace
  rfl

theorem splitsConsistent_wholeAmount : ∃ w₁ w₂,
    (splitProgram id).interleave.step splitWorld (0,wholeAmount 20)=some w₁ ∧
      (splitProgram id).interleave.run w₁ (splitSteps 0)=some w₂ ∧
      activeDirects w₂.shared.store 40=[⟨40,20,2500,none⟩] ∧ SplitsConsistent w₂.shared := by
  have hstep := splitWorld_selected id splitWorld.clients 0 rfl 20
  refine ⟨_,_,hstep,rfl,rfl,?_⟩
  have hfirst : (splitProgram id).interleave.Reaches CommitsFresh splitWorld _ :=
    .next .refl nofun hstep
  exact splitsConsistent_of_fresh (fun _ => rfl) (by decide) (by decide)
    (hfirst.trans (Machine.reaches_of_run splitSteps_meets rfl))

/-- Two calls add up their rows before either commits. -/
theorem splits_overlap : (∀ c, splitWorld.clients c=.idle) ∧ SplitsConsistent splitWorld.shared ∧
    ∃ w, (splitProgram id).interleave.run splitWorld
      ((0,wholeAmount 20)::(1,wholeAmount 21)::((splitSteps 0).take 5++splitSteps 1++[(0,.next)]))=
        some w ∧ ¬ SplitsConsistent w.shared := by
  refine ⟨fun _ => rfl,by decide,?_⟩
  have h₀ := splitWorld_selected id splitWorld.clients 0 rfl 20
  have h₁ := splitWorld_selected id (Function.update splitWorld.clients 0 (selectedCall 20)) 1 rfl 21
  obtain ⟨w,hw,hinconsistent⟩ : ∃ w, (splitProgram id).interleave.run
      ⟨splitWorld.shared,Function.update (Function.update splitWorld.clients 0 (selectedCall 20)) 1
        (selectedCall 21)⟩ ((splitSteps 0).take 5++splitSteps 1++[(0,.next)])=some w ∧
      ¬ SplitsConsistent w.shared := ⟨_,rfl,by decide⟩
  refine ⟨w,?_,hinconsistent⟩
  rw [← hw,Machine.run,show splitWorld=⟨splitWorld.shared,splitWorld.clients⟩ from rfl,h₀,
    Option.bind_some,Machine.run,h₁,Option.bind_some]

end VbApi.P4x
