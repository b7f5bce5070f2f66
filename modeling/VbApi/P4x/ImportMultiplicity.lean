import VbApi.P4x.ImportRounds

/-! How many rows the imports of a sequence of export files leave for each key: as many as the
file that holds the key most often. -/
namespace VbApi.P4x
open VbApi.Foundations

/-- How often a key stands in a file. -/
def keyCount (entries : List ImportEntry) (k : EntryKey) : ℕ :=
  entries.countP fun e => (keyedEntry e).map (·.2)=some k

/-- Entries with equal keys carry the same local dates. -/
def SameLocalDates (entries : List ImportEntry) : Prop :=
  ∀ e ∈ entries, ∀ e' ∈ entries, ∀ p p' k, keyedEntry e=some (p,k) → keyedEntry e'=some (p',k) →
    p.booking=p'.booking ∧ p.valuation=p'.valuation

/-- The bookings with the key lie on or after the day from which the account is kept. -/
def KeptKey (account : P4xAccount) (entries : List ImportEntry) (k : EntryKey) : Prop :=
  ∀ e ∈ entries, ∀ p, keyedEntry e=some (p,k) → beforeInitDate account p=false

/-- An active row of the account with the data of an entry. -/
structure RowOf (account : P4xAccount) (hash : String) (p : CompletePayload) (t : P4xTransaction) :
    Prop where
  hash : t.sha256Hash=hash
  booking : t.booking=p.booking
  valuation : t.valuation=p.valuation
  iban : t.iban=p.iban.codes
  amount : t.amount=p.amount.value
  subject : t.subject=p.subject.codes
  account : t.p4xAccountId=account.id
  active : t.deletedAt=none

section Rows
variable (sha256 : List Char → String) (account : P4xAccount) (all : List ImportEntry)

/-- The rows hold `count k` occurrences of every key, and nothing else. -/
structure RowsHold (count : EntryKey → ℕ) (rows : List P4xTransaction) : Prop where
  nodup : (rows.map (·.sha256Hash)).Nodup
  sound : ∀ t ∈ rows, ∃ e ∈ all, ∃ p k n, keyedEntry e=some (p,k) ∧ KeptKey account all k ∧
    1 ≤ n ∧ n ≤ count k ∧ RowOf account (occurrenceHash sha256 (k.hash sha256) n) p t
  complete : ∀ k n, KeptKey account all k → 1 ≤ n → n ≤ count k →
    ∃ t ∈ rows, t.sha256Hash=occurrenceHash sha256 (k.hash sha256) n

/-- In the middle of a file whose entries `done` are through; `prev` counts the files before. -/
structure ImportProgress (prev : EntryKey → ℕ) (done : List ImportEntry) (st : ImportState) :
    Prop where
  seen : ∀ k, st.seen.getD (k.hash sha256) 0=keyCount done k
  rows : RowsHold sha256 account all (fun k => max (prev k) (keyCount done k))
    (st.store.transactions ++ st.pending)
  pending : ∀ t ∈ st.pending, ∃ k n, n ≤ keyCount done k ∧
    t.sha256Hash=occurrenceHash sha256 (k.hash sha256) n

variable {sha256 account all}

lemma keyCount_concat (done : List ImportEntry) (e : ImportEntry) (k : EntryKey) :
    keyCount (done ++ [e]) k=
      keyCount done k+if (keyedEntry e).map (·.2)=some k then 1 else 0 := by
  rw [keyCount,keyCount,List.countP_append,List.countP_singleton]
  by_cases hk : (keyedEntry e).map (·.2)=some k <;> simp [hk]

lemma keyCount_concat_none (done : List ImportEntry) {e : ImportEntry} (he : keyedEntry e=none) :
    keyCount (done ++ [e])=keyCount done := by
  funext k
  simp [keyCount_concat,he]

lemma keyCount_concat_some {done : List ImportEntry} {e : ImportEntry} {p : CompletePayload}
    {k : EntryKey} (he : keyedEntry e=some (p,k)) (k' : EntryKey) :
    keyCount (done ++ [e]) k'=if k'=k then keyCount done k+1 else keyCount done k' := by
  rw [keyCount_concat,he]
  by_cases hk : k'=k
  · simp [hk]
  · simp [hk,Ne.symm hk]

/-- An entry that is not before the first day has a key that is kept. -/
lemma keptKey_of_entry (hdates : SameLocalDates all) {e : ImportEntry} (hmem : e ∈ all)
    {p : CompletePayload} {k : EntryKey} (he : keyedEntry e=some (p,k))
    (hnot : beforeInitDate account p=false) : KeptKey account all k := by
  intro e' hmem' p' he'
  rw [beforeInitDate,(hdates e' hmem' e hmem p' p k he' he).1]
  exact hnot

/-- Larger counts, when the rows for them are there. -/
lemma RowsHold.grow {count count' : EntryKey → ℕ} {rows : List P4xTransaction}
    (h : RowsHold sha256 account all count rows) (hle : ∀ k, count k ≤ count' k)
    (hnew : ∀ k n, KeptKey account all k → count k < n → n ≤ count' k →
      ∃ t ∈ rows, t.sha256Hash=occurrenceHash sha256 (k.hash sha256) n) :
    RowsHold sha256 account all count' rows := by
  refine ⟨h.nodup,?_,?_⟩
  · intro t ht
    obtain ⟨e,he,p,k,n,hkey,hkept,hpos,hn,hrow⟩ := h.sound t ht
    exact ⟨e,he,p,k,n,hkey,hkept,hpos,hn.trans (hle k),hrow⟩
  · intro k n hkept hpos hn
    by_cases hold : n ≤ count k
    · exact h.complete k n hkept hpos hold
    · exact hnew k n hkept (not_le.mp hold) hn

/-- The occurrences that one more entry with a key asks for. -/
lemma max_keyCount_concat (prev : EntryKey → ℕ) (done : List ImportEntry) {e : ImportEntry}
    {p : CompletePayload} {k : EntryKey} (he : keyedEntry e=some (p,k)) :
    (∀ k', max (prev k') (keyCount done k') ≤ max (prev k') (keyCount (done ++ [e]) k')) ∧
    ∀ k' n, max (prev k') (keyCount done k') < n → n ≤ max (prev k') (keyCount (done ++ [e]) k') →
      k'=k ∧ n=keyCount done k+1 := by
  constructor
  · intro k'
    rw [keyCount_concat]
    exact max_le_max le_rfl (Nat.le_add_right _ _)
  · intro k' n hlt hn
    rw [keyCount_concat_some he] at hn
    by_cases hk : k'=k
    · subst hk
      rw [if_pos rfl] at hn
      refine ⟨rfl,?_⟩
      omega
    · rw [if_neg hk] at hn
      omega

lemma updateHash_of_forall_ne {s : Store} {hash : String}
    (h : ∀ t ∈ s.transactions, t.sha256Hash ≠ hash) (change : P4xTransaction → P4xTransaction) :
    updateHash s hash change=s := by
  have hsame : (s.transactions.map fun t => if t.sha256Hash=hash then change t else t)=
      s.transactions := by
    refine (List.map_congr_left fun t ht => ?_).trans (List.map_id _)
    rw [if_neg (h t ht)]
    rfl
  rw [updateHash,hsame]

section Row
variable {e : ImportEntry} (hmem : e ∈ all) {p : CompletePayload} {k : EntryKey}
  (he : keyedEntry e=some (p,k)) (hkept : KeptKey account all k) {n : ℕ} (hpos : 1 ≤ n)
include hmem he hkept hpos

/-- The row of an occurrence may be written again. -/
lemma RowsHold.overwrite {count : EntryKey → ℕ} {rows pending : List P4xTransaction}
    (h : RowsHold sha256 account all count (rows ++ pending)) (hn : n ≤ count k) (raw : String) :
    RowsHold sha256 account all count
      ((rows.map fun t => if t.sha256Hash=occurrenceHash sha256 (k.hash sha256) n then
        overwrite t account p raw else t) ++ pending) := by
  have hmap : ((rows.map fun t => if t.sha256Hash=occurrenceHash sha256 (k.hash sha256) n then
      P4x.overwrite t account p raw else t) ++ pending).map (·.sha256Hash)=
        (rows ++ pending).map (·.sha256Hash) := by
    rw [List.map_append,List.map_append,List.map_map]
    congr 1
    apply List.map_congr_left
    intro t _
    dsimp only [Function.comp]
    split_ifs <;> rfl
  constructor
  · rw [hmap]
    exact h.nodup
  · intro t ht
    rcases List.mem_append.mp ht with ht | ht
    · obtain ⟨t₀,ht₀,rfl⟩ := List.mem_map.mp ht
      split_ifs with heq
      · exact ⟨e,hmem,p,k,n,he,hkept,hpos,hn,heq,rfl,rfl,rfl,rfl,rfl,rfl,rfl⟩
      · exact h.sound t₀ (List.mem_append_left _ ht₀)
    · exact h.sound t (List.mem_append_right _ ht)
  · intro k' n' hkept' hpos' hle
    obtain ⟨t,ht,hhash⟩ := h.complete k' n' hkept' hpos' hle
    have hmem' := List.mem_map_of_mem (f := fun t : P4xTransaction => t.sha256Hash) ht
    rw [← hmap,hhash] at hmem'
    obtain ⟨t',ht',hhash'⟩ := List.mem_map.mp hmem'
    exact ⟨t',ht',hhash'⟩

/-- A row for the one occurrence that is missing. -/
lemma RowsHold.append_newRow {count count' : EntryKey → ℕ} {rows : List P4xTransaction}
    (h : RowsHold sha256 account all count rows) (hle : ∀ k, count k ≤ count' k)
    (hnot : ∀ t ∈ rows, t.sha256Hash ≠ occurrenceHash sha256 (k.hash sha256) n)
    (hn : n ≤ count' k)
    (honly : ∀ k' n', count k' < n' → n' ≤ count' k' → k'=k ∧ n'=n) (raw : String) :
    RowsHold sha256 account all count'
      (rows ++ [newRow account (occurrenceHash sha256 (k.hash sha256) n) p raw]) := by
  constructor
  · rw [List.map_append]
    refine h.nodup.append (List.nodup_singleton _) ?_
    intro hash hold hnew
    obtain ⟨t,ht,rfl⟩ := List.mem_map.mp hold
    exact hnot t ht (List.mem_singleton.mp hnew)
  · intro t ht
    rcases List.mem_append.mp ht with ht | ht
    · obtain ⟨e',he',p',k',n',hkey,hkept',hpos',hle',hrow⟩ := h.sound t ht
      exact ⟨e',he',p',k',n',hkey,hkept',hpos',hle'.trans (hle k'),hrow⟩
    · rw [List.mem_singleton.mp ht]
      exact ⟨e,hmem,p,k,n,he,hkept,hpos,hn,rfl,rfl,rfl,rfl,rfl,rfl,rfl,rfl⟩
  · intro k' n' hkept' hpos' hle'
    by_cases hold : n' ≤ count k'
    · obtain ⟨t,ht,hhash⟩ := h.complete k' n' hkept' hpos' hold
      exact ⟨t,List.mem_append_left _ ht,hhash⟩
    · obtain ⟨rfl,rfl⟩ := honly k' n' (not_le.mp hold) hle'
      exact ⟨_,List.mem_append_right _ (List.mem_singleton_self _),rfl⟩

end Row

variable (hsha : Function.Injective sha256)
include hsha

/-- The dictionary of seen hashes counts the keys. -/
lemma seen_set {seen : Dict String ℕ} {done : List ImportEntry}
    (hseen : ∀ k, seen.getD (k.hash sha256) 0=keyCount done k) {e : ImportEntry}
    {p : CompletePayload} {k : EntryKey} (he : keyedEntry e=some (p,k)) (k' : EntryKey) :
    (seen.set (k.hash sha256) (keyCount done k+1)).getD (k'.hash sha256) 0=
      keyCount (done ++ [e]) k' := by
  rw [Dict.getD_set,keyCount_concat_some he,hseen]
  by_cases hk : k'=k
  · simp [hk]
  · rw [if_neg hk,if_neg fun h => hk (EntryKey.hash_inj hsha h)]

/-- A file that waits has no row for the next occurrence of a key. -/
lemma ImportProgress.pending_ne {prev : EntryKey → ℕ} {done : List ImportEntry} {st : ImportState}
    (h : ImportProgress sha256 account all prev done st) (k : EntryKey) :
    ∀ t ∈ st.pending, t.sha256Hash ≠ occurrenceHash sha256 (k.hash sha256) (keyCount done k+1) := by
  intro t ht heq
  obtain ⟨k',n,hle,hhash⟩ := h.pending t ht
  obtain ⟨rfl,rfl⟩ := occurrenceHash_inj hsha (hhash.symm.trans heq)
  omega

/-- One more occurrence of a key: its row is brought up to date or added. -/
lemma ImportProgress.storeEntry {prev : EntryKey → ℕ} {done : List ImportEntry} {st : ImportState}
    (h : ImportProgress sha256 account all prev done st) (hdates : SameLocalDates all)
    {e : ImportEntry} (hmem : e ∈ all) {p : CompletePayload} {k : EntryKey}
    (he : keyedEntry e=some (p,k)) (now : Timestamp) (seen : Dict String ℕ) (summary : Summary)
    (hseen : ∀ k', seen.getD (k'.hash sha256) 0=keyCount (done ++ [e]) k') :
    ImportProgress sha256 account all prev (done ++ [e])
      (storeEntry account now { st with seen := seen, summary := summary }
        (occurrenceHash sha256 (k.hash sha256) (keyCount done k+1)) p e.raw) := by
  obtain ⟨hmax,honly⟩ := max_keyCount_concat prev done he
  have hcount : keyCount (done ++ [e]) k=keyCount done k+1 := by
    rw [keyCount_concat_some he,if_pos rfl]
  have hn : keyCount done k+1 ≤ max (prev k) (keyCount (done ++ [e]) k) := by
    rw [hcount]
    exact le_max_right _ _
  have hpending : ∀ t ∈ st.pending, ∃ k n, n ≤ keyCount (done ++ [e]) k ∧
      t.sha256Hash=occurrenceHash sha256 (k.hash sha256) n := by
    intro t ht
    obtain ⟨k',n,hle,hhash⟩ := h.pending t ht
    refine ⟨k',n,hle.trans ?_,hhash⟩
    rw [keyCount_concat]
    exact Nat.le_add_right _ _
  unfold P4x.storeEntry
  split_ifs with hbefore
  · -- a key before the first day is not kept, so no row has its hash
    have hnot : ¬ KeptKey account all k := by
      intro hkept
      have hfalse := hkept e hmem p he
      rw [beforeInitDate,hbefore] at hfalse
      contradiction
    have hnone : ∀ t ∈ st.store.transactions,
        t.sha256Hash ≠ occurrenceHash sha256 (k.hash sha256) (keyCount done k+1) := by
      intro t ht heq
      obtain ⟨e',-,p',k',n,-,hkept,-,-,hrow⟩ := h.rows.sound t (List.mem_append_left _ ht)
      obtain ⟨rfl,-⟩ := occurrenceHash_inj hsha (hrow.hash.symm.trans heq)
      exact hnot hkept
    refine ⟨hseen,?_,hpending⟩
    rw [updateHash_of_forall_ne hnone]
    refine h.rows.grow hmax ?_
    intro k' n hkept hlt hle
    obtain ⟨rfl,-⟩ := honly k' n hlt hle
    exact absurd hkept hnot
  · have hkept : KeptKey account all k :=
      keptKey_of_entry hdates hmem he (by simpa [beforeInitDate] using hbefore)
    cases hfind : st.store.transactions.find? fun t =>
        t.sha256Hash=occurrenceHash sha256 (k.hash sha256) (keyCount done k+1) with
    | some existing =>
      refine ⟨hseen,?_,hpending⟩
      refine RowsHold.overwrite hmem he hkept (Nat.le_add_left _ _) ?_ hn e.raw
      refine h.rows.grow hmax ?_
      intro k' n _ hlt hle
      obtain ⟨rfl,rfl⟩ := honly k' n hlt hle
      exact ⟨existing,List.mem_append_left _ (List.mem_of_find?_eq_some hfind),
        by simpa using List.find?_some hfind⟩
    | none =>
      refine ⟨hseen,?_,?_⟩
      · rw [← List.append_assoc]
        refine RowsHold.append_newRow hmem he hkept (Nat.le_add_left _ _) h.rows hmax ?_ hn honly e.raw
        intro t ht
        rcases List.mem_append.mp ht with ht | ht
        · simpa using List.find?_eq_none.mp hfind t ht
        · exact h.pending_ne hsha k t ht
      · intro t ht
        rcases List.mem_append.mp ht with ht | ht
        · exact hpending t ht
        · rw [List.mem_singleton.mp ht]
          exact ⟨k,keyCount done k+1,hcount.ge,rfl⟩

/-- One round of the import. -/
lemma ImportProgress.step {prev : EntryKey → ℕ} {done : List ImportEntry} {st st' : ImportState}
    (h : ImportProgress sha256 account all prev done st) (hdates : SameLocalDates all)
    {e : ImportEntry} (hmem : e ∈ all) {now : Timestamp}
    (hok : importEntry sha256 account now st e=.ok st') :
    ImportProgress sha256 account all prev (done ++ [e]) st' := by
  obtain ⟨he,key,-,rfl⟩ | ⟨p,k,n,summary,he,hn,-,rfl⟩ := importEntry_cases hok
  · have hsame := keyCount_concat_none done he
    constructor
    · rw [hsame]
      exact h.seen
    · rw [hsame]
      exact h.rows
    · rw [hsame]
      exact h.pending
  · rw [h.seen] at hn
    subst hn
    exact h.storeEntry hsha hdates hmem he now _ summary (seen_set hsha h.seen he)

lemma ImportProgress.foldlM {prev : EntryKey → ℕ} {done entries : List ImportEntry}
    {st st' : ImportState} (h : ImportProgress sha256 account all prev done st)
    (hdates : SameLocalDates all) (hsub : ∀ e ∈ entries, e ∈ all) {now : Timestamp}
    (hok : entries.foldlM (importEntry sha256 account now) st=.ok st') :
    ImportProgress sha256 account all prev (done ++ entries) st' := by
  induction entries generalizing st done with
  | nil =>
    cases hok
    rwa [List.append_nil]
  | cons e entries ih =>
    rw [List.foldlM_cons,bind_eq_ok_iff] at hok
    obtain ⟨mid,hmid,hok⟩ := hok
    have hstep := h.step hsha hdates (hsub e List.mem_cons_self) hmid
    have hrest := ih hstep (fun e he => hsub e (List.mem_cons_of_mem _ he)) hok
    rwa [List.append_assoc] at hrest

end Rows
end VbApi.P4x
