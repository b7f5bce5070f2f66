import VbApi.P4x.ImportErrors

/-! What an import into one account does to the rows of the others. The hash of an entry does not name
the account, and an entry before the first day of the account sets aside the row with its hash. -/
namespace VbApi.P4x
open VbApi.Foundations

/-- Somewhere in the file stands an entry with an amount that is imported under this hash. -/
def HasEntry (sha256 : List Char → String) (entries : List ImportEntry) (p : CompletePayload)
    (hash : String) : Prop :=
  ∃ done e rest k, entries=done ++ e::rest ∧ keyedEntry e=some (p,k) ∧
    hash=occurrenceHash sha256 (k.hash sha256) (keyCount done k+1)

/-- A row of another account stays as it is, unless an accepted entry has its hash. -/
def KeepsOthers (sha256 : List Char → String) (s : Store) (account : P4xAccount)
    (entries : List ImportEntry) (s' : Store) : Prop :=
  ∀ t ∈ s.transactions, t.p4xAccountId ≠ account.id →
    t ∈ s'.transactions ∨ ∃ p, HasEntry sha256 entries p t.sha256Hash ∧ beforeInitDate account p=false

/-- The import skips the entry. -/
def Skips (account : P4xAccount) (e : ImportEntry) : Prop :=
  ∀ p k, keyedEntry e=some (p,k) → beforeInitDate account p=true

/-- No round with a skipped entry changes a row of another account. -/
def SkipsKeepOthers (sha256 : List Char → String) (s : Store) (account : P4xAccount)
    (now : Timestamp) (entries : List ImportEntry) : Prop :=
  ∀ done e rest, entries=done ++ e::rest → Skips account e → ∀ st st',
    done.foldlM (importEntry sha256 account now) ⟨s,[],Dict.empty,Dict.empty⟩=.ok st →
    importEntry sha256 account now st e=.ok st' →
    ∀ t ∈ st.store.transactions, t.p4xAccountId ≠ account.id → t ∈ st'.store.transactions

/-- No entry before the first day has the hash of a row of another account, but for rows that are
deleted at this very moment. -/
def SkippedNotElsewhere (sha256 : List Char → String) (s : Store) (account : P4xAccount)
    (now : Timestamp) (entries : List ImportEntry) : Prop :=
  ∀ t ∈ s.transactions, t.p4xAccountId ≠ account.id → ∀ p, HasEntry sha256 entries p t.sha256Hash →
    beforeInitDate account p=true → t.deletedAt=some now

section Frame
variable {sha256 : List Char → String} {account : P4xAccount} {now : Timestamp}
variable {done rest entries : List ImportEntry} {e : ImportEntry} {st st' : ImportState}
variable {t : P4xTransaction} {p : CompletePayload} {k : EntryKey}

lemma setDeleted_eq (h : t.deletedAt=some now) : setDeleted now t=t := by
  cases t
  cases h
  rfl

/-- Entries of one key stand at places with different counts. -/
lemma place_unique {done' rest' : List ImportEntry} {e' : ImportEntry} {p' : CompletePayload}
    (heq : done ++ e::rest=done' ++ e'::rest') (he : keyedEntry e=some (p,k))
    (he' : keyedEntry e'=some (p',k)) (hcount : keyCount done k=keyCount done' k) : e=e' := by
  have hlonger : ∀ {l l' m : List ImportEntry} {x : ImportEntry} {q : CompletePayload},
      keyedEntry x=some (q,k) → l'=l ++ x::m → keyCount l k < keyCount l' k := by
    intro l l' m x q hx hl
    rw [hl,List.append_cons,keyCount,keyCount,List.countP_append]
    have hself : keyCount (l ++ [x]) k=keyCount l k+1 := by
      rw [keyCount_concat_some hx,if_pos rfl]
    rw [keyCount,keyCount] at hself
    omega
  obtain ⟨m,hdone,hrest⟩ | ⟨m,hdone,hrest⟩ := List.append_eq_append_iff.mp heq
  · cases m with
    | nil => exact (List.cons.inj hrest).1
    | cons x m =>
      have hx := (List.cons.inj hrest).1
      subst hx
      have hlt := hlonger he hdone
      omega
  · cases m with
    | nil => exact (List.cons.inj hrest).1.symm
    | cons x m =>
      have hx := (List.cons.inj hrest).1
      subst hx
      have hlt := hlonger he' hdone
      omega

lemma HasEntry.mem {hash : String} (h : HasEntry sha256 entries p hash) :
    ∃ e k, e ∈ entries ∧ keyedEntry e=some (p,k) := by
  obtain ⟨done,e,rest,k,rfl,he,-⟩ := h
  exact ⟨e,k,List.mem_append_right _ (List.mem_cons_self ..),he⟩

/-- One entry of the file has a hash. -/
lemma HasEntry.unique (hsha : Function.Injective sha256) {hash : String} {p' : CompletePayload}
    (h : HasEntry sha256 entries p hash) (h' : HasEntry sha256 entries p' hash) : p=p' := by
  obtain ⟨done,e,rest,k,hentries,he,hhash⟩ := h
  obtain ⟨done',e',rest',k',hentries',he',hhash'⟩ := h'
  obtain ⟨rfl,hcount⟩ := occurrenceHash_inj hsha (hhash.symm.trans hhash')
  have hsame := place_unique (hentries.symm.trans hentries') he he' (Nat.succ.inj hcount)
  rw [hsame,he'] at he
  cases he
  rfl

/-! ### One round -/

/-- A stored row whose hash is not the entry's stays, and so does one that is set aside again. -/
lemma importEntry_keeps (h : FlushProgress sha256 account done st)
    (hok : importEntry sha256 account now st e=.ok st') (ht : t ∈ st.store.transactions)
    (hhash : ∀ p k, keyedEntry e=some (p,k) →
      t.sha256Hash=occurrenceHash sha256 (k.hash sha256) (keyCount done k+1) →
      beforeInitDate account p=true ∧ t.deletedAt=some now) : t ∈ st'.store.transactions := by
  obtain ⟨-,key,-,rfl⟩ | ⟨p,k,n,summary,he,hn,-,rfl⟩ := importEntry_cases hok
  · exact ht
  · rw [h.seen] at hn
    subst hn
    by_cases hsame : t.sha256Hash=occurrenceHash sha256 (k.hash sha256) (keyCount done k+1)
    · obtain ⟨hbefore,hdeleted⟩ := hhash p k he hsame
      obtain ⟨-,hstore,-⟩ | ⟨hkept,-⟩ | ⟨hkept,-⟩ := storeEntry_cases account now
        { st with seen := st.seen.set (k.hash sha256) (keyCount done k+1), summary := summary }
        (occurrenceHash sha256 (k.hash sha256) (keyCount done k+1)) p e.raw
      · rw [hstore]
        exact mem_updateHash.mpr (.inr ⟨t,ht,hsame,(setDeleted_eq hdeleted).symm⟩)
      · rw [hbefore] at hkept
        cases hkept
      · rw [hbefore] at hkept
        cases hkept
    · obtain ⟨-,hstore,-⟩ | ⟨-,-,hstore,-⟩ | ⟨-,-,hstore,-⟩ := storeEntry_cases account now
        { st with seen := st.seen.set (k.hash sha256) (keyCount done k+1), summary := summary }
        (occurrenceHash sha256 (k.hash sha256) (keyCount done k+1)) p e.raw
      · rw [hstore]
        exact mem_updateHash.mpr (.inl ⟨ht,hsame⟩)
      · rw [hstore]
        exact mem_updateHash.mpr (.inl ⟨ht,hsame⟩)
      · rw [hstore]
        exact ht

/-- Where the rows after a round come from. -/
lemma importEntry_mem (h : FlushProgress sha256 account done st)
    (hok : importEntry sha256 account now st e=.ok st') (ht : t ∈ st'.rows) :
    t ∈ st.rows ∨ ∃ p k, keyedEntry e=some (p,k) ∧
      t.sha256Hash=occurrenceHash sha256 (k.hash sha256) (keyCount done k+1) ∧
      ((beforeInitDate account p=true ∧ ∃ t₀ ∈ st.rows, t₀.sha256Hash=t.sha256Hash ∧
        t=setDeleted now t₀) ∨ (beforeInitDate account p=false ∧ t.p4xAccountId=account.id)) := by
  obtain ⟨-,key,-,rfl⟩ | ⟨p,k,n,summary,he,hn,-,rfl⟩ := importEntry_cases hok
  · exact .inl ht
  · rw [h.seen] at hn
    subst hn
    obtain ht | ⟨hbefore,t₀,ht₀,hhash,rfl⟩ | ⟨hkept,hrow⟩ := storeEntry_mem ht
    · exact .inl ht
    · exact .inr ⟨p,k,he,hhash,.inl ⟨hbefore,t₀,ht₀,rfl,rfl⟩⟩
    · exact .inr ⟨p,k,he,hrow.hash,.inr ⟨hkept,hrow.account⟩⟩

/-- An entry before the first day leaves no row with its hash that is not set aside. -/
lemma importEntry_setsAside (hsha : Function.Injective sha256)
    (h : FlushProgress sha256 account done st) (hok : importEntry sha256 account now st e=.ok st')
    (he : keyedEntry e=some (p,k)) (hbefore : beforeInitDate account p=true) (ht : t ∈ st'.rows)
    (hhash : t.sha256Hash=occurrenceHash sha256 (k.hash sha256) (keyCount done k+1)) :
    t.deletedAt=some now := by
  obtain ⟨hnone,-⟩ | ⟨p',k',n,summary,he',hn,-,rfl⟩ := importEntry_cases hok
  · rw [he] at hnone
    cases hnone
  · rw [he] at he'
    cases he'
    rw [h.seen] at hn
    subst hn
    obtain ⟨-,hstore,hpending⟩ | ⟨hkept,-⟩ | ⟨hkept,-⟩ := storeEntry_cases account now
      { st with seen := st.seen.set (k.hash sha256) (keyCount done k+1), summary := summary }
      (occurrenceHash sha256 (k.hash sha256) (keyCount done k+1)) p e.raw
    · rw [ImportState.rows,hstore,hpending] at ht
      obtain ht | ht := List.mem_append.mp ht
      · obtain ⟨-,hne⟩ | ⟨t₀,-,-,rfl⟩ := mem_updateHash.mp ht
        · exact absurd hhash hne
        · rfl
      · obtain ⟨k',n,hn,hpend⟩ := h.pending t ht
        exact absurd (hpend.symm.trans hhash) (next_occurrence_ne hsha hn)
    · rw [hbefore] at hkept
      cases hkept
    · rw [hbefore] at hkept
      cases hkept

/-! ### The rounds of a file -/

lemma foldlM_importEntry_keeps (hsha : Function.Injective sha256)
    (h : FlushProgress sha256 account done st)
    (hrun : rest.foldlM (importEntry sha256 account now) st=.ok st')
    (ht : t ∈ st.store.transactions)
    (hhash : ∀ p, HasEntry sha256 (done ++ rest) p t.sha256Hash →
      beforeInitDate account p=true ∧ t.deletedAt=some now) : t ∈ st'.store.transactions := by
  induction rest generalizing done st with
  | nil =>
    cases hrun
    exact ht
  | cons e rest ih =>
    rw [List.foldlM_cons] at hrun
    obtain ⟨mid,hmid,hrun⟩ := bind_eq_ok_iff.mp hrun
    refine ih (h.step hsha hmid) hrun (importEntry_keeps h hmid ht ?_) ?_
    · intro p k he heq
      exact hhash p ⟨done,e,rest,k,rfl,he,heq⟩
    · rw [← List.append_cons]
      exact hhash

/-- Later entries have other hashes than those that were there. -/
lemma foldlM_importEntry_mem (hsha : Function.Injective sha256)
    (h : FlushProgress sha256 account done st)
    (hrun : rest.foldlM (importEntry sha256 account now) st=.ok st') (ht : t ∈ st'.rows)
    {n : ℕ} (hn : n ≤ keyCount done k)
    (hhash : t.sha256Hash=occurrenceHash sha256 (k.hash sha256) n) : t ∈ st.rows := by
  induction rest generalizing done st with
  | nil =>
    cases hrun
    exact ht
  | cons e rest ih =>
    rw [List.foldlM_cons] at hrun
    obtain ⟨mid,hmid,hrun⟩ := bind_eq_ok_iff.mp hrun
    have hlast := ih (h.step hsha hmid) hrun (hn.trans (keyCount_le_concat done e k))
    obtain hold | ⟨p,k',-,heq,-⟩ := importEntry_mem h hmid hlast
    · exact hold
    · exact absurd (hhash.symm.trans heq) (next_occurrence_ne hsha hn)

/-- A row of another account was there before, perhaps not yet set aside. -/
lemma foldlM_importEntry_origin (hsha : Function.Injective sha256)
    (h : FlushProgress sha256 account done st)
    (hrun : rest.foldlM (importEntry sha256 account now) st=.ok st') (ht : t ∈ st'.rows)
    (hother : t.p4xAccountId ≠ account.id) :
    ∃ t₀ ∈ st.rows, t₀.sha256Hash=t.sha256Hash ∧ t₀.p4xAccountId=t.p4xAccountId ∧
      (t=t₀ ∨ t=setDeleted now t₀) := by
  induction rest generalizing done st with
  | nil =>
    cases hrun
    exact ⟨t,ht,rfl,rfl,.inl rfl⟩
  | cons e rest ih =>
    rw [List.foldlM_cons] at hrun
    obtain ⟨mid,hmid,hrun⟩ := bind_eq_ok_iff.mp hrun
    obtain ⟨t₁,ht₁,hhash₁,haccount₁,hsame₁⟩ := ih (h.step hsha hmid) hrun
    obtain hold | ⟨p,k,-,-,⟨-,t₀,ht₀,hhash₀,rfl⟩ | ⟨-,hself⟩⟩ := importEntry_mem h hmid ht₁
    · exact ⟨t₁,hold,hhash₁,haccount₁,hsame₁⟩
    · refine ⟨t₀,ht₀,hhash₀.trans hhash₁,haccount₁,.inr ?_⟩
      obtain rfl | rfl := hsame₁
      · rfl
      · rfl
    · exact absurd (haccount₁.symm.trans hself) hother

/-! ### The frame -/

lemma FlushProgress.initial {s : Store} (hs : TableAccepts s.transactions)
    (hsha : Function.Injective sha256)
    (hrun : done.foldlM (importEntry sha256 account now) ⟨s,[],Dict.empty,Dict.empty⟩=.ok st) :
    FlushProgress sha256 account done st :=
  (FlushProgress.start hs).foldlM hsha hrun

lemma keepsOthers_of_notElsewhere {s : Store} (hsha : Function.Injective sha256)
    (hs : TableAccepts s.transactions)
    (hrun : entries.foldlM (importEntry sha256 account now) ⟨s,[],Dict.empty,Dict.empty⟩=.ok st)
    (h : SkippedNotElsewhere sha256 s account now entries) :
    KeepsOthers sha256 s account entries (flush st) := by
  intro t ht hother
  by_cases haccepted : ∃ p, HasEntry sha256 entries p t.sha256Hash ∧ beforeInitDate account p=false
  · exact .inr haccepted
  · refine .inl (List.mem_append_left _ ?_)
    refine foldlM_importEntry_keeps hsha (FlushProgress.start hs) hrun ht ?_
    intro p hp
    have hbefore : beforeInitDate account p=true := by
      by_contra hne
      exact haccepted ⟨p,hp,by simpa using hne⟩
    exact ⟨hbefore,h t ht hother p hp hbefore⟩

lemma skipsKeepOthers_of_notElsewhere {s : Store} (hsha : Function.Injective sha256)
    (hs : TableAccepts s.transactions) (h : SkippedNotElsewhere sha256 s account now entries) :
    SkipsKeepOthers sha256 s account now entries := by
  intro done e rest hentries hskip st st' hrun hround t ht hother
  refine importEntry_keeps (FlushProgress.initial hs hsha hrun) hround ht ?_
  intro p k he hhash
  refine ⟨hskip p k he,?_⟩
  obtain ⟨t₀,ht₀,hhash₀,haccount₀,hsame⟩ := foldlM_importEntry_origin hsha (FlushProgress.start hs)
    hrun (List.mem_append_left _ ht) hother
  rw [ImportState.rows,List.append_nil] at ht₀
  have hdeleted : t₀.deletedAt=some now := by
    refine h t₀ ht₀ (haccount₀.trans_ne hother) p ?_ (hskip p k he)
    exact ⟨done,e,rest,k,hentries,he,hhash₀.trans hhash⟩
  obtain rfl | rfl := hsame
  · exact hdeleted
  · rfl

lemma notElsewhere_of_keepsOthers {s : Store} (hsha : Function.Injective sha256)
    (hs : TableAccepts s.transactions)
    (hrun : entries.foldlM (importEntry sha256 account now) ⟨s,[],Dict.empty,Dict.empty⟩=.ok st)
    (h : KeepsOthers sha256 s account entries (flush st)) :
    SkippedNotElsewhere sha256 s account now entries := by
  intro t ht hother p hp hbefore
  obtain hkept | ⟨p',hp',hafter⟩ := h t ht hother
  · obtain ⟨done,e,rest,k,rfl,he,hhash⟩ := hp
    rw [List.foldlM_append] at hrun
    obtain ⟨st₁,hdone,hrun⟩ := bind_eq_ok_iff.mp hrun
    rw [List.foldlM_cons] at hrun
    obtain ⟨st₂,hround,hrun⟩ := bind_eq_ok_iff.mp hrun
    have hprogress := FlushProgress.initial hs hsha hdone
    have hself : keyCount done k+1 ≤ keyCount (done ++ [e]) k := by
      rw [keyCount_concat_some he,if_pos rfl]
    -- every row with the hash is one that the entry set aside
    have haside : ∀ t' ∈ st.rows, t'.sha256Hash=t.sha256Hash → t'.deletedAt=some now := by
      intro t' ht' hsame
      have hmid := foldlM_importEntry_mem hsha (hprogress.step hsha hround) hrun ht' hself
        (hsame.trans hhash)
      exact importEntry_setsAside hsha hprogress hround he hbefore hmid (hsame.trans hhash)
    obtain hkept | hkept := List.mem_append.mp hkept
    · exact haside t (List.mem_append_left _ hkept) rfl
    · obtain ⟨i,hi,rfl⟩ := List.mem_mapIdx.mp hkept
      exact haside st.pending[i] (List.mem_append_right _ (List.getElem_mem hi)) rfl
  · rw [hp.unique hsha hp',hafter] at hbefore
    cases hbefore

/-- An import leaves the rows of the other accounts alone exactly when no entry that it skips for its
date has the hash of one. -/
theorem importFrame_iff {s s' : Store} {summary : Summary} (hsha : Function.Injective sha256)
    (hs : TableAccepts s.transactions)
    (hok : importOrRaise sha256 s account now entries=.ok (s',summary)) :
    KeepsOthers sha256 s account entries s' ∧ SkipsKeepOthers sha256 s account now entries ↔
      SkippedNotElsewhere sha256 s account now entries := by
  rw [importOrRaise] at hok
  cases hrun : entries.foldlM (importEntry sha256 account now) ⟨s,[],Dict.empty,Dict.empty⟩ with
  | error err =>
    rw [hrun] at hok
    cases hok
  | ok st =>
    rw [hrun] at hok
    dsimp only at hok
    split_ifs at hok
    cases hok
    constructor
    · intro h
      exact notElsewhere_of_keepsOthers hsha hs hrun h.1
    · intro h
      exact ⟨keepsOthers_of_notElsewhere hsha hs hrun h,skipsKeepOthers_of_notElsewhere hsha hs h⟩

end Frame

def otherAccount : P4xAccount := ⟨2,some (Date.of 2025 1 1),0,none⟩

/-- The fee of the sample, booked on the other account. -/
def otherRow : P4xTransaction :=
  { newRow otherAccount "ffc8ece16200d18cf3255d285494259cde8985157cab51394f13e65ec3efaa94"
      ⟨Date.of 2025 2 3,Date.of 2025 2 3,⟨text "AT1",merged_at1⟩,⟨false,2500⟩,
        ⟨text "mitgliedsbeitrag",merged_mitgliedsbeitrag⟩⟩ "[]" with id := 5 }

def twoAccounts : Store :=
  { bareStore with accounts := [sampleAccount,otherAccount], transactions := [otherRow] }

/-- The account with a later first day. -/
def laterAccount : P4xAccount := { sampleAccount with initDate := some (Date.of 2026 1 1) }

/-- The account that begins between the two bookings. -/
def februaryAccount : P4xAccount := { sampleAccount with initDate := some (Date.of 2025 2 15) }

/-- A higher fee of the same day, on the other account. -/
def higherRow : P4xTransaction :=
  { otherRow with
    sha256Hash := "71f043e34e70a3970408c88f3946ded7c7172742c844ab3d999dea92de0190b9"
    amount := 3000 }

def higherElsewhere : Store := { twoAccounts with transactions := [higherRow] }

lemma higherElsewhere_accepts : TableAccepts higherElsewhere.transactions := by decide +kernel

theorem importFrame_skippedFee : ∃ r, importOrRaise (hashWithDigests sampleDigests) higherElsewhere
      februaryAccount 7 [beitragEntry,spendeEntry]=.ok r ∧ r.2.getD "before_init_date" 0=1 ∧
    KeepsOthers (hashWithDigests sampleDigests) higherElsewhere februaryAccount
      [beitragEntry,spendeEntry] r.1 := by
  have hsha : Function.Injective (hashWithDigests sampleDigests) :=
    hashWithDigests_injective (by decide) (by decide)
  have hfile : ∀ i < 2, ∀ e ∈ [beitragEntry,spendeEntry][i]?, ∀ x ∈ keyedEntry e,
      higherRow.sha256Hash ≠ occurrenceHash (hashWithDigests sampleDigests)
        (x.2.hash (hashWithDigests sampleDigests))
        (keyCount ([beitragEntry,spendeEntry].take i) x.2+1) := by
    decide +kernel
  have hrun : ((importOrRaise (hashWithDigests sampleDigests) higherElsewhere februaryAccount 7
      [beitragEntry,spendeEntry]).toOption.any fun r => r.2.getD "before_init_date" 0=1)=true := by
    decide +kernel
  cases hok : importOrRaise (hashWithDigests sampleDigests) higherElsewhere februaryAccount 7
      [beitragEntry,spendeEntry] with
  | error e =>
    rw [hok] at hrun
    cases hrun
  | ok r =>
    rw [hok] at hrun
    refine ⟨r,rfl,of_decide_eq_true hrun,
      ((importFrame_iff hsha higherElsewhere_accepts hok).mpr ?_).1⟩
    rintro t ht - p ⟨done,e,rest,k,hentries,he,hhash⟩ -
    obtain rfl := List.mem_singleton.mp ht
    have hlt : done.length < 2 := by
      have hlength := congrArg List.length hentries
      simp only [List.length_append,List.length_cons,List.length_nil] at hlength
      omega
    have hat := hfile done.length hlt
    rw [hentries,List.getElem?_append_right le_rfl,Nat.sub_self,List.take_left] at hat
    exact absurd hhash (hat e rfl (p,k) he)

/-- A file imported into one account sets aside the booking of another: its entry is skipped. -/
theorem skipped_entry_deactivates_other : ∃ r, importOrRaise (hashWithDigests sampleDigests)
      twoAccounts laterAccount 7 [beitragEntry]=.ok r ∧
    r.2.getD "before_init_date" 0=1 ∧ (∀ t ∈ r.1.transactions, t.deletedAt=some 7) ∧
    ¬ KeepsOthers (hashWithDigests sampleDigests) twoAccounts laterAccount [beitragEntry] r.1 := by
  have hbefore : ∀ e ∈ [beitragEntry], ∀ x ∈ keyedEntry e, beforeInitDate laterAccount x.1=true := by
    decide +kernel
  have hrun : ((importOrRaise (hashWithDigests sampleDigests) twoAccounts laterAccount 7
      [beitragEntry]).toOption.any fun r => r.2.getD "before_init_date" 0=1 ∧
        (∀ t ∈ r.1.transactions, t.deletedAt=some 7) ∧ otherRow ∉ r.1.transactions)=true := by
    decide +kernel
  cases hok : importOrRaise (hashWithDigests sampleDigests) twoAccounts laterAccount 7
      [beitragEntry] with
  | error e =>
    rw [hok] at hrun
    cases hrun
  | ok r =>
    rw [hok] at hrun
    obtain ⟨hcount,haside,hgone⟩ := of_decide_eq_true hrun
    refine ⟨r,rfl,hcount,haside,?_⟩
    intro hkeeps
    obtain hkept | ⟨p,hp,hafter⟩ := hkeeps otherRow (List.mem_singleton_self _) (by decide)
    · exact hgone hkept
    · obtain ⟨e,k,hmem,he⟩ := hp.mem
      rw [hbefore e hmem (p,k) he] at hafter
      cases hafter

end VbApi.P4x
