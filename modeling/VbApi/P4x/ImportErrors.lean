import VbApi.P4x.BankTimes
import VbApi.P4x.ImportFiles
import VbApi.P4x.ImportRows

/-! Which parsed exports the import takes without an error. The loop can fail at the clock time and the
offset of a date, the flush at a text or an amount that its column does not take. -/
namespace VbApi.P4x
open VbApi.Foundations

/-- What the columns take of an entry that is kept. -/
def Storing (p : CompletePayload) : Prop :=
  Storable p.iban.codes ∧ Storable p.subject.codes ∧ p.amount.cents < 10^12

/-- What the import needs beyond the parser: for an entry with an amount, times that can be read, and,
unless its booking lies before the account's first day, texts and an amount that can be stored. -/
def EntryFits (account : P4xAccount) (e : ImportEntry) : Prop :=
  ∀ p, e.payload.complete=some p → p.amount.value ≠ 0 →
    TimeFits p.booking e.originalBooking ∧ TimeFits p.valuation e.originalValuation ∧
      (beforeInitDate account p=false → Storing p)

/-- What the parser found out about an entry. -/
structure ParsedEntry (e : ImportEntry) (p : CompletePayload) : Prop where
  complete : e.payload.complete=some p
  booking : Date.fromIsoformat ((strip e.originalBooking).take 10)=.ok p.booking
  valuation : Date.fromIsoformat ((strip e.originalValuation).take 10)=.ok p.valuation

/-! ### The parser -/

section Parser
variable {reprOf : JsonValue → JsonText} {dumps : JsonValue → String}
variable {loads : PyText → Option JsonValue}

lemma bookingDate_ok {struct : JsonValue} {name : String} {d : Date}
    (h : bookingDate reprOf struct name=.ok d) :
    Date.fromIsoformat ((strip (originalText reprOf struct name)).take 10)=.ok d := by
  obtain ⟨value,hvalue,h⟩ := bind_eq_ok_iff.mp h
  have hget : struct.get? name=some value := by
    simp only [field,List.foldlM_cons,List.foldlM_nil,child] at hvalue
    cases hget : struct.get? name with
    | none =>
      rw [hget] at hvalue
      cases hvalue
    | some v =>
      rw [hget] at hvalue
      cases hvalue
      rfl
  rw [originalText,hget]
  cases hdate : Date.fromIsoformat ((stripped reprOf value).take 10) with
  | error e =>
    rw [hdate] at h
    cases h
  | ok d' =>
    rw [hdate] at h
    cases h
    exact hdate

lemma parseEntry_ok {struct : JsonValue} {entry : ParsedTransactionEntry}
    (h : parseEntry reprOf dumps struct=.ok entry) :
    ∃ p, ParsedEntry (importEntryOf reprOf entry struct) p := by
  simp only [parseEntry,bind_eq_ok_iff] at h
  obtain ⟨_,-,booking,hbooking,valuation,hvaluation,_,-,iban,-,_,-,_,-,_,-,amount,-,_,-,heq⟩ := h
  cases heq
  exact ⟨⟨booking,valuation,_,amount,_⟩,rfl,bookingDate_ok hbooking,bookingDate_ok hvaluation⟩

theorem georgeEntries_parsed {bic rawJson : PyText} {entries : List ImportEntry}
    (h : georgeEntries reprOf dumps loads bic rawJson=.ok entries) :
    ∀ e ∈ entries, ∃ p, ParsedEntry e p := by
  obtain ⟨parsed,hparsed,heq⟩ := bind_eq_ok_iff.mp h
  cases heq
  rw [parseGeorgeJson] at hparsed
  split_ifs at hparsed
  cases hstructs : originalStructs loads rawJson with
  | none =>
    rw [hstructs] at hparsed
    cases hparsed
  | some structs =>
    rw [hstructs] at hparsed
    dsimp only at hparsed
    cases hrun : structs.mapM (parseEntry reprOf dumps) with
    | error e =>
      rw [hrun] at hparsed
      cases hparsed
    | ok entries =>
      rw [hrun] at hparsed
      cases hparsed
      rw [Option.getD_some]
      clear hstructs h
      induction structs generalizing parsed with
      | nil =>
        cases hrun
        simp
      | cons struct structs ih =>
        rw [List.mapM_cons] at hrun
        obtain ⟨entry,hentry,hrun⟩ := bind_eq_ok_iff.mp hrun
        obtain ⟨rest,hrest,hrun⟩ := bind_eq_ok_iff.mp hrun
        cases hrun
        intro e he
        rw [List.zipWith_cons_cons] at he
        cases he with
        | head => exact parseEntry_ok hentry
        | tail _ he => exact ih rest hrest e he

end Parser

/-! ### The loop -/

lemma complete_of_keyedEntry {e : ImportEntry} {p : CompletePayload} {k : EntryKey}
    (h : keyedEntry e=some (p,k)) : e.payload.complete=some p ∧ p.amount.value ≠ 0 := by
  unfold keyedEntry at h
  split at h
  · cases h
  · rename_i q hq
    split_ifs at h with hzero
    split at h
    · cases h
      exact ⟨hq,hzero⟩
    · cases h

section Loop
variable {sha256 : List Char → String} {account : P4xAccount} {now : Timestamp}

/-- The two dates of an entry with an amount can be read for the hash. -/
def DatesRead (e : ImportEntry) : Prop :=
  ∀ p, e.payload.complete=some p → p.amount.value ≠ 0 →
    (∃ t, dateToCarbonJson p.booking e.originalBooking=.ok t) ∧
      ∃ t, dateToCarbonJson p.valuation e.originalValuation=.ok t

lemma importEntry_isOk_iff (st : ImportState) (e : ImportEntry) :
    (∃ st', importEntry sha256 account now st e=.ok st') ↔ DatesRead e := by
  rw [importEntry]
  cases hp : e.payload.complete with
  | none => simp [DatesRead,hp]
  | some p =>
    dsimp only
    by_cases hzero : p.amount.value=0
    · simp [DatesRead,hp,hzero]
    · rw [if_neg hzero]
      simp only [bind_eq_ok_iff,DatesRead,hp,Option.some.injEq,forall_eq']
      constructor
      · intro h _
        obtain ⟨_,booking,hb,valuation,hv,-⟩ := h
        exact ⟨⟨booking,hb⟩,valuation,hv⟩
      · intro h
        obtain ⟨⟨booking,hb⟩,valuation,hv⟩ := h hzero
        exact ⟨_,booking,hb,valuation,hv,rfl⟩

/-- The loop ends when every entry's dates can be read. -/
lemma foldlM_importEntry_isOk_iff (entries : List ImportEntry) (st : ImportState) :
    (∃ st', entries.foldlM (importEntry sha256 account now) st=.ok st') ↔
      ∀ e ∈ entries, DatesRead e := by
  induction entries generalizing st with
  | nil => simp
  | cons e entries ih =>
    rw [List.forall_mem_cons,List.foldlM_cons]
    constructor
    · intro h
      obtain ⟨st',h⟩ := h
      obtain ⟨mid,hmid,hrest⟩ := bind_eq_ok_iff.mp h
      exact ⟨(importEntry_isOk_iff st e).mp ⟨mid,hmid⟩,(ih mid).mp ⟨st',hrest⟩⟩
    · intro h
      obtain ⟨mid,hmid⟩ : ∃ mid, importEntry sha256 account now st e=.ok mid :=
        (importEntry_isOk_iff st e).mpr h.1
      obtain ⟨st',hrest⟩ := (ih mid).mpr h.2
      exact ⟨st',bind_eq_ok_iff.mpr ⟨mid,hmid,hrest⟩⟩

/-- Every entry is counted as given. -/
lemma importEntry_given {st st' : ImportState} {e : ImportEntry}
    (hok : importEntry sha256 account now st e=.ok st') :
    st'.summary.getD "giventotal" 0=st.summary.getD "giventotal" 0+1 := by
  have hcounter : ∀ key ∈ entryCounters, "giventotal" ≠ key := by decide
  obtain ⟨-,key,hkey,rfl⟩ | ⟨p,k,n,summary,-,-,hsummary,rfl⟩ := importEntry_cases hok
  · simp [getD_bump,hcounter key hkey]
  · obtain ⟨key,hkey,hstored⟩ := @storeEntry_summary account now
      { st with seen := st.seen.set (k.hash sha256) n, summary := summary }
      (occurrenceHash sha256 (k.hash sha256) n) p e.raw
    rw [hstored,getD_bump,if_neg (hcounter key hkey)]
    obtain rfl | rfl := hsummary
    · simp [getD_bump]
    · simp [getD_bump]

lemma storeEntry_noError (st : ImportState) (hash : String) (p : CompletePayload) (raw : String) :
    (storeEntry account now st hash p raw).summary.getD "error" 0=st.summary.getD "error" 0 := by
  have hstatus : ∀ existing, "error" ≠ existingStatus account existing := by
    intro existing
    unfold existingStatus
    split_ifs <;> decide
  unfold storeEntry
  split_ifs
  · rw [getD_bump,if_neg (by decide)]
  · split
    · rw [getD_bump,if_neg (hstatus _)]
    · rw [getD_bump,if_neg (by decide)]

/-- An entry with all its fields is not counted as an error. -/
lemma importEntry_noError {st st' : ImportState} {e : ImportEntry} {p : CompletePayload}
    (hp : e.payload.complete=some p) (hok : importEntry sha256 account now st e=.ok st') :
    st'.summary.getD "error" 0=st.summary.getD "error" 0 := by
  rw [importEntry,hp] at hok
  dsimp only at hok
  split_ifs at hok
  · cases hok
    simp [getD_bump]
  · simp only [bind_eq_ok_iff] at hok
    obtain ⟨_,-,_,-,hok⟩ := hok
    rw [← Except.ok.inj hok,storeEntry_noError]
    dsimp only [distinguishRepeatedEntry]
    split_ifs <;> simp [getD_bump]

lemma foldlM_importEntry_counts {entries : List ImportEntry} {st st' : ImportState}
    (hcomplete : ∀ e ∈ entries, ∃ p, e.payload.complete=some p)
    (hok : entries.foldlM (importEntry sha256 account now) st=.ok st') :
    st'.summary.getD "giventotal" 0=st.summary.getD "giventotal" 0+entries.length ∧
      st'.summary.getD "error" 0=st.summary.getD "error" 0 := by
  induction entries generalizing st with
  | nil =>
    cases hok
    exact ⟨rfl,rfl⟩
  | cons e entries ih =>
    rw [List.forall_mem_cons] at hcomplete
    obtain ⟨⟨p,hp⟩,hrest⟩ := hcomplete
    rw [List.foldlM_cons] at hok
    obtain ⟨mid,hmid,hok⟩ := bind_eq_ok_iff.mp hok
    obtain ⟨hgiven,herror⟩ := ih hrest hok
    refine ⟨?_,herror.trans (importEntry_noError hp hmid)⟩
    rw [hgiven,importEntry_given hmid,List.length_cons]
    omega

end Loop

/-! ### The flush -/

section Flush
variable {sha256 : List Char → String} {account : P4xAccount} {now : Timestamp}

/-- The entry is written as a row. -/
def WrittenAs (account : P4xAccount) (e : ImportEntry) (p : CompletePayload) (k : EntryKey) : Prop :=
  keyedEntry e=some (p,k) ∧ beforeInitDate account p=false

/-- The row holds the texts and the amount of an entry. -/
structure HoldsData (p : CompletePayload) (t : P4xTransaction) : Prop where
  iban : t.iban=p.iban.codes
  subject : t.subject=p.subject.codes
  amount : t.amount=p.amount.value

lemma RowOf.data {hash : String} {p : CompletePayload} {t : P4xTransaction}
    (h : RowOf account hash p t) : HoldsData p t := ⟨h.iban,h.subject,h.amount⟩

/-- In the middle of a file whose entries `done` are through: each kept entry has its row, and a row
is an old one or a kept entry's. -/
structure FlushProgress (sha256 : List Char → String) (account : P4xAccount)
    (done : List ImportEntry) (st : ImportState) : Prop where
  seen : ∀ k, st.seen.getD (k.hash sha256) 0=keyCount done k
  pending : ∀ t ∈ st.pending, ∃ k n, n ≤ keyCount done k ∧
    t.sha256Hash=occurrenceHash sha256 (k.hash sha256) n
  nodup : (st.rows.map (·.sha256Hash)).Nodup
  written : ∀ e ∈ done, ∀ p k, WrittenAs account e p k → ∃ n ≤ keyCount done k, ∃ t ∈ st.rows,
    RowOf account (occurrenceHash sha256 (k.hash sha256) n) p t
  rows : ∀ t ∈ st.rows, RowAccepted t ∨ ∃ e ∈ done, ∃ p k, WrittenAs account e p k ∧ HoldsData p t

lemma FlushProgress.start {s : Store} (hs : TableAccepts s.transactions) :
    FlushProgress sha256 account [] ⟨s,[],Dict.empty,Dict.empty⟩ where
  seen _ := rfl
  pending _ ht := by cases ht
  nodup := by
    rw [ImportState.rows,List.append_nil]
    exact hs.1
  written _ he := by cases he
  rows t ht := by
    rw [ImportState.rows,List.append_nil] at ht
    exact .inl (hs.2 t ht)

lemma keyCount_le_concat (done : List ImportEntry) (e : ImportEntry) (k : EntryKey) :
    keyCount done k ≤ keyCount (done ++ [e]) k := by
  rw [keyCount_concat]
  exact Nat.le_add_right _ _

/-- An entry that is not hashed changes no row. -/
lemma FlushProgress.skip {done : List ImportEntry} {st : ImportState}
    (h : FlushProgress sha256 account done st) {e : ImportEntry} (he : keyedEntry e=none)
    (summary : Summary) :
    FlushProgress sha256 account (done ++ [e]) { st with summary := summary } := by
  have hcount := keyCount_concat_none done he
  refine ⟨?_,?_,h.nodup,?_,?_⟩
  · rw [hcount]
    exact h.seen
  · rw [hcount]
    exact h.pending
  · rw [hcount]
    intro e' he' p k hwritten
    obtain he' | he' := List.mem_append.mp he'
    · exact h.written e' he' p k hwritten
    · rw [List.mem_singleton.mp he',WrittenAs,he] at hwritten
      cases hwritten.1
  · intro t ht
    apply (h.rows t ht).imp_right
    intro hrow
    obtain ⟨e',he',hrow⟩ := hrow
    exact ⟨e',List.mem_append_left _ he',hrow⟩

variable (hsha : Function.Injective sha256)
include hsha

/-- The next occurrence of a key has a hash of its own. -/
lemma next_occurrence_ne {done : List ImportEntry} {k k' : EntryKey} {n : ℕ}
    (hn : n ≤ keyCount done k') : occurrenceHash sha256 (k'.hash sha256) n ≠
      occurrenceHash sha256 (k.hash sha256) (keyCount done k+1) := by
  intro heq
  obtain ⟨rfl,rfl⟩ := occurrenceHash_inj hsha heq
  omega

lemma FlushProgress.store {done : List ImportEntry} {st : ImportState}
    (h : FlushProgress sha256 account done st) {e : ImportEntry} {p : CompletePayload} {k : EntryKey}
    (he : keyedEntry e=some (p,k)) (summary : Summary) :
    FlushProgress sha256 account (done ++ [e]) (storeEntry account now
      { st with seen := st.seen.set (k.hash sha256) (keyCount done k+1), summary := summary }
      (occurrenceHash sha256 (k.hash sha256) (keyCount done k+1)) p e.raw) := by
  have hpending : ∀ t ∈ st.pending,
      t.sha256Hash ≠ occurrenceHash sha256 (k.hash sha256) (keyCount done k+1) := by
    intro t ht
    obtain ⟨k',n,hn,hhash⟩ := h.pending t ht
    rw [hhash]
    exact next_occurrence_ne hsha hn
  have hself : keyCount (done ++ [e]) k=keyCount done k+1 := by
    rw [keyCount_concat_some he,if_pos rfl]
  refine ⟨?_,?_,storeEntry_nodup h.nodup hpending,?_,?_⟩
  · intro k'
    have hseen : ∀ st' : ImportState, (storeEntry account now st'
        (occurrenceHash sha256 (k.hash sha256) (keyCount done k+1)) p e.raw).seen=st'.seen := by
      intro st'
      unfold storeEntry
      split_ifs
      · rfl
      · split <;> rfl
    rw [hseen]
    exact seen_set hsha h.seen he k'
  · intro t ht
    obtain ⟨-,-,hsame⟩ | ⟨-,-,-,hsame⟩ | ⟨-,-,-,hnew⟩ := storeEntry_cases account now
      { st with seen := st.seen.set (k.hash sha256) (keyCount done k+1), summary := summary }
      (occurrenceHash sha256 (k.hash sha256) (keyCount done k+1)) p e.raw
    · rw [hsame] at ht
      obtain ⟨k',n,hn,hhash⟩ := h.pending t ht
      exact ⟨k',n,hn.trans (keyCount_le_concat done e k'),hhash⟩
    · rw [hsame] at ht
      obtain ⟨k',n,hn,hhash⟩ := h.pending t ht
      exact ⟨k',n,hn.trans (keyCount_le_concat done e k'),hhash⟩
    · rw [hnew] at ht
      obtain ht | ht := List.mem_append.mp ht
      · obtain ⟨k',n,hn,hhash⟩ := h.pending t ht
        exact ⟨k',n,hn.trans (keyCount_le_concat done e k'),hhash⟩
      · rw [List.mem_singleton.mp ht]
        exact ⟨k,keyCount done k+1,hself.ge,rfl⟩
  · intro e' he' p' k' hwritten
    obtain he' | he' := List.mem_append.mp he'
    · obtain ⟨n,hn,t,ht,hrow⟩ := h.written e' he' p' k' hwritten
      refine ⟨n,hn.trans (keyCount_le_concat done e k'),t,storeEntry_other ht ?_,hrow⟩
      rw [hrow.hash]
      exact next_occurrence_ne hsha hn
    · rw [List.mem_singleton.mp he',WrittenAs,he] at hwritten
      obtain ⟨heq,hkept⟩ := hwritten
      cases heq
      obtain ⟨t,ht,hrow⟩ := @storeEntry_written _ now _ _ _ _ hkept
      exact ⟨keyCount done k+1,hself.ge,t,ht,hrow⟩
  · intro t ht
    obtain ht | ⟨-,t,hold,-,rfl⟩ | ⟨hkept,hrow⟩ := storeEntry_mem ht
    · apply (h.rows t ht).imp_right
      intro hrow
      obtain ⟨e',he',hrow⟩ := hrow
      exact ⟨e',List.mem_append_left _ he',hrow⟩
    · obtain haccepted | ⟨e',he',p',k',hwritten,hdata⟩ := h.rows t hold
      · exact .inl haccepted
      · exact .inr ⟨e',List.mem_append_left _ he',p',k',hwritten,hdata.iban,hdata.subject,hdata.amount⟩
    · exact .inr ⟨e,List.mem_append_right _ (List.mem_singleton_self _),p,k,⟨he,hkept⟩,hrow.data⟩

lemma FlushProgress.step {done : List ImportEntry} {st st' : ImportState}
    (h : FlushProgress sha256 account done st) {e : ImportEntry}
    (hok : importEntry sha256 account now st e=.ok st') :
    FlushProgress sha256 account (done ++ [e]) st' := by
  obtain ⟨he,key,-,rfl⟩ | ⟨p,k,n,summary,he,hn,-,rfl⟩ := importEntry_cases hok
  · exact h.skip he _
  · rw [h.seen] at hn
    subst hn
    exact h.store hsha he summary

lemma FlushProgress.foldlM {done entries : List ImportEntry} {st st' : ImportState}
    (h : FlushProgress sha256 account done st)
    (hok : entries.foldlM (importEntry sha256 account now) st=.ok st') :
    FlushProgress sha256 account (done ++ entries) st' := by
  induction entries generalizing st done with
  | nil =>
    cases hok
    rwa [List.append_nil]
  | cons e entries ih =>
    rw [List.foldlM_cons] at hok
    obtain ⟨mid,hmid,hrest⟩ := bind_eq_ok_iff.mp hok
    have hend := ih (h.step hsha hmid) hrest
    rwa [List.append_assoc] at hend

omit hsha in
/-- An amount of cents fits its column when it has at most twelve digits. -/
lemma inNumericRange_value (a : AmountText) : InNumericRange a.value ↔ a.cents < 10^12 := by
  rw [InNumericRange,AmountText.value]
  split_ifs
  · rw [abs_neg,Nat.abs_cast]
    exact_mod_cast Iff.rfl
  · rw [Nat.abs_cast]
    exact_mod_cast Iff.rfl

omit hsha in
lemma HoldsData.accepted_iff {p : CompletePayload} {t : P4xTransaction} (h : HoldsData p t) :
    RowAccepted t ↔ Storing p := by
  rw [RowAccepted,Storing,h.iban,h.subject,h.amount,inNumericRange_value]

omit hsha in
/-- The flush goes through exactly when every kept entry can be stored. -/
lemma FlushProgress.accepts_iff {entries : List ImportEntry} {st : ImportState}
    (h : FlushProgress sha256 account entries st) :
    TableAccepts st.rows ↔ ∀ e ∈ entries, ∀ p k, WrittenAs account e p k → Storing p := by
  constructor
  · intro haccepts e he p k hwritten
    obtain ⟨n,-,t,ht,hrow⟩ := h.written e he p k hwritten
    exact hrow.data.accepted_iff.mp (haccepts.2 t ht)
  · intro hall
    refine ⟨h.nodup,?_⟩
    intro t ht
    obtain haccepted | ⟨e,he,p,k,hwritten,hdata⟩ := h.rows t ht
    · exact haccepted
    · exact hdata.accepted_iff.mpr (hall e he p k hwritten)

end Flush

/-! ### The whole import -/

section Import
variable {sha256 : List Char → String} {account : P4xAccount} {now : Timestamp}
variable {entries : List ImportEntry}

/-- For parsed entries the condition is about the loop and the flush. -/
lemma entriesFit_iff (hparsed : ∀ e ∈ entries, ∃ p, ParsedEntry e p) :
    (∀ e ∈ entries, EntryFits account e) ↔ (∀ e ∈ entries, DatesRead e) ∧
      ∀ e ∈ entries, ∀ p k, WrittenAs account e p k → Storing p := by
  constructor
  · intro h
    refine ⟨?_,?_⟩
    · intro e he p hp hzero
      obtain ⟨q,hq⟩ := hparsed e he
      obtain ⟨hb,hv,-⟩ := h e he p hp hzero
      rw [hq.complete,Option.some.injEq] at hp
      subst hp
      exact ⟨(dateToCarbonJson_isOk_iff hq.booking).mpr hb,
        (dateToCarbonJson_isOk_iff hq.valuation).mpr hv⟩
    · intro e he p k hwritten
      obtain ⟨hp,hzero⟩ := complete_of_keyedEntry hwritten.1
      exact (h e he p hp hzero).2.2 hwritten.2
  · intro h e he p hp hzero
    obtain ⟨q,hq⟩ := hparsed e he
    obtain ⟨⟨booking,hb⟩,valuation,hv⟩ := h.1 e he p hp hzero
    have hkeyed := keyedEntry_of_ok hp hzero hb hv
    refine ⟨?_,?_,fun hkept => h.2 e he p _ ⟨hkeyed,hkept⟩⟩
    · rw [hq.complete,Option.some.injEq] at hp
      subst hp
      exact (dateToCarbonJson_isOk_iff hq.booking).mp ⟨booking,hb⟩
    · rw [hq.complete,Option.some.injEq] at hp
      subst hp
      exact (dateToCarbonJson_isOk_iff hq.valuation).mp ⟨valuation,hv⟩

/-- A parsed export is imported without an error, every entry counted once and none as an error,
exactly when the times, texts and amounts of its entries fit. -/
theorem import_raises_nothing_iff {reprOf : JsonValue → JsonText} {dumps : JsonValue → String}
    {loads : PyText → Option JsonValue} {bic rawJson : PyText} {s : Store}
    (hsha : Function.Injective sha256) (hs : TableAccepts s.transactions)
    (hparsed : georgeEntries reprOf dumps loads bic rawJson=.ok entries) :
    (∃ s' summary, importOrRaise sha256 s account now entries=.ok (s',summary) ∧
      Balanced summary ∧ summary.getD "giventotal" 0=entries.length ∧ summary.getD "error" 0=0) ↔
        ∀ e ∈ entries, EntryFits account e := by
  have hloop := @foldlM_importEntry_isOk_iff sha256 account now entries ⟨s,[],Dict.empty,Dict.empty⟩
  rw [entriesFit_iff (georgeEntries_parsed hparsed),← hloop]
  constructor
  · intro h
    obtain ⟨s',summary,hok,-⟩ := h
    rw [importOrRaise] at hok
    cases hrun : entries.foldlM (importEntry sha256 account now) ⟨s,[],Dict.empty,Dict.empty⟩ with
    | error e =>
      rw [hrun] at hok
      cases hok
    | ok st =>
      rw [hrun] at hok
      dsimp only at hok
      split_ifs at hok with haccepts
      have hend := (FlushProgress.start hs).foldlM hsha hrun
      exact ⟨⟨st,rfl⟩,hend.accepts_iff.mp haccepts⟩
  · intro h
    obtain ⟨⟨st,hrun⟩,hstoring⟩ := h
    have hend := (FlushProgress.start hs).foldlM hsha hrun
    have hok : importOrRaise sha256 s account now entries=.ok (flush st,st.summary) := by
      rw [importOrRaise,hrun]
      exact if_pos (hend.accepts_iff.mpr hstoring)
    have hcomplete : ∀ e ∈ entries, ∃ p, e.payload.complete=some p := by
      intro e he
      obtain ⟨p,hp⟩ := georgeEntries_parsed hparsed e he
      exact ⟨p,hp.complete⟩
    obtain ⟨hgiven,herror⟩ := foldlM_importEntry_counts hcomplete hrun
    refine ⟨flush st,st.summary,hok,importTransactions_balanced (importOrRaise_ok hok),?_,herror⟩
    rw [hgiven]
    exact Nat.zero_add _

end Import

/-- An amount in cents that fits is read as it is. -/
lemma parseAmount_cents {reprOf : JsonValue → JsonText} {value precision : JsonValue}
    {negative : Bool} {c : ℕ} (hprecision : intOfText (stripped reprOf precision)=some 2)
    (hvalue : decimalOfText (stripped reprOf value)=some ⟨negative,c,0⟩) (hc : c < 10^12) :
    parseAmount reprOf value precision=.ok ⟨negative,c⟩ := by
  have hamount : ∃ z : ℤ, |z|=c ∧
      (⟨negative,c,0⟩ : DecimalNumber).value/10^(2 : ℤ)=(z : ℚ)/100 := by
    cases negative with
    | false => exact ⟨c,Nat.abs_cast c,by norm_num [DecimalNumber.value]⟩
    | true => exact ⟨-c,by rw [abs_neg,Nat.abs_cast],by norm_num [DecimalNumber.value]⟩
  obtain ⟨z,hz,hvalue'⟩ := hamount
  have hbound : |z| < 10^12 := by
    rw [hz]
    exact_mod_cast hc
  have habs : |(z : ℚ)/100|=(c : ℚ)/100 := by
    rw [abs_div,abs_of_pos (by norm_num : (0 : ℚ) < 100)]
    congr 1
    exact_mod_cast hz
  have hsmall : ¬ maxAbsoluteAmount ≤ (c : ℚ)/100 := by
    have hlt : (c : ℚ) < 10^12 := by exact_mod_cast hc
    rw [maxAbsoluteAmount,not_le,div_lt_iff₀ (by norm_num)]
    norm_num at hlt ⊢
    exact hlt
  have hround : roundHalfEven ((c : ℚ)/100*100)=c := by
    rw [div_mul_cancel₀ _ (by norm_num : (100 : ℚ) ≠ 0)]
    exact roundHalfEven_intCast c
  rw [parseAmount,hprecision,hvalue]
  simp only [maxPrecision,Int.reduceLE,and_self,not_true_eq_false,if_false,hvalue',
    roundToContext_cents hbound,habs,hsmall,hround,Int.toNat_natCast]

/-! ### A clock time that only the parser takes -/

/-- The text of an entry of the bank, as `json.dumps` writes it. -/
def bankRaw (booking : String) : String :=
  "\x7b\"booking\": \"" ++ booking ++ "\", \"valuation\": \"2025-02-03T00:00:00.000+0100\", " ++
    "\"partnerAccount\": \x7b\"iban\": \"AT1\"\x7d, " ++
    "\"amount\": \x7b\"value\": 2500, \"precision\": 2\x7d, \"reference\": \"mitgliedsbeitrag\"\x7d"

lemma merged_iban : Merged (text "iban") := by decide

def bankEntry (booking : JsonText) : JsonValue :=
  .dict [(⟨text "booking",by decide⟩,.str booking),
    (⟨text "valuation",by decide⟩,.str ⟨text "2025-02-03T00:00:00.000+0100",by decide⟩),
    (⟨text "partnerAccount",by decide⟩,
      .dict [(⟨text "iban",merged_iban⟩,.str ⟨text "AT1",merged_at1⟩)]),
    (⟨text "amount",by decide⟩,
      .dict [(⟨text "value",by decide⟩,.int 2500),(⟨text "precision",by decide⟩,.int 2)]),
    (⟨text "reference",by decide⟩,.str ⟨text "mitgliedsbeitrag",merged_mitgliedsbeitrag⟩)]

def midnight : JsonText := ⟨text "2025-02-03T00:00:00.000+0100",by decide⟩

/-- A clock time that does not exist. -/
def hourTooLate : JsonText := ⟨text "2025-02-03T25:00:00.000+0100",by decide⟩

/-- No float and no container is written out. -/
def noRepr (_ : JsonValue) : JsonText := ⟨[],trivial⟩

/-- The import's view of the entry. -/
def bankImportEntry (booking : JsonText) (raw : String) : ImportEntry where
  payload := ⟨some (Date.of 2025 2 3),some (Date.of 2025 2 3),beitragEntry.payload.iban,
    some ⟨false,2500⟩,some ⟨text "mitgliedsbeitrag",merged_mitgliedsbeitrag⟩⟩
  raw := raw
  originalBooking := booking.codes
  originalValuation := midnight.codes

lemma parseAmount_bankEntry : parseAmount noRepr (.int 2500) (.int 2)=.ok ⟨false,2500⟩ :=
  parseAmount_cents (by decide +kernel) (by decide +kernel) (by decide)

/-- The parser takes every text whose first ten characters are the day. -/
lemma parseEntry_bankEntry {booking : JsonText} {raw : String}
    (hday : Date.fromIsoformat ((strip booking.codes).take 10)=.ok (Date.of 2025 2 3)) :
    parseEntry noRepr (fun _ => raw) (bankEntry booking)=
      .ok ⟨(bankImportEntry booking raw).payload,raw⟩ := by
  have hbooking : bookingDate noRepr (bankEntry booking) "booking"=.ok (Date.of 2025 2 3) := by
    have hfield : field (bankEntry booking) ["booking"]=.ok (.str booking) := rfl
    have hstrip : stripped noRepr (.str booking)=strip booking.codes := rfl
    rw [bookingDate,hfield,ok_bind,hstrip,hday]
  have hvaluation : bookingDate noRepr (bankEntry booking) "valuation"=.ok (Date.of 2025 2 3) := by
    have hfield : field (bankEntry booking) ["valuation"]=.ok (.str midnight) := rfl
    have hdate : Date.fromIsoformat ((stripped noRepr (.str midnight)).take 10)=
        .ok (Date.of 2025 2 3) := by
      decide +kernel
    rw [bookingDate,hfield,ok_bind,hdate]
  have hpartner : field (bankEntry booking) ["partnerAccount"]=
      .ok (.dict [(⟨text "iban",by decide⟩,.str ⟨text "AT1",by decide⟩)]) := rfl
  have hiban : field (bankEntry booking) ["partnerAccount","iban"]=
      .ok (.str ⟨text "AT1",by decide⟩) := rfl
  have hamount : field (bankEntry booking) ["amount"]=
      .ok (.dict [(⟨text "value",by decide⟩,.int 2500),(⟨text "precision",by decide⟩,.int 2)]) := rfl
  have hvalue : field (bankEntry booking) ["amount","value"]=.ok (.int 2500) := rfl
  have hprecision : field (bankEntry booking) ["amount","precision"]=.ok (.int 2) := rfl
  have hreference : (bankEntry booking).get? "reference"=
      some (.str ⟨text "mitgliedsbeitrag",by decide⟩) := rfl
  have hsubject : subjectOf noRepr (bankEntry booking)=⟨text "mitgliedsbeitrag",by decide⟩ := by
    have hrecv : (bankEntry booking).get? "receiverReference"=none := rfl
    rw [subjectOf,reference,reference,hreference,hrecv]
    decide +kernel
  have htext : (strOf noRepr (.str ⟨text "AT1",by decide⟩)).strip=⟨text "AT1",by decide⟩ := by
    decide +kernel
  simp only [parseEntry,withPartnerAccount,hbooking,hvaluation,hpartner,JsonValue.isDict,if_true,
    ok_bind,hiban,hvalue,hprecision,hamount,parseAmount_bankEntry,hreference,hsubject,htext]
  rfl

/-- A file with one entry. -/
def bankExport (raw : String) : PyText := text ("[" ++ raw ++ "]")

def loadsOne (raw : String) (booking : JsonText) (rawJson : PyText) : Option JsonValue :=
  if rawJson=bankExport raw then some (.list [bankEntry booking]) else none

lemma georgeEntries_bankEntry {booking : JsonText} {raw : String}
    (hday : Date.fromIsoformat ((strip booking.codes).take 10)=.ok (Date.of 2025 2 3)) :
    georgeEntries noRepr (fun _ => raw) (loadsOne raw booking) georgeBic (bankExport raw)=
      .ok [bankImportEntry booking raw] := by
  have hstructs : originalStructs (loadsOne raw booking) (bankExport raw)=
      some [bankEntry booking] := by
    rw [originalStructs,loadsOne,if_pos rfl]
  rw [georgeEntries,parseGeorgeJson,if_neg (not_not.mpr rfl),hstructs]
  simp only [List.mapM_cons,List.mapM_nil,parseEntry_bankEntry hday,ok_bind]
  rfl

theorem import_raises_nothing_midnight :
    (∃ s' summary, importOrRaise (hashWithDigests sampleDigests) sampleStore sampleAccount 7
        [bankImportEntry midnight (bankRaw "2025-02-03T00:00:00.000+0100")]=.ok (s',summary) ∧
      Balanced summary ∧ summary.getD "giventotal" 0=1 ∧ summary.getD "error" 0=0) := by
  have hsha : Function.Injective (hashWithDigests sampleDigests) :=
    hashWithDigests_injective (by decide) (by decide)
  have hs : TableAccepts sampleStore.transactions := ⟨List.nodup_nil,by simp [sampleStore,bareStore]⟩
  refine (import_raises_nothing_iff hsha hs (georgeEntries_bankEntry (by decide +kernel))).mpr ?_
  intro e he p hp _
  obtain rfl := List.mem_singleton.mp he
  cases hp
  have hfits : TimeFits (Date.of 2025 2 3) midnight.codes :=
    (dateToCarbonJson_isOk_iff (b := Date.of 2025 2 3) (by decide +kernel)).mp
      ⟨text "2025-02-02T23:00:00.000000Z",by decide +kernel⟩
  exact ⟨hfits,hfits,fun _ => ⟨by decide +kernel,by decide +kernel,by decide⟩⟩

/-- The parser takes an hour that the hash cannot read. -/
theorem import_raises_on_parsed_entry :
    ∃ entries, georgeEntries noRepr (fun _ => bankRaw "2025-02-03T25:00:00.000+0100")
        (loadsOne (bankRaw "2025-02-03T25:00:00.000+0100") hourTooLate) georgeBic
        (bankExport (bankRaw "2025-02-03T25:00:00.000+0100"))=.ok entries ∧
      ∀ r, importOrRaise (hashWithDigests sampleDigests) sampleStore sampleAccount 7 entries ≠
        .ok r := by
  refine ⟨_,georgeEntries_bankEntry (by decide +kernel),?_⟩
  intro r h
  have hfails : ∀ t, dateToCarbonJson (Date.of 2025 2 3) hourTooLate.codes ≠ .ok t := by
    intro t ht
    have hnone : (dateToCarbonJson (Date.of 2025 2 3) hourTooLate.codes).isOk=false := by
      decide +kernel
    rw [ht] at hnone
    cases hnone
  rw [importOrRaise] at h
  cases hrun : [bankImportEntry hourTooLate (bankRaw "2025-02-03T25:00:00.000+0100")].foldlM
      (importEntry (hashWithDigests sampleDigests) sampleAccount 7)
      ⟨sampleStore,[],Dict.empty,Dict.empty⟩ with
  | error e =>
    rw [hrun] at h
    cases h
  | ok st =>
    have hread := (foldlM_importEntry_isOk_iff _ _).mp ⟨st,hrun⟩ _ (List.mem_singleton_self _)
      ⟨Date.of 2025 2 3,Date.of 2025 2 3,_,⟨false,2500⟩,_⟩ rfl (by decide)
    obtain ⟨⟨t,ht⟩,-⟩ := hread
    exact hfails t ht

end VbApi.P4x
