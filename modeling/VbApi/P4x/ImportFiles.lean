import VbApi.P4x.FilterHits
import VbApi.P4x.ImportMultiplicity

/-! Sequences of export files: the rows they leave, whatever their order and their overlaps. -/
namespace VbApi.P4x
open VbApi.Foundations

/-- A parsed export file, and when it is imported. -/
structure ExportFile where
  entries : List ImportEntry
  importedAt : Timestamp

def allEntries (files : List ExportFile) : List ImportEntry := files.flatMap (·.entries)

/-- The largest number of times that a file holds a key. -/
def maxKeyCount (files : List ExportFile) (k : EntryKey) : ℕ :=
  (files.map fun file => keyCount file.entries k).foldr max 0

lemma keyCount_le_maxKeyCount {files : List ExportFile} {file : ExportFile} (h : file ∈ files)
    (k : EntryKey) : keyCount file.entries k ≤ maxKeyCount files k := by
  induction files with
  | nil => simp at h
  | cons f files ih =>
    rcases List.mem_cons.mp h with rfl | h
    · exact le_max_left _ _
    · exact (ih h).trans (le_max_right _ _)

section Files
variable (sha256 : List Char → String) (lower : PyText → PyText) (account : P4xAccount)

/-- Import one file after the other. -/
def importFiles (s : Store) (files : List ExportFile) : Except OpError Store :=
  files.foldlM (fun s file => do
    return (← importAndApplyFilters sha256 lower s account file.importedAt file.entries).1) s

/-- The row carries the hash of an occurrence of the key. -/
def HasKey (k : EntryKey) (t : P4xTransaction) : Prop :=
  ∃ n, 1 ≤ n ∧ t.sha256Hash=occurrenceHash sha256 (k.hash sha256) n

open Classical in
/-- The number of active transactions with a key. -/
noncomputable def activeWithKey (s : Store) (k : EntryKey) : ℕ :=
  s.transactions.countP fun t => t.active=true ∧ HasKey sha256 k t

/-- The booking of a row: its hash and what the bank delivered. -/
def bookedData (t : P4xTransaction) : String × Date × Date × PyText × Cents × PyText × Uuid :=
  (t.sha256Hash,t.booking,t.valuation,t.iban,t.amount,t.subject,t.p4xAccountId)

def activeData (s : Store) : List (String × Date × Date × PyText × Cents × PyText × Uuid) :=
  (s.transactions.filter P4xTransaction.active).map bookedData

variable {sha256 lower account}

lemma foldl_applyFilterWithCache_transactions (directs : Finset Uuid) (fs : List P4xCategoryFilter)
    (s : Store) :
    (fs.foldl (applyFilterWithCache lower directs) s).transactions=s.transactions := by
  induction fs generalizing s with
  | nil => rfl
  | cons f fs ih => rw [List.foldl_cons,ih,applyFilterWithCache]

/-- The rows of an import: the flushed rows of its rounds. -/
lemma importAndApplyFilters_transactions {s s' : Store} {now : Timestamp}
    {entries : List ImportEntry} {summary : Summary}
    (hok : importAndApplyFilters sha256 lower s account now entries=.ok (s',summary)) :
    ∃ st, entries.foldlM (importEntry sha256 account now) ⟨s,[],Dict.empty,Dict.empty⟩=.ok st ∧
      s'.transactions=(flush st).transactions := by
  unfold importAndApplyFilters importTransactions at hok
  cases hrun : entries.foldlM (importEntry sha256 account now) ⟨s,[],Dict.empty,Dict.empty⟩ with
  | error e =>
    rw [hrun] at hok
    contradiction
  | ok st =>
    rw [hrun] at hok
    simp only [ok_bind,pure_eq_ok,bind_eq_ok_iff] at hok
    obtain ⟨s'',hcommit,hok⟩ := hok
    cases hok
    obtain ⟨rfl,-⟩ := commit_eq_ok hcommit
    exact ⟨st,rfl,foldl_applyFilterWithCache_transactions _ _ _⟩

variable {all : List ImportEntry}

/-- The ids that the flush gives do not matter. -/
lemma RowsHold.flush {count : EntryKey → ℕ} {st : ImportState}
    (h : RowsHold sha256 account all count (st.store.transactions ++ st.pending)) :
    RowsHold sha256 account all count (flush st).transactions := by
  have hhashes : (P4x.flush st).transactions.map (·.sha256Hash)=
      (st.store.transactions ++ st.pending).map (·.sha256Hash) := by
    rw [P4x.flush,List.map_append,List.map_append,List.append_cancel_left_eq]
    apply List.ext_getElem <;> simp
  constructor
  · rw [hhashes]
    exact h.nodup
  · intro t ht
    rcases List.mem_append.mp ht with ht | ht
    · exact h.sound t (List.mem_append_left _ ht)
    · obtain ⟨i,hi,rfl⟩ := List.mem_mapIdx.mp ht
      obtain ⟨e,he,p,k,n,hkey,hkept,hpos,hn,hrow⟩ :=
        h.sound st.pending[i] (List.mem_append_right _ (List.getElem_mem hi))
      obtain ⟨h₁,h₂,h₃,h₄,h₅,h₆,h₇,h₈⟩ := hrow
      exact ⟨e,he,p,k,n,hkey,hkept,hpos,hn,h₁,h₂,h₃,h₄,h₅,h₆,h₇,h₈⟩
  · intro k n hkept hpos hn
    obtain ⟨t,ht,hhash⟩ := h.complete k n hkept hpos hn
    have hmem := List.mem_map_of_mem (f := fun t : P4xTransaction => t.sha256Hash) ht
    rw [← hhashes,hhash] at hmem
    obtain ⟨t',ht',hhash'⟩ := List.mem_map.mp hmem
    exact ⟨t',ht',hhash'⟩

lemma RowsHold.active {count : EntryKey → ℕ} {rows : List P4xTransaction}
    (h : RowsHold sha256 account all count rows) : ∀ t ∈ rows, t.active=true := by
  intro t ht
  obtain ⟨e,he,p,k,n,hkey,hkept,hpos,hn,hrow⟩ := h.sound t ht
  rw [P4xTransaction.active,hrow.active]
  rfl

lemma rowsHold_empty : RowsHold sha256 account all (fun _ => 0) [] := by
  refine ⟨List.nodup_nil,by simp,?_⟩
  intro k n _ hpos hn
  exact absurd (hpos.trans hn) (by decide)

variable (hsha : Function.Injective sha256) (hdates : SameLocalDates all)
include hsha hdates

/-- One file. -/
lemma RowsHold.import {count : EntryKey → ℕ} {s s' : Store}
    (h : RowsHold sha256 account all count s.transactions) {now : Timestamp}
    {entries : List ImportEntry} (hsub : ∀ e ∈ entries, e ∈ all) {summary : Summary}
    (hok : importAndApplyFilters sha256 lower s account now entries=.ok (s',summary)) :
    RowsHold sha256 account all (fun k => max (count k) (keyCount entries k)) s'.transactions := by
  obtain ⟨st,hrun,htransactions⟩ := importAndApplyFilters_transactions hok
  have hstart : ImportProgress sha256 account all count [] ⟨s,[],Dict.empty,Dict.empty⟩ := by
    refine ⟨fun _ => rfl,?_,by simp⟩
    have hcount : (fun k => max (count k) (keyCount [] k))=count := by
      funext k
      exact max_eq_left (Nat.zero_le _)
    rw [hcount,List.append_nil]
    exact h
  rw [htransactions]
  exact (hstart.foldlM hsha hdates hsub hrun).rows.flush

/-- The files one after the other. -/
lemma RowsHold.importFiles {count : EntryKey → ℕ} {s s' : Store}
    (h : RowsHold sha256 account all count s.transactions) {files : List ExportFile}
    (hsub : ∀ e ∈ allEntries files, e ∈ all)
    (hok : importFiles sha256 lower account s files=.ok s') :
    RowsHold sha256 account all (fun k => max (count k) (maxKeyCount files k)) s'.transactions := by
  unfold P4x.importFiles at hok
  induction files generalizing s count with
  | nil =>
    cases hok
    have hcount : (fun k => max (count k) (maxKeyCount [] k))=count := by
      funext k
      exact max_eq_left (Nat.zero_le _)
    rw [hcount]
    exact h
  | cons file files ih =>
    rw [List.foldlM_cons,bind_eq_ok_iff] at hok
    obtain ⟨mid,hfile,hok⟩ := hok
    rw [bind_eq_ok_iff] at hfile
    obtain ⟨⟨mid',summary⟩,hfile,hmid⟩ := hfile
    cases hmid
    have hfirst := h.import hsha hdates (fun e he => hsub e (List.mem_append_left _ he)) hfile
    have hrest := ih hfirst (fun e he => hsub e (List.mem_append_right _ he)) hok
    have hcount : (fun k => max (count k) (maxKeyCount (file::files) k))=
        fun k => max (max (count k) (keyCount file.entries k)) (maxKeyCount files k) := by
      funext k
      exact (max_assoc _ _ _).symm
    rw [hcount]
    exact hrest

omit hdates in
/-- The number of rows of a key is its count. -/
lemma RowsHold.countP_eq {count : EntryKey → ℕ} {s : Store}
    (h : RowsHold sha256 account all count s.transactions) {k : EntryKey}
    (hkept : KeptKey account all k) : activeWithKey sha256 s k=count k := by
  classical
  have hperm : ((s.transactions.filter fun t => t.active=true ∧ HasKey sha256 k t).map
      (·.sha256Hash)).Perm
        ((List.range (count k)).map fun i => occurrenceHash sha256 (k.hash sha256) (i+1)) := by
    rw [List.perm_ext_iff_of_nodup]
    · intro hash
      simp only [List.mem_map,List.mem_filter,decide_eq_true_eq,List.mem_range]
      constructor
      · rintro ⟨t,⟨ht,-,n,hpos,hhash⟩,rfl⟩
        obtain ⟨e,-,p,k',n',-,-,-,hn',hrow⟩ := h.sound t ht
        obtain ⟨rfl,rfl⟩ := occurrenceHash_inj hsha (hhash.symm.trans hrow.hash)
        refine ⟨n-1,by omega,?_⟩
        rw [hhash,Nat.sub_add_cancel hpos]
      · rintro ⟨i,hi,rfl⟩
        obtain ⟨t,ht,hhash⟩ := h.complete k (i+1) hkept (Nat.le_add_left _ _) hi
        exact ⟨t,⟨ht,h.active t ht,i+1,Nat.le_add_left _ _,hhash⟩,hhash⟩
    · exact h.nodup.sublist (List.filter_sublist.map _)
    · refine List.nodup_range.map ?_
      intro i j hij
      simpa using (occurrenceHash_inj hsha hij).2
  have hlen := hperm.length_eq
  rw [List.length_map,List.length_map,List.length_range] at hlen
  rw [activeWithKey,List.countP_eq_length_filter]
  exact hlen

/-- Rows with the same counts are the same bookings. -/
lemma RowsHold.perm {count : EntryKey → ℕ} {s s' : Store}
    (h : RowsHold sha256 account all count s.transactions)
    (h' : RowsHold sha256 account all count s'.transactions) :
    (activeData s).Perm (activeData s') := by
  have hactive : ∀ {s : Store}, RowsHold sha256 account all count s.transactions →
      s.transactions.filter P4xTransaction.active=s.transactions := by
    intro s h
    rw [List.filter_eq_self]
    exact h.active
  have hnodup : ∀ {s : Store}, RowsHold sha256 account all count s.transactions →
      (s.transactions.map bookedData).Nodup := by
    intro s h
    refine List.Nodup.of_map (fun x => x.1) ?_
    rw [List.map_map]
    exact h.nodup
  have hmem : ∀ {s s' : Store}, RowsHold sha256 account all count s.transactions →
      RowsHold sha256 account all count s'.transactions → ∀ x ∈ s.transactions.map bookedData,
        x ∈ s'.transactions.map bookedData := by
    intro s s' h h' x hx
    obtain ⟨t,ht,rfl⟩ := List.mem_map.mp hx
    obtain ⟨e,he,p,k,n,hkey,hkept,hpos,hn,hrow⟩ := h.sound t ht
    obtain ⟨t',ht',hhash⟩ := h'.complete k n hkept hpos hn
    obtain ⟨e',he',p',k',n',hkey',-,-,-,hrow'⟩ := h'.sound t' ht'
    obtain ⟨rfl,rfl⟩ := occurrenceHash_inj hsha (hhash.symm.trans hrow'.hash)
    obtain ⟨hb,hv⟩ := hdates e he e' he' p p' k hkey hkey'
    obtain ⟨hi,ha,hs⟩ := keyedEntry_data hkey hkey'
    refine List.mem_map.mpr ⟨t',ht',?_⟩
    simp only [bookedData,hrow.hash,hrow.booking,hrow.valuation,hrow.iban,hrow.amount,hrow.subject,
      hrow.account,hrow'.hash,hrow'.booking,hrow'.valuation,hrow'.iban,hrow'.amount,hrow'.subject,
      hrow'.account,hb,hv,hi,ha,hs]
  rw [activeData,activeData,hactive h,hactive h',
    List.perm_ext_iff_of_nodup (hnodup h) (hnodup h')]
  exact fun x => ⟨hmem h h' x,hmem h' h x⟩

omit hdates in
/-- After the imports each key has as many active rows as the file that holds it most often, with
the data of its entries. The order of the files does not matter, importing one again adds nothing,
and every summary counts each given entry once. -/
theorem import_multiplicity {s₀ s : Store} (hempty : s₀.transactions=[]) {files : List ExportFile}
    (hdates : SameLocalDates (allEntries files))
    (hrun : importFiles sha256 lower account s₀ files=.ok s) :
    (∀ k, KeptKey account (allEntries files) k →
      activeWithKey sha256 s k=maxKeyCount files k) ∧
    (∀ t ∈ s.transactions, ∀ e ∈ allEntries files, ∀ p k, keyedEntry e=some (p,k) →
      HasKey sha256 k t → RowOf account t.sha256Hash p t) ∧
    (∀ files' s', files'.Perm files → importFiles sha256 lower account s₀ files'=.ok s' →
      (activeData s').Perm (activeData s)) ∧
    (∀ file ∈ files, ∀ now s' summary,
      importAndApplyFilters sha256 lower s account now file.entries=.ok (s',summary) →
        (activeData s').Perm (activeData s)) ∧
    ∀ s₁ account₁ now entries s₂ summary,
      importTransactions sha256 s₁ account₁ now entries=.ok (s₂,summary) → Balanced summary := by
  have hstart : RowsHold sha256 account (allEntries files) (fun _ => 0) s₀.transactions := by
    rw [hempty]
    exact rowsHold_empty
  have hzero : ∀ fs : List ExportFile,
      (fun k => max 0 (maxKeyCount fs k))=fun k => maxKeyCount fs k := by
    intro fs
    funext k
    exact max_eq_right (Nat.zero_le _)
  have hrows := hstart.importFiles hsha hdates (fun _ he => he) hrun
  rw [hzero] at hrows
  refine ⟨fun k hkept => hrows.countP_eq hsha hkept,?_,?_,?_,?_⟩
  · rintro t ht e he p k hkey ⟨n,hpos,hhash⟩
    obtain ⟨e',he',p',k',n',hkey',-,-,-,hrow⟩ := hrows.sound t ht
    obtain ⟨rfl,rfl⟩ := occurrenceHash_inj hsha (hhash.symm.trans hrow.hash)
    obtain ⟨hb,hv⟩ := hdates e he e' he' p p' k hkey hkey'
    obtain ⟨hi,ha,hs⟩ := keyedEntry_data hkey hkey'
    exact ⟨rfl,hrow.booking.trans hb.symm,hrow.valuation.trans hv.symm,hrow.iban.trans hi.symm,
      by rw [hrow.amount,ha],hrow.subject.trans hs.symm,hrow.account,hrow.active⟩
  · intro files' s' hperm hrun'
    have hsub : ∀ e ∈ allEntries files', e ∈ allEntries files := fun e he =>
      (hperm.flatMap_right _).subset he
    have hrows' := hstart.importFiles hsha hdates hsub hrun'
    have hcount : maxKeyCount files'=maxKeyCount files := by
      funext k
      exact (hperm.map _).foldr_eq 0
    rw [hzero,hcount] at hrows'
    exact hrows'.perm hsha hdates hrows
  · intro file hfile now s' summary hok
    have hagain := hrows.import hsha hdates
      (fun e he => List.mem_flatMap.mpr ⟨file,hfile,he⟩) hok
    have hcount : (fun k => max (maxKeyCount files k) (keyCount file.entries k))=
        fun k => maxKeyCount files k := by
      funext k
      exact max_eq_left (keyCount_le_maxKeyCount hfile k)
    rw [hcount] at hagain
    exact hagain.perm hsha hdates hrows
  · intro s₁ account₁ now entries s₂ summary hok
    exact importTransactions_balanced hok

end Files

/-- A hash function with given digests; other texts get one that no digest equals. -/
def hashWithDigests (digests : List (List Char × String)) (cs : List Char) : String :=
  (digests.lookup cs).getD (String.ofList ('x'::cs))

lemma hashWithDigests_injective {digests : List (List Char × String)}
    (hnodup : (digests.map (·.2)).Nodup)
    (hmark : ∀ d ∈ digests.map (·.2), d.toList.head? ≠ some 'x') :
    Function.Injective (hashWithDigests digests) := by
  have hlookup : ∀ {a d}, digests.lookup a=some d → (a,d) ∈ digests := by
    intro a d h
    obtain ⟨l₁,l₂,rfl,-⟩ := List.lookup_eq_some_iff.mp h
    simp
  have hother : ∀ {a b d}, digests.lookup a=some d → d ≠ String.ofList ('x'::b) := by
    rintro a b d h rfl
    exact hmark _ (List.mem_map_of_mem (hlookup h)) (by simp)
  intro a b hab
  unfold hashWithDigests at hab
  cases ha : digests.lookup a with
  | some d =>
    cases hb : digests.lookup b with
    | some d' =>
      simp only [ha,hb,Option.getD_some] at hab
      subst hab
      have heq := List.inj_on_of_nodup_map hnodup (hlookup ha) (hlookup hb) rfl
      exact (Prod.mk.inj heq).1
    | none =>
      simp only [ha,hb,Option.getD_some,Option.getD_none] at hab
      exact absurd hab (hother ha)
  | none =>
    cases hb : digests.lookup b with
    | some d =>
      simp only [ha,hb,Option.getD_some,Option.getD_none] at hab
      exact absurd hab.symm (hother hb)
    | none =>
      simp only [ha,hb,Option.getD_none] at hab
      have hlist := congrArg String.toList hab
      simpa using hlist

/-- SHA-256 on the texts that the imports of the example hash. -/
def sampleDigests : List (List Char × String) :=
  [("[\"2025-02-02T23:00:00.000000Z\",\"2025-02-02T23:00:00.000000Z\",\"AT1\",\"25.00\",\"mitgliedsbeitrag\"]".toList,
    "ffc8ece16200d18cf3255d285494259cde8985157cab51394f13e65ec3efaa94"),
   ("ffc8ece16200d18cf3255d285494259cde8985157cab51394f13e65ec3efaa94#2".toList,
    "ddc8b97360deca8c303c9acb027c30557a1465f495ab56bca99277ab086c0f11"),
   ("[\"2025-02-28T23:00:00.000000Z\",\"2025-03-02T23:00:00.000000Z\",\"AT1\",\"-10.50\",\"spende\"]".toList,
    "48f82a557c3b32fd21e8b8fee566dcb8b3f1197130f9c577d9ef0d4599e3704c")]

def spendeEntry : ImportEntry where
  payload := ⟨some (Date.of 2025 3 1),some (Date.of 2025 3 3),beitragEntry.payload.iban,
    some ⟨true,1050⟩,some ⟨text "spende",by decide⟩⟩
  raw := "[]"
  originalBooking := text "2025-03-01T00:00:00.000+0100"
  originalValuation := text "2025-03-03T00:00:00.000+0100"

/-- A file with a booking that was made twice, and one that overlaps with it. -/
def sampleFiles : List ExportFile :=
  [⟨[beitragEntry,beitragEntry],7⟩,⟨[beitragEntry,spendeEntry],8⟩]

def beitragKey : EntryKey where
  booking := text "2025-02-02T23:00:00.000000Z"
  valuation := text "2025-02-02T23:00:00.000000Z"
  iban := text "AT1"
  amount := text "25.00"
  subject := text "mitgliedsbeitrag"
  merged := by decide

def sampleAccount : P4xAccount := ⟨1,some (Date.of 2025 1 1),0,none⟩

def sampleStore : Store := { bareStore with accounts := [sampleAccount] }

theorem import_multiplicity_sample : ∃ s,
    importFiles (hashWithDigests sampleDigests) id sampleAccount sampleStore sampleFiles=.ok s ∧
      activeWithKey (hashWithDigests sampleDigests) s beitragKey=2 := by
  have hsha : Function.Injective (hashWithDigests sampleDigests) :=
    hashWithDigests_injective (by decide) (by decide)
  have hpairs : ∀ e ∈ allEntries sampleFiles, ∀ e' ∈ allEntries sampleFiles, ∀ x ∈ keyedEntry e,
      ∀ x' ∈ keyedEntry e', x.2=x'.2 →
        x.1.booking=x'.1.booking ∧ x.1.valuation=x'.1.valuation := by
    decide +kernel
  have hdates : SameLocalDates (allEntries sampleFiles) := by
    intro e he e' he' p p' k hkey hkey'
    exact hpairs e he e' he' (p,k) hkey (p',k) hkey' rfl
  have hafter : ∀ e ∈ allEntries sampleFiles, ∀ x ∈ keyedEntry e,
      beforeInitDate sampleAccount x.1=false := by
    decide +kernel
  have hrun : (importFiles (hashWithDigests sampleDigests) id sampleAccount sampleStore
      sampleFiles).isOk=true := by
    decide +kernel
  cases hs : importFiles (hashWithDigests sampleDigests) id sampleAccount sampleStore sampleFiles with
  | error e =>
    rw [hs] at hrun
    contradiction
  | ok s =>
    refine ⟨s,rfl,?_⟩
    obtain ⟨hcount,-⟩ := import_multiplicity hsha rfl hdates hs
    rw [hcount beitragKey (fun e he p hkey => hafter e he (p,beitragKey) hkey)]
    decide +kernel

end VbApi.P4x
