import VbApi.P4x.ImportMultiplicity

/-! What a round of the import does to the rows, and the import with the errors that it can raise. -/
namespace VbApi.P4x
open VbApi.Foundations

/-- The stored rows and those that wait for the flush. -/
def ImportState.rows (st : ImportState) : List P4xTransaction := st.store.transactions ++ st.pending

/-- What the columns of a row can hold. The text in `raw` is ASCII without NUL. -/
def RowAccepted (t : P4xTransaction) : Prop :=
  Storable t.iban ∧ Storable t.subject ∧ InNumericRange t.amount

instance (t : P4xTransaction) : Decidable (RowAccepted t) := inferInstanceAs (Decidable (_ ∧ _))

/-- The constraints of the table: values that fit, and unique hashes. -/
def TableAccepts (rows : List P4xTransaction) : Prop :=
  (rows.map (·.sha256Hash)).Nodup ∧ ∀ t ∈ rows, RowAccepted t

instance (rows : List P4xTransaction) : Decidable (TableAccepts rows) :=
  inferInstanceAs (Decidable (_ ∧ ∀ t ∈ rows, _))

inductive ImportError
  | dateError (e : DateError)
  /-- The flush sends a value that the driver or the database refuses. -/
  | flushError
  deriving DecidableEq, Repr

/-- `import_transactions` with the errors of its flush. -/
def importOrRaise (sha256 : List Char → String) (s : Store) (account : P4xAccount) (now : Timestamp)
    (entries : List ImportEntry) : Except ImportError (Store × Summary) :=
  match entries.foldlM (importEntry sha256 account now) ⟨s,[],Dict.empty,Dict.empty⟩ with
  | .error e => .error (.dateError e)
  | .ok st => if TableAccepts st.rows then .ok (flush st,st.summary) else .error .flushError

section Rows
variable {sha256 : List Char → String} {account : P4xAccount} {now : Timestamp} {st : ImportState}
variable {hash raw : String} {p : CompletePayload} {t t' : P4xTransaction}

/-- An import that raises nothing is the one that cannot fail at its flush. -/
lemma importOrRaise_ok {s : Store} {entries : List ImportEntry} {r : Store × Summary}
    (h : importOrRaise sha256 s account now entries=.ok r) :
    importTransactions sha256 s account now entries=.ok r := by
  rw [importOrRaise] at h
  rw [importTransactions]
  cases hrun : entries.foldlM (importEntry sha256 account now) ⟨s,[],Dict.empty,Dict.empty⟩ with
  | error e =>
    rw [hrun] at h
    cases h
  | ok st =>
    rw [hrun] at h
    dsimp only at h
    split_ifs at h
    rw [ok_bind,pure_eq_ok,Except.ok.inj h]

lemma mem_updateHash {s : Store} {change : P4xTransaction → P4xTransaction} :
    t' ∈ (updateHash s hash change).transactions ↔
      (t' ∈ s.transactions ∧ t'.sha256Hash ≠ hash) ∨
        ∃ t ∈ s.transactions, t.sha256Hash=hash ∧ t'=change t := by
  simp only [updateHash,List.mem_map]
  constructor
  · intro h
    obtain ⟨t,ht,heq⟩ := h
    split_ifs at heq with hhash
    · exact .inr ⟨t,ht,hhash,heq.symm⟩
    · exact .inl ⟨heq ▸ ht,heq ▸ hhash⟩
  · intro h
    obtain ⟨ht,hne⟩ | ⟨t,ht,hhash,rfl⟩ := h
    · exact ⟨t',ht,if_neg hne⟩
    · exact ⟨t,ht,if_pos hhash⟩

def setDeleted (now : Timestamp) (t : P4xTransaction) : P4xTransaction :=
  { t with deletedAt := some now }

/-- The three things that an entry with a hash can do. -/
lemma storeEntry_cases (account : P4xAccount) (now : Timestamp) (st : ImportState) (hash : String)
    (p : CompletePayload) (raw : String) :
    (beforeInitDate account p=true ∧
      (storeEntry account now st hash p raw).store=updateHash st.store hash (setDeleted now) ∧
      (storeEntry account now st hash p raw).pending=st.pending) ∨
    (beforeInitDate account p=false ∧ (∃ t ∈ st.store.transactions, t.sha256Hash=hash) ∧
      (storeEntry account now st hash p raw).store=
        updateHash st.store hash (fun t => overwrite t account p raw) ∧
      (storeEntry account now st hash p raw).pending=st.pending) ∨
    (beforeInitDate account p=false ∧ (∀ t ∈ st.store.transactions, t.sha256Hash ≠ hash) ∧
      (storeEntry account now st hash p raw).store=st.store ∧
      (storeEntry account now st hash p raw).pending=st.pending ++ [newRow account hash p raw]) := by
  unfold storeEntry
  split_ifs with hbefore
  · exact .inl ⟨hbefore,rfl,rfl⟩
  · have hkept : beforeInitDate account p=false := by simpa [beforeInitDate] using hbefore
    cases hfind : st.store.transactions.find? fun t => t.sha256Hash=hash with
    | some existing =>
      refine .inr (.inl ⟨hkept,⟨existing,List.mem_of_find?_eq_some hfind,?_⟩,rfl,rfl⟩)
      simpa using List.find?_some hfind
    | none =>
      refine .inr (.inr ⟨hkept,?_,rfl,rfl⟩)
      intro t ht
      simpa using List.find?_eq_none.mp hfind t ht

/-- Rows with another hash stay as they are. -/
lemma storeEntry_other (ht : t ∈ st.rows) (hne : t.sha256Hash ≠ hash) :
    t ∈ (storeEntry account now st hash p raw).rows := by
  simp only [ImportState.rows,List.mem_append] at ht ⊢
  obtain ⟨-,hstore,hpending⟩ | ⟨-,-,hstore,hpending⟩ | ⟨-,-,hstore,hpending⟩ :=
    storeEntry_cases account now st hash p raw
  · rw [hstore,hpending]
    exact ht.imp_left fun ht => mem_updateHash.mpr (.inl ⟨ht,hne⟩)
  · rw [hstore,hpending]
    exact ht.imp_left fun ht => mem_updateHash.mpr (.inl ⟨ht,hne⟩)
  · rw [hstore,hpending]
    exact ht.imp_right fun ht => List.mem_append_left _ ht

/-- Where a row comes from. -/
lemma storeEntry_mem (ht : t' ∈ (storeEntry account now st hash p raw).rows) :
    t' ∈ st.rows ∨
    (beforeInitDate account p=true ∧ ∃ t ∈ st.rows, t.sha256Hash=hash ∧ t'=setDeleted now t) ∨
    (beforeInitDate account p=false ∧ RowOf account hash p t') := by
  simp only [ImportState.rows,List.mem_append] at ht ⊢
  obtain ⟨hbefore,hstore,hpending⟩ | ⟨hkept,-,hstore,hpending⟩ | ⟨hkept,-,hstore,hpending⟩ :=
    storeEntry_cases account now st hash p raw
  · rw [hstore,hpending] at ht
    obtain ht | ht := ht
    · obtain ⟨ht,-⟩ | ⟨t,ht₀,hhash,heq⟩ := mem_updateHash.mp ht
      · exact .inl (.inl ht)
      · exact .inr (.inl ⟨hbefore,t,.inl ht₀,hhash,heq⟩)
    · exact .inl (.inr ht)
  · rw [hstore,hpending] at ht
    obtain ht | ht := ht
    · obtain ⟨ht,-⟩ | ⟨t,-,hhash,rfl⟩ := mem_updateHash.mp ht
      · exact .inl (.inl ht)
      · exact .inr (.inr ⟨hkept,hhash,rfl,rfl,rfl,rfl,rfl,rfl,rfl⟩)
    · exact .inl (.inr ht)
  · rw [hstore,hpending] at ht
    obtain ht | ht := ht
    · exact .inl (.inl ht)
    · obtain ht | ht := List.mem_append.mp ht
      · exact .inl (.inr ht)
      · rw [List.mem_singleton.mp ht]
        exact .inr (.inr ⟨hkept,rfl,rfl,rfl,rfl,rfl,rfl,rfl,rfl⟩)

/-- An entry that is kept has its row. -/
lemma storeEntry_written (hkept : beforeInitDate account p=false) :
    ∃ t ∈ (storeEntry account now st hash p raw).rows, RowOf account hash p t := by
  simp only [ImportState.rows,List.mem_append]
  obtain ⟨hbefore,-⟩ | ⟨-,⟨t,ht,hhash⟩,hstore,-⟩ | ⟨-,-,-,hpending⟩ :=
    storeEntry_cases account now st hash p raw
  · rw [hkept] at hbefore
    cases hbefore
  · refine ⟨overwrite t account p raw,.inl ?_,hhash,rfl,rfl,rfl,rfl,rfl,rfl,rfl⟩
    rw [hstore]
    exact mem_updateHash.mpr (.inr ⟨t,ht,hhash,rfl⟩)
  · refine ⟨newRow account hash p raw,.inr ?_,rfl,rfl,rfl,rfl,rfl,rfl,rfl,rfl⟩
    rw [hpending]
    exact List.mem_append_right _ (List.mem_singleton_self _)

lemma map_hash_updateHash (s : Store) (hash : String) (change : P4xTransaction → P4xTransaction)
    (hchange : ∀ t, (change t).sha256Hash=t.sha256Hash) :
    (updateHash s hash change).transactions.map (·.sha256Hash)=
      s.transactions.map (·.sha256Hash) := by
  simp only [updateHash,List.map_map]
  apply List.map_congr_left
  intro t _
  simp only [Function.comp]
  split_ifs
  · exact hchange t
  · rfl

/-- A hash is inserted once. -/
lemma storeEntry_nodup (h : (st.rows.map (·.sha256Hash)).Nodup)
    (hpending : ∀ t ∈ st.pending, t.sha256Hash ≠ hash) :
    ((storeEntry account now st hash p raw).rows.map (·.sha256Hash)).Nodup := by
  rw [ImportState.rows,List.map_append] at h
  rw [ImportState.rows,List.map_append]
  obtain ⟨-,hstore,hsame⟩ | ⟨-,-,hstore,hsame⟩ | ⟨-,hnone,hstore,hnew⟩ :=
    storeEntry_cases account now st hash p raw
  · rw [hstore,hsame,map_hash_updateHash st.store hash (setDeleted now) fun _ => rfl]
    exact h
  · rw [hstore,hsame,map_hash_updateHash st.store hash (overwrite · account p raw) fun _ => rfl]
    exact h
  · rw [hstore,hnew,List.map_append,← List.append_assoc]
    refine h.append (List.nodup_singleton _) ?_
    intro x hold hx
    rw [List.map_singleton,List.mem_singleton] at hx
    rw [← List.map_append] at hold
    obtain ⟨t,ht,rfl⟩ := List.mem_map.mp hold
    obtain ht | ht := List.mem_append.mp ht
    · exact hnone t ht hx
    · exact hpending t ht hx

end Rows
end VbApi.P4x
