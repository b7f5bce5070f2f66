import VbApi.P4x.ImportKeys

/-! What one round of the import can do, and its summary: every entry given is counted once. -/
namespace VbApi.P4x
open VbApi.Foundations

/-- The counters that an entry ends up in. -/
def entryCounters : List String :=
  ["error","zero_skipped","before_init_date","new","existing","restored","existing_with_new_binding"]

/-- Every entry given was counted once. -/
def Balanced (summary : Summary) : Prop :=
  summary.getD "giventotal" 0=(entryCounters.map fun key => summary.getD key 0).sum

lemma getD_bump (summary : Summary) (key key' : String) :
    (summary.bump key).getD key' 0=if key'=key then summary.getD key' 0+1 else summary.getD key' 0 := by
  rw [Summary.bump,Dict.getD_set]
  split_ifs with h
  · rw [h]
  · rfl

lemma balanced_empty : Balanced Dict.empty := rfl

lemma Balanced.entry {summary : Summary} (h : Balanced summary) {key : String}
    (hkey : key ∈ entryCounters) : Balanced ((summary.bump "giventotal").bump key) := by
  unfold Balanced at h ⊢
  simp only [entryCounters,List.mem_cons,List.not_mem_nil,or_false] at hkey
  simp only [entryCounters,List.map_cons,List.map_nil,List.sum_cons,List.sum_nil] at h ⊢
  rcases hkey with rfl | rfl | rfl | rfl | rfl | rfl | rfl <;> simp [getD_bump] <;> omega

lemma Balanced.repeated {summary : Summary} {key : String} (hkey : key ∈ entryCounters)
    (h : Balanced ((summary.bump "giventotal").bump key)) :
    Balanced (((summary.bump "giventotal").bump "repeated_in_file").bump key) := by
  unfold Balanced at h ⊢
  simp only [entryCounters,List.mem_cons,List.not_mem_nil,or_false] at hkey
  simp only [entryCounters,List.map_cons,List.map_nil,List.sum_cons,List.sum_nil] at h ⊢
  rcases hkey with rfl | rfl | rfl | rfl | rfl | rfl | rfl <;> simpa [getD_bump] using h

section Rounds
variable {sha256 : List Char → String} {account : P4xAccount} {now : Timestamp}

lemma keyedEntry_of_ok {e : ImportEntry} {p : CompletePayload} (hp : e.payload.complete=some p)
    (hzero : p.amount.value ≠ 0) {booking valuation : PyText}
    (hb : dateToCarbonJson p.booking e.originalBooking=.ok booking)
    (hv : dateToCarbonJson p.valuation e.originalValuation=.ok valuation) :
    keyedEntry e=some (p,⟨booking,valuation,p.iban.codes,p.amount.toText,p.subject.codes,
      keyTexts_merged p hb hv⟩) := by
  unfold keyedEntry
  rw [hp]
  dsimp only
  rw [if_neg hzero]
  split
  · rename_i booking' valuation' hb' hv'
    cases hb.symm.trans hb'
    cases hv.symm.trans hv'
    rfl
  · rename_i hnone
    exact (hnone booking valuation hb hv).elim

/-- What one round of the import can do. -/
lemma importEntry_cases {st st' : ImportState} {e : ImportEntry}
    (hok : importEntry sha256 account now st e=.ok st') :
    (keyedEntry e=none ∧ ∃ key ∈ entryCounters,
      st'={ st with summary := (st.summary.bump "giventotal").bump key }) ∨
    ∃ p k n summary, keyedEntry e=some (p,k) ∧ n=st.seen.getD (k.hash sha256) 0+1 ∧
      (summary=st.summary.bump "giventotal" ∨
        summary=(st.summary.bump "giventotal").bump "repeated_in_file") ∧
      st'=storeEntry account now
        { st with seen := st.seen.set (k.hash sha256) n, summary := summary }
        (occurrenceHash sha256 (k.hash sha256) n) p e.raw := by
  unfold importEntry at hok
  cases hp : e.payload.complete with
  | none =>
    rw [hp] at hok
    cases hok
    exact .inl ⟨by simp [keyedEntry,hp],"error",by decide,rfl⟩
  | some p =>
    rw [hp] at hok
    dsimp only at hok
    by_cases hzero : p.amount.value=0
    · rw [if_pos hzero] at hok
      cases hok
      exact .inl ⟨by simp [keyedEntry,hp,hzero],"zero_skipped",by decide,rfl⟩
    · rw [if_neg hzero] at hok
      simp only [bind_eq_ok_iff] at hok
      obtain ⟨booking,hb,valuation,hv,hok⟩ := hok
      have hst' := (Except.ok.inj hok).symm
      refine .inr ⟨p,_,_,_,keyedEntry_of_ok hp hzero hb hv,rfl,?_,hst'⟩
      dsimp only [distinguishRepeatedEntry]
      split_ifs
      · exact .inl rfl
      · exact .inr rfl

lemma storeEntry_summary (st : ImportState) (hash : String) (p : CompletePayload) (raw : String) :
    ∃ key ∈ entryCounters, (storeEntry account now st hash p raw).summary=st.summary.bump key := by
  unfold storeEntry
  split_ifs
  · exact ⟨_,by decide,rfl⟩
  · split
    · refine ⟨_,?_,rfl⟩
      unfold existingStatus
      split_ifs <;> decide
    · exact ⟨_,by decide,rfl⟩

/-- Each round counts its entry once. -/
lemma importEntry_balanced {st st' : ImportState} {e : ImportEntry} (h : Balanced st.summary)
    (hok : importEntry sha256 account now st e=.ok st') : Balanced st'.summary := by
  obtain ⟨-,key,hkey,rfl⟩ | ⟨p,k,n,summary,-,-,hsummary,rfl⟩ := importEntry_cases hok
  · exact h.entry hkey
  · have hcounter : ∃ key ∈ entryCounters, (storeEntry account now
        { st with seen := st.seen.set (k.hash sha256) n, summary := summary }
        (occurrenceHash sha256 (k.hash sha256) n) p e.raw).summary=summary.bump key :=
      storeEntry_summary _ _ _ _
    obtain ⟨key,hkey,hstored⟩ := hcounter
    rw [hstored]
    rcases hsummary with rfl | rfl
    · exact h.entry hkey
    · exact (h.entry hkey).repeated hkey

lemma foldlM_importEntry_balanced {entries : List ImportEntry} {st st' : ImportState}
    (h : Balanced st.summary) (hok : entries.foldlM (importEntry sha256 account now) st=.ok st') :
    Balanced st'.summary := by
  induction entries generalizing st with
  | nil =>
    cases hok
    exact h
  | cons e entries ih =>
    rw [List.foldlM_cons,bind_eq_ok_iff] at hok
    obtain ⟨mid,hmid,hok⟩ := hok
    exact ih (importEntry_balanced h hmid) hok

lemma importTransactions_balanced {s s' : Store} {entries : List ImportEntry} {summary : Summary}
    (hok : importTransactions sha256 s account now entries=.ok (s',summary)) : Balanced summary := by
  simp only [importTransactions,bind_eq_ok_iff] at hok
  obtain ⟨st,hrun,hok⟩ := hok
  cases hok
  exact foldlM_importEntry_balanced balanced_empty hrun

end Rounds
end VbApi.P4x
