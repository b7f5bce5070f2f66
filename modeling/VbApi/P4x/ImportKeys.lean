import VbApi.Foundations.DecimalText
import VbApi.P4x.Import

/-! What identifies an imported entry: the five hashed texts, and the number of its occurrence in
its file. Both can be read back from the stored hash when SHA-256 has no collisions. -/
namespace VbApi.P4x
open VbApi.Foundations

def AmountText.chars (a : AmountText) : List Char :=
  (if a.negative then ['-'] else []) ++ paddedChars 1 (a.cents/100) ++ '.'::paddedChars 2 (a.cents%100)

lemma AmountText.toText_eq_map (a : AmountText) : a.toText=a.chars.map codePoint := by
  simp only [toText,chars,padded_eq_map,List.map_append,List.map_cons]
  split_ifs <;> simp [text]

/-- The cents of an amount are its digits. -/
lemma AmountText.ofDigitChars_chars (a : AmountText) :
    Nat.ofDigitChars 10 (a.chars.filter Char.isDigit) 0=a.cents := by
  have hpadded : ∀ w n, (paddedChars w n).filter Char.isDigit=paddedChars w n := by
    intro w n
    rw [List.filter_eq_self]
    exact fun c hc => isDigit_of_mem_paddedChars hc
  have hfilter : a.chars.filter Char.isDigit=
      paddedChars 1 (a.cents/100) ++ paddedChars 2 (a.cents%100) := by
    unfold chars
    split_ifs <;> simp [hpadded]
  have hlen : (paddedChars 2 (a.cents%100)).length=2 :=
    length_paddedChars (by decide) (Nat.mod_lt _ (by decide))
  rw [hfilter,Nat.ofDigitChars_append,Nat.ofDigitChars_eq_ofDigitChars_zero,hlen]
  simp only [ofDigitChars_paddedChars]
  omega

lemma AmountText.minus_mem_chars (a : AmountText) : '-' ∈ a.chars ↔ a.negative=true := by
  have hpadded : ∀ w n, '-' ∉ paddedChars w n := by
    intro w n h
    simpa using isDigit_of_mem_paddedChars h
  unfold chars
  split_ifs with h <;> simp [h,hpadded]

/-- The text of an amount determines it. -/
theorem AmountText.toText_inj {a b : AmountText} (h : a.toText=b.toText) : a=b := by
  rw [toText_eq_map,toText_eq_map] at h
  have hchars := List.map_injective_iff.mpr codePoint_injective h
  have hcents : a.cents=b.cents := by
    rw [← a.ofDigitChars_chars,← b.ofDigitChars_chars,hchars]
  have hsign : a.negative=b.negative := by
    rw [Bool.eq_iff_iff,← a.minus_mem_chars,← b.minus_mem_chars,hchars]
  cases a
  cases b
  simp only [AmountText.mk.injEq]
  exact ⟨hsign,hcents⟩

lemma AmountText.isAscii_toText (a : AmountText) : IsAscii a.toText := by
  unfold toText
  refine ((IsAscii.append ?_ (isAscii_padded _ _)).append (by decide)).append (isAscii_padded _ _)
  split_ifs <;> decide

lemma Moment.isAscii_carbon (m : Moment) : IsAscii m.carbon :=
  ((((((((isAscii_isoformat _).append (by decide)).append (isAscii_padded _ _)).append
    (by decide)).append (isAscii_padded _ _)).append (by decide)).append (isAscii_padded _ _)).append
    (by decide))

lemma isAscii_dateToCarbonJson {d : Date} {s t : PyText} (h : dateToCarbonJson d s=.ok t) :
    IsAscii t := by
  unfold dateToCarbonJson at h
  cases hm : carbonMatch (strip s) with
  | none =>
    rw [hm] at h
    cases h
    exact (isAscii_isoformat d).append (by decide)
  | some m =>
    rw [hm] at h
    simp only [bind_eq_ok_iff] at h
    obtain ⟨moment,-,h⟩ := h
    by_cases hoffset : 1440 ≤ m.hours*60+m.minutes
    · rw [if_pos hoffset] at h
      contradiction
    · rw [if_neg hoffset,bind_eq_ok_iff] at h
      obtain ⟨utc,-,h⟩ := h
      rw [pure_eq_ok,Except.ok.injEq] at h
      rw [← h]
      exact utc.isAscii_carbon

/-- The five texts that are hashed; none has an unmerged surrogate pair. -/
structure EntryKey where
  booking : PyText
  valuation : PyText
  iban : PyText
  amount : PyText
  subject : PyText
  merged : ∀ s ∈ [booking,valuation,iban,amount,subject], Merged s
  deriving DecidableEq

def EntryKey.hash (sha256 : List Char → String) (k : EntryKey) : String :=
  computeTransactionHash sha256 k.booking k.valuation k.iban k.amount k.subject

lemma keyTexts_merged (p : CompletePayload) {s t booking valuation : PyText}
    (hb : dateToCarbonJson p.booking s=.ok booking)
    (hv : dateToCarbonJson p.valuation t=.ok valuation) :
    ∀ u ∈ [booking,valuation,p.iban.codes,p.amount.toText,p.subject.codes], Merged u := by
  intro u hu
  simp only [List.mem_cons,List.not_mem_nil,or_false] at hu
  rcases hu with rfl | rfl | rfl | rfl | rfl
  · exact (isAscii_dateToCarbonJson hb).merged
  · exact (isAscii_dateToCarbonJson hv).merged
  · exact p.iban.merged
  · exact p.amount.isAscii_toText.merged
  · exact p.subject.merged

/-- A complete entry with an amount, and its key; nothing for the entries that are not hashed. -/
def keyedEntry (e : ImportEntry) : Option (CompletePayload × EntryKey) :=
  match e.payload.complete with
  | none => none
  | some p =>
    if p.amount.value=0 then none
    else
      match hb : dateToCarbonJson p.booking e.originalBooking,
        hv : dateToCarbonJson p.valuation e.originalValuation with
      | .ok booking,.ok valuation =>
        some (p,⟨booking,valuation,p.iban.codes,p.amount.toText,p.subject.codes,
          keyTexts_merged p hb hv⟩)
      | _,_ => none

/-- The booking lies before the day from which the account is kept. -/
def beforeInitDate (account : P4xAccount) (p : CompletePayload) : Bool :=
  account.initDate.any fun initDate => p.booking < initDate

/-- What the key of an entry says about it. -/
lemma keyedEntry_eq_some {e : ImportEntry} {p : CompletePayload} {k : EntryKey}
    (h : keyedEntry e=some (p,k)) :
    k.iban=p.iban.codes ∧ k.amount=p.amount.toText ∧ k.subject=p.subject.codes := by
  unfold keyedEntry at h
  split at h
  · contradiction
  · split_ifs at h
    split at h
    · cases h
      exact ⟨rfl,rfl,rfl⟩
    · contradiction

/-- Entries with the same key carry the same account number, amount and subject. -/
lemma keyedEntry_data {e e' : ImportEntry} {p p' : CompletePayload} {k : EntryKey}
    (h : keyedEntry e=some (p,k)) (h' : keyedEntry e'=some (p',k)) :
    p.iban.codes=p'.iban.codes ∧ p.amount=p'.amount ∧ p.subject.codes=p'.subject.codes := by
  obtain ⟨hi,ha,hs⟩ := keyedEntry_eq_some h
  obtain ⟨hi',ha',hs'⟩ := keyedEntry_eq_some h'
  exact ⟨hi.symm.trans hi',AmountText.toText_inj (ha.symm.trans ha'),hs.symm.trans hs'⟩

section Hashes
variable {sha256 : List Char → String} (hsha : Function.Injective sha256)
include hsha

lemma EntryKey.hash_inj {k k' : EntryKey} (h : k.hash sha256=k'.hash sha256) : k=k' := by
  have hlist := dumpsList_inj k.merged k'.merged (hsha h)
  cases k
  cases k'
  simpa using hlist

/-- The hash of a first occurrence is not the hash of a later one: the hashed text of an entry
ends with a bracket, that of a later occurrence with a digit. -/
lemma hash_ne_later (k : EntryKey) (hash : String) (n : ℕ) :
    k.hash sha256 ≠ sha256 (hash.toList ++ '#'::Nat.toDigits 10 n) := by
  intro h
  have hlast := congrArg List.getLast? (hsha h)
  have hbracket : (hashPayload k.booking k.valuation k.iban k.amount k.subject).getLast?=some ']' := by
    rw [hashPayload,dumpsList,← List.cons_append,escapeSlashes_append]
    exact List.getLast?_concat
  obtain ⟨cs,c,hcs⟩ : ∃ cs c, Nat.toDigits 10 n=cs ++ [c] :=
    ⟨_,_,(List.dropLast_concat_getLast Nat.toDigits_ne_nil).symm⟩
  rw [hbracket,hcs,← List.cons_append,← List.append_assoc,List.getLast?_concat] at hlast
  cases hlast
  have hdigit := isDigit_of_mem_toDigits (n := n) (c := ']') (by rw [hcs]; simp)
  contradiction

/-- A stored hash determines the key and the occurrence. -/
theorem occurrenceHash_inj {k k' : EntryKey} {n n' : ℕ}
    (h : occurrenceHash sha256 (k.hash sha256) n=occurrenceHash sha256 (k'.hash sha256) n') :
    k=k' ∧ n=n' := by
  unfold occurrenceHash at h
  split_ifs at h with hn hn' hn'
  · exact ⟨EntryKey.hash_inj hsha h,by rw [hn,hn']⟩
  · exact absurd h (hash_ne_later hsha k _ _)
  · exact absurd h.symm (hash_ne_later hsha k' _ _)
  · obtain ⟨hhash,hnn⟩ := append_mark_toDigits_inj (by decide) (hsha h)
    exact ⟨EntryKey.hash_inj hsha (String.toList_inj.mp hhash),hnn⟩

end Hashes
end VbApi.P4x
