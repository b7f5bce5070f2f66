import VbApi.P4x.FilterHits
import VbApi.P4x.ImportKeys

/-! The text that the hash of an entry is computed over, read back as JSON. -/
namespace VbApi.P4x
open VbApi.Foundations

/-- An entry with all mandatory fields, and the two times that its hash is computed with. -/
structure HashedEntry where
  entry : ImportEntry
  payload : CompletePayload
  complete : entry.payload.complete=some payload
  booking : PyText
  valuation : PyText
  booking_eq : dateToCarbonJson payload.booking entry.originalBooking=.ok booking
  valuation_eq : dateToCarbonJson payload.valuation entry.originalValuation=.ok valuation

namespace HashedEntry

def fields (x : HashedEntry) : List PyText :=
  [x.booking,x.valuation,x.payload.iban.codes,x.payload.amount.toText,x.payload.subject.codes]

def hashed (x : HashedEntry) : List Char :=
  hashPayload x.booking x.valuation x.payload.iban.codes x.payload.amount.toText
    x.payload.subject.codes

lemma fields_merged (x : HashedEntry) : ∀ s ∈ x.fields, Merged s :=
  keyTexts_merged x.payload x.booking_eq x.valuation_eq

/-- The import hashes this text. -/
theorem importEntry_eq (x : HashedEntry) (hzero : x.payload.amount.value ≠ 0)
    (sha256 : List Char → String) (account : P4xAccount) (now : Timestamp) (st : ImportState) :
    importEntry sha256 account now st x.entry=
      .ok (let seen := distinguishRepeatedEntry sha256 (sha256 x.hashed) st.seen
            (st.summary.bump "giventotal")
          storeEntry account now { st with seen := seen.2.1, summary := seen.2.2 } seen.1 x.payload
            x.entry.raw) := by
  unfold importEntry
  rw [x.complete]
  dsimp only
  rw [if_neg hzero,x.booking_eq,x.valuation_eq]
  rfl

lemma loadsList_hashed (x : HashedEntry) : loadsList x.hashed=some x.fields :=
  loadsList_dumpsList x.fields_merged

/-- Reading the text as JSON gives the five fields back, so the text determines them. -/
theorem hashed_readable (x y : HashedEntry) :
    loadsList x.hashed=some [x.booking,x.valuation,x.payload.iban.codes,x.payload.amount.toText,
      x.payload.subject.codes] ∧
    (x.hashed=y.hashed ↔ x.booking=y.booking ∧ x.valuation=y.valuation ∧
      x.payload.iban.codes=y.payload.iban.codes ∧
      x.payload.amount.toText=y.payload.amount.toText ∧
      x.payload.subject.codes=y.payload.subject.codes) := by
  refine ⟨x.loadsList_hashed,?_⟩
  constructor
  · intro h
    have hread := x.loadsList_hashed
    rw [h,y.loadsList_hashed,Option.some.injEq] at hread
    simpa [fields,eq_comm] using hread
  · rintro ⟨hb,hv,hi,ha,hs⟩
    rw [hashed,hashed,hb,hv,hi,ha,hs]

end HashedEntry

lemma beitragEntry_utc : dateToCarbonJson (Date.of 2025 2 3) beitragEntry.originalBooking=
    .ok (text "2025-02-02T23:00:00.000000Z") := by decide +kernel

/-- The fee of the sample, with a subject of the reader's choice. -/
def feeHashed (subject : JsonText) : HashedEntry where
  entry := { beitragEntry with
    payload := { beitragEntry.payload with subject := some subject } }
  payload := ⟨Date.of 2025 2 3,Date.of 2025 2 3,⟨text "AT1",merged_at1⟩,⟨false,2500⟩,subject⟩
  complete := rfl
  booking := text "2025-02-02T23:00:00.000000Z"
  valuation := text "2025-02-02T23:00:00.000000Z"
  booking_eq := beitragEntry_utc
  valuation_eq := beitragEntry_utc

theorem hashed_readable_subjects :
    loadsList (feeHashed ⟨text "Beitrag 2024/25 \"März\"",by decide⟩).hashed=
      some [text "2025-02-02T23:00:00.000000Z",text "2025-02-02T23:00:00.000000Z",text "AT1",
        text "25.00",text "Beitrag 2024/25 \"März\""] ∧
    (feeHashed ⟨text "Beitrag 2024/25 \"März\"",by decide⟩).hashed ≠
      (feeHashed ⟨text "mitgliedsbeitrag",merged_mitgliedsbeitrag⟩).hashed := by
  obtain ⟨hread,hsame⟩ := HashedEntry.hashed_readable
    (feeHashed ⟨text "Beitrag 2024/25 \"März\"",by decide⟩)
    (feeHashed ⟨text "mitgliedsbeitrag",merged_mitgliedsbeitrag⟩)
  refine ⟨hread,fun heq => ?_⟩
  exact absurd (hsame.mp heq).2.2.2.2 (by decide)

/-- An escape sequence in a subject is not taken for the escape of a slash. -/
example : loadsList (escapeSlashes (dumpsList [text "a\\/b",text "\"\\u00e4\""]))=
    some [text "a\\/b",text "\"\\u00e4\""] := by decide

end VbApi.P4x
