import VbApi.Foundations.Dict
import VbApi.Foundations.JsonText
import VbApi.P4x.CarbonDate
import VbApi.P4x.CategoryWrites

/-! The import of a parsed bank export into one account. -/
namespace VbApi.P4x
open VbApi.Foundations

/-- An amount with two decimals as the parser writes it; a negative zero keeps its sign. -/
structure AmountText where
  negative : Bool
  cents : ℕ
  deriving DecidableEq

def AmountText.toText (a : AmountText) : PyText :=
  (if a.negative then text "-" else []) ++ padded 1 (a.cents/100) ++ text "." ++ padded 2 (a.cents%100)

/-- `Decimal(text)`, in cents. -/
def AmountText.value (a : AmountText) : Cents := if a.negative then -a.cents else a.cents

structure ParsedTransactionPayload where
  booking : Option Date
  valuation : Option Date
  iban : Option JsonText
  amount : Option AmountText
  subject : Option JsonText

/-- A payload with all mandatory fields. -/
structure CompletePayload where
  booking : Date
  valuation : Date
  iban : JsonText
  amount : AmountText
  subject : JsonText

def ParsedTransactionPayload.complete (p : ParsedTransactionPayload) : Option CompletePayload :=
  match p with
  | ⟨some booking,some valuation,some iban,some amount,some subject⟩ =>
    some ⟨booking,valuation,iban,amount,subject⟩
  | _ => none

/-- A parsed entry, with the texts of the two dates in the bank's own structure. -/
structure ImportEntry where
  payload : ParsedTransactionPayload
  raw : String
  originalBooking : PyText
  originalValuation : PyText

abbrev Summary := Dict String ℕ

def Summary.bump (summary : Summary) (key : String) : Summary :=
  summary.set key (summary.getD key 0+1)

section Import
variable (sha256 : List Char → String)

/-- The text that the stored hashes are computed over. -/
def hashPayload (bookingCarbon valuationCarbon iban amount subject : PyText) : List Char :=
  escapeSlashes (dumpsList [bookingCarbon,valuationCarbon,iban,amount,subject])

def computeTransactionHash (bookingCarbon valuationCarbon iban amount subject : PyText) : String :=
  sha256 (hashPayload bookingCarbon valuationCarbon iban amount subject)

/-- The hash of a later occurrence of an entry. -/
def occurrenceHash (hash : String) (occurrence : ℕ) : String :=
  if occurrence=1 then hash else sha256 (hash.toList ++ '#'::Nat.toDigits 10 occurrence)

def distinguishRepeatedEntry (hash : String) (seen : Dict String ℕ) (summary : Summary) :
    String × Dict String ℕ × Summary :=
  let occurrence := seen.getD hash 0+1
  (occurrenceHash sha256 hash occurrence,seen.set hash occurrence,
    if occurrence=1 then summary else summary.bump "repeated_in_file")

/-- What the loop over the entries carries; new rows wait for the flush. -/
structure ImportState where
  store : Store
  pending : List P4xTransaction
  seen : Dict String ℕ
  summary : Summary

/-- Change the row with a hash. -/
def updateHash (s : Store) (hash : String) (change : P4xTransaction → P4xTransaction) : Store :=
  { s with transactions := s.transactions.map fun t => if t.sha256Hash=hash then change t else t }

/-- The row of an entry once it is imported again. -/
def overwrite (t : P4xTransaction) (account : P4xAccount) (p : CompletePayload) (raw : String) :
    P4xTransaction :=
  { t with
    deletedAt := none
    booking := p.booking
    valuation := p.valuation
    iban := p.iban.codes
    amount := p.amount.value
    subject := p.subject.codes
    raw := raw
    p4xAccountId := account.id }

/-- A new row; the database gives it its id when it is flushed. -/
def newRow (account : P4xAccount) (hash : String) (p : CompletePayload) (raw : String) :
    P4xTransaction where
  id := 0
  sha256Hash := hash
  booking := p.booking
  valuation := p.valuation
  iban := p.iban.codes
  amount := p.amount.value
  subject := p.subject.codes
  p4xAccountId := account.id
  delegatingMemberId := none
  delegatingContactId := none
  delegatingP4xAccountId := none
  delegatingP4xSpecialContactId := none
  raw := raw
  deletedAt := none

def existingStatus (account : P4xAccount) (existing : P4xTransaction) : String :=
  if existing.p4xAccountId ≠ account.id then "existing_with_new_binding"
  else if existing.deletedAt ≠ none then "restored" else "existing"

/-- The part of a round after the hash is known. -/
def storeEntry (account : P4xAccount) (now : Timestamp) (st : ImportState) (hash : String)
    (p : CompletePayload) (raw : String) : ImportState :=
  if account.initDate.any (fun initDate => p.booking < initDate) then
    { st with
      store := updateHash st.store hash fun t => { t with deletedAt := some now }
      summary := st.summary.bump "before_init_date" }
  else
    match st.store.transactions.find? fun t => t.sha256Hash=hash with
    | some existing =>
      { st with
        store := updateHash st.store hash fun t => overwrite t account p raw
        summary := st.summary.bump (existingStatus account existing) }
    | none =>
      { st with
        pending := st.pending ++ [newRow account hash p raw]
        summary := st.summary.bump "new" }

/-- One round of the loop. -/
def importEntry (account : P4xAccount) (now : Timestamp) (st : ImportState) (e : ImportEntry) :
    Except DateError ImportState :=
  let st := { st with summary := st.summary.bump "giventotal" }
  match e.payload.complete with
  | none => .ok { st with summary := st.summary.bump "error" }
  | some p =>
    if p.amount.value=0 then .ok { st with summary := st.summary.bump "zero_skipped" }
    else do
      let bookingCarbon ← dateToCarbonJson p.booking e.originalBooking
      let valuationCarbon ← dateToCarbonJson p.valuation e.originalValuation
      let hash := computeTransactionHash sha256 bookingCarbon valuationCarbon p.iban.codes
        p.amount.toText p.subject.codes
      let (hash,seen,summary) := distinguishRepeatedEntry sha256 hash st.seen st.summary
      return storeEntry account now { st with seen := seen, summary := summary } hash p e.raw

/-- Insert the waiting rows. -/
def flush (st : ImportState) : Store :=
  { st.store with
    transactions := st.store.transactions ++
      st.pending.mapIdx fun i t => { t with id := st.store.nextUuid+i }
    nextUuid := st.store.nextUuid+st.pending.length }

def importTransactions (s : Store) (account : P4xAccount) (now : Timestamp)
    (entries : List ImportEntry) : Except DateError (Store × Summary) := do
  let st ← entries.foldlM (importEntry sha256 account now) ⟨s,[],Dict.empty,Dict.empty⟩
  return (flush st,st.summary)

variable (lower : PyText → PyText)

/-- Import and rebuild the hits as one transaction. -/
def importAndApplyFilters (s : Store) (account : P4xAccount) (now : Timestamp)
    (entries : List ImportEntry) : Except OpError (Store × Summary) :=
  match importTransactions sha256 s account now entries with
  | .error _ => .error .dateError
  | .ok (s,summary) => do
    let s ← commit (applyAllCategoryFiltersCore lower s)
    return (s,summary)

end Import
end VbApi.P4x
