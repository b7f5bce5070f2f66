import VbApi.Foundations.Results
import VbApi.Foundations.Sorting
import VbApi.Foundations.Decimal
import VbApi.P4x.CategoryFilters

/-! The writes on category filters and direct assignments. Each works on the rows of one database
transaction and commits them, or raises and leaves the store as it was. -/
namespace VbApi.P4x
open VbApi.Foundations

inductive OpError
  | http (status : ℕ) (detail : String)
  | refused (detail : String)
  | invalidDecimal
  | dateError
  | databaseError
  deriving DecidableEq, Repr

def getAccountOr404 (s : Store) (id : Uuid) : Except OpError P4xAccount :=
  match s.accounts.find? fun a => a.id=id && a.deletedAt.isNone with
  | some account => .ok account
  | none => .error (.http 404 "Konto nicht gefunden.")

def getFilterOr404 (s : Store) (id : Uuid) : Except OpError P4xCategoryFilter :=
  match s.filters.find? fun f => f.id=id with
  | some f => .ok f
  | none => .error (.http 404 "Filter nicht gefunden.")

def getTransactionOr404 (s : Store) (id : Uuid) : Except OpError P4xTransaction :=
  match s.transactions.find? fun t => t.id=id && t.active with
  | some t => .ok t
  | none => .error (.http 404 "Transaktion nicht gefunden.")

/-- The range of a NUMERIC(12,2) column. -/
def InNumericRange (c : Cents) : Prop := |c| < 10^12

instance (c : Cents) : Decidable (InNumericRange c) := inferInstanceAs (Decidable (|c| < 10^12))

def FilterRowValid (s : Store) (f : P4xCategoryFilter) : Prop :=
  (∃ a ∈ s.accounts, a.id=f.p4xAccountId) ∧ (∃ c ∈ s.categories, c.id=f.p4xCategoryId) ∧
  Storable f.name ∧ (∀ v ∈ f.iban, Storable v) ∧ (∀ v ∈ f.subject, Storable v) ∧
  (∀ a ∈ f.minAmount, InNumericRange a) ∧ (∀ a ∈ f.maxAmount, InNumericRange a) ∧
  (∀ a ∈ f.minAmount, ∀ b ∈ f.maxAmount, a ≤ b) ∧
  (f.iban.getD [] ≠ [] ∨ f.minAmount ≠ none ∨ f.maxAmount ≠ none ∨ f.subject.getD [] ≠ [])

instance (s : Store) (f : P4xCategoryFilter) : Decidable (FilterRowValid s f) :=
  inferInstanceAs (Decidable (_ ∧ _))

def DirectRowValid (s : Store) (d : P4xCategoryDirect) : Prop :=
  (∃ t ∈ s.transactions, t.id=d.p4xTransactionId) ∧ (∃ c ∈ s.categories, c.id=d.p4xCategoryId) ∧
  InNumericRange d.amount

instance (s : Store) (d : P4xCategoryDirect) : Decidable (DirectRowValid s d) :=
  inferInstanceAs (Decidable (_ ∧ _))

def TransactionRowValid (s : Store) (t : P4xTransaction) : Prop :=
  (∃ a ∈ s.accounts, a.id=t.p4xAccountId) ∧ Storable t.iban ∧ Storable t.subject ∧
  InNumericRange t.amount ∧ DirectSumHolds s t

instance (s : Store) (t : P4xTransaction) : Decidable (TransactionRowValid s t) :=
  inferInstanceAs (Decidable (_ ∧ _))

/-- What the unique indexes, foreign keys, checks and triggers of the tables enforce. -/
def DbConstraints (s : Store) : Prop :=
  (s.filters.map (·.name)).Nodup ∧ (∀ f ∈ s.filters, FilterRowValid s f) ∧
  s.filterHits.Nodup ∧
  ((s.directs.filter P4xCategoryDirect.active).map
    fun d => (d.p4xTransactionId,d.p4xCategoryId)).Nodup ∧
  (∀ d ∈ s.directs, DirectRowValid s d) ∧
  (s.transactions.map (·.sha256Hash)).Nodup ∧ ∀ t ∈ s.transactions, TransactionRowValid s t

instance (s : Store) : Decidable (DbConstraints s) := inferInstanceAs (Decidable (_ ∧ _))

def commit (s : Store) : Except OpError Store :=
  if DbConstraints s then .ok s else .error .databaseError

/-- `[a-zA-Z]{2}[0-9 ]{18,23}`. -/
def filterIbanRegex (v : PyText) : Bool :=
  match v with
  | a::b::rest => isAsciiLetter a && isAsciiLetter b && 18 ≤ rest.length && rest.length ≤ 23 &&
      rest.all fun c => (asciiDigit? c).isSome || c=codePoint ' '
  | _ => false
where
  isAsciiLetter (c : CodePoint) : Bool :=
    (65 ≤ c.val && c.val ≤ 90) || (97 ≤ c.val && c.val ≤ 122)

/-- A validated request: its fields keep the bounds of the schema. -/
structure CategoryFilterSaveRequest where
  name : PyText
  p4xAccountId : Uuid
  iban : Option PyText
  minAmount : Option Cents
  maxAmount : Option Cents
  subject : Option PyText
  subjectMode : SubjectMode
  p4xCategoryId : Uuid
  name_length : name.length ≤ 64
  iban_format : ∀ v ∈ iban, v ≠ [] → filterIbanRegex v=true
  min_bound : ∀ a ∈ minAmount, |a| ≤ 99999999900
  max_bound : ∀ a ∈ maxAmount, |a| ≤ 99999999900
  subject_length : ∀ v ∈ subject, v.length ≤ 400

/-- The row that a request describes. -/
def CategoryFilterSaveRequest.toRow (data : CategoryFilterSaveRequest) (id : Uuid) :
    P4xCategoryFilter where
  id := id
  name := data.name
  p4xAccountId := data.p4xAccountId
  iban := data.iban
  minAmount := data.minAmount
  maxAmount := data.maxAmount
  subject := data.subject
  subjectMode := data.subjectMode
  p4xCategoryId := data.p4xCategoryId

def validateCategoryFilterInput (s : Store) (data : CategoryFilterSaveRequest) :
    Except OpError PUnit := do
  guardError (data.iban.getD [] ≠ [] ∨ data.minAmount ≠ none ∨ data.maxAmount ≠ none ∨
    data.subject.getD [] ≠ []) (.http 422 "Mindestens ein Filterkriterium muss gesetzt sein.")
  guardError (∃ a ∈ s.accounts, a.id=data.p4xAccountId) (.http 422 "Konto existiert nicht.")
  guardError (∃ c ∈ s.categories, c.id=data.p4xCategoryId) (.http 422 "Kategorie existiert nicht.")

section Writes
variable (lower : PyText → PyText)

/-- The nightly rebuild. -/
def applyAllCategoryFilters (s : Store) (truncateFirst : Bool := false) : Except OpError Store :=
  commit (applyAllCategoryFiltersCore lower s truncateFirst)

def createCategoryFilter (s : Store) (data : CategoryFilterSaveRequest) : Except OpError Store := do
  validateCategoryFilterInput s data
  guardError (∀ f ∈ s.filters, f.name ≠ data.name) (.http 409 "Name muss eindeutig sein.")
  commit (applyAllCategoryFiltersCore lower
    { s with filters := s.filters ++ [data.toRow s.nextUuid], nextUuid := s.nextUuid+1 })

def updateCategoryFilter (s : Store) (categoryFilter : P4xCategoryFilter)
    (data : CategoryFilterSaveRequest) : Except OpError Store := do
  validateCategoryFilterInput s data
  guardError (∀ f ∈ s.filters, f.name=data.name → f.id=categoryFilter.id)
    (.http 409 "Name muss eindeutig sein.")
  commit (applyAllCategoryFiltersCore lower
    { s with filters := s.filters.map fun f =>
        if f.id=categoryFilter.id then data.toRow f.id else f })

def deleteHitsOf (s : Store) (categoryFilter : P4xCategoryFilter) : Store :=
  { s with filterHits := s.filterHits.filter fun h => h.p4xCategoryFilterId ≠ categoryFilter.id }

def deleteCategoryFilter (s : Store) (categoryFilter : P4xCategoryFilter) : Except OpError Store :=
  commit { deleteHitsOf s categoryFilter with
    filters := s.filters.filter fun f => f.id ≠ categoryFilter.id }

/-- The amount of a slot: missing or zero, a decimal, or not a number. -/
inductive SlotAmount
  | falsy
  | decimal (value : ℚ)
  | invalid

/-- `Decimal(str(amount))`. -/
def SlotAmount.toDecimal : SlotAmount → Except OpError ℚ
  | .falsy | .invalid => .error .invalidDecimal
  | .decimal value => .ok value

/-- A stored amount; zero is falsy. -/
def SlotAmount.ofNumeric (c : Cents) : SlotAmount :=
  if c=0 then .falsy else .decimal ((c : ℚ)/100)

structure Slot where
  p4xCategoryId : Option Uuid
  amount : SlotAmount

/-- The slots with a category and an amount. -/
def validSlots (slots : List Slot) : List (Uuid × SlotAmount) :=
  slots.filterMap fun slot =>
    match slot.p4xCategoryId,slot.amount with
    | none,_ | _,.falsy => none
    | some categoryId,amount => some (categoryId,amount)

def slotDecimal (slot : Uuid × SlotAmount) : Except OpError (Uuid × ℚ) := do
  return (slot.1,← slot.2.toDecimal)

def setAsideDirect (now : Timestamp) (txId : Uuid) (d : P4xCategoryDirect) : P4xCategoryDirect :=
  if d.p4xTransactionId=txId ∧ d.active=true then { d with deletedAt := some now } else d

def newDirect (txId : Uuid) (value : Uuid × ℚ) : P4xCategoryDirect :=
  ⟨txId,value.1,toNumeric value.2,none⟩

/-- Set the active directs of a transaction aside and add the given ones. -/
def replaceDirects (s : Store) (now : Timestamp) (txId : Uuid) (values : List (Uuid × ℚ)) : Store :=
  { s with directs := s.directs.map (setAsideDirect now txId) ++ values.map (newDirect txId) }

/-- The message is the refusal of slots that do not add up; they change nothing. -/
def setCategoryDirectCore (s : Store) (now : Timestamp) (t : P4xTransaction) (slots : List Slot) :
    Except OpError (Option String × Store) := do
  let values ← (validSlots slots).mapM slotDecimal
  if values ≠ [] ∧ (t.amount : ℚ)/100 ≠ decimalSum (values.map (·.2)) then
    return (some "Summe der Beträge stimmt nicht mit dem Transaktionsbetrag überein.",s)
  else
    return (none,refreshTransactionHits lower (replaceDirects s now t.id values) t.id (values ≠ []))

def setCategoryDirect (s : Store) (now : Timestamp) (t : P4xTransaction) (slots : List Slot) :
    Except OpError Store := do
  let (error,s) ← setCategoryDirectCore lower s now t slots
  match error with
  | some message => throw (.refused message)
  | none => commit s

def unsetCategoryDirect (s : Store) (now : Timestamp) (t : P4xTransaction) : Except OpError Store :=
  commit (refreshTransactionHits lower (replaceDirects s now t.id []) t.id false)

/-- The active transactions whose IBAN no live partner has; a null among the IBANs makes the
database's comparison unknown, and no transaction is shown. -/
def getWarningsPartner (s : Store) : List P4xTransaction × ℕ :=
  let partnerIbans := (s.partners.filter P4xPartner.active).map (·.iban)
  let rows := s.transactions.filter fun t => t.active &&
    (partnerIbans=[] || (some t.iban ∉ partnerIbans && none ∉ partnerIbans))
  (sortBy (fun t => OrderDual.toDual t.booking) rows,rows.length)

def hitCount (s : Store) (txId : Uuid) : ℕ := s.filterHits.countP fun h => h.p4xTransactionId=txId

/-- The active transactions without directs that not exactly one filter hits. -/
def getWarningsCategory (s : Store) : List P4xTransaction × ℕ :=
  let warnings := s.transactions.filter fun t => t.active && t.id ∉ txWithDirects s &&
    hitCount s t.id ≠ 1
  (sortBy (fun t => OrderDual.toDual t.booking) warnings,warnings.length)

def getFilterHits (s : Store) (categoryFilter : P4xCategoryFilter) : List P4xTransaction :=
  let hitTxIds := (s.filterHits.filter fun h => h.p4xCategoryFilterId=categoryFilter.id).map
    (·.p4xTransactionId)
  let validIds := hitTxIds.filter fun txId => txId ∉ txWithDirects s
  if validIds=[] then [] else s.transactions.filter fun t => t.id ∈ validIds && t.active

/-- One round of the conversion; a refusal of the amount is not looked at. -/
def convertHit (now : Timestamp) (categoryFilter : P4xCategoryFilter) (s : Store)
    (t : P4xTransaction) : Except OpError Store := do
  let (_,s) ← setCategoryDirectCore lower s now t
    [⟨some categoryFilter.p4xCategoryId,SlotAmount.ofNumeric t.amount⟩]
  return s

/-- Convert filter hits to direct assignments. -/
def filterToDirect (s : Store) (now : Timestamp) (categoryFilter : P4xCategoryFilter) :
    Except OpError Store := do
  if (getWarningsPartner s).2+(getWarningsCategory s).2 > 0 then
    throw (.refused "Es gibt noch offene Warnungen. Bitte zuerst alle Warnungen beheben.")
  else
    let s ← (getFilterHits s categoryFilter).foldlM (convertHit lower now categoryFilter) s
    commit (deleteHitsOf s categoryFilter)

end Writes

lemma commit_eq_ok {s s' : Store} (h : commit s=.ok s') : s'=s ∧ DbConstraints s := by
  unfold commit at h
  split_ifs at h with hvalid
  cases h
  exact ⟨rfl,hvalid⟩

end VbApi.P4x
