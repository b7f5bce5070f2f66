import VbApi.Foundations.Decimal
import VbApi.Foundations.DecimalText
import VbApi.P4x.Import

/-! The parser of a George bank export. What `json.loads` makes of the text, and the text that `str`
makes of a float or a container, are parameters. -/
namespace VbApi.P4x
open VbApi.Foundations

/-- A value that `json.loads` yields; a float is known by its `repr`. -/
inductive JsonValue
  | null
  | bool (b : Bool)
  | int (n : ℤ)
  | float (repr : JsonText)
  | str (s : JsonText)
  | list (items : List JsonValue)
  | dict (entries : List (JsonText × JsonValue))

namespace JsonValue

def isDict : JsonValue → Bool
  | .dict _ => true
  | _ => false

/-- `node.get(key)`. -/
def get? (node : JsonValue) (key : String) : Option JsonValue :=
  match node with
  | .dict entries => (entries.find? fun e => e.1.codes=text key).map (·.2)
  | _ => none

/-- `node[key] = value` for a key that is there. -/
def set (node : JsonValue) (key : String) (value : JsonValue) : JsonValue :=
  match node with
  | .dict entries => .dict (entries.map fun e => if e.1.codes=text key then (e.1,value) else e)
  | _ => node

/-- `bool(value)`. -/
def truthy : JsonValue → Bool
  | .null => false
  | .bool b => b
  | .int n => n ≠ 0
  | .float repr => repr.codes ≠ text "0.0" && repr.codes ≠ text "-0.0"
  | .str s => s.codes ≠ []
  | .list items => !items.isEmpty
  | .dict entries => !entries.isEmpty

end JsonValue

lemma isAscii_intText (n : ℤ) : IsAscii ((if n < 0 then text "-" else []) ++ padded 1 n.natAbs) := by
  refine IsAscii.append ?_ (isAscii_padded _ _)
  split_ifs <;> decide

/-- `str(n)`. -/
def intText (n : ℤ) : JsonText :=
  ⟨(if n < 0 then text "-" else []) ++ padded 1 n.natAbs,(isAscii_intText n).merged⟩

/-! ### Numbers -/

def splitSign (s : PyText) : Bool × PyText :=
  match s with
  | c::r => if c=codePoint '-' then (true,r) else if c=codePoint '+' then (false,r) else (false,s)
  | [] => (false,s)

def isDigit (c : CodePoint) : Bool := (digit? c).isSome

/-- `int(text)` without blanks: single underscores may stand between digits. -/
def intOfText (s : PyText) : Option ℤ :=
  let (negative,rest) := splitSign s
  let digits := rest.filter (· ≠ codePoint '_')
  if (rest.splitOnP (· = codePoint '_')).all (fun g => g ≠ [] && g.all isDigit) ∧
      digits.length ≤ 4300 then
    some (if negative then -(decimalValue digits : ℤ) else decimalValue digits)
  else none

/-- A finite `Decimal`. -/
structure DecimalNumber where
  negative : Bool
  coefficient : ℕ
  exponent : ℤ
  deriving DecidableEq, Repr

def DecimalNumber.value (d : DecimalNumber) : ℚ :=
  (if d.negative then -1 else 1)*d.coefficient*10^d.exponent

/-- The smallest exponent that a `Decimal` can have. -/
def minEtiny : ℤ := -1999999999999999997

/-- The largest exponent that its first digit can have. -/
def maxEmax : ℤ := 999999999999999999

def exponentOfText (s : PyText) : Option ℤ :=
  match s with
  | [] => some 0
  | c::r =>
    if c=codePoint 'e' ∨ c=codePoint 'E' then
      let (negative,digits) := splitSign r
      if digits ≠ [] ∧ digits.all isDigit then
        some (if negative then -(decimalValue digits : ℤ) else decimalValue digits)
      else none
    else none

/-- `Decimal(text)` without blanks, when it is finite. Underscores are dropped. -/
def decimalOfText (s : PyText) : Option DecimalNumber :=
  let (negative,rest) := splitSign (s.filter (· ≠ codePoint '_'))
  let whole := rest.takeWhile isDigit
  let rest := rest.dropWhile isDigit
  let (fraction,rest) := match rest with
    | c::r => if c=codePoint '.' then (r.takeWhile isDigit,r.dropWhile isDigit) else ([],rest)
    | [] => ([],rest)
  if whole ++ fraction=[] then none
  else do
    let exponent ← exponentOfText rest
    let d : DecimalNumber := ⟨negative,decimalValue (whole ++ fraction),exponent-fraction.length⟩
    let digits := (padded 1 d.coefficient).length
    if minEtiny ≤ d.exponent ∧ d.exponent+digits ≤ maxEmax+1 then some d else none

/-! ### Entries -/

/-- Why an entry cannot be read. -/
inductive CorruptEntry
  | notAnObject
  | missingField (path : List String)
  | invalidField (name : String)
  | missingReference
  deriving DecidableEq, Repr

def CorruptEntry.message : CorruptEntry → String
  | .notAnObject => "entry is not an object"
  | .missingField path => "missing field: " ++ ".".intercalate path
  | .invalidField name => "invalid field: " ++ name
  | .missingReference => "missing field: reference or receiverReference"

structure ParsedTransactionEntry where
  payload : ParsedTransactionPayload
  raw : String

/-- The value of a key, or an error that names the whole path. -/
def child (path : List String) (node : JsonValue) (key : String) : Except CorruptEntry JsonValue :=
  match node.get? key with
  | some value => .ok value
  | none => .error (.missingField path)

def field (struct : JsonValue) (path : List String) : Except CorruptEntry JsonValue :=
  path.foldlM (child path) struct

def maxPrecision : ℤ := 9

def maxAbsoluteAmount : ℚ := 10^10

section Parser
variable (reprOf : JsonValue → JsonText) (dumps : JsonValue → String)
variable (loads : PyText → Option JsonValue)

/-- `str(value)`. -/
def strOf (value : JsonValue) : JsonText :=
  match value with
  | .null => ⟨text "None",by decide⟩
  | .bool true => ⟨text "True",by decide⟩
  | .bool false => ⟨text "False",by decide⟩
  | .int n => intText n
  | .float repr => repr
  | .str s => s
  | .list _ => reprOf value
  | .dict _ => reprOf value

def stripped (value : JsonValue) : PyText := (strOf reprOf value).strip.codes

/-- The amount as it is written with two decimals. -/
def parseAmount (value precision : JsonValue) : Except CorruptEntry AmountText :=
  match intOfText (stripped reprOf precision) with
  | none => .error (.invalidField "amount.precision")
  | some exponent =>
    if ¬ (0 ≤ exponent ∧ exponent ≤ maxPrecision) then .error (.invalidField "amount.precision")
    else
      match decimalOfText (stripped reprOf value) with
      | none => .error (.invalidField "amount.value")
      | some d =>
        let amount := roundToContext (d.value/10^exponent)
        if maxAbsoluteAmount ≤ |amount| then .error (.invalidField "amount.value")
        else .ok ⟨d.negative,(roundHalfEven (|amount| * 100)).toNat⟩

def bookingDate (struct : JsonValue) (name : String) : Except CorruptEntry Date := do
  let value ← field struct [name]
  match Date.fromIsoformat ((stripped reprOf value).take 10) with
  | .ok d => .ok d
  | .error _ => .error (.invalidField name)

/-- `str(struct.get(key) or "")`. -/
def reference (struct : JsonValue) (key : String) : JsonText :=
  match struct.get? key with
  | some value => if value.truthy then strOf reprOf value else ⟨[],trivial⟩
  | none => ⟨[],trivial⟩

/-- The longer of the two reference fields. -/
def subjectOf (struct : JsonValue) : JsonText :=
  let ref := reference reprOf struct "reference"
  let recv := reference reprOf struct "receiverReference"
  (if recv.codes.length < ref.codes.length then ref else recv).strip

/-- An entry without a counter account object gets one without an IBAN. -/
def withPartnerAccount (struct account : JsonValue) : JsonValue :=
  if account.isDict then struct
  else struct.set "partnerAccount" (.dict [(⟨text "iban",by decide⟩,.str ⟨[],trivial⟩)])

def parseEntry (struct : JsonValue) : Except CorruptEntry ParsedTransactionEntry := do
  guardError (struct.isDict=true) .notAnObject
  let booking ← bookingDate reprOf struct "booking"
  let valuation ← bookingDate reprOf struct "valuation"
  let entry := withPartnerAccount struct (← field struct ["partnerAccount"])
  let iban := (strOf reprOf (← field entry ["partnerAccount","iban"])).strip
  let _ ← field entry ["amount"]
  let amount ← parseAmount reprOf (← field entry ["amount","value"])
    (← field entry ["amount","precision"])
  guardError ((entry.get? "reference").isSome ∨ (entry.get? "receiverReference").isSome)
    .missingReference
  return ⟨⟨some booking,some valuation,some iban,some amount,some (subjectOf reprOf entry)⟩,dumps entry⟩

inductive ParseFailure
  | noParser (bic : PyText)
  | notJson
  | corrupt (e : CorruptEntry)

def ParseFailure.message : ParseFailure → PyText
  | .noParser bic => text "No parser method found for BIC " ++ bic
  | .notJson => text "failed to parse given raw json data"
  | .corrupt e => text "given data contains at least one corrupt entry: " ++ text e.message

def georgeBic : PyText := text "GIBAATWWXXX"

/-- The list that an export holds. -/
def originalStructs (rawJson : PyText) : Option (List JsonValue) :=
  match loads rawJson with
  | some (.list structs) => some structs
  | _ => none

def parseGeorgeJson (bic rawJson : PyText) : Except ParseFailure (List ParsedTransactionEntry) :=
  if bic ≠ georgeBic then .error (.noParser bic)
  else
    match originalStructs loads rawJson with
    | none => .error .notJson
    | some structs =>
      match structs.mapM (parseEntry reprOf dumps) with
      | .error e => .error (.corrupt e)
      | .ok entries => .ok entries

/-- `str(orig_struct.get(key, ""))`. -/
def originalText (struct : JsonValue) (key : String) : PyText :=
  match struct.get? key with
  | some value => (strOf reprOf value).codes
  | none => []

def importEntryOf (entry : ParsedTransactionEntry) (struct : JsonValue) : ImportEntry where
  payload := entry.payload
  raw := entry.raw
  originalBooking := originalText reprOf struct "booking"
  originalValuation := originalText reprOf struct "valuation"

/-- What `run_george_import` hands to the import: the parsed entries beside the entries of the
text. -/
def georgeEntries (bic rawJson : PyText) : Except ParseFailure (List ImportEntry) := do
  let parsed ← parseGeorgeJson reprOf dumps loads bic rawJson
  return List.zipWith (importEntryOf reprOf) parsed ((originalStructs loads rawJson).getD [])

end Parser
end VbApi.P4x
