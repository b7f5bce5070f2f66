import VbApi.Foundations.UniqueIndex
import VbApi.Members.LogHistory

/-! The contacts: what a save takes in, the record, its change log and the operations. -/
namespace VbApi.Contacts
open VbApi.Foundations Transaction
open VbApi.Standesdb (Uuid Timestamp)
open VbApi.Members (FieldValue valuesDiffer fieldValueText stripWhitespace isPhone changelogExcludedKeys)

inductive ContactType
  | person
  | organisation
  deriving DecidableEq, Repr

def ContactType.value : ContactType → PyText
  | .person => text "person"
  | .organisation => text "organisation"

inductive ContactText
  | anrede | name | couleurname | orgId | adresseAnschrift | adressePlz | adresseOrt | adresseLand
  | email | rufnummer | anmerkungen
  deriving DecidableEq, Repr

/-- A field of `ContactSaveRequest`. -/
inductive ContactField
  | kontakttyp
  | text (f : ContactText)
  | zustellungen
  | datum
  | datumAccuracy
  deriving DecidableEq, Repr

/-- The fields in the order in which `ContactSaveRequest` declares them. -/
def ContactField.all : List ContactField :=
  [.kontakttyp,.text .anrede,.text .name,.text .couleurname,.text .orgId,.text .adresseAnschrift,
    .text .adressePlz,.text .adresseOrt,.text .adresseLand,.zustellungen,.text .email,
    .text .rufnummer,.datum,.datumAccuracy,.text .anmerkungen]

lemma ContactField.mem_all (f : ContactField) : f ∈ all := by
  cases f with
  | text f => cases f <;> decide
  | _ => decide

def ContactText.fieldName : ContactText → PyText
  | .anrede => text "anrede"
  | .name => text "name"
  | .couleurname => text "couleurname"
  | .orgId => text "org_id"
  | .adresseAnschrift => text "adresse_anschrift"
  | .adressePlz => text "adresse_plz"
  | .adresseOrt => text "adresse_ort"
  | .adresseLand => text "adresse_land"
  | .email => text "email"
  | .rufnummer => text "rufnummer"
  | .anmerkungen => text "anmerkungen"

def ContactField.name : ContactField → PyText
  | .kontakttyp => VbApi.Foundations.text "kontakttyp"
  | .text f => f.fieldName
  | .zustellungen => VbApi.Foundations.text "zustellungen"
  | .datum => VbApi.Foundations.text "datum"
  | .datumAccuracy => VbApi.Foundations.text "datum_accuracy"

/-- The values of these fields; none of them is set of a new record. -/
structure Columns where
  kontakttyp : Option ContactType
  text : ContactText → Option PyText
  zustellungen : Option Bool
  datum : Option Date
  datumAccuracy : Option ℤ

def Columns.unset : Columns := ⟨none,fun _ => none,none,none,none⟩

/-- `getattr(contact, field)`. -/
def Columns.get (c : Columns) : ContactField → FieldValue
  | .kontakttyp => .ofText (c.kontakttyp.map ContactType.value)
  | .text f => .ofText (c.text f)
  | .zustellungen => (c.zustellungen.map FieldValue.bool).getD .none
  | .datum => .ofDate c.datum
  | .datumAccuracy => .ofInt c.datumAccuracy

/-- `setattr(contact, field, data[field])`. -/
def Columns.setattr (c data : Columns) : ContactField → Columns
  | .kontakttyp => {c with kontakttyp := data.kontakttyp}
  | .text f => {c with text := Function.update c.text f (data.text f)}
  | .zustellungen => {c with zustellungen := data.zustellungen}
  | .datum => {c with datum := data.datum}
  | .datumAccuracy => {c with datumAccuracy := data.datumAccuracy}

structure Contact where
  columns : Columns
  createdAt : Timestamp
  modifiedAt : Option Timestamp
  modifiedBy : Option Uuid
  updatedAt : Option Timestamp
  deletedAt : Option Timestamp

inductive ChangeLogAction
  | create
  | update
  | delete
  deriving DecidableEq

structure ContactsLog where
  contactId : Uuid
  action : ChangeLogAction
  key : PyText
  old : Option PyText
  new : Option PyText
  modifiedBy : Uuid
  modifiedAt : Timestamp
  deriving DecidableEq

/-- The tables; the log is listed in the order in which it was written. -/
structure Tables where
  contacts : Dict Uuid Contact
  log : List ContactsLog
  nextUuid : Uuid

inductive ContactError
  /-- `HTTPException` -/
  | http (status : ℕ) (detail : PyText)
  /-- `ValidationError` with the fields at fault -/
  | validation (fields : List ContactField)
  /-- the unique index on the names refuses -/
  | nameIndex
  /-- another constraint does -/
  | integrity
  deriving DecidableEq

/-- The database's `lower`, `EmailStr`, `str` of a time, and the constraints of the database but for
the unique index on the names. -/
structure Environment where
  lower : PyText → PyText
  validateEmail : PyText → Option PyText
  timestampText : Timestamp → PyText
  accepts : Tables → Bool

/-! ### The input -/

/-- The values from which `ContactSaveRequest` is validated. -/
structure ContactInput where
  kontakttyp : ContactType
  text : ContactText → Option PyText
  zustellungen : Bool
  datum : Option Date
  datumAccuracy : ℤ

/-- `model_dump()`. -/
def ContactInput.columns (data : ContactInput) : Columns :=
  ⟨some data.kontakttyp,data.text,some data.zustellungen,data.datum,some data.datumAccuracy⟩

/-- A validated input has a name. -/
structure ContactSaveRequest extends ContactInput where
  name : PyText
  name_given : text .name=some name ∧ name ≠ []
  accuracy_range : 0 ≤ datumAccuracy ∧ datumAccuracy ≤ 3

def ContactText.maxLength : ContactText → Option ℕ
  | .name | .couleurname => some 64
  | .anrede | .adresseOrt | .adresseLand | .rufnummer => some 32
  | .adressePlz => some 8
  | .adresseAnschrift | .email => some 128
  | .anmerkungen => some 5000
  | .orgId => none

def ContactText.accepts (f : ContactText) (s : PyText) : Bool :=
  (f.maxLength.all fun n => s.length ≤ n) && (f ≠ .rufnummer || s=[] || isPhone s)

/-- The value that the validators of a text field give back. -/
def cleanText (env : Environment) (f : ContactText) : Option PyText → Option (Option PyText)
  | none => some none
  | some s =>
    let read := if f=.email then env.validateEmail (stripWhitespace s) else some (stripWhitespace s)
    match read with
    | some t => if f.accepts t then some (some t) else none
    | none => none

def cleanInput (env : Environment) (input : ContactInput) : ContactInput :=
  {input with text := fun f => (cleanText env f (input.text f)).getD none}

/-- The fields at fault. -/
def invalidFields (env : Environment) (input : ContactInput) : List ContactField :=
  ContactField.all.filter fun
    | .text f => cleanText env f (input.text f)=none ||
      (f=.name && !((cleanInput env input).text .name).any (· ≠ []))
    | .datumAccuracy => !(0 ≤ input.datumAccuracy && input.datumAccuracy ≤ 3)
    | _ => false

/-- `ContactSaveRequest.model_validate`. -/
def modelValidate (env : Environment) (input : ContactInput) :
    Except ContactError ContactSaveRequest :=
  let data := cleanInput env input
  match hname : data.text .name with
  | none => .error (.validation (invalidFields env input))
  | some name =>
    if hvalid : invalidFields env input=[] ∧ name ≠ [] ∧ 0 ≤ data.datumAccuracy ∧
        data.datumAccuracy ≤ 3 then
      .ok {
        toContactInput := data
        name := name
        name_given := ⟨hname,hvalid.2.1⟩
        accuracy_range := hvalid.2.2}
    else .error (.validation (invalidFields env input))

/-! ### The save -/

structure FieldChange where
  old : FieldValue
  new : FieldValue
  deriving DecidableEq

abbrev Diff := List (ContactField × FieldChange)

/-- One round of the loop over the fields. -/
def saveField (data : Columns) (saved : Columns × Diff) (f : ContactField) : Columns × Diff :=
  let old := saved.1.get f
  let new := data.get f
  if valuesDiffer old new then (saved.1.setattr data f,saved.2 ++ [(f,⟨old,new⟩)])
  else if old ≠ new then (saved.1.setattr data f,saved.2)
  else saved

def saveFields (c data : Columns) : Columns × Diff := ContactField.all.foldl (saveField data) (c,[])

/-- `_persist_change_log`. -/
def persistChangeLog (contactId : Uuid) (diff : Diff) (action : ChangeLogAction) (modifiedBy : Uuid)
    (modifiedAt : Timestamp) : List ContactsLog :=
  (diff.filter fun e => e.1.name ∉ changelogExcludedKeys).map fun (f,change) =>
    ⟨contactId,action,f.name,fieldValueText change.old,fieldValueText change.new,modifiedBy,modifiedAt⟩

/-- `Contact()`, with what the database gives a new row. -/
def newContact (now : Timestamp) : Contact := ⟨.unset,now,none,none,none,none⟩

/-- The value of the index `contacts_name_active_key`. -/
def nameKey (env : Environment) (c : Contact) : Option PyText :=
  if c.deletedAt.isNone then (c.columns.text .name).map env.lower else none

def putContact (contactId : Uuid) (c : Contact) (db : Tables) : Tables :=
  {db with contacts := db.contacts.set contactId c}

def addLog (entries : List ContactsLog) (db : Tables) : Tables := {db with log := db.log ++ entries}

abbrev Saving := Transaction ContactError Tables

section
variable (env : Environment)

def uniqueNames (db : Tables) : Bool := db.contacts.uniqueOn (nameKey env)

def flushSession : Saving PUnit := do
  flush (uniqueNames env) .nameIndex
  flush env.accepts .integrity

def commitSession : Saving PUnit := do
  flush (uniqueNames env) .nameIndex
  commit env.accepts .integrity

/-- The record that a save writes. -/
def savedContact (now : Timestamp) (existing : Option Contact) (columns : Columns) (userId : Uuid) :
    Contact :=
  let c := existing.getD (newContact now)
  {c with
    columns := columns
    modifiedAt := some now
    modifiedBy := some userId
    -- the trigger fires on an update only
    updatedAt := if existing.isSome then some now else c.updatedAt}

/-- `apply_contact_input`. -/
def applyContactInput (now : Timestamp) (contactId : Uuid) (existing : Option Contact)
    (data : ContactSaveRequest) (userId : Uuid) : Saving Diff := do
  let (columns,diff) := saveFields (existing.getD (newContact now)).columns data.columns
  write (putContact contactId (savedContact now existing columns userId))
  flushSession env
  let action := if existing.isNone then .create else .update
  write (addLog (persistChangeLog contactId diff action userId now))
  commitSession env
  return diff

/-- `validate_contact_uniqueness`. -/
def validateContactUniqueness (db : Tables) (name : PyText) (excludeId : Option Uuid) :
    Except ContactError Unit :=
  let other := db.contacts.find? fun id c => nameKey env c=some (env.lower name) && excludeId ≠ some id
  guardError (other=none) (.http 409 (text "Ein Kontakt mit diesem Namen existiert bereits."))

def getContactOr404 (db : Tables) (contactId : Uuid) : Except ContactError Contact :=
  match db.contacts.get? contactId with
  | some c =>
    if c.deletedAt.isSome then .error (.http 404 (text "Kontakt nicht gefunden.")) else .ok c
  | none => .error (.http 404 (text "Kontakt nicht gefunden."))

/-- The id that the database gives a new row. -/
def newId : Saving Uuid := do
  let id ← check fun db => .ok db.nextUuid
  write fun db => {db with nextUuid := db.nextUuid+1}
  return id

def createContact (now : Timestamp) (body : ContactInput) (userId : Uuid) : Saving Uuid := do
  let data ← check fun _ => modelValidate env body
  check fun db => validateContactUniqueness env db data.name none
  let contactId ← newId
  let _ ← applyContactInput env now contactId none data userId
  return contactId

def updateContact (now : Timestamp) (contactId : Uuid) (body : ContactInput) (userId : Uuid) :
    Saving Diff := do
  let data ← check fun _ => modelValidate env body
  let c ← check fun db => getContactOr404 db contactId
  check fun db => validateContactUniqueness env db data.name (some contactId)
  applyContactInput env now contactId (some c) data userId

/-- The log entry of `soft_delete_contact`. -/
def deletionEntry (now : Timestamp) (contactId userId : Uuid) : ContactsLog :=
  ⟨contactId,.delete,text "deleted_at",none,some (env.timestampText now),userId,now⟩

def softDelete (now : Timestamp) (c : Contact) (userId : Uuid) : Contact :=
  {c with deletedAt := some now,modifiedAt := some now,modifiedBy := some userId,updatedAt := some now}

def deleteContact (now : Timestamp) (contactId userId : Uuid) : Saving PUnit := do
  let c ← check fun db => getContactOr404 db contactId
  write (putContact contactId (softDelete now c userId))
  write (addLog [deletionEntry env now contactId userId])
  commitSession env

end

/-- A call with its moment, by a user with the permission for it. -/
inductive Call
  | create (now : Timestamp) (body : ContactInput) (userId : Uuid)
  | update (now : Timestamp) (contactId : Uuid) (body : ContactInput) (userId : Uuid)
  | delete (now : Timestamp) (contactId userId : Uuid)

/-- The error that a call ends with, if any, and the tables after it. -/
def runCall (env : Environment) (db : Tables) : Call → Option ContactError × Tables
  | .create now body userId => answer (run (createContact env now body userId) db)
  | .update now contactId body userId => answer (run (updateContact env now contactId body userId) db)
  | .delete now contactId userId => answer (run (deleteContact env now contactId userId) db)
where
  answer {α : Type} : Except ContactError α × Tables → Option ContactError × Tables
    | (.ok _,db) => (none,db)
    | (.error e,db) => (some e,db)

def runCalls (env : Environment) (db : Tables) (calls : List Call) : Tables :=
  calls.foldl (fun db call => (runCall env db call).2) db

/-- There is no contact yet. -/
def emptyTables (nextUuid : Uuid) : Tables := ⟨.empty,[],nextUuid⟩

end VbApi.Contacts
