import VbApi.Foundations.Dict
import VbApi.Foundations.Calendar
import VbApi.Foundations.PyText
import VbApi.Standesdb.ChangeRequests

/-! The rows of the member directory: members with their roles, badges and keys, change requests,
the change log and the history of role assignments. -/
namespace VbApi.Members
open VbApi.Foundations
open VbApi.Standesdb (Uuid Timestamp SelfServiceField Decision FieldDecisions RequestStatus)

abbrev RoleId := PyText

/-- The nullable text columns that a save writes. -/
inductive TextField
  | vortitel | vorname | nachname | nachnameGeburt | nachtitel | couleurname | orgId | stateId
  | grabadresse | email | url | mkvOgvUrl | rufnummerMobil | rufnummerPrivat | rufnummerBeruf
  | adressePrivatAnschrift | adressePrivatPlz | adressePrivatOrt | adressePrivatLand
  | adresseBerufAnschrift | adresseBerufPlz | adresseBerufOrt | adresseBerufLand
  | arbeitgeber | taetigkeit | mitgliedschaften | verbandchargen | anmerkungen
  deriving DecidableEq, Repr

inductive FlagField
  | gruender | entlassen | verstorben | chroniclemail | authLocked
  deriving DecidableEq, Repr

/-- The dates of a life; each has an accuracy. -/
inductive DateField
  | geburtsdatum | aufnahmedatum | branderdatum | burschungsdatum | philistrierungsdatum
  | entlassungsdatum | sterbedatum
  deriving DecidableEq, Repr

inductive MemberDeliveryPreference
  | deaktiviert | adressePrivat | adresseBeruf
  deriving DecidableEq, Repr

def MemberDeliveryPreference.value : MemberDeliveryPreference → PyText
  | .deaktiviert => text "deaktiviert"
  | .adressePrivat => text "adresse_privat"
  | .adresseBeruf => text "adresse_beruf"

/-- A field of `MemberSaveRequest` with a column of its own. -/
inductive Field
  | text (f : TextField)
  | flag (f : FlagField)
  | date (f : DateField)
  | accuracy (f : DateField)
  | parentId
  | zustellungen
  deriving DecidableEq, Repr

/-- The fields in the order in which `MemberSaveRequest` declares them. -/
def Field.all : List Field :=
  [.text .vortitel,.text .vorname,.text .nachname,.text .nachnameGeburt,.text .nachtitel,
    .text .couleurname,.text .orgId,.text .stateId,.flag .gruender,.flag .entlassen,
    .flag .verstorben,.parentId,.text .grabadresse,
    .date .geburtsdatum,.accuracy .geburtsdatum,.date .aufnahmedatum,.accuracy .aufnahmedatum,
    .date .branderdatum,.accuracy .branderdatum,.date .burschungsdatum,.accuracy .burschungsdatum,
    .date .philistrierungsdatum,.accuracy .philistrierungsdatum,
    .date .entlassungsdatum,.accuracy .entlassungsdatum,.date .sterbedatum,.accuracy .sterbedatum,
    .text .email,.text .url,.text .mkvOgvUrl,.text .rufnummerMobil,.text .rufnummerPrivat,
    .text .rufnummerBeruf,.zustellungen,
    .text .adressePrivatAnschrift,.text .adressePrivatPlz,.text .adressePrivatOrt,
    .text .adressePrivatLand,.text .adresseBerufAnschrift,.text .adresseBerufPlz,
    .text .adresseBerufOrt,.text .adresseBerufLand,.text .arbeitgeber,.text .taetigkeit,
    .text .mitgliedschaften,.text .verbandchargen,.text .anmerkungen,
    .flag .chroniclemail,.flag .authLocked]

lemma Field.mem_all (f : Field) : f ∈ all := by
  cases f with
  | text f => cases f <;> decide
  | flag f => cases f <;> decide
  | date f => cases f <;> decide
  | accuracy f => cases f <;> decide
  | parentId => decide
  | zustellungen => decide

/-- The values of these fields, of a member or of an input. -/
structure Columns where
  text : TextField → Option PyText
  flag : FlagField → Bool
  date : DateField → Option Date
  accuracy : DateField → Option ℤ
  parentId : Option Uuid
  zustellungen : Option MemberDeliveryPreference

/-- A value as the change log compares it. An enumeration is its text. -/
inductive FieldValue
  | none
  | bool (b : Bool)
  | int (n : ℤ)
  | text (s : PyText)
  | date (d : Date)
  | uuid (id : Uuid)
  deriving DecidableEq

namespace FieldValue

def ofText : Option PyText → FieldValue
  | some s => .text s
  | .none => .none

def ofDate : Option Date → FieldValue
  | some d => .date d
  | .none => .none

def ofInt : Option ℤ → FieldValue
  | some n => .int n
  | .none => .none

def ofUuid : Option Uuid → FieldValue
  | some id => .uuid id
  | .none => .none

def ofDelivery : Option MemberDeliveryPreference → FieldValue
  | some p => .text p.value
  | .none => .none

end FieldValue

/-- `getattr(member, field)`. -/
def Columns.get (c : Columns) : Field → FieldValue
  | .text f => .ofText (c.text f)
  | .flag f => .bool (c.flag f)
  | .date f => .ofDate (c.date f)
  | .accuracy f => .ofInt (c.accuracy f)
  | .parentId => .ofUuid c.parentId
  | .zustellungen => .ofDelivery c.zustellungen

/-- A row of `members_roles` without its member. -/
structure RoleEntry where
  roleId : RoleId
  startdate : Date
  enddate : Option Date
  deriving DecidableEq

/-- A row of `badges_members` or `members_keys` without its member. -/
structure Presentation where
  id : Uuid
  presentationdate : Option Date
  presentationdateAccuracy : Option ℤ
  deriving DecidableEq

/-- The columns of a member that no modelled operation writes. -/
structure OtherColumns where
  p4xInitDate : Option Date
  p4xInitBalance : Option ℤ
  p4xFreed : Option Bool
  p4xComment : Option PyText
  authLastloginProvider : Option PyText
  authLastlogin : Option Timestamp
  authLastsignal : Option Timestamp
  authLastlogout : Option Timestamp
  createdAt : Timestamp
  deriving DecidableEq

/-- A row of `members` with the rows of the tables that belong to it. -/
structure Member where
  columns : Columns
  emailVerifiedAt : Option Timestamp
  authPassword : Option PyText
  modifiedAt : Option Timestamp
  modifiedBy : Option Uuid
  updatedAt : Option Timestamp
  other : OtherColumns
  memberRoles : List RoleEntry
  memberBadges : List Presentation
  memberKeys : List Presentation

/-- What a change request keeps of a field, as JSON: a text or null. -/
structure ProposedChange where
  old : Option PyText
  new : Option PyText
  deriving DecidableEq

abbrev ProposedData := SelfServiceField → Option ProposedChange

structure MemberChangeRequest where
  memberId : Uuid
  status : RequestStatus
  proposedData : ProposedData
  fieldDecisions : Option FieldDecisions
  resolvedBy : Option Uuid
  resolvedAt : Option Timestamp
  updatedAt : Timestamp

inductive ChangeLogAction
  | create
  | update
  deriving DecidableEq

/-- What differs after a save: a column, or one of the lists. -/
inductive LogKey
  | field (f : Field)
  | badges
  | keys
  | rolesHistory
  deriving DecidableEq

/-- A logged value, before it is serialised. -/
inductive LogValue
  | value (v : FieldValue)
  | presentations (ps : List Presentation)
  | roles (rs : List RoleEntry)
  deriving DecidableEq

structure LogChange where
  old : LogValue
  new : LogValue
  deriving DecidableEq

abbrev Diff := List (LogKey × LogChange)

structure MembersLog where
  memberId : Uuid
  action : ChangeLogAction
  key : LogKey
  change : LogChange
  modifiedBy : Uuid
  modifiedAt : Timestamp
  deriving DecidableEq

inductive RoleAssignmentAction
  | granted
  | revoked
  | periodChanged
  deriving DecidableEq

structure RoleChange where
  action : RoleAssignmentAction
  entry : RoleEntry
  previousEnddate : Option Date
  deriving DecidableEq

structure RoleAssignmentEvent where
  memberId : Uuid
  change : RoleChange
  actorId : Uuid
  deriving DecidableEq

/-- A row of `roles`. -/
structure Role where
  id : RoleId
  group : Option PyText
  label : Option PyText
  deriving DecidableEq

/-- The tables; logs and events are listed in the order in which they were added. -/
structure Database where
  members : Dict Uuid Member
  changeRequests : Dict Uuid MemberChangeRequest
  membersLog : List MembersLog
  roleEvents : List RoleAssignmentEvent
  roles : List Role
  stateIds : List PyText
  badgeIds : List Uuid
  keyIds : List Uuid
  /-- `uuidv7()`: every new row gets an id of its own. -/
  nextUuid : Uuid

/-- The values the database gives a new row by itself. -/
def Columns.default : Columns where
  text _ := none
  flag f := f=.authLocked
  date _ := none
  accuracy _ := some 0
  parentId := none
  zustellungen := some .deaktiviert

end VbApi.Members
