import VbApi.Foundations.Interleaving
import Mathlib.Data.Fintype.Pi

/-! Change requests of members to their own record, and their resolution by an administrator. Each
service call takes several atomic steps on committed rows; a row lock makes a writer wait. -/
namespace VbApi.Standesdb
open VbApi.Foundations

abbrev Uuid := ℕ
abbrev Timestamp := ℕ

/-- The fields that a member may propose to change. -/
inductive SelfServiceField
  | vortitel | vorname | nachname | nachnameGeburt | nachtitel | couleurname
  | email | url | mkvOgvUrl | rufnummerMobil | rufnummerPrivat | rufnummerBeruf | zustellungen
  | adressePrivatAnschrift | adressePrivatPlz | adressePrivatOrt | adressePrivatLand
  | adresseBerufAnschrift | adresseBerufPlz | adresseBerufOrt | adresseBerufLand
  | arbeitgeber | taetigkeit | mitgliedschaften | verbandchargen
  deriving DecidableEq, Repr

instance : Fintype SelfServiceField :=
  Fintype.ofList [.vortitel,.vorname,.nachname,.nachnameGeburt,.nachtitel,.couleurname,.email,.url,
    .mkvOgvUrl,.rufnummerMobil,.rufnummerPrivat,.rufnummerBeruf,.zustellungen,
    .adressePrivatAnschrift,.adressePrivatPlz,.adressePrivatOrt,.adressePrivatLand,
    .adresseBerufAnschrift,.adresseBerufPlz,.adresseBerufOrt,.adresseBerufLand,.arbeitgeber,
    .taetigkeit,.mitgliedschaften,.verbandchargen] fun f => by cases f <;> decide

abbrev Value := Option String

abbrev SelfServiceValues := SelfServiceField → Value

/-- The live values of a member, and whether it is `entlassen` or `verstorben`. -/
structure MemberRecord where
  values : SelfServiceValues
  departed : Bool

structure Change where
  old : Value
  new : Value
  deriving DecidableEq

abbrev ProposedData := SelfServiceField → Option Change

inductive Decision
  | approved
  | rejected
  deriving DecidableEq

abbrev FieldDecisions := SelfServiceField → Option Decision

inductive RequestStatus
  | pending
  | resolved
  deriving DecidableEq

structure MemberChangeRequest where
  id : Uuid
  memberId : Uuid
  status : RequestStatus
  proposedData : ProposedData
  fieldDecisions : Option FieldDecisions
  updatedAt : Timestamp
  deriving DecidableEq

def isEmptyValue (v : Value) : Bool := v=none || v=some "" || v=some "deaktiviert"

def valuesDiffer (old new : Value) : Bool := old ≠ new && !(isEmptyValue old && isEmptyValue new)

/-- The fields in which a proposal differs from the live values. -/
def diffOf (live proposed : SelfServiceValues) : ProposedData := fun f =>
  if valuesDiffer (live f) (proposed f) then some ⟨live f,proposed f⟩ else none

def noChange : ProposedData := fun _ => none

/-- A state of a request's row that could be read: what was proposed when. -/
structure Version where
  requestId : Uuid
  updatedAt : Timestamp
  proposedData : ProposedData

/-- What a resolution wrote to its member. -/
structure Resolution where
  requestId : Uuid
  expectedUpdatedAt : Timestamp
  fieldDecisions : FieldDecisions
  member : MemberRecord
  written : SelfServiceField → Option Value

/-- A submission that left its proposal in a request, or withdrew the request. -/
structure Submission where
  memberId : Uuid
  requestId : Uuid
  proposedData : Option ProposedData

/-- The committed rows and the row locks. The last three fields record what happened, the newest
first; no step reads them. -/
structure ChangeRequests where
  rows : List MemberChangeRequest
  live : Uuid → MemberRecord
  lockedBy : Uuid → Option ClientId
  /-- `clock_timestamp()`; every write has its own moment. -/
  clock : Timestamp
  nextUuid : Uuid
  versions : List Version
  resolutions : List Resolution
  submissions : List Submission

inductive Place
  | idle
  /-- `submit_change_request`: the proposal is compared; next the pending request. -/
  | selectPending (memberId : Uuid) (data : ProposedData)
  /-- `submit_change_request`: next the write and its commit. -/
  | write (memberId : Uuid) (data : ProposedData) (existing : Option MemberChangeRequest)
  /-- `decide_change_request`: the row is locked and loaded with its member. -/
  | resolve (request : MemberChangeRequest) (member : MemberRecord) (decisions : FieldDecisions)
    (expectedUpdatedAt : Timestamp)

/-- A call begins or goes on; `valid` tells whether the checks of the permission and of the merged
record pass. Any other save of a member is one step. -/
inductive Input
  | submitChangeRequest (memberId : Uuid) (proposed : SelfServiceValues)
  | decideChangeRequest (requestId : Uuid) (decisions : FieldDecisions)
    (expectedUpdatedAt : Timestamp)
  | saveMember (memberId : Uuid) (member : MemberRecord)
  | next (valid : Bool)

/-- `_build_current_full_request_dict`: no delivery preference is read as `deaktiviert`. -/
def currentFull (member : MemberRecord) : SelfServiceValues := fun f =>
  if f=.zustellungen ∧ member.values f=none then some "deaktiviert" else member.values f

/-- `apply_member_input`: whoever has left or died gets nothing delivered. -/
def normalised (departed : Bool) (values : SelfServiceValues) : SelfServiceValues := fun f =>
  if f=.zustellungen ∧ departed then some "deaktiviert" else values f

/-- The values that are saved: the approved ones over the current ones. -/
def savedValues (data : ProposedData) (member : MemberRecord) (decisions : FieldDecisions) :
    SelfServiceValues :=
  normalised member.departed fun f =>
    match decisions f,data f with
    | some .approved,some change => change.new
    | _,_ => currentFull member f

/-- The values that the save changes. -/
def writtenValues (data : ProposedData) (member : MemberRecord) (decisions : FieldDecisions) :
    SelfServiceField → Option Value := fun f =>
  let saved := savedValues data member decisions f
  if saved=member.values f then none else some saved

namespace ChangeRequests

def getOwnPendingRequest (s : ChangeRequests) (memberId : Uuid) : Option MemberChangeRequest :=
  s.rows.find? fun r => r.memberId=memberId && r.status=.pending

/-- A row with the id is there. -/
def hasRow (s : ChangeRequests) (id : Uuid) : Prop := ∃ r ∈ s.rows, r.id=id

instance (s : ChangeRequests) (id : Uuid) : Decidable (s.hasRow id) :=
  inferInstanceAs (Decidable (∃ r ∈ s.rows, _))

def insertRequest (s : ChangeRequests) (memberId : Uuid) (data : ProposedData) : ChangeRequests :=
  { s with
    rows := s.rows ++ [⟨s.nextUuid,memberId,.pending,data,none,s.clock⟩]
    clock := s.clock+1
    nextUuid := s.nextUuid+1
    versions := ⟨s.nextUuid,s.clock,data⟩::s.versions
    submissions := ⟨memberId,s.nextUuid,some data⟩::s.submissions }

/-- `UPDATE ... SET proposed_data`: by the id alone, whatever the status is by now. -/
def updateRequest (s : ChangeRequests) (memberId id : Uuid) (data : ProposedData) : ChangeRequests :=
  { s with
    rows := s.rows.map fun r => if r.id=id then { r with proposedData := data, updatedAt := s.clock } else r
    clock := s.clock+1
    versions := ⟨id,s.clock,data⟩::s.versions
    submissions := ⟨memberId,id,some data⟩::s.submissions }

/-- Unchanged data write nothing. -/
def keepRequest (s : ChangeRequests) (memberId id : Uuid) (data : ProposedData) : ChangeRequests :=
  { s with submissions := ⟨memberId,id,some data⟩::s.submissions }

/-- `DELETE`: by the id alone, whatever the status is by now. -/
def deleteRequest (s : ChangeRequests) (memberId id : Uuid) : ChangeRequests :=
  { s with
    rows := s.rows.filter fun r => r.id ≠ id
    submissions := ⟨memberId,id,none⟩::s.submissions }

def lockRow (s : ChangeRequests) (id : Uuid) (c : ClientId) : ChangeRequests :=
  { s with lockedBy := Function.update s.lockedBy id (some c) }

def unlockRow (s : ChangeRequests) (id : Uuid) : ChangeRequests :=
  { s with lockedBy := Function.update s.lockedBy id none }

/-- The member's record and the request in one transaction. -/
def applyResolution (s : ChangeRequests) (request : MemberChangeRequest) (member : MemberRecord)
    (decisions : FieldDecisions) (expectedUpdatedAt : Timestamp) : ChangeRequests :=
  let written := writtenValues request.proposedData member decisions
  { s with
    rows := s.rows.map fun r =>
      if r.id=request.id then
        { r with status := .resolved, fieldDecisions := some decisions, updatedAt := s.clock }
      else r
    live := Function.update s.live request.memberId
      { s.live request.memberId with
        values := fun f => (written f).getD ((s.live request.memberId).values f) }
    clock := s.clock+1
    versions := ⟨request.id,s.clock,request.proposedData⟩::s.versions
    resolutions := ⟨request.id,expectedUpdatedAt,decisions,member,written⟩::s.resolutions }

end ChangeRequests

/-- The last step of a submission; nothing while the row that it writes is locked. A row that is
gone is not updated and the call raises; its deletion finds nothing to do. -/
def submitWrite (s : ChangeRequests) (memberId : Uuid) (data : ProposedData) :
    Option MemberChangeRequest → Option ChangeRequests
  | none =>
    if data=noChange then some s
    -- at most one pending request per member
    else if (s.getOwnPendingRequest memberId).isSome then some s
    else some (s.insertRequest memberId data)
  | some existing =>
    if data=noChange then
      if (s.lockedBy existing.id).isSome then none
      else some (if s.hasRow existing.id then s.deleteRequest memberId existing.id else s)
    else if data=existing.proposedData then
      some (if s.hasRow existing.id then s.keepRequest memberId existing.id data else s)
    else if (s.lockedBy existing.id).isSome then none
    else some (if s.hasRow existing.id then s.updateRequest memberId existing.id data else s)

/-- The row and its member, once no one else has the row locked. -/
def getChangeRequestForUpdate (s : ChangeRequests) (c : ClientId) (requestId : Uuid)
    (decisions : FieldDecisions) (expectedUpdatedAt : Timestamp) : Option (ChangeRequests × Place) :=
  match s.rows.find? fun r => r.id=requestId with
  | none => some (s,.idle)
  | some request =>
    if (s.lockedBy requestId).isSome then none
    else some (s.lockRow requestId c,
      .resolve request (s.live request.memberId) decisions expectedUpdatedAt)

/-- The checks of a resolution and its commit, which releases the lock; so does a refusal. -/
def resolveChangeRequest (s : ChangeRequests) (valid : Bool) (request : MemberChangeRequest)
    (member : MemberRecord) (decisions : FieldDecisions) (expectedUpdatedAt : Timestamp) :
    ChangeRequests :=
  if request.status=.pending ∧ request.updatedAt=expectedUpdatedAt ∧
      (∀ f, (decisions f).isSome=(request.proposedData f).isSome) ∧ valid then
    (s.applyResolution request member decisions expectedUpdatedAt).unlockRow request.id
  else s.unlockRow request.id

def changeRequestProgram : Program ChangeRequests Place Input := fun c s place input =>
  match place,input with
  | .idle,.submitChangeRequest memberId proposed =>
    some (s,.selectPending memberId (diffOf (s.live memberId).values proposed))
  | .idle,.decideChangeRequest requestId decisions expectedUpdatedAt =>
    getChangeRequestForUpdate s c requestId decisions expectedUpdatedAt
  | .idle,.saveMember memberId member =>
    some ({ s with live := Function.update s.live memberId member },.idle)
  | .selectPending memberId data,.next _ =>
    some (s,.write memberId data (s.getOwnPendingRequest memberId))
  | .write memberId data existing,.next _ =>
    (submitWrite s memberId data existing).map fun s => (s,.idle)
  | .resolve request member decisions expectedUpdatedAt,.next valid =>
    some (resolveChangeRequest s valid request member decisions expectedUpdatedAt,.idle)
  | _,_ => none

end VbApi.Standesdb
