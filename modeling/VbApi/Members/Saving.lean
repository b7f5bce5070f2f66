import VbApi.Members.RoleHistory
import VbApi.Foundations.Transactions

/-! `apply_member_input`: the one way in which a member's record is saved. -/
namespace VbApi.Members
open VbApi.Foundations
open VbApi.Standesdb (Uuid)

abbrev Saving := Transaction SaveError Database

/-! The rules that follow from the status. -/

/-- The member has left or died. -/
def Columns.departed (c : Columns) : Bool := c.flag .entlassen || c.flag .verstorben

/-- `not input_dict.get("email")`. -/
def hasNoEmail (c : Columns) : Bool := (c.text .email).all (· = [])

/-- Set a flag under a condition. -/
def setFlagIf (condition : Bool) (f : FlagField) (value : Bool) (flag : FlagField → Bool) :
    FlagField → Bool := if condition then Function.update flag f value else flag

/-- Whoever has left or died cannot sign in and gets nothing. -/
def lockDeparted (c : Columns) : Columns := {c with
  flag := setFlagIf c.departed .chroniclemail false (setFlagIf c.departed .authLocked true c.flag)
  zustellungen := if c.departed then some .deaktiviert else c.zustellungen}

def lockWithoutEmail (c : Columns) : Columns := {c with
  flag := setFlagIf (hasNoEmail c) .authLocked true c.flag}

/-- A date that does not apply is unknown. -/
def clearDate (applies : Bool) (f : DateField) (c : Columns) : Columns := {c with
  date := if !applies then Function.update c.date f none else c.date
  accuracy := if !applies then Function.update c.accuracy f (some 0) else c.accuracy}

def clearDismissal (c : Columns) : Columns := clearDate (c.flag .entlassen) .entlassungsdatum c

def clearDeath (c : Columns) : Columns := {clearDate (c.flag .verstorben) .sterbedatum c with
  text := if !c.flag .verstorben then Function.update c.text .grabadresse none else c.text}

/-- The normalisation of an input, in the order of the source. -/
def normalise (c : Columns) : Columns := clearDeath (clearDismissal (lockWithoutEmail (lockDeparted c)))

/-! The loop over the fields. -/

/-- `_EMPTY_VALUES`; false and zero are the same value there. -/
def isEmptyValue (v : FieldValue) : Bool :=
  v=.none || v=.bool false || v=.int 0 || v=.text [] || v=.text (text "deaktiviert")

def valuesDiffer (old new : FieldValue) : Bool :=
  if old=new then false else !(isEmptyValue old && isEmptyValue new)

/-- `getattr(member, field, None)`; a record that is not there yet has no values. -/
def getattr (existing : Option Member) (f : Field) : FieldValue :=
  match existing with
  | some m => m.columns.get f
  | none => .none

/-- `setattr(member, field, input[field])`. -/
def Columns.setattr (c input : Columns) : Field → Columns
  | .text f => {c with text := Function.update c.text f (input.text f)}
  | .flag f => {c with flag := Function.update c.flag f (input.flag f)}
  | .date f => {c with date := Function.update c.date f (input.date f)}
  | .accuracy f => {c with accuracy := Function.update c.accuracy f (input.accuracy f)}
  | .parentId => {c with parentId := input.parentId}
  | .zustellungen => {c with zustellungen := input.zustellungen}

def saveField (existing : Option Member) (input : Columns) (saved : Columns × Diff) (f : Field) :
    Columns × Diff :=
  let old := getattr existing f
  let new := input.get f
  if valuesDiffer old new then
    (saved.1.setattr input f,saved.2 ++ [(.field f,⟨.value old,.value new⟩)])
  else if old ≠ new then (saved.1.setattr input f,saved.2)
  else saved

/-- The columns before a save: what is not set of a new row is left to the database. -/
def columnsBefore (existing : Option Member) : Columns :=
  match existing with
  | some m => m.columns
  | none => .default

def saveFields (existing : Option Member) (input : Columns) : Columns × Diff :=
  Field.all.foldl (saveField existing input) (columnsBefore existing,[])

/-! The lists of a member. -/

def PresentationEntry.row (e : PresentationEntry) : Presentation :=
  ⟨e.id,e.presentationdate,some e.presentationdateAccuracy⟩

/-- A null accuracy read as 0. -/
def Presentation.known (p : Presentation) : Presentation :=
  {p with presentationdateAccuracy := some (p.presentationdateAccuracy.getD 0)}

/-- What `_sync_badges` and `_sync_keys` add to the diff. -/
def presentationsDiff (key : LogKey) (rows : List Presentation) (entries : List PresentationEntry) :
    Diff :=
  let old := sortBy (·.id) (rows.map Presentation.known)
  let new := sortBy (·.id) (entries.map PresentationEntry.row)
  if old ≠ new then [(key,⟨.presentations old,.presentations new⟩)] else []

/-- The two sorted lists that `_sync_roles` compares. -/
def sortedRoles (entries : List RoleEntry) : List RoleEntry :=
  sortBy (fun e => toLex (e.roleId,e.startdate)) entries

def rolesDiff (rows entries : List RoleEntry) : Diff :=
  if sortedRoles rows ≠ sortedRoles entries then
    [(.rolesHistory,⟨.roles (sortedRoles rows),.roles (sortedRoles entries)⟩)]
  else []

/-- `record_role_changes`. -/
def recordRoleChanges (memberId : Uuid) (before after : List RoleEntry) (actorId : Uuid) :
    List RoleAssignmentEvent :=
  (diffRoleEntries before after).map fun c => ⟨memberId,c,actorId⟩

/-- The events that `_sync_roles` adds. -/
def roleEventsOf (memberId : Uuid) (rows entries : List RoleEntry) (actorId : Uuid) :
    List RoleAssignmentEvent :=
  if sortedRoles rows ≠ sortedRoles entries then recordRoleChanges memberId rows entries actorId
  else []

/-- `_persist_change_log`; none of the keys is an excluded one. -/
def changeLogOf (memberId : Uuid) (diff : Diff) (action : ChangeLogAction) (modifiedBy : Uuid)
    (modifiedAt : VbApi.Standesdb.Timestamp) : List MembersLog :=
  diff.map fun (key,change) => ⟨memberId,action,key,change,modifiedBy,modifiedAt⟩

/-! The save. -/

/-- `Member()`, with what the database gives a new row. -/
def newMember (moment : Moment) : Member where
  columns := .default
  emailVerifiedAt := none
  authPassword := none
  modifiedAt := none
  modifiedBy := none
  updatedAt := none
  other := ⟨none,none,none,none,none,none,none,none,moment.now⟩
  memberRoles := []
  memberBadges := []
  memberKeys := []

def Member.withBadges (m : Member) (badges : List Presentation) : Member :=
  {m with memberBadges := badges}

def Member.withKeys (m : Member) (keys : List Presentation) : Member := {m with memberKeys := keys}

def Member.withRoles (m : Member) (roles : List RoleEntry) : Member := {m with memberRoles := roles}

def putMember (memberId : Uuid) (m : Member) (db : Database) : Database :=
  {db with members := db.members.set memberId m}

def addRoleEvents (events : List RoleAssignmentEvent) (db : Database) : Database :=
  {db with roleEvents := db.roleEvents ++ events}

def addChangeLog (entries : List MembersLog) (db : Database) : Database :=
  {db with membersLog := db.membersLog ++ entries}

/-- The record when its columns are set. -/
def savedRecord (moment : Moment) (existing : Option Member) (input columns : Columns)
    (userId : Uuid) : Member :=
  let m := existing.getD (newMember moment)
  let emailDiffers := getattr existing (.text .email) ≠ input.get (.text .email)
  {m with
    columns := columns
    emailVerifiedAt := if emailDiffers then none else m.emailVerifiedAt
    modifiedAt := some moment.now
    modifiedBy := some userId
    -- the trigger fires on an update only
    updatedAt := if existing.isSome then some moment.now else m.updatedAt}

section
open Transaction
variable (env : Environment)

def flushSession : Saving PUnit := flush env.accepts .integrity
def commitSession : Saving PUnit := commit env.accepts .integrity

/-- Delete the rows of one of the lists, then add the new ones. -/
def replaceRows (memberId : Uuid) (cleared filled : Member) : Saving PUnit := do
  write (putMember memberId cleared)
  flushSession env
  write (putMember memberId filled)

/-- `apply_member_input` up to its commit. -/
def flushMemberInput (moment : Moment) (memberId : Uuid) (existing : Option Member)
    (data : MemberSaveRequest) (userId : Uuid) : Saving Diff := do
  let input := normalise data.columns
  let (columns,fieldDiff) := saveFields existing input
  let m := savedRecord moment existing input columns userId
  write (putMember memberId m)
  flushSession env
  let badges := data.badges.map PresentationEntry.row
  let m₁ := m.withBadges badges
  replaceRows env memberId (m.withBadges []) m₁
  let keys := data.keys.map PresentationEntry.row
  let m₂ := m₁.withKeys keys
  replaceRows env memberId (m₁.withKeys []) m₂
  check fun db => validateRolesHistory db data.rolesHistory ((columns.text .orgId).getD []) memberId
  let roles := data.rolesHistory.map RoleHistoryEntry.entry
  write (addRoleEvents (roleEventsOf memberId m.memberRoles roles userId))
  replaceRows env memberId (m₂.withRoles []) (m₂.withRoles roles)
  let diff := fieldDiff ++ presentationsDiff .badges m.memberBadges data.badges ++
    presentationsDiff .keys m.memberKeys data.keys ++ rolesDiff m.memberRoles roles
  let action : ChangeLogAction := if existing.isNone then .create else .update
  write (addChangeLog (changeLogOf memberId diff action userId moment.now))
  return diff

/-- `apply_member_input`; the record is a new one when there is no existing one. -/
def applyMemberInput (moment : Moment) (memberId : Uuid) (existing : Option Member)
    (data : MemberSaveRequest) (userId : Uuid) (commits : Bool) : Saving Diff := do
  let diff ← flushMemberInput env moment memberId existing data userId
  if commits then commitSession env
  return diff

end

end VbApi.Members
