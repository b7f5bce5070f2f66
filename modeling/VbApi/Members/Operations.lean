import VbApi.Members.Saves

/-! The operations on members: creating and updating, a member's own change request and its
resolution, the subscription of the chronicle and the reset of a password. -/
namespace VbApi.Members
open VbApi.Foundations Transaction
open VbApi.Standesdb (Uuid Timestamp SelfServiceField Decision FieldDecisions RequestStatus)

/-! The checks of a save. -/

def validateMemberOrg (data : MemberSaveRequest) (user : Actor) : Except SaveError Unit :=
  guardError (data.columns.text .orgId=user.member.columns.text .orgId)
    (.http 403 [text "Du kannst nur Mitglieder deiner eigenen Organisation verwalten."])

/-- The three names agree, ignoring case. -/
def sameName (env : Environment) (c c' : Columns) : Bool :=
  [TextField.vorname,.nachname,.couleurname].all fun f =>
    env.lower ((c.text f).getD [])=env.lower ((c'.text f).getD [])

def validateMemberUniqueness (env : Environment) (db : Database) (data : MemberSaveRequest)
    (excludeId : Option Uuid) : Except SaveError Unit :=
  let other := db.members.find? fun id m => excludeId ≠ some id && sameName env m.columns data.columns
  guardError (other.isNone=true) (.http 409 [text "Ein Mitglied mit diesem Namen existiert bereits."])

/-- The walk of `_is_self_or_ancestor` from a member upwards; it stops where it has been before. -/
def climbs (members : Dict Uuid Member) (memberId : Uuid) (seen : List Uuid) : Option Uuid → Bool
  | none => false
  | some id =>
    match _hget : members.get? id with
    | none => false
    | some m =>
      if _hseen : id ∈ seen then false
      else if id=memberId then true
      else climbs members memberId (id::seen) m.columns.parentId
termination_by (members.keys.toFinset \ seen.toFinset).card
decreasing_by
  apply Finset.card_lt_card
  have hkey : id ∈ members.keys := (members.mem_keys_iff id).mpr ⟨m,_hget⟩
  refine Finset.ssubset_iff_subset_ne.mpr ⟨?_,?_⟩
  · intro x
    simp only [Finset.mem_sdiff,List.mem_toFinset,List.mem_cons,not_or]
    exact fun hx => ⟨hx.1,hx.2.2⟩
  · intro heq
    have hid : id ∈ members.keys.toFinset \ seen.toFinset := by simp [hkey,_hseen]
    rw [← heq] at hid
    simp at hid

/-- `_is_self_or_ancestor`. -/
def isSelfOrAncestor (db : Database) (start memberId : Uuid) : Bool :=
  climbs db.members memberId [] (some start)

def parentError : SaveError := .http 400 [text "Ungültiges Leibverhältnis."]

def validateParentId (db : Database) (parentId : Option Uuid) (orgId : Option PyText)
    (memberId : Option Uuid) : Except SaveError Unit :=
  match parentId with
  | none => .ok ⟨⟩
  | some parentId =>
    match db.members.get? parentId with
    | none => .error parentError
    | some parent =>
      guardError (parent.columns.text .orgId=orgId ∧
        ¬ memberId.any (fun memberId => isSelfOrAncestor db parentId memberId)) parentError

/-- `_validate_ids_exist`. -/
def validateIdsExist {ι : Type} [DecidableEq ι] (valid entries : List ι) (label : PyText)
    (show_ : ι → PyText) : Except SaveError Unit :=
  match entries.find? (· ∉ valid) with
  | none => .ok ⟨⟩
  | some id => .error (.http 422 [label ++ text ": " ++ show_ id])

/-- `str` of a UUID. -/
def uuidText (id : Uuid) : PyText :=
  let digits := (Nat.toDigits 16 id).map codePoint
  let hex := List.replicate (32-digits.length) (codePoint '0') ++ digits
  let part (start n : ℕ) := (hex.drop start).take n
  join (text "-") [part 0 8,part 8 4,part 12 4,part 16 4,part 20 12]

def validateMemberReferences (db : Database) (data : MemberSaveRequest) : Except SaveError Unit := do
  guardError ((data.columns.text .stateId).all fun id => id=[] || id ∈ db.stateIds)
    (.http 422 [text "Ungültiger Status."])
  validateIdsExist (db.roles.map Role.id) (data.rolesHistory.map RoleHistoryEntry.id)
    (text "Ungültige Rolle") id
  validateIdsExist db.badgeIds (data.badges.map PresentationEntry.id)
    (text "Ungültiges Abzeichen") uuidText
  validateIdsExist db.keyIds (data.keys.map PresentationEntry.id)
    (text "Ungültiger Schlüssel") uuidText

def getMemberOr404 (db : Database) (memberId : Uuid) : Except SaveError Member :=
  match db.members.get? memberId with
  | some m => .ok m
  | none => .error (.http 404 [text "Mitglied nicht gefunden."])

/-- `get_assigned_member_for_org_admin`. -/
def getAssignedMemberForOrgAdmin (env : Environment) (db : Database) (moment : Moment)
    (memberId : Uuid) (user : Actor) : Except SaveError Member := do
  let m ← getMemberOr404 db memberId
  guardError ((m.columns.text .orgId).any (· ≠ []))
    (.http 422 [text "Mitglied hat keine Verbindung zugewiesen."])
  requireOrgAdmin env db.roles moment.today user (m.columns.text .orgId)
  return m

def takeUuid (db : Database) : Database := {db with nextUuid := db.nextUuid+1}

/-- The id that the database gives a new row. -/
def newId : Saving Uuid := do
  let id ← check fun db => .ok db.nextUuid
  write takeUuid
  return id

section
variable (env : Environment)

/-- The body is validated before `create_member` runs. -/
def createMember (moment : Moment) (body : MemberInput) (user : Actor) : Saving Uuid := do
  let data ← check fun _ => modelValidate env body
  check fun db => requireOrgAdmin env db.roles moment.today user (data.columns.text .orgId)
  check fun _ => validateMemberOrg data user
  check fun db => validateMemberUniqueness env db data none
  check fun db => validateParentId db data.columns.parentId (data.columns.text .orgId) none
  check fun db => validateMemberReferences db data
  let memberId ← newId
  let _ ← applyMemberInput env moment memberId none data user.id true
  return memberId

def updateMember (moment : Moment) (memberId : Uuid) (body : MemberInput) (user : Actor) :
    Saving Diff := do
  let data ← check fun _ => modelValidate env body
  let m ← check fun db => getAssignedMemberForOrgAdmin env db moment memberId user
  check fun _ => validateMemberOrg data user
  check fun db => validateMemberUniqueness env db data (some memberId)
  check fun db =>
    validateParentId db data.columns.parentId (data.columns.text .orgId) (some memberId)
  check fun db => validateMemberReferences db data
  applyMemberInput env moment memberId (some m) data user.id true

/-! Change requests. -/

/-- The signed-in member of a call on the own record: a locked account has no session. -/
def signedIn (db : Database) (memberId : Uuid) : Except SaveError Member :=
  match db.members.get? memberId with
  | some m => if m.columns.flag .authLocked then .error (.http 401 []) else .ok m
  | none => .error (.http 401 [])

/-- The value of a self-service field. -/
def selfServiceValue (c : Columns) (g : SelfServiceField) : FieldValue := c.get (selfServiceColumn g)

/-- A value as JSON: a text or null. -/
def FieldValue.json : FieldValue → Option PyText
  | .text s => some s
  | _ => Option.none

/-- The diff that a request keeps. -/
def proposedDiff (c : Columns) (proposed : SelfServiceField → Option PyText) : ProposedData := fun g =>
  if valuesDiffer (selfServiceValue c g) (.ofText (proposed g)) then
    some ⟨(selfServiceValue c g).json,proposed g⟩
  else none

def getOwnPendingRequest (db : Database) (memberId : Uuid) : Option (Uuid × MemberChangeRequest) :=
  db.changeRequests.find? fun _ r => r.memberId=memberId && r.status=.pending

def putRequest (requestId : Uuid) (r : MemberChangeRequest) (db : Database) : Database :=
  {db with changeRequests := db.changeRequests.set requestId r}

def deleteRequest (requestId : Uuid) (db : Database) : Database :=
  {db with changeRequests := db.changeRequests.erase requestId}

/-- `submit_own_change_request`: validate, check the organisation, compare and store. -/
def submitChangeRequest (moment : Moment) (memberId : Uuid)
    (body : SelfServiceField → Option PyText) : Saving PUnit := do
  let m ← check fun db => signedIn db memberId
  let proposed ← check fun _ => selfServiceValidate env body
  check fun _ => guardError ((m.columns.text .orgId).any (· ≠ []))
    (.http 422 [text "Deinem Konto ist keine Verbindung zugewiesen — Änderungsanträge können nicht eingereicht werden."])
  let data := proposedDiff m.columns proposed
  let existing ← check fun db => .ok (getOwnPendingRequest db memberId)
  match existing with
  | some (requestId,request) =>
    if selfServiceFields.all fun g => data g=none then
      write (deleteRequest requestId)
    else
      write (putRequest requestId {request with proposedData := data,updatedAt := moment.now})
    commitSession env
  | none =>
    if selfServiceFields.all fun g => data g=none then return
    let requestId ← newId
    write (putRequest requestId ⟨memberId,.pending,data,none,none,none,moment.now⟩)
    commitSession env

/-- `_build_current_full_request_dict`. -/
def currentFullRequest (roles : List Role) (m : Member) : MemberInput where
  columns := {m.columns with
    accuracy := fun f => some ((m.columns.accuracy f).getD 0)
    zustellungen := some (m.columns.zustellungen.getD .deaktiviert)}
  rolesHistory := m.memberRoles.map fun e =>
    ⟨e.roleId,(roles.find? fun r => r.id=e.roleId).bind Role.label,e.startdate,e.enddate⟩
  badges := m.memberBadges.map fun p =>
    ⟨p.id,p.presentationdate,p.presentationdateAccuracy.getD 0⟩
  keys := m.memberKeys.map fun p =>
    ⟨p.id,p.presentationdate,p.presentationdateAccuracy.getD 0⟩

/-- The proposed value of an approved field. -/
def approvedValue (data : ProposedData) (decisions : FieldDecisions) (f : Field) :
    Option (Option PyText) :=
  (selfService? f).bind fun g =>
    if decisions g=some .approved then (data g).map ProposedChange.new else none

/-- The approved fields take their proposed values. -/
def overlay (c : Columns) (data : ProposedData) (decisions : FieldDecisions) : Columns :=
  {c with
    text := fun f => (approvedValue data decisions (.text f)).getD (c.text f)
    zustellungen := match approvedValue data decisions .zustellungen with
      | some v => v.bind deliveryPreference?
      | none => c.zustellungen}

/-- Every proposed field has a decision, and no other one has. -/
def decidesAll (data : ProposedData) (decisions : FieldDecisions) : Bool :=
  selfServiceFields.all fun g => (decisions g).isSome=(data g).isSome

def resolveChangeRequest (moment : Moment) (requestId : Uuid) (request : MemberChangeRequest)
    (decisions : FieldDecisions) (expectedUpdatedAt : Timestamp) (admin : Actor) : Saving PUnit := do
  check fun _ => guardError (request.status=.pending)
    (.http 409 [text "Antrag wurde bereits entschieden."])
  check fun _ => guardError (request.updatedAt=expectedUpdatedAt)
    (.http 409 [text "Der Antrag wurde inzwischen vom Mitglied geändert und muss erneut geprüft werden."])
  check fun _ => guardError (decidesAll request.proposedData decisions=true)
    (.http 422 [text "Es muss für jedes vorgeschlagene Feld eine Entscheidung vorliegen."])
  let m ← check fun db => match db.members.get? request.memberId with
    | some m => .ok m
    | none => .error .attribute
  let merged ← check fun db =>
    let current := currentFullRequest db.roles m
    modelValidate env {current with columns := overlay current.columns request.proposedData decisions}
  check fun _ => validateMemberOrg merged admin
  check fun db => validateMemberUniqueness env db merged (some request.memberId)
  let _ ← applyMemberInput env moment request.memberId (some m) merged admin.id false
  write (putRequest requestId {request with
    status := .resolved
    fieldDecisions := some decisions
    resolvedBy := some admin.id
    resolvedAt := some moment.now
    updatedAt := moment.now})
  commitSession env

def decideChangeRequest (moment : Moment) (requestId : Uuid) (decisions : FieldDecisions)
    (expectedUpdatedAt : Timestamp) (user : Actor) : Saving PUnit := do
  let request ← check fun db => match db.changeRequests.get? requestId with
    | some r => .ok r
    | none => .error (.http 404 [text "Änderungsantrag nicht gefunden."])
  check fun db => match db.members.get? request.memberId with
    | some m => requireOrgAdmin env db.roles moment.today user (m.columns.text .orgId)
    | none => .error .attribute
  resolveChangeRequest env moment requestId request decisions expectedUpdatedAt user

/-! The operations on the own account. -/

def toggleChroniclemail (moment : Moment) (memberId : Uuid) : Saving PUnit := do
  let m ← check fun db => signedIn db memberId
  let columns := {m.columns with
    flag := Function.update m.columns.flag .chroniclemail (!m.columns.flag .chroniclemail)}
  write (putMember memberId {m with columns := columns,updatedAt := some moment.now})
  commitSession env

/-- The writes of `reset_password` to its member, once the token is found valid. -/
def resetPassword (moment : Moment) (memberId : Uuid) (passwordHash : PyText) : Saving PUnit := do
  let m ← check fun db => getMemberOr404 db memberId
  write (putMember memberId {m with
    authPassword := some passwordHash
    emailVerifiedAt := some moment.now
    updatedAt := some moment.now})
  commitSession env

end
end VbApi.Members
