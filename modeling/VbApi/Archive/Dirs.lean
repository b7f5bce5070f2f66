import VbApi.Foundations.Dict
import VbApi.Foundations.Forest
import VbApi.Foundations.Interleaving
import VbApi.Foundations.PyText
import VbApi.Foundations.Sorting

/-! The directories of the archive, the readers that follow their parents, and the calls that write
them. A call takes several atomic steps: each `SELECT` sees what is committed by then, and a commit
makes its rows visible at once. -/
namespace VbApi.Archive
open VbApi.Foundations

abbrev Uuid := ℕ
abbrev Timestamp := ℕ

structure ArchivePermission where
  orgId : PyText
  stateId : PyText
  deriving DecidableEq

structure ArchiveDir where
  name : PyText
  description : Option PyText
  /-- `none` for a root directory. -/
  archiveDirId : Option Uuid
  recursivePermissions : Option Bool
  deletedAt : Option Timestamp
  archivePermissions : List ArchivePermission
  deriving DecidableEq

structure ArchiveState where
  dirs : Dict Uuid ArchiveDir
  /-- The files, each with its `archive_dir_id`. -/
  files : Dict Uuid (Option Uuid)
  /-- The next value of `uuidv7()`. -/
  nextUuid : Uuid

/-- The ids of the organisations and states. -/
structure PermSets where
  orgs : List PyText
  states : List PyText

/-- A member with what `calculate_permissions` yields. -/
structure User where
  permissions : List PyText

def isArchiveAdmin (user : User) : Bool := text "archiveAdmin" ∈ user.permissions

/-! ### Reading -/

section Readers
variable (permSets : PermSets) (s : ArchiveState)

/-- The row that `archive_dir_id` names. -/
def parentOf (dir : ArchiveDir) : Option (Uuid × ArchiveDir) :=
  dir.archiveDirId.bind fun id => (s.dirs.get? id).map fun parent => (id,parent)

def ArchivePermission.key (p : ArchivePermission) : PyText := p.orgId ++ text "_" ++ p.stateId

def ownPermissions (dir : ArchiveDir) : List PyText :=
  dir.archivePermissions.foldl (fun result p =>
    if p.orgId ∈ permSets.orgs ∧ p.stateId ∈ permSets.states then
      if p.key ∈ result then result else result ++ [p.key]
    else result) []

mutual

/-- The fuel bounds the parents that are visited. -/
def getEffectivePermissions : ℕ → ArchiveDir → Option (List PyText)
  | 0,_ => none
  | fuel+1,dir => do
    let inherited ← inheritedPermissions fuel dir
    return sortBy id (ownPermissions permSets dir ++ inherited).dedup

def inheritedPermissions : ℕ → ArchiveDir → Option (List PyText)
  | 0,_ => none
  | fuel+1,dir =>
    match parentOf s dir with
    | none => some []
    | some (_,parent) =>
      if parent.recursivePermissions=some true then getEffectivePermissions fuel parent
      else inheritedPermissions fuel parent

end

/-- The loop of `build_path`, with the rounds it may take. -/
def buildPathLoop : ℕ → Uuid → ArchiveDir → List (Uuid × PyText) → Option (List (Uuid × PyText))
  | 0,_,_,_ => none
  | fuel+1,id,dir,path =>
    match parentOf s dir with
    | none => some (path ++ [(id,dir.name)]).reverse
    | some (parentId,parent) => buildPathLoop fuel parentId parent (path ++ [(id,dir.name)])

def buildPath (fuel : ℕ) (id : Uuid) (dir : ArchiveDir) : Option (List (Uuid × PyText)) :=
  buildPathLoop s fuel id dir []

end Readers

/-! ### The calls -/

/-- The rows that a call has loaded. One that it has changed stays, and is written at the commit;
any other may drop out of the session and is then read again. -/
structure Session where
  loaded : Dict Uuid ArchiveDir
  moved : List Uuid

def Session.new : Session := ⟨Dict.empty,[]⟩

/-- The body of a create or an update request. -/
structure DirSave where
  name : PyText
  description : Option PyText
  parentId : Option Uuid
  permissions : List PyText
  recursivePermissions : Bool

/-- A `delete_dir` or a `purge_dir` of a directory that it found. -/
structure DirRemoval where
  id : Uuid
  purge : Bool
  now : Timestamp

inductive ItemType
  | dir
  | file
  deriving DecidableEq, Repr

/-- Where a client stands; each place names what comes next. -/
inductive Place
  | idle
  | createDir (data : DirSave) (pairs : List ArchivePermission)
  | updateDir (id : Uuid) (data : DirSave) (pairs : List ArchivePermission)
  | hasChildren (removal : DirRemoval)
  | hasFiles (removal : DirRemoval) (hasChildren : Bool)
  | removeDir (removal : DirRemoval) (hasContent : Bool)
  | restoreDir (id : Uuid) (deletedAt : Option Timestamp)
  /-- The loop of `_receive_dirs`; without pending ids the commit. -/
  | receiveDirs (target : Option Uuid) (pending : List Uuid) (session : Session)
  /-- The loop of `_is_descendant`, for the row `d` of the id `did`. -/
  | isDescendant (target did : Uuid) (d : ArchiveDir) (current : Uuid) (visited pending : List Uuid)
    (session : Session)
  /-- The loop of `_receive_files`; without pending ids the commit. -/
  | receiveFiles (target : Option Uuid) (pending moved : List Uuid)

inductive Input
  | createDir (user : User) (data : DirSave)
  | updateDir (user : User) (id : Uuid) (data : DirSave)
  | deleteDir (user : User) (id : Uuid) (now : Timestamp)
  | purgeDir (user : User) (id : Uuid)
  | restoreDir (user : User) (id : Uuid)
  | receiveItems (user : User) (target : Option Uuid) (itemType : ItemType) (ids : List Uuid)
  /-- The rows of `upload_file` and `hard_delete_file`. -/
  | uploadFile
  | hardDeleteFile (id : Uuid)
  | next
  /-- A row that is not changed drops out of the session. -/
  | collect (id : Uuid)
  | fail

section Session
variable (s : ArchiveState) (session : Session)

/-- A row from the database, with the parent that its query joins; rows that are held stay. -/
def Session.load (id : Uuid) (dir : ArchiveDir) : Session :=
  let loaded := session.loaded.set id dir
  match parentOf s dir with
  | none => { session with loaded := loaded }
  | some (parentId,parent) =>
    { session with
      loaded := if (loaded.get? parentId).isSome then loaded else loaded.set parentId parent }

/-- `db.get`. -/
def Session.get (id : Uuid) : Option ArchiveDir × Session :=
  match session.loaded.get? id with
  | some dir => (some dir,session)
  | none =>
    match s.dirs.get? id with
    | none => (none,session)
    | some dir => (some dir,session.load s id dir)

/-- `d.archive_dir_id = target_dir_id`; without a net change there is nothing to write. -/
def Session.move (did : Uuid) (d : ArchiveDir) (target : Option Uuid) : Session where
  loaded := session.loaded.set did { d with archiveDirId := target }
  moved := if d.archiveDirId=target then session.moved else did::session.moved

def Session.collect (id : Uuid) : Session :=
  if id ∈ session.moved then session else { session with loaded := session.loaded.erase id }

end Session

section Calls
variable (permSets : PermSets) (s : ArchiveState)

/-- `perm.partition("_")`, without the separator. -/
def partitionPermission (perm : PyText) : ArchivePermission :=
  ⟨perm.takeWhile (· ≠ codePoint '_'),(perm.dropWhile (· ≠ codePoint '_')).drop 1⟩

/-- The pairs, or nothing when one of them names no organisation or state. -/
def parsePermissions (perms : List PyText) : Option (List ArchivePermission) :=
  let pairs := perms.map partitionPermission
  if ∀ p ∈ pairs, p.orgId ∈ permSets.orgs ∧ p.stateId ∈ permSets.states then some pairs else none

def beginCreateDir (data : DirSave) : Place :=
  if ∀ id ∈ data.parentId, (s.dirs.get? id).isSome then
    match parsePermissions permSets data.permissions with
    | none => .idle
    | some pairs => .createDir data pairs
  else .idle

/-- The constraints on the rows of a directory. -/
def DirSave.Accepted (data : DirSave) (pairs : List ArchivePermission) : Prop :=
  3 ≤ data.name.length ∧ data.name.length ≤ 64 ∧ (∀ d ∈ data.description, d.length ≤ 128) ∧ pairs.Nodup

instance (data : DirSave) (pairs : List ArchivePermission) : Decidable (data.Accepted pairs) :=
  inferInstanceAs (Decidable (_ ∧ _))

/-- The commit of `create_dir`; the parent is still there, or the foreign key refuses the row. -/
def createDir (data : DirSave) (pairs : List ArchivePermission) : ArchiveState :=
  if data.Accepted pairs ∧ ∀ id ∈ data.parentId, (s.dirs.get? id).isSome then
    { s with
      dirs := s.dirs.set s.nextUuid
        ⟨data.name,data.description,data.parentId,some data.recursivePermissions,none,pairs⟩
      nextUuid := s.nextUuid+1 }
  else s

def beginUpdateDir (id : Uuid) (data : DirSave) : Place :=
  match s.dirs.get? id,parsePermissions permSets data.permissions with
  | some _,some pairs => .updateDir id data pairs
  | _,_ => .idle

def updateDir (id : Uuid) (data : DirSave) (pairs : List ArchivePermission) : ArchiveState :=
  if data.Accepted pairs then
    { s with dirs := s.dirs.modify [id] fun dir => { dir with
        name := data.name
        description := data.description
        recursivePermissions := some data.recursivePermissions
        archivePermissions := pairs } }
  else s

def beginDeleteDir (id : Uuid) (now : Timestamp) : Place :=
  match s.dirs.get? id with
  | none => .idle
  | some _ => .hasChildren ⟨id,false,now⟩

def beginPurgeDir (id : Uuid) : Place :=
  match s.dirs.get? id with
  | none => .idle
  | some dir => if dir.deletedAt=none then .idle else .hasChildren ⟨id,true,0⟩

/-- Directories below. -/
def childIds (id : Uuid) : List Uuid := s.dirs.keysWhere fun _ dir => dir.archiveDirId=some id

def fileIds (id : Uuid) : List Uuid := s.files.keysWhere fun _ archiveDirId => archiveDirId=some id

/-- `db.delete` and the commit; the foreign keys refuse it while a row points to the directory. -/
def hardDeleteDir (id : Uuid) : ArchiveState :=
  if childIds s id=[] ∧ fileIds s id=[] then { s with dirs := s.dirs.erase id } else s

def removeDir (removal : DirRemoval) (hasContent : Bool) : ArchiveState :=
  if !hasContent then hardDeleteDir s removal.id
  else if removal.purge then s
  else { s with
    dirs := s.dirs.modify [removal.id] fun dir => { dir with deletedAt := some removal.now } }

def beginRestoreDir (id : Uuid) : Place :=
  match s.dirs.get? id with
  | none => .idle
  | some dir => .restoreDir id dir.deletedAt

def restoreDir (id : Uuid) (deletedAt : Option Timestamp) : ArchiveState :=
  if deletedAt=none then s
  else { s with dirs := s.dirs.modify [id] fun dir => { dir with deletedAt := none } }

def receiveLoop (target : Option Uuid) (itemType : ItemType) (ids : List Uuid) (session : Session) :
    Place :=
  match itemType with
  | .dir => .receiveDirs target ids session
  | .file => .receiveFiles target ids []

def beginReceiveItems (target : Option Uuid) (itemType : ItemType) (ids : List Uuid) : Place :=
  match target with
  | none => receiveLoop none itemType ids .new
  | some targetId =>
    match Session.new.get s targetId with
    | (none,_) => .idle
    | (some _,session) => receiveLoop (some targetId) itemType ids session

/-- The `UPDATE`s and the commit: every row is still there, and so is the target. -/
def commitDirs (target : Option Uuid) (moved : List Uuid) : ArchiveState :=
  if (∀ id ∈ moved, (s.dirs.get? id).isSome) ∧
      (moved=[] ∨ ∀ id ∈ target, (s.dirs.get? id).isSome) then
    { s with dirs := s.dirs.modify moved fun dir => { dir with archiveDirId := target } }
  else s

def commitFiles (target : Option Uuid) (moved : List Uuid) : ArchiveState :=
  if (∀ id ∈ moved, (s.files.get? id).isSome) ∧
      (moved=[] ∨ ∀ id ∈ target, (s.dirs.get? id).isSome) then
    { s with files := s.files.modify moved fun _ => target }
  else s

/-- One directory of `_receive_dirs`, up to the walk. -/
def receiveDir (target : Option Uuid) (did : Uuid) (pending : List Uuid) (session : Session) : Place :=
  match session.get s did with
  | (none,session) => .receiveDirs target pending session
  | (some d,session) =>
    match target with
    | none => .receiveDirs none pending (session.move did d none)
    | some targetId =>
      if did=targetId then .idle else .isDescendant targetId did d targetId [] pending session

/-- One round of `_is_descendant`; a descendant ends the call. -/
def isDescendant (target did : Uuid) (d : ArchiveDir) (current : Uuid) (visited pending : List Uuid)
    (session : Session) : Place :=
  match session.get s current with
  | (none,session) => .receiveDirs (some target) pending (session.move did d (some target))
  | (some row,session) =>
    if row.archiveDirId=some did then .idle
    else
      match row.archiveDirId with
      | none => .receiveDirs (some target) pending (session.move did d (some target))
      | some next =>
        if next ∈ current::visited then
          .receiveDirs (some target) pending (session.move did d (some target))
        else .isDescendant target did d next (current::visited) pending session

def receiveFile (target : Option Uuid) (fid : Uuid) (pending moved : List Uuid) : Place :=
  match s.files.get? fid with
  | none => .receiveFiles target pending moved
  | some dirId => .receiveFiles target pending (if dirId=target then moved else fid::moved)

def begin (call : Input) : Place :=
  match call with
  | .createDir user data => if isArchiveAdmin user then beginCreateDir permSets s data else .idle
  | .updateDir user id data => if isArchiveAdmin user then beginUpdateDir permSets s id data else .idle
  | .deleteDir user id now => if isArchiveAdmin user then beginDeleteDir s id now else .idle
  | .purgeDir user id => if isArchiveAdmin user then beginPurgeDir s id else .idle
  | .restoreDir user id => if isArchiveAdmin user then beginRestoreDir s id else .idle
  | .receiveItems user target itemType ids =>
    if isArchiveAdmin user then beginReceiveItems s target itemType ids else .idle
  | _ => .idle

/-- The next step of a call. -/
def resume : Place → ArchiveState × Place
  | .idle => (s,.idle)
  | .createDir data pairs => (createDir s data pairs,.idle)
  | .updateDir id data pairs => (updateDir s id data pairs,.idle)
  | .hasChildren removal => (s,.hasFiles removal (childIds s removal.id ≠ []))
  | .hasFiles removal hasChildren =>
    (s,.removeDir removal (hasChildren || fileIds s removal.id ≠ []))
  | .removeDir removal hasContent => (removeDir s removal hasContent,.idle)
  | .restoreDir id deletedAt => (restoreDir s id deletedAt,.idle)
  | .receiveDirs target [] session => (commitDirs s target session.moved,.idle)
  | .receiveDirs target (did::pending) session => (s,receiveDir s target did pending session)
  | .isDescendant target did d current visited pending session =>
    (s,isDescendant s target did d current visited pending session)
  | .receiveFiles target [] moved => (commitFiles s target moved,.idle)
  | .receiveFiles target (fid::pending) moved => (s,receiveFile s target fid pending moved)

/-- Only the loops of `_receive_dirs` keep loaded rows that are read again. -/
def Place.collect (id : Uuid) : Place → Place
  | .receiveDirs target pending session => .receiveDirs target pending (session.collect id)
  | .isDescendant target did d current visited pending session =>
    .isDescendant target did d current visited pending (session.collect id)
  | place => place

end Calls

def archiveProgram (permSets : PermSets) : Program ArchiveState Place Input :=
  fun _ s place input =>
    match place,input with
    | place,.next => some (resume s place)
    | place,.collect id => some (s,place.collect id)
    | _,.fail => some (s,.idle)
    | .idle,.uploadFile =>
      some ({ s with files := s.files.set s.nextUuid none, nextUuid := s.nextUuid+1 },.idle)
    | .idle,.hardDeleteFile id => some ({ s with files := s.files.erase id },.idle)
    | .idle,call => some (s,begin permSets s call)
    | _,_ => none

end VbApi.Archive
