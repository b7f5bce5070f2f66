import VbApi.Archive.Dirs
import VbApi.Foundations.Answers
import VbApi.Foundations.Closure

/-! What members read of the archive: the pages of a directory and of a file, links to the stored
objects, comments, and the search. Each call reads one state of the tables. -/
namespace VbApi.Archive
open VbApi.Foundations

structure HttpError where
  status : ℕ
  detail : String
  deriving DecidableEq, Repr

/-- Fuel bounds the parents that a call visits; a call that runs out of it has no answer. -/
abbrev Answer (α : Type) := ExceptT HttpError Option α

/-! ### The tables -/

structure ArchiveDirRow extends ArchiveDir where
  createdAt : Timestamp
  updatedAt : Option Timestamp

structure ArchiveStoreItem where
  id : Uuid
  name : PyText
  description : Option PyText
  extension : PyText
  mimeType : PyText
  size : ℕ
  sha256Hash : PyText
  createdBy : Option Uuid
  createdAt : Timestamp

structure ArchiveFile where
  archiveDirId : Option Uuid
  description : Option PyText
  /-- The row that `archive_store_item_id` names; the column is not nullable. -/
  storeItem : ArchiveStoreItem
  deletedAt : Option Timestamp

structure ArchiveFileComment where
  archiveFileId : Uuid
  content : PyText
  createdBy : Option Uuid
  createdAt : Timestamp
  deletedAt : Option Timestamp

/-- An organisation or a state. -/
structure SetRow where
  id : PyText
  label : Option PyText
  sortOrder : Option ℕ

structure ArchiveTables where
  dirs : Dict Uuid ArchiveDirRow
  files : Dict Uuid ArchiveFile
  comments : Dict Uuid ArchiveFileComment
  orgs : List SetRow
  states : List SetRow
  /-- The `cn` of each member. -/
  memberNames : Dict Uuid PyText
  /-- What the collation of the database sorts names by. -/
  collation : PyText → PyText
  nextUuid : Uuid

/-- The rows that the readers of the tree follow. -/
def ArchiveTables.tree (s : ArchiveTables) : ArchiveState where
  dirs := s.dirs.mapValues (·.toArchiveDir)
  files := s.files.mapValues (·.archiveDirId)
  nextUuid := s.nextUuid

def ArchiveTables.permSets (s : ArchiveTables) : PermSets := ⟨s.orgs.map (·.id),s.states.map (·.id)⟩

structure Member extends User where
  id : Uuid
  orgId : Option PyText
  stateId : Option PyText

/-- `mime_type.lower()` for the letters of `eps`: no other character has one of them as its
lower case. -/
def lowerAscii (c : CodePoint) : CodePoint :=
  if 65 ≤ c.val ∧ c.val ≤ 90 then c+32 else c

def ArchiveStoreItem.isImage (item : ArchiveStoreItem) : Bool :=
  text "image/" <+: item.mimeType && ¬ text "eps" <:+: item.mimeType.map lowerAscii

/-! ### Access -/

section Access
variable (fuel : ℕ) (s : ArchiveTables) (user : Member)

/-- `f"{user.org_id}_{user.state_id}"`. -/
def insightKey : PyText :=
  user.orgId.getD (text "None") ++ text "_" ++ user.stateId.getD (text "None")

def canInsight (dir : ArchiveDir) : Option Bool :=
  (getEffectivePermissions s.permSets s.tree fuel dir).map fun keys => insightKey user ∈ keys

def requireInsightOrAdmin (dir : ArchiveDir) : Answer PUnit :=
  if isArchiveAdmin user.toUser then pure ⟨⟩
  else do
    let insight ← ExceptT.lift (canInsight fuel s user dir)
    if insight then pure ⟨⟩ else throw ⟨403,"Keine Berechtigung für dieses Verzeichnis."⟩

/-- Every trashed directory plus every directory below one. -/
def trashedDirIds : List Uuid :=
  let trashedBase := s.dirs.keysWhere fun _ d => d.deletedAt.isSome
  recursiveUnion (fun id => s.dirs.keysWhere fun _ d => d.archiveDirId=some id) s.dirs.keys.length
    trashedBase trashedBase

def fileNotFound : HttpError := ⟨404,"Datei nicht gefunden."⟩

def requireReadableFile (file : ArchiveFile) (allowUnfiledUploader : Bool) : Answer PUnit :=
  if isArchiveAdmin user.toUser then pure ⟨⟩
  else if file.deletedAt ≠ none then throw fileNotFound
  else
    match file.archiveDirId with
    | none =>
      if allowUnfiledUploader ∧ file.storeItem.createdBy=some user.id then pure ⟨⟩
      else throw ⟨403,"Keine Berechtigung für diese Datei."⟩
    | some dirId =>
      match s.dirs.get? dirId with
      | none => throw fileNotFound
      | some dir =>
        if dirId ∈ trashedDirIds s then throw fileNotFound
        else requireInsightOrAdmin fuel s user dir.toArchiveDir

end Access

/-! ### Directories -/

structure DirShort where
  id : Uuid
  name : PyText
  description : Option PyText
  createdAt : Timestamp
  deletedAt : Option Timestamp

def dirShort (id : Uuid) (d : ArchiveDirRow) : DirShort :=
  ⟨id,d.name,d.description,d.createdAt,d.deletedAt⟩

structure FileShort where
  id : Uuid
  name : PyText
  extension : PyText
  description : Option PyText
  size : ℕ
  isImage : Bool
  mimeType : PyText
  createdAt : Timestamp
  deletedAt : Option Timestamp

def fileShort (id : Uuid) (f : ArchiveFile) : FileShort where
  id := id
  name := f.storeItem.name
  extension := f.storeItem.extension
  description := f.description
  size := f.storeItem.size
  isImage := f.storeItem.isImage
  mimeType := f.storeItem.mimeType
  createdAt := f.storeItem.createdAt
  deletedAt := f.deletedAt

structure Buckets (α : Type) where
  insight : List α
  admin : List α
  trashed : List α

def Buckets.empty {α : Type} : Buckets α := ⟨[],[],[]⟩

structure DirContent where
  subdirs : Buckets DirShort
  files : Buckets FileShort

structure DirPermissions where
  effective : List PyText
  own : List PyText
  parent : List PyText

/-- The organisations and states, each with its label. -/
structure Sets where
  orgs : List (PyText × Option PyText)
  states : List (PyText × Option PyText)

structure DirDetail where
  id : Uuid
  name : PyText
  description : Option PyText
  path : List (Uuid × PyText)
  permissions : DirPermissions
  recursivePermissions : Bool
  content : DirContent
  sets : Sets
  createdAt : Timestamp
  updatedAt : Option Timestamp
  deletedAt : Option Timestamp

section Dirs
variable (fuel : ℕ) (s : ArchiveTables) (user : Member)

def classifyDir (admin : Bool) (bucket : Buckets DirShort) (d : Uuid × ArchiveDirRow) :
    Option (Buckets DirShort) :=
  if d.2.deletedAt ≠ none then
    some (if admin then { bucket with trashed := bucket.trashed ++ [dirShort d.1 d.2] } else bucket)
  else do
    let insight ← canInsight fuel s user d.2.toArchiveDir
    if insight then return { bucket with insight := bucket.insight ++ [dirShort d.1 d.2] }
    else if admin then return { bucket with admin := bucket.admin ++ [dirShort d.1 d.2] }
    else return bucket

/-- One round of the loop over the files. -/
def classifyFile (admin hasInsight : Bool) (bucket : Buckets FileShort) (f : Uuid × ArchiveFile) :
    Buckets FileShort :=
  if f.2.deletedAt ≠ none then
    if admin then { bucket with trashed := bucket.trashed ++ [fileShort f.1 f.2] } else bucket
  else if hasInsight then { bucket with insight := bucket.insight ++ [fileShort f.1 f.2] }
  else if admin then { bucket with admin := bucket.admin ++ [fileShort f.1 f.2] }
  else bucket

/-- The directories below another one, or the root directories, by name. -/
def childDirs (parentId : Option Uuid) : List (Uuid × ArchiveDirRow) :=
  sortBy (fun d => s.collation d.2.name) (s.dirs.entries.filter fun d => d.2.archiveDirId=parentId)

def filesIn (dirId : Option Uuid) : List (Uuid × ArchiveFile) :=
  s.files.entries.filter fun f => f.2.archiveDirId=dirId

def classifyDirs (admin : Bool) (parentId : Option Uuid) : Option (Buckets DirShort) :=
  (childDirs s parentId).foldlM (classifyDir fuel s user admin) .empty

/-- The content that `get_root_content` shows. -/
def rootContent : Option DirContent := do
  let admin := isArchiveAdmin user.toUser
  let subdirs ← classifyDirs fuel s user admin none
  return ⟨subdirs,(filesIn s none).foldl (classifyFile admin false) .empty⟩

def buildDirDetailContent (id : Uuid) (dir : ArchiveDirRow) (admin : Bool) : Option DirContent := do
  let subdirs ← classifyDirs fuel s user admin (some id)
  let hasInsight ← canInsight fuel s user dir.toArchiveDir
  return ⟨subdirs,(filesIn s (some id)).foldl (classifyFile admin hasInsight) .empty⟩

def sortedSet (rows : List SetRow) : List (PyText × Option PyText) :=
  (sortBy (fun row => row.sortOrder.elim (⊤ : WithTop ℕ) fun n => n) rows).map
    fun row => (row.id,row.label)

def getSets : Sets := ⟨sortedSet s.orgs,sortedSet s.states⟩

def dirNotFound : HttpError := ⟨404,"Verzeichnis nicht gefunden."⟩

/-- The page of a directory that is there for the user. -/
def dirDetail (dirId : Uuid) (dir : ArchiveDirRow) : Answer DirDetail := do
  let admin := isArchiveAdmin user.toUser
  requireInsightOrAdmin fuel s user dir.toArchiveDir
  let content ← ExceptT.lift (buildDirDetailContent fuel s user dirId dir admin)
  let own := ownPermissions s.permSets dir.toArchiveDir
  let inherited ← ExceptT.lift (inheritedPermissions s.permSets s.tree fuel dir.toArchiveDir)
  let path ← ExceptT.lift (buildPath s.tree fuel dirId dir.toArchiveDir)
  return {
    id := dirId
    name := dir.name
    description := dir.description
    path := path
    permissions := {
      effective := sortBy id (own ++ inherited).dedup
      own := if admin then own else []
      parent := if admin then inherited else [] }
    recursivePermissions := dir.recursivePermissions.getD false
    content := content
    sets := if admin then getSets s else ⟨[],[]⟩
    createdAt := dir.createdAt
    updatedAt := dir.updatedAt
    deletedAt := dir.deletedAt }

def getDirDetail (dirId : Uuid) : Answer DirDetail :=
  match s.dirs.get? dirId with
  | none => throw dirNotFound
  | some dir =>
    if ¬ isArchiveAdmin user.toUser ∧ dirId ∈ trashedDirIds s then throw dirNotFound
    else dirDetail fuel s user dirId dir

end Dirs

end VbApi.Archive
