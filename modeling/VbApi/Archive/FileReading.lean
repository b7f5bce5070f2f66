import VbApi.Archive.Reading
import Mathlib.Algebra.Order.Field.Rat

/-! The page of a file, the links to its stored object, its comments, and the search over the
directories and files. -/
namespace VbApi.Archive
open VbApi.Foundations

section Files
variable (fuel : ℕ) (s : ArchiveTables) (user : Member)

/-- `member.cn` for a nullable reference to a member. -/
def memberName (memberId : Option Uuid) : Option PyText := memberId.bind s.memberNames.get?

structure StoreItemResponse where
  id : Uuid
  name : PyText
  description : Option PyText
  extension : PyText
  mimeType : PyText
  size : ℕ
  isImage : Bool
  createdBy : Option PyText
  createdAt : Timestamp

def storeItemResponse (item : ArchiveStoreItem) : StoreItemResponse where
  id := item.id
  name := item.name
  description := item.description
  extension := item.extension
  mimeType := item.mimeType
  size := item.size
  isImage := item.isImage
  createdBy := memberName s item.createdBy
  createdAt := item.createdAt

structure CommentResponse where
  id : Uuid
  content : PyText
  author : Option PyText
  createdAt : Timestamp

def commentResponse (id : Uuid) (c : ArchiveFileComment) : CommentResponse :=
  ⟨id,c.content,memberName s c.createdBy,c.createdAt⟩

structure FileDetail where
  id : Uuid
  archiveDirId : Option Uuid
  name : PyText
  extension : PyText
  description : Option PyText
  size : ℕ
  isImage : Bool
  mimeType : PyText
  path : List (Uuid × PyText)
  activeVersion : StoreItemResponse
  comments : List CommentResponse
  trashedComments : List CommentResponse
  createdAt : Timestamp
  deletedAt : Option Timestamp

/-- The comments of a file, oldest first. -/
def commentsOf (fileId : Uuid) (trashed : Bool) : List CommentResponse :=
  (sortBy (fun c => c.2.createdAt) (s.comments.entries.filter fun c =>
    c.2.archiveFileId=fileId && c.2.deletedAt.isSome=trashed)).map fun c => commentResponse s c.1 c.2

/-- The path of the directory of a file; an unfiled one has none. -/
def filePath (file : ArchiveFile) : Option (List (Uuid × PyText)) :=
  match file.archiveDirId.bind fun id => (s.dirs.get? id).map fun dir => (id,dir) with
  | none => some []
  | some (id,dir) => buildPath s.tree fuel id dir.toArchiveDir

def getFileDetail (fileId : Uuid) : Answer FileDetail :=
  match s.files.get? fileId with
  | none => throw fileNotFound
  | some file => do
    requireReadableFile fuel s user file false
    let admin := isArchiveAdmin user.toUser
    let item := file.storeItem
    let path ← ExceptT.lift (filePath fuel s file)
    return {
      id := fileId
      archiveDirId := file.archiveDirId
      name := item.name
      extension := item.extension
      description := file.description
      size := item.size
      isImage := item.isImage
      mimeType := item.mimeType
      path := path
      activeVersion := storeItemResponse s item
      comments := commentsOf s fileId false
      trashedComments := if admin then commentsOf s fileId true else []
      createdAt := item.createdAt
      deletedAt := file.deletedAt }

/-! ### Links -/

def s3PathArchiveStore : PyText := text "archive/store"

def s3PathArchiveCache : PyText := text "archive/cache"

/-- The names of `THUMB_SIZES`. -/
def thumbSizes : List PyText := [text "xs",text "sm",text "md",text "lg"]

def thumbnailCacheKey (sha256Hash size : PyText) : PyText :=
  s3PathArchiveCache ++ text "/" ++ sha256Hash ++ text ".v2.thumb_" ++ size

/-- What a presigned URL gives: an object, and the headers of its download. -/
structure PresignedUrl where
  key : PyText
  filename : Option PyText
  contentType : PyText

def getPresignedUrl (fileId : Uuid) (size : Option PyText) : Answer PresignedUrl :=
  match s.files.get? fileId with
  | none => throw fileNotFound
  | some file => do
    requireReadableFile fuel s user file true
    let item := file.storeItem
    match size with
    | some size =>
      if size ≠ [] ∧ size ∈ thumbSizes ∧ item.isImage then
        return ⟨thumbnailCacheKey item.sha256Hash size,none,text "image/jpeg"⟩
      else return ⟨s3PathArchiveStore ++ text "/" ++ item.sha256Hash,
        some (item.name ++ text "." ++ item.extension),item.mimeType⟩
    | none => return ⟨s3PathArchiveStore ++ text "/" ++ item.sha256Hash,
        some (item.name ++ text "." ++ item.extension),item.mimeType⟩

/-! ### Comments -/

/-- The content that `CommentCreateRequest` lets through, without blanks around it. -/
structure CommentContent where
  content : PyText
  stripped : strip content=content
  length : 5 ≤ content.length ∧ content.length ≤ 1000

def createComment (now : Timestamp) (fileId : Uuid) (data : CommentContent) :
    Answer (ArchiveTables × CommentResponse) :=
  match s.files.get? fileId with
  | none => throw fileNotFound
  | some file => do
    requireReadableFile fuel s user file false
    let comment : ArchiveFileComment := ⟨fileId,data.content,some user.id,now,none⟩
    return ({ s with
      comments := s.comments.set s.nextUuid comment
      nextUuid := s.nextUuid+1 },commentResponse s s.nextUuid comment)

def commentNotFound : HttpError := ⟨404,"Kommentar nicht gefunden."⟩

def deleteComment (now : Timestamp) (fileId commentId : Uuid) : Answer ArchiveTables :=
  match s.files.get? fileId,s.comments.get? commentId with
  | some _,some comment =>
    if comment.archiveFileId ≠ fileId then throw commentNotFound
    else if comment.createdBy ≠ some user.id ∧ ¬ isArchiveAdmin user.toUser then
      throw ⟨403,"Fehlende Berechtigung: eigener Kommentar oder archiveAdmin"⟩
    else return { s with comments := s.comments.set commentId { comment with deletedAt := some now } }
  | _,_ => throw commentNotFound

end Files

/-! ### Search -/

/-- What the database says about a query: the text of its `tsquery`, and the rank of each row that
matches, in full or by its trigrams. -/
structure SearchIndex where
  prefixTsqueryText : PyText → PyText
  dirRank : PyText → Uuid → Option ℚ
  fileRank : PyText → Uuid → Option ℚ
  dirSimilarity : PyText → Uuid → Option ℚ
  fileSimilarity : PyText → Uuid → Option ℚ

inductive SearchHit
  | dir (id : Uuid) (name : PyText) (description : Option PyText) (path : PyText)
  | file (id : Uuid) (name : PyText) (description : Option PyText) (extension : PyText)
    (isImage : Bool) (path : PyText)

def searchLimit : ℕ := 50

/-- The best of the rows that match and are not deleted. -/
def searchRows {ν : Type} (rows : Dict Uuid ν) (deletedAt : ν → Option Timestamp)
    (rank : Uuid → Option ℚ) : List ((Uuid × ν) × ℚ) :=
  (sortBy (fun hit => OrderDual.toDual hit.2) ((rows.entries.filter fun row =>
    (deletedAt row.2).isNone).filterMap fun row => (rank row.1).map fun r => (row,r))).take searchLimit

section Search
variable (fuel : ℕ) (s : ArchiveTables) (index : SearchIndex) (user : Member) (admin : Bool)
  (trashed : List Uuid)

def searchDirsExact (tsquery : PyText) : List ((Uuid × ArchiveDirRow) × ℚ) :=
  searchRows s.dirs (·.deletedAt) (index.dirRank tsquery)

def searchFilesExact (tsquery : PyText) : List ((Uuid × ArchiveFile) × ℚ) :=
  searchRows s.files (·.deletedAt) (index.fileRank tsquery)

def searchDirsFuzzy (query : PyText) : List ((Uuid × ArchiveDirRow) × ℚ) :=
  searchRows s.dirs (·.deletedAt) (index.dirSimilarity query)

def searchFilesFuzzy (query : PyText) : List ((Uuid × ArchiveFile) × ℚ) :=
  searchRows s.files (·.deletedAt) (index.fileSimilarity query)

/-- The names of a path in one line. -/
def dirPathString (id : Uuid) (dir : ArchiveDirRow) : Option PyText :=
  (buildPath s.tree fuel id dir.toArchiveDir).map fun path =>
    (text " / ").intercalate (path.map (·.2))

/-- A loop that keeps what a round collects. -/
def collectHits {α β : Type} (collect : α → Option (Option β)) : List α → Option (List β)
  | [] => some []
  | hit::hits => do
    let collected ← collect hit
    let rest ← collectHits collect hits
    return collected.toList ++ rest

/-- `not admin and (d.id in trashed or not can_insight(user, db, d, perm_sets))`. -/
def hiddenDir (id : Uuid) (dir : ArchiveDirRow) : Option Bool :=
  if admin then some false
  else if id ∈ trashed then some true
  else (canInsight fuel s user dir.toArchiveDir).map fun insight => !insight

/-- One round of `_collect_dir_hits`. -/
def collectDirHit (hit : (Uuid × ArchiveDirRow) × ℚ) :
    Option (Option (ℚ × SearchHit)) := do
  let ((id,d),rank) := hit
  let hidden ← hiddenDir fuel s user admin trashed id d
  if hidden then return none
  else
    let path ← dirPathString fuel s id d
    return some (rank,.dir id d.name d.description path)

/-- One round of `_collect_file_hits`; without a resolvable parent only an admin sees the file. -/
def collectFileHit (hit : (Uuid × ArchiveFile) × ℚ) :
    Option (Option (ℚ × SearchHit)) :=
  let ((id,f),rank) := hit
  let item := f.storeItem
  match f.archiveDirId.bind fun id => (s.dirs.get? id).map fun dir => (id,dir) with
  | none =>
    if ¬ admin then some none
    else some (some (rank,.file id item.name f.description item.extension item.isImage
      (text "Archiv")))
  | some (parentId,parent) => do
    let hidden ← hiddenDir fuel s user admin trashed parentId parent
    if hidden then return none
    else
      let path ← dirPathString fuel s parentId parent
      return some (rank,.file id item.name f.description item.extension item.isImage path)

/-- The hits of one stage. -/
def collectStage (dirs : List ((Uuid × ArchiveDirRow) × ℚ))
    (files : List ((Uuid × ArchiveFile) × ℚ)) : Option (List (ℚ × SearchHit)) := do
  let dirHits ← collectHits (collectDirHit fuel s user admin trashed) dirs
  let fileHits ← collectHits (collectFileHit fuel s user admin trashed) files
  return dirHits ++ fileHits

def fuzzyMinQueryLength : ℕ := 3

/-- The first stage: whole words and beginnings of words. -/
def exactStage (query : PyText) : Option (List (ℚ × SearchHit)) :=
  let tsquery := index.prefixTsqueryText query
  if tsquery=[] then some []
  else collectStage fuel s user admin trashed (searchDirsExact s index tsquery)
    (searchFilesExact s index tsquery)

/-- The second stage tolerates typing errors. -/
def fuzzyStage (query : PyText) : Option (List (ℚ × SearchHit)) :=
  collectStage fuel s user admin trashed (searchDirsFuzzy s index query)
    (searchFilesFuzzy s index query)

/-- The second stage only runs when the first one finds nothing. -/
def rankedHits (query : PyText) (found : List (ℚ × SearchHit)) : Option (List (ℚ × SearchHit)) :=
  if found=[] ∧ fuzzyMinQueryLength ≤ (strip query).length then
    fuzzyStage fuel s index user admin trashed query
  else some found

end Search

def searchArchive (fuel : ℕ) (s : ArchiveTables) (index : SearchIndex) (user : Member)
    (query : PyText) : Option (List SearchHit) := do
  let admin := isArchiveAdmin user.toUser
  let trashed := if admin then [] else trashedDirIds s
  let found ← exactStage fuel s index user admin trashed query
  let ranked ← rankedHits fuel s index user admin trashed query found
  return ((sortBy (fun e => OrderDual.toDual e.1) ranked).take searchLimit).map (·.2)

end VbApi.Archive
