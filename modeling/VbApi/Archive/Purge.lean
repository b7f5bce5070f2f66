import VbApi.Archive.FileReading
import VbApi.Archive.StoreItems
import VbApi.Foundations.Grouping
import VbApi.Foundations.Pagination
import VbApi.Storage.Downsync

/-! The maintenance of files in the trash: the candidates with what a purge of each would do to the
object store, the purge of one file, and the batch that purges only duplicates. -/
namespace VbApi.Archive
open VbApi.Foundations VbApi.Storage

/-- The rows and the bucket. -/
structure ArchiveSystem where
  archive : StoredArchive
  bucket : Bucket

/-- The calls of the object store that raise, with the text of the `ClientError`. -/
structure StorageFaults where
  delete : ObjectKey → Option PyText
  listKeys : PyText → Option PyText

/-- Every call succeeds. -/
def StorageFaults.none : StorageFaults := ⟨fun _ => .none,fun _ => .none⟩

/-! ### Deletion -/

structure HardDeleteOutcome where
  storeItemDeleted : Bool
  s3KeysDeleted : List ObjectKey
  s3Errors : List PyText

/-- The bucket, the keys deleted from it, and the errors on the way. -/
structure S3Cleanup where
  bucket : Bucket
  deleted : List ObjectKey
  errors : List PyText

def storeKey (sha256Hash : PyText) : ObjectKey := s3PathArchiveStore ++ text "/" ++ sha256Hash

def cachePrefix (sha256Hash : PyText) : PyText :=
  s3PathArchiveCache ++ text "/" ++ sha256Hash ++ text "."

section Cleanup
variable (faults : StorageFaults)

/-- One round of the loop over the items that may have lost their last file. -/
def deleteOrphanedStoreItem (s : StoredArchive) (itemId : Uuid) :
    StoredArchive × List ArchiveStoreItem :=
  if h : s.stillReferenced itemId=true then (s,[])
  else
    match s.storeItems.get? itemId with
    | none => (s,[])
    | some item => (s.deleteItem itemId (mt (s.stillReferenced_iff itemId).mpr h),[item])

def deleteOrphanedStoreItems (s : StoredArchive) : List Uuid → StoredArchive × List ArchiveStoreItem
  | [] => (s,[])
  | itemId::itemIds =>
    let first := deleteOrphanedStoreItem s itemId
    let rest := deleteOrphanedStoreItems first.1 itemIds
    (rest.1,first.2 ++ rest.2)

def deleteS3Key (c : S3Cleanup) (key : ObjectKey) : S3Cleanup :=
  match faults.delete key with
  | some exc => { c with errors := c.errors ++ [key ++ text ": " ++ exc] }
  | none => { c with bucket := c.bucket.erase key, deleted := c.deleted ++ [key] }

def purgeS3Object (c : S3Cleanup) (sha256Hash : PyText) : S3Cleanup :=
  let c := deleteS3Key faults c (storeKey sha256Hash)
  let start := cachePrefix sha256Hash
  match faults.listKeys start with
  | some exc => { c with errors := c.errors ++ [text "list_keys(" ++ start ++ text "): " ++ exc] }
  | none => (c.bucket.keysUnder start).foldl (deleteS3Key faults) c

def hardDeleteFile (w : ArchiveSystem) (fileId : Uuid) (file : ArchiveFile) :
    ArchiveSystem × HardDeleteOutcome :=
  let storeItemIds := [file.storeItem.id]
  let rows := deleteOrphanedStoreItems (w.archive.deleteFile fileId) storeItemIds
  let c := (rows.2.map (·.sha256Hash)).foldl (purgeS3Object faults) ⟨w.bucket,[],[]⟩
  (⟨rows.1,c.bucket⟩,⟨rows.2 ≠ [],c.deleted,c.errors⟩)

/-- `Archivdatei {id} nicht gefunden.` and `Archivdatei {id} ist nicht gelöscht-markiert.` -/
inductive ArchiveMaintenanceError
  | notFound (fileId : Uuid)
  | notDeleted (fileId : Uuid)

def getSoftDeletedFile (s : ArchiveTables) (fileId : Uuid) : Except ArchiveMaintenanceError ArchiveFile :=
  match s.files.get? fileId with
  | none => .error (.notFound fileId)
  | some file => if file.deletedAt=none then .error (.notDeleted fileId) else .ok file

structure PurgeResult where
  fileId : Uuid
  storeItemDeleted : Bool
  s3KeysDeleted : List ObjectKey
  s3Errors : List PyText

def purgeFile (w : ArchiveSystem) (fileId : Uuid) :
    Except ArchiveMaintenanceError (ArchiveSystem × PurgeResult) := do
  let file ← getSoftDeletedFile w.archive.toArchiveTables fileId
  let (w',outcome) := hardDeleteFile faults w fileId file
  return (w',⟨fileId,outcome.storeItemDeleted,outcome.s3KeysDeleted,outcome.s3Errors⟩)

end Cleanup

/-! ### The candidates -/

inductive PurgeImpact
  | duplicate
  | shared
  | sole
  deriving DecidableEq

def classifyImpact (activeCount otherDeletedCount : ℤ) : PurgeImpact :=
  if activeCount > 0 then .duplicate
  else if otherDeletedCount > 0 then .shared
  else .sole

structure PurgeCandidate where
  fileId : Uuid
  path : PyText
  name : PyText
  extension : PyText
  description : Option PyText
  deletedAt : Option Timestamp
  size : ℕ
  sha256Hash : PyText
  archiveStoreItemId : Uuid
  archiveDirId : Option Uuid
  activeSiblingCount : ℤ
  otherDeletedSiblingCount : ℤ

def PurgeCandidate.impact (c : PurgeCandidate) : PurgeImpact :=
  classifyImpact c.activeSiblingCount c.otherDeletedSiblingCount

/-- How a command ends before its last line: with an exit code, or with the `KeyError` of an item. -/
inductive ScriptEnd
  | exit (code : ℕ)
  | keyError (itemId : Uuid)

/-- `ORDER BY deleted_at`, on rows that have one. -/
def deletedAtAsc (f : Uuid × ArchiveFile) : Timestamp := f.2.deletedAt.getD 0

section Listing
variable (orderBy : OrderBy deletedAtAsc) (fuel : ℕ) (s : ArchiveTables)

/-- The path, the name and the extension. -/
def describeLocation (file : ArchiveFile) : Option (PyText × PyText × PyText) := do
  let path ←
    match file.archiveDirId.bind fun id => (s.dirs.get? id).map fun dir => (id,dir) with
    | none => some (text "Archiv")
    | some (id,dir) => dirPathString fuel s id dir
  return (path,file.storeItem.name,file.storeItem.extension)

def referenceCount (file : List ArchiveFile) : ℕ × ℕ :=
  (file.countP fun f => f.deletedAt.isNone,file.countP fun f => f.deletedAt.isSome)

/-- The numbers of active and of deleted files by item, from one grouped query. -/
def referenceCounts (storeItemIds : List Uuid) : Dict Uuid (ℕ × ℕ) :=
  if storeItemIds=[] then .empty
  else .ofPairs ((groupBy (fun f : ArchiveFile => f.storeItem.id) (s.files.values.filter fun f =>
    f.storeItem.id ∈ storeItemIds)).map fun g => (g.1,referenceCount g.2))

/-- `counts[id]`. -/
def countsOf (counts : Dict Uuid (ℕ × ℕ)) (itemId : Uuid) : Except ScriptEnd (ℕ × ℕ) :=
  match counts.get? itemId with
  | none => .error (.keyError itemId)
  | some c => .ok c

def toCandidate (f : Uuid × ArchiveFile) (counts : ℕ × ℕ) : Option PurgeCandidate := do
  let (path,name,extension) ← describeLocation fuel s f.2
  let item := f.2.storeItem
  return {
    fileId := f.1
    path := path
    name := name
    extension := extension
    description := f.2.description
    deletedAt := f.2.deletedAt
    size := item.size
    sha256Hash := item.sha256Hash
    archiveStoreItemId := item.id
    archiveDirId := f.2.archiveDirId
    activeSiblingCount := counts.1
    otherDeletedSiblingCount := counts.2-1 }

/-- One candidate for each file; a call that runs out of fuel has no answer. -/
def candidatesFor (files : List (Uuid × ArchiveFile)) : ExceptT ScriptEnd Option (List PurgeCandidate) :=
  let counts := referenceCounts s (files.map (·.2.storeItem.id)).dedup
  files.mapM fun f => do
    let c ← ExceptT.mk (some (countsOf counts f.2.storeItem.id))
    ExceptT.lift (toCandidate fuel s f c)

def listDeletedFiles : ExceptT ScriptEnd Option (List PurgeCandidate) :=
  candidatesFor fuel s (orderBy.pick (s.files.entries.filter fun f => f.2.deletedAt.isSome))

def listDeletedFilesInDir (dirId : Uuid) : ExceptT ScriptEnd Option (List PurgeCandidate) :=
  candidatesFor fuel s (orderBy.pick (s.files.entries.filter fun f =>
    f.2.archiveDirId=some dirId && f.2.deletedAt.isSome))

def isStillDuplicate (candidate : PurgeCandidate) : Except ScriptEnd Bool := do
  let (activeCount,_) ←
    countsOf (referenceCounts s [candidate.archiveStoreItemId]) candidate.archiveStoreItemId
  return 0 < activeCount

end Listing

/-! ### The batch -/

/-- `answer.strip().lower() == "yes"`; without a terminal the script ends. -/
def askYes : Option PyText → Except ScriptEnd Bool
  | none => .error (.exit 1)
  | some answer => .ok ((strip answer).map lowerAscii=text "yes")

structure BatchResult where
  purged : ℕ
  skipped : ℕ
  hadError : Bool
  deriving DecidableEq

section Batch
variable (faults : StorageFaults)

/-- The system after the purge, and whether an error occurred. -/
def purgeOne (w : ArchiveSystem) (candidate : PurgeCandidate) (expectNoS3Impact : Bool) :
    ArchiveSystem × Bool :=
  match purgeFile faults w candidate.fileId with
  | .error _ => (w,true)
  | .ok (w',result) =>
    (w',(expectNoS3Impact && result.storeItemDeleted) || result.s3Errors ≠ [])

/-- The loop over the duplicates; a `KeyError` leaves what is purged by then. -/
def purgeDuplicatesLoop : List PurgeCandidate → ArchiveSystem → BatchResult →
    ArchiveSystem × Except ScriptEnd BatchResult
  | [],w,r => (w,.ok r)
  | candidate::candidates,w,r =>
    match isStillDuplicate w.archive.toArchiveTables candidate with
    | .error e => (w,.error e)
    | .ok false => purgeDuplicatesLoop candidates w { r with skipped := r.skipped+1 }
    | .ok true =>
      let (w',hadError) := purgeOne faults w candidate true
      purgeDuplicatesLoop candidates w'
        (if hadError then { r with hadError := true } else { r with purged := r.purged+1 })

def purgeDuplicatesBatch (answer : Option PyText) (w : ArchiveSystem) (duplicates : List PurgeCandidate) :
    ArchiveSystem × Except ScriptEnd BatchResult :=
  match askYes answer with
  | .error e => (w,.error e)
  | .ok false => (w,.ok ⟨0,0,false⟩)
  | .ok true => purgeDuplicatesLoop faults duplicates w ⟨0,0,false⟩

/-- The command `purge-duplicates`: how it ends, and the system that it leaves. -/
def runPurgeDuplicates (orderBy : OrderBy deletedAtAsc) (fuel : ℕ) (answer : Option PyText)
    (w : ArchiveSystem) (dirId : Uuid) : Option (ArchiveSystem × ScriptEnd) := do
  match ← (listDeletedFilesInDir orderBy fuel w.archive.toArchiveTables dirId).run with
  | .error e => return (w,e)
  | .ok candidates =>
    let duplicates := candidates.filter fun c => c.impact=.duplicate
    if candidates=[] ∨ duplicates=[] then return (w,.exit 0)
    match purgeDuplicatesBatch faults answer w duplicates with
    | (w',.error e) => return (w',e)
    | (w',.ok r) => return (w',.exit (if r.hadError then 1 else 0))

end Batch
end VbApi.Archive
