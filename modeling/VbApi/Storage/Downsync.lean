import VbApi.Foundations.Dict
import VbApi.Foundations.Stateful
import VbApi.Storage.Backups

/-! The downsync job: the production bucket is mirrored into the local one, then the database is
restored from the newest local backup. Every call of an object store may fail. -/
namespace VbApi.Storage
open VbApi.Foundations Stateful

structure StoredObject where
  data : List UInt8
  contentType : String
  deriving DecidableEq

abbrev Bucket := Dict ObjectKey StoredObject

def Bucket.keysUnder (b : Bucket) (start : PyText) : List ObjectKey :=
  b.keys.filter fun key => start <+: key

inductive DownsyncError
  | clientError
  | connectionError
  | uploadFailed (key : ObjectKey)
  | emptySource (start : PyText) (orphans : ℕ)
  | noBackupToMirror
  | noPostgres
  | restoreInProduction
  | noBackups
  /-- A tool of the database ends with an error, or the restored database is empty. -/
  | toolFailed
  deriving DecidableEq

/-- The local bucket, the content of the local database, and the number of storage calls so far. -/
structure Stage where
  bucket : Bucket
  database : Option (List UInt8)
  calls : ℕ

structure DownsyncSettings where
  production : Bool
  prodCredentials : Bool
  downsyncLight : Bool
  postgresUrl : Bool
  standesdbImages : PyText
  standesdbCache : PyText
  publicGallery : PyText
  dbBackups : PyText

/-- The storage call with a number fails with an error. -/
abbrev Outage := ℕ → Option DownsyncError

/-- What the tools of the database do: restoring a dump may fail, so may the migration. -/
structure DatabaseTools where
  restores : List UInt8 → Bool
  migrates : Bool

/-- Which keys a mirror copied, left or deleted. -/
structure MirrorResult where
  synced : List ObjectKey
  skipped : ℕ
  deleted : List ObjectKey
  errors : List ObjectKey
  deriving DecidableEq

def MirrorResult.empty : MirrorResult := ⟨[],0,[],[]⟩

def MirrorResult.hasErrors (r : MirrorResult) : Bool := !r.errors.isEmpty

/-- `_merge_into`. -/
def MirrorResult.merge (total part : MirrorResult) : MirrorResult where
  synced := total.synced ++ part.synced
  skipped := total.skipped+part.skipped
  deleted := total.deleted ++ part.deleted
  errors := total.errors ++ part.errors

abbrev Job := Stateful DownsyncError Stage

section Calls
variable (outage : Outage) (prod : Bucket)

def storageCall : Job PUnit := do
  let stage ← get
  modify fun stage => { stage with calls := stage.calls+1 }
  match outage stage.calls with
  | some e => throw e
  | none => return

def listProd (start : PyText) : Job (List ObjectKey) := do
  storageCall outage
  return prod.keysUnder start

def listLocal (start : PyText) : Job (List ObjectKey) := do
  storageCall outage
  let stage ← get
  return stage.bucket.keysUnder start

def downloadProd (key : ObjectKey) : Job StoredObject := do
  storageCall outage
  match prod.get? key with
  | some o => return o
  | none => throw .clientError

def downloadLocal (key : ObjectKey) : Job (List UInt8) := do
  storageCall outage
  let stage ← get
  match stage.bucket.get? key with
  | some o => return o.data
  | none => throw .clientError

def uploadLocal (key : ObjectKey) (o : StoredObject) : Job PUnit := do
  tryCatch (storageCall outage) fun e =>
    throw (if e=.clientError then .uploadFailed key else e)
  modify fun stage => { stage with bucket := stage.bucket.set key o }

def deleteLocal (key : ObjectKey) : Job PUnit := do
  storageCall outage
  modify fun stage => { stage with bucket := stage.bucket.erase key }

/-! ### Mirroring -/

/-- `_copy_key`. -/
def copyKey (key : ObjectKey) : Job PUnit := do
  let o ← downloadProd outage prod key
  uploadLocal outage key o

/-- One round of the copies: a failed copy is recorded. -/
def copyMissing (dryRun : Bool) (result : MirrorResult) (key : ObjectKey) : Job MirrorResult :=
  if dryRun then return { result with synced := result.synced ++ [key] }
  else tryCatch
    (do
      copyKey outage prod key
      return { result with synced := result.synced ++ [key] })
    fun _ => return { result with errors := result.errors ++ [key] }

/-- One round of `_delete_orphans`. -/
def deleteOrphan (dryRun : Bool) (deleted : List ObjectKey) (key : ObjectKey) :
    Job (List ObjectKey) := do
  if dryRun then return deleted ++ [key]
  deleteLocal outage key
  return deleted ++ [key]

def mirrorPrefix (start : PyText) (dryRun deleteOrphans : Bool) : Job MirrorResult := do
  let sourceKeys ← listProd outage prod start
  let destKeys ← listLocal outage start
  let missing := sortBy id (sourceKeys.filter (· ∉ destKeys))
  let orphans := destKeys.filter (· ∉ sourceKeys)
  if deleteOrphans ∧ orphans ≠ [] ∧ sourceKeys=[] then
    throw (.emptySource start orphans.length)
  let result ← missing.foldlM (copyMissing outage prod dryRun)
    ⟨[],sourceKeys.length-missing.length,[],[]⟩
  if deleteOrphans then
    let deleted ← (sortBy id orphans).foldlM (deleteOrphan outage dryRun) []
    return { result with deleted := deleted }
  return result

variable (settings : DownsyncSettings)

/-- The prefixes that `mirror_light` mirrors, for a newest backup. -/
def lightPrefixes (newest : ObjectKey) : List PyText :=
  [settings.standesdbImages,settings.standesdbCache,settings.publicGallery].map backupPrefix ++ [newest]

/-- One prefix of `mirror_light`. -/
def mirrorPart (dryRun deleteOrphans : Bool) (result : MirrorResult) (start : PyText) :
    Job MirrorResult := do
  let part ← mirrorPrefix outage prod start dryRun deleteOrphans
  return result.merge part

def mirrorLight (dryRun deleteOrphans : Bool) : Job MirrorResult := do
  let keys ← listProd outage prod (backupPrefix settings.dbBackups)
  match latestBackupKey settings.dbBackups keys with
  | none => throw .noBackupToMirror
  | some newest =>
    (lightPrefixes settings newest).foldlM (mirrorPart outage prod dryRun deleteOrphans) .empty

/-! ### Restoring -/

/-- `_retry_transient_s3` with some attempts before the last one. -/
def retryTransientS3 {α : Type} (operation : Job α) : ℕ → Job α
  | 0 => operation
  | n+1 => tryCatch operation fun e =>
    if e=.clientError then retryTransientS3 operation n else throw e

variable (tools : DatabaseTools)

/-- Wipe the schema and load the dump. -/
def restoreDump (data : List UInt8) : Job PUnit := do
  if tools.restores data then
    modify fun stage => { stage with database := some data }
  else
    modify fun stage => { stage with database := none }
    throw .toolFailed

/-- The name of the newest local backup. -/
def latestBackupName : Job PyText := do
  let keys ← retryTransientS3 (listLocal outage (backupPrefix settings.dbBackups)) 2
  match latestBackupKey settings.dbBackups keys with
  | none => throw .noBackups
  | some latest => return removePrefix (backupPrefix settings.dbBackups) latest

def runRestore (backupName : Option PyText) (force : Bool) : Job PyText := do
  if !settings.postgresUrl then throw .noPostgres
  if settings.production ∧ ¬ force then throw .restoreInProduction
  let name ← match backupName with
    | some name => pure name
    | none => latestBackupName outage settings
  let data ← retryTransientS3 (downloadLocal outage (backupPrefix settings.dbBackups ++ name)) 2
  restoreDump tools data
  return name

/-! ### The job -/

/-- How a run of the job ends. -/
inductive DownsyncEnd
  | refused
  | noCredentials
  | mirrorFailed (e : DownsyncError)
  | mirrorErrors (errors : ℕ)
  | restoreFailed (e : DownsyncError)
  | migrationFailed
  | complete (result : MirrorResult) (restored : PyText)

/-- The exit code that is recorded; a refused run records nothing. -/
def DownsyncEnd.exitCode : DownsyncEnd → Option ℕ
  | .refused => none
  | .complete .. => some 0
  | _ => some 1

def mirror : Job MirrorResult :=
  if settings.downsyncLight then mirrorLight outage prod settings false true
  else mirrorPrefix outage prod [] false true

def jobDownsync (stage : Stage) : DownsyncEnd × Stage :=
  if settings.production then (.refused,stage)
  else if !settings.prodCredentials then (.noCredentials,stage)
  else
    match exec (mirror outage prod settings) stage with
    | (.error e,stage) => (.mirrorFailed e,stage)
    | (.ok result,stage) =>
      if result.hasErrors then (.mirrorErrors result.errors.length,stage)
      else
        match exec (runRestore outage settings tools none false) stage with
        | (.error e,stage) => (.restoreFailed e,stage)
        | (.ok restored,stage) =>
          if tools.migrates then (.complete result restored,stage) else (.migrationFailed,stage)

end Calls
end VbApi.Storage
