import VbApi.Archive.PurgeImpact
import VbApi.Foundations.Machine
import VbApi.Foundations.Results

/-! The life of a file in the archive: it is uploaded, filed into directories, put into the trash, taken
out again and deleted for good, by its uploader, by admins and by the maintenance script. -/
namespace VbApi.Archive
open VbApi.Foundations VbApi.Storage

/-! ### Rows -/

namespace StoredArchive
variable (s : StoredArchive)

/-- The columns of a file change, but not its stored object. -/
def setFile (fileId : Uuid) (file : ArchiveFile)
    (hitem : s.storeItems.get? file.storeItem.id=some file.storeItem)
    (hdir : ∀ dirId, file.archiveDirId=some dirId → ∃ dir, s.dirs.get? dirId=some dir) :
    StoredArchive where
  toArchiveTables := { s.toArchiveTables with files := s.files.set fileId file }
  storeItems := s.storeItems
  item_id := s.item_id
  item_hash := s.item_hash
  file_item id f h := by
    rw [Dict.get?_set] at h
    split_ifs at h
    · cases h
      exact hitem
    · exact s.file_item id f h
  file_dir id f dirId h hf := by
    rw [Dict.get?_set] at h
    split_ifs at h
    · cases h
      exact hdir dirId hf
    · exact s.file_dir id f dirId h hf
  dir_parent := s.dir_parent
  comment_file commentId comment h := by
    obtain ⟨f,hf⟩ := s.comment_file commentId comment h
    rw [Dict.get?_set]
    split_ifs
    · exact ⟨file,rfl⟩
    · exact ⟨f,hf⟩

/-- What the keys and checks of the two tables ask of the rows of an upload. -/
def Insertable (item : ArchiveStoreItem) : Prop :=
  (s.storeItems.find? fun _ i => i.sha256Hash=item.sha256Hash)=none ∧
  s.storeItems.get? item.id=none ∧ s.files.get? (item.id+1)=none ∧
  Storable item.name ∧ (∀ d ∈ item.description, Storable d ∧ d.length ≤ 128) ∧
  Storable item.extension ∧ Storable item.mimeType

instance (item : ArchiveStoreItem) : Decidable (s.Insertable item) :=
  inferInstanceAs (Decidable (_ ∧ _))

variable {s} in
lemma Insertable.hash_ne {item : ArchiveStoreItem} (h : s.Insertable item) {itemId : Uuid}
    {item' : ArchiveStoreItem} (hitem : s.storeItems.get? itemId=some item') :
    item'.sha256Hash ≠ item.sha256Hash := by
  intro heq
  have hnot := List.find?_eq_none.mp h.1 (itemId,item') ((Dict.get?_eq_some_iff _ _ _).mp hitem)
  exact hnot (decide_eq_true heq)

/-- The unfiled file of an upload. -/
def unfiled (item : ArchiveStoreItem) : ArchiveFile := ⟨none,item.description,item,none⟩

/-- Insert the rows of an upload; the file gets the id after that of the item. -/
def insertUpload (item : ArchiveStoreItem) (h : s.Insertable item) : StoredArchive where
  toArchiveTables := { s.toArchiveTables with
    files := s.files.set (item.id+1) (unfiled item)
    nextUuid := item.id+2 }
  storeItems := s.storeItems.set item.id item
  item_id itemId i hi := by
    rw [Dict.get?_set] at hi
    split_ifs at hi with hid
    · cases hi
      exact hid.symm
    · exact s.item_id itemId i hi
  item_hash a b i j hi hj heq := by
    rw [Dict.get?_set] at hi hj
    split_ifs at hi hj with ha hb hb
    · exact ha.trans hb.symm
    · cases hi
      exact absurd heq.symm (h.hash_ne hj)
    · cases hj
      exact absurd heq (h.hash_ne hi)
    · exact s.item_hash a b i j hi hj heq
  file_item id f hf := by
    rw [Dict.get?_set] at hf
    split_ifs at hf
    · cases hf
      exact Dict.get?_set_self _ _ _
    · have hitem := s.file_item id f hf
      have hne : f.storeItem.id ≠ item.id := by
        intro heq
        rw [heq,h.2.1] at hitem
        cases hitem
      rw [Dict.get?_set_of_ne _ hne]
      exact hitem
  file_dir id f dirId hf hdir := by
    rw [Dict.get?_set] at hf
    split_ifs at hf
    · cases hf
      cases hdir
    · exact s.file_dir id f dirId hf hdir
  dir_parent := s.dir_parent
  comment_file commentId comment hc := by
    obtain ⟨f,hf⟩ := s.comment_file commentId comment hc
    rw [Dict.get?_set]
    split_ifs
    · exact ⟨_,rfl⟩
    · exact ⟨f,hf⟩

section Receive
variable (target : Option Uuid)

/-- One round of the loop over the files; a missing one is passed over. -/
def receiveFile (s : StoredArchive)
    (htarget : ∀ dirId, target=some dirId → ∃ dir, s.dirs.get? dirId=some dir) (fileId : Uuid) :
    StoredArchive :=
  match h : s.files.get? fileId with
  | none => s
  | some file => s.setFile fileId { file with archiveDirId := target }
      (s.file_item fileId file h) htarget

lemma receiveFile_dirs (s : StoredArchive)
    (htarget : ∀ dirId, target=some dirId → ∃ dir, s.dirs.get? dirId=some dir) (fileId : Uuid) :
    (s.receiveFile target htarget fileId).dirs=s.dirs := by
  unfold receiveFile
  split <;> rfl

def receiveFiles (s : StoredArchive)
    (htarget : ∀ dirId, target=some dirId → ∃ dir, s.dirs.get? dirId=some dir) :
    List Uuid → StoredArchive
  | [] => s
  | fileId::fileIds => receiveFiles (s.receiveFile target htarget fileId)
      (by rw [receiveFile_dirs]; exact htarget) fileIds

end Receive

end StoredArchive

/-! ### Requests -/

/-- Why a request or a command changes no rows. -/
inductive Refusal
  | http (status : ℕ) (detail : PyText)
  | maintenance (e : ArchiveMaintenanceError)
  /-- `Archivdatei {id} ist nicht SOLE …` -/
  | notSole (fileId : Uuid)
  | keyError (itemId : Uuid)
  | storage
  | database

/-- The archive that a request leaves, and its refusal. -/
abbrev Outcome := ArchiveSystem × Option Refusal

def uploadExtensions : List PyText :=
  [text "gif",text "jpg",text "jpeg",text "png",text "doc",text "docx",text "xls",text "xlsx",
    text "pdf",text "txt",text "mp3",text "mp4",text "avi",text "mpga",text "ai",text "eps"]

def uploadMinKb : ℕ := 2
def uploadMaxKb : ℕ := 10240
def uploadDescMin : ℕ := 5
def uploadDescMax : ℕ := 125

structure UploadFile where
  filename : Option PyText
  contentType : Option String
  content : List UInt8

/-- `filename.rsplit(".", 1)`, if there is a dot. -/
def rsplitDot (filename : PyText) : Option (PyText × PyText) :=
  let isDot := fun c : CodePoint => c=codePoint '.'
  if filename.any isDot then
    some ((filename.reverse.dropWhile fun c => ¬ isDot c).tail.reverse,
      (filename.reverse.takeWhile fun c => ¬ isDot c).reverse)
  else none

def fileMissing : Refusal := .http 404 (text "Datei nicht gefunden.")

section Upload
variable (sha256 : List UInt8 → PyText) (lower : PyText → PyText)

/-- The item with the content, in the trash or not. -/
def existingItem (s : StoredArchive) (sha256Hash : PyText) : Option (Uuid × ArchiveStoreItem) :=
  s.storeItems.find? fun _ item => item.sha256Hash=sha256Hash

/-- The name and the extension of an upload that is accepted. -/
def checkUpload (s : StoredArchive) (file : UploadFile) (description : PyText) :
    Except Refusal (PyText × PyText) :=
  match file.filename.bind rsplitDot with
  | none => .error (.http 422 (text "Datei hat keine Dateiendung."))
  | some (name,ext) => do
    let ext := lower ext
    guardError (ext ∈ uploadExtensions) (.http 422 (text "Unerlaubtes Dateiformat: " ++ ext))
    guardError (¬ file.content.length < uploadMinKb*1024)
      (.http 422 (text "Datei zu klein. Minimum: 2 KB"))
    guardError (¬ file.content.length > uploadMaxKb*1024)
      (.http 422 (text "Datei zu groß. Maximum: 10240 KB"))
    guardError (existingItem s (sha256 file.content)=none)
      (.http 422 (text "Datei existiert bereits."))
    guardError (¬ (description.length < uploadDescMin ∨ description.length > uploadDescMax))
      (.http 422 (text "Beschreibung muss 5-125 Zeichen lang sein."))
    return (name,ext)

def mimeTypeOf (file : UploadFile) : String :=
  match file.contentType with
  | none | some "" => "application/octet-stream"
  | some contentType => contentType

def uploadedItem (w : ArchiveSystem) (user : Uuid) (now : Timestamp) (file : UploadFile)
    (description name ext : PyText) : ArchiveStoreItem where
  id := w.archive.nextUuid
  name := name
  description := some description
  extension := ext
  mimeType := text (mimeTypeOf file)
  size := file.content.length
  sha256Hash := sha256 file.content
  createdBy := some user
  createdAt := now

/-- The object is put before the rows are written. -/
def uploadFile (w : ArchiveSystem) (user : Uuid) (now : Timestamp) (file : UploadFile)
    (description : PyText) (putFails : Bool) : Outcome :=
  match checkUpload sha256 lower w.archive file description with
  | .error e => (w,some e)
  | .ok (name,ext) =>
    if putFails then (w,some .storage)
    else
      let item := uploadedItem sha256 w user now file description name ext
      let bucket := w.bucket.set (storeKey item.sha256Hash) ⟨file.content,mimeTypeOf file⟩
      if h : w.archive.Insertable item then (⟨w.archive.insertUpload item h,bucket⟩,none)
      else (⟨w.archive,bucket⟩,some .database)

end Upload

section Requests
variable (w : ArchiveSystem)

/-- Change the row of a file, but neither its stored object nor its directory. -/
def changeFile (fileId : Uuid) (change : ArchiveFile → ArchiveFile)
    (hchange : ∀ f, (change f).storeItem=f.storeItem ∧ (change f).archiveDirId=f.archiveDirId) :
    Outcome :=
  match h : w.archive.files.get? fileId with
  | none => (w,some fileMissing)
  | some file =>
    (⟨w.archive.setFile fileId (change file)
      (by rw [(hchange file).1]; exact w.archive.file_item fileId file h)
      (by rw [(hchange file).2]; exact fun dirId => w.archive.file_dir fileId file dirId h),
      w.bucket⟩,none)

def requireAdmin (user : Member) (outcome : Outcome) : Outcome :=
  if isArchiveAdmin user.toUser then outcome
  else (w,some (.http 403 (text "Fehlende Berechtigung: archiveAdmin")))

/-- A validated request. -/
structure FileUpdateRequest where
  description : Option PyText
  length : ∀ d ∈ description, d.length ≤ 128

def updateFile (user : Member) (fileId : Uuid) (data : FileUpdateRequest) : Outcome :=
  requireAdmin w user <|
    if ∀ d ∈ data.description, Storable d then
      changeFile w fileId (fun f => { f with description := data.description }) fun _ => ⟨rfl,rfl⟩
    else (w,some .database)

def deleteFile (user : Member) (now : Timestamp) (fileId : Uuid) : Outcome :=
  requireAdmin w user <|
    changeFile w fileId (fun f => { f with deletedAt := some now }) fun _ => ⟨rfl,rfl⟩

def restoreFile (user : Member) (fileId : Uuid) : Outcome :=
  requireAdmin w user <|
    changeFile w fileId (fun f => { f with deletedAt := none }) fun _ => ⟨rfl,rfl⟩

/-- `receive_items` for files. -/
def receiveItems (user : Member) (target : Option Uuid) (fileIds : List Uuid) : Outcome :=
  requireAdmin w user <|
    if h : ∀ dirId ∈ target, (w.archive.dirs.get? dirId).isSome then
      (⟨w.archive.receiveFiles target (fun dirId hdir => Option.isSome_iff_exists.mp (h dirId hdir))
        fileIds,w.bucket⟩,none)
    else (w,some (.http 404 (text "Zielverzeichnis nicht gefunden.")))

def getUnfiledUploads (s : ArchiveTables) (userId : Uuid) : List FileShort :=
  (s.files.entries.filter fun f =>
    f.2.archiveDirId.isNone && f.2.deletedAt.isNone && f.2.storeItem.createdBy=some userId).map
      fun f => fileShort f.1 f.2

/-- Errors of the object store are only logged. -/
def deleteUnfiledUpload (faults : StorageFaults) (user : Member) (fileId : Uuid) : Outcome :=
  match w.archive.files.get? fileId with
  | none => (w,some fileMissing)
  | some file =>
    if file.storeItem.createdBy ≠ some user.id then (w,some fileMissing)
    else if file.archiveDirId ≠ none then (w,some (.http 409
      (text "Die Datei wurde bereits einsortiert und kann nicht mehr gelöscht werden.")))
    else ((hardDeleteFile faults w fileId file).1,none)

def getUnsortedUploadCount (s : ArchiveTables) : ℕ :=
  s.files.values.countP fun f => f.archiveDirId.isNone && f.deletedAt.isNone

/-! ### Commands of the maintenance -/

def purge (faults : StorageFaults) (fileId : Uuid) : Outcome :=
  match purgeFile faults w fileId with
  | .error e => (w,some (.maintenance e))
  | .ok (w',_) => (w',none)

/-- Only a file whose content no other row refers to is taken out of the trash. -/
def restoreSole (fileId : Uuid) : Outcome :=
  match getSoftDeletedFile w.archive.toArchiveTables fileId with
  | .error e => (w,some (.maintenance e))
  | .ok file =>
    match countsOf (referenceCounts w.archive.toArchiveTables [file.storeItem.id])
        file.storeItem.id with
    | .error _ => (w,some (.keyError file.storeItem.id))
    | .ok counts =>
      if classifyImpact counts.1 ((counts.2 : ℤ)-1)=.sole then
        changeFile w fileId (fun f => { f with deletedAt := none }) fun _ => ⟨rfl,rfl⟩
      else (w,some (.notSole fileId))

end Requests

/-! ### What one step does -/

section Objects
variable {faults : StorageFaults} {c : S3Cleanup} {key : ObjectKey}

lemma deleteS3Key_other {k : ObjectKey} (hne : key ≠ k) :
    (deleteS3Key faults c k).bucket.get? key=c.bucket.get? key := by
  unfold deleteS3Key
  cases faults.delete k with
  | some exc => rfl
  | none => exact (Dict.get?_erase _ _ _).trans (if_neg hne)

lemma deleteS3Keys_other {keys : List ObjectKey} (hkeys : key ∉ keys) :
    (keys.foldl (deleteS3Key faults) c).bucket.get? key=c.bucket.get? key := by
  induction keys generalizing c with
  | nil => rfl
  | cons k keys ih =>
    obtain ⟨hne,hkeys⟩ := not_or.mp (mt List.mem_cons.mpr hkeys)
    rw [List.foldl_cons,ih hkeys,deleteS3Key_other hne]

/-- Objects of other contents stay, whichever calls fail. -/
lemma purgeS3Object_other {sha256Hash : PyText} (hkey : ¬ KeyOf sha256Hash key) :
    (purgeS3Object faults c sha256Hash).bucket.get? key=c.bucket.get? key := by
  obtain ⟨hstore,hderived⟩ := not_or.mp hkey
  unfold purgeS3Object
  dsimp only
  cases faults.listKeys (cachePrefix sha256Hash) with
  | some exc => exact deleteS3Key_other hstore
  | none =>
    dsimp only
    rw [deleteS3Keys_other,deleteS3Key_other hstore]
    intro hmem
    rw [Bucket.keysUnder,List.mem_filter] at hmem
    exact hderived (of_decide_eq_true hmem.2)

/-- The object of one content is no key of another. -/
lemma not_keyOf_storeKey {a b : PyText} (hne : a ≠ b) : ¬ KeyOf b (storeKey a) := by
  rintro (heq | hderived)
  · exact hne (List.append_cancel_left heq)
  · obtain ⟨rest,hrest⟩ := hderived
    have hlength : (s3PathArchiveCache ++ text "/").length=(s3PathArchiveStore ++ text "/").length := by
      decide
    have heq : (s3PathArchiveCache ++ text "/") ++ (b ++ text "." ++ rest)=
        (s3PathArchiveStore ++ text "/") ++ a := by
      simpa only [cachePrefix,storeKey,List.append_assoc] using hrest
    exact absurd (List.append_inj_left heq hlength) (by decide)

end Objects

/-- The row of a file is deleted; with the last file of an item the item goes, and then its objects. -/
structure HardDeleted (w : ArchiveSystem) (fileId : Uuid) (file : ArchiveFile) (w' : ArchiveSystem) :
    Prop where
  row : w.archive.files.get? fileId=some file
  files : ∀ id, w'.archive.files.get? id=if id=fileId then none else w.archive.files.get? id
  next : w'.archive.nextUuid=w.archive.nextUuid
  items : ∀ itemId item, w'.archive.storeItems.get? itemId=some item ↔
    w.archive.storeItems.get? itemId=some item ∧ (itemId=file.storeItem.id →
      ∃ other, other ≠ fileId ∧ RefersTo w.archive.toArchiveTables itemId other)
  objects : ∀ key, (¬ KeyOf file.storeItem.sha256Hash key ∨
    ∃ other, other ≠ fileId ∧ RefersTo w.archive.toArchiveTables file.storeItem.id other) →
      w'.bucket.get? key=w.bucket.get? key

/-- If the file was the last one of its item, none of its objects is left. -/
def Gone (w : ArchiveSystem) (fileId : Uuid) (file : ArchiveFile) (w' : ArchiveSystem) : Prop :=
  (∀ other, RefersTo w.archive.toArchiveTables file.storeItem.id other → other=fileId) →
    ∀ key, KeyOf file.storeItem.sha256Hash key → w'.bucket.get? key=none

section HardDelete
variable {w : ArchiveSystem} {fileId : Uuid} {file : ArchiveFile}

/-- With the last file of an item the item goes, and its objects if no call fails. -/
lemma hardDeleteFile_sole (faults : StorageFaults) (hfile : w.archive.files.get? fileId=some file)
    (hfree : ¬ (w.archive.deleteFile fileId).Referenced file.storeItem.id) :
    (hardDeleteFile faults w fileId file).1=
      ⟨(w.archive.deleteFile fileId).deleteItem file.storeItem.id hfree,
        (purgeS3Object faults ⟨w.bucket,[],[]⟩ file.storeItem.sha256Hash).bucket⟩ := by
  have hnot : (w.archive.deleteFile fileId).stillReferenced file.storeItem.id ≠ true :=
    mt (StoredArchive.stillReferenced_iff _ _).mp hfree
  have hget : (w.archive.deleteFile fileId).storeItems.get? file.storeItem.id=some file.storeItem :=
    w.archive.file_item fileId file hfile
  have hrows : deleteOrphanedStoreItems (w.archive.deleteFile fileId) [file.storeItem.id]=
      ((w.archive.deleteFile fileId).deleteItem file.storeItem.id hfree,[file.storeItem]) := by
    simp [deleteOrphanedStoreItems,deleteOrphanedStoreItem,hnot,hget]
  simp [hardDeleteFile,hrows]

lemma hardDeleteFile_spec (faults : StorageFaults) (hfile : w.archive.files.get? fileId=some file) :
    HardDeleted w fileId file (hardDeleteFile faults w fileId file).1 := by
  have hreferenced : (w.archive.deleteFile fileId).Referenced file.storeItem.id ↔
      ∃ other, other ≠ fileId ∧ RefersTo w.archive.toArchiveTables file.storeItem.id other := by
    rw [referenced_iff]
    simp only [refersTo_deleteFile]
  by_cases hshared : (w.archive.deleteFile fileId).stillReferenced file.storeItem.id=true
  · have hrows : deleteOrphanedStoreItems (w.archive.deleteFile fileId) [file.storeItem.id]=
        (w.archive.deleteFile fileId,[]) := by
      simp [deleteOrphanedStoreItems,deleteOrphanedStoreItem,hshared]
    have hother := hreferenced.mp ((StoredArchive.stillReferenced_iff _ _).mp hshared)
    have heq : (hardDeleteFile faults w fileId file).1=⟨w.archive.deleteFile fileId,w.bucket⟩ := by
      simp [hardDeleteFile,hrows]
    rw [heq]
    refine ⟨hfile,get?_deleteFile w.archive fileId,rfl,?_,fun _ _ => rfl⟩
    intro itemId item
    exact ⟨fun h => ⟨h,fun hid => hid ▸ hother⟩,And.left⟩
  · have hfree : ¬ (w.archive.deleteFile fileId).Referenced file.storeItem.id :=
      mt (StoredArchive.stillReferenced_iff _ _).mpr hshared
    rw [hardDeleteFile_sole faults hfile hfree]
    refine ⟨hfile,get?_deleteFile w.archive fileId,rfl,?_,?_⟩
    · intro itemId item
      change (w.archive.storeItems.erase _).get? itemId=some item ↔ _
      rw [Dict.get?_erase]
      by_cases hid : itemId=file.storeItem.id
      · subst hid
        simp only [if_true,forall_const,← hreferenced,hfree,and_false]
        simp
      · simp [hid]
    · intro key hkey
      obtain hother | hother := hkey
      · exact purgeS3Object_other hother
      · exact absurd (hreferenced.mpr hother) hfree

lemma hardDeleteFile_gone {faults : StorageFaults} (hfile : w.archive.files.get? fileId=some file)
    (hfaults : faults=.none) : Gone w fileId file (hardDeleteFile faults w fileId file).1 := by
  classical
  intro hsole key hkey
  subst hfaults
  have hfree : ¬ (w.archive.deleteFile fileId).Referenced file.storeItem.id := by
    rw [referenced_iff]
    rintro ⟨other,hother⟩
    obtain ⟨hne,hrefers⟩ := (refersTo_deleteFile _ _ _ _).mp hother
    exact hne (hsole other hrefers)
  rw [hardDeleteFile_sole .none hfile hfree]
  exact (purgeS3Object_bucket _ _ _).trans (if_pos hkey)

end HardDelete

/-- Nothing but columns of files that say nothing about their objects is changed. -/
structure Rearranged (w w' : ArchiveSystem) : Prop where
  items : w'.archive.storeItems=w.archive.storeItems
  bucket : w'.bucket=w.bucket
  next : w'.archive.nextUuid=w.archive.nextUuid
  files : ∀ id, (w'.archive.files.get? id).map (·.storeItem)=
    (w.archive.files.get? id).map (·.storeItem)

section Rearrange
variable {w w' w'' : ArchiveSystem}

lemma Rearranged.refl (w : ArchiveSystem) : Rearranged w w := ⟨rfl,rfl,rfl,fun _ => rfl⟩

lemma Rearranged.trans (h : Rearranged w w') (h' : Rearranged w' w'') : Rearranged w w'' where
  items := h'.items.trans h.items
  bucket := h'.bucket.trans h.bucket
  next := h'.next.trans h.next
  files id := (h'.files id).trans (h.files id)

lemma Rearranged.set {fileId : Uuid} {file file' : ArchiveFile}
    (hfile : w.archive.files.get? fileId=some file) (hsame : file'.storeItem=file.storeItem)
    (hitems : w'.archive.storeItems=w.archive.storeItems) (hbucket : w'.bucket=w.bucket)
    (hnext : w'.archive.nextUuid=w.archive.nextUuid)
    (hfiles : w'.archive.files=w.archive.files.set fileId file') : Rearranged w w' := by
  refine ⟨hitems,hbucket,hnext,?_⟩
  intro id
  rw [hfiles,Dict.get?_set]
  split_ifs with hid
  · rw [hid,hfile,Option.map_some,Option.map_some,hsame]
  · rfl

lemma changeFile_rearranged (fileId : Uuid) (change : ArchiveFile → ArchiveFile)
    (hchange : ∀ f, (change f).storeItem=f.storeItem ∧ (change f).archiveDirId=f.archiveDirId) :
    Rearranged w (changeFile w fileId change hchange).1 := by
  unfold changeFile
  split
  · exact .refl w
  · rename_i file hfile
    exact .set hfile (hchange file).1 rfl rfl rfl rfl

lemma receiveFiles_rearranged (target : Option Uuid) {s : StoredArchive} {bucket : Bucket}
    (htarget : ∀ dirId, target=some dirId → ∃ dir, s.dirs.get? dirId=some dir)
    (fileIds : List Uuid) :
    Rearranged ⟨s,bucket⟩ ⟨s.receiveFiles target htarget fileIds,bucket⟩ := by
  induction fileIds generalizing s with
  | nil => exact .refl _
  | cons fileId fileIds ih =>
    refine Rearranged.trans ?_ (ih _)
    unfold StoredArchive.receiveFile
    split
    · exact .refl _
    · rename_i file hfile
      refine .set hfile ?_ rfl rfl rfl rfl
      rfl

end Rearrange

section Runs
variable (sha256 : List UInt8 → PyText) (lower : PyText → PyText)

inductive LifecycleOp
  | uploadFile (user : Uuid) (now : Timestamp) (file : UploadFile) (description : PyText)
    (putFails : Bool)
  | updateFile (user : Member) (fileId : Uuid) (data : FileUpdateRequest)
  | deleteFile (user : Member) (now : Timestamp) (fileId : Uuid)
  | restoreFile (user : Member) (fileId : Uuid)
  | receiveItems (user : Member) (target : Option Uuid) (fileIds : List Uuid)
  | deleteUnfiledUpload (faults : StorageFaults) (user : Member) (fileId : Uuid)
  | purgeFile (faults : StorageFaults) (fileId : Uuid)
  | restoreSole (fileId : Uuid)

def LifecycleOp.perform (w : ArchiveSystem) : LifecycleOp → Outcome
  | .uploadFile user now file description putFails =>
    Archive.uploadFile sha256 lower w user now file description putFails
  | .updateFile user fileId data => Archive.updateFile w user fileId data
  | .deleteFile user now fileId => Archive.deleteFile w user now fileId
  | .restoreFile user fileId => Archive.restoreFile w user fileId
  | .receiveItems user target fileIds => Archive.receiveItems w user target fileIds
  | .deleteUnfiledUpload faults user fileId => Archive.deleteUnfiledUpload w faults user fileId
  | .purgeFile faults fileId => purge w faults fileId
  | .restoreSole fileId => Archive.restoreSole w fileId

def lifecycleMachine : Machine ArchiveSystem LifecycleOp where
  step w op := some (op.perform sha256 lower w).1

/-- A request of an admin, or a command of the maintenance. -/
def LifecycleOp.privileged : LifecycleOp → Bool
  | .uploadFile _ _ _ _ _ => false
  | .updateFile user _ _ => isArchiveAdmin user.toUser
  | .deleteFile user _ _ => isArchiveAdmin user.toUser
  | .restoreFile user _ => isArchiveAdmin user.toUser
  | .receiveItems user _ _ => isArchiveAdmin user.toUser
  | .deleteUnfiledUpload _ _ _ => false
  | .purgeFile _ _ => true
  | .restoreSole _ => true

/-- A member deletes an upload of their own, while it is unfiled. -/
def LifecycleOp.DeletesOwn (op : LifecycleOp) (fileId : Uuid) (file : ArchiveFile) : Prop :=
  ∃ faults user, op=.deleteUnfiledUpload faults user fileId ∧
    file.storeItem.createdBy=some user.id ∧ file.archiveDirId=none

/-- The calls of the object store that fail while objects are deleted. -/
def LifecycleOp.faults : LifecycleOp → StorageFaults
  | .deleteUnfiledUpload faults _ _ => faults
  | .purgeFile faults _ => faults
  | _ => .none

/-- All that a step can do. -/
inductive Effect (w : ArchiveSystem) (op : LifecycleOp) : ArchiveSystem → Prop
  | stay : Effect w op w
  /-- The object of an upload is put, but its rows are refused. -/
  | put {sha256Hash : PyText} {object : StoredObject}
    (hop : (op.perform sha256 lower w).2=some .database)
    (hnew : ∀ itemId item, w.archive.storeItems.get? itemId=some item →
      item.sha256Hash ≠ sha256Hash) :
    Effect w op ⟨w.archive,w.bucket.set (storeKey sha256Hash) object⟩
  | insert {item : ArchiveStoreItem} (object : StoredObject) (h : w.archive.Insertable item)
    (hid : item.id=w.archive.nextUuid) (hhash : sha256 object.data=item.sha256Hash)
    (hsize : object.data.length=item.size) :
    Effect w op ⟨w.archive.insertUpload item h,w.bucket.set (storeKey item.sha256Hash) object⟩
  | rearrange {w' : ArchiveSystem} (hop : op.privileged=true) (h : Rearranged w w') :
    Effect w op w'
  | hardDelete {w' : ArchiveSystem} {fileId : Uuid} {file : ArchiveFile}
    (hop : op.privileged=true ∨ op.DeletesOwn fileId file) (h : HardDeleted w fileId file w')
    (hgone : op.faults=.none → Gone w fileId file w') : Effect w op w'

variable {w : ArchiveSystem} {op : LifecycleOp}

lemma requireAdmin_effect {user : Member} {outcome : Outcome}
    (hop : op.privileged=isArchiveAdmin user.toUser) (h : Rearranged w outcome.1) :
    Effect sha256 lower w op (requireAdmin w user outcome).1 := by
  unfold requireAdmin
  split_ifs with hadmin
  · exact .rearrange (hop.trans hadmin) h
  · exact .stay

lemma checkUpload_new {file : UploadFile} {description : PyText} {p : PyText × PyText}
    (h : checkUpload sha256 lower w.archive file description=.ok p) {itemId : Uuid}
    {item : ArchiveStoreItem} (hitem : w.archive.storeItems.get? itemId=some item) :
    item.sha256Hash ≠ sha256 file.content := by
  unfold checkUpload at h
  cases hname : file.filename.bind rsplitDot with
  | none =>
    rw [hname] at h
    cases h
  | some parts =>
    rw [hname] at h
    simp only [bind_eq_ok_iff,guardError_eq_ok_iff] at h
    obtain ⟨-,-,-,-,-,-,-,hnone,-⟩ := h
    intro heq
    have hnot := List.find?_eq_none.mp hnone (itemId,item) ((Dict.get?_eq_some_iff _ _ _).mp hitem)
    exact hnot (decide_eq_true heq)

lemma uploadFile_effect (user : Uuid) (now : Timestamp) (file : UploadFile) (description : PyText)
    (putFails : Bool) :
    Effect sha256 lower w (.uploadFile user now file description putFails)
      (uploadFile sha256 lower w user now file description putFails).1 := by
  unfold uploadFile
  cases hcheck : checkUpload sha256 lower w.archive file description with
  | error e => exact .stay
  | ok p =>
    dsimp only
    split_ifs with hput hinsert
    · exact .stay
    · exact .insert ⟨file.content,mimeTypeOf file⟩ hinsert rfl rfl rfl
    · refine .put ?_ fun itemId item hitem => checkUpload_new sha256 lower hcheck hitem
      simp [LifecycleOp.perform,uploadFile,hcheck,hput,hinsert]

lemma perform_effect (w : ArchiveSystem) (op : LifecycleOp) :
    Effect sha256 lower w op (op.perform sha256 lower w).1 := by
  cases op with
  | uploadFile user now file description putFails =>
    exact uploadFile_effect sha256 lower user now file description putFails
  | updateFile user fileId data =>
    refine requireAdmin_effect sha256 lower rfl ?_
    split_ifs
    · exact changeFile_rearranged _ _ _
    · exact .refl w
  | deleteFile user now fileId => exact requireAdmin_effect sha256 lower rfl (changeFile_rearranged _ _ _)
  | restoreFile user fileId => exact requireAdmin_effect sha256 lower rfl (changeFile_rearranged _ _ _)
  | receiveItems user target fileIds =>
    refine requireAdmin_effect sha256 lower rfl ?_
    split_ifs
    · exact receiveFiles_rearranged target _ fileIds
    · exact .refl w
  | deleteUnfiledUpload faults user fileId =>
    change Effect sha256 lower w _ (deleteUnfiledUpload w faults user fileId).1
    unfold deleteUnfiledUpload
    cases hfile : w.archive.files.get? fileId with
    | none => exact .stay
    | some file =>
      dsimp only
      split_ifs with hown hdir
      · exact .stay
      · exact .stay
      · exact .hardDelete (.inr ⟨faults,user,rfl,not_not.mp hown,not_not.mp hdir⟩)
          (hardDeleteFile_spec faults hfile) (hardDeleteFile_gone hfile)
  | purgeFile faults fileId =>
    change Effect sha256 lower w _ (purge w faults fileId).1
    unfold purge purgeFile getSoftDeletedFile
    cases hfile : w.archive.files.get? fileId with
    | none => exact .stay
    | some file =>
      dsimp only
      split_ifs
      · exact .stay
      · exact .hardDelete (.inl rfl) (hardDeleteFile_spec faults hfile) (hardDeleteFile_gone hfile)
  | restoreSole fileId =>
    change Effect sha256 lower w _ (restoreSole w fileId).1
    unfold restoreSole
    split
    · exact .stay
    · split
      · exact .stay
      · split_ifs
        · exact .rearrange rfl (changeFile_rearranged _ _ _)
        · exact .stay

end Runs

end VbApi.Archive
