import VbApi.Archive.EffectivePermissions
import VbApi.Archive.Purge

/-! The candidates tell what a purge does: the object of a file goes with the last row that refers to
it, and the batch of the duplicates leaves every object. -/
namespace VbApi.Archive
open VbApi.Foundations VbApi.Storage

/-! ### What a purge does -/

/-- The file refers to the item. -/
def RefersTo (s : ArchiveTables) (itemId fileId : Uuid) : Prop :=
  ∃ file, s.files.get? fileId=some file ∧ file.storeItem.id=itemId

/-- All rows of stored objects, and the bucket, are as before. -/
structure Keeps (w w' : ArchiveSystem) : Prop where
  items : w'.archive.storeItems=w.archive.storeItems
  bucket : w'.bucket=w.bucket

/-- A key of the object, or of what is derived from it. -/
def KeyOf (sha256Hash : PyText) (key : ObjectKey) : Prop :=
  key=storeKey sha256Hash ∨ cachePrefix sha256Hash <+: key

/-- The row of the item, its object and all derived objects are gone, and nothing else is. -/
structure Removes (w : ArchiveSystem) (item : ArchiveStoreItem) (w' : ArchiveSystem) : Prop where
  row : w'.archive.storeItems.get? item.id=none
  objects : ∀ key, KeyOf item.sha256Hash key → w'.bucket.get? key=none
  otherRows : ∀ itemId, itemId ≠ item.id →
    w'.archive.storeItems.get? itemId=w.archive.storeItems.get? itemId
  otherObjects : ∀ key, ¬ KeyOf item.sha256Hash key → w'.bucket.get? key=w.bucket.get? key

lemma thumbnailCacheKey_of (sha256Hash size : PyText) :
    KeyOf sha256Hash (thumbnailCacheKey sha256Hash size) := by
  refine .inr ⟨text "v2.thumb_" ++ size,?_⟩
  simp only [cachePrefix,thumbnailCacheKey,List.append_assoc]
  rfl

section Bucket
variable (c : S3Cleanup) (k : ObjectKey)

lemma deleteKeys_bucket (keys : List ObjectKey) :
    (keys.foldl (deleteS3Key .none) c).bucket.get? k=if k ∈ keys then none else c.bucket.get? k := by
  induction keys generalizing c with
  | nil => rfl
  | cons key keys ih =>
    rw [List.foldl_cons,ih]
    change (if k ∈ keys then none else (c.bucket.erase key).get? k)=_
    rw [Dict.get?_erase]
    by_cases hk : k ∈ keys <;> simp [hk]

lemma deleteKeys_errors (keys : List ObjectKey) :
    (keys.foldl (deleteS3Key .none) c).errors=c.errors := by
  induction keys generalizing c with
  | nil => rfl
  | cons key keys ih =>
    rw [List.foldl_cons,ih]
    rfl

/-- The object and the keys that the listing finds are deleted. -/
lemma purgeS3Object_bucket (sha256Hash : PyText) [Decidable (KeyOf sha256Hash k)] :
    (purgeS3Object .none c sha256Hash).bucket.get? k=
      if KeyOf sha256Hash k then none else c.bucket.get? k := by
  have hstore : (deleteS3Key .none c (storeKey sha256Hash)).bucket=c.bucket.erase (storeKey sha256Hash) := rfl
  change ((Bucket.keysUnder _ _).foldl (deleteS3Key .none) _).bucket.get? k=_
  rw [deleteKeys_bucket,hstore]
  have hlisted : ∀ b : Bucket, k ∈ b.keysUnder (cachePrefix sha256Hash) ↔
      (∃ o, b.get? k=some o) ∧ cachePrefix sha256Hash <+: k := by
    intro b
    rw [Bucket.keysUnder,List.mem_filter,Dict.mem_keys_iff,decide_eq_true_eq]
  by_cases hk : k=storeKey sha256Hash
  · rw [if_pos (show KeyOf sha256Hash k from .inl hk),Dict.get?_erase,if_pos hk]
    exact ite_self none
  · by_cases hderived : cachePrefix sha256Hash <+: k
    · rw [if_pos (show KeyOf sha256Hash k from .inr hderived)]
      split_ifs with hmem
      · rfl
      · by_contra hsome
        obtain ⟨o,ho⟩ := Option.ne_none_iff_exists'.mp hsome
        exact hmem ((hlisted _).mpr ⟨⟨o,ho⟩,hderived⟩)
    · have hnot : ¬ KeyOf sha256Hash k := not_or.mpr ⟨hk,hderived⟩
      have hmem : k ∉ Bucket.keysUnder (c.bucket.erase (storeKey sha256Hash)) (cachePrefix sha256Hash) :=
        fun h => hderived ((hlisted _).mp h).2
      rw [if_neg hnot,if_neg hmem,Dict.get?_erase,if_neg hk]

lemma purgeS3Object_errors (sha256Hash : PyText) :
    (purgeS3Object .none c sha256Hash).errors=c.errors := by
  change ((Bucket.keysUnder _ _).foldl (deleteS3Key .none) _).errors=_
  rw [deleteKeys_errors]
  rfl

end Bucket

section Purge
variable {w : ArchiveSystem} {fileId : Uuid} {file : ArchiveFile}

lemma referenced_iff (s : StoredArchive) (itemId : Uuid) :
    s.Referenced itemId ↔ ∃ fileId, RefersTo s.toArchiveTables itemId fileId := Iff.rfl

lemma get?_deleteFile (s : StoredArchive) (fileId id : Uuid) :
    (s.deleteFile fileId).files.get? id=if id=fileId then none else s.files.get? id :=
  Dict.get?_erase _ _ _

lemma refersTo_deleteFile (s : StoredArchive) (fileId itemId id : Uuid) :
    RefersTo (s.deleteFile fileId).toArchiveTables itemId id ↔
      id ≠ fileId ∧ RefersTo s.toArchiveTables itemId id := by
  simp only [RefersTo,get?_deleteFile]
  by_cases h : id=fileId <;> simp [h]

/-- While another row refers to the item, only the row of the file goes. -/
lemma purgeFile_shared (faults : StorageFaults) (hfile : w.archive.files.get? fileId=some file)
    (hdeleted : file.deletedAt ≠ none) {other : Uuid} (hne : other ≠ fileId)
    (hother : RefersTo w.archive.toArchiveTables file.storeItem.id other) :
    purgeFile faults w fileId=.ok (⟨w.archive.deleteFile fileId,w.bucket⟩,⟨fileId,false,[],[]⟩) := by
  have hreferenced : (w.archive.deleteFile fileId).stillReferenced file.storeItem.id=true := by
    rw [StoredArchive.stillReferenced_iff,referenced_iff]
    exact ⟨other,(refersTo_deleteFile _ _ _ _).mpr ⟨hne,hother⟩⟩
  have hrows : deleteOrphanedStoreItems (w.archive.deleteFile fileId) [file.storeItem.id]=
      (w.archive.deleteFile fileId,[]) := by
    simp [deleteOrphanedStoreItems,deleteOrphanedStoreItem,hreferenced]
  simp [purgeFile,getSoftDeletedFile,hfile,hdeleted,hardDeleteFile,hrows]

/-- With the last row that refers to the item, the item and its objects go. -/
lemma purgeFile_sole (hfile : w.archive.files.get? fileId=some file)
    (hdeleted : file.deletedAt ≠ none)
    (hsole : ∀ other, RefersTo w.archive.toArchiveTables file.storeItem.id other → other=fileId) :
    ∃ w' result, purgeFile .none w fileId=.ok (w',result) ∧ result.storeItemDeleted=true ∧
      result.s3Errors=[] ∧ Removes w file.storeItem w' ∧
      ∀ id, w'.archive.files.get? id=if id=fileId then none else w.archive.files.get? id := by
  have hfree : ¬ (w.archive.deleteFile fileId).Referenced file.storeItem.id := by
    rw [referenced_iff]
    rintro ⟨other,hother⟩
    obtain ⟨hne,hrefers⟩ := (refersTo_deleteFile _ _ _ _).mp hother
    exact hne (hsole other hrefers)
  have hrow := w.archive.file_item fileId file hfile
  have hrows : deleteOrphanedStoreItems (w.archive.deleteFile fileId) [file.storeItem.id]=
      ((w.archive.deleteFile fileId).deleteItem file.storeItem.id hfree,[file.storeItem]) := by
    have hnot : (w.archive.deleteFile fileId).stillReferenced file.storeItem.id ≠ true :=
      mt (StoredArchive.stillReferenced_iff _ _).mp hfree
    have hget : (w.archive.deleteFile fileId).storeItems.get? file.storeItem.id=some file.storeItem :=
      hrow
    simp [deleteOrphanedStoreItems,deleteOrphanedStoreItem,hnot,hget]
  let c := purgeS3Object .none ⟨w.bucket,[],[]⟩ file.storeItem.sha256Hash
  refine ⟨⟨(w.archive.deleteFile fileId).deleteItem file.storeItem.id hfree,c.bucket⟩,
    ⟨fileId,true,c.deleted,c.errors⟩,?_,rfl,purgeS3Object_errors _ _,?_,get?_deleteFile w.archive fileId⟩
  · simp [purgeFile,getSoftDeletedFile,hfile,hdeleted,hardDeleteFile,hrows,c]
  · classical
    refine ⟨?_,?_,?_,?_⟩
    · change (w.archive.storeItems.erase _).get? _=none
      rw [Dict.get?_erase,if_pos rfl]
    · intro key hkey
      exact (purgeS3Object_bucket _ _ _).trans (if_pos hkey)
    · intro itemId hne
      change (w.archive.storeItems.erase _).get? _=_
      rw [Dict.get?_erase,if_neg hne]
    · intro key hkey
      exact (purgeS3Object_bucket _ _ _).trans (if_neg hkey)

end Purge

/-! ### What the candidates tell -/

section Counts
variable {s : ArchiveTables} {itemId : Uuid}

/-- The files of one item. -/
def filesOf (s : ArchiveTables) (itemId : Uuid) : List ArchiveFile :=
  s.files.values.filter fun f => f.storeItem.id=itemId

lemma mem_filesOf {file : ArchiveFile} : file ∈ filesOf s itemId ↔
    ∃ fileId, s.files.get? fileId=some file ∧ file.storeItem.id=itemId := by
  simp only [filesOf,List.mem_filter,decide_eq_true_eq,Dict.mem_values_iff]
  exact exists_and_right.symm

/-- The grouped query counts the files of the item, when there are any. -/
lemma get?_referenceCounts {storeItemIds : List Uuid} (hid : itemId ∈ storeItemIds) (c : ℕ × ℕ) :
    (referenceCounts s storeItemIds).get? itemId=some c ↔
      filesOf s itemId ≠ [] ∧ c=referenceCount (filesOf s itemId) := by
  have hne : storeItemIds ≠ [] := List.ne_nil_of_mem hid
  let rows := s.files.values.filter fun f => f.storeItem.id ∈ storeItemIds
  have hgroup : (rows.filter fun f => f.storeItem.id=itemId)=filesOf s itemId := by
    rw [List.filter_filter]
    apply List.filter_congr
    intro f _
    by_cases hf : f.storeItem.id=itemId
    · simp [hf,hid]
    · simp [hf]
  have hkey : itemId ∈ rows.map (·.storeItem.id) ↔ filesOf s itemId ≠ [] := by
    rw [← hgroup,List.mem_map]
    constructor
    · rintro ⟨f,hf,hitem⟩
      exact List.ne_nil_of_mem (List.mem_filter.mpr ⟨hf,decide_eq_true hitem⟩)
    · intro hfiles
      obtain ⟨f,hf⟩ := List.exists_mem_of_ne_nil _ hfiles
      obtain ⟨hmem,hitem⟩ := List.mem_filter.mp hf
      exact ⟨f,hmem,of_decide_eq_true hitem⟩
  have hnodup : (((groupBy (fun f : ArchiveFile => f.storeItem.id) rows).map fun g =>
      (g.1,referenceCount g.2)).map Prod.fst).Nodup := by
    rw [List.map_map]
    exact nodup_groupBy _ _
  rw [referenceCounts,if_neg hne,Dict.get?_ofPairs_iff _ hnodup]
  simp only [List.mem_map,Prod.exists,Prod.mk.injEq]
  constructor
  · rintro ⟨k,group,hmem,rfl,rfl⟩
    obtain ⟨hk,rfl⟩ := mem_groupBy.mp hmem
    rw [hgroup]
    exact ⟨hkey.mp hk,rfl⟩
  · rintro ⟨hfiles,rfl⟩
    refine ⟨itemId,_,mem_groupBy.mpr ⟨hkey.mpr hfiles,rfl⟩,rfl,?_⟩
    rw [hgroup]

lemma length_filesOf : (filesOf s itemId).length={fileId | RefersTo s itemId fileId}.ncard := by
  rw [filesOf,← List.countP_eq_length_filter,Dict.countP_values,
    ← Dict.ncard_keysWhere s.files fun _ f => f.storeItem.id=itemId]
  simp only [RefersTo,decide_eq_true_eq]

lemma referenceCount_sum (files : List ArchiveFile) :
    (referenceCount files).1+(referenceCount files).2=files.length := by
  rw [referenceCount,List.length_eq_countP_add_countP (fun f : ArchiveFile => f.deletedAt.isNone)]
  congr 1
  apply List.countP_congr
  intro f _
  cases f.deletedAt <;> simp

lemma active_pos_iff : 0 < (referenceCount (filesOf s itemId)).1 ↔
    ∃ fileId file, s.files.get? fileId=some file ∧ file.storeItem.id=itemId ∧ file.deletedAt=none := by
  simp only [referenceCount,List.countP_pos_iff,mem_filesOf,Option.isNone_iff_eq_none]
  constructor
  · rintro ⟨file,⟨fileId,hfile,hitem⟩,hactive⟩
    exact ⟨fileId,file,hfile,hitem,hactive⟩
  · rintro ⟨fileId,file,hfile,hitem,hactive⟩
    exact ⟨file,⟨fileId,hfile,hitem⟩,hactive⟩

end Counts

section Candidates
variable {orderBy : OrderBy deletedAtAsc} {fuel : ℕ} {s : ArchiveTables}

/-- A file in the trash, and a candidate that tells how many rows refer to its item. -/
structure CandidateOf (s : ArchiveTables) (f : Uuid × ArchiveFile) (c : PurgeCandidate) : Prop where
  row : s.files.get? f.1=some f.2
  deleted : f.2.deletedAt ≠ none
  fileId : c.fileId=f.1
  item : c.archiveStoreItemId=f.2.storeItem.id
  active : c.activeSiblingCount=(referenceCount (filesOf s f.2.storeItem.id)).1
  others : c.otherDeletedSiblingCount=(referenceCount (filesOf s f.2.storeItem.id)).2-1

variable {f : Uuid × ArchiveFile} {c : PurgeCandidate}

/-- The file is the only one of its item when no other row is counted. -/
theorem impact_sole_iff (h : CandidateOf s f c) : c.impact=.sole ↔
    ∀ other, RefersTo s f.2.storeItem.id other → other=f.1 := by
  have hself : RefersTo s f.2.storeItem.id f.1 := ⟨f.2,h.row,rfl⟩
  have hdeleted : 0 < (referenceCount (filesOf s f.2.storeItem.id)).2 := by
    rw [referenceCount,List.countP_pos_iff]
    exact ⟨f.2,mem_filesOf.mpr ⟨f.1,h.row,rfl⟩,Option.isSome_iff_ne_none.mpr h.deleted⟩
  have hsum := referenceCount_sum (filesOf s f.2.storeItem.id)
  rw [length_filesOf] at hsum
  have hcount : c.impact=.sole ↔ {fileId | RefersTo s f.2.storeItem.id fileId}.ncard=1 := by
    rw [PurgeCandidate.impact,classifyImpact,h.active,h.others]
    generalize {fileId | RefersTo s f.2.storeItem.id fileId}.ncard=n at hsum ⊢
    split_ifs <;> simp <;> omega
  rw [hcount,Set.ncard_eq_one]
  constructor
  · rintro ⟨fileId,hset⟩ other hother
    have hmem : ∀ id, RefersTo s f.2.storeItem.id id → id=fileId := by
      intro id hid
      rw [← Set.mem_singleton_iff,← hset]
      exact hid
    rw [hmem other hother,hmem f.1 hself]
  · intro hsole
    refine ⟨f.1,?_⟩
    ext other
    rw [Set.mem_singleton_iff]
    exact ⟨hsole other,fun heq => heq ▸ hself⟩

theorem impact_duplicate_iff (h : CandidateOf s f c) : c.impact=.duplicate ↔
    ∃ fileId file, s.files.get? fileId=some file ∧ file.storeItem.id=f.2.storeItem.id ∧
      file.deletedAt=none := by
  rw [← active_pos_iff,PurgeCandidate.impact,classifyImpact,h.active]
  split_ifs with hactive hothers <;> simp <;> omega

lemma toCandidate_of {counts : ℕ × ℕ} (hrow : s.files.get? f.1=some f.2) (hdeleted : f.2.deletedAt ≠ none)
    (hcounts : counts=referenceCount (filesOf s f.2.storeItem.id)) (h : toCandidate fuel s f counts=some c) :
    CandidateOf s f c := by
  rw [toCandidate,Option.bind_eq_bind,Option.bind_eq_some_iff] at h
  obtain ⟨⟨path,name,extension⟩,-,hc⟩ := h
  cases hc
  subst hcounts
  exact ⟨hrow,hdeleted,rfl,rfl,rfl,rfl⟩

/-- Rows in the trash, as the listings select them. -/
def Trash (s : ArchiveTables) (files : List (Uuid × ArchiveFile)) : Prop :=
  ∀ f ∈ files, s.files.get? f.1=some f.2 ∧ f.2.deletedAt ≠ none

lemma counts_of_trash {files : List (Uuid × ArchiveFile)} (htrash : Trash s files) (hf : f ∈ files) :
    countsOf (referenceCounts s (files.map (·.2.storeItem.id)).dedup) f.2.storeItem.id=
      .ok (referenceCount (filesOf s f.2.storeItem.id)) := by
  have hid : f.2.storeItem.id ∈ (files.map (·.2.storeItem.id)).dedup :=
    List.mem_dedup.mpr (List.mem_map_of_mem hf)
  have hfiles : filesOf s f.2.storeItem.id ≠ [] :=
    List.ne_nil_of_mem (mem_filesOf.mpr ⟨f.1,(htrash f hf).1,rfl⟩)
  rw [countsOf,(get?_referenceCounts hid _).mpr ⟨hfiles,rfl⟩]

lemma candidatesFor_spec {files : List (Uuid × ArchiveFile)} (htrash : Trash s files)
    {cands : List PurgeCandidate} (h : Succeeds (candidatesFor fuel s files) cands) :
    List.Forall₂ (CandidateOf s) files cands := by
  have hall := (List.forall₂_and_left files cands).mpr ⟨fun _ hf => hf,succeeds_mapM.mp h⟩
  apply hall.imp
  rintro f c ⟨hf,hstep⟩
  rw [counts_of_trash htrash hf] at hstep
  obtain ⟨counts,hcounts,hcandidate⟩ := succeeds_bind.mp hstep
  have heq : counts=referenceCount (filesOf s f.2.storeItem.id) := by
    simpa [Succeeds,eq_comm] using hcounts
  exact toCandidate_of (htrash f hf).1 (htrash f hf).2 heq (succeeds_lift.mp hcandidate)

lemma candidatesFor_answers {files : List (Uuid × ArchiveFile)} (htrash : Trash s files)
    (hpath : ∀ file, ∃ location, describeLocation fuel s file=some location) :
    ∃ cands, Succeeds (candidatesFor fuel s files) cands := by
  apply exists_succeeds_mapM
  intro f hf
  obtain ⟨⟨path,name,extension⟩,hlocation⟩ := hpath f.2
  rw [counts_of_trash htrash hf]
  simp only [succeeds_bind,succeeds_lift,toCandidate,hlocation]
  exact ⟨_,_,rfl,rfl⟩

lemma describeLocation_answers (henough : EnoughFuel s fuel) (file : ArchiveFile) :
    ∃ location, describeLocation fuel s file=some location := by
  unfold describeLocation
  split
  · exact ⟨_,rfl⟩
  · rename_i dirId dir hparent
    obtain ⟨p,-,hp⟩ := Option.bind_eq_some_iff.mp hparent
    obtain ⟨row,hrow,heq⟩ := Option.map_eq_some_iff.mp hp
    cases heq
    obtain ⟨path,hpath⟩ := (henough _ _ hrow).path
    rw [dirPathString,hpath]
    exact ⟨_,rfl⟩

/-- The rows that a listing selects, in its order. -/
lemma trash_of_pick {p : ArchiveFile → Bool} :
    Trash s (orderBy.pick (s.files.entries.filter fun f => p f.2 && f.2.deletedAt.isSome)) := by
  intro f hf
  have hmem := (orderBy.pick_perm _).mem_iff.mp hf
  simp only [List.mem_filter,Bool.and_eq_true,Option.isSome_iff_ne_none] at hmem
  exact ⟨(Dict.get?_eq_some_iff _ _ _).mpr hmem.1,hmem.2.2⟩

/-- The listings differ in the files that they select. -/
lemma listDeletedFiles_eq : listDeletedFiles orderBy fuel s=candidatesFor fuel s
    (orderBy.pick (s.files.entries.filter fun f => true && f.2.deletedAt.isSome)) := by
  simp [listDeletedFiles]

end Candidates

/-! ### Several purges -/

/-- Purges one after the other. -/
def purgeAll (faults : StorageFaults) : ArchiveSystem → List Uuid →
    Except ArchiveMaintenanceError ArchiveSystem
  | w,[] => .ok w
  | w,fileId::fileIds => do
    let (w',_) ← purgeFile faults w fileId
    purgeAll faults w' fileIds

/-- The files are gone, and no other one. -/
def FilesGone (w : ArchiveSystem) (fileIds : List Uuid) (w' : ArchiveSystem) : Prop :=
  ∀ id, w'.archive.files.get? id=if id ∈ fileIds then none else w.archive.files.get? id

/-- A row in the trash that refers to the item. -/
def TrashedRef (s : ArchiveTables) (itemId fileId : Uuid) : Prop :=
  ∃ file, s.files.get? fileId=some file ∧ file.storeItem.id=itemId ∧ file.deletedAt ≠ none

section Groups
variable {w w₁ w' : ArchiveSystem}

lemma Keeps.trans (h : Keeps w w₁) (h' : Keeps w₁ w') : Keeps w w' :=
  ⟨h'.items.trans h.items,h'.bucket.trans h.bucket⟩

lemma Keeps.removes {item : ArchiveStoreItem} (h : Keeps w w₁) (h' : Removes w₁ item w') :
    Removes w item w' := by
  obtain ⟨hitems,hbucket⟩ := h
  refine ⟨h'.row,h'.objects,?_,?_⟩
  · intro itemId hne
    rw [h'.otherRows itemId hne,hitems]
  · intro key hkey
    rw [h'.otherObjects key hkey,hbucket]

lemma FilesGone.refersTo {fileIds : List Uuid} (h : FilesGone w fileIds w') {itemId id : Uuid} :
    RefersTo w'.archive.toArchiveTables itemId id ↔
      id ∉ fileIds ∧ RefersTo w.archive.toArchiveTables itemId id := by
  simp only [RefersTo,h id]
  by_cases hid : id ∈ fileIds <;> simp [hid]

lemma FilesGone.trashedRef {fileIds : List Uuid} (h : FilesGone w fileIds w') {itemId id : Uuid}
    (hid : id ∉ fileIds) : TrashedRef w'.archive.toArchiveTables itemId id ↔
      TrashedRef w.archive.toArchiveTables itemId id := by
  simp only [TrashedRef,h id,if_neg hid]

lemma FilesGone.cons {fileId : Uuid} {fileIds : List Uuid} (h : FilesGone w [fileId] w₁)
    (h' : FilesGone w₁ fileIds w') : FilesGone w (fileId::fileIds) w' := by
  intro id
  rw [h' id,h id]
  by_cases hid : id ∈ fileIds <;> simp [hid]

lemma filesGone_deleteFile (w : ArchiveSystem) (fileId : Uuid) :
    FilesGone w [fileId] ⟨w.archive.deleteFile fileId,w.bucket⟩ := by
  intro id
  rw [get?_deleteFile]
  simp only [List.mem_singleton]

/-- Purging some members of a group, in the order given: as long as a row refers to the item, its
objects stay; with the last one they go. -/
theorem purgeAll_group {item : ArchiveStoreItem} {fileIds : List Uuid} (hnodup : fileIds.Nodup)
    (hmembers : ∀ fileId ∈ fileIds, TrashedRef w.archive.toArchiveTables item.id fileId)
    (hitem : w.archive.storeItems.get? item.id=some item) :
    ∃ w', purgeAll .none w fileIds=.ok w' ∧ FilesGone w fileIds w' ∧
      ((∃ id, RefersTo w'.archive.toArchiveTables item.id id) → Keeps w w') ∧
      (fileIds ≠ [] → (∀ id, ¬ RefersTo w'.archive.toArchiveTables item.id id) → Removes w item w') := by
  induction fileIds generalizing w with
  | nil => exact ⟨w,rfl,fun id => by simp,fun _ => ⟨rfl,rfl⟩,fun h => absurd rfl h⟩
  | cons fileId fileIds ih =>
    obtain ⟨hfresh,hrest⟩ := List.nodup_cons.mp hnodup
    obtain ⟨file,hfile,hid,hdeleted⟩ := hmembers fileId List.mem_cons_self
    have hrow := w.archive.file_item fileId file hfile
    rw [hid,hitem,Option.some.injEq] at hrow
    by_cases hothers : ∃ other, other ≠ fileId ∧ RefersTo w.archive.toArchiveTables item.id other
    · obtain ⟨other,hne,hother⟩ := hothers
      have hpurge := purgeFile_shared .none hfile hdeleted hne (hrow ▸ hother)
      have hgone := filesGone_deleteFile w fileId
      have hkeeps : Keeps w ⟨w.archive.deleteFile fileId,w.bucket⟩ := ⟨rfl,rfl⟩
      have hmembers' : ∀ id ∈ fileIds,
          TrashedRef (w.archive.deleteFile fileId).toArchiveTables item.id id := by
        intro id hid
        have hne : id ∉ [fileId] := by
          rw [List.mem_singleton]
          rintro rfl
          exact hfresh hid
        exact (hgone.trashedRef hne).mpr (hmembers id (List.mem_cons_of_mem _ hid))
      obtain ⟨w',hrun,hfiles,hkept,hremoved⟩ :=
        ih (w := ⟨w.archive.deleteFile fileId,w.bucket⟩) hrest hmembers' hitem
      refine ⟨w',?_,hgone.cons hfiles,fun h => hkeeps.trans (hkept h),fun _ hnone => ?_⟩
      · rw [purgeAll,hpurge]
        exact hrun
      · cases fileIds with
        | nil =>
          -- the other row still refers to the item
          refine absurd ?_ (hnone other)
          rw [hfiles.refersTo,hgone.refersTo]
          simp [hne,hother]
        | cons next tail => exact hkeeps.removes (hremoved (List.cons_ne_nil _ _) hnone)
    · have hsole : ∀ other, RefersTo w.archive.toArchiveTables file.storeItem.id other → other=fileId := by
        intro other hother
        by_contra hne
        exact hothers ⟨other,hne,hid ▸ hother⟩
      have hlast : fileIds=[] := by
        cases fileIds with
        | nil => rfl
        | cons next tail =>
          obtain ⟨nextFile,hnext,hnextId,-⟩ := hmembers next (by simp)
          have heq := hsole next ⟨nextFile,hnext,hnextId.trans hid.symm⟩
          exact absurd (by simp [heq]) hfresh
      subst hlast
      obtain ⟨w₁,result,hpurge,-,-,hremoves,hfiles⟩ := purgeFile_sole hfile hdeleted hsole
      have hgone : FilesGone w [fileId] w₁ := by
        intro id
        rw [hfiles id]
        simp only [List.mem_singleton]
      refine ⟨w₁,by rw [purgeAll,hpurge]; rfl,hgone,?_,fun _ _ => hrow ▸ hremoves⟩
      rintro ⟨id,hrefers⟩
      obtain ⟨hne,hrefers⟩ := hgone.refersTo.mp hrefers
      rw [List.mem_singleton] at hne
      exact absurd (hsole id (hid ▸ hrefers)) hne

end Groups

end VbApi.Archive
