import VbApi.Archive.Reading

/-! The archive with the rows of its stored objects, many files to one of them, under the keys of
the schema. -/
namespace VbApi.Archive
open VbApi.Foundations

structure StoredArchive extends ArchiveTables where
  storeItems : Dict Uuid ArchiveStoreItem
  item_id : ∀ itemId item, storeItems.get? itemId=some item → item.id=itemId
  /-- `sha256_hash` is unique. -/
  item_hash : ∀ a b itemA itemB, storeItems.get? a=some itemA → storeItems.get? b=some itemB →
    itemA.sha256Hash=itemB.sha256Hash → a=b
  file_item : ∀ fileId file, files.get? fileId=some file →
    storeItems.get? file.storeItem.id=some file.storeItem
  file_dir : ∀ fileId file dirId, files.get? fileId=some file → file.archiveDirId=some dirId →
    ∃ dir, dirs.get? dirId=some dir
  dir_parent : ∀ dirId dir parentId, dirs.get? dirId=some dir → dir.archiveDirId=some parentId →
    ∃ parent, dirs.get? parentId=some parent
  comment_file : ∀ commentId comment, comments.get? commentId=some comment →
    ∃ file, files.get? comment.archiveFileId=some file

namespace StoredArchive
variable (s : StoredArchive)

/-- Some file has the content of the item. -/
def Referenced (itemId : Uuid) : Prop :=
  ∃ fileId file, s.files.get? fileId=some file ∧ file.storeItem.id=itemId

/-- Whether the query for a file of the item has a first row. -/
def stillReferenced (itemId : Uuid) : Bool :=
  (s.files.find? fun _ file => file.storeItem.id=itemId).isSome

lemma stillReferenced_iff (itemId : Uuid) : s.stillReferenced itemId=true ↔ s.Referenced itemId := by
  simp only [stillReferenced,Dict.find?,Referenced,List.find?_isSome,Prod.exists,
    Dict.get?_eq_some_iff,decide_eq_true_eq]

section Files
variable (fileId : Uuid)

lemma fileItem_erase (id : Uuid) (file : ArchiveFile)
    (h : (s.files.erase fileId).get? id=some file) :
    s.storeItems.get? file.storeItem.id=some file.storeItem :=
  s.file_item id file ((Dict.get?_eraseAll_eq_some_iff _ _ _ _).mp h).2

lemma fileDir_erase (id : Uuid) (file : ArchiveFile) (dirId : Uuid)
    (h : (s.files.erase fileId).get? id=some file) (hdir : file.archiveDirId=some dirId) :
    ∃ dir, s.dirs.get? dirId=some dir :=
  s.file_dir id file dirId ((Dict.get?_eraseAll_eq_some_iff _ _ _ _).mp h).2 hdir

/-- The comments of a file, by their ids. -/
def commentIds : List Uuid := s.comments.keysWhere fun _ comment => comment.archiveFileId=fileId

lemma commentFile_erase (commentId : Uuid) (comment : ArchiveFileComment)
    (h : (s.comments.eraseAll (s.commentIds fileId)).get? commentId=some comment) :
    ∃ file, (s.files.erase fileId).get? comment.archiveFileId=some file := by
  obtain ⟨hkept,hcomment⟩ := (Dict.get?_eraseAll_eq_some_iff _ _ _ _).mp h
  obtain ⟨file,hfile⟩ := s.comment_file commentId comment hcomment
  have hother : comment.archiveFileId ≠ fileId := by
    intro heq
    apply hkept
    rw [commentIds,Dict.mem_keysWhere]
    exact ⟨comment,hcomment,decide_eq_true heq⟩
  refine ⟨file,?_⟩
  rw [Dict.get?_erase,if_neg hother]
  exact hfile

/-- The row of a file is deleted, and its comments with it. -/
def deleteFile : StoredArchive where
  toArchiveTables :=
    { s.toArchiveTables with
      files := s.files.erase fileId
      comments := s.comments.eraseAll (s.commentIds fileId) }
  storeItems := s.storeItems
  item_id := s.item_id
  item_hash := s.item_hash
  file_item := s.fileItem_erase fileId
  file_dir := s.fileDir_erase fileId
  dir_parent := s.dir_parent
  comment_file := s.commentFile_erase fileId

end Files

section Items
variable (itemId : Uuid)

lemma itemId_erase (id : Uuid) (item : ArchiveStoreItem)
    (h : (s.storeItems.erase itemId).get? id=some item) : item.id=id :=
  s.item_id id item ((Dict.get?_eraseAll_eq_some_iff _ _ _ _).mp h).2

lemma itemHash_erase (a b : Uuid) (itemA itemB : ArchiveStoreItem)
    (ha : (s.storeItems.erase itemId).get? a=some itemA)
    (hb : (s.storeItems.erase itemId).get? b=some itemB) (hhash : itemA.sha256Hash=itemB.sha256Hash) :
    a=b :=
  s.item_hash a b itemA itemB ((Dict.get?_eraseAll_eq_some_iff _ _ _ _).mp ha).2
    ((Dict.get?_eraseAll_eq_some_iff _ _ _ _).mp hb).2 hhash

variable {itemId} in
lemma fileItem_eraseItem (hfree : ¬ s.Referenced itemId) (id : Uuid) (file : ArchiveFile)
    (h : s.files.get? id=some file) :
    (s.storeItems.erase itemId).get? file.storeItem.id=some file.storeItem := by
  have hother : file.storeItem.id ≠ itemId := fun heq => hfree ⟨id,file,h,heq⟩
  rw [Dict.get?_erase,if_neg hother]
  exact s.file_item id file h

/-- The row of an item without any file is deleted. -/
def deleteItem (hfree : ¬ s.Referenced itemId) : StoredArchive where
  toArchiveTables := s.toArchiveTables
  storeItems := s.storeItems.erase itemId
  item_id := s.itemId_erase itemId
  item_hash := s.itemHash_erase itemId
  file_item := s.fileItem_eraseItem hfree
  file_dir := s.file_dir
  dir_parent := s.dir_parent
  comment_file := s.comment_file

end Items
end StoredArchive
end VbApi.Archive
