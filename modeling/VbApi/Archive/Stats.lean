import VbApi.Archive.ReadPaths
import VbApi.Archive.StoreItems
import VbApi.Foundations.Grouping
import VbApi.Foundations.Pagination

/-! The figures of the archive: its files and directories that are reached from the root, and the
stored objects of these files. -/
namespace VbApi.Archive
open VbApi.Foundations Parents

structure ExtensionStats where
  extension : PyText
  count : ℕ
  size : ℕ

structure ArchiveStats where
  fileCount : ℕ
  uniqueObjectCount : ℕ
  dirCount : ℕ
  totalSize : ℕ
  byExtension : List ExtensionStats

/-- `ORDER BY count(id) DESC`. -/
def countDesc (row : ExtensionStats) : ℕᵒᵈ := OrderDual.toDual row.count

section Queries
variable (orderBy : OrderBy countDesc) (s : StoredArchive)

/-- The filter on files that three of the queries share. -/
def activeFile (file : ArchiveFile) : Bool :=
  file.deletedAt.isNone &&
    match file.archiveDirId with
    | none => false
    | some dirId => dirId ∉ trashedDirIds s.toArchiveTables

/-- The correlated `EXISTS` on a store item. -/
def activeFileExists (item : ArchiveStoreItem) : Bool :=
  s.files.values.any fun file => file.storeItem.id=item.id && activeFile s file

def activeDir (dirId : Uuid) (dir : ArchiveDirRow) : Bool :=
  dir.deletedAt.isNone && dirId ∉ trashedDirIds s.toArchiveTables

def activeItems : List ArchiveStoreItem := s.storeItems.values.filter (activeFileExists s)

def extensionStats (g : PyText × List ArchiveStoreItem) : ExtensionStats where
  extension := g.1
  count := g.2.length
  size := (g.2.map (·.size)).sum

def getArchiveStats : ArchiveStats where
  fileCount := s.files.values.countP (activeFile s)
  uniqueObjectCount := (activeItems s).length
  dirCount := s.dirs.entries.countP fun d => activeDir s d.1 d.2
  totalSize := ((activeItems s).map (·.size)).sum
  byExtension := orderBy.pick ((groupBy (·.extension) (activeItems s)).map extensionStats)

end Queries

/-! ### What browsing reaches -/

/-- From the root down to the directory, no directory on the way is deleted. -/
inductive Reached (s : ArchiveTables) : Uuid → Prop
  | root {dirId : Uuid} {dir : ArchiveDirRow} (row : s.dirs.get? dirId=some dir)
    (live : dir.deletedAt=none) (top : dir.archiveDirId=none) : Reached s dirId
  | child {dirId parentId : Uuid} {dir : ArchiveDirRow} (upper : Reached s parentId)
    (row : s.dirs.get? dirId=some dir) (live : dir.deletedAt=none)
    (parent : dir.archiveDirId=some parentId) : Reached s dirId

/-- A file that is not deleted, in a directory that is reached; an unfiled upload is in none. -/
def FileReached (s : ArchiveTables) (fileId : Uuid) : Prop :=
  ∃ file dirId, s.files.get? fileId=some file ∧ file.deletedAt=none ∧
    file.archiveDirId=some dirId ∧ Reached s dirId

/-- The object of a file that is reached. -/
def ItemReached (s : ArchiveTables) (itemId : Uuid) : Prop :=
  ∃ fileId file, FileReached s fileId ∧ s.files.get? fileId=some file ∧ file.storeItem.id=itemId

section Reached
variable {s : StoredArchive}

lemma reached_notTrashed {s : ArchiveTables} {dirId : Uuid} (h : Reached s dirId) :
    (∃ dir, s.dirs.get? dirId=some dir ∧ dir.deletedAt=none) ∧ ¬ Trashed s dirId := by
  induction h with
  | root row live top =>
    refine ⟨⟨_,row,live⟩,?_⟩
    rw [trashed_root_iff row top]
    exact fun hdeleted => hdeleted live
  | child upper row live parent ih =>
    refine ⟨⟨_,row,live⟩,?_⟩
    rw [trashed_child_iff row parent ih.2]
    exact fun hdeleted => hdeleted live

lemma Trashed.below {s : ArchiveTables} {dirId p : Uuid} {dir : ArchiveDirRow}
    (hdir : s.dirs.get? dirId=some dir) (hp : dir.archiveDirId=some p) (h : Trashed s p) :
    Trashed s dirId := by
  obtain ⟨a,row,hchain,hrow,hdeleted⟩ := h
  exact ⟨a,row,.head (child_tree_iff.mpr ⟨dir,hdir,hp⟩) hchain,hrow,hdeleted⟩

lemma reached_of_notTrashed (h : Acyclic s.toArchiveTables) : ∀ dirId dir,
    s.dirs.get? dirId=some dir → ¬ Trashed s.toArchiveTables dirId → Reached s.toArchiveTables dirId := by
  have hlive : ∀ dirId dir, s.dirs.get? dirId=some dir → ¬ Trashed s.toArchiveTables dirId →
      dir.deletedAt=none := by
    intro dirId dir hdir hclean
    by_contra hdeleted
    exact hclean ⟨dirId,dir,.refl,hdir,hdeleted⟩
  apply h.induction (motive := fun dirId _ => ¬ Trashed s.toArchiveTables dirId →
    Reached s.toArchiveTables dirId)
  · intro dirId dir hdir hroot hclean
    refine .root hdir (hlive dirId dir hdir hclean) ?_
    -- a parent would exist, by the key of the directories
    cases hp : dir.archiveDirId with
    | none => rfl
    | some p =>
      obtain ⟨parent,hparent⟩ := s.dir_parent dirId dir p hdir hp
      have hsome : parentOf s.tree dir.toArchiveDir=some (p,parent.toArchiveDir) :=
        parentOf_tree_eq_some.mpr ⟨hp,parent,hparent,rfl⟩
      rw [hroot] at hsome
      contradiction
  · intro dirId dir p row hdir hp _ ih hclean
    exact .child (ih fun htrash => hclean (htrash.below hdir hp)) hdir (hlive dirId dir hdir hclean) hp

/-- Outside the trash is what the root leads to. -/
theorem reached_iff (h : Acyclic s.toArchiveTables) {dirId : Uuid} {dir : ArchiveDirRow}
    (hdir : s.dirs.get? dirId=some dir) :
    Reached s.toArchiveTables dirId ↔ dirId ∉ trashedDirIds s.toArchiveTables := by
  rw [mem_trashedDirIds_iff]
  exact ⟨fun hreached => (reached_notTrashed hreached).2,reached_of_notTrashed h dirId dir hdir⟩

lemma activeDir_iff (h : Acyclic s.toArchiveTables) {dirId : Uuid} {dir : ArchiveDirRow}
    (hdir : s.dirs.get? dirId=some dir) :
    activeDir s dirId dir=true ↔ Reached s.toArchiveTables dirId := by
  rw [activeDir,Bool.and_eq_true,decide_eq_true_eq,← reached_iff h hdir,Option.isNone_iff_eq_none]
  refine ⟨And.right,fun hreached => ⟨?_,hreached⟩⟩
  obtain ⟨⟨dir',hdir',hlive⟩,-⟩ := reached_notTrashed hreached
  rw [hdir,Option.some.injEq] at hdir'
  rw [hdir',hlive]

lemma activeFile_iff (h : Acyclic s.toArchiveTables) {fileId : Uuid} {file : ArchiveFile}
    (hfile : s.files.get? fileId=some file) :
    activeFile s file=true ↔ FileReached s.toArchiveTables fileId := by
  have hreached : FileReached s.toArchiveTables fileId ↔ file.deletedAt=none ∧
      ∃ dirId, file.archiveDirId=some dirId ∧ Reached s.toArchiveTables dirId := by
    simp [FileReached,hfile]
  rw [hreached,activeFile,Bool.and_eq_true,Option.isNone_iff_eq_none]
  apply and_congr_right
  intro _
  cases hdirId : file.archiveDirId with
  | none => simp
  | some dirId =>
    obtain ⟨dir,hdir⟩ := s.file_dir fileId file dirId hfile hdirId
    simp [reached_iff h hdir]

lemma activeFileExists_iff (h : Acyclic s.toArchiveTables) (item : ArchiveStoreItem) :
    activeFileExists s item=true ↔ ItemReached s.toArchiveTables item.id := by
  simp only [activeFileExists,List.any_eq_true,Bool.and_eq_true,decide_eq_true_eq,ItemReached,
    Dict.mem_values_iff]
  constructor
  · rintro ⟨file,⟨fileId,hfile⟩,hitem,hactive⟩
    exact ⟨fileId,file,(activeFile_iff h hfile).mp hactive,hfile,hitem⟩
  · rintro ⟨fileId,file,hreached,hfile,hitem⟩
    exact ⟨file,⟨fileId,hfile⟩,hitem,(activeFile_iff h hfile).mpr hreached⟩

end Reached

/-! ### The figures -/

def itemSize (s : StoredArchive) (itemId : Uuid) : ℕ := ((s.storeItems.get? itemId).map (·.size)).getD 0

/-- The number and the size of the reached objects of one kind, each object counted once. -/
def ObjectFigures (s : StoredArchive) (kind : ArchiveStoreItem → Prop) (count size : ℕ) : Prop :=
  ∃ ids : Finset Uuid, (∀ itemId, itemId ∈ ids ↔ ItemReached s.toArchiveTables itemId ∧
    ∃ item, s.storeItems.get? itemId=some item ∧ kind item) ∧
    count=ids.card ∧ size=∑ itemId ∈ ids, itemSize s itemId

structure StatsLaw (s : StoredArchive) (stats : ArchiveStats) : Prop where
  files : stats.fileCount={fileId | FileReached s.toArchiveTables fileId}.ncard
  dirs : stats.dirCount={dirId | Reached s.toArchiveTables dirId}.ncard
  objects : ObjectFigures s (fun _ => True) stats.uniqueObjectCount stats.totalSize
  objects_le : stats.uniqueObjectCount ≤ stats.fileCount
  extensions : ∀ row ∈ stats.byExtension,
    ObjectFigures s (fun item => item.extension=row.extension) row.count row.size
  distinct : (stats.byExtension.map (·.extension)).Nodup
  descending : stats.byExtension.Pairwise fun a b => b.count ≤ a.count
  counts : (stats.byExtension.map (·.count)).sum=stats.uniqueObjectCount
  sizes : (stats.byExtension.map (·.size)).sum=stats.totalSize

section Figures
variable {s : StoredArchive}

lemma itemIds_nodup (s : StoredArchive) : (s.storeItems.values.map (·.id)).Nodup := by
  have hkeys : s.storeItems.values.map (·.id)=s.storeItems.keys := by
    rw [Dict.values,Dict.keys,List.map_map]
    apply List.map_congr_left
    intro e he
    exact s.item_id e.1 e.2 ((Dict.get?_eq_some_iff _ _ _).mpr he)
  rw [hkeys]
  exact s.storeItems.nodup

lemma objectFigures (h : Acyclic s.toArchiveTables) {kind : ArchiveStoreItem → Prop}
    [DecidablePred kind] : ObjectFigures s kind ((activeItems s).filter fun item => kind item).length
      (((activeItems s).filter fun item => kind item).map (·.size)).sum := by
  let rows := (activeItems s).filter fun item => kind item
  have hmem : ∀ item, item ∈ rows ↔
      ItemReached s.toArchiveTables item.id ∧ s.storeItems.get? item.id=some item ∧ kind item := by
    intro item
    have hrow : item ∈ s.storeItems.values ↔ s.storeItems.get? item.id=some item := by
      rw [Dict.mem_values_iff]
      refine ⟨?_,fun hitem => ⟨_,hitem⟩⟩
      rintro ⟨itemId,hitem⟩
      rw [s.item_id itemId item hitem]
      exact hitem
    simp only [rows,activeItems,List.mem_filter,hrow,activeFileExists_iff h,decide_eq_true_eq]
    tauto
  have hnodup : (rows.map (·.id)).Nodup :=
    (itemIds_nodup s).sublist ((List.filter_sublist.trans List.filter_sublist).map _)
  refine ⟨(rows.map (·.id)).toFinset,?_,?_,?_⟩
  · intro itemId
    rw [List.mem_toFinset,List.mem_map]
    constructor
    · rintro ⟨item,hitem,rfl⟩
      obtain ⟨hreached,hrow,hkind⟩ := (hmem item).mp hitem
      exact ⟨hreached,item,hrow,hkind⟩
    · rintro ⟨hreached,item,hrow,hkind⟩
      have hid := s.item_id itemId item hrow
      subst hid
      exact ⟨item,(hmem item).mpr ⟨hreached,hrow,hkind⟩,rfl⟩
  · rw [List.toFinset_card_of_nodup hnodup,List.length_map]
  · rw [List.sum_toFinset _ hnodup,List.map_map]
    congr 1
    apply List.map_congr_left
    intro item hitem
    simp [itemSize,((hmem item).mp hitem).2.1]

lemma ncard_files (h : Acyclic s.toArchiveTables) :
    s.files.values.countP (activeFile s)={fileId | FileReached s.toArchiveTables fileId}.ncard := by
  rw [Dict.countP_values,← Dict.ncard_keysWhere s.files fun _ file => activeFile s file]
  congr 1
  ext fileId
  constructor
  · rintro ⟨file,hfile,hactive⟩
    exact (activeFile_iff h hfile).mp hactive
  · intro hreached
    obtain ⟨file,-,hfile,-⟩ := id hreached
    exact ⟨file,hfile,(activeFile_iff h hfile).mpr hreached⟩

lemma ncard_dirs (h : Acyclic s.toArchiveTables) :
    (s.dirs.entries.countP fun d => activeDir s d.1 d.2)=
      {dirId | Reached s.toArchiveTables dirId}.ncard := by
  rw [← Dict.ncard_keysWhere s.dirs fun dirId dir => activeDir s dirId dir]
  congr 1
  ext dirId
  constructor
  · rintro ⟨dir,hdir,hactive⟩
    exact (activeDir_iff h hdir).mp hactive
  · intro hreached
    obtain ⟨⟨dir,hdir,-⟩,-⟩ := reached_notTrashed hreached
    exact ⟨dir,hdir,(activeDir_iff h hdir).mpr hreached⟩

/-- Every object that is counted has a file that is counted, and no file has two objects. -/
lemma objects_le_files {count size : ℕ}
    (hobjects : ObjectFigures s (fun _ => True) count size) :
    count ≤ {fileId | FileReached s.toArchiveTables fileId}.ncard := by
  obtain ⟨ids,hids,rfl,-⟩ := hobjects
  have hfinite : {fileId | FileReached s.toArchiveTables fileId}.Finite := by
    refine (List.finite_toSet s.files.keys).subset ?_
    rintro fileId ⟨file,-,hfile,-⟩
    exact (Dict.mem_keys_iff _ _).mpr ⟨file,hfile⟩
  have himage : (ids : Set Uuid) ⊆
      (fun fileId => ((s.files.get? fileId).map (·.storeItem.id)).getD 0) ''
        {fileId | FileReached s.toArchiveTables fileId} := by
    intro itemId hitem
    obtain ⟨⟨fileId,file,hreached,hfile,hid⟩,-⟩ := (hids itemId).mp hitem
    exact ⟨fileId,hreached,by simp [hfile,hid]⟩
  calc ids.card=(ids : Set Uuid).ncard := (Set.ncard_coe_finset ids).symm
    _ ≤ _ := Set.ncard_le_ncard himage (hfinite.image _)
    _ ≤ _ := Set.ncard_image_le hfinite

end Figures

/-- The figures of an archive whose directories form a forest count what the root leads to, however
the database orders extensions with equal counts. -/
theorem archiveStats_law {s : StoredArchive} (h : Acyclic s.toArchiveTables)
    (orderBy : OrderBy countDesc) : StatsLaw s (getArchiveStats orderBy s) := by
  have hperm := orderBy.pick_perm ((groupBy (·.extension) (activeItems s)).map extensionStats)
  have hobjects : ObjectFigures s (fun _ => True) (activeItems s).length
      ((activeItems s).map (·.size)).sum := by
    simpa using @objectFigures s h (fun _ => True) _
  refine ⟨ncard_files h,ncard_dirs h,hobjects,?_,?_,?_,?_,?_,?_⟩
  · change _ ≤ s.files.values.countP (activeFile s)
    rw [ncard_files h]
    exact objects_le_files hobjects
  · intro row hrow
    obtain ⟨⟨extension,group⟩,hgroup,rfl⟩ := List.mem_map.mp (hperm.mem_iff.mp hrow)
    obtain ⟨-,rfl⟩ := mem_groupBy.mp hgroup
    exact objectFigures h
  · have hnames : (((groupBy (·.extension) (activeItems s)).map extensionStats).map
        (·.extension)).Nodup := by
      rw [List.map_map]
      exact nodup_groupBy _ _
    exact (hperm.map _).nodup_iff.mpr hnames
  · exact (orderBy.ordered _).2
  · change ((orderBy.pick _).map (·.count)).sum=(activeItems s).length
    rw [(hperm.map _).sum_eq,List.map_map,← length_groupBy (·.extension)]
    rfl
  · change ((orderBy.pick _).map (·.size)).sum=_
    rw [(hperm.map _).sum_eq,List.map_map]
    exact sum_groupBy _ _ _

/-- The protocol of the nested archive. -/
def protocolItem : ArchiveStoreItem := ⟨20,text "Protokoll",none,text "pdf",text "application/pdf",
  4096,text "ab",some 7,0⟩

def photoItem : ArchiveStoreItem := ⟨21,text "Foto",none,text "jpg",text "image/jpeg",2048,
  text "cd",some 7,0⟩

def nestedItems : Dict Uuid ArchiveStoreItem := Dict.ofPairs [(20,protocolItem),(21,photoItem)]

section Nested
variable (trashed deleted : Option Timestamp)

/-- The nested archive with a photo above the protocol. -/
def photoArchive : ArchiveTables :=
  { nestedArchive trashed with
    files := Dict.ofPairs [(10,⟨some 3,none,protocolItem,none⟩),(11,⟨some 2,none,photoItem,deleted⟩)] }

lemma nestedItems_row {itemId : Uuid} {item : ArchiveStoreItem}
    (h : nestedItems.get? itemId=some item) :
    itemId=20 ∧ item=protocolItem ∨ itemId=21 ∧ item=photoItem := by
  simpa using Dict.mem_of_get?_ofPairs h

lemma nested_item_id (itemId : Uuid) (item : ArchiveStoreItem)
    (h : nestedItems.get? itemId=some item) : item.id=itemId := by
  obtain ⟨rfl,rfl⟩ | ⟨rfl,rfl⟩ := nestedItems_row h <;> rfl

lemma nested_item_hash (a b : Uuid) (itemA itemB : ArchiveStoreItem)
    (ha : nestedItems.get? a=some itemA) (hb : nestedItems.get? b=some itemB)
    (hsame : itemA.sha256Hash=itemB.sha256Hash) : a=b := by
  obtain ⟨rfl,rfl⟩ | ⟨rfl,rfl⟩ := nestedItems_row ha <;>
    obtain ⟨rfl,rfl⟩ | ⟨rfl,rfl⟩ := nestedItems_row hb
  · rfl
  · exact absurd hsame (by decide)
  · exact absurd hsame (by decide)
  · rfl

lemma photo_file {fileId : Uuid} {file : ArchiveFile}
    (h : (photoArchive trashed deleted).files.get? fileId=some file) :
    file=⟨some 3,none,protocolItem,none⟩ ∨ file=⟨some 2,none,photoItem,deleted⟩ := by
  have hmem := Dict.mem_of_get?_ofPairs h
  simp only [List.mem_cons,Prod.mk.injEq,List.not_mem_nil,or_false] at hmem
  exact hmem.imp And.right And.right

lemma photo_file_item (fileId : Uuid) (file : ArchiveFile)
    (h : (photoArchive trashed deleted).files.get? fileId=some file) :
    nestedItems.get? file.storeItem.id=some file.storeItem := by
  obtain rfl | rfl := photo_file trashed deleted h <;> rfl

lemma photo_file_dir (fileId : Uuid) (file : ArchiveFile) (dirId : Uuid)
    (h : (photoArchive trashed deleted).files.get? fileId=some file)
    (hdir : file.archiveDirId=some dirId) :
    ∃ dir, (photoArchive trashed deleted).dirs.get? dirId=some dir := by
  obtain rfl | rfl := photo_file trashed deleted h <;> cases hdir <;> exact ⟨_,rfl⟩

lemma photo_dir_parent (dirId : Uuid) (dir : ArchiveDirRow) (parentId : Uuid)
    (h : (photoArchive trashed deleted).dirs.get? dirId=some dir)
    (hp : dir.archiveDirId=some parentId) :
    ∃ parent, (photoArchive trashed deleted).dirs.get? parentId=some parent := by
  have hmem := Dict.mem_of_get?_ofPairs h
  simp only [List.mem_cons,Prod.mk.injEq,List.not_mem_nil,or_false] at hmem
  rcases hmem with ⟨rfl,rfl⟩ | ⟨rfl,rfl⟩ | ⟨rfl,rfl⟩ <;> cases hp <;> exact ⟨_,rfl⟩

lemma photo_comment_file (commentId : Uuid) (comment : ArchiveFileComment)
    (h : (photoArchive trashed deleted).comments.get? commentId=some comment) :
    ∃ file, (photoArchive trashed deleted).files.get? comment.archiveFileId=some file := by
  cases h

def storedPhotos : StoredArchive where
  toArchiveTables := photoArchive trashed deleted
  storeItems := nestedItems
  item_id := nested_item_id
  item_hash := nested_item_hash
  file_item := photo_file_item trashed deleted
  file_dir := photo_file_dir trashed deleted
  dir_parent := photo_dir_parent trashed deleted
  comment_file := photo_comment_file trashed deleted

end Nested

/-- The photo is in the trash. -/
theorem archiveStats_deletedPhoto :
    StatsLaw (storedPhotos none (some 5)) (getArchiveStats (.stable countDesc)
      (storedPhotos none (some 5))) :=
  archiveStats_law (s := storedPhotos none (some 5)) (nestedArchive_acyclic none) (.stable countDesc)

/-- With the innermost directory in the trash as well, neither file is counted. -/
example : (getArchiveStats (.stable countDesc) (storedPhotos none (some 5))).fileCount=1 ∧
    (getArchiveStats (.stable countDesc) (storedPhotos (some 5) (some 5))).dirCount=2 ∧
    (getArchiveStats (.stable countDesc) (storedPhotos (some 5) (some 5))).fileCount=0 := by decide

end VbApi.Archive
