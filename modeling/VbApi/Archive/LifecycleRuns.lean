import VbApi.Archive.Lifecycle

/-! What holds of the archive after any order of requests and commands: every file leads to its
content, and what members and the maintenance delete is what they may. -/
namespace VbApi.Archive
open VbApi.Foundations VbApi.Storage

/-! ### Every file leads to its content -/

/-- Ids are handed out in order, every stored object has a file, and it is in the bucket as recorded. -/
structure ArchiveSound (sha256 : List UInt8 → PyText) (w : ArchiveSystem) : Prop where
  items_fresh : ∀ itemId item, w.archive.storeItems.get? itemId=some item →
    itemId < w.archive.nextUuid
  files_fresh : ∀ fileId file, w.archive.files.get? fileId=some file → fileId < w.archive.nextUuid
  referenced : ∀ itemId item, w.archive.storeItems.get? itemId=some item →
    ∃ fileId, RefersTo w.archive.toArchiveTables itemId fileId
  stored : ∀ itemId item, w.archive.storeItems.get? itemId=some item →
    ∃ object, w.bucket.get? (storeKey item.sha256Hash)=some object ∧
      sha256 object.data=item.sha256Hash ∧ object.data.length=item.size

/-- No two files of the archive share a stored object. -/
def Unshared (s : ArchiveTables) : Prop :=
  ∀ itemId a b, RefersTo s itemId a → RefersTo s itemId b → a=b

/-- Two files share a stored object only if they did so before. -/
def NoNewSharing (s s' : ArchiveTables) : Prop :=
  ∀ itemId a b, a ≠ b → RefersTo s' itemId a → RefersTo s' itemId b →
    RefersTo s itemId a ∧ RefersTo s itemId b

lemma NoNewSharing.trans {s s' s'' : ArchiveTables} (h : NoNewSharing s s')
    (h' : NoNewSharing s' s'') : NoNewSharing s s'' := by
  intro itemId a b hne ha hb
  obtain ⟨ha',hb'⟩ := h' itemId a b hne ha hb
  exact h itemId a b hne ha' hb'

lemma NoNewSharing.unshared {s s' : ArchiveTables} (h : NoNewSharing s s') (hs : Unshared s) :
    Unshared s' := by
  intro itemId a b ha hb
  by_contra hne
  obtain ⟨ha',hb'⟩ := h itemId a b hne ha hb
  exact hne (hs itemId a b ha' hb')

lemma storeKey_ne {a b : PyText} (hne : a ≠ b) : storeKey a ≠ storeKey b :=
  fun heq => hne (List.append_cancel_left heq)

section Steps
variable {w w' : ArchiveSystem}

lemma refersTo_insertUpload {s : StoredArchive} {item : ArchiveStoreItem} (h : s.Insertable item)
    (itemId id : Uuid) : RefersTo (s.insertUpload item h).toArchiveTables itemId id ↔
      if id=item.id+1 then itemId=item.id else RefersTo s.toArchiveTables itemId id := by
  change (∃ file, (s.files.set (item.id+1) _).get? id=some file ∧ _) ↔ _
  rw [Dict.get?_set]
  split_ifs with hid
  · constructor
    · rintro ⟨file,hfile,rfl⟩
      cases hfile
      rfl
    · intro heq
      exact ⟨_,rfl,heq.symm⟩
  · exact Iff.rfl

lemma next_le_insertUpload {item : ArchiveStoreItem} (h : w.archive.Insertable item)
    (hid : item.id=w.archive.nextUuid) :
    w.archive.nextUuid ≤ (w.archive.insertUpload item h).nextUuid := by
  change w.archive.nextUuid ≤ item.id+2
  rw [hid]
  exact Nat.le_add_right _ 2

lemma Rearranged.refersTo (h : Rearranged w w') (itemId id : Uuid) :
    RefersTo w'.archive.toArchiveTables itemId id ↔ RefersTo w.archive.toArchiveTables itemId id := by
  have hmap : ∀ (s : ArchiveTables), RefersTo s itemId id ↔
      ∃ item, (s.files.get? id).map (·.storeItem)=some item ∧ item.id=itemId := by
    intro s
    simp only [RefersTo,Option.map_eq_some_iff]
    constructor
    · rintro ⟨file,hfile,hid⟩
      exact ⟨_,⟨file,hfile,rfl⟩,hid⟩
    · rintro ⟨item,⟨file,hfile,rfl⟩,hid⟩
      exact ⟨file,hfile,hid⟩
  rw [hmap,hmap,h.files]

lemma HardDeleted.refersTo {fileId : Uuid} {file : ArchiveFile} (h : HardDeleted w fileId file w')
    (itemId id : Uuid) : RefersTo w'.archive.toArchiveTables itemId id ↔
      id ≠ fileId ∧ RefersTo w.archive.toArchiveTables itemId id := by
  simp only [RefersTo,h.files]
  by_cases hid : id=fileId <;> simp [hid]

variable {sha256 : List UInt8 → PyText} {lower : PyText → PyText} {op : LifecycleOp}

lemma ArchiveSound.put (hs : ArchiveSound sha256 w) {sha256Hash : PyText} {object : StoredObject}
    (hnew : ∀ itemId item, w.archive.storeItems.get? itemId=some item →
      item.sha256Hash ≠ sha256Hash) :
    ArchiveSound sha256 ⟨w.archive,w.bucket.set (storeKey sha256Hash) object⟩ where
  items_fresh := hs.items_fresh
  files_fresh := hs.files_fresh
  referenced := hs.referenced
  stored itemId item hitem := by
    rw [Dict.get?_set_of_ne _ (storeKey_ne (hnew itemId item hitem))]
    exact hs.stored itemId item hitem

lemma ArchiveSound.insert (hs : ArchiveSound sha256 w) {item : ArchiveStoreItem} {object : StoredObject}
    (h : w.archive.Insertable item) (hid : item.id=w.archive.nextUuid)
    (hhash : sha256 object.data=item.sha256Hash) (hsize : object.data.length=item.size) :
    ArchiveSound sha256
      ⟨w.archive.insertUpload item h,w.bucket.set (storeKey item.sha256Hash) object⟩ where
  items_fresh itemId i hi := by
    change (w.archive.storeItems.set item.id item).get? itemId=some i at hi
    rw [Dict.get?_set] at hi
    split_ifs at hi with heq
    · rw [heq]
      exact Nat.lt_add_of_pos_right Nat.two_pos
    · exact (hs.items_fresh itemId i hi).trans_le (next_le_insertUpload h hid)
  files_fresh fileId f hf := by
    change (w.archive.files.set (item.id+1) _).get? fileId=some f at hf
    rw [Dict.get?_set] at hf
    split_ifs at hf with heq
    · rw [heq]
      exact Nat.lt_succ_self _
    · exact (hs.files_fresh fileId f hf).trans_le (next_le_insertUpload h hid)
  referenced itemId i hi := by
    change (w.archive.storeItems.set item.id item).get? itemId=some i at hi
    rw [Dict.get?_set] at hi
    split_ifs at hi with heq
    · exact ⟨item.id+1,(refersTo_insertUpload h _ _).mpr ((if_pos rfl).mpr heq)⟩
    · obtain ⟨id,f,hf,hitem⟩ := hs.referenced itemId i hi
      have hne : id ≠ item.id+1 := by
        intro hnew
        rw [hnew,h.2.2.1] at hf
        cases hf
      exact ⟨id,(refersTo_insertUpload h _ _).mpr ((if_neg hne).mpr ⟨f,hf,hitem⟩)⟩
  stored itemId i hi := by
    change (w.archive.storeItems.set item.id item).get? itemId=some i at hi
    rw [Dict.get?_set] at hi
    split_ifs at hi with heq
    · cases hi
      exact ⟨object,Dict.get?_set_self _ _ _,hhash,hsize⟩
    · rw [Dict.get?_set_of_ne _ (storeKey_ne (h.hash_ne hi))]
      exact hs.stored itemId i hi

lemma ArchiveSound.rearrange (hs : ArchiveSound sha256 w) (h : Rearranged w w') :
    ArchiveSound sha256 w' where
  items_fresh itemId item hitem := by
    rw [h.items] at hitem
    rw [h.next]
    exact hs.items_fresh itemId item hitem
  files_fresh fileId file hfile := by
    have hmap := h.files fileId
    rw [hfile,Option.map_some,eq_comm,Option.map_eq_some_iff] at hmap
    obtain ⟨file',hfile',-⟩ := hmap
    rw [h.next]
    exact hs.files_fresh fileId file' hfile'
  referenced itemId item hitem := by
    rw [h.items] at hitem
    obtain ⟨id,hid⟩ := hs.referenced itemId item hitem
    exact ⟨id,(h.refersTo itemId id).mpr hid⟩
  stored itemId item hitem := by
    rw [h.items] at hitem
    rw [h.bucket]
    exact hs.stored itemId item hitem

/-- The objects that go are those of the item that goes, since no two items have one hash. -/
lemma ArchiveSound.hardDelete (hs : ArchiveSound sha256 w) {fileId : Uuid} {file : ArchiveFile}
    (h : HardDeleted w fileId file w') : ArchiveSound sha256 w' where
  items_fresh itemId item hitem := by
    rw [h.next]
    exact hs.items_fresh itemId item ((h.items itemId item).mp hitem).1
  files_fresh id f hf := by
    rw [h.files] at hf
    split_ifs at hf
    rw [h.next]
    exact hs.files_fresh id f hf
  referenced itemId item hitem := by
    obtain ⟨hrow,hother⟩ := (h.items itemId item).mp hitem
    simp only [h.refersTo]
    by_cases hid : itemId=file.storeItem.id
    · exact hother hid
    · obtain ⟨id,f,hf,hfid⟩ := hs.referenced itemId item hrow
      refine ⟨id,?_,f,hf,hfid⟩
      intro hsame
      rw [hsame,h.row] at hf
      cases hf
      exact hid hfid.symm
  stored itemId item hitem := by
    obtain ⟨hrow,hother⟩ := (h.items itemId item).mp hitem
    rw [h.objects]
    · exact hs.stored itemId item hrow
    · by_cases hid : itemId=file.storeItem.id
      · exact .inr (hid ▸ hother hid)
      · refine .inl (not_keyOf_storeKey ?_)
        intro hhash
        exact hid (w.archive.item_hash _ _ _ _ hrow (w.archive.file_item fileId file h.row) hhash)

lemma Effect.sound (h : Effect sha256 lower w op w') (hs : ArchiveSound sha256 w) :
    ArchiveSound sha256 w' := by
  cases h with
  | stay => exact hs
  | put _ hnew => exact hs.put hnew
  | insert object h hid hhash hsize => exact hs.insert h hid hhash hsize
  | rearrange _ h => exact hs.rearrange h
  | hardDelete _ h _ => exact hs.hardDelete h

lemma Effect.noNewSharing (h : Effect sha256 lower w op w') :
    NoNewSharing w.archive.toArchiveTables w'.archive.toArchiveTables := by
  intro itemId a b hne ha hb
  cases h with
  | stay => exact ⟨ha,hb⟩
  | put _ _ => exact ⟨ha,hb⟩
  | @insert item object h hid hhash hsize =>
    -- the item of the upload has only its own file
    have hold : ∀ id, ¬ RefersTo w.archive.toArchiveTables item.id id := by
      rintro id ⟨f,hf,hfid⟩
      have hitem := w.archive.file_item id f hf
      rw [hfid,h.2.1] at hitem
      cases hitem
    rw [refersTo_insertUpload] at ha hb
    split_ifs at ha hb with hida hidb hidb
    · exact absurd (hida.trans hidb.symm) hne
    · exact absurd (ha ▸ hb) (hold b)
    · exact absurd (hb ▸ ha) (hold a)
    · exact ⟨ha,hb⟩
  | rearrange _ h => exact ⟨(h.refersTo itemId a).mp ha,(h.refersTo itemId b).mp hb⟩
  | hardDelete _ h _ => exact ⟨((h.refersTo itemId a).mp ha).2,((h.refersTo itemId b).mp hb).2⟩

end Steps

section Sound
variable {sha256 : List UInt8 → PyText} {lower : PyText → PyText} {w₀ w : ArchiveSystem}
  {ok : ArchiveSystem → LifecycleOp → Prop}

lemma Effect.of_step {w' : ArchiveSystem} {op : LifecycleOp}
    (h : (lifecycleMachine sha256 lower).step w op=some w') : Effect sha256 lower w op w' := by
  cases h
  exact perform_effect sha256 lower w op

lemma reaches_sound (h : (lifecycleMachine sha256 lower).Reaches ok w₀ w)
    (h₀ : ArchiveSound sha256 w₀) : ArchiveSound sha256 w :=
  h.invariant h₀ fun _ _ _ hs _ hstep => (Effect.of_step hstep).sound hs

lemma reaches_noNewSharing (h : (lifecycleMachine sha256 lower).Reaches ok w₀ w) :
    NoNewSharing w₀.archive.toArchiveTables w.archive.toArchiveTables := by
  refine h.relates (I := fun _ => True)
    (R := fun v v' => NoNewSharing v.archive.toArchiveTables v'.archive.toArchiveTables)
    trivial (fun _ _ _ _ _ _ => trivial) ?_ (fun _ _ _ => NoNewSharing.trans) ?_
  · exact fun _ _ _ _ _ ha hb => ⟨ha,hb⟩
  · exact fun _ _ _ _ _ hstep => (Effect.of_step hstep).noNewSharing

lemma existingItem_eq_none_iff {s : StoredArchive} {sha256Hash : PyText} :
    existingItem s sha256Hash=none ↔
      ∀ itemId item, s.storeItems.get? itemId=some item → item.sha256Hash ≠ sha256Hash := by
  rw [existingItem,Dict.find?,List.find?_eq_none]
  simp only [Prod.forall,decide_eq_true_eq,Dict.get?_eq_some_iff]

/-- An upload that passes the checks on its name and size is refused as existing exactly for its
content, whatever the rest of the request. -/
lemma uploadFile_exists_iff {lower : PyText → PyText} {user : Uuid} {now : Timestamp}
    {file : UploadFile} {description name ext : PyText} {putFails : Bool}
    (hname : file.filename.bind rsplitDot=some (name,ext)) (hext : lower ext ∈ uploadExtensions)
    (hmin : uploadMinKb*1024 ≤ file.content.length)
    (hmax : file.content.length ≤ uploadMaxKb*1024) :
    (uploadFile sha256 lower w user now file description putFails).2=
        some (.http 422 (text "Datei existiert bereits.")) ↔
      existingItem w.archive (sha256 file.content) ≠ none := by
  have hcheck : checkUpload sha256 lower w.archive file description=(do
      guardError (existingItem w.archive (sha256 file.content)=none)
        (.http 422 (text "Datei existiert bereits."))
      guardError (¬ (description.length < uploadDescMin ∨ description.length > uploadDescMax))
        (.http 422 (text "Beschreibung muss 5-125 Zeichen lang sein."))
      return (name,lower ext)) := by
    unfold checkUpload
    rw [hname]
    simp only [guardError,hext,if_true,not_lt.mpr hmin,not_lt.mpr hmax,gt_iff_lt,not_false_eq_true]
    rfl
  have hother : text "Beschreibung muss 5-125 Zeichen lang sein." ≠ text "Datei existiert bereits." := by
    decide
  unfold uploadFile
  rw [hcheck]
  by_cases hexists : existingItem w.archive (sha256 file.content)=none
  · refine iff_of_false ?_ (not_not.mpr hexists)
    rw [guardError,if_pos hexists]
    by_cases hlength : description.length < uploadDescMin ∨ description.length > uploadDescMax
    · rw [guardError,if_neg (not_not.mpr hlength)]
      exact fun heq => hother (Refusal.http.inj (Option.some.inj heq)).2
    · rw [guardError,if_pos hlength]
      dsimp only [bind,Except.bind,pure,Except.pure]
      split_ifs <;> exact fun heq => by cases heq
  · refine iff_of_true ?_ hexists
    rw [guardError,if_neg hexists]
    rfl

/-- In every order of uploads, filings, deletions, restores and purges, whichever calls of the object
store fail, every file leads to a stored object with its content, and an upload that passes the checks on
its name and size is refused as existing exactly while some file, in the trash or not, has its content. -/
theorem archive_lifecycle_sound (h₀ : ArchiveSound sha256 w₀)
    (h : (lifecycleMachine sha256 lower).Reaches Machine.Any w₀ w) :
    ArchiveSound sha256 w ∧
    (∀ fileId file, w.archive.files.get? fileId=some file →
      ∃ object, w.bucket.get? (storeKey file.storeItem.sha256Hash)=some object ∧
        sha256 object.data=file.storeItem.sha256Hash) ∧
    (∀ content, existingItem w.archive (sha256 content) ≠ none ↔
      ∃ fileId file, w.archive.files.get? fileId=some file ∧
        file.storeItem.sha256Hash=sha256 content) ∧
    (∀ user now upload description putFails name ext,
      upload.filename.bind rsplitDot=some (name,ext) → lower ext ∈ uploadExtensions →
      uploadMinKb*1024 ≤ upload.content.length → upload.content.length ≤ uploadMaxKb*1024 →
      ((uploadFile sha256 lower w user now upload description putFails).2=
          some (.http 422 (text "Datei existiert bereits.")) ↔
        ∃ fileId file, w.archive.files.get? fileId=some file ∧
          file.storeItem.sha256Hash=sha256 upload.content)) ∧
    NoNewSharing w₀.archive.toArchiveTables w.archive.toArchiveTables := by
  have hs := reaches_sound h h₀
  have hexisting : ∀ content, existingItem w.archive (sha256 content) ≠ none ↔
      ∃ fileId file, w.archive.files.get? fileId=some file ∧
        file.storeItem.sha256Hash=sha256 content := by
    intro content
    rw [Ne,existingItem_eq_none_iff]
    push Not
    constructor
    · rintro ⟨itemId,item,hitem,hhash⟩
      obtain ⟨fileId,file,hfile,rfl⟩ := hs.referenced itemId item hitem
      rw [w.archive.file_item fileId file hfile] at hitem
      cases hitem
      exact ⟨fileId,file,hfile,hhash⟩
    · rintro ⟨fileId,file,hfile,hhash⟩
      exact ⟨_,_,w.archive.file_item fileId file hfile,hhash⟩
  refine ⟨hs,?_,hexisting,?_,reaches_noNewSharing h⟩
  · intro fileId file hfile
    obtain ⟨object,hobject,hhash,-⟩ := hs.stored _ _ (w.archive.file_item fileId file hfile)
    exact ⟨object,hobject,hhash⟩
  · intro user now upload description putFails name ext hname hext hmin hmax
    rw [uploadFile_exists_iff hname hext hmin hmax]
    exact hexisting upload.content

end Sound

/-- One directory, and no file. -/
def emptyArchive : StoredArchive where
  toArchiveTables :=
    { dirs := Dict.ofPairs [(0,⟨⟨text "Convente",none,none,none,none,[]⟩,0,none⟩)], files := .empty,
      comments := .empty, orgs := [], states := [], memberNames := .empty, collation := id,
      nextUuid := 1 }
  storeItems := .empty
  item_id := nofun
  item_hash := nofun
  file_item := nofun
  file_dir := nofun
  dir_parent dirId dir parentId h hp := by
    have hmem := Dict.mem_of_get?_ofPairs h
    simp only [List.mem_singleton,Prod.mk.injEq] at hmem
    obtain ⟨rfl,rfl⟩ := hmem
    cases hp
  comment_file := nofun

def minutes : UploadFile :=
  ⟨some (text "Protokoll.pdf"),some "application/pdf",List.replicate 2048 0⟩

def photo : UploadFile := ⟨some (text "Foto.jpg"),some "image/jpeg",List.replicate 2048 1⟩

def letter : UploadFile := ⟨some (text "Brief.pdf"),some "application/pdf",List.replicate 2048 2⟩

/-- The digests of the three contents. -/
def uploadDigest : List UInt8 → PyText
  | 0::_ => text "e5a00aa9991ac8a5ee3109844d84a55583bd20572ad3ffcd42792f3c36b183ad"
  | 1::_ => text "7c7d2eb358671b401d2a5e59bf56e7163e16994a170d4788faad9be5d82363b2"
  | _ => text "87c6ef44094279a252bdd25434f8dd51e22ca6d231011229e9be95d9ac7771b7"

lemma lifecycle_run (sha256 : List UInt8 → PyText) (lower : PyText → PyText) (w : ArchiveSystem)
    (ops : List LifecycleOp) : (lifecycleMachine sha256 lower).run w ops=
      some (ops.foldl (fun v op => (op.perform sha256 lower v).1) w) := by
  induction ops generalizing w with
  | nil => rfl
  | cons op ops ih => exact ih (op.perform sha256 lower w).1

def afterOps (ops : List LifecycleOp) : ArchiveSystem :=
  ops.foldl (fun v op => (op.perform uploadDigest id v).1) ⟨emptyArchive,.empty⟩

lemma afterOps_reached (ops : List LifecycleOp) : (lifecycleMachine uploadDigest id).Reaches
    Machine.Any ⟨emptyArchive,.empty⟩ (afterOps ops) :=
  Machine.reaches_of_run (Machine.meets_any _ _) (lifecycle_run uploadDigest id _ ops)

lemma emptyArchive_sound : ArchiveSound uploadDigest ⟨emptyArchive,.empty⟩ :=
  ⟨nofun,nofun,nofun,nofun⟩

def member7 : Member := ⟨⟨[]⟩,7,none,none⟩
def member8 : Member := ⟨⟨[]⟩,8,none,none⟩
def archivist : Member := ⟨⟨[text "archiveAdmin"]⟩,9,none,none⟩

def uploads : List LifecycleOp :=
  [.uploadFile 7 0 minutes (text "Protokoll") false,.uploadFile 7 0 photo (text "Gruppenfoto") false,
    .uploadFile 8 0 letter (text "Einladung") false]

/-- Two of the uploads are filed, the third is taken back, and the photo is put into the trash and
purged. -/
def filings : List LifecycleOp :=
  [.receiveItems archivist (some 0) [2,4],.deleteUnfiledUpload .none member8 6,
    .deleteFile archivist 5 4,.purgeFile .none 4]

lemma filed_files : ((afterOps (uploads ++ filings)).archive.files.entries.map
    fun f => (f.1,f.2.archiveDirId,f.2.storeItem.sha256Hash))=
      [(2,some 0,uploadDigest minutes.content)] := by decide +kernel

/-- Of the three uploads the minutes are left, and the photo may be uploaded again. -/
theorem archive_lifecycle_sound_filed :
    existingItem (afterOps (uploads ++ filings)).archive (uploadDigest minutes.content) ≠ none ∧
    (uploadFile uploadDigest id (afterOps (uploads ++ filings)) 8 9 photo (text "Gruppenfoto") false).2
      ≠ some (.http 422 (text "Datei existiert bereits.")) := by
  have hlaw := archive_lifecycle_sound emptyArchive_sound (afterOps_reached (uploads ++ filings))
  have hfiles : ∀ {fileId file}, (afterOps (uploads ++ filings)).archive.files.get? fileId=some file →
      file.storeItem.sha256Hash=uploadDigest minutes.content := by
    intro fileId file hfile
    have hmem := List.mem_map_of_mem (f := fun f : Uuid × ArchiveFile =>
      (f.1,f.2.archiveDirId,f.2.storeItem.sha256Hash)) ((Dict.get?_eq_some_iff _ _ _).mp hfile)
    rw [filed_files,List.mem_singleton,Prod.mk.injEq,Prod.mk.injEq] at hmem
    exact hmem.2.2
  constructor
  · rw [hlaw.2.2.1]
    obtain ⟨f,hf,heq⟩ := List.mem_map.mp (filed_files ▸ List.mem_singleton_self
      ((2,some 0,uploadDigest minutes.content) : Uuid × Option Uuid × PyText))
    have hfile := (Dict.get?_eq_some_iff _ f.1 f.2).mpr hf
    exact ⟨f.1,f.2,hfile,hfiles hfile⟩
  · rw [Ne,hlaw.2.2.2.1 8 9 photo _ _ (text "Foto") (text "jpg") (by decide) (by decide)
      (by decide +kernel) (by decide +kernel)]
    rintro ⟨fileId,file,hfile,hhash⟩
    rw [hfiles hfile] at hhash
    exact absurd hhash (by decide)

/-! ### What members without the right can do -/

/-- The member deletes an upload. -/
def LifecycleOp.DeletesBy (op : LifecycleOp) (userId : Uuid) : Prop :=
  ∃ faults user fileId, op=.deleteUnfiledUpload faults user fileId ∧ user.id=userId

section MembersOnly
variable {sha256 : List UInt8 → PyText} {lower : PyText → PyText} {w₀ w : ArchiveSystem}
  {ok : ArchiveSystem → LifecycleOp → Prop}

/-- The file has its row, and its object is that of the first archive. -/
def Untouched (w₀ : ArchiveSystem) (fileId : Uuid) (file : ArchiveFile) (w : ArchiveSystem) : Prop :=
  w.archive.files.get? fileId=some file ∧
  w.bucket.get? (storeKey file.storeItem.sha256Hash)=
    w₀.bucket.get? (storeKey file.storeItem.sha256Hash)

lemma Effect.untouched {w' : ArchiveSystem} {op : LifecycleOp} {fileId : Uuid} {file : ArchiveFile}
    (h : Effect sha256 lower w op w') (hop : op.privileged=false)
    (hkept : file.archiveDirId ≠ none ∨
      ∃ creator, file.storeItem.createdBy=some creator ∧ ¬ op.DeletesBy creator)
    (hw : Untouched w₀ fileId file w) : Untouched w₀ fileId file w' := by
  obtain ⟨hrow,hobject⟩ := hw
  have hitem := w.archive.file_item fileId file hrow
  cases h with
  | stay => exact ⟨hrow,hobject⟩
  | put _ hnew =>
    refine ⟨hrow,?_⟩
    rw [Dict.get?_set_of_ne _ (storeKey_ne (hnew _ _ hitem))]
    exact hobject
  | @insert item object h hid hhash hsize =>
    have hne : fileId ≠ item.id+1 := by
      intro heq
      rw [heq,h.2.2.1] at hrow
      cases hrow
    refine ⟨(Dict.get?_set_of_ne _ hne _).trans hrow,?_⟩
    rw [Dict.get?_set_of_ne _ (storeKey_ne (h.hash_ne hitem))]
    exact hobject
  | rearrange hprivileged => exact absurd hprivileged (by simp [hop])
  | @hardDelete _ fileId' file' hdeletes h _ =>
    obtain hprivileged | ⟨faults,user,hdelete,hcreated,hdir⟩ := hdeletes
    · exact absurd hprivileged (by simp [hop])
    have hne : fileId ≠ fileId' := by
      intro heq
      have hsame : file=file' := Option.some.inj (hrow.symm.trans (heq ▸ h.row))
      subst hsame
      obtain hfiled | ⟨creator,hcreator,hown⟩ := hkept
      · exact hfiled hdir
      · exact hown ⟨faults,user,fileId',hdelete,Option.some.inj (hcreated.symm.trans hcreator)⟩
    refine ⟨(h.files fileId).trans ((if_neg hne).trans hrow),(h.objects _ ?_).trans hobject⟩
    by_cases hshared : file.storeItem.id=file'.storeItem.id
    · exact .inr ⟨fileId,hne,file,hrow,hshared⟩
    · refine .inl (not_keyOf_storeKey ?_)
      intro hhash
      exact hshared (w.archive.item_hash _ _ _ _ hitem (w.archive.file_item fileId' file' h.row) hhash)

/-- While nobody with the right and no maintenance acts, whatever members upload and delete leaves every
filed file, and every upload whose uploader deletes none, as it is, in the archive and in the object
store. -/
theorem members_delete_own_only (h : (lifecycleMachine sha256 lower).Reaches ok w₀ w)
    (hok : ∀ v op, ok v op → op.privileged=false) {fileId : Uuid} {file : ArchiveFile}
    (hrow : w₀.archive.files.get? fileId=some file)
    (hkept : file.archiveDirId ≠ none ∨ ∃ creator, file.storeItem.createdBy=some creator ∧
      ∀ v op, ok v op → ¬ op.DeletesBy creator) :
    w.archive.files.get? fileId=some file ∧
    w.bucket.get? (storeKey file.storeItem.sha256Hash)=
      w₀.bucket.get? (storeKey file.storeItem.sha256Hash) := by
  refine h.invariant (I := Untouched w₀ fileId file) ⟨hrow,rfl⟩ ?_
  intro v op v' hv hop hstep
  refine (Effect.of_step hstep).untouched (hok v op hop) (hkept.imp_right ?_) hv
  rintro ⟨creator,hcreated,hown⟩
  exact ⟨creator,hcreated,hown v op hop⟩

/-- Member 8 takes back the own upload, and cannot delete what member 7 has uploaded. -/
theorem members_delete_own_only_uploads :
    let attempts := [LifecycleOp.deleteUnfiledUpload .none member8 6,
      .deleteUnfiledUpload .none member8 2]
    ∃ file, (afterOps uploads).archive.files.get? 2=some file ∧ file.archiveDirId=none ∧
      (afterOps (uploads ++ attempts)).archive.files.get? 2=some file ∧
      (afterOps (uploads ++ attempts)).archive.files.get? 6=none := by
  intro attempts
  have hrow : ((afterOps uploads).archive.files.get? 2).map
      (fun f => (f.archiveDirId,f.storeItem.createdBy))=some (none,some 7) := by decide +kernel
  have hgone : ((afterOps (uploads ++ attempts)).archive.files.get? 6).isNone=true := by
    decide +kernel
  obtain ⟨file,hfile,heq⟩ := Option.map_eq_some_iff.mp hrow
  refine ⟨file,hfile,congrArg Prod.fst heq,?_,Option.isNone_iff_eq_none.mp hgone⟩
  have hreach : (lifecycleMachine uploadDigest id).Reaches
      (fun _ op => op.privileged=false ∧ ¬ op.DeletesBy 7) (afterOps uploads)
      (afterOps (uploads ++ attempts)) := by
    have hrun : (lifecycleMachine uploadDigest id).run (afterOps uploads) attempts=
        some (afterOps (uploads ++ attempts)) := by
      rw [lifecycle_run,afterOps,afterOps,List.foldl_append]
    refine Machine.reaches_of_run (Machine.meets_of_forall ?_ _) hrun
    intro op hop _
    simp only [attempts,List.mem_cons,List.not_mem_nil,or_false] at hop
    obtain rfl | rfl := hop <;>
    · refine ⟨rfl,?_⟩
      rintro ⟨_,user,_,hop,huser⟩
      cases hop
      exact absurd huser (by decide)
  exact (members_delete_own_only hreach (fun _ _ hop => hop.1) hfile
    (.inr ⟨7,congrArg Prod.snd heq,fun _ _ hop => hop.2⟩)).1

end MembersOnly

/-! ### An archive without duplicates -/

section Unshared
variable {sha256 : List UInt8 → PyText} {lower : PyText → PyText} {w₀ w w' : ArchiveSystem}
  {fileId : Uuid} {file : ArchiveFile}

lemma classifyImpact_sole_iff (hfile : w.archive.files.get? fileId=some file)
    (hdeleted : file.deletedAt ≠ none) :
    let counts := referenceCount (filesOf w.archive.toArchiveTables file.storeItem.id)
    classifyImpact counts.1 ((counts.2 : ℤ)-1)=.sole ↔
      ∀ other, RefersTo w.archive.toArchiveTables file.storeItem.id other → other=fileId := by
  intro counts
  let c : PurgeCandidate :=
    { fileId := fileId, path := [], name := [], extension := [], description := none,
      deletedAt := none, size := 0, sha256Hash := [], archiveStoreItemId := file.storeItem.id,
      archiveDirId := none, activeSiblingCount := counts.1, otherDeletedSiblingCount := counts.2-1 }
  have hcandidate : CandidateOf w.archive.toArchiveTables (fileId,file) c :=
    ⟨hfile,hdeleted,rfl,rfl,rfl,rfl⟩
  exact impact_sole_iff hcandidate

lemma changeFile_accepts (hfile : w.archive.files.get? fileId=some file)
    (change : ArchiveFile → ArchiveFile)
    (hchange : ∀ f, (change f).storeItem=f.storeItem ∧ (change f).archiveDirId=f.archiveDirId) :
    (changeFile w fileId change hchange).2=none := by
  unfold changeFile
  split
  · rename_i hnone
    rw [hnone] at hfile
    cases hfile
  · rfl

/-- Without other rows of its item, a file in the trash is taken out by the maintenance. -/
lemma restoreSole_accepts_iff : (restoreSole w fileId).2=none ↔
    ∃ file, w.archive.files.get? fileId=some file ∧ file.deletedAt ≠ none ∧
      ∀ other, RefersTo w.archive.toArchiveTables file.storeItem.id other → other=fileId := by
  unfold restoreSole getSoftDeletedFile
  cases hfile : w.archive.files.get? fileId with
  | none => simp
  | some file =>
    dsimp only
    by_cases hdeleted : file.deletedAt=none
    · simp [hdeleted]
    · have hfiles : filesOf w.archive.toArchiveTables file.storeItem.id ≠ [] :=
        List.ne_nil_of_mem (mem_filesOf.mpr ⟨fileId,hfile,rfl⟩)
      have hcounts : countsOf (referenceCounts w.archive.toArchiveTables [file.storeItem.id])
          file.storeItem.id=.ok (referenceCount (filesOf w.archive.toArchiveTables file.storeItem.id)) := by
        rw [countsOf,(get?_referenceCounts (List.mem_singleton_self _) _).mpr ⟨hfiles,rfl⟩]
      have hsole := classifyImpact_sole_iff hfile hdeleted
      rw [if_neg hdeleted]
      dsimp only
      rw [hcounts]
      dsimp only at hsole ⊢
      split_ifs with himpact
      · exact iff_of_true (changeFile_accepts hfile _ _) ⟨file,rfl,hdeleted,hsole.mp himpact⟩
      · simpa [hdeleted] using mt hsole.mpr himpact

lemma purge_of_deleted (faults : StorageFaults) (hfile : w.archive.files.get? fileId=some file)
    (hdeleted : file.deletedAt ≠ none) :
    purge w faults fileId=((hardDeleteFile faults w fileId file).1,none) := by
  simp [purge,purgeFile,getSoftDeletedFile,hfile,hdeleted]

/-- With its last file the content leaves the archive. -/
lemma HardDeleted.frees (h : HardDeleted w fileId file w')
    (hsole : ∀ other, RefersTo w.archive.toArchiveTables file.storeItem.id other → other=fileId) :
    existingItem w'.archive file.storeItem.sha256Hash=none := by
  rw [existingItem_eq_none_iff]
  intro itemId item hitem hhash
  obtain ⟨hrow,hother⟩ := (h.items itemId item).mp hitem
  have hid := w.archive.item_hash _ _ _ _ hrow (w.archive.file_item fileId file h.row) hhash
  obtain ⟨other,hne,hrefers⟩ := hother hid
  exact hne (hsole other (hid ▸ hrefers))

/-- In an archive that began without two files of one stored object, the maintenance takes out exactly
the files of the trash; a purge, and the deletion of an upload that its uploader is shown, free the
content for another upload whatever the object store answers, and without an error no object is left. -/
theorem unshared_archive (hunshared : Unshared w₀.archive.toArchiveTables)
    (h : (lifecycleMachine sha256 lower).Reaches Machine.Any w₀ w) :
    Unshared w.archive.toArchiveTables ∧
    (∀ fileId, (restoreSole w fileId).2=none ↔
      ∃ file, w.archive.files.get? fileId=some file ∧ file.deletedAt ≠ none) ∧
    (∀ faults fileId file, w.archive.files.get? fileId=some file → file.deletedAt ≠ none →
      ∃ w', purge w faults fileId=(w',none) ∧
        existingItem w'.archive file.storeItem.sha256Hash=none ∧
        (faults=.none → ∀ key, KeyOf file.storeItem.sha256Hash key → w'.bucket.get? key=none)) ∧
    (∀ faults user short, short ∈ getUnfiledUploads w.archive.toArchiveTables user.id →
      ∃ file w', w.archive.files.get? short.id=some file ∧
        deleteUnfiledUpload w faults user short.id=(w',none) ∧
        existingItem w'.archive file.storeItem.sha256Hash=none ∧
        (faults=.none → ∀ key, KeyOf file.storeItem.sha256Hash key → w'.bucket.get? key=none)) := by
  classical
  have hone := (reaches_noNewSharing h).unshared hunshared
  have hsole : ∀ {fileId file}, w.archive.files.get? fileId=some file →
      ∀ other, RefersTo w.archive.toArchiveTables file.storeItem.id other → other=fileId :=
    fun hfile other hother => hone _ _ _ hother ⟨_,hfile,rfl⟩
  refine ⟨hone,?_,?_,?_⟩
  · intro fileId
    rw [restoreSole_accepts_iff]
    constructor
    · rintro ⟨file,hfile,hdeleted,-⟩
      exact ⟨file,hfile,hdeleted⟩
    · rintro ⟨file,hfile,hdeleted⟩
      exact ⟨file,hfile,hdeleted,hsole hfile⟩
  · intro faults fileId file hfile hdeleted
    exact ⟨_,purge_of_deleted faults hfile hdeleted,(hardDeleteFile_spec faults hfile).frees (hsole hfile),
      fun hfaults => hardDeleteFile_gone hfile hfaults (hsole hfile)⟩
  · intro faults user short hshort
    obtain ⟨⟨fileId,file⟩,hmem,rfl⟩ := List.mem_map.mp hshort
    obtain ⟨hentry,hlisted⟩ := List.mem_filter.mp hmem
    have hfile : w.archive.files.get? fileId=some file := (Dict.get?_eq_some_iff _ _ _).mpr hentry
    simp only [Bool.and_eq_true,Option.isNone_iff_eq_none,decide_eq_true_eq] at hlisted
    refine ⟨file,_,hfile,?_,(hardDeleteFile_spec faults hfile).frees (hsole hfile),
      fun hfaults => hardDeleteFile_gone hfile hfaults (hsole hfile)⟩
    change deleteUnfiledUpload w faults user fileId=_
    simp [deleteUnfiledUpload,hfile,hlisted]

/-- Member 7 takes back the minutes, which may then be uploaded again. -/
theorem unshared_archive_minutes :
    ∃ w', deleteUnfiledUpload (afterOps uploads) .none member7 2=(w',none) ∧
      existingItem w'.archive (uploadDigest minutes.content)=none := by
  have hunshared : Unshared emptyArchive.toArchiveTables := by
    rintro itemId a b ⟨file,hfile,-⟩
    cases hfile
  have hids : 2 ∈ (getUnfiledUploads (afterOps uploads).archive.toArchiveTables member7.id).map
      (·.id) := by
    decide +kernel
  have hrow : ((afterOps uploads).archive.files.get? 2).map (·.storeItem.sha256Hash)=
      some (uploadDigest minutes.content) := by decide +kernel
  obtain ⟨short,hshort,hid⟩ := List.mem_map.mp hids
  obtain ⟨file,w',hfile,hdelete,hfree,-⟩ :=
    (unshared_archive hunshared (afterOps_reached uploads)).2.2.2 .none member7 short hshort
  rw [hid] at hfile hdelete
  obtain ⟨file',hfile',hhash⟩ := Option.map_eq_some_iff.mp hrow
  rw [Option.some.inj (hfile.symm.trans hfile'),hhash] at hfree
  exact ⟨w',hdelete,hfree⟩

end Unshared
end VbApi.Archive
