import VbApi.Foundations.PyText
import VbApi.Foundations.Results

/-! The images of members and contacts with their default flag: uploads, updates and deletions one after
the other, and the default image that an owner shows. -/
namespace VbApi.Standesdb
open VbApi.Foundations

/-- Exactly one of the two owner columns is set. -/
inductive ImageOwner
  | member (id : ℕ)
  | contact (id : ℕ)
  deriving DecidableEq

structure StandesdbImage where
  id : ℕ
  owner : ImageOwner
  extension : PyText
  type : PyText
  size : ℕ
  width : ℕ
  height : ℕ
  sha256Hash : PyText
  description : Option PyText
  isDefault : Bool
  createdBy : Option ℕ
  createdAt : ℕ
  deletedAt : Option ℕ
  deriving DecidableEq

def StandesdbImage.active (img : StandesdbImage) : Bool := img.deletedAt.isNone

/-- The rows of the table, and the next id that the database makes. -/
structure ImageTable where
  rows : List StandesdbImage
  nextId : ℕ

inductive ImageError
  | unprocessable (detail : PyText)
  | notFound (detail : PyText)
  | storage
  | integrityError
  deriving DecidableEq

/-! ### The unique indexes -/

/-- Two rows of one owner that are active defaults. -/
def SameDefault (a b : StandesdbImage) : Prop :=
  (a.isDefault ∧ a.active) ∧ (b.isDefault ∧ b.active) ∧ a.owner=b.owner

/-- Two active rows of one owner with one file. -/
def SameFile (a b : StandesdbImage) : Prop :=
  a.active ∧ b.active ∧ a.owner=b.owner ∧ a.sha256Hash=b.sha256Hash

instance : DecidableRel SameDefault := fun _ _ => inferInstanceAs (Decidable (_ ∧ _))
instance : DecidableRel SameFile := fun _ _ => inferInstanceAs (Decidable (_ ∧ _))

/-- What the partial unique indexes and the primary key demand. -/
def Unique (rows : List StandesdbImage) : Prop :=
  rows.Pairwise fun a b => a.id ≠ b.id ∧ ¬ SameDefault a b ∧ ¬ SameFile a b

instance (rows : List StandesdbImage) : Decidable (Unique rows) :=
  inferInstanceAs (Decidable (rows.Pairwise _))

/-- A statement that changes the rows; the database refuses a breach of an index. -/
def executeRows (rows : List StandesdbImage) : Except ImageError (List StandesdbImage) :=
  if Unique rows then .ok rows else .error .integrityError

/-! ### The operations -/

def allowedTypes : List PyText := [text "image/jpeg",text "image/png"]
def maxFileSize : ℕ := 5*1024*1024

/-- An uploaded file: what is read of its content, what its client says of it, and what
`inspect_upload_image` finds in it. -/
structure ImageUpload where
  size : ℕ
  contentType : Option PyText
  inspected : Option (PyText × ℕ × ℕ)
  sha256 : PyText
  storageWorks : Bool

section Operations
variable (table : ImageTable) (owner : ImageOwner)

def activeImages : List StandesdbImage := table.rows.filter fun img => img.owner=owner ∧ img.active

def refuseDuplicate (sha256 : PyText) : Except ImageError PUnit :=
  guardError (¬ ∃ img ∈ activeImages table owner, img.sha256Hash=sha256)
    (.unprocessable (text "Dieses Bild ist bereits vorhanden."))

/-- Insert the row; a breach of an index is answered like a duplicate if there is one. -/
def commitNewImage (img : StandesdbImage) : Except ImageError ImageTable :=
  match executeRows (table.rows ++ [img]) with
  | .ok rows => .ok ⟨rows,table.nextId+1⟩
  | .error e => do
    refuseDuplicate table owner img.sha256Hash
    throw e

/-- The extension for a content type: what follows the last slash, and `jpg` for `jpeg`. -/
def imageExtension (contentType : PyText) : PyText :=
  let ext := (contentType.splitOnP (· = codePoint '/')).getLastD []
  if ext=text "jpeg" then text "jpg" else ext

/-- The row of an uploaded file; it is the default if its owner has no other active image. -/
def newImage (file : ImageUpload) (found : PyText × ℕ × ℕ) (description : Option PyText)
    (createdBy : Option ℕ) (now : ℕ) : StandesdbImage where
  id := table.nextId
  owner := owner
  extension := imageExtension found.1
  type := found.1
  size := file.size
  width := found.2.1
  height := found.2.2
  sha256Hash := file.sha256
  description := description
  isDefault := (activeImages table owner).length=0
  createdBy := createdBy
  createdAt := now
  deletedAt := none

def uploadImage (file : ImageUpload) (description : Option PyText) (createdBy : Option ℕ) (now : ℕ) :
    Except ImageError ImageTable := do
  guardError (file.size ≤ maxFileSize) (.unprocessable (text "Datei zu groß (max. 5 MB)."))
  guardError (file.contentType.getD [] ∈ allowedTypes)
    (.unprocessable (text "Nur JPEG- und PNG-Dateien erlaubt."))
  match file.inspected with
  | none => throw (.unprocessable (text "Datei ist kein gültiges Bild."))
  | some found =>
    refuseDuplicate table owner file.sha256
    guardError (file.storageWorks=true) .storage
    commitNewImage table owner (newImage table owner file found description createdBy now)

def getImageRecord (imageId : ℕ) : Except ImageError StandesdbImage :=
  match table.rows.find? fun img => img.id=imageId ∧ img.owner=owner ∧ img.active with
  | some img => .ok img
  | none => .error (.notFound (text "Bild nicht gefunden."))

/-- `UPDATE ... WHERE id = ...`. -/
def updateRow (imageId : ℕ) (f : StandesdbImage → StandesdbImage) (rows : List StandesdbImage) :
    List StandesdbImage :=
  rows.map fun row => if row.id=imageId then f row else row

/-- `UPDATE ... SET is_default = false` for the active images of an owner. -/
def clearDefaults (rows : List StandesdbImage) : List StandesdbImage :=
  rows.map fun row => if row.owner=owner ∧ row.active then { row with isDefault := false } else row

def updateImage (img : StandesdbImage) (description : Option PyText) (setDefault : Bool) :
    Except ImageError ImageTable := do
  let rows ← executeRows (updateRow img.id (fun row => { row with description := description }) table.rows)
  if setDefault then
    let rows ← executeRows (clearDefaults img.owner rows)
    let rows ← executeRows (updateRow img.id (fun row => { row with isDefault := true }) rows)
    return ⟨rows,table.nextId⟩
  else return ⟨rows,table.nextId⟩

def deleteImage (img : StandesdbImage) (now : ℕ) : Except ImageError ImageTable := do
  let rows ← executeRows (updateRow img.id (fun row => { row with deletedAt := some now }) table.rows)
  return ⟨rows,table.nextId⟩

end Operations

/-- A request for the images of an owner. -/
inductive ImageOp
  | upload (owner : ImageOwner) (file : ImageUpload) (description : Option PyText)
    (createdBy : Option ℕ) (now : ℕ)
  | update (owner : ImageOwner) (imageId : ℕ) (description : Option PyText) (setDefault : Bool)
  | delete (owner : ImageOwner) (imageId : ℕ) (now : ℕ)

def ImageOp.run (table : ImageTable) : ImageOp → Except ImageError ImageTable
  | .upload owner file description createdBy now =>
    uploadImage table owner file description createdBy now
  | .update owner imageId description setDefault => do
    let img ← getImageRecord table owner imageId
    updateImage table img description setDefault
  | .delete owner imageId now => do
    let img ← getImageRecord table owner imageId
    deleteImage table img now

/-- The requests one after the other; a refused one changes nothing. -/
def runOps : ImageTable → List ImageOp → ImageTable
  | table,[] => table
  | table,op::ops =>
    match op.run table with
    | .ok table' => runOps table' ops
    | .error _ => runOps table ops

/-! ### The default image -/

/-- `default_image` of a member or a contact with these images. -/
def defaultImage (images : List StandesdbImage) : Option ℕ :=
  match images.find? fun img => img.isDefault && img.active with
  | some img => some img.id
  | none => (images.find? fun img => img.active).map (·.id)

def ownedImages (table : ImageTable) (owner : ImageOwner) : List StandesdbImage :=
  table.rows.filter fun img => img.owner=owner

/-- What holds after any requests that start from a table. -/
structure DefaultImageLaw (start : ImageTable) : Prop where
  one_default : ∀ ops owner, (((ownedImages (runOps start ops) owner).filter
    fun img => img.isDefault && img.active).length ≤ 1)
  never_stopped : ∀ ops (op : ImageOp), op.run (runOps start ops) ≠ .error .integrityError
  flagged : ∀ ops owner images, images.Perm (ownedImages (runOps start ops) owner) →
    ∀ img ∈ images, img.isDefault=true → img.active=true → defaultImage images=some img.id
  shown : ∀ ops owner images, images.Perm (ownedImages (runOps start ops) owner) →
    (∃ img ∈ images, img.active=true) →
      ∃ img ∈ images, img.active=true ∧ defaultImage images=some img.id

/-! ### What a statement keeps -/

section Rows
variable {rows : List StandesdbImage} {table : ImageTable} {owner : ImageOwner}

/-- The indexes hold, and no row has an id that is still to come. -/
structure ImageTable.Sound (table : ImageTable) : Prop where
  unique : Unique table.rows
  fresh : ∀ i ∈ table.rows.map (·.id), i < table.nextId

lemma executeRows_unique (h : Unique rows) : executeRows rows=.ok rows := if_pos h

/-- A change of the rows keeps the indexes if it keeps them for every two rows. -/
lemma unique_map {f : StandesdbImage → StandesdbImage} (h : Unique rows)
    (hkeep : ∀ a ∈ rows, ∀ b ∈ rows, a.id ≠ b.id → ¬ SameDefault a b → ¬ SameFile a b →
      (f a).id ≠ (f b).id ∧ ¬ SameDefault (f a) (f b) ∧ ¬ SameFile (f a) (f b)) :
    Unique (rows.map f) := by
  rw [Unique,List.pairwise_map]
  exact h.imp_of_mem fun ha hb hab => hkeep _ ha _ hb hab.1 hab.2.1 hab.2.2

/-- No active image of the owner is flagged. -/
def NoDefault (rows : List StandesdbImage) (owner : ImageOwner) : Prop :=
  ∀ row ∈ rows, row.owner=owner → row.active=true → row.isDefault=false

lemma unique_describe (h : Unique rows) (imageId : ℕ) (description : Option PyText) :
    Unique (updateRow imageId (fun row => { row with description := description }) rows) := by
  apply unique_map h
  intro a _ b _ hid hdefault hfile
  split_ifs <;> exact ⟨hid,hdefault,hfile⟩

lemma unique_clearDefaults (h : Unique rows) : Unique (clearDefaults owner rows) := by
  apply unique_map h
  intro a _ b _ hid hdefault hfile
  split_ifs
  · exact ⟨hid,fun hsame => absurd hsame.1.1 Bool.false_ne_true,hfile⟩
  · exact ⟨hid,fun hsame => absurd hsame.1.1 Bool.false_ne_true,hfile⟩
  · exact ⟨hid,fun hsame => absurd hsame.2.1.1 Bool.false_ne_true,hfile⟩
  · exact ⟨hid,hdefault,hfile⟩

lemma noDefault_clearDefaults : NoDefault (clearDefaults owner rows) owner := by
  intro row hrow howner hactive
  obtain ⟨r,hr,rfl⟩ := List.mem_map.mp hrow
  split_ifs at howner hactive ⊢ with hmatch
  · rfl
  · exact absurd ⟨howner,hactive⟩ hmatch

/-- One image may be flagged where none of its owner is. -/
lemma unique_flag (h : Unique rows) (hnone : NoDefault rows owner) {imageId : ℕ}
    (howner : ∀ row ∈ rows, row.id=imageId → row.owner=owner) :
    Unique (updateRow imageId (fun row => { row with isDefault := true }) rows) := by
  apply unique_map h
  intro a ha b hb hid hdefault hfile
  split_ifs with haid hbid hbid
  · exact absurd (haid.trans hbid.symm) hid
  · refine ⟨hid,?_,hfile⟩
    intro hsame
    obtain ⟨-,hflag,heq⟩ := hsame
    have hfalse := hnone b hb (heq.symm.trans (howner a ha haid)) hflag.2
    rw [hfalse] at hflag
    exact absurd hflag.1 Bool.false_ne_true
  · refine ⟨hid,?_,hfile⟩
    intro hsame
    obtain ⟨hflag,-,heq⟩ := hsame
    have hfalse := hnone a ha (heq.trans (howner b hb hbid)) hflag.2
    rw [hfalse] at hflag
    exact absurd hflag.1 Bool.false_ne_true
  · exact ⟨hid,hdefault,hfile⟩

lemma unique_delete (h : Unique rows) (imageId now : ℕ) :
    Unique (updateRow imageId (fun row => { row with deletedAt := some now }) rows) := by
  have hgone : ∀ row : StandesdbImage, ({ row with deletedAt := some now }).active ≠ true :=
    fun _ => Bool.false_ne_true
  apply unique_map h
  intro a _ b _ hid hdefault hfile
  split_ifs
  · exact ⟨hid,fun hsame => hgone a hsame.1.2,fun hsame => hgone a hsame.1⟩
  · exact ⟨hid,fun hsame => hgone a hsame.1.2,fun hsame => hgone a hsame.1⟩
  · exact ⟨hid,fun hsame => hgone b hsame.2.1.2,fun hsame => hgone b hsame.2.1⟩
  · exact ⟨hid,hdefault,hfile⟩

/-- What no statement changes of a row. -/
def StandesdbImage.key (img : StandesdbImage) : ℕ × ImageOwner := (img.id,img.owner)

lemma map_key_updateRow (imageId : ℕ) {f : StandesdbImage → StandesdbImage}
    (hf : ∀ row, (f row).key=row.key) :
    (updateRow imageId f rows).map StandesdbImage.key=rows.map StandesdbImage.key := by
  rw [updateRow,List.map_map]
  apply List.map_congr_left
  intro row _
  rw [Function.comp_apply]
  split_ifs
  · exact hf row
  · rfl

lemma map_key_clearDefaults :
    (clearDefaults owner rows).map StandesdbImage.key=rows.map StandesdbImage.key := by
  rw [clearDefaults,List.map_map]
  apply List.map_congr_left
  intro row _
  rw [Function.comp_apply]
  split_ifs <;> rfl

lemma ImageTable.Sound.of_key (h : table.Sound) (hunique : Unique rows)
    (hkey : rows.map StandesdbImage.key=table.rows.map StandesdbImage.key) :
    (⟨rows,table.nextId⟩ : ImageTable).Sound := by
  refine ⟨hunique,?_⟩
  have hids := congrArg (List.map Prod.fst) hkey
  rw [List.map_map,List.map_map] at hids
  intro i hi
  exact h.fresh i (hids ▸ hi)

/-- A new image fits in if its file is new for its owner and it is flagged only as the first one. -/
lemma ImageTable.Sound.append (h : table.Sound) {img : StandesdbImage} (hid : img.id=table.nextId)
    (hdefault : img.isDefault=true → activeImages table img.owner=[])
    (hfile : ¬ ∃ row ∈ activeImages table img.owner, row.sha256Hash=img.sha256Hash) :
    (⟨table.rows ++ [img],table.nextId+1⟩ : ImageTable).Sound := by
  refine ⟨?_,?_⟩
  · refine List.pairwise_append.mpr ⟨h.unique,List.pairwise_singleton _ _,?_⟩
    intro a ha b hb
    rw [List.mem_singleton.mp hb]
    have hlt := h.fresh a.id (List.mem_map_of_mem ha)
    refine ⟨by omega,?_,?_⟩
    · intro hsame
      obtain ⟨hactive,hflag,howner⟩ := hsame
      have hmem : a ∈ activeImages table img.owner :=
        List.mem_filter.mpr ⟨ha,decide_eq_true ⟨howner,hactive.2⟩⟩
      rw [hdefault hflag.1] at hmem
      cases hmem
    · intro hsame
      obtain ⟨hactive,-,howner,hhash⟩ := hsame
      exact hfile ⟨a,List.mem_filter.mpr ⟨ha,decide_eq_true ⟨howner,hactive⟩⟩,hhash⟩
  · intro i hi
    rw [List.map_append,List.mem_append] at hi
    rcases hi with hi | hi
    · exact (h.fresh i hi).trans (Nat.lt_succ_self _)
    · rw [List.map_singleton,List.mem_singleton] at hi
      change i < table.nextId+1
      omega

end Rows

/-! ### What a request keeps -/

section Requests
variable {table table' : ImageTable} {owner : ImageOwner}

/-- The request was not stopped by an index, and a table that it leaves is sound. -/
def Fine (r : Except ImageError ImageTable) : Prop :=
  r ≠ .error .integrityError ∧ ∀ table, r=.ok table → table.Sound

lemma fine_error {e : ImageError} (he : e ≠ .integrityError) : Fine (.error e) := by
  constructor
  · intro h
    exact he (Except.error.inj h)
  · intro t ht
    cases ht

lemma fine_ok (h : table.Sound) : Fine (.ok table) := by
  constructor
  · intro hstop
    cases hstop
  · intro t ht
    cases ht
    exact h

lemma fine_guard {p : Prop} [Decidable p] {e : ImageError} {x : Except ImageError ImageTable}
    (he : e ≠ .integrityError) (hx : p → Fine x) : Fine (guardError p e >>= fun _ => x) := by
  rw [guardError]
  split_ifs with hp
  · exact hx hp
  · exact fine_error he

lemma uploadImage_fine (h : table.Sound) (file : ImageUpload) (description : Option PyText)
    (createdBy : Option ℕ) (now : ℕ) :
    Fine (uploadImage table owner file description createdBy now) := by
  rw [uploadImage]
  refine fine_guard (by simp) fun _ => fine_guard (by simp) fun _ => ?_
  cases file.inspected with
  | none => exact fine_error (by simp)
  | some found =>
    refine fine_guard (by simp) fun hfile => fine_guard (by simp) fun _ => ?_
    have hfirst : (newImage table owner file found description createdBy now).isDefault=true →
        activeImages table owner=[] := fun hflag => List.length_eq_zero_iff.mp (of_decide_eq_true hflag)
    have hsound : (⟨table.rows ++ [newImage table owner file found description createdBy now],
        table.nextId+1⟩ : ImageTable).Sound := h.append rfl hfirst hfile
    rw [commitNewImage,executeRows_unique hsound.unique]
    exact fine_ok hsound

lemma getImageRecord_error {imageId : ℕ} {e : ImageError}
    (h : getImageRecord table owner imageId=.error e) : e ≠ .integrityError := by
  rw [getImageRecord] at h
  split at h
  · cases h
  · cases h
    simp

lemma getImageRecord_ok {imageId : ℕ} {img : StandesdbImage}
    (h : getImageRecord table owner imageId=.ok img) : img ∈ table.rows := by
  rw [getImageRecord] at h
  split at h
  · next found hfind =>
    cases h
    exact List.mem_of_find?_eq_some hfind
  · cases h

/-- The row with the id of a row is this row. -/
lemma Unique.eq_of_id {rows : List StandesdbImage} (h : Unique rows) {a b : StandesdbImage}
    (ha : a ∈ rows) (hb : b ∈ rows) (hid : a.id=b.id) : a=b := by
  have hids : (rows.map (·.id)).Nodup := List.pairwise_map.mpr (h.imp fun hab => hab.1)
  exact List.inj_on_of_nodup_map hids ha hb hid

lemma updateImage_fine (h : table.Sound) {img : StandesdbImage} (himg : img ∈ table.rows)
    (description : Option PyText) (setDefault : Bool) :
    Fine (updateImage table img description setDefault) := by
  have hdescribed := unique_describe h.unique img.id description
  have hkey : (updateRow img.id (fun row => { row with description := description }) table.rows).map
      StandesdbImage.key=table.rows.map StandesdbImage.key := map_key_updateRow img.id fun _ => rfl
  rw [updateImage,executeRows_unique hdescribed,ok_bind]
  generalize updateRow img.id _ table.rows=described at hdescribed hkey ⊢
  cases setDefault with
  | false => exact fine_ok (h.of_key hdescribed hkey)
  | true =>
    have hcleared : Unique (clearDefaults img.owner described) := unique_clearDefaults hdescribed
    have hcleanKey : (clearDefaults img.owner described).map StandesdbImage.key=
        table.rows.map StandesdbImage.key := map_key_clearDefaults.trans hkey
    have howner : ∀ row ∈ clearDefaults img.owner described, row.id=img.id → row.owner=img.owner := by
      intro row hrow hid
      have hmem : row.key ∈ table.rows.map StandesdbImage.key := hcleanKey ▸ List.mem_map_of_mem hrow
      obtain ⟨r,hr,heq⟩ := List.mem_map.mp hmem
      obtain ⟨hrid,hrowner⟩ := Prod.mk.inj heq
      rw [← hrowner,h.unique.eq_of_id hr himg (hrid.trans hid)]
    have hflagged := unique_flag hcleared noDefault_clearDefaults howner
    have hflagKey : (updateRow img.id (fun row => { row with isDefault := true })
        (clearDefaults img.owner described)).map StandesdbImage.key=
          (clearDefaults img.owner described).map StandesdbImage.key :=
      map_key_updateRow img.id fun _ => rfl
    rw [if_pos rfl,executeRows_unique hcleared,ok_bind,executeRows_unique hflagged,ok_bind]
    exact fine_ok (h.of_key hflagged (hflagKey.trans hcleanKey))

lemma deleteImage_fine (h : table.Sound) (img : StandesdbImage) (now : ℕ) :
    Fine (deleteImage table img now) := by
  have hdeleted := unique_delete h.unique img.id now
  rw [deleteImage,executeRows_unique hdeleted,ok_bind]
  exact fine_ok (h.of_key hdeleted (map_key_updateRow img.id fun _ => rfl))

theorem ImageOp.run_fine (h : table.Sound) (op : ImageOp) : Fine (op.run table) := by
  cases op with
  | upload owner file description createdBy now => exact uploadImage_fine h file description createdBy now
  | update owner imageId description setDefault =>
    rw [ImageOp.run]
    cases himg : getImageRecord table owner imageId with
    | error e => exact fine_error (getImageRecord_error himg)
    | ok img => exact updateImage_fine h (getImageRecord_ok himg) description setDefault
  | delete owner imageId now =>
    rw [ImageOp.run]
    cases himg : getImageRecord table owner imageId with
    | error e => exact fine_error (getImageRecord_error himg)
    | ok img => exact deleteImage_fine h img now

theorem runOps_sound (h : table.Sound) (ops : List ImageOp) : (runOps table ops).Sound := by
  induction ops generalizing table with
  | nil => exact h
  | cons op ops ih =>
    have hfine := op.run_fine h
    rw [runOps]
    cases hrun : op.run table with
    | error e => exact ih h
    | ok table' => exact ih (hfine.2 table' hrun)

end Requests

/-! ### The default image of a sound table -/

section Shown
variable {table : ImageTable} {owner : ImageOwner} {images : List StandesdbImage}

/-- Two active defaults of one owner are one image. -/
lemma Unique.default_eq {rows : List StandesdbImage} (h : Unique rows) {a b : StandesdbImage}
    (ha : a ∈ rows) (hb : b ∈ rows) (hsame : SameDefault a b) : a=b := by
  by_contra hne
  have hsymm : Std.Symm fun a b : StandesdbImage => ¬ SameDefault a b :=
    ⟨fun x y hxy hyx => hxy ⟨hyx.2.1,hyx.1,hyx.2.2.symm⟩⟩
  have hpairs : rows.Pairwise fun a b => ¬ SameDefault a b := h.imp fun hab => hab.2.1
  exact hpairs.forall ha hb hne hsame

lemma mem_ownedImages {img : StandesdbImage} :
    img ∈ ownedImages table owner ↔ img ∈ table.rows ∧ img.owner=owner := by
  simp [ownedImages]

lemma ImageTable.Sound.one_default (h : table.Sound) (owner : ImageOwner) :
    ((ownedImages table owner).filter fun img => img.isDefault && img.active).length ≤ 1 := by
  have hunique : ((ownedImages table owner).filter fun img => img.isDefault && img.active).Pairwise
      fun a b => a.id ≠ b.id ∧ ¬ SameDefault a b ∧ ¬ SameFile a b :=
    (h.unique.filter _).filter _
  have hall : ∀ img ∈ (ownedImages table owner).filter fun img => img.isDefault && img.active,
      (img.isDefault ∧ img.active) ∧ img.owner=owner := by
    intro img himg
    obtain ⟨hmem,hflag⟩ := List.mem_filter.mp himg
    exact ⟨by simpa using hflag,(mem_ownedImages.mp hmem).2⟩
  generalize ((ownedImages table owner).filter fun img => img.isDefault && img.active)=flagged at *
  match flagged with
  | [] => exact Nat.zero_le 1
  | [_] => exact le_rfl
  | a::b::rest =>
    have ha := hall a List.mem_cons_self
    have hb := hall b (List.mem_cons_of_mem a List.mem_cons_self)
    have hab := (List.pairwise_cons.mp hunique).1 b List.mem_cons_self
    exact absurd ⟨ha.1,hb.1,ha.2.trans hb.2.symm⟩ hab.2.1

/-- The flagged image is shown, whatever the order in which the images are read. -/
lemma ImageTable.Sound.flagged (h : table.Sound) (himages : images.Perm (ownedImages table owner))
    {img : StandesdbImage} (himg : img ∈ images) (hflag : img.isDefault=true) (hactive : img.active=true) :
    defaultImage images=some img.id := by
  rw [defaultImage]
  cases hfind : images.find? fun img => img.isDefault && img.active with
  | none =>
    have hnot := List.find?_eq_none.mp hfind img himg
    rw [hflag,hactive] at hnot
    exact absurd rfl hnot
  | some found =>
    have hfound := List.find?_some hfind
    rw [Bool.and_eq_true] at hfound
    obtain ⟨hmem,howner⟩ := mem_ownedImages.mp (himages.mem_iff.mp (List.mem_of_find?_eq_some hfind))
    obtain ⟨hmem',howner'⟩ := mem_ownedImages.mp (himages.mem_iff.mp himg)
    have heq := h.unique.default_eq hmem hmem' ⟨hfound,⟨hflag,hactive⟩,howner.trans howner'.symm⟩
    exact congrArg (fun i => some i.id) heq

/-- An owner with active images shows one of them. -/
lemma ImageTable.Sound.shown (h : table.Sound) (himages : images.Perm (ownedImages table owner))
    (hsome : ∃ img ∈ images, img.active=true) :
    ∃ img ∈ images, img.active=true ∧ defaultImage images=some img.id := by
  by_cases hflagged : ∃ img ∈ images, img.isDefault=true ∧ img.active=true
  · obtain ⟨img,himg,hflag,hactive⟩ := hflagged
    exact ⟨img,himg,hactive,h.flagged himages himg hflag hactive⟩
  · have hnone : (images.find? fun img => img.isDefault && img.active)=none := by
      rw [List.find?_eq_none]
      intro img himg hmatch
      rw [Bool.and_eq_true] at hmatch
      exact hflagged ⟨img,himg,hmatch⟩
    obtain ⟨img,himg,hactive⟩ := hsome
    have hfirst : (images.find? fun img => img.active).isSome := List.find?_isSome.mpr ⟨img,himg,hactive⟩
    obtain ⟨found,hfind⟩ := Option.isSome_iff_exists.mp hfirst
    have hfound := List.find?_some hfind
    refine ⟨found,List.mem_of_find?_eq_some hfind,hfound,?_⟩
    rw [defaultImage,hnone,hfind]
    rfl

end Shown

theorem defaultImage_law {start : ImageTable} (h : start.Sound) : DefaultImageLaw start where
  one_default ops owner := (runOps_sound h ops).one_default owner
  never_stopped ops op := (op.run_fine (runOps_sound h ops)).1
  flagged ops _ _ himages _ himg hflag hactive :=
    (runOps_sound h ops).flagged himages himg hflag hactive
  shown ops _ _ himages hsome := (runOps_sound h ops).shown himages hsome

theorem defaultImage_empty : DefaultImageLaw ⟨[],1⟩ :=
  defaultImage_law ⟨List.Pairwise.nil,List.forall_mem_nil _⟩

end VbApi.Standesdb
