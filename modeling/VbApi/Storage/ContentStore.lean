import VbApi.Foundations.Interleaving

/-! Archive files and gallery images whose contents are kept in an object store under their hash.
An upload and a deletion each take several atomic steps: transactions of the database, and single
calls of the object store, which may fail. -/
namespace VbApi.Storage
open VbApi.Foundations

abbrev Uuid := ℕ
abbrev Sha256 := String

structure ArchiveStoreItem where
  id : Uuid
  sha256Hash : Sha256
  deriving DecidableEq, Repr

structure ArchiveFile where
  id : Uuid
  archiveStoreItemId : Uuid
  deriving DecidableEq, Repr

structure PublicGalleryImage where
  id : Uuid
  sha256Hash : Sha256
  deriving DecidableEq, Repr

/-- A key of the object store: a prefix and a content hash. -/
inductive S3Key
  | archiveStore (sha256 : Sha256)
  | publicGallery (sha256 : Sha256)
  deriving DecidableEq, Repr

/-- The committed rows and the stored objects. -/
structure Content where
  items : List ArchiveStoreItem
  files : List ArchiveFile
  images : List PublicGalleryImage
  objects : Finset S3Key
  /-- The next value of `uuidv7()`. -/
  nextUuid : Uuid
  deriving DecidableEq

/-- Where a request stands between two atomic steps. -/
inductive Place
  | idle
  /-- `upload_file`: no item has the content; next the put. -/
  | filePut (sha256 : Sha256)
  /-- `upload_file`: the object is put; next the rows. -/
  | fileInsert (sha256 : Sha256)
  /-- `hard_delete_file`: next the file row. -/
  | fileDelete (file : ArchiveFile)
  /-- `_delete_orphaned_store_items`: next the check for references. -/
  | itemCheck (itemId : Uuid)
  /-- `_delete_orphaned_store_items`: the item has no reference; next its row. -/
  | itemDelete (item : ArchiveStoreItem)
  /-- `_purge_s3_object`: next the object. -/
  | fileObjectDelete (sha256 : Sha256)
  /-- `upload_image`: no image has the content; next the existence check. -/
  | imageExists (sha256 : Sha256)
  | imagePut (sha256 : Sha256)
  /-- `upload_image`: the object is there; next the row. -/
  | imageInsert (sha256 : Sha256)
  /-- `delete_image`: next the row. -/
  | imageDelete (image : PublicGalleryImage)
  /-- `delete_image`: next the object. -/
  | imageObjectDelete (sha256 : Sha256)
  deriving DecidableEq, Repr

/-- A request begins, or goes on; `succeeds` tells whether a call of the object store does. -/
inductive Input
  | uploadFile (sha256 : Sha256)
  | hardDeleteFile (fileId : Uuid)
  | uploadImage (sha256 : Sha256)
  | deleteImage (imageId : Uuid)
  | next (succeeds : Bool)
  deriving DecidableEq, Repr

namespace Content

def hasItem (s : Content) (sha256 : Sha256) : Prop := ∃ item ∈ s.items, item.sha256Hash=sha256

def hasImage (s : Content) (sha256 : Sha256) : Prop := ∃ image ∈ s.images, image.sha256Hash=sha256

def referenced (s : Content) (itemId : Uuid) : Prop := ∃ f ∈ s.files, f.archiveStoreItemId=itemId

instance (s : Content) (sha256 : Sha256) : Decidable (s.hasItem sha256) :=
  inferInstanceAs (Decidable (∃ item ∈ s.items, _))

instance (s : Content) (sha256 : Sha256) : Decidable (s.hasImage sha256) :=
  inferInstanceAs (Decidable (∃ image ∈ s.images, _))

instance (s : Content) (itemId : Uuid) : Decidable (s.referenced itemId) :=
  inferInstanceAs (Decidable (∃ f ∈ s.files, _))

/-- The item and the file of an upload, in one transaction. -/
def insertFile (s : Content) (sha256 : Sha256) : Content :=
  { s with
    items := s.items ++ [⟨s.nextUuid,sha256⟩]
    files := s.files ++ [⟨s.nextUuid+1,s.nextUuid⟩]
    nextUuid := s.nextUuid+2 }

def insertImage (s : Content) (sha256 : Sha256) : Content :=
  { s with images := s.images ++ [⟨s.nextUuid,sha256⟩], nextUuid := s.nextUuid+1 }

def deleteFile (s : Content) (fileId : Uuid) : Content :=
  { s with files := s.files.filter fun f => f.id ≠ fileId }

def deleteItem (s : Content) (itemId : Uuid) : Content :=
  { s with items := s.items.filter fun item => item.id ≠ itemId }

def deleteImageRow (s : Content) (imageId : Uuid) : Content :=
  { s with images := s.images.filter fun image => image.id ≠ imageId }

def put (s : Content) (key : S3Key) : Content := { s with objects := insert key s.objects }

def deleteObject (s : Content) (key : S3Key) : Content := { s with objects := s.objects.erase key }

end Content

/-- The first query of a request. -/
def begin (s : Content) : Input → Option Place
  | .uploadFile sha256 => some (if s.hasItem sha256 then .idle else .filePut sha256)
  | .hardDeleteFile fileId =>
    some (match s.files.find? fun f => f.id=fileId with
      | some file => .fileDelete file
      | none => .idle)
  | .uploadImage sha256 => some (if s.hasImage sha256 then .idle else .imageExists sha256)
  | .deleteImage imageId =>
    some (match s.images.find? fun image => image.id=imageId with
      | some image => .imageDelete image
      | none => .idle)
  | .next _ => none

/-- The next atomic step of a request. A call that fails ends it, as does a refused insert; a row
that is gone already is deleted without an error. -/
def resume (s : Content) (succeeds : Bool) : Place → Content × Place
  | .idle => (s,.idle)
  | .filePut sha256 =>
    if succeeds then (s.put (.archiveStore sha256),.fileInsert sha256) else (s,.idle)
  | .fileInsert sha256 =>
    -- the hash of an item is unique
    if s.hasItem sha256 then (s,.idle) else (s.insertFile sha256,.idle)
  | .fileDelete file => (s.deleteFile file.id,.itemCheck file.archiveStoreItemId)
  | .itemCheck itemId =>
    if s.referenced itemId then (s,.idle)
    else
      match s.items.find? fun item => item.id=itemId with
      | some item => (s,.itemDelete item)
      | none => (s,.idle)
  | .itemDelete item =>
    -- the foreign key restricts the deletion of an item
    if s.referenced item.id then (s,.idle)
    else (s.deleteItem item.id,.fileObjectDelete item.sha256Hash)
  | .fileObjectDelete sha256 =>
    (if succeeds then s.deleteObject (.archiveStore sha256) else s,.idle)
  | .imageExists sha256 =>
    if succeeds then
      (s,if .publicGallery sha256 ∈ s.objects then .imageInsert sha256 else .imagePut sha256)
    else (s,.idle)
  | .imagePut sha256 =>
    if succeeds then (s.put (.publicGallery sha256),.imageInsert sha256) else (s,.idle)
  | .imageInsert sha256 =>
    -- the hash of an image is unique
    if s.hasImage sha256 then (s,.idle) else (s.insertImage sha256,.idle)
  | .imageDelete image => (s.deleteImageRow image.id,.imageObjectDelete image.sha256Hash)
  | .imageObjectDelete sha256 =>
    (if succeeds then s.deleteObject (.publicGallery sha256) else s,.idle)

/-- One client: an idle one begins a request, a busy one goes on with its own. -/
def storageProgram : Program Content Place Input := fun _ s place input =>
  match place,input with
  | .idle,input => (begin s input).map fun place => (s,place)
  | place,.next succeeds => some (resume s succeeds place)
  | _,_ => none

end VbApi.Storage
