import VbApi.Members.Inputs
import VbApi.PublicSite.ListRequests
import VbApi.Standesdb.DefaultImages

/-! The gallery images and the quotes of the public site: creating, editing, moving and deleting them, one
request after the other. -/
namespace VbApi.PublicSite
open VbApi.Foundations
open VbApi.Members (stripWhitespace)
open VbApi.Standesdb (ImageUpload allowedTypes imageExtension)

inductive SiteError
  | unprocessable (detail : PyText)
  | notFound (detail : PyText)
  /-- `ValidationError` of a request body -/
  | validation
  /-- a storage call that fails -/
  | storage
  /-- a statement that the database refuses -/
  | database
  deriving DecidableEq

/-! ### The statements for a table -/

section Statements
variable {β : Type} (accepts : SiteRow β → Bool) (table : SiteTable β)

/-- A table takes the rows that its columns and its constraints accept; `sort_order` is an `INTEGER`. -/
def insertRow (content : β) : Except SiteError (SiteTable β) := do
  guardError (table.nextSortOrder ≤ 2147483647 ∧ accepts (table.newRow content)=true) .database
  return table.insert content

def updateRow (row : SiteRow β) (content : β) : Except SiteError (SiteTable β) := do
  guardError (accepts { row with content := content }=true) .database
  return table.setContent row.id content

def getOr404 (detail : PyText) (id : ℕ) : Except SiteError (SiteRow β) :=
  match table.rows.find? fun row => row.id=id with
  | some row => .ok row
  | none => .error (.notFound detail)

end Statements

/-- A request that is refused leaves the table as it was. -/
def committed {β : Type} (table : SiteTable β) : Except SiteError (SiteTable β) → SiteTable β
  | .ok table' => table'
  | .error _ => table

/-- A text column takes every character but NUL. -/
def storableText (s : PyText) : Bool := s.all fun c => c.val ≠ 0

/-! ### Gallery images -/

structure GalleryImage where
  sha256Hash : PyText
  extension : PyText
  contentType : PyText
  size : ℕ
  width : ℕ
  height : ℕ
  caption : Option PyText
  isPublished : Bool
  createdBy : Option ℕ
  deriving DecidableEq

/-- The columns and the CHECK constraints of `public_gallery_images`. -/
def acceptsImage (row : SiteRow GalleryImage) : Bool :=
  row.content.size ≤ 2147483647 && 0 < row.content.width && row.content.width ≤ 2147483647 &&
  0 < row.content.height && row.content.height ≤ 2147483647 && 0 ≤ row.sortOrder &&
  row.content.contentType ∈ allowedTypes && row.content.extension ∈ [text "jpg",text "png"] &&
  row.content.caption.all storableText

namespace Gallery
variable (table : SiteTable GalleryImage)

def maxFileSize : ℕ := 8*1024*1024

def listPublicImages : List (SiteRow GalleryImage) :=
  (listed table.rows).filter fun img => img.content.isPublished

def listAdminImages : List (SiteRow GalleryImage) := listed table.rows

def getImageOr404 (imageId : ℕ) : Except SiteError (SiteRow GalleryImage) :=
  getOr404 table (text "Bild nicht gefunden.") imageId

def uploadImage (file : ImageUpload) (caption : Option PyText) (createdBy : Option ℕ) :
    Except SiteError (SiteTable GalleryImage) := do
  guardError (file.size ≤ maxFileSize) (.unprocessable (text "Datei zu groß (max. 8 MB)."))
  guardError (file.contentType.getD [] ∈ allowedTypes)
    (.unprocessable (text "Nur JPEG- und PNG-Dateien erlaubt."))
  match file.inspected with
  | none => throw (.unprocessable (text "Datei ist kein gültiges Bild."))
  | some found =>
    guardError (¬ ∃ img ∈ table.rows, img.content.sha256Hash=file.sha256)
      (.unprocessable (text "Dieses Bild ist bereits in der Galerie vorhanden."))
    guardError (file.storageWorks=true) .storage
    insertRow acceptsImage table {
      sha256Hash := file.sha256
      extension := imageExtension found.1
      contentType := found.1
      size := file.size
      width := found.2.1
      height := found.2.2
      caption := caption
      isPublished := true
      createdBy := createdBy }

def updateImage (img : SiteRow GalleryImage) (caption : Option PyText) (isPublished : Bool) :
    Except SiteError (SiteTable GalleryImage) :=
  updateRow acceptsImage table img { img.content with caption := caption, isPublished := isPublished }

def moveImage (img : SiteRow GalleryImage) (direction : MoveDirection) : SiteTable GalleryImage :=
  table.move img direction

/-- The row goes first; it is gone whatever becomes of the object in the storage. -/
def deleteImage (img : SiteRow GalleryImage) : SiteTable GalleryImage := table.delete img.id

/-- `caption_max_length`. -/
def captionMaxLength (caption : Option PyText) : Except SiteError PUnit :=
  guardError ((caption.getD []).length ≤ 150) .validation

end Gallery

inductive GalleryOp
  | upload (file : ImageUpload) (caption : Option PyText) (createdBy : Option ℕ)
  | update (imageId : ℕ) (caption : Option PyText) (isPublished : Bool)
  | move (imageId : ℕ) (direction : MoveDirection)
  | delete (imageId : ℕ)

def GalleryOp.run (table : SiteTable GalleryImage) : GalleryOp → Except SiteError (SiteTable GalleryImage)
  | .upload file caption createdBy => Gallery.uploadImage table file caption createdBy
  | .update imageId caption isPublished => do
    Gallery.captionMaxLength caption
    let img ← Gallery.getImageOr404 table imageId
    Gallery.updateImage table img caption isPublished
  | .move imageId direction => do
    let img ← Gallery.getImageOr404 table imageId
    return Gallery.moveImage table img direction
  | .delete imageId => do
    let img ← Gallery.getImageOr404 table imageId
    return Gallery.deleteImage table img

def GalleryOp.step (table : SiteTable GalleryImage) (op : GalleryOp) : SiteTable GalleryImage :=
  committed table (op.run table)

def GalleryOp.request : GalleryOp → RowRequest
  | .upload _ _ _ => .create
  | .update imageId _ _ => .update imageId
  | .move imageId direction => .move imageId direction
  | .delete imageId => .delete imageId

/-! ### Quotes -/

structure Quote where
  quote : PyText
  author : PyText
  deriving DecidableEq

/-- The CHECK constraints of `public_site_quotes`; `isSpace` is the class of blanks of the database. -/
def acceptsQuote (isSpace : CodePoint → Bool) (row : SiteRow Quote) : Bool :=
  (row.content.quote.any fun c => !isSpace c) && row.content.quote.length ≤ 500 &&
  (row.content.author.any fun c => !isSpace c) && row.content.author.length ≤ 100 &&
  storableText row.content.quote && storableText row.content.author

namespace Quotes
variable (isSpace : CodePoint → Bool) (table : SiteTable Quote)

def listQuotes : List (SiteRow Quote) := listed table.rows

def getQuoteOr404 (quoteId : ℕ) : Except SiteError (SiteRow Quote) :=
  getOr404 table (text "Zitat nicht gefunden.") quoteId

/-- `QuoteRequest`: texts without the blanks around them, not empty and not too long. -/
def quoteRequest (quote author : PyText) : Except SiteError Quote := do
  let quote := stripWhitespace quote
  let author := stripWhitespace author
  guardError (1 ≤ quote.length ∧ quote.length ≤ 500) .validation
  guardError (1 ≤ author.length ∧ author.length ≤ 100) .validation
  return ⟨quote,author⟩

def createQuote (quote author : PyText) : Except SiteError (SiteTable Quote) :=
  insertRow (acceptsQuote isSpace) table ⟨quote,author⟩

def updateQuote (row : SiteRow Quote) (quote author : PyText) : Except SiteError (SiteTable Quote) :=
  updateRow (acceptsQuote isSpace) table row ⟨quote,author⟩

def moveQuote (row : SiteRow Quote) (direction : MoveDirection) : SiteTable Quote := table.move row direction

def deleteQuote (row : SiteRow Quote) : SiteTable Quote := table.delete row.id

end Quotes

inductive QuoteOp
  | create (quote author : PyText)
  | update (quoteId : ℕ) (quote author : PyText)
  | move (quoteId : ℕ) (direction : MoveDirection)
  | delete (quoteId : ℕ)

def QuoteOp.run (isSpace : CodePoint → Bool) (table : SiteTable Quote) :
    QuoteOp → Except SiteError (SiteTable Quote)
  | .create quote author => do
    let body ← Quotes.quoteRequest quote author
    Quotes.createQuote isSpace table body.quote body.author
  | .update quoteId quote author => do
    let body ← Quotes.quoteRequest quote author
    let row ← Quotes.getQuoteOr404 table quoteId
    Quotes.updateQuote isSpace table row body.quote body.author
  | .move quoteId direction => do
    let row ← Quotes.getQuoteOr404 table quoteId
    return Quotes.moveQuote table row direction
  | .delete quoteId => do
    let row ← Quotes.getQuoteOr404 table quoteId
    return Quotes.deleteQuote table row

def QuoteOp.step (isSpace : CodePoint → Bool) (table : SiteTable Quote) (op : QuoteOp) : SiteTable Quote :=
  committed table (op.run isSpace table)

def QuoteOp.request : QuoteOp → RowRequest
  | .create _ _ => .create
  | .update quoteId _ _ => .update quoteId
  | .move quoteId direction => .move quoteId direction
  | .delete quoteId => .delete quoteId

/-! ### What a request changes -/

section Requests
variable {β : Type} {accepts : SiteRow β → Bool} {table table' : SiteTable β} {row : SiteRow β}

lemma getOr404_cases (table : SiteTable β) (detail : PyText) (id : ℕ) :
    (∃ row ∈ table.rows, row.id=id ∧ getOr404 table detail id=.ok row) ∨
      (∀ row ∈ table.rows, row.id ≠ id) ∧ getOr404 table detail id=.error (.notFound detail) := by
  rw [getOr404]
  cases hfind : table.rows.find? fun row => row.id=id with
  | none =>
    refine .inr ⟨?_,rfl⟩
    intro row hrow hid
    exact List.find?_eq_none.mp hfind row hrow (decide_eq_true hid)
  | some row =>
    have hid := List.find?_some hfind
    exact .inl ⟨row,List.mem_of_find?_eq_some hfind,of_decide_eq_true hid,rfl⟩

/-- A part of a request that may be refused. -/
lemma change_bind {α : Type} {request : RowRequest} {x : Except SiteError α}
    {f : α → Except SiteError (SiteTable β)} (hsame : Change table request table)
    (hf : ∀ a, Change table request (committed table (f a))) :
    Change table request (committed table (x >>= f)) := by
  cases x with
  | error e => exact hsame
  | ok a => exact hf a

/-- The row of a request is looked up first. -/
lemma change_lookup {request : RowRequest} {detail : PyText} {id : ℕ}
    {f : SiteRow β → Except SiteError (SiteTable β)}
    (hmissing : (∀ row ∈ table.rows, row.id ≠ id) → Change table request table)
    (hfound : ∀ row ∈ table.rows, row.id=id → Change table request (committed table (f row))) :
    Change table request (committed table (getOr404 table detail id >>= f)) := by
  rcases getOr404_cases table detail id with ⟨row,hrow,hid,hok⟩ | ⟨hnone,herror⟩
  · rw [hok]
    exact hfound row hrow hid
  · rw [herror]
    exact hmissing hnone

lemma insertRow_change (content : β) :
    Change table .create (committed table (insertRow accepts table content)) := by
  apply change_bind .notCreated
  intro _
  exact .created content

lemma update_change {detail : PyText} {id : ℕ} (content : SiteRow β → β) :
    Change table (.update id)
      (committed table (getOr404 table detail id >>= fun row => updateRow accepts table row (content row))) := by
  apply change_lookup
  · intro _
    exact .notUpdated id
  · intro row _ hid
    subst hid
    apply change_bind (.notUpdated row.id)
    intro _
    exact .updated row.id (content row)

lemma move_change {detail : PyText} {id : ℕ} (direction : MoveDirection) :
    Change table (.move id direction)
      (committed table (getOr404 table detail id >>= fun row => pure (table.move row direction))) := by
  apply change_lookup
  · intro hmissing
    exact .notMoved hmissing direction
  · intro row hrow hid
    subst hid
    exact .moved hrow direction

lemma delete_change {detail : PyText} {id : ℕ} :
    Change table (.delete id)
      (committed table (getOr404 table detail id >>= fun row => pure (table.delete row.id))) := by
  apply change_lookup
  · exact .notDeleted
  · intro row _ hid
    subst hid
    exact .deleted row.id

end Requests

lemma uploadImage_change (table : SiteTable GalleryImage) (file : ImageUpload) (caption : Option PyText)
    (createdBy : Option ℕ) :
    Change table .create (committed table (Gallery.uploadImage table file caption createdBy)) := by
  refine change_bind .notCreated fun _ => change_bind .notCreated fun _ => ?_
  cases file.inspected with
  | none => exact .notCreated
  | some found =>
    refine change_bind .notCreated fun _ => change_bind .notCreated fun _ => ?_
    exact insertRow_change _

theorem GalleryOp.step_change (table : SiteTable GalleryImage) (op : GalleryOp) :
    Change table op.request (op.step table) := by
  cases op with
  | upload file caption createdBy => exact uploadImage_change table file caption createdBy
  | update imageId caption isPublished =>
    apply change_bind (.notUpdated imageId)
    intro _
    exact update_change fun img : SiteRow GalleryImage =>
      { img.content with caption := caption, isPublished := isPublished }
  | move imageId direction => exact move_change direction
  | delete imageId => exact delete_change

theorem QuoteOp.step_change (isSpace : CodePoint → Bool) (table : SiteTable Quote) (op : QuoteOp) :
    Change table op.request (op.step isSpace table) := by
  cases op with
  | create quote author =>
    apply change_bind .notCreated
    intro body
    exact insertRow_change (⟨body.quote,body.author⟩ : Quote)
  | update quoteId quote author =>
    apply change_bind (.notUpdated quoteId)
    intro body
    exact update_change fun _ : SiteRow Quote => ⟨body.quote,body.author⟩
  | move quoteId direction => exact move_change direction
  | delete quoteId => exact delete_change

/-- Gallery images and quotes keep their order through all requests. -/
theorem reorder_law (isSpace : CodePoint → Bool) {images : SiteTable GalleryImage} {quotes : SiteTable Quote}
    (himages : images.Sound) (hquotes : quotes.Sound) :
    ReorderLaw GalleryOp.step GalleryOp.request images ∧
      ReorderLaw (QuoteOp.step isSpace) QuoteOp.request quotes :=
  ⟨reorderLaw_of_change GalleryOp.step_change himages,
    reorderLaw_of_change (QuoteOp.step_change isSpace) hquotes⟩

/-- The quotes that the first migration puts into the table. -/
def seededQuotes : SiteTable Quote where
  rows := [
    ⟨0,1,⟨text "Als ich das erste Mal bei einer Verbindung war, war ich sofort begeistert und fühlte mich in der Gemeinschaft aufgehoben.",
      text "Ein Fuchs"⟩⟩,
    ⟨1,2,⟨text "Durch die Verbindung hab ich herausgefunden, was mich interessiert.",text "Ein Junger Aktiver"⟩⟩]
  nextId := 2

lemma seededQuotes_sound : seededQuotes.Sound := by
  refine ⟨⟨?_,?_⟩,?_⟩ <;> simp [seededQuotes]

theorem reorder_law_seeded :
    ReorderLaw GalleryOp.step GalleryOp.request ⟨[],0⟩ ∧
      ReorderLaw (QuoteOp.step Members.isWhiteSpace) QuoteOp.request seededQuotes :=
  reorder_law Members.isWhiteSpace ⟨⟨List.nodup_nil,List.nodup_nil⟩,by simp⟩ seededQuotes_sound

end VbApi.PublicSite
