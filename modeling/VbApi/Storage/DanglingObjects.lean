import VbApi.Storage.ContentStore

/-! Rows without an object. A deletion removes the object after its row is gone; an upload of the
same content in between may rely on the object that is about to be removed. -/
namespace VbApi.Storage
open VbApi.Foundations

/-- Every file, through its item, and every image has its object. -/
def NoDangling (s : Content) : Prop :=
  (∀ f ∈ s.files, ∃ item ∈ s.items, item.id=f.archiveStoreItemId ∧
    .archiveStore item.sha256Hash ∈ s.objects) ∧
  ∀ image ∈ s.images, .publicGallery image.sha256Hash ∈ s.objects

instance (s : Content) : Decidable (NoDangling s) :=
  inferInstanceAs (Decidable ((∀ f ∈ s.files, ∃ item ∈ s.items, _) ∧ ∀ image ∈ s.images, _))

/-- The primary keys of the items. -/
def ItemIdsFresh (s : Content) : Prop :=
  (s.items.map (·.id)).Nodup ∧ ∀ item ∈ s.items, item.id < s.nextUuid

/-- The object that a row to be inserted will refer to. -/
def Place.reliesOn : Place → Option S3Key
  | .fileInsert sha256 => some (.archiveStore sha256)
  | .imageInsert sha256 => some (.publicGallery sha256)
  | _ => none

/-- The object that the next step removes. -/
def Place.deletes : Place → Option S3Key
  | .fileObjectDelete sha256 => some (.archiveStore sha256)
  | .imageObjectDelete sha256 => some (.publicGallery sha256)
  | _ => none

/-- A committed row refers to the object. -/
def Content.refersTo (s : Content) : S3Key → Prop
  | .archiveStore sha256 => ∃ f ∈ s.files, ∃ item ∈ s.items,
      item.id=f.archiveStoreItemId ∧ item.sha256Hash=sha256
  | .publicGallery sha256 => s.hasImage sha256

/-- An object is removed only when no row refers to it and no upload is about to insert one. -/
def DeletesUnused (w : World Content Place) (a : ClientId × Input) : Prop :=
  a.2=.next true → ∀ key ∈ (w.clients a.1).deletes,
    ¬ w.shared.refersTo key ∧ ∀ c, (w.clients c).reliesOn ≠ some key

/-- What one atomic step can do. -/
inductive Effect (s : Content) (place : Place) (input : Input) : Content → Place → Prop
  | none {place' : Place} (relies : ∀ key ∈ place'.reliesOn, key ∈ s.objects) :
    Effect s place input s place'
  | put {place' : Place} {key : S3Key} (relies : place'.reliesOn=some key) :
    Effect s place input (s.put key) place'
  | insertFile {sha256 : Sha256} (relied : place.reliesOn=some (.archiveStore sha256)) :
    Effect s place input (s.insertFile sha256) .idle
  | insertImage {sha256 : Sha256} (relied : place.reliesOn=some (.publicGallery sha256)) :
    Effect s place input (s.insertImage sha256) .idle
  | deleteFile {place' : Place} (fileId : Uuid) (relies : place'.reliesOn=Option.none) :
    Effect s place input (s.deleteFile fileId) place'
  | deleteItem {place' : Place} {itemId : Uuid} (unreferenced : ¬ s.referenced itemId)
    (relies : place'.reliesOn=Option.none) : Effect s place input (s.deleteItem itemId) place'
  | deleteImageRow {place' : Place} (imageId : Uuid) (relies : place'.reliesOn=Option.none) :
    Effect s place input (s.deleteImageRow imageId) place'
  | deleteObject {key : S3Key} (hinput : input=.next true) (hdeletes : place.deletes=some key) :
    Effect s place input (s.deleteObject key) .idle

lemma Effect.quiet {s : Content} {place place' : Place} {input : Input}
    (h : place'.reliesOn=Option.none) : Effect s place input s place' :=
  .none fun key hkey => by simp [h] at hkey

lemma begin_effect {s : Content} {place place' : Place} {input : Input}
    (h : begin s input=some place') : Effect s place input s place' := by
  apply Effect.quiet
  cases input with
  | uploadFile sha256 =>
    cases h
    split_ifs <;> rfl
  | hardDeleteFile fileId =>
    cases h
    cases s.files.find? fun f => f.id=fileId <;> rfl
  | uploadImage sha256 =>
    cases h
    split_ifs <;> rfl
  | deleteImage imageId =>
    cases h
    cases s.images.find? fun image => image.id=imageId <;> rfl
  | next succeeds => contradiction

lemma resume_effect (s : Content) (succeeds : Bool) (place : Place) :
    Effect s place (.next succeeds) (resume s succeeds place).1 (resume s succeeds place).2 := by
  cases place with
  | idle => exact .quiet rfl
  | filePut sha256 =>
    cases succeeds with
    | true => exact .put rfl
    | false => exact .quiet rfl
  | fileInsert sha256 =>
    simp only [resume]
    split_ifs
    · exact .quiet rfl
    · exact .insertFile rfl
  | fileDelete file => exact .deleteFile file.id rfl
  | itemCheck itemId =>
    simp only [resume]
    split_ifs
    · exact .quiet rfl
    · cases s.items.find? fun item => item.id=itemId <;> exact .quiet rfl
  | itemDelete item =>
    simp only [resume]
    split_ifs with hreferenced
    · exact .quiet rfl
    · exact .deleteItem hreferenced rfl
  | fileObjectDelete sha256 =>
    cases succeeds with
    | true => exact .deleteObject rfl rfl
    | false => exact .quiet rfl
  | imageExists sha256 =>
    cases succeeds with
    | true =>
      simp only [resume,if_true]
      split_ifs with hobject
      · refine .none ?_
        intro key hkey
        cases hkey
        exact hobject
      · exact .quiet rfl
    | false => exact .quiet rfl
  | imagePut sha256 =>
    cases succeeds with
    | true => exact .put rfl
    | false => exact .quiet rfl
  | imageInsert sha256 =>
    simp only [resume]
    split_ifs
    · exact .quiet rfl
    · exact .insertImage rfl
  | imageDelete image => exact .deleteImageRow image.id rfl
  | imageObjectDelete sha256 =>
    cases succeeds with
    | true => exact .deleteObject rfl rfl
    | false => exact .quiet rfl

lemma storageProgram_effect {c : ClientId} {s s' : Content} {place place' : Place} {input : Input}
    (h : storageProgram c s place input=some (s',place')) : Effect s place input s' place' := by
  unfold storageProgram at h
  split at h
  · obtain ⟨place'',hbegin,heq⟩ := Option.map_eq_some_iff.mp h
    cases heq
    exact begin_effect hbegin
  · rename_i succeeds _
    have heq := Option.some.inj h
    have heffect := resume_effect s succeeds place
    rw [heq] at heffect
    exact heffect
  · contradiction

/-- What the committed rows keep. -/
structure ContentInvariant (s : Content) : Prop where
  noDangling : NoDangling s
  ids : ItemIdsFresh s

/-- What a client that is about to insert a row needs. -/
def ReliesOnPresent (s : Content) (place : Place) : Prop := ∀ key ∈ place.reliesOn, key ∈ s.objects

lemma ContentInvariant.insertFile {s : Content} (h : ContentInvariant s) {sha256 : Sha256}
    (hobject : .archiveStore sha256 ∈ s.objects) : ContentInvariant (s.insertFile sha256) := by
  refine ⟨⟨?_,h.noDangling.2⟩,?_,?_⟩
  · intro f hf
    rcases List.mem_append.mp hf with hf | hf
    · obtain ⟨item,hitem,hid,hkey⟩ := h.noDangling.1 f hf
      exact ⟨item,List.mem_append_left _ hitem,hid,hkey⟩
    · rw [List.mem_singleton.mp hf]
      exact ⟨_,List.mem_append_right _ (List.mem_singleton_self _),rfl,hobject⟩
  · rw [Content.insertFile,List.map_append]
    refine h.ids.1.append (List.nodup_singleton _) ?_
    intro id hold hnew
    obtain ⟨item,hitem,rfl⟩ := List.mem_map.mp hold
    exact absurd (List.mem_singleton.mp hnew) (h.ids.2 item hitem).ne
  · intro item hitem
    change item.id < s.nextUuid+2
    rcases List.mem_append.mp hitem with hitem | hitem
    · exact (h.ids.2 item hitem).trans (Nat.lt_add_of_pos_right (by decide))
    · rw [List.mem_singleton.mp hitem]
      exact Nat.lt_add_of_pos_right (by decide)

lemma ContentInvariant.insertImage {s : Content} (h : ContentInvariant s) {sha256 : Sha256}
    (hobject : .publicGallery sha256 ∈ s.objects) : ContentInvariant (s.insertImage sha256) := by
  refine ⟨⟨h.noDangling.1,?_⟩,h.ids.1,?_⟩
  · intro image himage
    rcases List.mem_append.mp himage with himage | himage
    · exact h.noDangling.2 image himage
    · rw [List.mem_singleton.mp himage]
      exact hobject
  · exact fun item hitem => (h.ids.2 item hitem).trans (Nat.lt_succ_self _)

lemma ContentInvariant.put {s : Content} (h : ContentInvariant s) (key : S3Key) :
    ContentInvariant (s.put key) := by
  refine ⟨⟨?_,?_⟩,h.ids⟩
  · intro f hf
    obtain ⟨item,hitem,hid,hobject⟩ := h.noDangling.1 f hf
    exact ⟨item,hitem,hid,Finset.mem_insert_of_mem hobject⟩
  · exact fun image himage => Finset.mem_insert_of_mem (h.noDangling.2 image himage)

lemma ContentInvariant.deleteItem {s : Content} (h : ContentInvariant s) {itemId : Uuid}
    (hunreferenced : ¬ s.referenced itemId) : ContentInvariant (s.deleteItem itemId) := by
  refine ⟨⟨?_,h.noDangling.2⟩,?_,?_⟩
  · intro f hf
    obtain ⟨item,hitem,hid,hobject⟩ := h.noDangling.1 f hf
    refine ⟨item,List.mem_filter.mpr ⟨hitem,?_⟩,hid,hobject⟩
    simp only [ne_eq,decide_eq_true_eq]
    intro heq
    exact hunreferenced ⟨f,hf,by rw [← hid,heq]⟩
  · exact h.ids.1.sublist (List.filter_sublist.map _)
  · exact fun item hitem => h.ids.2 item (List.mem_of_mem_filter hitem)

lemma ContentInvariant.deleteObject {s : Content} (h : ContentInvariant s) {key : S3Key}
    (hunused : ¬ s.refersTo key) : ContentInvariant (s.deleteObject key) := by
  refine ⟨⟨?_,?_⟩,h.ids⟩
  · intro f hf
    obtain ⟨item,hitem,hid,hobject⟩ := h.noDangling.1 f hf
    refine ⟨item,hitem,hid,Finset.mem_erase.mpr ⟨?_,hobject⟩⟩
    rintro rfl
    exact hunused ⟨f,hf,item,hitem,hid,rfl⟩
  · intro image himage
    refine Finset.mem_erase.mpr ⟨?_,h.noDangling.2 image himage⟩
    rintro rfl
    exact hunused ⟨image,himage,rfl⟩

/-- The step of one client keeps the rows in order, and its own object in place. -/
lemma Effect.own {s s' : Content} {place place' : Place} {input : Input}
    (h : Effect s place input s' place') (hs : ContentInvariant s)
    (hplace : ReliesOnPresent s place)
    (hunused : input=.next true → ∀ key ∈ place.deletes, ¬ s.refersTo key) :
    ContentInvariant s' ∧ ReliesOnPresent s' place' := by
  have hquiet : ∀ {s : Content} {place : Place}, place.reliesOn=Option.none →
      ReliesOnPresent s place := by
    intro s place hnone key hkey
    simp [hnone] at hkey
  cases h with
  | none relies => exact ⟨hs,relies⟩
  | @put place' key relies =>
    refine ⟨hs.put key,?_⟩
    intro key' hkey'
    rw [relies] at hkey'
    cases hkey'
    exact Finset.mem_insert_self _ _
  | insertFile relied => exact ⟨hs.insertFile (hplace _ relied),hquiet rfl⟩
  | insertImage relied => exact ⟨hs.insertImage (hplace _ relied),hquiet rfl⟩
  | deleteFile fileId relies =>
    refine ⟨⟨⟨?_,hs.noDangling.2⟩,hs.ids⟩,hquiet relies⟩
    exact fun f hf => hs.noDangling.1 f (List.mem_of_mem_filter hf)
  | deleteItem unreferenced relies => exact ⟨hs.deleteItem unreferenced,hquiet relies⟩
  | deleteImageRow imageId relies =>
    refine ⟨⟨⟨hs.noDangling.1,?_⟩,hs.ids⟩,hquiet relies⟩
    exact fun image himage => hs.noDangling.2 image (List.mem_of_mem_filter himage)
  | deleteObject hinput hdeletes =>
    exact ⟨hs.deleteObject (hunused hinput _ hdeletes),hquiet rfl⟩

/-- The step of one client leaves the objects that another relies on. -/
lemma Effect.other {s s' : Content} {place place' other : Place} {input : Input}
    (h : Effect s place input s' place') (hother : ReliesOnPresent s other)
    (hunused : input=.next true → ∀ key ∈ place.deletes, other.reliesOn ≠ some key) :
    ReliesOnPresent s' other := by
  cases h with
  | none relies => exact hother
  | put relies => exact fun key hkey => Finset.mem_insert_of_mem (hother key hkey)
  | insertFile relied => exact hother
  | insertImage relied => exact hother
  | deleteFile fileId relies => exact hother
  | deleteItem unreferenced relies => exact hother
  | deleteImageRow imageId relies => exact hother
  | deleteObject hinput hdeletes =>
    intro key hkey
    refine Finset.mem_erase.mpr ⟨?_,hother key hkey⟩
    rintro rfl
    exact hunused hinput _ hdeletes hkey

/-- In every run whose deletions remove unused objects only, each row has its object. -/
theorem noDangling_of_deletesUnused {w₀ w : World Content Place}
    (hidle : ∀ c, w₀.clients c=.idle) (hids : ItemIdsFresh w₀.shared) (h₀ : NoDangling w₀.shared)
    (hrun : storageProgram.interleave.Reaches DeletesUnused w₀ w) : NoDangling w.shared := by
  have hstart : Program.Holds ContentInvariant (fun _ => ReliesOnPresent) w₀ := by
    refine ⟨⟨h₀,hids⟩,?_⟩
    intro c key hkey
    rw [hidle c] at hkey
    contradiction
  have hinv := Program.Holds.of_reaches hrun hstart ?_ ?_
  · exact hinv.shared.noDangling
  · intro w c input s place hw hok hstep
    refine (storageProgram_effect hstep).own hw.shared (hw.clients c) ?_
    exact fun hinput key hkey => (hok hinput key hkey).1
  · intro w c input s place c' hw hok hstep _
    refine (storageProgram_effect hstep).other (hw.clients c') ?_
    exact fun hinput key hkey => (hok hinput key hkey).2 c'

/-- One image of the gallery, and nobody at work. -/
def galleryWorld : World Content Place where
  shared := ⟨[],[],[⟨1,"a"⟩],{.publicGallery "a"},2⟩
  clients := fun _ => .idle

lemma galleryWorld_start : NoDangling galleryWorld.shared ∧ ItemIdsFresh galleryWorld.shared := by
  refine ⟨by decide,List.nodup_nil,?_⟩
  intro item hitem
  contradiction

/-- The image is deleted while another client uploads a file. -/
def uploadSchedule : List (ClientId × Input) :=
  [(1,.uploadFile "b"),(0,.deleteImage 1),(0,.next true),(1,.next true),(0,.next true),
    (1,.next true)]

lemma uploadSchedule_meets :
    storageProgram.interleave.Meets DeletesUnused galleryWorld uploadSchedule := by
  refine ⟨?_,fun w₁ h₁ => ?_⟩
  · intro _ key hkey
    contradiction
  cases h₁
  refine ⟨?_,fun w₂ h₂ => ?_⟩
  · intro _ key hkey
    contradiction
  cases h₂
  refine ⟨?_,fun w₃ h₃ => ?_⟩
  · intro _ key hkey
    contradiction
  cases h₃
  refine ⟨?_,fun w₄ h₄ => ?_⟩
  · intro _ key hkey
    contradiction
  cases h₄
  refine ⟨?_,fun w₅ h₅ => ?_⟩
  · intro _ key hkey
    cases hkey
    refine ⟨by rintro ⟨image,himage,-⟩; contradiction,?_⟩
    rintro (_ | _ | c) h <;> contradiction
  cases h₅
  refine ⟨?_,fun w₆ h₆ => trivial⟩
  intro _ key hkey
  contradiction

theorem noDangling_uploadSchedule : ∃ w,
    storageProgram.interleave.run galleryWorld uploadSchedule=some w ∧
      w.shared.files=[⟨3,2⟩] ∧ NoDangling w.shared := by
  refine ⟨_,rfl,rfl,?_⟩
  exact noDangling_of_deletesUnused (fun _ => rfl) galleryWorld_start.2 galleryWorld_start.1
    (Machine.reaches_of_run uploadSchedule_meets rfl)

/-- One file of the archive, and nobody at work. -/
def archiveWorld : World Content Place where
  shared := ⟨[⟨1,"a"⟩],[⟨2,1⟩],[],{.archiveStore "a"},3⟩
  clients := fun _ => .idle

/-- The image is deleted; before its object goes, the same picture is uploaded again. -/
def imageSchedule : List (ClientId × Input) :=
  [(0,.deleteImage 1),(0,.next true),(1,.uploadImage "a"),(1,.next true),(0,.next true),
    (1,.next true)]

/-- The file and its item are deleted; before their object goes, the same file is uploaded again. -/
def fileSchedule : List (ClientId × Input) :=
  [(0,.hardDeleteFile 2),(0,.next true),(0,.next true),(0,.next true),(1,.uploadFile "a"),
    (1,.next true),(0,.next true),(1,.next true)]

/-- Either way the new row has no object. -/
theorem row_without_object :
    (∃ w, storageProgram.interleave.run galleryWorld imageSchedule=some w ∧
      (∀ c, galleryWorld.clients c=.idle) ∧ NoDangling galleryWorld.shared ∧
      ¬ NoDangling w.shared) ∧
    ∃ w, storageProgram.interleave.run archiveWorld fileSchedule=some w ∧
      (∀ c, archiveWorld.clients c=.idle) ∧ NoDangling archiveWorld.shared ∧
      ¬ NoDangling w.shared := by
  refine ⟨⟨_,rfl,fun _ => rfl,by decide,?_⟩,⟨_,rfl,fun _ => rfl,by decide,?_⟩⟩ <;> decide

end VbApi.Storage
