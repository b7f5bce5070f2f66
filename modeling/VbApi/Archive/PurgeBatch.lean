import VbApi.Archive.PurgeImpact

/-! The batch of the duplicates, and what the candidates of an archive tell. -/
namespace VbApi.Archive
open VbApi.Foundations VbApi.Storage

/-! ### The batch -/

section Batch
variable {w : ArchiveSystem} {c : PurgeCandidate} (faults : StorageFaults)

/-- An active file has the item. -/
def ActiveRef (s : ArchiveTables) (itemId fileId : Uuid) : Prop :=
  ∃ file, s.files.get? fileId=some file ∧ file.storeItem.id=itemId ∧ file.deletedAt=none

lemma isStillDuplicate_true_iff {s : ArchiveTables} : isStillDuplicate s c=.ok true ↔
    ∃ fileId, ActiveRef s c.archiveStoreItemId fileId := by
  have hactive := @active_pos_iff s c.archiveStoreItemId
  have hget := get?_referenceCounts (s := s) (List.mem_singleton_self c.archiveStoreItemId)
  change _ ↔ ∃ fileId file, _
  rw [isStillDuplicate,← hactive,countsOf]
  by_cases hfiles : filesOf s c.archiveStoreItemId=[]
  · have hnone : (referenceCounts s [c.archiveStoreItemId]).get? c.archiveStoreItemId=none := by
      apply Option.eq_none_iff_forall_ne_some.mpr
      exact fun counts hcounts => ((hget counts).mp hcounts).1 hfiles
    rw [hnone,hfiles]
    simp [referenceCount]
  · rw [(hget _).mpr ⟨hfiles,rfl⟩]
    simp

/-- With an active file of the same item, a purge leaves all objects, and other files as they are. -/
lemma purgeOne_keeps (hitem : ∀ file, w.archive.files.get? c.fileId=some file →
      file.storeItem.id=c.archiveStoreItemId)
    {active : Uuid} (hactive : ActiveRef w.archive.toArchiveTables c.archiveStoreItemId active) :
    Keeps w (purgeOne faults w c true).1 ∧ ∀ id file,
      (purgeOne faults w c true).1.archive.files.get? id=some file →
        w.archive.files.get? id=some file := by
  obtain ⟨sibling,hsibling,hid,hlive⟩ := hactive
  have hsame : ∀ e, purgeFile faults w c.fileId=.error e → (purgeOne faults w c true).1=w := by
    intro e he
    rw [purgeOne,he]
  cases hfile : w.archive.files.get? c.fileId with
  | none =>
    rw [hsame (.notFound c.fileId) (by simp [purgeFile,getSoftDeletedFile,hfile])]
    exact ⟨⟨rfl,rfl⟩,fun _ _ h => h⟩
  | some file =>
    by_cases hdeleted : file.deletedAt=none
    · rw [hsame (.notDeleted c.fileId) (by simp [purgeFile,getSoftDeletedFile,hfile,hdeleted])]
      exact ⟨⟨rfl,rfl⟩,fun _ _ h => h⟩
    · have hne : active ≠ c.fileId := by
        rintro rfl
        rw [hfile,Option.some.injEq] at hsibling
        exact hdeleted (hsibling ▸ hlive)
      have hpurge := purgeFile_shared faults hfile hdeleted hne
        ⟨sibling,hsibling,hid.trans (hitem file hfile).symm⟩
      rw [purgeOne,hpurge]
      refine ⟨⟨rfl,rfl⟩,?_⟩
      intro id file' h
      exact ((Dict.get?_eraseAll_eq_some_iff _ _ _ _).mp h).2

/-- Whatever the candidates say of their files: as long as each names the item of its file, no
object is deleted. -/
theorem purgeDuplicatesLoop_keeps (cands : List PurgeCandidate) (r : BatchResult)
    (hitems : ∀ c ∈ cands, ∀ file, w.archive.files.get? c.fileId=some file →
      file.storeItem.id=c.archiveStoreItemId) :
    Keeps w (purgeDuplicatesLoop faults cands w r).1 := by
  induction cands generalizing w r with
  | nil => exact ⟨rfl,rfl⟩
  | cons c cands ih =>
    have hrest : ∀ c' ∈ cands, ∀ file, w.archive.files.get? c'.fileId=some file →
        file.storeItem.id=c'.archiveStoreItemId :=
      fun c' hc' => hitems c' (List.mem_cons_of_mem c hc')
    rw [purgeDuplicatesLoop]
    split
    · exact ⟨rfl,rfl⟩
    · exact ih _ hrest
    · rename_i hstill
      obtain ⟨active,hactive⟩ := isStillDuplicate_true_iff.mp hstill
      obtain ⟨hkeeps,hfiles⟩ := purgeOne_keeps faults (hitems c List.mem_cons_self) hactive
      exact hkeeps.trans (ih _ fun c' hc' file hfile => hrest c' hc' file (hfiles _ _ hfile))

/-- A candidate in the trash whose item an active file has. -/
structure Duplicate (s : ArchiveTables) (c : PurgeCandidate) : Prop where
  trashed : TrashedRef s c.archiveStoreItemId c.fileId
  active : ∃ fileId, ActiveRef s c.archiveStoreItemId fileId

lemma purgeOne_duplicate (h : Duplicate w.archive.toArchiveTables c) :
    purgeOne faults w c true=(⟨w.archive.deleteFile c.fileId,w.bucket⟩,false) := by
  obtain ⟨⟨file,hfile,hid,hdeleted⟩,active,sibling,hsibling,hsame,hlive⟩ := h
  have hne : active ≠ c.fileId := by
    rintro rfl
    rw [hfile,Option.some.injEq] at hsibling
    exact hdeleted (hsibling ▸ hlive)
  rw [purgeOne,purgeFile_shared faults hfile hdeleted hne ⟨sibling,hsibling,hsame.trans hid.symm⟩]
  rfl

/-- A duplicate stays one when another file in the trash is purged. -/
lemma Duplicate.deleteFile {itemId fileId : Uuid} (h : Duplicate w.archive.toArchiveTables c)
    (htrashed : TrashedRef w.archive.toArchiveTables itemId fileId) (hne : c.fileId ≠ fileId) :
    Duplicate (w.archive.deleteFile fileId).toArchiveTables c := by
  obtain ⟨⟨file,hfile,hid,hdeleted⟩,active,sibling,hsibling,hsame,hlive⟩ := h
  obtain ⟨other,hother,-,hgone⟩ := htrashed
  have hactive : active ≠ fileId := by
    rintro rfl
    rw [hother,Option.some.injEq] at hsibling
    exact hgone (hsibling ▸ hlive)
  refine ⟨⟨file,?_,hid,hdeleted⟩,active,sibling,?_,hsame,hlive⟩
  · rw [get?_deleteFile,if_neg hne]
    exact hfile
  · rw [get?_deleteFile,if_neg hactive]
    exact hsibling

/-- Without other writers every duplicate is purged, and none is skipped. -/
theorem purgeDuplicatesLoop_complete (cands : List PurgeCandidate) (r : BatchResult)
    (hnodup : (cands.map (·.fileId)).Nodup)
    (hcands : ∀ c ∈ cands, Duplicate w.archive.toArchiveTables c) :
    ∃ w', purgeDuplicatesLoop faults cands w r=
        (w',.ok { r with purged := r.purged+cands.length }) ∧
      FilesGone w (cands.map (·.fileId)) w' := by
  induction cands generalizing w r with
  | nil => exact ⟨w,rfl,fun id => by simp⟩
  | cons c cands ih =>
    obtain ⟨hfresh,hrest⟩ := List.nodup_cons.mp hnodup
    have hc := hcands c List.mem_cons_self
    have hothers : ∀ c' ∈ cands, Duplicate (w.archive.deleteFile c.fileId).toArchiveTables c' := by
      intro c' hc'
      apply (hcands c' (List.mem_cons_of_mem c hc')).deleteFile hc.trashed
      intro heq
      exact hfresh (List.mem_map.mpr ⟨c',hc',heq⟩)
    obtain ⟨w',hrun,hgone⟩ := ih (w := ⟨w.archive.deleteFile c.fileId,w.bucket⟩)
      { r with purged := r.purged+1 } hrest hothers
    refine ⟨w',?_,(filesGone_deleteFile w c.fileId).cons hgone⟩
    rw [purgeDuplicatesLoop,isStillDuplicate_true_iff.mpr hc.active,purgeOne_duplicate faults hc]
    change purgeDuplicatesLoop faults cands _ { r with purged := r.purged+1 }=_
    rw [hrun,List.length_cons,Nat.add_assoc,Nat.add_comm 1]

end Batch

/-! ### The report and the deletion agree -/

/-- The purge of a file does what its candidate tells. -/
structure PurgeTold (w : ArchiveSystem) (c : PurgeCandidate) (item : ArchiveStoreItem)
    (w' : ArchiveSystem) (result : PurgeResult) : Prop where
  purged : purgeFile .none w c.fileId=.ok (w',result)
  gone : FilesGone w [c.fileId] w'
  row : w.archive.storeItems.get? c.archiveStoreItemId=some item
  told : result.storeItemDeleted=true ↔ c.impact=.sole
  sole : c.impact=.sole → Removes w item w'
  notSole : c.impact ≠ .sole → Keeps w w'

/-- What a listing of the selected files tells is true. -/
structure ListingTold (w : ArchiveSystem) (p : ArchiveFile → Bool) (cands : List PurgeCandidate) :
    Prop where
  files : (cands.map (·.fileId)).Perm (w.archive.files.keysWhere fun _ f => p f && f.deletedAt.isSome)
  told : ∀ c ∈ cands, ∃ item w' result, PurgeTold w c item w' result
  duplicates : ∀ c ∈ cands, c.impact=.duplicate → Duplicate w.archive.toArchiveTables c

structure PurgeLaw (w : ArchiveSystem) : Prop where
  listed : ∀ orderBy fuel cands, Succeeds (listDeletedFiles orderBy fuel w.archive.toArchiveTables) cands →
    ListingTold w (fun _ => true) cands
  listedInDir : ∀ orderBy fuel dirId cands,
    Succeeds (listDeletedFilesInDir orderBy fuel w.archive.toArchiveTables dirId) cands →
    ListingTold w (fun f => f.archiveDirId=some dirId) cands
  answers : Acyclic w.archive.toArchiveTables → ∃ n, ∀ fuel, n ≤ fuel → ∀ orderBy,
    (∃ cands, Succeeds (listDeletedFiles orderBy fuel w.archive.toArchiveTables) cands) ∧
    ∀ dirId, ∃ cands, Succeeds (listDeletedFilesInDir orderBy fuel w.archive.toArchiveTables dirId) cands
  groups : ∀ item fileIds, w.archive.storeItems.get? item.id=some item → fileIds.Nodup →
    (∀ fileId ∈ fileIds, TrashedRef w.archive.toArchiveTables item.id fileId) →
    ∃ w', purgeAll .none w fileIds=.ok w' ∧ FilesGone w fileIds w' ∧
      ((∃ id, RefersTo w'.archive.toArchiveTables item.id id) → Keeps w w') ∧
      (fileIds ≠ [] → (∀ id, ¬ RefersTo w'.archive.toArchiveTables item.id id) → Removes w item w')
  batch : ∀ faults answer cands, (∀ c ∈ cands, ∀ file, w.archive.files.get? c.fileId=some file →
    file.storeItem.id=c.archiveStoreItemId) → Keeps w (purgeDuplicatesBatch faults answer w cands).1
  command : ∀ faults orderBy fuel answer dirId w' e,
    runPurgeDuplicates faults orderBy fuel answer w dirId=some (w',e) → Keeps w w'
  complete : ∀ faults orderBy fuel dirId cands,
    Succeeds (listDeletedFilesInDir orderBy fuel w.archive.toArchiveTables dirId) cands →
    ∃ w', runPurgeDuplicates faults orderBy fuel (some (text "yes")) w dirId=some (w',.exit 0) ∧
      FilesGone w ((cands.filter fun c => c.impact=.duplicate).map (·.fileId)) w'

section Law
variable {w : ArchiveSystem} {cands : List PurgeCandidate}

lemma purgeTold {f : Uuid × ArchiveFile} {c : PurgeCandidate}
    (h : CandidateOf w.archive.toArchiveTables f c) :
    ∃ w' result, PurgeTold w c f.2.storeItem w' result := by
  have hrow : w.archive.storeItems.get? c.archiveStoreItemId=some f.2.storeItem := by
    rw [h.item]
    exact w.archive.file_item f.1 f.2 h.row
  by_cases hsole : c.impact=.sole
  · obtain ⟨w',result,hpurge,hdeleted,-,hremoves,hfiles⟩ :=
      purgeFile_sole h.row h.deleted ((impact_sole_iff h).mp hsole)
    rw [← h.fileId] at hpurge hfiles
    refine ⟨w',result,hpurge,?_,hrow,iff_of_true hdeleted hsole,fun _ => hremoves,
      fun hne => absurd hsole hne⟩
    intro id
    rw [hfiles id]
    simp only [List.mem_singleton]
  · have hothers := mt (impact_sole_iff h).mpr hsole
    push Not at hothers
    obtain ⟨other,hother,hne⟩ := hothers
    have hpurge := purgeFile_shared .none h.row h.deleted hne hother
    rw [← h.fileId] at hpurge
    exact ⟨_,_,hpurge,filesGone_deleteFile w c.fileId,hrow,iff_of_false Bool.false_ne_true hsole,
      fun h => absurd h hsole,fun _ => ⟨rfl,rfl⟩⟩

lemma exists_candidateOf {s : ArchiveTables} {files : List (Uuid × ArchiveFile)}
    (h : List.Forall₂ (CandidateOf s) files cands) : ∀ c ∈ cands, ∃ f, CandidateOf s f c := by
  induction h with
  | nil => exact fun _ hc => absurd hc List.not_mem_nil
  | cons hc _ ih =>
    intro c hmem
    rcases List.mem_cons.mp hmem with rfl | hmem
    · exact ⟨_,hc⟩
    · exact ih c hmem

lemma fileIds_of_candidates {s : ArchiveTables} {files : List (Uuid × ArchiveFile)}
    (h : List.Forall₂ (CandidateOf s) files cands) : cands.map (·.fileId)=files.map Prod.fst := by
  induction h with
  | nil => rfl
  | cons hc _ ih => rw [List.map_cons,List.map_cons,ih,hc.fileId]

lemma duplicate_of_candidate {s : ArchiveTables} {f : Uuid × ArchiveFile} {c : PurgeCandidate}
    (h : CandidateOf s f c) (hduplicate : c.impact=.duplicate) : Duplicate s c := by
  obtain ⟨fileId,file,hfile,hitem,hlive⟩ := (impact_duplicate_iff h).mp hduplicate
  rw [← h.item] at hitem
  exact ⟨⟨f.2,h.fileId ▸ h.row,h.item.symm,h.deleted⟩,fileId,file,hfile,hitem,hlive⟩

lemma listingTold {orderBy : OrderBy deletedAtAsc} {fuel : ℕ} {p : ArchiveFile → Bool}
    (h : Succeeds (candidatesFor fuel w.archive.toArchiveTables (orderBy.pick
      (w.archive.files.entries.filter fun f => p f.2 && f.2.deletedAt.isSome))) cands) :
    ListingTold w p cands := by
  have hall := candidatesFor_spec trash_of_pick h
  refine ⟨?_,?_,?_⟩
  · rw [fileIds_of_candidates hall]
    exact (orderBy.pick_perm _).map _
  · intro c hc
    obtain ⟨f,hf⟩ := exists_candidateOf hall c hc
    exact ⟨f.2.storeItem,purgeTold hf⟩
  · intro c hc hduplicate
    obtain ⟨f,hf⟩ := exists_candidateOf hall c hc
    exact duplicate_of_candidate hf hduplicate

lemma purgeDuplicatesBatch_keeps (faults : StorageFaults) (answer : Option PyText)
    (hitems : ∀ c ∈ cands, ∀ file, w.archive.files.get? c.fileId=some file →
      file.storeItem.id=c.archiveStoreItemId) :
    Keeps w (purgeDuplicatesBatch faults answer w cands).1 := by
  unfold purgeDuplicatesBatch
  split
  · exact ⟨rfl,rfl⟩
  · exact ⟨rfl,rfl⟩
  · exact purgeDuplicatesLoop_keeps faults cands _ hitems

lemma Duplicate.item {s : ArchiveTables} {c : PurgeCandidate} (h : Duplicate s c) {file : ArchiveFile}
    (hfile : s.files.get? c.fileId=some file) : file.storeItem.id=c.archiveStoreItemId := by
  obtain ⟨file',hfile',hid,-⟩ := h.trashed
  rw [hfile,Option.some.injEq] at hfile'
  rw [hfile',hid]

section Command
variable {orderBy : OrderBy deletedAtAsc} {fuel : ℕ} {dirId : Uuid} (faults : StorageFaults)
  (answer : Option PyText)

/-- What the command does after the listing. -/
lemma runPurgeDuplicates_listed
    (h : Succeeds (listDeletedFilesInDir orderBy fuel w.archive.toArchiveTables dirId) cands) :
    ∃ e, runPurgeDuplicates faults orderBy fuel answer w dirId=some
      (if (cands.filter fun c => c.impact=.duplicate)=[] then (w,.exit 0)
      else ((purgeDuplicatesBatch faults answer w (cands.filter fun c => c.impact=.duplicate)).1,e)) ∧
      ∀ r, (purgeDuplicatesBatch faults answer w (cands.filter fun c => c.impact=.duplicate)).2=.ok r →
        e=.exit (if r.hadError then 1 else 0) := by
  have hempty : cands=[] ∨ (cands.filter fun c => c.impact=.duplicate)=[] ↔
      (cands.filter fun c => c.impact=.duplicate)=[] := by
    constructor
    · rintro (rfl | h)
      · rfl
      · exact h
    · exact .inr
  cases hbatch : purgeDuplicatesBatch faults answer w (cands.filter fun c => c.impact=.duplicate) with
  | mk w' outcome =>
    rw [Succeeds] at h
    cases outcome with
    | error e =>
      refine ⟨e,?_,fun r hr => by cases hr⟩
      simp only [runPurgeDuplicates,h,Option.bind_eq_bind,Option.bind_some,hempty,hbatch]
      split_ifs <;> rfl
    | ok r =>
      refine ⟨.exit (if r.hadError then 1 else 0),?_,fun r' hr => by cases hr; rfl⟩
      simp only [runPurgeDuplicates,h,Option.bind_eq_bind,Option.bind_some,hempty,hbatch]
      split_ifs <;> rfl

end Command
end Law

/-- The candidates of every archive tell what the purges do. -/
theorem purgeLaw (w : ArchiveSystem) : PurgeLaw w := by
  have hdir : ∀ orderBy fuel dirId cands,
      Succeeds (listDeletedFilesInDir orderBy fuel w.archive.toArchiveTables dirId) cands →
      ListingTold w (fun f => f.archiveDirId=some dirId) cands := fun _ _ _ _ h => listingTold h
  refine ⟨?_,hdir,?_,?_,?_,?_,?_⟩
  · intro orderBy fuel cands h
    rw [listDeletedFiles_eq] at h
    exact listingTold (p := fun _ => true) h
  · intro hforest
    obtain ⟨n,hn⟩ := exists_enoughFuel hforest
    refine ⟨n,fun fuel hfuel orderBy => ⟨?_,fun dirId => ?_⟩⟩
    · rw [listDeletedFiles_eq]
      exact candidatesFor_answers (trash_of_pick (p := fun _ => true))
        (describeLocation_answers (hn fuel hfuel))
    · exact candidatesFor_answers (trash_of_pick (p := fun f => f.archiveDirId=some dirId))
        (describeLocation_answers (hn fuel hfuel))
  · exact fun item fileIds hitem hnodup hmembers => purgeAll_group hnodup hmembers hitem
  · exact fun faults answer cands hitems => purgeDuplicatesBatch_keeps faults answer hitems
  · intro faults orderBy fuel answer dirId w' e h
    cases hlist : (listDeletedFilesInDir orderBy fuel w.archive.toArchiveTables dirId).run with
    | none => simp [runPurgeDuplicates,hlist] at h
    | some listed =>
      cases listed with
      | error e' =>
        simp only [runPurgeDuplicates,hlist,Option.bind_eq_bind,Option.bind_some] at h
        cases h
        exact ⟨rfl,rfl⟩
      | ok cands =>
        obtain ⟨e',hrun,-⟩ := runPurgeDuplicates_listed faults answer hlist
        rw [h,Option.some.injEq] at hrun
        split_ifs at hrun
        · cases hrun
          exact ⟨rfl,rfl⟩
        · cases hrun
          apply purgeDuplicatesBatch_keeps
          intro c hc file hfile
          obtain ⟨hmem,hduplicate⟩ := List.mem_filter.mp hc
          exact ((hdir _ _ _ _ hlist).duplicates c hmem (of_decide_eq_true hduplicate)).item hfile
  · intro faults orderBy fuel dirId cands h
    have htold := hdir _ _ _ _ h
    obtain ⟨e,hrun,hexit⟩ := runPurgeDuplicates_listed faults (some (text "yes")) h
    have hnodup : ((cands.filter fun c => c.impact=.duplicate).map (·.fileId)).Nodup := by
      have hall := htold.files.nodup_iff.mpr (Dict.nodup_keysWhere _ _)
      exact hall.sublist (List.filter_sublist.map _)
    obtain ⟨w',hloop,hgone⟩ := purgeDuplicatesLoop_complete faults _ ⟨0,0,false⟩ hnodup fun c hc =>
      htold.duplicates c (List.mem_filter.mp hc).1 (of_decide_eq_true (List.mem_filter.mp hc).2)
    have hyes : askYes (some (text "yes"))=.ok true := by
      have hanswer : (strip (text "yes")).map lowerAscii=text "yes" := by decide
      rw [askYes,decide_eq_true hanswer]
    have hbatch : purgeDuplicatesBatch faults (some (text "yes")) w
        (cands.filter fun c => c.impact=.duplicate)=
          (w',.ok ⟨0+(cands.filter fun c => c.impact=.duplicate).length,0,false⟩) := by
      rw [purgeDuplicatesBatch,hyes]
      exact hloop
    rw [hbatch] at hrun hexit
    have he := hexit _ rfl
    split_ifs at hrun with hnone
    · refine ⟨w,hrun,?_⟩
      rw [hnone]
      exact fun id => by simp
    · exact ⟨w',he ▸ hrun,hgone⟩

end VbApi.Archive
