import VbApi.Archive.LifecycleRuns
import VbApi.Storage.Mirroring

/-! The weekly check of the archive against the object store: in whatever order requests came, no file
misses its object, and the orphans are what failed deletions and refused uploads have left. -/
namespace VbApi.Archive
open VbApi.Foundations VbApi.Storage

/-! ### The check and its job -/

structure IntegrityReport where
  missing : List ObjectKey
  orphans : List ObjectKey

def IntegrityReport.isHealthy (r : IntegrityReport) : Bool := r.missing.isEmpty

/-- `_check_integrity`, with the hashes of the rows. -/
def checkIntegrity (bucket : Bucket) (start : PyText) (hashes : List PyText) : IntegrityReport :=
  let s3Keys := bucket.keysUnder (start ++ text "/")
  let referenced := (hashes.map fun h => start ++ text "/" ++ h).dedup
  ⟨sortBy id (referenced.filter (· ∉ s3Keys)),sortBy id (s3Keys.filter (· ∉ referenced))⟩

def checkArchiveIntegrity (w : ArchiveSystem) : IntegrityReport :=
  checkIntegrity w.bucket s3PathArchiveStore (w.archive.storeItems.values.map (·.sha256Hash))

def healthCheckSubject (feature : PyText) (isHealthy : Bool) : PyText :=
  text (if isHealthy then "OK" else "FEHLER") ++ text ": VB:" ++ feature ++ text ":Konsistenzprüfung"

/-- What the template of the mail shows. -/
structure HealthMail where
  toEmails : List PyText
  subject : PyText
  missing : List ObjectKey
  orphans : List ObjectKey
  unsortedCount : ℕ

/-- What the job records of its run. -/
structure JobRun where
  exitCode : ℕ
  output : PyText

/-- The calls of the job that raise, with the text of the exception. -/
structure JobFaults where
  listKeys : Option PyText
  send : Option PyText

def countText (n : ℕ) : PyText := (Nat.toDigits 10 n).map codePoint

def jobArchiveHealthCheck (faults : JobFaults) (toEmails : List PyText) (w : ArchiveSystem) :
    Option HealthMail × JobRun :=
  if toEmails=[] then (none,⟨1,text "No archiveAdmin recipients found."⟩)
  else
    match faults.listKeys with
    | some exc => (none,⟨1,exc⟩)
    | none =>
      let report := checkArchiveIntegrity w
      let unsortedCount := getUnsortedUploadCount w.archive.toArchiveTables
      match faults.send with
      | some exc => (none,⟨1,exc⟩)
      | none =>
        (some ⟨toEmails,healthCheckSubject (text "Archiv") report.isHealthy,report.missing,
          report.orphans,unsortedCount⟩,
          ⟨if report.isHealthy then 0 else 1,
            countText report.missing.length ++ text " missing, " ++
              countText report.orphans.length ++ text " orphans, " ++
              countText unsortedCount ++ text " unsorted."⟩)

/-! ### Orphans -/

/-- An object of the store that no row names. -/
structure Orphan (w : ArchiveSystem) (key : ObjectKey) : Prop where
  start : s3PathArchiveStore ++ text "/" <+: key
  stored : ∃ object, w.bucket.get? key=some object
  unnamed : ∀ itemId item, w.archive.storeItems.get? itemId=some item → storeKey item.sha256Hash ≠ key

section Report
variable {w : ArchiveSystem} {key : ObjectKey}

lemma mem_referenced : key ∈ ((w.archive.storeItems.values.map (·.sha256Hash)).map fun h =>
      s3PathArchiveStore ++ text "/" ++ h).dedup ↔
    ∃ itemId item, w.archive.storeItems.get? itemId=some item ∧ storeKey item.sha256Hash=key := by
  simp only [List.mem_dedup,List.map_map,List.mem_map,Dict.mem_values_iff]
  constructor
  · rintro ⟨item,⟨itemId,hitem⟩,hkey⟩
    exact ⟨itemId,item,hitem,hkey⟩
  · rintro ⟨itemId,item,hitem,hkey⟩
    exact ⟨item,⟨itemId,hitem⟩,hkey⟩

lemma mem_orphans : key ∈ (checkArchiveIntegrity w).orphans ↔ Orphan w key := by
  simp only [checkArchiveIntegrity,checkIntegrity,mem_sortBy,List.mem_filter,decide_eq_true_eq,
    mem_referenced,Bucket.mem_keysUnder,not_exists,not_and]
  constructor
  · rintro ⟨⟨hstored,hstart⟩,hunnamed⟩
    exact ⟨hstart,hstored,hunnamed⟩
  · rintro ⟨hstart,hstored,hunnamed⟩
    exact ⟨⟨hstored,hstart⟩,hunnamed⟩

lemma ArchiveSound.missing_eq_nil {sha256 : List UInt8 → PyText} (h : ArchiveSound sha256 w) :
    (checkArchiveIntegrity w).missing=[] := by
  apply List.eq_nil_iff_forall_not_mem.mpr
  intro key hkey
  simp only [checkArchiveIntegrity,checkIntegrity,mem_sortBy,List.mem_filter,decide_eq_true_eq,
    mem_referenced] at hkey
  obtain ⟨⟨itemId,item,hitem,rfl⟩,habsent⟩ := hkey
  obtain ⟨object,hobject,-⟩ := h.stored itemId item hitem
  apply habsent
  exact Bucket.mem_keysUnder.mpr ⟨⟨object,hobject⟩,List.prefix_append _ _⟩

/-- The rows name the objects of the files. -/
lemma ArchiveSound.orphan_iff {sha256 : List UInt8 → PyText} (h : ArchiveSound sha256 w) :
    Orphan w key ↔ s3PathArchiveStore ++ text "/" <+: key ∧ (∃ object, w.bucket.get? key=some object) ∧
      ∀ fileId file, w.archive.files.get? fileId=some file →
        storeKey file.storeItem.sha256Hash ≠ key := by
  constructor
  · rintro ⟨hstart,hstored,hunnamed⟩
    exact ⟨hstart,hstored,fun fileId file hfile => hunnamed _ _ (w.archive.file_item fileId file hfile)⟩
  · rintro ⟨hstart,hstored,hfiles⟩
    refine ⟨hstart,hstored,?_⟩
    intro itemId item hitem
    obtain ⟨fileId,file,hfile,rfl⟩ := h.referenced itemId item hitem
    rw [w.archive.file_item fileId file hfile] at hitem
    cases hitem
    exact hfiles fileId file hfile

end Report

section Runs
variable {sha256 : List UInt8 → PyText} {lower : PyText → PyText} {w₀ w w' : ArchiveSystem}
  {op : LifecycleOp} {key : ObjectKey}

/-- The object store answers, and the database takes the rows. -/
structure LifecycleOp.Tidy (sha256 : List UInt8 → PyText) (lower : PyText → PyText)
    (w : ArchiveSystem) (op : LifecycleOp) : Prop where
  faults : op.faults=.none
  taken : (op.perform sha256 lower w).2 ≠ some .database

/-- The object of the item that goes is deleted with it. -/
lemma HardDeleted.orphan {fileId : Uuid} {file : ArchiveFile} (h : HardDeleted w fileId file w')
    (hgone : Gone w fileId file w') (horphan : Orphan w' key) : Orphan w key := by
  have hlast : (∀ other, RefersTo w.archive.toArchiveTables file.storeItem.id other → other=fileId) →
      ¬ KeyOf file.storeItem.sha256Hash key := by
    intro hsole hkey
    obtain ⟨object,hobject⟩ := horphan.stored
    rw [hgone hsole key hkey] at hobject
    cases hobject
  have hor : ¬ KeyOf file.storeItem.sha256Hash key ∨
      ∃ other, other ≠ fileId ∧ RefersTo w.archive.toArchiveTables file.storeItem.id other := by
    by_contra hnot
    push Not at hnot
    obtain ⟨hkey,hsole⟩ := hnot
    exact hlast (fun other hother => by_contra fun hne => hsole other hne hother) hkey
  refine ⟨horphan.start,?_,?_⟩
  · rw [← h.objects key hor]
    exact horphan.stored
  · intro itemId item hitem hkey
    refine horphan.unnamed itemId item ((h.items itemId item).mpr ⟨hitem,?_⟩) hkey
    intro hid
    subst hid
    obtain hother | hother := hor
    · rw [w.archive.file_item fileId file h.row] at hitem
      cases hitem
      exact absurd (.inl hkey.symm) hother
    · exact hother

lemma Effect.orphan (h : Effect sha256 lower w op w') (htidy : op.Tidy sha256 lower w)
    (horphan : Orphan w' key) : Orphan w key := by
  cases h with
  | stay => exact horphan
  | put hrefused _ => exact absurd hrefused htidy.taken
  | @insert item object hinsert hid hhash hsize =>
    have hne : key ≠ storeKey item.sha256Hash :=
      fun heq => horphan.unnamed item.id item (Dict.get?_set_self _ _ _) heq.symm
    refine ⟨horphan.start,?_,?_⟩
    · obtain ⟨object',hobject⟩ := horphan.stored
      rw [Dict.get?_set_of_ne _ hne] at hobject
      exact ⟨object',hobject⟩
    · intro itemId i hi
      apply horphan.unnamed itemId i
      refine (Dict.get?_set_of_ne _ ?_ _).trans hi
      intro hsame
      rw [hsame,hinsert.2.1] at hi
      cases hi
  | rearrange _ hsame =>
    refine ⟨horphan.start,hsame.bucket ▸ horphan.stored,?_⟩
    intro itemId item hitem
    exact horphan.unnamed itemId item (hsame.items ▸ hitem)
  | hardDelete _ hdeleted hgone => exact hdeleted.orphan (hgone htidy.faults) horphan

lemma reaches_orphan (h : (lifecycleMachine sha256 lower).Reaches (LifecycleOp.Tidy sha256 lower) w₀ w) :
    Orphan w key → Orphan w₀ key := by
  refine h.relates (I := fun _ => True) (R := fun v v' => Orphan v' key → Orphan v key)
    trivial (fun _ _ _ _ _ _ => trivial) (fun _ => id) (fun _ _ _ hab hbc => hab ∘ hbc) ?_
  intro v op v' _ htidy hstep
  exact (Effect.of_step hstep).orphan htidy

/-- Whatever was requested before, the check finds every object, so the mail says so; the orphans are the
objects that no file has, in the trash or not; and none is left by steps in which the object store
answers and the database takes the rows. -/
theorem archive_health {ok : ArchiveSystem → LifecycleOp → Prop} (h₀ : ArchiveSound sha256 w₀)
    (h : (lifecycleMachine sha256 lower).Reaches ok w₀ w) :
    (∀ key, key ∈ (checkArchiveIntegrity w).orphans ↔
      s3PathArchiveStore ++ text "/" <+: key ∧ (∃ object, w.bucket.get? key=some object) ∧
        ∀ fileId file, w.archive.files.get? fileId=some file →
          storeKey file.storeItem.sha256Hash ≠ key) ∧
    (∀ toEmails, toEmails ≠ [] → jobArchiveHealthCheck ⟨none,none⟩ toEmails w=
      (some ⟨toEmails,text "OK: VB:Archiv:Konsistenzprüfung",[],(checkArchiveIntegrity w).orphans,
        getUnsortedUploadCount w.archive.toArchiveTables⟩,
        ⟨0,text "0 missing, " ++ countText (checkArchiveIntegrity w).orphans.length ++ text " orphans, " ++
          countText (getUnsortedUploadCount w.archive.toArchiveTables) ++ text " unsorted."⟩)) ∧
    ((∀ v op, ok v op → op.Tidy sha256 lower v) →
      (checkArchiveIntegrity w).orphans ⊆ (checkArchiveIntegrity w₀).orphans) := by
  have hsound := reaches_sound h h₀
  refine ⟨?_,?_,?_⟩
  · intro key
    rw [mem_orphans,hsound.orphan_iff]
  · intro toEmails hsome
    have hmissing := hsound.missing_eq_nil
    have hhealthy : (checkArchiveIntegrity w).isHealthy=true := by
      rw [IntegrityReport.isHealthy,hmissing,List.isEmpty_nil]
    unfold jobArchiveHealthCheck
    rw [if_neg hsome]
    simp only [hhealthy,hmissing,if_true]
    rfl
  · intro htidy key hkey
    rw [mem_orphans] at hkey ⊢
    exact reaches_orphan (h.mono htidy) hkey

lemma filed_taken : ∀ i < 7, ∀ op ∈ (uploads ++ filings)[i]?,
    (op.perform uploadDigest id (afterOps ((uploads ++ filings).take i))).2.isNone=true := by
  decide +kernel

lemma filed_tidy : (lifecycleMachine uploadDigest id).Reaches (LifecycleOp.Tidy uploadDigest id)
    ⟨emptyArchive,.empty⟩ (afterOps (uploads ++ filings)) := by
  have hfaults : ∀ op ∈ uploads ++ filings, op.faults=.none := by
    simp [uploads,filings,LifecycleOp.faults]
  refine Machine.reaches_of_run (Machine.meets_of_split ?_) (lifecycle_run uploadDigest id _ _)
  intro done op rest hops w hw
  rw [lifecycle_run] at hw
  cases hw
  have hlt : done.length < 7 := by
    have hlength := congrArg List.length hops
    simp only [uploads,filings,List.length_append,List.length_cons,List.length_nil] at hlength
    omega
  have hat := filed_taken done.length hlt
  rw [hops,List.getElem?_append_right le_rfl,Nat.sub_self,List.take_left] at hat
  constructor
  · exact hfaults op (hops ▸ List.mem_append_right _ List.mem_cons_self)
  · intro hdatabase
    have hnone := hat op rfl
    rw [afterOps,hdatabase] at hnone
    cases hnone

/-- After the three uploads, two filings, the deletion and the purge. -/
theorem archive_health_filed :
    (jobArchiveHealthCheck ⟨none,none⟩ [text "archivar@example.org"]
      (afterOps (uploads ++ filings))).2.exitCode=0 ∧
    (checkArchiveIntegrity (afterOps (uploads ++ filings))).orphans=[] := by
  have hlaw := archive_health emptyArchive_sound filed_tidy
  constructor
  · rw [hlaw.2.1 _ (by decide)]
  · have hempty : (checkArchiveIntegrity ⟨emptyArchive,.empty⟩).orphans=[] := by decide +kernel
    have hsub := hlaw.2.2 fun _ _ => id
    rw [hempty] at hsub
    exact List.subset_nil.mp hsub

end Runs

end VbApi.Archive
