import VbApi.Storage.BackupNames
import VbApi.Storage.Downsync

/-! The backup that a dry run of the downsync script announces, and the one that a restore takes from
the same keys: the greatest key as text, and the newest backup. -/
namespace VbApi.Storage
open VbApi.Foundations

/-- `max(keys)`; without keys nothing is announced. -/
def announcedBackup (keys : List ObjectKey) : Option ObjectKey := keys.max?

/-- What `_run_db_restore` prints in a dry run. -/
def wouldRestore (keys : List ObjectKey) : PyText :=
  match announcedBackup keys with
  | none =>
    text "  WOULD RESTORE: no backups currently in local Garage " ++
      text "(run without --skip-s3 and --dry-run first to mirror one down)."
  | some latest => text "  WOULD RESTORE: " ++ latest

section Keys
variable (path : PyText)

/-- What the announcement has to be: the key that `run_restore` selects. -/
def AnnouncesRestored (keys : List ObjectKey) : Prop :=
  announcedBackup keys=latestBackupKey path keys

/-- The key has no timestamp, or another key has a later one. -/
def NotNewest (keys : List ObjectKey) (key : ObjectKey) : Prop :=
  ∀ t, backupTime path key=some t → ∃ key' ∈ keys, ∃ t', backupTime path key'=some t' ∧ t < t'

variable {path} {keys : List ObjectKey} {key : ObjectKey}

lemma announcedBackup_eq_some_iff :
    announcedBackup keys=some key ↔ key ∈ keys ∧ ∀ key' ∈ keys, key' ≤ key :=
  List.max?_eq_some_iff

lemma announcedBackup_eq_none_iff : announcedBackup keys=none ↔ keys=[] := List.max?_eq_none_iff

lemma NotNewest.not_newestIn (h : NotNewest path keys key) : ¬ NewestIn path keys key := by
  intro hnewest
  obtain ⟨-,t,ht,hle⟩ := hnewest
  obtain ⟨key',hkey',t',ht',hlt⟩ := h t ht
  have hback := hle key' hkey' t' ht'
  rw [Prod.Lex.toLex_le_toLex] at hback
  rcases hback with hback | hback
  · exact absurd hlt hback.asymm
  · exact absurd hback.1 hlt.ne'

/-- The greatest key as text is the newest backup unless it is outdated. -/
lemma newestIn_of_greatest (hmem : key ∈ keys) (hmax : ∀ key' ∈ keys, key' ≤ key)
    (h : ¬ NotNewest path keys key) : NewestIn path keys key := by
  unfold NotNewest at h
  push Not at h
  obtain ⟨t,ht,hle⟩ := h
  refine ⟨hmem,t,ht,?_⟩
  intro key' hkey' t' ht'
  rw [Prod.Lex.toLex_le_toLex]
  rcases (hle key' hkey' t' ht').lt_or_eq with hlt | heq
  · exact .inl hlt
  · exact .inr ⟨heq,hmax key' hkey'⟩

lemma exists_later_of_announcesRestored (h : AnnouncesRestored path keys) (hkey : key ∈ keys)
    (hold : NotNewest path keys key) : ∃ key' ∈ keys, key < key' := by
  unfold AnnouncesRestored at h
  cases hmax : announcedBackup keys with
  | none =>
    rw [announcedBackup_eq_none_iff.mp hmax] at hkey
    cases hkey
  | some greatest =>
    obtain ⟨hmem,hle⟩ := announcedBackup_eq_some_iff.mp hmax
    rw [hmax,eq_comm,latestBackupKey_eq_some_iff] at h
    refine ⟨greatest,hmem,lt_of_le_of_ne (hle key hkey) ?_⟩
    intro heq
    subst heq
    exact hold.not_newestIn h

lemma announcesRestored_of_exists_later
    (h : ∀ key ∈ keys, NotNewest path keys key → ∃ key' ∈ keys, key < key') :
    AnnouncesRestored path keys := by
  unfold AnnouncesRestored
  cases hmax : announcedBackup keys with
  | none =>
    rw [announcedBackup_eq_none_iff.mp hmax,eq_comm,latestBackupKey_eq_none_iff]
    intro key hkey
    cases hkey
  | some greatest =>
    obtain ⟨hmem,hle⟩ := announcedBackup_eq_some_iff.mp hmax
    rw [eq_comm,latestBackupKey_eq_some_iff]
    refine newestIn_of_greatest hmem hle ?_
    intro hold
    obtain ⟨key',hkey',hlt⟩ := h greatest hmem hold
    exact absurd hlt (hle key' hkey').not_gt

/-- A dry run announces what a restore takes exactly if every key without a timestamp, or with an
earlier one than another key, comes before some key as text. -/
theorem announcesRestored_iff (keys : List ObjectKey) : AnnouncesRestored path keys ↔
    ∀ key ∈ keys, NotNewest path keys key → ∃ key' ∈ keys, key < key' := by
  constructor
  · intro h key hkey hold
    exact exists_later_of_announcesRestored h hkey hold
  · exact announcesRestored_of_exists_later

end Keys

/-- A file that is no backup, listed after the backups. -/
theorem not_announcesRestored_readme : ¬ AnnouncesRestored (text "db-backups")
    [text "db-backups/production-2026-07-15_03-00-00.dump",text "db-backups/readme.txt"] := by
  intro h
  have hold : NotNewest (text "db-backups")
      [text "db-backups/production-2026-07-15_03-00-00.dump",text "db-backups/readme.txt"]
      (text "db-backups/readme.txt") := by
    intro t ht
    have hnone : backupTime (text "db-backups") (text "db-backups/readme.txt")=none := by decide +kernel
    rw [hnone] at ht
    contradiction
  obtain ⟨key',hkey',hlt⟩ :=
    exists_later_of_announcesRestored h (List.mem_cons_of_mem _ List.mem_cons_self) hold
  rcases List.mem_cons.mp hkey' with rfl | hkey'
  · revert hlt
    decide +kernel
  · rw [List.mem_singleton.mp hkey'] at hlt
    exact lt_irrefl _ hlt

/-! ### The backups of one environment -/

/-- In the names of one environment a later time is a greater text. -/
theorem s3Key_lt {clock clock' : BackupTime} (h : clock < clock') (hclock : (ofLex clock).2 < 86400)
    (hclock' : (ofLex clock').2 < 86400) (path : PyText) (environment : AppEnvironment)
    (manual manual' : Bool) :
    s3Key path environment clock manual < s3Key path environment clock' manual' := by
  have hstamp : strftime clock < strftime clock' := strftime_lt h hclock'
  have hlength : (strftime clock).length=(strftime clock').length :=
    (length_strftime hclock).trans (length_strftime hclock').symm
  simp only [s3Key,backupName,List.append_assoc]
  refine append_lt_append_left _ (append_lt_append_left _ (append_lt_append_left _ ?_))
  exact append_lt_append hstamp hlength _ _

/-- Among the backups that `run_backup` has written in one environment, scheduled or by hand, the dry run
announces what a restore takes. -/
theorem announcesRestored_backups (path : PyText) (environment : AppEnvironment)
    (backups : List (BackupTime × Bool)) (h : ∀ b ∈ backups, (ofLex b.1).2 < 86400) :
    AnnouncesRestored path (backups.map fun b => s3Key path environment b.1 b.2) := by
  apply announcesRestored_of_exists_later
  intro key hkey hold
  obtain ⟨b,hb,rfl⟩ := List.mem_map.mp hkey
  obtain ⟨key',hkey',t',ht',hlt⟩ := hold b.1 (backupTime_s3Key (h b hb) path environment b.2)
  obtain ⟨b',hb',rfl⟩ := List.mem_map.mp hkey'
  rw [backupTime_s3Key (h b' hb') path environment b'.2,Option.some.injEq] at ht'
  subst ht'
  exact ⟨_,hkey',s3Key_lt hlt (h b hb) (h b' hb') path environment b.2 b'.2⟩

end VbApi.Storage
