import VbApi.Foundations.DayCount
import VbApi.Storage.BackupNames

/-! A history of backups: which one counts as the newest, and which ones the cleanup deletes. The names
carry local time without the pass of a repeated hour. -/
namespace VbApi.Storage
open VbApi.Foundations

/-- The seconds that the clock counts up to a local time. -/
def clockSeconds (clock : BackupTime) : ℤ := (ofLex clock).1.toOrdinal*86400+(ofLex clock).2

/-- A backup taken at a whole second: its name carries what the clock reads then. -/
structure BackupRun (zone : ZoneRules) where
  moment : ℤ
  environment : AppEnvironment
  manual : Bool
  clock : BackupTime
  second_lt : (ofLex clock).2 < 86400
  reads : clockSeconds clock=zone.reading moment
  /-- The clock of the system is not before 1970. -/
  epoch_le : 719163*86400 ≤ moment

def BackupRun.key {zone : ZoneRules} (path : PyText) (b : BackupRun zone) : ObjectKey :=
  s3Key path b.environment b.clock b.manual

/-! ### The cleanup -/

inductive CleanupError
  | valueError
  | overflowError
  deriving DecidableEq

/-- The keys that are left, and the names of the deleted ones. -/
structure Cleanup where
  remaining : List ObjectKey
  deleted : List PyText

section Cleanup
variable (zone : ZoneRules) (path : PyText)

/-- One round of the cleanup; the cutoff has microseconds. -/
def expireBackup (cutoff : ℤ) (c : Cleanup) (dated : BackupTime ×ₗ ObjectKey) : Cleanup :=
  let backupDate := (ofLex dated).1
  let key := (ofLex dated).2
  if cutoff ≤ zone.momentOf (clockSeconds backupDate)*1000000 then c
  else
    { remaining := c.remaining.filter (· ≠ key)
      deleted := c.deleted ++ [removePrefix (backupPrefix path) key] }

/-- `now` in microseconds; a cutoff before year 1 is an overflow. -/
def cleanupOldBackups (keys : List ObjectKey) (now retentionDays : ℤ) : Except CleanupError Cleanup :=
  if retentionDays < 1 then .error .valueError
  else
    let cutoff := now-retentionDays*86400000000
    if cutoff < 86400000000 then .error .overflowError
    else .ok ((datedBackupKeys path keys).foldl (expireBackup zone path cutoff) ⟨keys,[]⟩)

/-- The newest backup is the last one taken, and the cleanup keeps the young backups and the keys
without a timestamp. -/
structure BackupLaw (runs : List (BackupRun zone)) (keys : List ObjectKey) : Prop where
  latest : ∀ last ∈ runs.getLast?, latestBackupKey path keys=some (last.key path)
  young_kept : ∀ now days c, (∀ b ∈ runs, b.moment*1000000 ≤ now) →
    cleanupOldBackups zone path keys now days=.ok c →
    ∀ b ∈ runs, now-b.moment*1000000 < days*86400000000 → b.key path ∈ c.remaining
  undated_kept : ∀ now days c, cleanupOldBackups zone path keys now days=.ok c →
    ∀ key ∈ keys, backupTime path key=none → key ∈ c.remaining

/-- No other key has a name with a later time than the last backup's. -/
def NoLaterName (runs : List (BackupRun zone)) (keys : List ObjectKey) : Prop :=
  ∀ last ∈ runs.getLast?, ∀ key ∈ keys, key ∉ runs.map (·.key path) →
    ∀ t, backupTime path key=some t → toLex (t,key) ≤ toLex (last.clock,last.key path)

end Cleanup

/-! ### What the cleanup leaves -/

section Left
variable {zone : ZoneRules} {path : PyText} {keys : List ObjectKey} {key : ObjectKey}

lemma mem_remaining_foldl {dated : List (BackupTime ×ₗ ObjectKey)} {cutoff : ℤ} {c : Cleanup} :
    key ∈ (dated.foldl (expireBackup zone path cutoff) c).remaining ↔ key ∈ c.remaining ∧
      ∀ t, toLex (t,key) ∈ dated → cutoff ≤ zone.momentOf (clockSeconds t)*1000000 := by
  induction dated generalizing c with
  | nil => simp
  | cons first dated ih =>
    obtain ⟨⟨t,k⟩,rfl⟩ := toLex.surjective first
    rw [List.foldl_cons,ih]
    by_cases hkeep : cutoff ≤ zone.momentOf (clockSeconds t)*1000000
    · have hround : expireBackup zone path cutoff c (toLex (t,k))=c := if_pos hkeep
      rw [hround]
      constructor
      · intro h
        refine ⟨h.1,?_⟩
        intro t' ht'
        rcases List.mem_cons.mp ht' with heq | ht'
        · obtain ⟨rfl,-⟩ := Prod.mk.inj (toLex.injective heq)
          exact hkeep
        · exact h.2 t' ht'
      · intro h
        exact ⟨h.1,fun t' ht' => h.2 t' (List.mem_cons_of_mem _ ht')⟩
    · have hround : (expireBackup zone path cutoff c (toLex (t,k))).remaining=
          c.remaining.filter (· ≠ k) := congrArg Cleanup.remaining (if_neg hkeep)
      rw [hround,List.mem_filter,decide_eq_true_eq]
      constructor
      · intro h
        refine ⟨h.1.1,?_⟩
        intro t' ht'
        rcases List.mem_cons.mp ht' with heq | ht'
        · exact absurd (Prod.mk.inj (toLex.injective heq)).2 h.1.2
        · exact h.2 t' ht'
      · intro h
        refine ⟨⟨h.1,?_⟩,fun t' ht' => h.2 t' (List.mem_cons_of_mem _ ht')⟩
        intro heq
        subst heq
        exact hkeep (h.2 t List.mem_cons_self)

/-- A key is left unless the moment of its timestamp lies before the cutoff. -/
lemma mem_remaining_iff {now days : ℤ} {c : Cleanup}
    (h : cleanupOldBackups zone path keys now days=.ok c) : key ∈ c.remaining ↔ key ∈ keys ∧
      ∀ t, backupTime path key=some t →
        now-days*86400000000 ≤ zone.momentOf (clockSeconds t)*1000000 := by
  rw [cleanupOldBackups] at h
  dsimp only at h
  split_ifs at h
  cases h
  rw [mem_remaining_foldl]
  constructor
  · rintro ⟨hkey,hdated⟩
    exact ⟨hkey,fun t ht => hdated t (mem_datedBackupKeys.mpr ⟨hkey,ht⟩)⟩
  · rintro ⟨hkey,hdated⟩
    exact ⟨hkey,fun t ht => hdated t (mem_datedBackupKeys.mp ht).2⟩

end Left

/-! ### The order of the names -/

lemma lt_of_clockSeconds_lt {a b : BackupTime} (hb : (ofLex b).2 < 86400)
    (h : clockSeconds a < clockSeconds b) : a < b := by
  obtain ⟨⟨d,s⟩,rfl⟩ := toLex.surjective a
  obtain ⟨⟨d',s'⟩,rfl⟩ := toLex.surjective b
  simp only [clockSeconds,ofLex_toLex] at hb h
  rw [Prod.Lex.toLex_lt_toLex]
  rcases lt_trichotomy d d' with hlt | rfl | hgt
  · exact .inl hlt
  · exact .inr ⟨rfl,by dsimp only; omega⟩
  · have hordinal := Date.toOrdinal_strictMono hgt
    omega

section History
variable {zone : ZoneRules} {path : PyText} {runs : List (BackupRun zone)} {keys : List ObjectKey}

lemma BackupRun.backupTime_key (b : BackupRun zone) : backupTime path (b.key path)=some b.clock :=
  backupTime_s3Key b.second_lt path b.environment b.manual

/-- The name of a backup stands for its moment if the clock shows its time for the first time. -/
lemma BackupRun.momentOf_clock (b : BackupRun zone) (h : zone.FirstPass b.moment) :
    zone.momentOf (clockSeconds b.clock)=b.moment := by
  rw [b.reads]
  exact h

lemma mem_le_last {last b : BackupRun zone} (horder : runs.Pairwise fun a b => a.moment < b.moment)
    (hlast : last ∈ runs.getLast?) (hb : b ∈ runs) : b=last ∨ b.moment < last.moment := by
  obtain ⟨front,rfl⟩ := List.getLast?_eq_some_iff.mp hlast
  rcases List.mem_append.mp hb with hb | hb
  · exact .inr ((List.pairwise_append.mp horder).2.2 b hb last (List.mem_singleton_self _))
  · exact .inl (List.mem_singleton.mp hb)

lemma backupLaw_of_firstPasses (horder : runs.Pairwise fun a b => a.moment < b.moment)
    (hkeys : ∀ b ∈ runs, b.key path ∈ keys) (hfirst : ∀ b ∈ runs, zone.FirstPass b.moment)
    (hother : NoLaterName zone path runs keys) : BackupLaw zone path runs keys := by
  refine ⟨?_,?_,?_⟩
  · intro last hlast
    have hmem : last ∈ runs := List.mem_of_mem_getLast? hlast
    rw [latestBackupKey_eq_some_iff]
    refine ⟨hkeys last hmem,last.clock,last.backupTime_key,?_⟩
    intro key hkey t ht
    by_cases hrun : key ∈ runs.map (·.key path)
    · obtain ⟨b,hb,rfl⟩ := List.mem_map.mp hrun
      rw [b.backupTime_key,Option.some.injEq] at ht
      subst ht
      rcases mem_le_last horder hlast hb with rfl | hlt
      · exact le_rfl
      · have hreading := ZoneRules.reading_lt_of_firstPass hlt (hfirst last hmem)
        rw [← b.reads,← last.reads] at hreading
        have hclock := lt_of_clockSeconds_lt last.second_lt hreading
        exact (Prod.Lex.toLex_lt_toLex.mpr (.inl hclock)).le
    · exact hother last hlast key hkey hrun t ht
  · intro now days c _ hc b hb hyoung
    refine (mem_remaining_iff hc).mpr ⟨hkeys b hb,?_⟩
    intro t ht
    rw [b.backupTime_key,Option.some.injEq] at ht
    subst ht
    rw [b.momentOf_clock (hfirst b hb)]
    omega
  · intro now days c hc key hkey hnone
    refine (mem_remaining_iff hc).mpr ⟨hkey,?_⟩
    intro t ht
    rw [hnone] at ht
    contradiction

lemma exists_last_moment (runs : List (BackupRun zone)) : ∃ m, ∀ b ∈ runs, b.moment ≤ m := by
  induction runs with
  | nil => exact ⟨0,by simp⟩
  | cons b runs ih =>
    obtain ⟨m,hm⟩ := ih
    refine ⟨max b.moment m,?_⟩
    intro b' hb'
    rcases List.mem_cons.mp hb' with rfl | hb'
    · exact le_max_left _ _
    · exact (hm b' hb').trans (le_max_right _ _)

/-- A backup in the second pass of a repeated hour looks older than it is. -/
lemma firstPass_of_backupLaw (hlaw : BackupLaw zone path runs keys) {b : BackupRun zone}
    (hb : b ∈ runs) : zone.FirstPass b.moment := by
  by_contra hsecond
  have hle : zone.momentOf (zone.reading b.moment) ≤ b.moment := ZoneRules.momentOf_reading_le
  have hlt : zone.momentOf (zone.reading b.moment) < b.moment := lt_of_le_of_ne hle hsecond
  obtain ⟨m,hm⟩ := exists_last_moment runs
  have hbm := hm b hb
  have hepoch := b.epoch_le
  -- the cutoff lies right before the moment of the backup, and the cleanup after all backups
  have hrun : ∃ c, cleanupOldBackups zone path keys
      (b.moment*1000000-1+((m-b.moment)/86400+1)*86400000000) ((m-b.moment)/86400+1)=.ok c := by
    rw [cleanupOldBackups,if_neg (by omega)]
    dsimp only
    rw [if_neg (by omega)]
    exact ⟨_,rfl⟩
  obtain ⟨c,hc⟩ := hrun
  have hkept := hlaw.young_kept _ _ c (fun b' hb' => by have := hm b' hb'; omega) hc b hb (by omega)
  have hcutoff := ((mem_remaining_iff hc).mp hkept).2 b.clock b.backupTime_key
  rw [b.reads] at hcutoff
  omega

lemma noLaterName_of_backupLaw (hlaw : BackupLaw zone path runs keys) :
    NoLaterName zone path runs keys := by
  intro last hlast key hkey _ t ht
  obtain ⟨-,clock,hclock,hle⟩ := latestBackupKey_eq_some_iff.mp (hlaw.latest last hlast)
  rw [last.backupTime_key,Option.some.injEq] at hclock
  rw [hclock]
  exact hle key hkey t ht

/-- The newest backup and the cleanup are right for a history exactly if no backup was taken in the
second pass of a repeated hour and no other name is later than the last backup's. -/
theorem backupLaw_iff (horder : runs.Pairwise fun a b => a.moment < b.moment)
    (hkeys : ∀ b ∈ runs, b.key path ∈ keys) : BackupLaw zone path runs keys ↔
      (∀ b ∈ runs, zone.FirstPass b.moment) ∧ NoLaterName zone path runs keys := by
  constructor
  · intro hlaw
    exact ⟨fun b hb => firstPass_of_backupLaw hlaw hb,noLaterName_of_backupLaw hlaw⟩
  · intro h
    exact backupLaw_of_firstPasses horder hkeys h.1 h.2

end History

/-! ### Vienna in 2026 -/

/-- Summer time from the last Sunday of March to the last one of October. -/
def viennaChanges : List ClockChange := [⟨739704*86400+3600,7200⟩,⟨739914*86400+3600,3600⟩]

lemma viennaChanges_separated : ClockChange.Separated 3600 viennaChanges := by
  refine ⟨?_,trivial⟩
  decide

def vienna2026 : ZoneRules := ⟨3600,viennaChanges,viennaChanges_separated⟩

lemma clock_summer : clockSeconds (toLex (Date.of 2026 10 25,10200))=
    vienna2026.reading (739914*86400+3000) := by decide +kernel

lemma clock_winter : clockSeconds (toLex (Date.of 2026 10 25,7800))=
    vienna2026.reading (739914*86400+4200) := by decide +kernel

lemma clock_nightBefore : clockSeconds (toLex (Date.of 2026 10 24,10200))=
    vienna2026.reading (739913*86400+3000) := by decide +kernel

/-- 02:50 in the first pass of the repeated hour. -/
def summerRun : BackupRun vienna2026 :=
  ⟨739914*86400+3000,.production,false,toLex (Date.of 2026 10 25,10200),of_decide_eq_true rfl,
    clock_summer,of_decide_eq_true rfl⟩

/-- 02:10 in the second pass, twenty minutes later. -/
def winterRun : BackupRun vienna2026 :=
  ⟨739914*86400+4200,.production,true,toLex (Date.of 2026 10 25,7800),of_decide_eq_true rfl,
    clock_winter,of_decide_eq_true rfl⟩

theorem not_backupLaw_repeatedHour : ¬ BackupLaw vienna2026 (text "db_backups") [summerRun,winterRun]
    [summerRun.key (text "db_backups"),winterRun.key (text "db_backups")] := by
  intro hlaw
  have hfirst : vienna2026.FirstPass winterRun.moment :=
    firstPass_of_backupLaw hlaw (List.mem_cons_of_mem _ List.mem_cons_self)
  revert hfirst
  decide +kernel

/-- The night before, at the same hour. -/
def nightBefore : BackupRun vienna2026 :=
  ⟨739913*86400+3000,.production,false,toLex (Date.of 2026 10 24,10200),of_decide_eq_true rfl,
    clock_nightBefore,of_decide_eq_true rfl⟩

def twoNights : List (BackupRun vienna2026) := [nightBefore,summerRun]

/-- Both backups, and an object that is none. -/
def twoNightsKeys : List PyText :=
  [nightBefore.key (text "db_backups"),summerRun.key (text "db_backups"),text "x"]

theorem backupLaw_beforeTheHour : (∀ b ∈ twoNights,vienna2026.FirstPass b.moment) ∧
    NoLaterName vienna2026 (text "db_backups") twoNights twoNightsKeys ∧
    BackupLaw vienna2026 (text "db_backups") twoNights twoNightsKeys := by
  have hfirst : ∀ b ∈ twoNights,vienna2026.FirstPass b.moment := by
    intro b hb
    rcases List.mem_cons.mp hb with rfl | hb
    · decide +kernel
    · rw [List.mem_singleton.mp hb]
      decide +kernel
  have hother : NoLaterName vienna2026 (text "db_backups") twoNights twoNightsKeys := by
    intro last _ key hkey hrun t ht
    rcases List.mem_cons.mp hkey with rfl | hkey
    · exact absurd List.mem_cons_self hrun
    rcases List.mem_cons.mp hkey with rfl | hx
    · exact absurd (List.mem_cons_of_mem _ List.mem_cons_self) hrun
    · rw [List.mem_singleton.mp hx] at ht
      have hnone : backupTime (text "db_backups") (text "x")=none := by decide +kernel
      rw [hnone] at ht
      contradiction
  refine ⟨hfirst,hother,(backupLaw_iff ?_ ?_).mpr ⟨hfirst,hother⟩⟩
  · exact List.pairwise_pair.mpr (by decide)
  · intro b hb
    rcases List.mem_cons.mp hb with rfl | hb
    · exact List.mem_cons_self
    · rw [List.mem_singleton.mp hb]
      exact List.mem_cons_of_mem _ List.mem_cons_self

end VbApi.Storage
