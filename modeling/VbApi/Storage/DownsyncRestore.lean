import VbApi.Storage.Mirroring

/-! Which backup a downsync restores. The job looks for the newest backup once in the production bucket
and once in the mirrored local one. -/
namespace VbApi.Storage
open VbApi.Foundations Stateful

section Job
variable {prod : Bucket} {settings : DownsyncSettings} {outage : Outage} {tools : DatabaseTools}
variable {s s' : Stage} {key : ObjectKey}

/-! ### Restoring -/

/-- A retried operation returns what one of its attempts does. -/
lemma retryTransientS3_ok {α : Type} {operation : Job α} {P : α → Stage → Stage → Prop}
    (hok : ∀ s a s', exec operation s=(.ok a,s') → P a s s')
    (hkeep : ∀ s e s', exec operation s=(.error e,s') → s'.bucket=s.bucket)
    (hbucket : ∀ s₁ s₂ a s', s₁.bucket=s₂.bucket → P a s₁ s' → P a s₂ s') {n : ℕ} {a : α}
    (h : exec (retryTransientS3 operation n) s=(.ok a,s')) : P a s s' := by
  induction n generalizing s with
  | zero => exact hok s a s' h
  | succ n ih =>
    obtain h | ⟨e,mid,herror,hretry⟩ := exec_tryCatch_eq_ok_iff.mp h
    · exact hok s a s' h
    · split_ifs at hretry
      · exact hbucket mid s a s' (hkeep s e mid herror) (ih hretry)
      · cases hretry

lemma storageCall_bind_error {α : Type} {f : PUnit → Job α} {e : DownsyncError}
    (h : exec (storageCall outage >>= f) s=(.error e,s'))
    (hf : ∀ u mid, exec (f u) mid=(.error e,s') → s'.bucket=mid.bucket) : s'.bucket=s.bucket := by
  rw [exec_bind,exec_storageCall] at h
  cases hcall : outage s.calls with
  | none =>
    rw [hcall] at h
    exact hf ⟨⟩ { s with calls := s.calls+1 } h
  | some e' =>
    rw [hcall] at h
    cases h
    rfl

lemma retry_listLocal_ok {start : PyText} {keys : List ObjectKey} {n : ℕ}
    (h : exec (retryTransientS3 (listLocal outage start) n) s=(.ok keys,s')) :
    keys=s.bucket.keysUnder start ∧ s'.bucket=s.bucket := by
  refine retryTransientS3_ok (P := fun keys s s' => keys=s.bucket.keysUnder start ∧
    s'.bucket=s.bucket) (fun _ _ _ => listLocal_ok) ?_ ?_ h
  · intro s e s' herror
    exact storageCall_bind_error herror fun _ _ hrest => by cases hrest
  · intro s₁ s₂ a s' hsame hP
    rw [← hsame]
    exact hP

lemma retry_downloadLocal_ok {data : List UInt8} {n : ℕ}
    (h : exec (retryTransientS3 (downloadLocal outage key) n) s=(.ok data,s')) :
    ∃ o, s.bucket.get? key=some o ∧ o.data=data := by
  refine retryTransientS3_ok (P := fun data s _ => ∃ o, s.bucket.get? key=some o ∧ o.data=data)
    (fun _ _ _ hok => (downloadLocal_ok hok).1) ?_ ?_ h
  · intro s e s' herror
    refine storageCall_bind_error herror ?_
    intro u mid hrest
    rw [exec_bind,exec_get] at hrest
    dsimp only at hrest
    cases hget : mid.bucket.get? key with
    | none =>
      rw [hget] at hrest
      cases hrest
      rfl
    | some o =>
      rw [hget] at hrest
      cases hrest
  · intro s₁ s₂ a s' hsame hP
    rw [← hsame]
    exact hP

lemma removePrefix_spec {start key : PyText} (h : start <+: key) :
    start ++ removePrefix start key=key := by
  obtain ⟨rest,rfl⟩ := h
  rw [removePrefix,if_pos (List.prefix_append start rest),List.drop_left]

lemma latestBackupName_ok {name : PyText}
    (h : exec (latestBackupName outage settings) s=(.ok name,s')) :
    ∃ key, latestBackupKey settings.dbBackups
        (s.bucket.keysUnder (backupPrefix settings.dbBackups))=some key ∧
      name=removePrefix (backupPrefix settings.dbBackups) key ∧ s'.bucket=s.bucket := by
  obtain ⟨keys,mid,hkeys,h⟩ := exec_bind_eq_ok_iff.mp h
  obtain ⟨rfl,hsame⟩ := retry_listLocal_ok hkeys
  cases hlatest : latestBackupKey settings.dbBackups
      (s.bucket.keysUnder (backupPrefix settings.dbBackups)) with
  | none =>
    rw [hlatest] at h
    cases h
  | some key =>
    rw [hlatest] at h
    cases h
    exact ⟨key,rfl,rfl,hsame⟩

lemma restoreDump_ok {data : List UInt8} {u : PUnit}
    (h : exec (restoreDump tools data) s=(.ok u,s')) : s'.database=some data := by
  rw [restoreDump] at h
  split_ifs at h
  · cases h
    rfl
  · obtain ⟨_,_,-,hthrow⟩ := exec_bind_eq_ok_iff.mp h
    cases hthrow

/-- A restore without a name takes the newest backup of the local bucket. -/
lemma runRestore_ok {restored : PyText}
    (h : exec (runRestore outage settings tools none false) s=(.ok restored,s')) :
    ∃ key o, latestBackupKey settings.dbBackups
        (s.bucket.keysUnder (backupPrefix settings.dbBackups))=some key ∧
      restored=removePrefix (backupPrefix settings.dbBackups) key ∧ s.bucket.get? key=some o ∧
      s'.database=some o.data := by
  rw [runRestore] at h
  dsimp only at h
  split_ifs at h
  · rw [exec_throw_bind] at h
    cases h
  · rw [exec_throw_bind] at h
    cases h
  · rw [exec_throw_bind] at h
    cases h
  · obtain ⟨name,s₁,hname,h⟩ := exec_bind_eq_ok_iff.mp h
    obtain ⟨data,s₂,hdata,h⟩ := exec_bind_eq_ok_iff.mp h
    obtain ⟨_,s₃,hdump,h⟩ := exec_bind_eq_ok_iff.mp h
    cases h
    obtain ⟨key,hlatest,rfl,hsame⟩ := latestBackupName_ok hname
    have hkey := (latestBackupKey_eq_some_iff.mp hlatest).1
    obtain ⟨o,hget,rfl⟩ := retry_downloadLocal_ok hdata
    rw [removePrefix_spec (Bucket.mem_keysUnder.mp hkey).2,hsame] at hget
    exact ⟨key,o,hlatest,rfl,hget,restoreDump_ok hdump⟩

/-! ### The job -/

/-- Production's newest backup stays the newest one unless a newer one is left in place. -/
lemma latest_after_mirror {bucket after : Bucket} {key : ObjectKey}
    (hmirrored : ∀ k, IsMirrored prod settings k → after.get? k=mirrored prod bucket k)
    (hleft : ∀ k, ¬ IsMirrored prod settings k → after.get? k=bucket.get? k)
    (hlatest : latestBackupKey settings.dbBackups
      (after.keysUnder (backupPrefix settings.dbBackups))=some key) :
    latestBackupKey settings.dbBackups (prodBackups prod settings)=some key ↔
      NoNewerLeft prod settings bucket := by
  rw [latestBackupKey_eq_some_iff] at hlatest
  obtain ⟨hkey,t,ht,hmax⟩ := hlatest
  have hmem : ∀ k, k ∈ prodBackups prod settings → IsMirrored prod settings k →
      k ∈ after.keysUnder (backupPrefix settings.dbBackups) := by
    intro k hk hm
    obtain ⟨⟨o,ho⟩,hstart⟩ := Bucket.mem_keysUnder.mp hk
    refine Bucket.mem_keysUnder.mpr ⟨⟨(bucket.get? k).getD o,?_⟩,hstart⟩
    rw [hmirrored k hm,mirrored,ho,Option.map_some]
  constructor
  · intro hprod k hk hnot t' ht'
    have hafter : k ∈ after.keysUnder (backupPrefix settings.dbBackups) := by
      rw [Bucket.mem_keysUnder,hleft k hnot]
      exact Bucket.mem_keysUnder.mp hk
    exact ⟨key,(latestBackupKey_eq_some_iff.mp hprod).1,t,ht,hmax k hafter t' ht'⟩
  · intro hnone
    -- the newest key after the mirror has a production backup at or above it, which is mirrored
    have hbelow : ∃ k ∈ prodBackups prod settings, ∃ t', backupTime settings.dbBackups k=some t' ∧
        toLex (t,key) ≤ toLex (t',k) := by
      obtain ⟨⟨o,ho⟩,hstart⟩ := Bucket.mem_keysUnder.mp hkey
      by_cases hm : IsMirrored prod settings key
      · rw [hmirrored key hm,mirrored] at ho
        obtain ⟨o',ho',-⟩ := Option.map_eq_some_iff.mp ho
        exact ⟨key,Bucket.mem_keysUnder.mpr ⟨⟨o',ho'⟩,hstart⟩,t,ht,le_rfl⟩
      · rw [hleft key hm] at ho
        exact hnone key (Bucket.mem_keysUnder.mpr ⟨⟨o,ho⟩,hstart⟩) hm t ht
    obtain ⟨k,hk,t',ht',hle⟩ := hbelow
    cases hlatest : latestBackupKey settings.dbBackups (prodBackups prod settings) with
    | none =>
      rw [latestBackupKey_eq_none_iff.mp hlatest k hk] at ht'
      cases ht'
    | some newest =>
      obtain ⟨hnewest',t'',ht'',hmax'⟩ := latestBackupKey_eq_some_iff.mp hlatest
      have hup := hmax newest (hmem newest hnewest' (newest_isMirrored hlatest)) t'' ht''
      have heq := le_antisymm (hle.trans (hmax' k hk t' ht')) hup
      rw [(Prod.mk.inj (toLex.injective heq)).2]

/-- What a finished run of the job has done. -/
lemma jobDownsync_complete {result : MirrorResult} {restored : PyText}
    (h : jobDownsync outage prod settings tools s=(.complete result restored,s')) :
    ∃ mid, exec (mirror outage prod settings) s=(.ok result,mid) ∧ result.errors=[] ∧
      exec (runRestore outage settings tools none false) mid=(.ok restored,s') := by
  unfold jobDownsync at h
  by_cases hproduction : settings.production=true
  · rw [if_pos hproduction] at h
    cases h
  by_cases hcredentials : (!settings.prodCredentials)=true
  · rw [if_neg hproduction,if_pos hcredentials] at h
    cases h
  rw [if_neg hproduction,if_neg hcredentials] at h
  cases hmirror : exec (mirror outage prod settings) s with
  | mk r mid =>
    rw [hmirror] at h
    cases r with
    | error e => cases h
    | ok result' =>
      dsimp only at h
      by_cases herrors : result'.hasErrors=true
      · rw [if_pos herrors] at h
        cases h
      rw [if_neg herrors] at h
      cases hrestore : exec (runRestore outage settings tools none false) mid with
      | mk r after =>
        rw [hrestore] at h
        cases r with
        | error e => cases h
        | ok restored' =>
          dsimp only at h
          split_ifs at h
          · cases h
            refine ⟨mid,rfl,?_,hrestore⟩
            simpa [MirrorResult.hasErrors] using herrors
          · cases h

section Complete
variable {result : MirrorResult} {restored : PyText}
variable (h : jobDownsync outage prod settings tools s=(.complete result restored,s'))
include h

/-- The job restores from production's newest backup exactly when no newer local one is left. -/
theorem restored_newest_iff :
    latestBackupKey settings.dbBackups (prodBackups prod settings)=
        some (backupPrefix settings.dbBackups ++ restored) ↔ NoNewerLeft prod settings s.bucket := by
  obtain ⟨mid,hmirror,hno,hrestore⟩ := jobDownsync_complete h
  obtain ⟨key,o,hlatest,rfl,-⟩ := runRestore_ok hrestore
  have hkey := (latestBackupKey_eq_some_iff.mp hlatest).1
  rw [removePrefix_spec (Bucket.mem_keysUnder.mp hkey).2]
  exact latest_after_mirror (fun k => (mirror_ok hmirror hno k).1)
    (fun k => (mirror_ok hmirror hno k).2) hlatest

/-- A finished job in whose local bucket no newer backup was left in place has restored production's
newest backup; an object that was there under its key before is not copied again. -/
theorem downsync_restores_production (hleft : NoNewerLeft prod settings s.bucket) :
    ∃ key o, latestBackupKey settings.dbBackups (prodBackups prod settings)=some key ∧
      key=backupPrefix settings.dbBackups ++ restored ∧ prod.get? key=some o ∧
      s'.database=some ((s.bucket.get? key).getD o).data := by
  have hprod := (restored_newest_iff h).mpr hleft
  obtain ⟨mid,hmirror,hno,hrestore⟩ := jobDownsync_complete h
  obtain ⟨key,o,hlatest,rfl,hget,hdata⟩ := runRestore_ok hrestore
  have hkey := (latestBackupKey_eq_some_iff.mp hlatest).1
  rw [removePrefix_spec (Bucket.mem_keysUnder.mp hkey).2] at hprod ⊢
  rw [(mirror_ok hmirror hno key).1 (newest_isMirrored hprod)] at hget
  obtain ⟨o',ho',rfl⟩ := Option.map_eq_some_iff.mp hget
  exact ⟨key,o',hprod,rfl,ho',hdata⟩

end Complete
end Job

/-! ### Runs of the job -/

def noOutage : Outage := fun _ => none

def reliableTools : DatabaseTools := ⟨fun _ => true,true⟩

def stageSettings (light : Bool) : DownsyncSettings where
  production := false
  prodCredentials := true
  downsyncLight := light
  postgresUrl := true
  standesdbImages := text "standesdb/images"
  standesdbCache := text "standesdb/cache"
  publicGallery := text "public/gallery"
  dbBackups := text "db-backups"

def prodName : PyText := text "production-2026-07-15_03-00-00.dump"

/-- A backup that was made by hand on the stage. -/
def manualName : PyText := text "test-2026-07-16_12-00-00-manual.dump"

def backupKey (name : PyText) : ObjectKey := text "db-backups/" ++ name

def dump (data : List UInt8) : StoredObject := ⟨data,"application/octet-stream"⟩

/-- A bucket with one backup. -/
def oneBackup (name : PyText) (data : List UInt8) : Bucket :=
  Dict.empty.set (backupKey name) (dump data)

@[simp] lemma exec_storageCall_noOutage (s : Stage) :
    exec (storageCall noOutage) s=(.ok ⟨⟩,{ s with calls := s.calls+1 }) := rfl

@[simp] lemma backupPrefix_sample : backupPrefix (text "db-backups")=text "db-backups/" := by decide

lemma get?_oneBackup (name : PyText) (data : List UInt8) :
    (oneBackup name data).get? (backupKey name)=some (dump data) := Dict.get?_set_self _ _ _

lemma backupTime_backupKey {name : PyText} {t : BackupTime} (h : parseBackupTimestamp name=some t) :
    backupTime (text "db-backups") (backupKey name)=some t := by
  rw [backupTime,backupPrefix_sample,removePrefix,backupKey,if_pos (List.prefix_append _ _),
    List.drop_left,h]

lemma prodName_time : backupTime (text "db-backups") (backupKey prodName)=
    some (toLex (Date.of 2026 7 15,10800)) := backupTime_backupKey (by decide +kernel)

lemma manualName_time : backupTime (text "db-backups") (backupKey manualName)=
    some (toLex (Date.of 2026 7 16,43200)) := backupTime_backupKey (by decide +kernel)

lemma latest_prodName :
    latestBackupKey (text "db-backups") [backupKey prodName]=some (backupKey prodName) := by
  simp [latestBackupKey,datedBackupKeys,prodName_time]

lemma latest_manualName : latestBackupKey (text "db-backups")
    [backupKey manualName,backupKey prodName]=some (backupKey manualName) := by
  rw [latestBackupKey_eq_some_iff]
  refine ⟨List.mem_cons_self ..,_,manualName_time,?_⟩
  intro key' hkey' t' ht'
  obtain rfl | hkey' := List.mem_cons.mp hkey'
  · rw [manualName_time] at ht'
    cases ht'
    exact le_rfl
  · obtain rfl := List.mem_singleton.mp hkey'
    rw [prodName_time] at ht'
    cases ht'
    decide +kernel

lemma mirrorPrefix_nothing {prod bucket : Bucket} {start : PyText} {calls : ℕ}
    (hprod : prod.keysUnder start=[]) (hbucket : bucket.keysUnder start=[]) :
    exec (mirrorPrefix noOutage prod start false true) ⟨bucket,none,calls⟩=
      (.ok .empty,⟨bucket,none,calls+2⟩) := by
  simp [mirrorPrefix,exec_bind,listProd,listLocal,hprod,hbucket,MirrorResult.empty]

lemma mirrorPrefix_copies {prod bucket : Bucket} {start : PyText} {calls : ℕ} {key : ObjectKey}
    {o : StoredObject} (hprod : prod.keysUnder start=[key]) (hbucket : bucket.keysUnder start=[])
    (hget : prod.get? key=some o) :
    exec (mirrorPrefix noOutage prod start false true) ⟨bucket,none,calls⟩=
      (.ok ⟨[key],0,[],[]⟩,⟨bucket.set key o,none,calls+4⟩) := by
  simp [mirrorPrefix,exec_bind,exec_map,exec_tryCatch,listProd,listLocal,hprod,hbucket,copyMissing,
    copyKey,downloadProd,uploadLocal,hget]

lemma runRestore_sample {light : Bool} {bucket : Bucket} {calls : ℕ} {name : PyText} {o : StoredObject}
    (hlatest : latestBackupKey (text "db-backups") (bucket.keysUnder (text "db-backups/"))=
      some (backupKey name)) (hget : bucket.get? (backupKey name)=some o) :
    exec (runRestore noOutage (stageSettings light) reliableTools none false) ⟨bucket,none,calls⟩=
      (.ok name,⟨bucket,some o.data,calls+2⟩) := by
  rw [backupKey] at hlatest hget
  simp [stageSettings,runRestore,latestBackupName,retryTransientS3,exec_tryCatch,exec_bind,exec_map,
    listLocal,hlatest,removePrefix,downloadLocal,hget,restoreDump,reliableTools]

lemma jobDownsync_sample {light : Bool} {prod bucket after : Bucket} {result : MirrorResult}
    {calls : ℕ} {name : PyText} {o : StoredObject}
    (hmirror : exec (mirror noOutage prod (stageSettings light)) ⟨bucket,none,0⟩=
      (.ok result,⟨after,none,calls⟩)) (hno : result.hasErrors=false)
    (hlatest : latestBackupKey (text "db-backups") (after.keysUnder (text "db-backups/"))=
      some (backupKey name)) (hget : after.get? (backupKey name)=some o) :
    jobDownsync noOutage prod (stageSettings light) reliableTools ⟨bucket,none,0⟩=
      (.complete result name,⟨after,some o.data,calls+2⟩) := by
  rw [jobDownsync,hmirror]
  dsimp only
  rw [runRestore_sample hlatest hget,hno]
  rfl

/-- The bucket of the stage after production's backup was copied and the local one deleted. -/
def mirroredBucket : Bucket :=
  ((oneBackup manualName [2]).set (backupKey prodName) (dump [1])).erase (backupKey manualName)

lemma fullMirror : exec (mirror noOutage (oneBackup prodName [1]) (stageSettings false))
    ⟨oneBackup manualName [2],none,0⟩=
      (.ok ⟨[backupKey prodName],0,[backupKey manualName],[]⟩,⟨mirroredBucket,none,5⟩) := by
  have hprod : (oneBackup prodName [1]).keysUnder []=[backupKey prodName] := by decide
  have hbucket : (oneBackup manualName [2]).keysUnder []=[backupKey manualName] := by decide
  have hne : backupKey prodName ≠ backupKey manualName := by decide
  simp [stageSettings,mirror,mirrorPrefix,exec_bind,exec_map,exec_tryCatch,listProd,listLocal,hprod,
    hbucket,hne,hne.symm,copyMissing,copyKey,downloadProd,uploadLocal,get?_oneBackup,deleteOrphan,
    deleteLocal,mirroredBucket]

theorem downsync_restores_production_full : ∃ s',
    jobDownsync noOutage (oneBackup prodName [1]) (stageSettings false) reliableTools
      ⟨oneBackup manualName [2],none,0⟩=
        (.complete ⟨[backupKey prodName],0,[backupKey manualName],[]⟩ prodName,s') ∧
    ∃ key o, latestBackupKey (text "db-backups") (prodBackups (oneBackup prodName [1])
        (stageSettings false))=some key ∧ key=backupPrefix (text "db-backups") ++ prodName ∧
      (oneBackup prodName [1]).get? key=some o ∧
      s'.database=some (((oneBackup manualName [2]).get? key).getD o).data := by
  have hkeys : mirroredBucket.keysUnder (text "db-backups/")=[backupKey prodName] := by decide
  have hget : (oneBackup prodName [1]).get? (backupKey prodName)=some (dump [1]) := by decide
  have hrun := jobDownsync_sample fullMirror rfl (hkeys ▸ latest_prodName) hget
  have hleft : NoNewerLeft (oneBackup prodName [1]) (stageSettings false)
      (oneBackup manualName [2]) := by
    intro key _ hnot
    exact absurd ⟨[],List.mem_singleton_self _,List.nil_prefix⟩ hnot
  exact ⟨_,hrun,downsync_restores_production hrun hleft⟩

/-- The bucket of the stage after the light mode copied production's backup. -/
def lightBucket : Bucket := (oneBackup manualName [2]).set (backupKey prodName) (dump [1])

lemma lightMirror : exec (mirror noOutage (oneBackup prodName [1]) (stageSettings true))
    ⟨oneBackup manualName [2],none,0⟩=
      (.ok ⟨[backupKey prodName],0,[],[]⟩,⟨lightBucket,none,11⟩) := by
  have hlist : (oneBackup prodName [1]).keysUnder (text "db-backups/")=[backupKey prodName] := by
    decide
  have hkey : (oneBackup prodName [1]).keysUnder (backupKey prodName)=[backupKey prodName] := by
    decide
  have hkey' : (oneBackup manualName [2]).keysUnder (backupKey prodName)=[] := by decide
  have hprod : ∀ path ∈ [text "standesdb/images",text "standesdb/cache",text "public/gallery"],
      (oneBackup prodName [1]).keysUnder (backupPrefix path)=[] := by decide
  have hbucket : ∀ path ∈ [text "standesdb/images",text "standesdb/cache",text "public/gallery"],
      (oneBackup manualName [2]).keysUnder (backupPrefix path)=[] := by decide
  simp [mirror,stageSettings,mirrorLight,exec_bind,exec_map,listProd,hlist,latest_prodName,
    lightPrefixes,mirrorPart,mirrorPrefix_nothing,hprod,hbucket,
    mirrorPrefix_copies hkey hkey' (get?_oneBackup prodName [1]),lightBucket]
  rfl

lemma sameMirror : exec (mirror noOutage (oneBackup prodName [1]) (stageSettings false))
    ⟨oneBackup prodName [2],none,0⟩=(.ok ⟨[],1,[],[]⟩,⟨oneBackup prodName [2],none,2⟩) := by
  have hkeys : ∀ data, (oneBackup prodName data).keysUnder []=[backupKey prodName] := by
    intro data
    rfl
  simp [stageSettings,mirror,mirrorPrefix,exec_bind,listProd,listLocal,hkeys]

/-- The light mode restores a newer local backup; and what lies under the key of production's newest
backup is restored as it was. -/
theorem other_content_restored :
    (∃ result s', jobDownsync noOutage (oneBackup prodName [1]) (stageSettings true) reliableTools
        ⟨oneBackup manualName [2],none,0⟩=(.complete result manualName,s') ∧
      s'.database=some [2] ∧ backupKey manualName ∉ prodBackups (oneBackup prodName [1])
        (stageSettings true)) ∧
    ∃ result s', jobDownsync noOutage (oneBackup prodName [1]) (stageSettings false) reliableTools
        ⟨oneBackup prodName [2],none,0⟩=(.complete result prodName,s') ∧
      s'.database=some [2] ∧ (oneBackup prodName [1]).get? (backupKey prodName)=some (dump [1]) := by
  constructor
  · have hkeys : lightBucket.keysUnder (text "db-backups/")=
        [backupKey manualName,backupKey prodName] := by decide
    exact ⟨_,_,jobDownsync_sample lightMirror rfl (hkeys ▸ latest_manualName)
      (show _=some (dump [2]) by decide),rfl,by decide⟩
  · have hkeys : (oneBackup prodName [2]).keysUnder (text "db-backups/")=[backupKey prodName] := by
      decide
    exact ⟨_,_,jobDownsync_sample sameMirror rfl (hkeys ▸ latest_prodName)
      (get?_oneBackup prodName [2]),rfl,get?_oneBackup prodName [1]⟩

end VbApi.Storage
