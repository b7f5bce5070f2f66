import VbApi.Storage.Downsync

/-! What a mirror without errors leaves: production's keys under the mirrored prefixes, and all other
keys of the local bucket. -/
namespace VbApi.Storage
open VbApi.Foundations Stateful

lemma Bucket.mem_keysUnder {b : Bucket} {start : PyText} {key : ObjectKey} :
    key ∈ b.keysUnder start ↔ (∃ o, b.get? key=some o) ∧ start <+: key := by
  rw [Bucket.keysUnder,List.mem_filter,Dict.mem_keys_iff,decide_eq_true_eq]

/-- The keys that one bucket has and the other has not. -/
lemma mem_difference {a b : Bucket} {start : PyText} {key : ObjectKey} :
    key ∈ sortBy id ((a.keysUnder start).filter (· ∉ b.keysUnder start)) ↔
      start <+: key ∧ (a.get? key).isSome ∧ b.get? key=none := by
  rw [mem_sortBy,List.mem_filter,decide_eq_true_eq,Bucket.mem_keysUnder,Bucket.mem_keysUnder,
    Option.isSome_iff_exists]
  cases b.get? key with
  | none => simp [and_comm]
  | some o => simp

/-- What a mirrored key holds: production's object, unless there was one before. -/
def mirrored (prod bucket : Bucket) (key : ObjectKey) : Option StoredObject :=
  (prod.get? key).map fun o => (bucket.get? key).getD o

section Calls
variable {outage : Outage} {prod : Bucket} {settings : DownsyncSettings} {tools : DatabaseTools}
variable {s s' : Stage} {key : ObjectKey} {start : PyText}

lemma exec_storageCall : exec (storageCall outage) s=
    (match outage s.calls with
      | some e => .error e
      | none => .ok ⟨⟩,{ s with calls := s.calls+1 }) := by
  rw [storageCall,exec_bind,exec_get]
  dsimp only
  rw [exec_bind,exec_modify]
  cases h : outage s.calls <;> rfl

/-- A call by itself changes neither the bucket nor the database. -/
lemma storageCall_bucket {r : Except DownsyncError PUnit} (h : exec (storageCall outage) s=(r,s')) :
    s'.bucket=s.bucket := by
  rw [exec_storageCall] at h
  cases h
  rfl

lemma listProd_ok {keys : List ObjectKey} (h : exec (listProd outage prod start) s=(.ok keys,s')) :
    keys=prod.keysUnder start ∧ s'.bucket=s.bucket := by
  obtain ⟨_,mid,hcall,hrest⟩ := exec_bind_eq_ok_iff.mp h
  cases hrest
  exact ⟨rfl,storageCall_bucket hcall⟩

lemma listLocal_ok {keys : List ObjectKey} (h : exec (listLocal outage start) s=(.ok keys,s')) :
    keys=s.bucket.keysUnder start ∧ s'.bucket=s.bucket := by
  obtain ⟨_,mid,hcall,hrest⟩ := exec_bind_eq_ok_iff.mp h
  cases hrest
  rw [← storageCall_bucket hcall]
  exact ⟨rfl,rfl⟩

lemma downloadProd_ok {o : StoredObject} (h : exec (downloadProd outage prod key) s=(.ok o,s')) :
    prod.get? key=some o ∧ s'.bucket=s.bucket := by
  obtain ⟨_,mid,hcall,hrest⟩ := exec_bind_eq_ok_iff.mp h
  cases hget : prod.get? key with
  | none =>
    rw [hget] at hrest
    cases hrest
  | some o' =>
    rw [hget] at hrest
    cases hrest
    exact ⟨rfl,storageCall_bucket hcall⟩

lemma downloadLocal_ok {data : List UInt8} (h : exec (downloadLocal outage key) s=(.ok data,s')) :
    (∃ o, s.bucket.get? key=some o ∧ o.data=data) ∧ s'.bucket=s.bucket := by
  obtain ⟨_,mid,hcall,hrest⟩ := exec_bind_eq_ok_iff.mp h
  obtain ⟨stage,_,hstage,hrest⟩ := exec_bind_eq_ok_iff.mp hrest
  cases hstage
  rw [← storageCall_bucket hcall]
  cases hget : mid.bucket.get? key with
  | none =>
    rw [hget] at hrest
    cases hrest
  | some o =>
    rw [hget] at hrest
    cases hrest
    exact ⟨⟨o,rfl,rfl⟩,rfl⟩

lemma uploadLocal_ok {o : StoredObject} {u : PUnit} (h : exec (uploadLocal outage key o) s=(.ok u,s')) :
    s'.bucket=s.bucket.set key o := by
  obtain ⟨_,mid,hcall,hrest⟩ := exec_bind_eq_ok_iff.mp h
  cases hrest
  obtain hcall | ⟨e,_,-,hthrow⟩ := exec_tryCatch_eq_ok_iff.mp hcall
  · rw [← storageCall_bucket hcall]
  · cases hthrow

lemma copyKey_ok {u : PUnit} (h : exec (copyKey outage prod key) s=(.ok u,s')) :
    ∃ o, prod.get? key=some o ∧ s'.bucket=s.bucket.set key o := by
  obtain ⟨o,mid,hdownload,hupload⟩ := exec_bind_eq_ok_iff.mp h
  obtain ⟨hget,hsame⟩ := downloadProd_ok hdownload
  rw [← hsame]
  exact ⟨o,hget,uploadLocal_ok hupload⟩

/-! ### Mirroring -/

/-- A round without a new error copies its key. -/
lemma copyMissing_ok {result result' : MirrorResult}
    (h : exec (copyMissing outage prod false result key) s=(.ok result',s')) :
    (∃ o, prod.get? key=some o ∧ s'.bucket=s.bucket.set key o ∧ result'.errors=result.errors) ∨
      result'.errors ≠ [] := by
  obtain h | ⟨e,mid,-,hrecord⟩ := exec_tryCatch_eq_ok_iff.mp h
  · obtain ⟨_,mid,hcopy,hrest⟩ := exec_bind_eq_ok_iff.mp h
    cases hrest
    obtain ⟨o,hget,hset⟩ := copyKey_ok hcopy
    exact .inl ⟨o,hget,hset,rfl⟩
  · cases hrecord
    exact .inr (by simp)

/-- Copies without an error bring all their keys. -/
lemma foldlM_copyMissing_ok {keys : List ObjectKey} {result result' : MirrorResult}
    (h : exec (keys.foldlM (copyMissing outage prod false) result) s=(.ok result',s'))
    (hno : result'.errors=[]) :
    result.errors=[] ∧
      ∀ k, s'.bucket.get? k=if k ∈ keys then prod.get? k else s.bucket.get? k := by
  induction keys generalizing result s with
  | nil =>
    cases h
    exact ⟨hno,fun k => by simp⟩
  | cons key keys ih =>
    rw [List.foldlM_cons,exec_bind_eq_ok_iff] at h
    obtain ⟨part,mid,hround,hrest⟩ := h
    obtain ⟨hpart,hkeys⟩ := ih hrest
    obtain ⟨o,hget,hset,herrors⟩ | hne := copyMissing_ok hround
    · refine ⟨herrors.symm.trans hpart,?_⟩
      intro k
      rw [hkeys,hset,Dict.get?_set]
      by_cases hk : k=key
      · simp [hk,hget]
      · simp [hk]
    · exact absurd hpart hne

lemma foldlM_deleteOrphan_ok {keys deleted deleted' : List ObjectKey}
    (h : exec (keys.foldlM (deleteOrphan outage false) deleted) s=(.ok deleted',s')) :
    ∀ k, s'.bucket.get? k=if k ∈ keys then none else s.bucket.get? k := by
  induction keys generalizing deleted s with
  | nil =>
    cases h
    simp
  | cons key keys ih =>
    rw [List.foldlM_cons,exec_bind_eq_ok_iff] at h
    obtain ⟨part,mid,hround,hrest⟩ := h
    obtain ⟨_,after,hdelete,hround⟩ := exec_bind_eq_ok_iff.mp hround
    cases hround
    obtain ⟨_,called,hcall,herase⟩ := exec_bind_eq_ok_iff.mp hdelete
    cases herase
    intro k
    rw [ih hrest]
    dsimp only
    rw [Dict.get?_erase,storageCall_bucket hcall]
    by_cases hk : k=key <;> simp [hk]

/-- A mirror without an error: under its prefix the local keys are those of production. -/
lemma mirrorPrefix_ok {result : MirrorResult}
    (h : exec (mirrorPrefix outage prod start false true) s=(.ok result,s'))
    (hno : result.errors=[]) (k : ObjectKey) :
    s'.bucket.get? k=if start <+: k then mirrored prod s.bucket k else s.bucket.get? k := by
  obtain ⟨sourceKeys,s₁,hsource,h⟩ := exec_bind_eq_ok_iff.mp h
  obtain ⟨destKeys,s₂,hdest,h⟩ := exec_bind_eq_ok_iff.mp h
  obtain ⟨rfl,hsame₁⟩ := listProd_ok hsource
  obtain ⟨rfl,hsame₂⟩ := listLocal_ok hdest
  simp only [if_true,true_and] at h
  split_ifs at h
  · rw [exec_throw_bind] at h
    cases h
  · obtain ⟨copied,s₄,hcopies,h⟩ := exec_bind_eq_ok_iff.mp h
    obtain ⟨deleted,s₅,hdeletes,h⟩ := exec_bind_eq_ok_iff.mp h
    cases h
    obtain ⟨-,hcopied⟩ := foldlM_copyMissing_ok hcopies hno
    rw [foldlM_deleteOrphan_ok hdeletes,hcopied,hsame₂,hsame₁]
    simp only [mem_difference,mirrored]
    by_cases hstart : start <+: k
    · cases hprod : prod.get? k with
      | none => cases hlocal : s.bucket.get? k <;> simp [hstart]
      | some o => cases hlocal : s.bucket.get? k <;> simp [hstart]
    · simp [hstart]

/-- One prefix after the other. -/
lemma foldlM_mirrorPart_ok {starts : List PyText} {result result' : MirrorResult}
    (h : exec (starts.foldlM (mirrorPart outage prod false true) result) s=(.ok result',s'))
    (hno : result'.errors=[]) :
    result.errors=[] ∧ ∀ k, s'.bucket.get? k=
      if ∃ start ∈ starts, start <+: k then mirrored prod s.bucket k else s.bucket.get? k := by
  induction starts generalizing result s with
  | nil =>
    cases h
    exact ⟨hno,fun k => by simp⟩
  | cons start starts ih =>
    rw [List.foldlM_cons,exec_bind_eq_ok_iff] at h
    obtain ⟨total,mid,hround,hrest⟩ := h
    obtain ⟨part,mid',hmirror,hround⟩ := exec_bind_eq_ok_iff.mp hround
    cases hround
    obtain ⟨htotal,hlater⟩ := ih hrest
    obtain ⟨hresult,hpart⟩ := List.append_eq_nil_iff.mp htotal
    refine ⟨hresult,?_⟩
    intro k
    have hfirst := mirrorPrefix_ok hmirror hpart k
    rw [hlater,mirrored,hfirst]
    by_cases hk : start <+: k
    · cases hprod : prod.get? k <;> simp [hk,mirrored,hprod]
    · simp [hk,mirrored]

end Calls

section Job
variable (prod : Bucket) (settings : DownsyncSettings)

/-- The keys of production's backups. -/
def prodBackups : List ObjectKey := prod.keysUnder (backupPrefix settings.dbBackups)

/-- The prefixes that the job mirrors: all keys, or those of the light mode. -/
def mirroredPrefixes : List PyText :=
  if settings.downsyncLight then
    ((latestBackupKey settings.dbBackups (prodBackups prod settings)).map
      (lightPrefixes settings)).getD []
  else [[]]

def IsMirrored (key : ObjectKey) : Prop := ∃ start ∈ mirroredPrefixes prod settings, start <+: key

/-- No local backup that the mirror leaves in place is newer than production's newest one. -/
def NoNewerLeft (bucket : Bucket) : Prop :=
  ∀ key ∈ bucket.keysUnder (backupPrefix settings.dbBackups), ¬ IsMirrored prod settings key →
    ∀ t, backupTime settings.dbBackups key=some t →
      ∃ key' ∈ prodBackups prod settings, ∃ t', backupTime settings.dbBackups key'=some t' ∧
        toLex (t,key) ≤ toLex (t',key')

variable {prod settings} {outage : Outage} {tools : DatabaseTools} {s s' : Stage} {key : ObjectKey}

/-- Production's newest backup is mirrored in both modes. -/
lemma newest_isMirrored {newest : ObjectKey}
    (h : latestBackupKey settings.dbBackups (prodBackups prod settings)=some newest) :
    IsMirrored prod settings newest := by
  rw [IsMirrored,mirroredPrefixes]
  split_ifs
  · rw [h]
    exact ⟨newest,List.mem_append_right _ (List.mem_singleton_self _),List.prefix_refl _⟩
  · exact ⟨[],List.mem_singleton_self _,List.nil_prefix⟩

lemma mirror_ok {result : MirrorResult} (h : exec (mirror outage prod settings) s=(.ok result,s'))
    (hno : result.errors=[]) (k : ObjectKey) :
    (IsMirrored prod settings k → s'.bucket.get? k=mirrored prod s.bucket k) ∧
      (¬ IsMirrored prod settings k → s'.bucket.get? k=s.bucket.get? k) := by
  rw [mirror] at h
  split_ifs at h with hlight
  · obtain ⟨keys,mid,hkeys,h⟩ := exec_bind_eq_ok_iff.mp h
    obtain ⟨rfl,hsame⟩ := listProd_ok hkeys
    cases hlatest : latestBackupKey settings.dbBackups
        (prod.keysUnder (backupPrefix settings.dbBackups)) with
    | none =>
      rw [hlatest] at h
      cases h
    | some newest =>
      have hprefixes : mirroredPrefixes prod settings=lightPrefixes settings newest := by
        rw [mirroredPrefixes,if_pos hlight,prodBackups,hlatest]
        rfl
      rw [hlatest] at h
      have hk := (foldlM_mirrorPart_ok h hno).2 k
      rw [hsame,← hprefixes] at hk
      exact ⟨fun hmirrored => hk.trans (if_pos hmirrored),fun hleft => hk.trans (if_neg hleft)⟩
  · have hall : IsMirrored prod settings k := by
      rw [IsMirrored,mirroredPrefixes,if_neg hlight]
      exact ⟨[],List.mem_singleton_self _,List.nil_prefix⟩
    have hk := mirrorPrefix_ok h hno k
    rw [if_pos List.nil_prefix] at hk
    exact ⟨fun _ => hk,fun hleft => absurd hall hleft⟩

end Job
end VbApi.Storage
