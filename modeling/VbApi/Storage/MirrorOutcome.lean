import VbApi.Storage.Mirroring

/-! What a mirror of one prefix leaves and reports, whichever of its copies fail. -/
namespace VbApi.Storage
open VbApi.Foundations Stateful

/-! ### The copies that fail -/

section Failures
variable (outage : Outage)

/-- A copy that begins with the call `n` downloads and uploads. -/
def copyFails (n : ℕ) : Bool := (outage n).isSome || (outage (n+1)).isSome

/-- After a failed download there is no upload. -/
def copyCalls (n : ℕ) : ℕ := if (outage n).isSome then 1 else 2

/-- The keys whose copy fails when the copies begin with the call `n`. -/
def failedCopies : List ObjectKey → ℕ → List ObjectKey
  | [],_ => []
  | key::keys,n =>
    if copyFails outage n then key::failedCopies keys (n+copyCalls outage n)
    else failedCopies keys (n+copyCalls outage n)

/-- The number of the first call after the copies. -/
def callsAfter : List ObjectKey → ℕ → ℕ
  | [],n => n
  | _::keys,n => callsAfter keys (n+copyCalls outage n)

end Failures

variable {outage : Outage} {prod : Bucket} {s : Stage} {start : PyText}

/-! ### One call, one copy, one deletion -/

lemma storageCall_works (h : outage s.calls=none) :
    exec (storageCall outage) s=(.ok ⟨⟩,{ s with calls := s.calls+1 }) := by
  rw [exec_storageCall,h]

lemma downloadProd_eq {key : ObjectKey} {o : StoredObject} (hkey : prod.get? key=some o) :
    exec (downloadProd outage prod key) s=
      (match outage s.calls with
        | some e => .error e
        | none => .ok o,{ s with calls := s.calls+1 }) := by
  rw [downloadProd,exec_bind,exec_storageCall]
  cases outage s.calls with
  | some e => rfl
  | none =>
    dsimp only
    rw [hkey]
    rfl

lemma uploadLocal_eq (key : ObjectKey) (o : StoredObject) :
    exec (uploadLocal outage key o) s=
      match outage s.calls with
      | some e => (.error (if e=.clientError then .uploadFailed key else e),{ s with calls := s.calls+1 })
      | none => (.ok ⟨⟩,{ s with calls := s.calls+1, bucket := s.bucket.set key o }) := by
  rw [uploadLocal,exec_bind,exec_tryCatch,exec_storageCall]
  cases outage s.calls with
  | some e => rfl
  | none => rfl

/-- A round copies its key, or records the failure and leaves the bucket. -/
lemma copyMissing_eq {key : ObjectKey} {o : StoredObject} (hkey : prod.get? key=some o)
    (result : MirrorResult) :
    exec (copyMissing outage prod false result key) s=
      if copyFails outage s.calls then
        (.ok { result with errors := result.errors ++ [key] },
          { s with calls := s.calls+copyCalls outage s.calls })
      else
        (.ok { result with synced := result.synced ++ [key] },
          { s with calls := s.calls+copyCalls outage s.calls, bucket := s.bucket.set key o }) := by
  have hround : exec (copyMissing outage prod false result key) s=
      exec (tryCatch (do
        copyKey outage prod key
        return { result with synced := result.synced ++ [key] })
        fun _ => return { result with errors := result.errors ++ [key] }) s := rfl
  rw [hround,exec_tryCatch,exec_bind,copyKey,exec_bind,downloadProd_eq hkey,copyFails,copyCalls]
  cases hdownload : outage s.calls with
  | some e => rfl
  | none =>
    dsimp only
    rw [uploadLocal_eq]
    dsimp only
    cases hupload : outage (s.calls+1) with
    | some e => rfl
    | none => rfl

lemma deleteOrphan_eq (h : outage s.calls=none) (deleted : List ObjectKey) (key : ObjectKey) :
    exec (deleteOrphan outage false deleted key) s=
      (.ok (deleted ++ [key]),{ s with calls := s.calls+1, bucket := s.bucket.erase key }) := by
  have hround : exec (deleteOrphan outage false deleted key) s=
      exec (do
        deleteLocal outage key
        return deleted ++ [key]) s := rfl
  rw [hround,exec_bind,deleteLocal,exec_bind,storageCall_works h]
  rfl

/-! ### The loops -/

lemma failedCopies_sublist (keys : List ObjectKey) (n : ℕ) : (failedCopies outage keys n).Sublist keys := by
  induction keys generalizing n with
  | nil => exact List.Sublist.refl _
  | cons key keys ih =>
    rw [failedCopies]
    split_ifs
    · exact (ih _).cons_cons key
    · exact (ih _).cons key

/-- The copies bring the keys that do not fail. -/
lemma foldlM_copyMissing_eq {keys : List ObjectKey} (hnodup : keys.Nodup)
    (hkeys : ∀ key ∈ keys, ∃ o, prod.get? key=some o) (result : MirrorResult) :
    ∃ s', exec (keys.foldlM (copyMissing outage prod false) result) s=
        (.ok { result with
          synced := result.synced ++ keys.filter (· ∉ failedCopies outage keys s.calls)
          errors := result.errors ++ failedCopies outage keys s.calls },s') ∧
      s'.calls=callsAfter outage keys s.calls ∧
      ∀ k, s'.bucket.get? k=
        if k ∈ keys ∧ k ∉ failedCopies outage keys s.calls then prod.get? k else s.bucket.get? k := by
  induction keys generalizing result s with
  | nil => exact ⟨s,by simp [failedCopies],rfl,by simp⟩
  | cons key keys ih =>
    obtain ⟨hfresh,hnodup⟩ := List.nodup_cons.mp hnodup
    obtain ⟨o,hkey⟩ := hkeys key List.mem_cons_self
    have hrest := fun key' hkey' => hkeys key' (List.mem_cons_of_mem _ hkey')
    have hround := @copyMissing_eq outage _ s _ _ hkey result
    rw [List.foldlM_cons,exec_bind,hround]
    split_ifs with hfails
    · obtain ⟨s',hs',hcalls,hget⟩ := ih (s := { s with calls := s.calls+copyCalls outage s.calls })
        hnodup hrest { result with errors := result.errors ++ [key] }
      have hfilter : (key::keys).filter (· ∉ failedCopies outage (key::keys) s.calls)=
          keys.filter (· ∉ failedCopies outage keys (s.calls+copyCalls outage s.calls)) := by
        rw [failedCopies,if_pos hfails,List.filter_cons_of_neg (by simp)]
        apply List.filter_congr
        intro k hk
        have hne : k ≠ key := ne_of_mem_of_not_mem hk hfresh
        simp [hne]
      refine ⟨s',?_,hcalls,?_⟩
      · dsimp only
        rw [hs',hfilter,failedCopies,if_pos hfails,List.append_assoc]
        rfl
      · intro k
        rw [hget,failedCopies,if_pos hfails]
        by_cases hk : k=key
        · simp [hk,hfresh]
        · simp [hk]
    · obtain ⟨s',hs',hcalls,hget⟩ := ih (s := { s with
          calls := s.calls+copyCalls outage s.calls, bucket := s.bucket.set key o })
        hnodup hrest { result with synced := result.synced ++ [key] }
      have hcopied : key ∉ failedCopies outage keys (s.calls+copyCalls outage s.calls) :=
        fun h => hfresh ((failedCopies_sublist _ _).subset h)
      refine ⟨s',?_,hcalls,?_⟩
      · dsimp only
        rw [hs',failedCopies,if_neg hfails,List.filter_cons_of_pos (by simpa using hcopied),
          List.append_assoc]
        rfl
      · intro k
        rw [hget,failedCopies,if_neg hfails]
        by_cases hk : k=key
        · subst hk
          simp [hfresh,hcopied,hkey]
        · simp [hk]

/-- Without a failing call all keys are deleted. -/
lemma foldlM_deleteOrphan_eq {keys : List ObjectKey} (h : ∀ n, s.calls ≤ n → outage n=none)
    (deleted : List ObjectKey) :
    ∃ s', exec (keys.foldlM (deleteOrphan outage false) deleted) s=(.ok (deleted ++ keys),s') := by
  induction keys generalizing deleted s with
  | nil => exact ⟨s,by simp⟩
  | cons key keys ih =>
    rw [List.foldlM_cons,exec_bind,deleteOrphan_eq (h _ le_rfl)]
    obtain ⟨s',hs'⟩ := ih (s := { s with calls := s.calls+1, bucket := s.bucket.erase key })
      (fun n hn => h n ((Nat.le_succ _).trans hn)) (deleted ++ [key])
    exact ⟨s',by dsimp only; rw [hs',List.append_assoc]; rfl⟩

lemma foldlM_copyMissing_dry (keys : List ObjectKey) (result : MirrorResult) :
    exec (keys.foldlM (copyMissing outage prod true) result) s=
      (.ok { result with synced := result.synced ++ keys },s) := by
  induction keys generalizing result with
  | nil => simp
  | cons key keys ih =>
    have hround : exec (copyMissing outage prod true result key) s=
        (.ok { result with synced := result.synced ++ [key] },s) := rfl
    rw [List.foldlM_cons,exec_bind,hround]
    dsimp only
    rw [ih,List.append_assoc]
    rfl

lemma foldlM_deleteOrphan_dry (keys deleted : List ObjectKey) :
    exec (keys.foldlM (deleteOrphan outage true) deleted) s=(.ok (deleted ++ keys),s) := by
  induction keys generalizing deleted with
  | nil => simp
  | cons key keys ih =>
    have hround : exec (deleteOrphan outage true deleted key) s=(.ok (deleted ++ [key]),s) := rfl
    rw [List.foldlM_cons,exec_bind,hround]
    dsimp only
    rw [ih,List.append_assoc]
    rfl

/-! ### The mirror -/

section Mirror
variable (outage prod start) (dryRun deleteOrphans : Bool) (before : Stage)

/-- The keys that the source has and the destination has not. -/
def missingKeys : List ObjectKey :=
  sortBy id ((prod.keysUnder start).filter (· ∉ before.bucket.keysUnder start))

/-- The keys that the destination has and the source has not. -/
def orphanKeys : List ObjectKey :=
  sortBy id ((before.bucket.keysUnder start).filter (· ∉ prod.keysUnder start))

/-- The keys whose copy fails. -/
def failedKeys : List ObjectKey := failedCopies outage (missingKeys prod start before) (before.calls+2)

/-- Only calls of the copies fail, not the listings and the deletions. -/
structure CopyFailuresOnly : Prop where
  source_list : outage before.calls=none
  dest_list : outage (before.calls+1)=none
  deletions : dryRun=false → ∀ n, callsAfter outage (missingKeys prod start before) (before.calls+2) ≤ n →
    outage n=none

/-- The source looks empty and orphans would be deleted. -/
def RefusesToDelete : Prop :=
  deleteOrphans=true ∧ (∃ key, start <+: key ∧ (before.bucket.get? key).isSome) ∧
    ∀ key, start <+: key → prod.get? key=none

/-- What a mirror leaves and reports. -/
structure MirrorPost (after : Stage) (result : MirrorResult) : Prop where
  copied : dryRun=false → ∀ key o, start <+: key → prod.get? key=some o →
    before.bucket.get? key=none → key ∉ failedKeys outage prod start before →
    after.bucket.get? key=some o
  not_overwritten : ∀ key o, before.bucket.get? key=some o →
    after.bucket.get? key=some o ∨ after.bucket.get? key=none
  kept : ∀ key o, before.bucket.get? key=some o → (prod.get? key).isSome → after.bucket.get? key=some o
  orphans_gone : dryRun=false → deleteOrphans=true →
    ∀ key ∈ after.bucket.keysUnder start, key ∈ prod.keysUnder start
  nothing_deleted : deleteOrphans=false → ∀ key o, before.bucket.get? key=some o →
    after.bucket.get? key=some o
  outside : ∀ key, ¬ start <+: key → after.bucket.get? key=before.bucket.get? key
  dry : dryRun=true → after.bucket=before.bucket ∧ result.errors=[]
  errors : dryRun=false → result.errors=failedKeys outage prod start before
  attempts : (result.synced ++ result.errors).Perm (missingKeys prod start before)
  deleted : result.deleted=if deleteOrphans then orphanKeys prod start before else []
  synced_iff : dryRun=false → ∀ key, key ∈ result.synced ↔
    before.bucket.get? key=none ∧ (after.bucket.get? key).isSome
  deleted_iff : dryRun=false → ∀ key, key ∈ result.deleted ↔
    (before.bucket.get? key).isSome ∧ after.bucket.get? key=none

end Mirror

section Outcome
variable {dryRun deleteOrphans : Bool} {before : Stage}

lemma listProd_eq (h : outage s.calls=none) : exec (listProd outage prod start) s=
    (.ok (prod.keysUnder start),{ s with calls := s.calls+1 }) := by
  rw [listProd,exec_bind,storageCall_works h]
  rfl

lemma listLocal_eq (h : outage s.calls=none) : exec (listLocal outage start) s=
    (.ok (s.bucket.keysUnder start),{ s with calls := s.calls+1 }) := by
  rw [listLocal,exec_bind,storageCall_works h]
  rfl

lemma mem_missingKeys {key : ObjectKey} : key ∈ missingKeys prod start before ↔
    start <+: key ∧ (prod.get? key).isSome ∧ before.bucket.get? key=none := mem_difference

lemma mem_orphanKeys {key : ObjectKey} : key ∈ orphanKeys prod start before ↔
    start <+: key ∧ (before.bucket.get? key).isSome ∧ prod.get? key=none := mem_difference

lemma missingKeys_nodup : (missingKeys prod start before).Nodup :=
  (sortBy_perm _ _).nodup_iff.mpr ((prod.nodup.filter _).filter _)

/-- What stands after the listings. -/
lemma mirrorPrefix_start (hsource : outage before.calls=none) (hdest : outage (before.calls+1)=none) :
    exec (mirrorPrefix outage prod start dryRun deleteOrphans) before=
      exec (do
        if deleteOrphans ∧ (before.bucket.keysUnder start).filter (· ∉ prod.keysUnder start) ≠ [] ∧
            prod.keysUnder start=[] then
          throw (.emptySource start
            ((before.bucket.keysUnder start).filter (· ∉ prod.keysUnder start)).length)
        let result ← (missingKeys prod start before).foldlM (copyMissing outage prod dryRun)
          ⟨[],(prod.keysUnder start).length-(missingKeys prod start before).length,[],[]⟩
        if deleteOrphans then
          let deleted ← (orphanKeys prod start before).foldlM (deleteOrphan outage dryRun) []
          return { result with deleted := deleted }
        return result) { before with calls := before.calls+2 } := by
  rw [mirrorPrefix,exec_bind,listProd_eq hsource]
  dsimp only
  rw [exec_bind,listLocal_eq hdest]
  rfl

lemma keysUnder_eq_nil_iff {b : Bucket} : b.keysUnder start=[] ↔
    ∀ key, start <+: key → b.get? key=none := by
  simp only [List.eq_nil_iff_forall_not_mem,Bucket.mem_keysUnder,Option.eq_none_iff_forall_ne_some]
  constructor
  · intro h key hstart o ho
    exact h key ⟨⟨o,ho⟩,hstart⟩
  · rintro h key ⟨⟨o,ho⟩,hstart⟩
    exact h key hstart o ho

lemma refusesToDelete_iff : RefusesToDelete prod start deleteOrphans before ↔ deleteOrphans=true ∧
    (before.bucket.keysUnder start).filter (· ∉ prod.keysUnder start) ≠ [] ∧
      prod.keysUnder start=[] := by
  have horphans : prod.keysUnder start=[] →
      ((before.bucket.keysUnder start).filter (· ∉ prod.keysUnder start) ≠ [] ↔
        ∃ key, start <+: key ∧ (before.bucket.get? key).isSome) := by
    intro hempty
    rw [hempty]
    simp only [List.not_mem_nil,not_false_eq_true,decide_true,List.filter_true,ne_eq,
      keysUnder_eq_nil_iff,not_forall,exists_prop,← Option.isSome_iff_ne_none]
  rw [RefusesToDelete,← keysUnder_eq_nil_iff]
  constructor
  · rintro ⟨hdelete,hkey,hempty⟩
    exact ⟨hdelete,(horphans hempty).mpr hkey,hempty⟩
  · rintro ⟨hdelete,hkey,hempty⟩
    exact ⟨hdelete,(horphans hempty).mp hkey,hempty⟩

/-- An empty source is refused before any change. -/
lemma mirrorPrefix_refuses (h : CopyFailuresOnly outage prod start dryRun before)
    (hrefuses : RefusesToDelete prod start deleteOrphans before) : ∃ orphans after,
    exec (mirrorPrefix outage prod start dryRun deleteOrphans) before=
      (.error (.emptySource start orphans),after) ∧ after.bucket=before.bucket := by
  rw [mirrorPrefix_start h.source_list h.dest_list,if_pos (refusesToDelete_iff.mp hrefuses),
    exec_throw_bind]
  exact ⟨_,_,rfl,rfl⟩

/-- Where a key stands after a mirror that is no dry run. -/
def mirroredKey (outage : Outage) (prod : Bucket) (start : PyText) (deleteOrphans : Bool)
    (before : Stage) (key : ObjectKey) : Option StoredObject :=
  if deleteOrphans=true ∧ key ∈ orphanKeys prod start before then none
  else if key ∈ missingKeys prod start before ∧ key ∉ failedKeys outage prod start before then
    prod.get? key
  else before.bucket.get? key

lemma mirrorPrefix_real (h : CopyFailuresOnly outage prod start false before)
    (hnot : ¬ RefusesToDelete prod start deleteOrphans before) : ∃ skipped after,
    exec (mirrorPrefix outage prod start false deleteOrphans) before=
      (.ok ⟨(missingKeys prod start before).filter (· ∉ failedKeys outage prod start before),skipped,
        if deleteOrphans then orphanKeys prod start before else [],
        failedKeys outage prod start before⟩,after) ∧
      ∀ key, after.bucket.get? key=mirroredKey outage prod start deleteOrphans before key := by
  have hkeys : ∀ key ∈ missingKeys prod start before, ∃ o, prod.get? key=some o :=
    fun key hkey => Option.isSome_iff_exists.mp (mem_missingKeys.mp hkey).2.1
  obtain ⟨mid,hcopies,hcalls,hget⟩ := @foldlM_copyMissing_eq outage _
    { before with calls := before.calls+2 } _ missingKeys_nodup hkeys
    ⟨[],(prod.keysUnder start).length-(missingKeys prod start before).length,[],[]⟩
  rw [mirrorPrefix_start h.source_list h.dest_list,if_neg (refusesToDelete_iff.not.mp hnot)]
  dsimp only
  rw [exec_bind,hcopies]
  dsimp only
  cases deleteOrphans with
  | false =>
    refine ⟨_,mid,rfl,?_⟩
    intro key
    rw [hget,mirroredKey]
    simp only [Bool.false_eq_true,false_and,if_false]
    rfl
  | true =>
    obtain ⟨after,hdeletes⟩ := @foldlM_deleteOrphan_eq outage mid (orphanKeys prod start before)
      (fun n hn => h.deletions rfl n (hcalls ▸ hn)) []
    rw [if_pos rfl,exec_bind,hdeletes]
    refine ⟨_,after,rfl,?_⟩
    intro key
    rw [foldlM_deleteOrphan_ok hdeletes,hget,mirroredKey]
    simp only [true_and]
    rfl

lemma mirrorPrefix_dry (h : CopyFailuresOnly outage prod start true before)
    (hnot : ¬ RefusesToDelete prod start deleteOrphans before) : ∃ skipped after,
    exec (mirrorPrefix outage prod start true deleteOrphans) before=
      (.ok ⟨missingKeys prod start before,skipped,
        if deleteOrphans then orphanKeys prod start before else [],[]⟩,after) ∧
      after.bucket=before.bucket := by
  rw [mirrorPrefix_start h.source_list h.dest_list,if_neg (refusesToDelete_iff.not.mp hnot)]
  dsimp only
  rw [exec_bind,foldlM_copyMissing_dry]
  dsimp only
  cases deleteOrphans with
  | false => exact ⟨_,_,rfl,rfl⟩
  | true =>
    rw [if_pos rfl,exec_bind,foldlM_deleteOrphan_dry]
    exact ⟨_,_,rfl,rfl⟩

/-! ### The postcondition -/

lemma mirroredKey_of_local {key : ObjectKey} {o : StoredObject}
    (hlocal : before.bucket.get? key=some o) :
    mirroredKey outage prod start deleteOrphans before key=
      if deleteOrphans=true ∧ key ∈ orphanKeys prod start before then none else some o := by
  have hmissing : key ∉ missingKeys prod start before := fun hmem => by
    rw [(mem_missingKeys.mp hmem).2.2] at hlocal
    contradiction
  rw [mirroredKey,hlocal]
  simp only [hmissing,false_and,if_false]

lemma mirroredKey_of_absent {key : ObjectKey} (habsent : before.bucket.get? key=none) :
    mirroredKey outage prod start deleteOrphans before key=
      if key ∈ missingKeys prod start before ∧ key ∉ failedKeys outage prod start before then
        prod.get? key else none := by
  have horphan : key ∉ orphanKeys prod start before := fun hmem => by
    have hlocal := (mem_orphanKeys.mp hmem).2.1
    rw [habsent] at hlocal
    contradiction
  rw [mirroredKey,if_neg (fun hc => horphan hc.2),habsent]

lemma attempts_perm : ((missingKeys prod start before).filter (· ∉ failedKeys outage prod start before) ++
    failedKeys outage prod start before).Perm (missingKeys prod start before) := by
  have hsub : (failedKeys outage prod start before).Sublist (missingKeys prod start before) :=
    failedCopies_sublist _ _
  have hnodup := @missingKeys_nodup prod start before
  rw [List.perm_ext_iff_of_nodup _ hnodup]
  · intro key
    rw [List.mem_append,List.mem_filter,decide_eq_true_eq]
    constructor
    · rintro (h | h)
      · exact h.1
      · exact hsub.subset h
    · intro h
      by_cases hfailed : key ∈ failedKeys outage prod start before
      · exact .inr hfailed
      · exact .inl ⟨h,hfailed⟩
  · apply (hnodup.filter _).append (hnodup.sublist hsub)
    intro key hkey hfailed
    exact of_decide_eq_true (List.mem_filter.mp hkey).2 hfailed

lemma mirrorPost_real {after : Stage} (skipped : ℕ)
    (hget : ∀ key, after.bucket.get? key=mirroredKey outage prod start deleteOrphans before key) :
    MirrorPost outage prod start false deleteOrphans before after
      ⟨(missingKeys prod start before).filter (· ∉ failedKeys outage prod start before),skipped,
        if deleteOrphans then orphanKeys prod start before else [],
        failedKeys outage prod start before⟩ where
  copied _ key o hstart hprod habsent hworks := by
    have hmissing : key ∈ missingKeys prod start before :=
      mem_missingKeys.mpr ⟨hstart,by rw [hprod]; rfl,habsent⟩
    rw [hget,mirroredKey_of_absent habsent,if_pos ⟨hmissing,hworks⟩,hprod]
  not_overwritten key o hlocal := by
    rw [hget,mirroredKey_of_local hlocal]
    split_ifs
    · exact .inr rfl
    · exact .inl rfl
  kept key o hlocal hprod := by
    rw [hget,mirroredKey_of_local hlocal,if_neg]
    intro horphan
    rw [(mem_orphanKeys.mp horphan.2).2.2] at hprod
    contradiction
  orphans_gone _ hdelete key hkey := by
    obtain ⟨⟨o,ho⟩,hstart⟩ := Bucket.mem_keysUnder.mp hkey
    rw [Bucket.mem_keysUnder,← Option.isSome_iff_exists]
    refine ⟨?_,hstart⟩
    by_contra hprod
    rw [Bool.not_eq_true,Option.isSome_eq_false_iff,Option.isNone_iff_eq_none] at hprod
    rw [hget] at ho
    cases hlocal : before.bucket.get? key with
    | none =>
      rw [mirroredKey_of_absent hlocal,hprod,ite_self] at ho
      contradiction
    | some o' =>
      rw [mirroredKey_of_local hlocal,
        if_pos ⟨hdelete,mem_orphanKeys.mpr ⟨hstart,by rw [hlocal]; rfl,hprod⟩⟩] at ho
      contradiction
  nothing_deleted hdelete key o hlocal := by
    rw [hget,mirroredKey_of_local hlocal,hdelete]
    exact if_neg (fun h => Bool.false_ne_true h.1)
  outside key hstart := by
    rw [hget]
    cases hlocal : before.bucket.get? key with
    | none =>
      rw [mirroredKey_of_absent hlocal]
      exact if_neg (fun h => hstart (mem_missingKeys.mp h.1).1)
    | some o =>
      rw [mirroredKey_of_local hlocal]
      exact if_neg (fun h => hstart (mem_orphanKeys.mp h.2).1)
  dry h := absurd h Bool.false_ne_true
  errors _ := rfl
  attempts := attempts_perm
  deleted := rfl
  synced_iff _ key := by
    rw [List.mem_filter,decide_eq_true_eq,hget]
    constructor
    · intro h
      obtain ⟨-,hprod,habsent⟩ := mem_missingKeys.mp h.1
      rw [mirroredKey_of_absent habsent,if_pos h]
      exact ⟨habsent,hprod⟩
    · rintro ⟨habsent,hafter⟩
      rw [mirroredKey_of_absent habsent] at hafter
      split_ifs at hafter with h
      · exact h
      · contradiction
  deleted_iff _ key := by
    rw [hget]
    constructor
    · intro h
      split_ifs at h with hdelete
      · have hlocal := (mem_orphanKeys.mp h).2.1
        obtain ⟨o,ho⟩ := Option.isSome_iff_exists.mp hlocal
        rw [mirroredKey_of_local ho,if_pos ⟨hdelete,h⟩]
        exact ⟨hlocal,rfl⟩
      · contradiction
    · rintro ⟨hlocal,hafter⟩
      obtain ⟨o,ho⟩ := Option.isSome_iff_exists.mp hlocal
      rw [mirroredKey_of_local ho] at hafter
      split_ifs at hafter with h
      · rw [if_pos h.1]
        exact h.2

lemma mirrorPost_dry {after : Stage} (skipped : ℕ) (hsame : after.bucket=before.bucket) :
    MirrorPost outage prod start true deleteOrphans before after
      ⟨missingKeys prod start before,skipped,
        if deleteOrphans then orphanKeys prod start before else [],[]⟩ where
  copied h := absurd h.symm Bool.false_ne_true
  not_overwritten key o hlocal := .inl (by rw [hsame,hlocal])
  kept key o hlocal _ := by rw [hsame,hlocal]
  orphans_gone h := absurd h.symm Bool.false_ne_true
  nothing_deleted _ key o hlocal := by rw [hsame,hlocal]
  outside key _ := by rw [hsame]
  dry _ := ⟨hsame,rfl⟩
  errors h := absurd h.symm Bool.false_ne_true
  attempts := by rw [List.append_nil]
  deleted := rfl
  synced_iff h := absurd h.symm Bool.false_ne_true
  deleted_iff h := absurd h.symm Bool.false_ne_true

end Outcome

section Law
variable (outage prod start) (dryRun deleteOrphans : Bool) (before : Stage)

/-- The report of a dry run names what a real run tries to copy and deletes, whichever of its copies
fail. -/
def PredictsRealRuns (result : MirrorResult) : Prop :=
  ∀ outage', CopyFailuresOnly outage' prod start false before → ∃ result' after',
    exec (mirrorPrefix outage' prod start false deleteOrphans) before=(.ok result',after') ∧
    result.synced.Perm (result'.synced ++ result'.errors) ∧ result.deleted=result'.deleted

structure MirrorLaw : Prop where
  refuses : RefusesToDelete prod start deleteOrphans before → ∃ orphans after,
    exec (mirrorPrefix outage prod start dryRun deleteOrphans) before=
      (.error (.emptySource start orphans),after) ∧ after.bucket=before.bucket
  runs : ¬ RefusesToDelete prod start deleteOrphans before → ∃ result after,
    exec (mirrorPrefix outage prod start dryRun deleteOrphans) before=(.ok result,after) ∧
    MirrorPost outage prod start dryRun deleteOrphans before after result ∧
    (dryRun=true → PredictsRealRuns prod start deleteOrphans before result)

variable {outage prod start dryRun deleteOrphans before}

theorem mirrorPrefix_law (h : CopyFailuresOnly outage prod start dryRun before) :
    MirrorLaw outage prod start dryRun deleteOrphans before := by
  refine ⟨mirrorPrefix_refuses h,?_⟩
  intro hnot
  cases dryRun with
  | false =>
    obtain ⟨skipped,after,hrun,hget⟩ := mirrorPrefix_real h hnot
    exact ⟨_,after,hrun,mirrorPost_real skipped hget,fun hdry => absurd hdry Bool.false_ne_true⟩
  | true =>
    obtain ⟨skipped,after,hrun,hsame⟩ := mirrorPrefix_dry h hnot
    refine ⟨_,after,hrun,mirrorPost_dry skipped hsame,?_⟩
    intro _ outage' h'
    obtain ⟨skipped',after',hrun',-⟩ := mirrorPrefix_real h' hnot
    exact ⟨_,after',hrun',attempts_perm.symm,rfl⟩

end Law

/-- A source with the keys "a" and "b", a destination with "b" and "c": the copy of "a" fails. -/
theorem mirrorPrefix_law_ab : MirrorLaw (fun n => if n=2 then some .clientError else none)
    (Dict.ofPairs [(text "a",⟨[1],"image/png"⟩),(text "b",⟨[2],"image/png"⟩)]) [] false true
    ⟨Dict.ofPairs [(text "b",⟨[2],"image/png"⟩),(text "c",⟨[3],"image/png"⟩)],none,0⟩ := by
  refine mirrorPrefix_law ⟨rfl,rfl,?_⟩
  intro _ n hn
  have hmissing : missingKeys
      (Dict.ofPairs [(text "a",⟨[1],"image/png"⟩),(text "b",⟨[2],"image/png"⟩)]) []
      ⟨Dict.ofPairs [(text "b",⟨[2],"image/png"⟩),(text "c",⟨[3],"image/png"⟩)],none,0⟩=[text "a"] :=
    (congrArg (sortBy id) (by decide)).trans (sortBy_singleton _ _)
  rw [hmissing] at hn
  have hn : 3 ≤ n := hn
  exact if_neg (by omega)

end VbApi.Storage
