import VbApi.Archive.DirTree
import VbApi.Archive.Reading

/-! The permissions of a directory: its own, and those of the ancestors that pass theirs on. -/
namespace VbApi.Archive
open VbApi.Foundations Parents

/-- `a` is a strict ancestor of `dirId`. -/
def Ancestor (s : ArchiveTables) (dirId a : Uuid) : Prop :=
  Relation.TransGen (parents s.tree).Child dirId a

/-- No directory lies below itself. -/
def Acyclic (s : ArchiveTables) : Prop := ∀ dirId, ¬ Ancestor s dirId dirId

/-- Some strict ancestor passes this permission on. -/
def InheritedKey (s : ArchiveTables) (dirId : Uuid) (key : PyText) : Prop :=
  ∃ a row, Ancestor s dirId a ∧ s.dirs.get? a=some row ∧ row.recursivePermissions=some true ∧
    key ∈ ownPermissions s.permSets row.toArchiveDir

section Chains
variable {s : ArchiveTables} {dirId p : Uuid} {dir : ArchiveDirRow}

lemma get?_tree (s : ArchiveTables) (dirId : Uuid) :
    s.tree.dirs.get? dirId=(s.dirs.get? dirId).map (·.toArchiveDir) := Dict.get?_mapValues _ _ _

lemma parents_tree (s : ArchiveTables) (dirId : Uuid) :
    parents s.tree dirId=(s.dirs.get? dirId).map (·.archiveDirId) := by
  rw [parents,get?_tree,Option.map_map]
  rfl

lemma child_tree_iff {a : Uuid} : (parents s.tree).Child dirId a ↔
    ∃ dir, s.dirs.get? dirId=some dir ∧ dir.archiveDirId=some a := by
  rw [Child,parents_tree,Option.map_eq_some_iff]

lemma parentOf_tree_eq_some {dir : ArchiveDir} {parent : ArchiveDir} :
    parentOf s.tree dir=some (p,parent) ↔
      dir.archiveDirId=some p ∧ ∃ row, s.dirs.get? p=some row ∧ row.toArchiveDir=parent := by
  simp only [parentOf,Option.bind_eq_some_iff,get?_tree,Option.map_map,Option.map_eq_some_iff,
    Function.comp_apply,Prod.mk.injEq]
  constructor
  · rintro ⟨_,hp,row,hrow,rfl,rfl⟩
    exact ⟨hp,row,hrow,rfl⟩
  · rintro ⟨hp,row,hrow,rfl⟩
    exact ⟨p,hp,row,hrow,rfl,rfl⟩

/-- A tree in which every parent has a smaller key has no cycle. -/
lemma acyclic_of_lt (h : ∀ dirId dir, s.dirs.get? dirId=some dir → ∀ p ∈ dir.archiveDirId, p < dirId) :
    Acyclic s := by
  have hlt : ∀ dirId a, Ancestor s dirId a → a < dirId := by
    intro dirId a ha
    induction ha with
    | single hchild =>
      obtain ⟨dir,hdir,hp⟩ := child_tree_iff.mp hchild
      exact h _ _ hdir _ hp
    | tail _ hchild ih =>
      obtain ⟨dir,hdir,hp⟩ := child_tree_iff.mp hchild
      exact (h _ _ hdir _ hp).trans ih
  exact fun dirId hid => lt_irrefl _ (hlt dirId dirId hid)

/-- Induction from the roots down. -/
lemma Acyclic.induction (h : Acyclic s) {motive : Uuid → ArchiveDirRow → Prop}
    (root : ∀ dirId dir, s.dirs.get? dirId=some dir → parentOf s.tree dir.toArchiveDir=none → motive dirId dir)
    (down : ∀ dirId dir p row, s.dirs.get? dirId=some dir → dir.archiveDirId=some p →
      s.dirs.get? p=some row → motive p row → motive dirId dir) :
    ∀ dirId dir, s.dirs.get? dirId=some dir → motive dirId dir := by
  have hfinite : {k | (parents s.tree k).isSome}.Finite := by
    refine (List.finite_toSet s.dirs.keys).subset ?_
    intro k hk
    rw [Set.mem_ofPred_eq,parents_tree,Option.isSome_map,Option.isSome_iff_exists] at hk
    exact (Dict.mem_keys_iff _ _).mpr hk
  intro dirId
  induction dirId using (wellFounded_of_acyclic hfinite h).induction with
  | _ dirId ih =>
    intro dir hdir
    cases hp : parentOf s.tree dir.toArchiveDir with
    | none => exact root dirId dir hdir hp
    | some parent =>
      obtain ⟨hparent,row,hrow,-⟩ := parentOf_tree_eq_some.mp hp
      exact down dirId dir _ row hdir hparent hrow (ih _ (child_tree_iff.mpr ⟨dir,hdir,hparent⟩) row hrow)

lemma parentOf_tree (hp : dir.archiveDirId=some p) {row : ArchiveDirRow}
    (hrow : s.dirs.get? p=some row) : parentOf s.tree dir.toArchiveDir=some (p,row.toArchiveDir) :=
  parentOf_tree_eq_some.mpr ⟨hp,row,hrow,rfl⟩

/-- Above a root there is nothing that passes permissions on. -/
lemma not_inheritedKey_root (hdir : s.dirs.get? dirId=some dir)
    (hroot : parentOf s.tree dir.toArchiveDir=none) (key : PyText) : ¬ InheritedKey s dirId key := by
  rintro ⟨a,row,ha,hrow,-⟩
  have hmissing : ∀ p, (parents s.tree).Child dirId p → s.dirs.get? p=none := by
    intro p hchild
    obtain ⟨dir',hdir',hp⟩ := child_tree_iff.mp hchild
    rw [hdir,Option.some.injEq] at hdir'
    subst hdir'
    cases hget : s.dirs.get? p with
    | none => rfl
    | some row =>
      rw [parentOf_tree hp hget] at hroot
      contradiction
  obtain ⟨p,hchild,hpa⟩ := Relation.TransGen.head'_iff.mp ha
  rcases Relation.ReflTransGen.cases_head hpa with rfl | ⟨b,hpb,-⟩
  · rw [hmissing p hchild] at hrow
    contradiction
  · obtain ⟨row',hrow',-⟩ := child_tree_iff.mp hpb
    rw [hmissing p hchild] at hrow'
    contradiction

/-- What a directory inherits comes from its parent or from above it. -/
lemma inheritedKey_iff {row : ArchiveDirRow} (hdir : s.dirs.get? dirId=some dir)
    (hp : dir.archiveDirId=some p) (hrow : s.dirs.get? p=some row) (key : PyText) :
    InheritedKey s dirId key ↔ (row.recursivePermissions=some true ∧
      key ∈ ownPermissions s.permSets row.toArchiveDir) ∨ InheritedKey s p key := by
  have hchild : (parents s.tree).Child dirId p := child_tree_iff.mpr ⟨dir,hdir,hp⟩
  constructor
  · rintro ⟨a,row',ha,hrow',hpasses,hkey⟩
    obtain ⟨q,hq,hqa⟩ := Relation.TransGen.head'_iff.mp ha
    have hqp : q=p := by
      obtain ⟨dir',hdir',hq⟩ := child_tree_iff.mp hq
      rw [hdir,Option.some.injEq] at hdir'
      subst hdir'
      rw [hp,Option.some.injEq] at hq
      exact hq.symm
    subst hqp
    rcases Relation.reflTransGen_iff_eq_or_transGen.mp hqa with rfl | hqa
    · rw [hrow,Option.some.injEq] at hrow'
      subst hrow'
      exact Or.inl ⟨hpasses,hkey⟩
    · exact Or.inr ⟨a,row',hqa,hrow',hpasses,hkey⟩
  · rintro (⟨hpasses,hkey⟩ | ⟨a,row',ha,hrest⟩)
    · exact ⟨p,row,.single hchild,hrow,hpasses,hkey⟩
    · exact ⟨a,row',ha.head hchild,hrest⟩

lemma mem_sorted_union {own inherited : List PyText} {key : PyText} :
    key ∈ sortBy id (own ++ inherited).dedup ↔ key ∈ own ∨ key ∈ inherited := by
  simp

lemma getEffectivePermissions_of_inherited {fuel : ℕ} {keys : List PyText} {dir : ArchiveDir}
    (h : inheritedPermissions s.permSets s.tree fuel dir=some keys) :
    getEffectivePermissions s.permSets s.tree (fuel+1) dir=
      some (sortBy id (ownPermissions s.permSets dir ++ keys).dedup) := by
  rw [getEffectivePermissions,h]
  rfl

/-- With fuel for the chain of parents, the inherited permissions are those that are passed on. -/
theorem inheritedPermissions_spec (h : Acyclic s) : ∀ dirId dir, s.dirs.get? dirId=some dir →
    ∃ n keys, (∀ fuel, n ≤ fuel →
      inheritedPermissions s.permSets s.tree fuel dir.toArchiveDir=some keys) ∧
      ∀ key, key ∈ keys ↔ InheritedKey s dirId key := by
  refine h.induction (motive := fun dirId dir => ∃ n keys, (∀ fuel, n ≤ fuel →
    inheritedPermissions s.permSets s.tree fuel dir.toArchiveDir=some keys) ∧
    ∀ key, key ∈ keys ↔ InheritedKey s dirId key) ?_ ?_
  · intro dirId dir hdir hroot
    refine ⟨1,[],?_,?_⟩
    · intro fuel hfuel
      obtain ⟨fuel,rfl⟩ : ∃ k, fuel=k+1 := ⟨fuel-1,by omega⟩
      rw [inheritedPermissions,hroot]
    · intro key
      simp [not_inheritedKey_root hdir hroot]
  · intro dirId dir p row hdir hp hrow ih
    obtain ⟨n,keys,hkeys,hmem⟩ := ih
    have hparent := parentOf_tree hp hrow
    by_cases hpasses : row.recursivePermissions=some true
    · refine ⟨n+2,sortBy id (ownPermissions s.permSets row.toArchiveDir ++ keys).dedup,?_,?_⟩
      · intro fuel hfuel
        obtain ⟨fuel,rfl⟩ : ∃ k, fuel=k+2 := ⟨fuel-2,by omega⟩
        simp only [inheritedPermissions,hparent,if_pos hpasses]
        exact getEffectivePermissions_of_inherited (hkeys fuel (by omega))
      · intro key
        rw [mem_sorted_union,hmem,inheritedKey_iff hdir hp hrow]
        simp [hpasses]
    · refine ⟨n+1,keys,?_,?_⟩
      · intro fuel hfuel
        obtain ⟨fuel,rfl⟩ : ∃ k, fuel=k+1 := ⟨fuel-1,by omega⟩
        simp only [inheritedPermissions,hparent,if_neg hpasses]
        exact hkeys fuel (by omega)
      · intro key
        rw [hmem,inheritedKey_iff hdir hp hrow]
        simp [hpasses]

lemma buildPath_answers (h : Acyclic s) : ∀ dirId dir, s.dirs.get? dirId=some dir →
    ∃ n path, ∀ fuel, n ≤ fuel → buildPath s.tree fuel dirId dir.toArchiveDir=some path := by
  have hloop := h.induction (motive := fun dirId dir => ∀ front, ∃ n path, ∀ fuel, n ≤ fuel →
    buildPathLoop s.tree fuel dirId dir.toArchiveDir front=some path) ?_ ?_
  · exact fun dirId dir hdir => hloop dirId dir hdir []
  · intro dirId dir hdir hroot front
    refine ⟨1,(front ++ [(dirId,dir.name)]).reverse,?_⟩
    intro fuel hfuel
    obtain ⟨fuel,rfl⟩ : ∃ k, fuel=k+1 := ⟨fuel-1,by omega⟩
    rw [buildPathLoop,hroot]
  · intro dirId dir p row hdir hp hrow ih front
    obtain ⟨n,path,hpath⟩ := ih (front ++ [(dirId,dir.name)])
    refine ⟨n+1,path,?_⟩
    intro fuel hfuel
    obtain ⟨fuel,rfl⟩ : ∃ k, fuel=k+1 := ⟨fuel-1,by omega⟩
    rw [buildPathLoop,parentOf_tree hp hrow]
    exact hpath fuel (by omega)

end Chains

/-! ### Enough fuel for every directory -/

/-- A permission of the directory itself, or one that it inherits. -/
def EffectiveKey (s : ArchiveTables) (dirId : Uuid) (key : PyText) : Prop :=
  (∃ dir, s.dirs.get? dirId=some dir ∧ key ∈ ownPermissions s.permSets dir.toArchiveDir) ∨
    InheritedKey s dirId key

/-- With this fuel the readers of the tree answer for a directory. -/
structure DirAnswers (s : ArchiveTables) (dirId : Uuid) (dir : ArchiveDirRow) (fuel : ℕ) : Prop where
  inherited : ∃ keys, inheritedPermissions s.permSets s.tree fuel dir.toArchiveDir=some keys ∧
    ∀ key, key ∈ keys ↔ InheritedKey s dirId key
  effective : ∃ keys, getEffectivePermissions s.permSets s.tree fuel dir.toArchiveDir=some keys ∧
    ∀ key, key ∈ keys ↔ EffectiveKey s dirId key
  path : ∃ path, buildPath s.tree fuel dirId dir.toArchiveDir=some path

def EnoughFuel (s : ArchiveTables) (fuel : ℕ) : Prop :=
  ∀ dirId dir, s.dirs.get? dirId=some dir → DirAnswers s dirId dir fuel

/-- What holds of each directory from some fuel on holds of all of them from some fuel on. -/
lemma exists_common_fuel {s : ArchiveTables} {P : Uuid → ArchiveDirRow → ℕ → Prop}
    (h : ∀ dirId dir, s.dirs.get? dirId=some dir → ∃ n, ∀ fuel, n ≤ fuel → P dirId dir fuel) :
    ∃ n, ∀ fuel, n ≤ fuel → ∀ dirId dir, s.dirs.get? dirId=some dir → P dirId dir fuel := by
  have hall : ∀ entries : List (Uuid × ArchiveDirRow), (∀ e ∈ entries, s.dirs.get? e.1=some e.2) →
      ∃ n, ∀ fuel, n ≤ fuel → ∀ e ∈ entries, P e.1 e.2 fuel := by
    intro entries
    induction entries with
    | nil => exact fun _ => ⟨0,fun _ _ e he => by contradiction⟩
    | cons e entries ih =>
      intro hentries
      obtain ⟨n,hn⟩ := h e.1 e.2 (hentries e List.mem_cons_self)
      obtain ⟨k,hk⟩ := ih fun x hx => hentries x (List.mem_cons_of_mem _ hx)
      refine ⟨n+k,?_⟩
      intro fuel hfuel x hx
      rcases List.mem_cons.mp hx with rfl | hx
      · exact hn fuel (by omega)
      · exact hk fuel (by omega) x hx
  obtain ⟨n,hn⟩ := hall s.dirs.entries fun e he => (Dict.get?_eq_some_iff _ _ _).mpr he
  exact ⟨n,fun fuel hfuel dirId dir hdir => hn fuel hfuel (dirId,dir) ((Dict.get?_eq_some_iff _ _ _).mp hdir)⟩

section Fuel
variable {s : ArchiveTables}

/-- The effective permissions of one directory. -/
lemma getEffectivePermissions_spec (h : Acyclic s) (dirId : Uuid) (dir : ArchiveDirRow)
    (hdir : s.dirs.get? dirId=some dir) :
    ∃ keys, (∃ n, ∀ fuel, n ≤ fuel →
      getEffectivePermissions s.permSets s.tree fuel dir.toArchiveDir=some keys) ∧
      ∀ key, key ∈ keys ↔ EffectiveKey s dirId key := by
  obtain ⟨n,keys,hkeys,hmem⟩ := inheritedPermissions_spec h dirId dir hdir
  refine ⟨sortBy id (ownPermissions s.permSets dir.toArchiveDir ++ keys).dedup,⟨n+1,?_⟩,?_⟩
  · intro fuel hfuel
    obtain ⟨fuel,rfl⟩ : ∃ k, fuel=k+1 := ⟨fuel-1,by omega⟩
    exact getEffectivePermissions_of_inherited (hkeys fuel (by omega))
  · intro key
    rw [mem_sorted_union,hmem,EffectiveKey]
    simp [hdir]

theorem exists_enoughFuel (h : Acyclic s) : ∃ n, ∀ fuel, n ≤ fuel → EnoughFuel s fuel := by
  refine exists_common_fuel (P := DirAnswers s) ?_
  intro dirId dir hdir
  obtain ⟨n₁,inherited,hinherited,hmem₁⟩ := inheritedPermissions_spec h dirId dir hdir
  obtain ⟨effective,⟨n₂,heffective⟩,hmem₂⟩ := getEffectivePermissions_spec h dirId dir hdir
  obtain ⟨n₃,path,hpath⟩ := buildPath_answers h dirId dir hdir
  refine ⟨n₁+n₂+n₃,?_⟩
  intro fuel hfuel
  exact ⟨⟨inherited,hinherited fuel (by omega),hmem₁⟩,⟨effective,heffective fuel (by omega),hmem₂⟩,
    ⟨path,hpath fuel (by omega)⟩⟩

/-! ### The page of a directory -/

variable {fuel : ℕ} {dirId : Uuid} {dir : ArchiveDirRow}

lemma canInsight_spec (henough : EnoughFuel s fuel) (user : Member)
    (hdir : s.dirs.get? dirId=some dir) :
    ∃ insight, canInsight fuel s user dir.toArchiveDir=some insight ∧
      (insight=true ↔ EffectiveKey s dirId (insightKey user)) := by
  obtain ⟨keys,hkeys,hmem⟩ := (henough dirId dir hdir).effective
  refine ⟨decide (insightKey user ∈ keys),?_,?_⟩
  · rw [canInsight,hkeys]
    rfl
  · rw [decide_eq_true_eq,hmem]

lemma mem_childDirs (s : ArchiveTables) (parentId : Option Uuid) (d : Uuid × ArchiveDirRow) :
    d ∈ childDirs s parentId ↔ s.dirs.get? d.1=some d.2 ∧ d.2.archiveDirId=parentId := by
  rw [childDirs,mem_sortBy,List.mem_filter,decide_eq_true_eq,Dict.get?_eq_some_iff]

lemma classifyDirs_answers (henough : EnoughFuel s fuel) (user : Member) (admin : Bool)
    (parentId : Option Uuid) : ∃ bucket, classifyDirs fuel s user admin parentId=some bucket := by
  have hstep : ∀ bucket, ∀ d ∈ childDirs s parentId,
      ∃ bucket', classifyDir fuel s user admin bucket d=some bucket' := by
    intro bucket d hd
    obtain ⟨insight,hinsight,-⟩ := canInsight_spec henough user ((mem_childDirs s parentId d).mp hd).1
    by_cases hdeleted : d.2.deletedAt ≠ none
    · exact ⟨_,by rw [classifyDir,if_pos hdeleted]⟩
    · rw [classifyDir,if_neg hdeleted,hinsight]
      cases insight <;> cases admin <;> exact ⟨_,rfl⟩
  have hfold : ∀ ds : List (Uuid × ArchiveDirRow), (∀ d ∈ ds, d ∈ childDirs s parentId) →
      ∀ bucket, ∃ bucket', ds.foldlM (classifyDir fuel s user admin) bucket=some bucket' := by
    intro ds
    induction ds with
    | nil => exact fun _ bucket => ⟨bucket,rfl⟩
    | cons d ds ih =>
      intro hds bucket
      obtain ⟨next,hnext⟩ := hstep bucket d (hds d List.mem_cons_self)
      obtain ⟨last,hlast⟩ := ih (fun x hx => hds x (List.mem_cons_of_mem _ hx)) next
      exact ⟨last,by rw [List.foldlM_cons,hnext]; exact hlast⟩
  exact hfold _ (fun _ hd => hd) _

lemma requireInsightOrAdmin_answered (henough : EnoughFuel s fuel) (user : Member)
    (hdir : s.dirs.get? dirId=some dir) :
    Answered (requireInsightOrAdmin fuel s user dir.toArchiveDir) := by
  obtain ⟨insight,hinsight,-⟩ := canInsight_spec henough user hdir
  unfold requireInsightOrAdmin
  split_ifs
  · exact answered_pure _
  · apply (answered_lift hinsight).bind
    intro b _
    cases b <;> simp

lemma buildDirDetailContent_answers (henough : EnoughFuel s fuel) (user : Member)
    (hdir : s.dirs.get? dirId=some dir) (admin : Bool) :
    ∃ content, buildDirDetailContent fuel s user dirId dir admin=some content := by
  obtain ⟨insight,hinsight,-⟩ := canInsight_spec henough user hdir
  obtain ⟨subdirs,hsubdirs⟩ := classifyDirs_answers henough user admin (some dirId)
  rw [buildDirDetailContent,hsubdirs,hinsight]
  exact ⟨_,rfl⟩

lemma dirDetail_answered (henough : EnoughFuel s fuel) (user : Member)
    (hdir : s.dirs.get? dirId=some dir) : Answered (dirDetail fuel s user dirId dir) := by
  obtain ⟨content,hcontent⟩ := buildDirDetailContent_answers henough user hdir
    (isArchiveAdmin user.toUser)
  obtain ⟨inherited,hinherited,-⟩ := (henough dirId dir hdir).inherited
  obtain ⟨path,hpath⟩ := (henough dirId dir hdir).path
  apply (requireInsightOrAdmin_answered henough user hdir).bind
  intro _ _
  apply (answered_lift hcontent).bind
  intro _ _
  apply (answered_lift hinherited).bind
  intro _ _
  apply (answered_lift hpath).bind
  intro _ _
  exact answered_pure _

lemma getDirDetail_answered (henough : EnoughFuel s fuel) (user : Member) (dirId : Uuid) :
    Answered (getDirDetail fuel s user dirId) := by
  unfold getDirDetail
  split
  · exact answered_throw _
  · rename_i dir hdir
    split_ifs
    · exact answered_throw _
    · exact dirDetail_answered henough user hdir

/-- A page shows the permissions that the access check uses. -/
lemma getDirDetail_effective {user : Member} {detail : DirDetail}
    (hdir : s.dirs.get? dirId=some dir) {keys : List PyText}
    (hkeys : getEffectivePermissions s.permSets s.tree (fuel+1) dir.toArchiveDir=some keys)
    (h : Succeeds (getDirDetail fuel s user dirId) detail) : detail.permissions.effective=keys := by
  unfold getDirDetail at h
  rw [hdir] at h
  dsimp only at h
  split_ifs at h
  · simp at h
  · simp only [dirDetail,succeeds_bind,succeeds_lift,succeeds_pure] at h
    obtain ⟨_,-,content,-,inherited,hinherited,path,-,rfl⟩ := h
    rw [getEffectivePermissions_of_inherited hinherited,Option.some.injEq] at hkeys
    exact hkeys

/-- The effective permissions of a directory are its own and those of the ancestors that pass
theirs on; its page shows the same set. -/
theorem effectivePermissions_eq (h : Acyclic s) (hdir : s.dirs.get? dirId=some dir) :
    ∃ n keys, (∀ fuel, n ≤ fuel →
        getEffectivePermissions s.permSets s.tree fuel dir.toArchiveDir=some keys) ∧
      (∀ key, key ∈ keys ↔ key ∈ ownPermissions s.permSets dir.toArchiveDir ∨
        ∃ a row, Relation.TransGen (parents s.tree).Child dirId a ∧ s.dirs.get? a=some row ∧
          row.recursivePermissions=some true ∧ key ∈ ownPermissions s.permSets row.toArchiveDir) ∧
      ∀ fuel, n ≤ fuel → ∀ user, Answered (getDirDetail fuel s user dirId) ∧
        ∀ detail, Succeeds (getDirDetail fuel s user dirId) detail →
          detail.permissions.effective=keys := by
  obtain ⟨keys,⟨n₁,hkeys⟩,hmem⟩ := getEffectivePermissions_spec h dirId dir hdir
  obtain ⟨n₂,henough⟩ := exists_enoughFuel h
  refine ⟨n₁+n₂,keys,fun fuel hfuel => hkeys fuel (by omega),?_,?_⟩
  · intro key
    rw [hmem,EffectiveKey]
    simp only [hdir,Option.some.injEq,exists_eq_left']
    rfl
  · intro fuel hfuel user
    refine ⟨getDirDetail_answered (henough fuel (by omega)) user dirId,?_⟩
    intro detail hdetail
    exact getDirDetail_effective hdir (hkeys (fuel+1) (by omega)) hdetail

end Fuel
/-- Three directories, one below the other, with a file in the last one, which may be in the trash;
the first one passes its permissions on, the second one does not. -/
def nestedArchive (trashed : Option Timestamp) : ArchiveTables where
  dirs := Dict.ofPairs
    [(1,⟨⟨text "Verbindung",none,none,some true,none,[⟨text "vbw",text "up"⟩]⟩,0,none⟩),
     (2,⟨⟨text "Protokolle",none,some 1,none,none,[⟨text "vbn",text "up"⟩]⟩,0,none⟩),
     (3,⟨⟨text "Convente",none,some 2,some true,trashed,[]⟩,0,none⟩)]
  files := Dict.ofPairs [(10,⟨some 3,none,⟨20,text "Protokoll",none,text "pdf",text "application/pdf",
    4096,text "ab",some 7,0⟩,none⟩)]
  comments := Dict.empty
  orgs := [⟨text "vbw",none,some 1⟩,⟨text "vbn",none,some 2⟩]
  states := [⟨text "up",none,some 1⟩]
  memberNames := Dict.empty
  collation := fun name => name
  nextUuid := 30

lemma nestedArchive_acyclic (trashed : Option Timestamp) : Acyclic (nestedArchive trashed) := by
  apply acyclic_of_lt
  intro dirId dir hdir p hp
  have hmem := Dict.mem_of_get?_ofPairs hdir
  simp only [List.mem_cons,Prod.mk.injEq,List.not_mem_nil,or_false] at hmem
  rcases hmem with ⟨rfl,rfl⟩ | ⟨rfl,rfl⟩ | ⟨rfl,rfl⟩ <;> cases hp <;> decide

theorem effectivePermissions_nested : ∃ n keys, (∀ fuel, n ≤ fuel →
    (∃ dir, (nestedArchive none).dirs.get? 3=some dir ∧ getEffectivePermissions
      (nestedArchive none).permSets (nestedArchive none).tree fuel dir.toArchiveDir=some keys)) ∧
    text "vbw_up" ∈ keys := by
  obtain ⟨n,keys,hkeys,hmem,-⟩ := effectivePermissions_eq (nestedArchive_acyclic none)
    (show (nestedArchive none).dirs.get? 3=some _ from rfl)
  refine ⟨n,keys,fun fuel hfuel => ⟨_,rfl,hkeys fuel hfuel⟩,?_⟩
  rw [hmem]
  have hfirst : (parents (nestedArchive none).tree).Child 3 2 := rfl
  have hsecond : (parents (nestedArchive none).tree).Child 2 1 := rfl
  exact Or.inr ⟨1,_,(Relation.TransGen.single hsecond).head hfirst,rfl,rfl,by decide⟩

end VbApi.Archive
