import VbApi.Archive.Dirs

/-! The tree of the directories. A move looks for its directory above the target, one row after the
other, and other moves may commit before it does. -/
namespace VbApi.Archive
open VbApi.Foundations Parents

/-- The directories that exist, each with its parent. -/
def parents (s : ArchiveState) : Parents Uuid := fun id => (s.dirs.get? id).map (·.archiveDirId)

/-- From some fuel on there is one result. -/
def Terminates {α : Type*} (f : ℕ → Option α) : Prop := ∃ n a, ∀ fuel, n ≤ fuel → f fuel=some a

/-- Without a cycle, every chain of parents ends at the root, and the readers that follow them end. -/
structure DirTree (permSets : PermSets) (s : ArchiveState) : Prop where
  acyclic : ∀ id, ¬ Relation.TransGen (parents s).Child id id
  rooted : (parents s).Forest
  permissions : ∀ id dir, s.dirs.get? id=some dir →
    Terminates (fun fuel => inheritedPermissions permSets s fuel dir) ∧
      Terminates fun fuel => getEffectivePermissions permSets s fuel dir
  path : ∀ id dir, s.dirs.get? id=some dir → Terminates fun fuel => buildPath s fuel id dir

/-! ### Readers of a forest -/

section Readers
variable {permSets : PermSets} {s : ArchiveState} {dir : ArchiveDir}

lemma Terminates.of_succ {α : Type*} {f g : ℕ → Option α} (hg : Terminates g)
    (h : ∀ fuel, f (fuel+1)=g fuel) : Terminates f := by
  obtain ⟨n,a,hn⟩ := hg
  refine ⟨n+1,a,?_⟩
  intro fuel hfuel
  obtain ⟨k,rfl⟩ : ∃ k, fuel=k+1 := ⟨fuel-1,by omega⟩
  rw [h]
  exact hn k (by omega)

lemma Terminates.const {α : Type*} (a : α) : Terminates fun _ => some a := ⟨0,a,fun _ _ => rfl⟩

lemma Terminates.map {α β : Type*} {f : ℕ → Option α} (h : Terminates f) (g : α → β) :
    Terminates fun fuel => (f fuel).map g := by
  obtain ⟨n,a,hn⟩ := h
  refine ⟨n,g a,?_⟩
  intro fuel hfuel
  simp [hn fuel hfuel]

/-- Induction along the chain of parents. -/
lemma chain_induction {motive : ArchiveDir → Prop} (root : ∀ dir, parentOf s dir=none → motive dir)
    (up : ∀ dir id parent, parentOf s dir=some (id,parent) → motive parent → motive dir)
    (h : (parents s).Ends dir.archiveDirId) : motive dir := by
  generalize hp : dir.archiveDirId=p at h
  induction h generalizing dir with
  | root => exact root dir (by simp [parentOf,hp])
  | @up id p parent _ ih =>
    obtain ⟨row,hrow,hparent⟩ := Option.map_eq_some_iff.mp parent
    exact up dir id row (by simp [parentOf,hp,hrow]) (ih hparent)

lemma permissions_terminate (h : (parents s).Ends dir.archiveDirId) :
    Terminates (fun fuel => inheritedPermissions permSets s fuel dir) ∧
      Terminates fun fuel => getEffectivePermissions permSets s fuel dir := by
  have effective : ∀ dir, Terminates (fun fuel => inheritedPermissions permSets s fuel dir) →
      Terminates fun fuel => getEffectivePermissions permSets s fuel dir := by
    intro dir hinherited
    apply (hinherited.map fun inherited => sortBy id (ownPermissions permSets dir ++ inherited).dedup).of_succ
    intro fuel
    rw [getEffectivePermissions]
    cases inheritedPermissions permSets s fuel dir <;> rfl
  have inherited : Terminates fun fuel => inheritedPermissions permSets s fuel dir := by
    apply chain_induction (s := s) _ _ h
    · intro dir hroot
      apply (Terminates.const ([] : List PyText)).of_succ
      intro fuel
      rw [inheritedPermissions,hroot]
    · intro dir id parent hparent ih
      by_cases hrecursive : parent.recursivePermissions=some true
      · apply (effective parent ih).of_succ
        intro fuel
        simp only [inheritedPermissions,hparent,if_pos hrecursive]
      · apply ih.of_succ
        intro fuel
        simp only [inheritedPermissions,hparent,if_neg hrecursive]
  exact ⟨inherited,effective dir inherited⟩

lemma buildPath_terminates (h : (parents s).Ends dir.archiveDirId) (id : Uuid) :
    Terminates fun fuel => buildPath s fuel id dir := by
  have hloop : ∀ id path, Terminates fun fuel => buildPathLoop s fuel id dir path := by
    apply chain_induction (s := s) _ _ h
    · intro dir hroot id path
      apply (Terminates.const (path ++ [(id,dir.name)]).reverse).of_succ
      intro fuel
      rw [buildPathLoop,hroot]
    · intro dir parentId parent hparent ih id path
      apply (ih parentId (path ++ [(id,dir.name)])).of_succ
      intro fuel
      rw [buildPathLoop,hparent]
  exact hloop id []

lemma parents_of_get? {id : Uuid} (h : s.dirs.get? id=some dir) :
    parents s id=some dir.archiveDirId := by
  simp [parents,h]

lemma isSome_parents (s : ArchiveState) (id : Uuid) :
    (parents s id).isSome=(s.dirs.get? id).isSome := by
  simp [parents]

theorem dirTree_of_forest (permSets : PermSets) (h : (parents s).Forest) : DirTree permSets s where
  acyclic := h.acyclic
  rooted := h
  permissions _ _ hdir := permissions_terminate (h _ _ (parents_of_get? hdir))
  path id _ hdir := buildPath_terminates (h _ _ (parents_of_get? hdir)) id

/-- A directory that is its own grandparent has no path. -/
lemma buildPath_cycle {a b : Uuid} {dirA dirB : ArchiveDir} (ha : s.dirs.get? a=some dirA)
    (hb : s.dirs.get? b=some dirB) (hab : dirA.archiveDirId=some b) (hba : dirB.archiveDirId=some a)
    (fuel : ℕ) : buildPath s fuel a dirA=none := by
  have hloop : ∀ fuel path, buildPathLoop s fuel a dirA path=none ∧
      buildPathLoop s fuel b dirB path=none := by
    intro fuel
    induction fuel with
    | zero => exact fun _ => ⟨rfl,rfl⟩
    | succ fuel ih =>
      intro path
      simp [buildPathLoop,parentOf,ha,hb,hab,hba,ih]
  exact (hloop fuel []).1

end Readers
end VbApi.Archive
