import VbApi.Archive.DirTree

/-! Runs of the archive calls. A step leaves the parents, adds or removes a leaf, or moves directories;
only a move can close a cycle, and it does when its target is below what it moves by then. -/
namespace VbApi.Archive
open VbApi.Foundations Parents

/-! ### What a step does to the tree -/

/-- Ids are given out once. -/
def IdsFresh (s : ArchiveState) : Prop := ∀ id, (parents s id).isSome → id < s.nextUuid

/-- What a step does to the parents. -/
inductive TreeEffect (s : ArchiveState) (place : Place) (input : Input) (s' : ArchiveState) : Prop
  | same (hparents : parents s'=parents s) (hids : s.nextUuid ≤ s'.nextUuid)
  | added (parentId : Option Uuid) (hthere : ∀ id ∈ parentId, (parents s id).isSome)
      (hparents : parents s'=Function.update (parents s) s.nextUuid (some parentId))
      (hids : s'.nextUuid=s.nextUuid+1)
  | removed (id : Uuid) (hleaf : ∀ k p, parents s k=some p → p ≠ some id)
      (hparents : parents s'=Function.update (parents s) id none) (hids : s'.nextUuid=s.nextUuid)
  | moved (target : Option Uuid) (session : Session) (hplace : place=.receiveDirs target [] session)
      (hinput : input=.next) (hmoved : ∀ id ∈ session.moved, (parents s id).isSome)
      (htarget : ∀ id ∈ target, session.moved ≠ [] → (parents s id).isSome)
      (hparents : parents s'=(parents s).move session.moved target)
      (hids : s'.nextUuid=s.nextUuid)

section Effects
variable {permSets : PermSets} {s s' : ArchiveState} {place place' : Place} {input : Input}
variable {c : ClientId}

lemma parents_modify {ids : List Uuid} {f : ArchiveDir → ArchiveDir}
    (hf : ∀ dir, (f dir).archiveDirId=dir.archiveDirId) :
    parents { s with dirs := s.dirs.modify ids f }=parents s := by
  funext id
  simp only [parents,Dict.get?_modify]
  split_ifs
  · cases s.dirs.get? id <;> simp [hf]
  · rfl

lemma parents_move (ids : List Uuid) (target : Option Uuid) :
    parents { s with dirs := s.dirs.modify ids fun dir => { dir with archiveDirId := target } }=
      (parents s).move ids target := by
  funext id
  simp only [parents,Parents.move,Dict.get?_modify]
  split_ifs
  · cases s.dirs.get? id <;> rfl
  · rfl

lemma createDir_effect (data : DirSave) (pairs : List ArchivePermission) :
    TreeEffect s place input (createDir s data pairs) := by
  rw [createDir]
  split_ifs with h
  · refine .added data.parentId ?_ ?_ rfl
    · intro id hid
      rw [isSome_parents]
      exact h.2 id hid
    · funext id
      by_cases hid : id=s.nextUuid
      · simp [parents,hid]
      · simp [parents,hid]
  · exact .same rfl le_rfl

lemma hardDeleteDir_effect (id : Uuid) : TreeEffect s place input (hardDeleteDir s id) := by
  rw [hardDeleteDir]
  split_ifs with h
  · refine .removed id ?_ ?_ rfl
    · intro k p hk hp
      subst hp
      obtain ⟨dir,hdir,hparent⟩ := Option.map_eq_some_iff.mp hk
      have hmem : k ∈ childIds s id := by
        simp [childIds,hdir,hparent]
      rw [h.1] at hmem
      cases hmem
    · funext k
      by_cases hk : k=id
      · simp [parents,Dict.get?_erase,hk]
      · simp [parents,Dict.get?_erase,hk]
  · exact .same rfl le_rfl

lemma removeDir_effect (removal : DirRemoval) (hasContent : Bool) :
    TreeEffect s place input (removeDir s removal hasContent) := by
  rw [removeDir]
  split_ifs
  · exact hardDeleteDir_effect removal.id
  · exact .same rfl le_rfl
  · exact .same (parents_modify fun _ => rfl) le_rfl

lemma commitDirs_effect (target : Option Uuid) (session : Session) :
    TreeEffect s (.receiveDirs target [] session) .next (commitDirs s target session.moved) := by
  rw [commitDirs]
  split_ifs with h
  · refine .moved target session rfl rfl ?_ ?_ (parents_move _ _) rfl
    · intro id hid
      rw [isSome_parents]
      exact h.1 id hid
    · intro id hid hne
      rw [isSome_parents]
      exact h.2.resolve_left hne id hid
  · exact .same rfl le_rfl

lemma resume_effect : TreeEffect s place .next (resume s place).1 := by
  cases place with
  | createDir data pairs => exact createDir_effect data pairs
  | updateDir id data pairs =>
    simp only [resume,updateDir]
    split_ifs
    · exact .same (parents_modify fun _ => rfl) le_rfl
    · exact .same rfl le_rfl
  | removeDir removal hasContent => exact removeDir_effect removal hasContent
  | restoreDir id deletedAt =>
    simp only [resume,restoreDir]
    split_ifs
    · exact .same rfl le_rfl
    · exact .same (parents_modify fun _ => rfl) le_rfl
  | receiveDirs target pending session =>
    cases pending with
    | nil => exact commitDirs_effect target session
    | cons did pending => exact .same rfl le_rfl
  | receiveFiles target pending moved =>
    cases pending with
    | nil =>
      simp only [resume,commitFiles]
      split_ifs <;> exact .same rfl le_rfl
    | cons fid pending => exact .same rfl le_rfl
  | idle => exact .same rfl le_rfl
  | hasChildren removal => exact .same rfl le_rfl
  | hasFiles removal hasChildren => exact .same rfl le_rfl
  | isDescendant target did d current visited pending session => exact .same rfl le_rfl

theorem archiveProgram_effect (h : archiveProgram permSets c s place input=some (s',place')) :
    TreeEffect s place input s' := by
  unfold archiveProgram at h
  split at h
  · have hstep := congrArg Prod.fst (Option.some.inj h)
    subst hstep
    exact resume_effect
  · cases h
    exact .same rfl le_rfl
  · cases h
    exact .same rfl le_rfl
  · cases h
    exact .same rfl (Nat.le_succ _)
  · cases h
    exact .same rfl le_rfl
  · cases h
    exact .same rfl le_rfl
  · cases h

end Effects

/-! ### Runs -/

/-- A move that commits has its target still outside of what it moves. -/
def MovesFresh (w : World ArchiveState Place) (a : ClientId × Input) : Prop :=
  a.2=.next → ∀ target session, w.clients a.1=.receiveDirs target [] session →
    ∀ id ∈ session.moved, ¬ (parents w.shared).Below id target

structure ForestInvariant (s : ArchiveState) : Prop where
  forest : (parents s).Forest
  ids : IdsFresh s

lemma ForestInvariant.ends {s : ArchiveState} (h : ForestInvariant s) {target : Option Uuid}
    (hthere : ∀ id ∈ target, (parents s id).isSome) : (parents s).Ends target := by
  cases target with
  | none => exact .root
  | some id =>
    obtain ⟨p,hp⟩ := Option.isSome_iff_exists.mp (hthere id rfl)
    exact h.forest.ends hp

lemma move_nil (P : Parents Uuid) (target : Option Uuid) : P.move [] target=P := by
  funext id
  simp [Parents.move]

/-- The step lemma. -/
theorem TreeEffect.forest {s s' : ArchiveState} {place : Place} {input : Input}
    (h : TreeEffect s place input s') (hs : ForestInvariant s)
    (hfresh : input=.next → ∀ target session, place=.receiveDirs target [] session →
      ∀ id ∈ session.moved, ¬ (parents s).Below id target) : ForestInvariant s' := by
  cases h with
  | same hparents hids =>
    refine ⟨?_,?_⟩
    · rw [hparents]
      exact hs.forest
    · intro id hid
      rw [hparents] at hid
      exact (hs.ids id hid).trans_le hids
  | added parentId hthere hparents hids =>
    have hnew : parents s s.nextUuid=none := by
      rw [← Option.not_isSome_iff_eq_none]
      exact fun hsome => absurd (hs.ids _ hsome) (lt_irrefl _)
    refine ⟨?_,?_⟩
    · rw [hparents]
      exact hs.forest.insert hnew (hs.ends hthere)
    · intro id hid
      rw [hids]
      by_cases heq : id=s.nextUuid
      · rw [heq]
        exact Nat.lt_succ_self _
      · rw [hparents,Function.update_of_ne heq] at hid
        exact (hs.ids id hid).trans (Nat.lt_succ_self _)
  | removed id hleaf hparents hids =>
    refine ⟨?_,?_⟩
    · rw [hparents]
      exact hs.forest.remove hleaf
    · intro k hk
      rw [hids]
      by_cases heq : k=id
      · rw [hparents,heq,Function.update_self] at hk
        cases hk
      · rw [hparents,Function.update_of_ne heq] at hk
        exact hs.ids k hk
  | moved target session hplace hinput hmoved htarget hparents hids =>
    refine ⟨?_,?_⟩
    · rw [hparents]
      by_cases hne : session.moved=[]
      · rw [hne,move_nil]
        exact hs.forest
      · have hends := hs.ends fun id hid => htarget id hid hne
        exact (forest_move_iff hs.forest hends hmoved).mpr (hfresh hinput target session hplace)
    · intro id hid
      rw [hids]
      apply hs.ids
      rw [hparents] at hid
      simp only [Parents.move] at hid
      split_ifs at hid
      · simpa using hid
      · exact hid

/-- The run lemma. -/
theorem forest_of_reaches {permSets : PermSets} {w₀ w : World ArchiveState Place}
    (h₀ : ForestInvariant w₀.shared)
    (hrun : (archiveProgram permSets).interleave.Reaches MovesFresh w₀ w) :
    ForestInvariant w.shared := by
  apply hrun.invariant (I := fun w => ForestInvariant w.shared) h₀
  intro w a w' hw hok hstep
  obtain ⟨s',place',hprogram,rfl⟩ := Program.interleave_step_eq_some.mp hstep
  exact (archiveProgram_effect hprogram).forest hw hok

/-- Any interleaving of the calls keeps the tree, as long as a move that commits has its target still
outside of what it moves. -/
theorem dirTree_of_movesFresh {permSets : PermSets} {w₀ w : World ArchiveState Place}
    (hforest : (parents w₀.shared).Forest) (hids : IdsFresh w₀.shared)
    (hrun : (archiveProgram permSets).interleave.Reaches MovesFresh w₀ w) :
    DirTree permSets w.shared :=
  dirTree_of_forest permSets (forest_of_reaches ⟨hforest,hids⟩ hrun).forest

def rootDir (name : PyText) : ArchiveDir := ⟨name,none,none,some false,none,[]⟩

/-- Two empty root directories. -/
def twoDirs : ArchiveState where
  dirs := Dict.ofPairs [(1,rootDir (text "Protokolle")),(2,rootDir (text "Fotos"))]
  files := Dict.empty
  nextUuid := 3

def archiveWorld : World ArchiveState Place := ⟨twoDirs,fun _ => .idle⟩

def archivar : User := ⟨[text "archiveAdmin"]⟩

/-- A client moves one directory into the other, up to its commit. -/
def moveSteps (c : ClientId) (target did : Uuid) : List (ClientId × Input) :=
  [(c,.receiveItems archivar (some target) .dir [did]),(c,.next),(c,.next)]

lemma forest_of_roots {s : ArchiveState} (hroots : ∀ e ∈ s.dirs.entries, e.2.archiveDirId=none) :
    (parents s).Forest := by
  intro id p hp
  obtain ⟨dir,hdir,hparent⟩ := Option.map_eq_some_iff.mp hp
  rw [← hparent,hroots _ ((Dict.get?_eq_some_iff _ _ _).mp hdir)]
  exact .root

lemma idsFresh_of_entries {s : ArchiveState} (hids : ∀ e ∈ s.dirs.entries, e.1 < s.nextUuid) :
    IdsFresh s := by
  intro id hid
  rw [isSome_parents] at hid
  obtain ⟨dir,hdir⟩ := Option.isSome_iff_exists.mp hid
  exact hids _ ((Dict.get?_eq_some_iff _ _ _).mp hdir)

/-- Three empty root directories. -/
def threeDirs : ArchiveState where
  dirs := Dict.ofPairs [(1,rootDir (text "Protokolle")),(2,rootDir (text "Fotos")),
    (3,rootDir (text "Plakate"))]
  files := Dict.empty
  nextUuid := 4

/-- The first directory goes into the second, and the third into the first: both walks end before
either move commits. -/
def overlappingMoves : List (ClientId × Input) :=
  moveSteps 0 2 1 ++ moveSteps 1 1 3 ++ [(0,.next),(1,.next)]

lemma overlappingMoves_meet : (archiveProgram ⟨[],[]⟩).interleave.Meets MovesFresh
    ⟨threeDirs,fun _ => .idle⟩ overlappingMoves := by
  refine ⟨nofun,fun w₁ h₁ => ?_⟩
  cases h₁
  refine ⟨fun _ => nofun,fun w₂ h₂ => ?_⟩
  cases h₂
  refine ⟨fun _ => nofun,fun w₃ h₃ => ?_⟩
  cases h₃
  refine ⟨nofun,fun w₄ h₄ => ?_⟩
  cases h₄
  refine ⟨fun _ => nofun,fun w₅ h₅ => ?_⟩
  cases h₅
  refine ⟨fun _ => nofun,fun w₆ h₆ => ?_⟩
  cases h₆
  refine ⟨?_,fun w₇ h₇ => ?_⟩
  · intro _ target session hplace id hid hbelow
    cases hplace
    have hid : id=1 := List.mem_singleton.mp hid
    subst hid
    cases hbelow with
    | up parent chain =>
      cases parent
      cases chain
  cases h₇
  refine ⟨?_,fun _ _ => trivial⟩
  intro _ target session hplace id hid hbelow
  cases hplace
  have hid : id=3 := List.mem_singleton.mp hid
  subst hid
  cases hbelow with
  | up parent chain =>
    cases parent
    cases chain with
    | up parent chain =>
      cases parent
      cases chain

theorem dirTree_overlappingMoves : ∃ w, (archiveProgram ⟨[],[]⟩).interleave.run
      ⟨threeDirs,fun _ => .idle⟩ overlappingMoves=some w ∧
    parents w.shared 1=some (some 2) ∧ parents w.shared 3=some (some 1) ∧ DirTree ⟨[],[]⟩ w.shared :=
  ⟨_,rfl,rfl,rfl,dirTree_of_movesFresh (forest_of_roots (by decide)) (idsFresh_of_entries (by decide))
    (Machine.reaches_of_run overlappingMoves_meet rfl)⟩

/-- Two directories are moved into each other: both walks end before either move commits. -/
theorem moved_into_each_other : (∀ c, archiveWorld.clients c=.idle) ∧
    DirTree ⟨[],[]⟩ archiveWorld.shared ∧ IdsFresh archiveWorld.shared ∧
    ∃ w dir, (archiveProgram ⟨[],[]⟩).interleave.run archiveWorld
      (moveSteps 0 2 1 ++ moveSteps 1 1 2 ++ [(0,.next),(1,.next)])=some w ∧
      w.shared.dirs.get? 1=some dir ∧ Relation.TransGen (parents w.shared).Child 1 1 ∧
      ∀ fuel, buildPath w.shared fuel 1 dir=none := by
  have hforest : (parents archiveWorld.shared).Forest := forest_of_roots (by decide)
  refine ⟨fun _ => rfl,dirTree_of_forest _ hforest,idsFresh_of_entries (by decide),_,_,rfl,rfl,?_,?_⟩
  · exact .tail (.single rfl) rfl
  · exact buildPath_cycle rfl rfl rfl rfl

end VbApi.Archive
