import VbApi.Archive.DirMoves

/-! Archive calls that do not overlap. Every row of a walk is then read from one state, so what the walk
did not find is still not there when the move commits. -/
namespace VbApi.Archive
open VbApi.Foundations Parents

/-- While one client works, the others are idle. -/
def Alone (w : World ArchiveState Place) (a : ClientId × Input) : Prop :=
  ∀ c, c ≠ a.1 → w.clients c=.idle

/-- A loaded row is the committed one, unless the call has moved it out of the target's reach. -/
structure SessionFits (s : ArchiveState) (target : Option Uuid) (session : Session) : Prop where
  moved : ∀ id ∈ session.moved, ¬ (parents s).Below id target
  loaded : ∀ id dir, session.loaded.get? id=some dir → s.dirs.get? id=some dir ∨ id ∈ session.moved

/-- The walk has come from the target to `current`, and has not met `did` so far. -/
structure WalkFits (s : ArchiveState) (target did current : Uuid) (visited : List Uuid) : Prop where
  reached : (parents s).Below current (some target)
  notYet : did ≠ current
  rest : (parents s).Below did (some target) → (parents s).Below did (some current)
  visited : ∀ id ∈ visited, (parents s).Below current (some id)

def PlaceFits (s : ArchiveState) : Place → Prop
  | .receiveDirs target _ session => SessionFits s target session
  | .isDescendant target did d current visited _ session =>
    SessionFits s (some target) session ∧ (s.dirs.get? did=some d ∨ did ∈ session.moved) ∧
      WalkFits s target did current visited
  | _ => True

section Steps
variable {s : ArchiveState} {target : Option Uuid} {session : Session} {did current : Uuid}
variable {d : ArchiveDir} {visited : List Uuid}

lemma SessionFits.new (s : ArchiveState) (target : Option Uuid) : SessionFits s target .new where
  moved _ hid := by cases hid
  loaded _ _ hdir := by cases hdir

/-- Rows read from the state fit. -/
lemma SessionFits.set (h : SessionFits s target session) {id : Uuid} {dir : ArchiveDir}
    (hdir : s.dirs.get? id=some dir) :
    SessionFits s target { session with loaded := session.loaded.set id dir } := by
  refine ⟨h.moved,?_⟩
  intro id' dir' hget
  rw [Dict.get?_set] at hget
  split_ifs at hget with hid
  · cases hget
    rw [hid]
    exact .inl hdir
  · exact h.loaded id' dir' hget

lemma SessionFits.load (h : SessionFits s target session) {id : Uuid} {dir : ArchiveDir}
    (hdir : s.dirs.get? id=some dir) : SessionFits s target (session.load s id dir) := by
  rw [Session.load]
  cases hparent : parentOf s dir with
  | none => exact h.set hdir
  | some r =>
    obtain ⟨parentId,_,hrow⟩ := Option.bind_eq_some_iff.mp hparent
    obtain ⟨parent,hget,rfl⟩ := Option.map_eq_some_iff.mp hrow
    dsimp only
    split_ifs
    · exact h.set hdir
    · exact (h.set hdir).set hget

lemma moved_load (id : Uuid) (dir : ArchiveDir) : (session.load s id dir).moved=session.moved := by
  rw [Session.load]
  cases parentOf s dir <;> rfl

/-- What `db.get` yields, and the session after it. -/
lemma SessionFits.get (h : SessionFits s target session) (id : Uuid) :
    SessionFits s target (session.get s id).2 ∧ (session.get s id).2.moved=session.moved ∧
      match (session.get s id).1 with
      | none => s.dirs.get? id=none
      | some dir => s.dirs.get? id=some dir ∨ id ∈ session.moved := by
  rw [Session.get]
  cases hloaded : session.loaded.get? id with
  | some dir => exact ⟨h,rfl,h.loaded id dir hloaded⟩
  | none =>
    cases hrow : s.dirs.get? id with
    | none => exact ⟨h,rfl,rfl⟩
    | some dir => exact ⟨h.load hrow,moved_load id dir,.inl rfl⟩

lemma SessionFits.move (h : SessionFits s target session)
    (hd : s.dirs.get? did=some d ∨ did ∈ session.moved) (hnot : ¬ (parents s).Below did target) :
    SessionFits s target (session.move did d target) := by
  rw [Session.move]
  split_ifs with hsame
  · refine ⟨h.moved,?_⟩
    intro id dir hdir
    rw [Dict.get?_set] at hdir
    split_ifs at hdir with hid
    · cases hdir
      rw [hid,← hsame]
      exact hd
    · exact h.loaded id dir hdir
  · refine ⟨?_,?_⟩
    · intro id hid
      cases hid with
      | head => exact hnot
      | tail _ hid => exact h.moved id hid
    · intro id dir hdir
      rw [Dict.get?_set] at hdir
      split_ifs at hdir with hid
      · rw [hid]
        exact .inr List.mem_cons_self
      · exact (h.loaded id dir hdir).imp_right (List.mem_cons_of_mem _)

lemma SessionFits.collect (h : SessionFits s target session) (id : Uuid) :
    SessionFits s target (session.collect id) := by
  rw [Session.collect]
  split_ifs
  · exact h
  · refine ⟨h.moved,?_⟩
    intro id' dir hdir
    rw [Dict.get?_erase] at hdir
    split_ifs at hdir
    exact h.loaded id' dir hdir

lemma WalkFits.start {targetId : Uuid} (hne : did ≠ targetId) : WalkFits s targetId did targetId [] where
  reached := .here
  notYet := hne
  rest h := h
  visited _ hid := by cases hid

/-- The walk goes on to the parent. -/
lemma WalkFits.next {targetId next : Uuid} (h : WalkFits s targetId did current visited)
    (hparent : parents s current=some (some next)) (hnot : did ≠ next) :
    WalkFits s targetId did next (current::visited) := by
  have hstep : (parents s).Below next (some current) := .up hparent .here
  refine ⟨hstep.trans h.reached,hnot,?_,?_⟩
  · intro hbelow
    cases h.rest hbelow with
    | here => exact absurd rfl h.notYet
    | up parent chain =>
      rw [hparent,Option.some.injEq] at parent
      subst parent
      exact chain
  · intro id hid
    cases hid with
    | head => exact hstep
    | tail _ hid => exact hstep.trans (h.visited id hid)

/-- The walk ends: at a missing row or at the root. -/
lemma WalkFits.not_below {targetId : Uuid} (h : WalkFits s targetId did current visited)
    (hend : ∀ p, parents s current=some p → p=none) : ¬ (parents s).Below did (some targetId) := by
  intro hbelow
  cases h.rest hbelow with
  | here => exact h.notYet rfl
  | up parent chain =>
    rw [hend _ parent] at chain
    cases chain

/-- A forest has no row that the walk could meet twice. -/
lemma WalkFits.notMem {targetId next : Uuid} (h : WalkFits s targetId did current visited)
    (hforest : (parents s).Forest) (hparent : parents s current=some (some next)) :
    next ∉ current::visited := by
  intro hmem
  obtain ⟨q,hq,-,hnot⟩ := (hforest.ends hparent).not_below .here
  rw [hparent,Option.some.injEq] at hq
  subst hq
  apply hnot
  cases hmem with
  | head => exact .here
  | tail _ hmem => exact h.visited next hmem

lemma receiveDir_fits (h : SessionFits s target session) (pending : List Uuid) :
    PlaceFits s (receiveDir s target did pending session) := by
  obtain ⟨hsession,hmoved,hrow⟩ := h.get did
  rw [receiveDir]
  generalize session.get s did=r at *
  obtain ⟨_ | d,session'⟩ := r
  · exact hsession
  · cases target with
    | none =>
      rw [← hmoved] at hrow
      exact hsession.move hrow nofun
    | some targetId =>
      dsimp only
      split_ifs with hne
      · trivial
      · rw [← hmoved] at hrow
        exact ⟨hsession,hrow,.start hne⟩

lemma isDescendant_fits {targetId : Uuid} (hforest : (parents s).Forest)
    (h : SessionFits s (some targetId) session) (hd : s.dirs.get? did=some d ∨ did ∈ session.moved)
    (hwalk : WalkFits s targetId did current visited) (pending : List Uuid) :
    PlaceFits s (isDescendant s targetId did d current visited pending session) := by
  obtain ⟨hsession,hmoved,hrow⟩ := h.get current
  rw [isDescendant]
  generalize session.get s current=r at *
  obtain ⟨_ | row,session'⟩ := r
  · rw [← hmoved] at hd
    apply hsession.move hd
    apply hwalk.not_below
    intro p hp
    simp [parents,show s.dirs.get? current=none from hrow] at hp
  · have hcurrent : s.dirs.get? current=some row :=
      hrow.resolve_right fun hmem => h.moved current hmem hwalk.reached
    have hparent := parents_of_get? hcurrent
    dsimp only
    split_ifs with hfound
    · trivial
    · rw [← hmoved] at hd
      cases hnext : row.archiveDirId with
      | none =>
        apply hsession.move hd
        apply hwalk.not_below
        intro p hp
        rw [hparent,hnext,Option.some.injEq] at hp
        exact hp.symm
      | some next =>
        rw [hnext] at hparent hfound
        dsimp only
        rw [if_neg (hwalk.notMem hforest hparent)]
        exact ⟨hsession,hd,hwalk.next hparent fun heq => hfound (congrArg some heq.symm)⟩

lemma receiveLoop_fits (h : SessionFits s target session) (itemType : ItemType) (ids : List Uuid) :
    PlaceFits s (receiveLoop target itemType ids session) := by
  cases itemType with
  | dir => exact h
  | file => trivial

lemma begin_fits (permSets : PermSets) (call : Input) : PlaceFits s (begin permSets s call) := by
  cases call with
  | createDir user data =>
    simp only [begin,beginCreateDir]
    split_ifs
    · cases parsePermissions permSets data.permissions <;> trivial
    · trivial
    · trivial
  | updateDir user id data =>
    simp only [begin,beginUpdateDir]
    split_ifs
    · cases s.dirs.get? id <;> cases parsePermissions permSets data.permissions <;> trivial
    · trivial
  | deleteDir user id now =>
    simp only [begin,beginDeleteDir]
    split_ifs
    · cases s.dirs.get? id <;> trivial
    · trivial
  | purgeDir user id =>
    simp only [begin,beginPurgeDir]
    split_ifs
    · cases s.dirs.get? id with
      | none => trivial
      | some dir =>
        dsimp only
        split_ifs <;> trivial
    · trivial
  | restoreDir user id =>
    simp only [begin,beginRestoreDir]
    split_ifs
    · cases s.dirs.get? id <;> trivial
    · trivial
  | receiveItems user target itemType ids =>
    simp only [begin,beginReceiveItems]
    split_ifs
    · cases target with
      | none => exact receiveLoop_fits (.new s none) itemType ids
      | some targetId =>
        have hsession := ((SessionFits.new s (some targetId)).get targetId).1
        dsimp only
        generalize Session.new.get s targetId=r at *
        obtain ⟨_ | dir,session⟩ := r
        · trivial
        · exact receiveLoop_fits hsession itemType ids
    · trivial
  | _ => trivial

lemma resume_fits {place : Place} (hforest : (parents s).Forest) (h : PlaceFits s place) :
    PlaceFits (resume s place).1 (resume s place).2 := by
  cases place with
  | receiveDirs target pending session =>
    cases pending with
    | nil => trivial
    | cons did pending => exact receiveDir_fits h pending
  | isDescendant target did d current visited pending session =>
    exact isDescendant_fits hforest h.1 h.2.1 h.2.2 pending
  | receiveFiles target pending moved =>
    cases pending with
    | nil => trivial
    | cons fid pending =>
      simp only [resume,receiveFile]
      cases s.files.get? fid <;> trivial
  | _ => trivial

lemma collect_fits {place : Place} (h : PlaceFits s place) (id : Uuid) :
    PlaceFits s (place.collect id) := by
  cases place with
  | receiveDirs target pending session => exact SessionFits.collect h id
  | isDescendant target did d current visited pending session =>
    refine ⟨h.1.collect id,?_,h.2.2⟩
    rw [Session.collect]
    split_ifs <;> exact h.2.1
  | _ => trivial

theorem archiveProgram_fits {permSets : PermSets} {c : ClientId} {s' : ArchiveState}
    {place place' : Place} {input : Input} (hforest : (parents s).Forest) (h : PlaceFits s place)
    (hstep : archiveProgram permSets c s place input=some (s',place')) : PlaceFits s' place' := by
  unfold archiveProgram at hstep
  split at hstep
  · have heq := Option.some.inj hstep
    have hfits := resume_fits hforest h
    rw [heq] at hfits
    exact hfits
  · cases hstep
    exact collect_fits h _
  · cases hstep
    trivial
  · cases hstep
    trivial
  · cases hstep
    trivial
  · cases hstep
    exact begin_fits permSets _
  · cases hstep

end Steps

/-- Calls one after the other always keep the tree. -/
theorem dirTree_of_alone {permSets : PermSets} {w₀ w : World ArchiveState Place}
    (hidle : ∀ c, w₀.clients c=.idle) (hforest : (parents w₀.shared).Forest)
    (hids : IdsFresh w₀.shared) (hrun : (archiveProgram permSets).interleave.Reaches Alone w₀ w) :
    DirTree permSets w.shared := by
  have h₀ : Program.Holds ForestInvariant (fun _ s place => PlaceFits s place) w₀ := by
    refine ⟨⟨hforest,hids⟩,?_⟩
    intro c
    rw [hidle c]
    trivial
  have hw : Program.Holds ForestInvariant (fun _ s place => PlaceFits s place) w := by
    apply Program.Holds.of_reaches hrun h₀
    · intro w c input s place hw _ hstep
      refine ⟨?_,archiveProgram_fits hw.shared.forest (hw.clients c) hstep⟩
      apply (archiveProgram_effect hstep).forest hw.shared
      intro _ target session hplace
      have hfits := hw.clients c
      rw [hplace] at hfits
      exact hfits.moved
    · intro w c input s place c' _ halone _ hc
      rw [halone c' hc]
      trivial
  exact dirTree_of_forest permSets hw.shared.forest

end VbApi.Archive
