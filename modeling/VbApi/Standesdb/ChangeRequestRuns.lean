import VbApi.Standesdb.ChangeRequestInvariant

/-! Runs of submissions and resolutions. A submission writes by the id of the request that it read;
when that request is resolved in between, the write changes or deletes a decided row. -/
namespace VbApi.Standesdb
open VbApi.Foundations

/-- What a step of one client leaves to the others. -/
structure Evolves (c : ClientId) (s s' : ChangeRequests) : Prop where
  next : s.nextUuid ≤ s'.nextUuid
  rows : ∀ r' ∈ s'.rows, (∃ r ∈ s.rows, r.id=r'.id ∧ r.memberId=r'.memberId) ∨ s.nextUuid ≤ r'.id
  locks : ∀ id c', c' ≠ c → s.lockedBy id=some c' →
    s'.lockedBy id=some c' ∧ ∀ r ∈ s.rows, r.id=id → r ∈ s'.rows

lemma PlaceInvariant.evolves {c c' : ClientId} (hc : c' ≠ c) {s s' : ChangeRequests}
    (h : Evolves c s s') {place : Place} (hplace : PlaceInvariant c' s place) :
    PlaceInvariant c' s' place := by
  cases place with
  | write memberId data existing =>
    cases existing with
    | none => trivial
    | some existing =>
      obtain ⟨hlt,hmember⟩ := hplace
      refine ⟨hlt.trans_le h.next,?_⟩
      intro r' hr' hid
      rcases h.rows r' hr' with ⟨r,hr,hid',hmember'⟩ | hge
      · rw [← hmember']
        exact hmember r hr (hid'.trans hid)
      · rw [hid] at hge
        exact absurd hlt (not_lt.mpr hge)
  | resolve request member decisions expectedUpdatedAt =>
    obtain ⟨hlock,hmem⟩ := hplace
    obtain ⟨hlock',hrows⟩ := h.locks _ c' hc hlock
    exact ⟨hlock',hrows request hmem rfl⟩
  | idle => trivial
  | selectPending memberId data => trivial

/-- A step that is in order. -/
structure StepInOrder (c : ClientId) (s s' : ChangeRequests) : Prop where
  invariant : RequestsInvariant s'
  evolves : Evolves c s s'
  kept : ResolvedKept s s'

lemma Evolves.refl (c : ClientId) (s : ChangeRequests) : Evolves c s s :=
  ⟨le_rfl,fun r hr => .inl ⟨r,hr,rfl,rfl⟩,fun _ _ _ hlock => ⟨hlock,fun _ hr _ => hr⟩⟩

lemma StepInOrder.refl (c : ClientId) {s : ChangeRequests} (h : RequestsInvariant s) :
    StepInOrder c s s := ⟨h,.refl c s,fun _ hr _ => hr⟩

/-- The write of a submission whose request is as the condition says. -/
lemma submitWrite_inOrder (c : ClientId) {s s' : ChangeRequests} (h : RequestsInvariant s)
    {memberId : Uuid} {data : ProposedData} {existing : Option MemberChangeRequest}
    (hplace : PlaceInvariant c s (.write memberId data existing))
    (hok : ∀ e ∈ existing, ∀ r ∈ s.rows, r.id=e.id →
      if data ≠ noChange ∧ data=e.proposedData then r.proposedData=data else r.status=.pending)
    (hstep : submitWrite s memberId data existing=some s') : StepInOrder c s s' := by
  cases existing with
  | none =>
    simp only [submitWrite] at hstep
    split_ifs at hstep
    · cases hstep
      exact .refl c h
    · cases hstep
      exact .refl c h
    · cases hstep
      refine ⟨h.insertRequest memberId data,⟨Nat.le_succ _,?_,?_⟩,?_⟩
      · intro r hr
        rcases List.mem_append.mp hr with hr | hr
        · exact .inl ⟨r,hr,rfl,rfl⟩
        · rw [List.mem_singleton.mp hr]
          exact .inr le_rfl
      · exact fun _ _ _ hlock => ⟨hlock,fun r hr _ => List.mem_append_left _ hr⟩
      · exact fun r hr _ => List.mem_append_left _ hr
  | some existing =>
    obtain ⟨-,hmember⟩ := hplace
    have hok := hok existing rfl
    have hunlocked : ∀ {id' c'}, (s.lockedBy existing.id).isSome=false →
        s.lockedBy id'=some c' → id' ≠ existing.id := by
      rintro id' c' hnone hlock rfl
      rw [hlock] at hnone
      contradiction
    simp only [submitWrite] at hstep
    split_ifs at hstep with hempty hlocked hrow hsame hrow hlocked hrow
    all_goals cases hstep
    · have hpending : ∀ r ∈ s.rows, r.id=existing.id → r.status=.pending := by
        simpa [hempty] using hok
      refine ⟨h.deleteRequest hrow hmember,⟨le_rfl,?_,?_⟩,?_⟩
      · exact fun r hr => .inl ⟨r,List.mem_of_mem_filter hr,rfl,rfl⟩
      · intro id' c' _ hlock
        refine ⟨hlock,fun r hr hid => List.mem_filter.mpr ⟨hr,?_⟩⟩
        rw [hid]
        simpa using hunlocked (by simpa using hlocked) hlock
      · intro r hr hresolved
        refine List.mem_filter.mpr ⟨hr,?_⟩
        simp only [ne_eq,decide_eq_true_eq]
        intro hid
        rw [hpending r hr hid] at hresolved
        contradiction
    · exact .refl c h
    · have hdata : ∀ r ∈ s.rows, r.id=existing.id → r.proposedData=data := by
        intro r hr hid
        have hkept := hok r hr hid
        rwa [if_pos ⟨hempty,hsame⟩] at hkept
      exact ⟨h.keepRequest hrow hmember hdata,⟨le_rfl,fun r hr => .inl ⟨r,hr,rfl,rfl⟩,
        fun _ _ _ hlock => ⟨hlock,fun _ hr _ => hr⟩⟩,fun _ hr _ => hr⟩
    · exact .refl c h
    · have hpending : ∀ r ∈ s.rows, r.id=existing.id → r.status=.pending := by
        simpa [hsame] using hok
      refine ⟨h.updateRequest hrow hmember hpending data,⟨le_rfl,?_,?_⟩,?_⟩
      · intro r' hr'
        obtain ⟨r,hr,rfl⟩ := List.mem_map.mp hr'
        refine .inl ⟨r,hr,?_⟩
        split_ifs <;> exact ⟨rfl,rfl⟩
      · intro id' c' _ hlock
        refine ⟨hlock,fun r hr hid => List.mem_map.mpr ⟨r,hr,if_neg ?_⟩⟩
        rw [hid]
        exact hunlocked (by simpa using hlocked) hlock
      · intro r hr hresolved
        refine List.mem_map.mpr ⟨r,hr,if_neg ?_⟩
        intro hid
        rw [hpending r hr hid] at hresolved
        contradiction
    · exact .refl c h

/-- Locks do not matter to the rows. -/
lemma RequestsInvariant.setLocks {s : ChangeRequests} (h : RequestsInvariant s)
    (locks : Uuid → Option ClientId) : RequestsInvariant { s with lockedBy := locks } :=
  ⟨h.ids_nodup,h.ids_lt,h.keys,h.current,h.versions_lt,h.versions_inj,h.resolutions,h.kept,h.members⟩

/-- A lock that nobody else holds may be taken or given back. -/
lemma Evolves.setLock {c : ClientId} {s : ChangeRequests} {id : Uuid}
    (hfree : ∀ c', s.lockedBy id=some c' → c'=c) (owner : Option ClientId) :
    Evolves c s { s with lockedBy := Function.update s.lockedBy id owner } := by
  refine ⟨le_rfl,fun r hr => .inl ⟨r,hr,rfl,rfl⟩,?_⟩
  intro id' c' hc hlock
  have hne : id' ≠ id := by
    rintro rfl
    exact hc (hfree c' hlock)
  exact ⟨by rw [← hlock]; exact Function.update_of_ne hne _ _,fun _ hr _ => hr⟩

lemma resolveChangeRequest_inOrder {c : ClientId} {s : ChangeRequests} (h : RequestsInvariant s)
    (valid : Bool) {request : MemberChangeRequest} {member : MemberRecord}
    {decisions : FieldDecisions} {expectedUpdatedAt : Timestamp}
    (hplace : PlaceInvariant c s (.resolve request member decisions expectedUpdatedAt)) :
    StepInOrder c s
      (resolveChangeRequest s valid request member decisions expectedUpdatedAt) := by
  obtain ⟨hlock,hmem⟩ := hplace
  have hown : ∀ c', s.lockedBy request.id=some c' → c'=c := by
    intro c' hc'
    rw [hlock] at hc'
    exact (Option.some.inj hc').symm
  unfold resolveChangeRequest
  split_ifs with hchecks
  · obtain ⟨hpending,rfl,hkeys,-⟩ := hchecks
    have hne : ∀ r ∈ s.rows, r.id ≠ request.id → r ∈ (s.applyResolution request member decisions
        request.updatedAt).rows := fun r hr hne => List.mem_map.mpr ⟨r,hr,if_neg hne⟩
    refine ⟨(h.applyResolution hmem hkeys member).setLocks _,⟨le_rfl,?_,?_⟩,?_⟩
    · intro r' hr'
      obtain ⟨r,hr,rfl⟩ := List.mem_map.mp hr'
      refine .inl ⟨r,hr,?_⟩
      split_ifs <;> exact ⟨rfl,rfl⟩
    · intro id' c' hc hlock'
      have hid : id' ≠ request.id := by
        rintro rfl
        exact hc (hown c' hlock')
      refine ⟨by rw [← hlock']; exact Function.update_of_ne hid _ _,?_⟩
      exact fun r hr hr' => hne r hr (by rw [hr']; exact hid)
    · intro r hr hresolved
      refine hne r hr ?_
      intro hid
      rw [h.row_unique hr hmem hid,hpending] at hresolved
      contradiction
  · exact ⟨h.setLocks _,.setLock hown none,fun _ hr _ => hr⟩

/-- Every step that is in time is in order, and leaves its client with what it knows. -/
lemma changeRequestProgram_inOrder {w : World ChangeRequests Place} {c : ClientId} {input : Input}
    (hs : RequestsInvariant w.shared) (hplace : PlaceInvariant c w.shared (w.clients c))
    (hok : WritesInTime w (c,input)) {s' : ChangeRequests} {place' : Place}
    (hstep : changeRequestProgram c w.shared (w.clients c) input=some (s',place')) :
    StepInOrder c w.shared s' ∧ PlaceInvariant c s' place' := by
  unfold WritesInTime at hok
  dsimp only at hok
  generalize w.clients c=place at hplace hok hstep
  generalize w.shared=s at hs hplace hok hstep
  unfold changeRequestProgram at hstep
  split at hstep
  · cases hstep
    exact ⟨.refl c hs,trivial⟩
  · rename_i requestId decisions expectedUpdatedAt
    unfold getChangeRequestForUpdate at hstep
    cases hfind : s.rows.find? fun r => r.id=requestId with
    | none =>
      rw [hfind] at hstep
      cases hstep
      exact ⟨.refl c hs,trivial⟩
    | some request =>
      rw [hfind] at hstep
      dsimp only at hstep
      split_ifs at hstep with hlocked
      cases hstep
      have hid : request.id=requestId := by simpa using List.find?_some hfind
      have hfree : ∀ c', s.lockedBy requestId=some c' → c'=c := by
        intro c' hc'
        rw [hc'] at hlocked
        simp at hlocked
      refine ⟨⟨hs.setLocks _,.setLock hfree _,fun _ hr _ => hr⟩,?_,List.mem_of_find?_eq_some hfind⟩
      rw [hid]
      exact Function.update_self _ _ _
  · cases hstep
    exact ⟨⟨⟨hs.ids_nodup,hs.ids_lt,hs.keys,hs.current,hs.versions_lt,hs.versions_inj,
      hs.resolutions,hs.kept,hs.members⟩,⟨le_rfl,fun r hr => .inl ⟨r,hr,rfl,rfl⟩,
      fun _ _ _ hlock => ⟨hlock,fun _ hr _ => hr⟩⟩,fun _ hr _ => hr⟩,trivial⟩
  · rename_i memberId data _
    cases hstep
    refine ⟨.refl c hs,?_⟩
    cases hfind : s'.getOwnPendingRequest memberId with
    | none => trivial
    | some existing =>
      have hmem := List.mem_of_find?_eq_some hfind
      have hmember : existing.memberId=memberId := by
        have := List.find?_some hfind
        simp only [Bool.and_eq_true,decide_eq_true_eq] at this
        exact this.1
      refine ⟨hs.ids_lt existing hmem,?_⟩
      intro r hr hid
      rw [hs.row_unique hr hmem hid,hmember]
  · rename_i memberId data existing _
    obtain ⟨s'',hwrite,heq⟩ := Option.map_eq_some_iff.mp hstep
    cases heq
    refine ⟨submitWrite_inOrder c hs hplace ?_ hwrite,trivial⟩
    intro e he
    cases he
    exact hok
  · cases hstep
    exact ⟨resolveChangeRequest_inOrder hs _ hplace,trivial⟩
  · contradiction

/-- Nobody at work, and no requests yet. -/
structure StartOfRequests (w : World ChangeRequests Place) : Prop where
  idle : ∀ c, w.clients c=.idle
  rows : w.shared.rows=[]
  versions : w.shared.versions=[]
  resolutions : w.shared.resolutions=[]
  submissions : w.shared.submissions=[]

lemma StartOfRequests.holds {w : World ChangeRequests Place} (h : StartOfRequests w) :
    Program.Holds RequestsInvariant PlaceInvariant w := by
  obtain ⟨hidle,hrows,hversions,hresolutions,hsubmissions⟩ := h
  constructor
  · constructor
    · simp [hrows]
    · simp [hrows]
    · simp [KeysMatch,hrows]
    · simp [hrows]
    · simp [hversions]
    · simp [hversions]
    · simp [hresolutions]
    · intro newer older e data hsplit
      rw [hsubmissions] at hsplit
      simp at hsplit
    · simp [hsubmissions]
  · intro c
    rw [hidle c]
    trivial

lemma holds_of_reaches {w w' : World ChangeRequests Place}
    (h : Program.Holds RequestsInvariant PlaceInvariant w)
    (hrun : changeRequestProgram.interleave.Reaches WritesInTime w w') :
    Program.Holds RequestsInvariant PlaceInvariant w' := by
  refine Program.Holds.of_reaches hrun h ?_ ?_
  · intro w c input s place hw hok hstep
    obtain ⟨horder,hplace⟩ := changeRequestProgram_inOrder hw.shared (hw.clients c) hok hstep
    exact ⟨horder.invariant,hplace⟩
  · intro w c input s place c' hw hok hstep hc
    obtain ⟨horder,-⟩ := changeRequestProgram_inOrder hw.shared (hw.clients c) hok hstep
    exact (hw.clients c').evolves hc horder.evolves

/-- In every run whose submissions write in time, decided requests stay as they were decided, each
resolution wrote the version that it named, and no submission is lost. -/
theorem changeRequests_inTime {w₀ w : World ChangeRequests Place} (hstart : StartOfRequests w₀)
    (hrun : changeRequestProgram.interleave.Reaches WritesInTime w₀ w) :
    KeysMatch w.shared ∧
    (∀ w', changeRequestProgram.interleave.Reaches WritesInTime w w' →
      ResolvedKept w.shared w'.shared) ∧
    (∀ r ∈ w.shared.resolutions, FromVersion w.shared r) ∧ SubmissionsKept w.shared := by
  have hw := holds_of_reaches hstart.holds hrun
  refine ⟨hw.shared.keys,?_,hw.shared.resolutions,hw.shared.kept⟩
  intro w' hrun'
  refine hrun'.relates (R := fun w w' => ResolvedKept w.shared w'.shared) hw ?_
    (fun _ _ hr _ => hr) ?_ ?_
  · intro t a u ht hok hstep
    exact holds_of_reaches ht (.next .refl hok hstep)
  · exact fun s t u hst htu r hr hresolved => htu r (hst r hr hresolved) hresolved
  · rintro t ⟨c,input⟩ u ht hok hstep
    obtain ⟨s',place',hp,rfl⟩ := Program.interleave_step_eq_some.mp hstep
    exact (changeRequestProgram_inOrder ht.shared (ht.clients c) hok hp).1.kept

/-- One administrator's review: the fields that are approved. -/
def approve (fields : List SelfServiceField) : FieldDecisions := fun f =>
  if f ∈ fields then some .approved else none

/-- A record without values but one. -/
def recordWith (f : SelfServiceField) (v : String) : SelfServiceValues := fun g =>
  if g=f then some v else none

/-- An empty record and no requests. -/
def emptyWorld : World ChangeRequests Place where
  shared := ⟨[],fun _ => ⟨fun _ => none,false⟩,fun _ => none,1,1,[],[],[]⟩
  clients := fun _ => .idle

lemma emptyWorld_start : StartOfRequests emptyWorld := ⟨fun _ => rfl,rfl,rfl,rfl,rfl⟩

/-- A member submits, submits again, and the second version is approved. -/
def inTimeSchedule : List (ClientId × Input) :=
  [(0,.submitChangeRequest 7 (recordWith .nachname "Neumann")),(0,.next true),(0,.next true),
    (0,.submitChangeRequest 7 (recordWith .vorname "Max")),(0,.next true),(0,.next true),
    (1,.decideChangeRequest 1 (approve [.vorname]) 2),(1,.next true)]

lemma inTimeSchedule_meets :
    changeRequestProgram.interleave.Meets WritesInTime emptyWorld inTimeSchedule := by
  refine ⟨trivial,fun w₁ h₁ => ?_⟩
  cases h₁
  refine ⟨trivial,fun w₂ h₂ => ?_⟩
  cases h₂
  refine ⟨trivial,fun w₃ h₃ => ?_⟩
  cases h₃
  refine ⟨trivial,fun w₄ h₄ => ?_⟩
  cases h₄
  refine ⟨trivial,fun w₅ h₅ => ?_⟩
  cases h₅
  refine ⟨?_,fun w₆ h₆ => ?_⟩
  · intro r hr _
    rw [List.mem_singleton.mp hr,if_neg (by decide)]
  cases h₆
  refine ⟨trivial,fun w₇ h₇ => ?_⟩
  cases h₇
  exact ⟨trivial,fun _ _ => trivial⟩

theorem changeRequests_inTimeSchedule : ∃ w,
    changeRequestProgram.interleave.run emptyWorld inTimeSchedule=some w ∧
      (w.shared.live 7).values .vorname=some "Max" ∧ KeysMatch w.shared ∧ SubmissionsKept w.shared := by
  refine ⟨_,rfl,rfl,?_⟩
  obtain ⟨hkeys,-,-,hkept⟩ := changeRequests_inTime emptyWorld_start
    (Machine.reaches_of_run inTimeSchedule_meets rfl)
  exact ⟨hkeys,hkept⟩

/-- The member submits again and reads the pending request, then it is decided. -/
def decidedSchedule : List (ClientId × Input) :=
  [(0,.submitChangeRequest 7 (recordWith .nachname "Neumann")),(0,.next true),(0,.next true),
    (0,.submitChangeRequest 7 (recordWith .vorname "Max")),(0,.next true),
    (1,.decideChangeRequest 1 (approve [.nachname]) 1),(1,.next true)]

/-- The second submission then writes its proposal into the decided request. -/
theorem decided_request_altered : StartOfRequests emptyWorld ∧ ∃ w w',
    changeRequestProgram.interleave.run emptyWorld decidedSchedule=some w ∧
      changeRequestProgram.interleave.run w [(0,.next true)]=some w' ∧
      ¬ ResolvedKept w.shared w'.shared ∧ ¬ KeysMatch w'.shared := by
  refine ⟨emptyWorld_start,_,_,rfl,rfl,?_,?_⟩
  · intro hkept
    have hrow := List.mem_singleton.mp (hkept _ (List.mem_singleton_self _) rfl)
    have hdata := congrArg (fun r => r.proposedData .vorname) hrow
    contradiction
  · intro hkeys
    obtain ⟨decisions,hdecisions,hall⟩ := hkeys _ (List.mem_singleton_self _) rfl
    cases hdecisions
    have hvorname := hall .vorname
    contradiction

end VbApi.Standesdb
