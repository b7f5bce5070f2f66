import VbApi.Standesdb.ChangeRequests

/-! What the rows of the change requests keep under each write, when the request that is written is
still as it was read. -/
namespace VbApi.Standesdb
open VbApi.Foundations

/-- The decided fields are the proposed ones. -/
def KeysMatch (s : ChangeRequests) : Prop :=
  ∀ r ∈ s.rows, r.status=.resolved →
    ∃ decisions, r.fieldDecisions=some decisions ∧
      ∀ f, (decisions f).isSome=(r.proposedData f).isSome

/-- Each resolved row is still there as it was. -/
def ResolvedKept (s s' : ChangeRequests) : Prop :=
  ∀ r ∈ s.rows, r.status=.resolved → r ∈ s'.rows

/-- The delivery preference of a member that has left or died, whatever is approved; and one that was
never given, unless another one is approved. -/
def Resolution.Deactivates (r : Resolution) (f : SelfServiceField) : Prop :=
  f=.zustellungen ∧ (r.member.departed=true ∨
    r.member.values f=none ∧ r.fieldDecisions f ≠ some .approved)

/-- A field is written when it is approved, and with its proposed value. -/
structure Resolution.WritesApproved (r : Resolution) (data : ProposedData) (f : SelfServiceField) :
    Prop where
  only : ∀ x, r.written f=some x → r.fieldDecisions f=some .approved ∧ ∃ old, data f=some ⟨old,x⟩
  all : ∀ change, r.fieldDecisions f=some .approved → data f=some change →
    r.written f=some change.new ∨ r.member.values f=change.new

/-- The values that a resolution wrote are those of the version that it named; only the delivery
preference of whoever gets nothing is `deaktiviert`. -/
def FromVersion (s : ChangeRequests) (r : Resolution) : Prop :=
  ∃ v ∈ s.versions, v.requestId=r.requestId ∧ v.updatedAt=r.expectedUpdatedAt ∧
    (∀ v' ∈ s.versions, v'.requestId=r.requestId → v'.updatedAt=r.expectedUpdatedAt → v'=v) ∧
    (∀ f, ¬ r.Deactivates f → r.WritesApproved v.proposedData f) ∧
    ∀ f, r.Deactivates f →
      r.written f=some (some "deaktiviert") ∨ r.member.values f=some "deaktiviert"

/-- A submission is in its request, or the member submitted again for that request. -/
def SubmissionsKept (s : ChangeRequests) : Prop :=
  ∀ newer older e data, s.submissions=newer ++ e::older → e.proposedData=some data →
    (∃ r ∈ s.rows, r.id=e.requestId ∧ r.memberId=e.memberId ∧ r.proposedData=data) ∨
    ∃ e' ∈ newer, e'.requestId=e.requestId ∧ e'.memberId=e.memberId

/-- When a submission writes, the request that it read is still pending; when it has nothing to
change there, the request still holds the same proposal. -/
def WritesInTime (w : World ChangeRequests Place) (a : ClientId × Input) : Prop :=
  match w.clients a.1 with
  | .write _ data (some existing) => ∀ r ∈ w.shared.rows, r.id=existing.id →
      if data ≠ noChange ∧ data=existing.proposedData then r.proposedData=data
      else r.status=.pending
  | _ => True

/-- What the committed rows and the record of what happened keep. -/
structure RequestsInvariant (s : ChangeRequests) : Prop where
  ids_nodup : (s.rows.map (·.id)).Nodup
  ids_lt : ∀ r ∈ s.rows, r.id < s.nextUuid
  keys : KeysMatch s
  current : ∀ r ∈ s.rows, ⟨r.id,r.updatedAt,r.proposedData⟩ ∈ s.versions
  versions_lt : ∀ v ∈ s.versions, v.updatedAt < s.clock ∧ v.requestId < s.nextUuid
  versions_inj : ∀ v ∈ s.versions, ∀ v' ∈ s.versions, v.requestId=v'.requestId →
    v.updatedAt=v'.updatedAt → v=v'
  resolutions : ∀ r ∈ s.resolutions, FromVersion s r
  kept : SubmissionsKept s
  members : ∀ e ∈ s.submissions, e.requestId < s.nextUuid ∧
    ∀ r ∈ s.rows, r.id=e.requestId → r.memberId=e.memberId

/-- What a client in the middle of a call knows. -/
def PlaceInvariant (c : ClientId) (s : ChangeRequests) : Place → Prop
  | .write memberId _ (some existing) => existing.id < s.nextUuid ∧
      ∀ r ∈ s.rows, r.id=existing.id → r.memberId=memberId
  | .resolve request _ _ _ => s.lockedBy request.id=some c ∧ request ∈ s.rows
  | _ => True

lemma FromVersion.mono {s s' : ChangeRequests} {r : Resolution} (h : FromVersion s r)
    (added : List Version) (hversions : s'.versions=added ++ s.versions)
    (hnew : ∀ v ∈ added, s.clock ≤ v.updatedAt)
    (hlt : ∀ v ∈ s.versions, v.updatedAt < s.clock) : FromVersion s' r := by
  obtain ⟨v,hv,hid,hat,honly,hwrites⟩ := h
  refine ⟨v,by rw [hversions]; exact List.mem_append_right _ hv,hid,hat,?_,hwrites⟩
  intro v' hv' hid' hat'
  rw [hversions] at hv'
  rcases List.mem_append.mp hv' with hv' | hv'
  · -- a later moment is not the one that was named
    have hge := hnew v' hv'
    rw [hat',← hat] at hge
    exact absurd (hlt v hv) (not_lt.mpr hge)
  · exact honly v' hv' hid' hat'

/-- One more version, of a moment that no other has. -/
lemma RequestsInvariant.versions_cons {s : ChangeRequests} (h : RequestsInvariant s)
    (id : Uuid) (data : ProposedData) :
    ∀ v ∈ (⟨id,s.clock,data⟩::s.versions : List Version),
      ∀ v' ∈ (⟨id,s.clock,data⟩::s.versions : List Version), v.requestId=v'.requestId →
        v.updatedAt=v'.updatedAt → v=v' := by
  intro v hv v' hv' hid hat
  rcases List.mem_cons.mp hv with rfl | hv <;> rcases List.mem_cons.mp hv' with rfl | hv'
  · rfl
  · exact absurd hat (h.versions_lt v' hv').1.ne'
  · exact absurd hat (h.versions_lt v hv).1.ne
  · exact h.versions_inj v hv v' hv' hid hat

/-- One more submission: the older ones for the same request are replaced by it. -/
lemma SubmissionsKept.cons {s s' : ChangeRequests} (h : SubmissionsKept s) {e : Submission}
    (hsubmissions : s'.submissions=e::s.submissions)
    (hnew : ∀ data, e.proposedData=some data →
      ∃ r ∈ s'.rows, r.id=e.requestId ∧ r.memberId=e.memberId ∧ r.proposedData=data)
    (hother : ∀ r ∈ s.rows, r.id ≠ e.requestId → r ∈ s'.rows)
    (hmember : ∀ e' ∈ s.submissions, e'.requestId=e.requestId → e'.memberId=e.memberId) :
    SubmissionsKept s' := by
  intro newer older e' data hsplit hdata
  rw [hsubmissions] at hsplit
  cases newer with
  | nil =>
    obtain ⟨rfl,-⟩ := List.cons.inj hsplit
    exact .inl (hnew data hdata)
  | cons first newer =>
    rw [List.cons_append,List.cons.injEq] at hsplit
    obtain ⟨rfl,hsplit⟩ := hsplit
    have hmem : e' ∈ s.submissions := by
      rw [hsplit]
      exact List.mem_append_right _ List.mem_cons_self
    by_cases hid : e'.requestId=e.requestId
    · exact .inr ⟨e,List.mem_cons_self,hid.symm,(hmember e' hmem hid).symm⟩
    · rcases h newer older e' data hsplit hdata with ⟨r,hr,hrid,hrest⟩ | ⟨e'',he'',hrest⟩
      · exact .inl ⟨r,hother r hr (by rw [hrid]; exact hid),hrid,hrest⟩
      · exact .inr ⟨e'',List.mem_cons_of_mem _ he'',hrest⟩

lemma SubmissionsKept.map {s s' : ChangeRequests} (h : SubmissionsKept s)
    (hsubmissions : s'.submissions=s.submissions)
    (hrows : ∀ r ∈ s.rows, ∃ r' ∈ s'.rows, r'.id=r.id ∧ r'.memberId=r.memberId ∧
      r'.proposedData=r.proposedData) : SubmissionsKept s' := by
  intro newer older e data hsplit hdata
  rw [hsubmissions] at hsplit
  rcases h newer older e data hsplit hdata with ⟨r,hr,hid,hmember,hrdata⟩ | hlater
  · obtain ⟨r',hr',hid',hmember',hdata'⟩ := hrows r hr
    exact .inl ⟨r',hr',hid'.trans hid,hmember'.trans hmember,hdata'.trans hrdata⟩
  · exact .inr hlater

section Resolved
variable {r : Resolution} {data : ProposedData} {f : SelfServiceField}

/-- A change is written; a value that stays is not. -/
lemma writtenValues_eq {member : MemberRecord} {decisions : FieldDecisions} {v : Value}
    (hsaved : savedValues data member decisions f=v) :
    (∀ x, writtenValues data member decisions f=some x → x=v ∧ member.values f ≠ v) ∧
      (writtenValues data member decisions f=some v ∨ member.values f=v) := by
  simp only [writtenValues,hsaved]
  by_cases hsame : v=member.values f
  · simp [hsame]
  · rw [if_neg hsame]
    exact ⟨fun x hx => ⟨(Option.some.inj hx).symm,fun h => hsame h.symm⟩,.inl rfl⟩

lemma normalised_of_not_deactivates (hf : ¬ r.Deactivates f) (values : SelfServiceValues) :
    normalised r.member.departed values f=values f := if_neg fun h => hf ⟨h.1,.inl h.2⟩

variable (hr : r.written=writtenValues data r.member r.fieldDecisions)
include hr

lemma Resolution.deactivated (hf : r.Deactivates f) :
    r.written f=some (some "deaktiviert") ∨ r.member.values f=some "deaktiviert" := by
  rw [hr]
  refine (writtenValues_eq ?_).2
  obtain ⟨rfl,hdeparted | ⟨hnone,hd⟩⟩ := hf
  · exact if_pos ⟨rfl,hdeparted⟩
  · unfold savedValues normalised
    split_ifs
    · rfl
    · dsimp only
      split
      · rename_i happroved _
        exact absurd happroved hd
      · exact if_pos ⟨rfl,hnone⟩

variable (hkeys : ∀ f, (r.fieldDecisions f).isSome=(data f).isSome)
include hkeys

lemma Resolution.writesApproved (hf : ¬ r.Deactivates f) : r.WritesApproved data f := by
  by_cases happroved : r.fieldDecisions f=some .approved
  · obtain ⟨change,hchange⟩ : ∃ change, data f=some change := by
      rw [← Option.isSome_iff_exists,← hkeys,happroved]
      rfl
    have hsaved : savedValues data r.member r.fieldDecisions f=change.new := by
      rw [savedValues,normalised_of_not_deactivates hf,happroved,hchange]
    obtain ⟨honly,hall⟩ := writtenValues_eq hsaved
    rw [← hr] at honly hall
    constructor
    · intro x hx
      rw [(honly x hx).1]
      exact ⟨happroved,change.old,hchange⟩
    · intro change' _ hchange'
      rw [hchange] at hchange'
      cases hchange'
      exact hall
  · have hcurrent : currentFull r.member f=r.member.values f :=
      if_neg fun h => hf ⟨h.1,.inr ⟨h.2,happroved⟩⟩
    have hsaved : savedValues data r.member r.fieldDecisions f=r.member.values f := by
      rw [savedValues,normalised_of_not_deactivates hf,← hcurrent]
      split
      · rename_i hd _
        exact absurd hd happroved
      · rfl
    obtain ⟨honly,-⟩ := writtenValues_eq hsaved
    rw [← hr] at honly
    exact ⟨fun x hx => absurd rfl (honly x hx).2,fun _ h => absurd h happroved⟩

end Resolved

section Writes
variable {s : ChangeRequests} (h : RequestsInvariant s)
include h

lemma RequestsInvariant.row_unique {r r' : MemberChangeRequest} (hr : r ∈ s.rows) (hr' : r' ∈ s.rows)
    (hid : r.id=r'.id) : r=r' := List.inj_on_of_nodup_map h.ids_nodup hr hr' hid

lemma RequestsInvariant.insertRequest (memberId : Uuid) (data : ProposedData) :
    RequestsInvariant (s.insertRequest memberId data) := by
  have hfresh : ∀ r ∈ s.rows, r.id ≠ s.nextUuid := fun r hr => (h.ids_lt r hr).ne
  constructor
  · rw [ChangeRequests.insertRequest,List.map_append]
    refine h.ids_nodup.append (List.nodup_singleton _) ?_
    intro id hold hnew
    obtain ⟨r,hr,rfl⟩ := List.mem_map.mp hold
    exact hfresh r hr (List.mem_singleton.mp hnew)
  · intro r hr
    rcases List.mem_append.mp hr with hr | hr
    · exact (h.ids_lt r hr).trans (Nat.lt_succ_self _)
    · rw [List.mem_singleton.mp hr]
      exact Nat.lt_succ_self _
  · intro r hr hresolved
    rcases List.mem_append.mp hr with hr | hr
    · exact h.keys r hr hresolved
    · rw [List.mem_singleton.mp hr] at hresolved
      contradiction
  · intro r hr
    rcases List.mem_append.mp hr with hr | hr
    · exact List.mem_cons_of_mem _ (h.current r hr)
    · rw [List.mem_singleton.mp hr]
      exact List.mem_cons_self
  · intro v hv
    rcases List.mem_cons.mp hv with rfl | hv
    · exact ⟨Nat.lt_succ_self _,Nat.lt_succ_self _⟩
    · obtain ⟨hat,hid⟩ := h.versions_lt v hv
      exact ⟨hat.trans (Nat.lt_succ_self _),hid.trans (Nat.lt_succ_self _)⟩
  · exact h.versions_cons s.nextUuid data
  · intro r hr
    refine (h.resolutions r hr).mono [⟨s.nextUuid,s.clock,data⟩] rfl ?_ ?_
    · simp
    · exact fun v hv => (h.versions_lt v hv).1
  · refine h.kept.cons (e := ⟨memberId,s.nextUuid,some data⟩) rfl ?_ ?_ ?_
    · intro data' hdata
      cases hdata
      exact ⟨_,List.mem_append_right _ (List.mem_singleton_self _),rfl,rfl,rfl⟩
    · exact fun r hr _ => List.mem_append_left _ hr
    · exact fun e he hid => absurd hid (h.members e he).1.ne
  · intro e he
    rcases List.mem_cons.mp he with rfl | he
    · refine ⟨Nat.lt_succ_self _,?_⟩
      intro r hr hid
      rcases List.mem_append.mp hr with hr | hr
      · exact absurd hid (hfresh r hr)
      · rw [List.mem_singleton.mp hr]
    · obtain ⟨hlt,hmember⟩ := h.members e he
      refine ⟨hlt.trans (Nat.lt_succ_self _),?_⟩
      intro r hr hid
      rcases List.mem_append.mp hr with hr | hr
      · exact hmember r hr hid
      · rw [List.mem_singleton.mp hr] at hid
        exact absurd hid.symm hlt.ne

/-- A change of one row at a new moment. -/
lemma RequestsInvariant.changeRow {s' : ChangeRequests} {id : Uuid} (data : ProposedData)
    (change : MemberChangeRequest → MemberChangeRequest)
    (hrows : s'.rows=s.rows.map fun r => if r.id=id then change r else r)
    (hclock : s'.clock=s.clock+1) (hnext : s'.nextUuid=s.nextUuid)
    (hversions : s'.versions=⟨id,s.clock,data⟩::s.versions) (hlt : id < s.nextUuid)
    (hchange : ∀ r ∈ s.rows, r.id=id → (change r).id=r.id ∧ (change r).memberId=r.memberId ∧
      (change r).updatedAt=s.clock ∧ (change r).proposedData=data)
    (hkeys : ∀ r ∈ s.rows, r.id=id → (change r).status=.resolved →
      ∃ decisions, (change r).fieldDecisions=some decisions ∧
        ∀ f, (decisions f).isSome=(data f).isSome)
    (hresolutions : ∀ r ∈ s'.resolutions, FromVersion s' r) (hkept : SubmissionsKept s')
    (hmembers : ∀ e ∈ s'.submissions, e.requestId < s.nextUuid ∧
      ∀ r ∈ s.rows, r.id=e.requestId → r.memberId=e.memberId) : RequestsInvariant s' := by
  have hrow : ∀ r' ∈ s'.rows, ∃ r ∈ s.rows, r'.id=r.id ∧ r'.memberId=r.memberId ∧
      ((r.id=id ∧ r'=change r) ∨ (r.id ≠ id ∧ r'=r)) := by
    intro r' hr'
    rw [hrows] at hr'
    obtain ⟨r,hr,rfl⟩ := List.mem_map.mp hr'
    by_cases hid : r.id=id
    · obtain ⟨hid',hmember,-,-⟩ := hchange r hr hid
      rw [if_pos hid]
      exact ⟨r,hr,hid',hmember,.inl ⟨hid,rfl⟩⟩
    · rw [if_neg hid]
      exact ⟨r,hr,rfl,rfl,.inr ⟨hid,rfl⟩⟩
  constructor
  · have hids : s'.rows.map (·.id)=s.rows.map (·.id) := by
      rw [hrows,List.map_map]
      apply List.map_congr_left
      intro r hr
      by_cases hid : r.id=id
      · simp [hid,(hchange r hr hid).1]
      · simp [hid]
    rw [hids]
    exact h.ids_nodup
  · intro r' hr'
    obtain ⟨r,hr,hid,-,-⟩ := hrow r' hr'
    rw [hid,hnext]
    exact h.ids_lt r hr
  · intro r' hr' hresolved
    obtain ⟨r,hr,-,-,⟨hid,rfl⟩ | ⟨-,rfl⟩⟩ := hrow r' hr'
    · rw [(hchange r hr hid).2.2.2]
      exact hkeys r hr hid hresolved
    · exact h.keys r' hr hresolved
  · intro r' hr'
    rw [hversions]
    obtain ⟨r,hr,-,-,⟨hid,rfl⟩ | ⟨-,rfl⟩⟩ := hrow r' hr'
    · obtain ⟨hid',-,hat,hdata⟩ := hchange r hr hid
      rw [hid',hid,hat,hdata]
      exact List.mem_cons_self
    · exact List.mem_cons_of_mem _ (h.current r' hr)
  · intro v hv
    rw [hversions] at hv
    rw [hclock,hnext]
    rcases List.mem_cons.mp hv with rfl | hv
    · exact ⟨Nat.lt_succ_self _,hlt⟩
    · exact ⟨(h.versions_lt v hv).1.trans (Nat.lt_succ_self _),(h.versions_lt v hv).2⟩
  · rw [hversions]
    exact h.versions_cons id data
  · exact hresolutions
  · exact hkept
  · intro e he
    obtain ⟨hlt',hmember⟩ := hmembers e he
    rw [hnext]
    refine ⟨hlt',?_⟩
    intro r' hr' hid'
    obtain ⟨r,hr,hid,hmember',-⟩ := hrow r' hr'
    rw [hmember']
    exact hmember r hr (hid.symm.trans hid')

lemma RequestsInvariant.resolutions_cons {s' : ChangeRequests} {id : Uuid} {data : ProposedData}
    (hversions : s'.versions=⟨id,s.clock,data⟩::s.versions) :
    ∀ r ∈ s.resolutions, FromVersion s' r := by
  intro r hr
  refine (h.resolutions r hr).mono [⟨id,s.clock,data⟩] hversions ?_ ?_
  · simp
  · exact fun v hv => (h.versions_lt v hv).1

lemma RequestsInvariant.updateRequest {memberId id : Uuid} (hrow : s.hasRow id)
    (hmember : ∀ r ∈ s.rows, r.id=id → r.memberId=memberId)
    (hpending : ∀ r ∈ s.rows, r.id=id → r.status=.pending) (data : ProposedData) :
    RequestsInvariant (s.updateRequest memberId id data) := by
  obtain ⟨row,hmem,hid⟩ := hrow
  have hlt : id < s.nextUuid := by
    rw [← hid]
    exact h.ids_lt row hmem
  refine h.changeRow data (fun r => { r with proposedData := data, updatedAt := s.clock })
    rfl rfl rfl rfl hlt (fun _ _ _ => ⟨rfl,rfl,rfl,rfl⟩) ?_ (h.resolutions_cons rfl) ?_ ?_
  · intro r hr hid hresolved
    have hstatus : r.status=.resolved := hresolved
    rw [hpending r hr hid] at hstatus
    contradiction
  · refine h.kept.cons (e := ⟨memberId,id,some data⟩) rfl ?_ ?_ ?_
    · intro data' hdata
      cases hdata
      exact ⟨_,List.mem_map.mpr ⟨row,hmem,if_pos hid⟩,hid,hmember row hmem hid,rfl⟩
    · exact fun r hr hne => List.mem_map.mpr ⟨r,hr,if_neg hne⟩
    · intro e he heid
      rw [← (h.members e he).2 row hmem (hid.trans heid.symm),hmember row hmem hid]
  · intro e he
    rcases List.mem_cons.mp he with rfl | he
    · exact ⟨hlt,hmember⟩
    · exact h.members e he

lemma RequestsInvariant.keepRequest {memberId id : Uuid} (hrow : s.hasRow id)
    (hmember : ∀ r ∈ s.rows, r.id=id → r.memberId=memberId) {data : ProposedData}
    (hsame : ∀ r ∈ s.rows, r.id=id → r.proposedData=data) :
    RequestsInvariant (s.keepRequest memberId id data) := by
  obtain ⟨row,hmem,hid⟩ := hrow
  refine ⟨h.ids_nodup,h.ids_lt,h.keys,h.current,h.versions_lt,h.versions_inj,h.resolutions,?_,?_⟩
  · refine h.kept.cons (e := ⟨memberId,id,some data⟩) rfl ?_ (fun r hr _ => hr) ?_
    · intro data' hdata
      cases hdata
      exact ⟨row,hmem,hid,hmember row hmem hid,hsame row hmem hid⟩
    · intro e he heid
      rw [← (h.members e he).2 row hmem (hid.trans heid.symm),hmember row hmem hid]
  · intro e he
    rcases List.mem_cons.mp he with rfl | he
    · refine ⟨?_,hmember⟩
      rw [← hid]
      exact h.ids_lt row hmem
    · exact h.members e he

lemma RequestsInvariant.deleteRequest {memberId id : Uuid} (hrow : s.hasRow id)
    (hmember : ∀ r ∈ s.rows, r.id=id → r.memberId=memberId) :
    RequestsInvariant (s.deleteRequest memberId id) := by
  obtain ⟨row,hmem,hid⟩ := hrow
  have hrows : ∀ r ∈ (s.deleteRequest memberId id).rows, r ∈ s.rows := fun r hr =>
    List.mem_of_mem_filter hr
  refine ⟨h.ids_nodup.sublist (List.filter_sublist.map _),fun r hr => h.ids_lt r (hrows r hr),
    fun r hr => h.keys r (hrows r hr),fun r hr => h.current r (hrows r hr),h.versions_lt,
    h.versions_inj,h.resolutions,?_,?_⟩
  · refine h.kept.cons (e := ⟨memberId,id,none⟩) rfl (fun data hdata => by contradiction) ?_ ?_
    · exact fun r hr hne => List.mem_filter.mpr ⟨hr,by simpa using hne⟩
    · intro e he heid
      rw [← (h.members e he).2 row hmem (hid.trans heid.symm),hmember row hmem hid]
  · intro e he
    rcases List.mem_cons.mp he with rfl | he
    · refine ⟨?_,fun r hr => hmember r (hrows r hr)⟩
      rw [← hid]
      exact h.ids_lt row hmem
    · exact ⟨(h.members e he).1,fun r hr => (h.members e he).2 r (hrows r hr)⟩

lemma RequestsInvariant.applyResolution {request : MemberChangeRequest} (hmem : request ∈ s.rows)
    {decisions : FieldDecisions}
    (hkeys : ∀ f, (decisions f).isSome=(request.proposedData f).isSome) (member : MemberRecord) :
    RequestsInvariant (s.applyResolution request member decisions request.updatedAt) := by
  have honly : ∀ r ∈ s.rows, r.id=request.id → r=request := fun r hr hid =>
    h.row_unique hr hmem hid
  refine h.changeRow request.proposedData
    (fun r =>
      { r with status := .resolved, fieldDecisions := some decisions, updatedAt := s.clock })
    rfl rfl rfl rfl (h.ids_lt request hmem) ?_ ?_ ?_ ?_ h.members
  · intro r hr hid
    rw [honly r hr hid]
    exact ⟨rfl,rfl,rfl,rfl⟩
  · exact fun r hr hid _ => ⟨decisions,rfl,hkeys⟩
  · intro r hr
    rcases List.mem_cons.mp hr with rfl | hr
    · have hversion := List.mem_cons_of_mem ⟨request.id,s.clock,request.proposedData⟩
        (h.current request hmem)
      refine ⟨_,hversion,rfl,rfl,?_,?_,?_⟩
      · intro v hv hid hat
        exact h.versions_cons _ _ v hv _ hversion hid hat
      · exact fun f hf => Resolution.writesApproved rfl hkeys hf
      · exact fun f hf => Resolution.deactivated rfl hf
    · exact h.resolutions_cons rfl r hr
  · refine h.kept.map rfl ?_
    intro r hr
    refine ⟨_,List.mem_map_of_mem hr,?_⟩
    split_ifs <;> exact ⟨rfl,rfl,rfl⟩

end Writes

end VbApi.Standesdb
