import VbApi.Members.StatusRules

/-! The organisations keep apart: only who administers an organisation changes its members, and nobody
comes to administer an organisation that nobody administers. -/
namespace VbApi.Members
open VbApi.Foundations Stateful Transaction
open VbApi.Standesdb (Uuid Timestamp SelfServiceField FieldDecisions)

/-- The user may administer the organisation on a day. -/
def Administers (env : Environment) (roles : List Role) (today : Date) (user : Actor)
    (orgId : PyText) : Prop :=
  orgAdminPermission orgId ∈ calculatePermissions env roles today user

def knownOrgs : List PyText := [text "vbw",text "vbn"]

/-- No stored member may administer the organisation, on any day. -/
def NobodyAdministers (env : Environment) (db : Database) (orgId : PyText) : Prop :=
  ∀ id m, db.members.get? id=some m → ∀ day, ¬ Administers env db.roles day ⟨id,m⟩ orgId

/-- Ids that are still to come are free, and the members belong to the known organisations. -/
structure Registered (db : Database) : Prop where
  used : ∀ id m, db.members.get? id=some m → id < db.nextUuid
  known : ∀ id m orgId, db.members.get? id=some m → m.columns.text .orgId=some orgId → orgId ∈ knownOrgs

/-- Nothing but the owner's own settings may differ: the subscription, the password and what
proves the address. -/
structure OwnSettings (m m' : Member) : Prop where
  columns : m'.columns={m.columns with
    flag := Function.update m.columns.flag .chroniclemail (m'.columns.flag .chroniclemail)}
  memberRoles : m'.memberRoles=m.memberRoles
  memberBadges : m'.memberBadges=m.memberBadges
  memberKeys : m'.memberKeys=m.memberKeys
  modifiedAt : m'.modifiedAt=m.modifiedAt
  modifiedBy : m'.modifiedBy=m.modifiedBy
  other : m'.other=m.other

/-- The organisation has the same members with the same records, up to their own settings. -/
structure SameMembers (orgId : PyText) (db db' : Database) : Prop where
  kept : ∀ id m, db.members.get? id=some m → m.columns.text .orgId=some orgId →
    ∃ m', db'.members.get? id=some m' ∧ OwnSettings m m'
  no_new : ∀ id m', db'.members.get? id=some m' → m'.columns.text .orgId=some orgId →
    ∃ m, db.members.get? id=some m ∧ m.columns.text .orgId=some orgId

/-- Who makes a call for others, and when. -/
def Call.user? : Call → Option (Moment × Actor)
  | .createMember moment _ user => some (moment,user)
  | .updateMember moment _ _ user => some (moment,user)
  | .decideChangeRequest moment _ _ _ user => some (moment,user)
  | _ => none

/-- The users of the calls are the members that are stored when they call. -/
def SignedIn (env : Environment) : Database → List Call → Prop
  | _,[] => True
  | db,call::calls =>
    (∀ moment user, call.user?=some (moment,user) → db.members.get? user.id=some user.member) ∧
      SignedIn env (step env db call) calls

/-! ### Rights -/

section Rights
variable {env : Environment} {roles : List Role} {today : Date} {user : Actor} {orgId : PyText}

lemma requireOrgAdmin_ok {orgId? : Option PyText}
    (h : requireOrgAdmin env roles today user orgId?=.ok ()) :
    ∃ orgId, orgId?=some orgId ∧ Administers env roles today user orgId := by
  unfold requireOrgAdmin at h
  cases hfilter : orgId?.filter (· ≠ []) with
  | none =>
    rw [hfilter] at h
    cases h
  | some org =>
    rw [hfilter] at h
    refine ⟨org,(Option.filter_eq_some_iff.mp hfilter).1,?_⟩
    change orgAdminPermission org ∈ calculatePermissions env roles today user
    exact guardError_eq_ok_iff.mp h

/-- Outside development a permission comes from a rule. -/
lemma mem_calculatePermissions_iff (hdev : env.devSuperuserId=none) {permission : PyText} :
    permission ∈ calculatePermissions env roles today user ↔
      ∃ r ∈ permissionRules env, r.permission=permission ∧
        r.condition (activeRoles roles today user.member).1 (activeRoles roles today user.member).2
          (user.member.columns.text .orgId) user.member.verifiedEmail=true := by
  have hnone : env.devSuperuserId ≠ some user.id := by simp [hdev]
  rw [calculatePermissions,if_neg hnone,List.mem_map]
  simp only [List.mem_filter]
  constructor
  · rintro ⟨r,⟨hr,hcondition⟩,hname⟩
    exact ⟨r,hr,hname,hcondition⟩
  · rintro ⟨r,hr,hname,hcondition⟩
    exact ⟨r,⟨hr,hcondition⟩,hname⟩

/-- The roles with which a member of the organisation administers it. -/
def adminRoles (orgId : PyText) : List RoleId :=
  if orgId=text "vbw" then [text "standesfuehrer",text "internetreferent"] else [text "standesfuehrer"]

/-- Only a member of an organisation administers it, with one of its roles. -/
lemma administers_iff (hdev : env.devSuperuserId=none) (hknown : orgId ∈ knownOrgs) :
    Administers env roles today user orgId ↔ user.member.columns.text .orgId=some orgId ∧
      meets (adminRoles orgId) (activeRoles roles today user.member).1=true := by
  rw [Administers,mem_calculatePermissions_iff hdev]
  have hcases : orgId=text "vbw" ∨ orgId=text "vbn" := by simpa [knownOrgs] using hknown
  have hvbw : orgAdminPermission (text "vbw")=text "standesdbVbwAdmin" := by decide
  have hvbn : orgAdminPermission (text "vbn")=text "standesdbVbnAdmin" := by decide
  have hroles : adminRoles (text "vbn")=[text "standesfuehrer"] := if_neg (by decide)
  obtain rfl | rfl := hcases
  · rw [hvbw,adminRoles,if_pos rfl]
    constructor
    · rintro ⟨r,hr,hname,hcondition⟩
      simp only [permissionRules,List.mem_cons,List.not_mem_nil,or_false] at hr
      rcases hr with rfl | rfl | rfl | rfl | rfl | rfl | rfl | rfl | rfl | rfl
      case inr.inr.inr.inl => simpa using hcondition
      all_goals
        dsimp only at hname
        exact absurd hname (by decide)
    · intro h
      have hlt : 3 < (permissionRules env).length := by simp [permissionRules]
      refine ⟨(permissionRules env)[3],List.getElem_mem hlt,rfl,?_⟩
      simpa [permissionRules] using h
  · rw [hvbn,hroles]
    constructor
    · rintro ⟨r,hr,hname,hcondition⟩
      simp only [permissionRules,List.mem_cons,List.not_mem_nil,or_false] at hr
      rcases hr with rfl | rfl | rfl | rfl | rfl | rfl | rfl | rfl | rfl | rfl
      case inr.inr.inr.inr.inl => simpa [meets,and_comm] using hcondition
      all_goals
        dsimp only at hname
        exact absurd hname (by decide)
    · intro h
      have hlt : 4 < (permissionRules env).length := by simp [permissionRules]
      refine ⟨(permissionRules env)[4],List.getElem_mem hlt,rfl,?_⟩
      simpa [permissionRules,meets,and_comm] using h

lemma Administers.org (hdev : env.devSuperuserId=none) (hknown : orgId ∈ knownOrgs)
    (h : Administers env roles today user orgId) : user.member.columns.text .orgId=some orgId :=
  ((administers_iff hdev hknown).mp h).1

end Rights

/-! ### What a call does to the members, and by what right -/

/-- The members before and after a call that is not a save. -/
structure OwnCall (db db' : Database) : Prop where
  members : ∀ id, Option.Rel OwnSettings (db.members.get? id) (db'.members.get? id)
  roles : db'.roles=db.roles
  later : db.nextUuid ≤ db'.nextUuid

/-- A save of a member by a user who administers the organisation of the record, into the
organisation that both the user and the input name. -/
structure SavedBy (env : Environment) (db db' : Database) (moment : Moment) (user : Actor)
    (memberId : Uuid) (existing : Option Member) (data : MemberSaveRequest) : Prop where
  admin : ∃ orgId, Administers env db.roles moment.today user orgId ∧
    (existing.elim (data.columns.text .orgId) fun m => m.columns.text .orgId)=some orgId
  own : data.columns.text .orgId=user.member.columns.text .orgId
  references : ∀ e ∈ data.rolesHistory.map RoleHistoryEntry.entry,
    e.roleId ∈ db.roles.map Role.id ∨ ∃ m, existing=some m ∧ e ∈ m.memberRoles
  found : ∀ m, existing=some m → db.members.get? memberId=some m
  fresh : existing=none → memberId=db.nextUuid ∧ db.nextUuid < db'.nextUuid
  members : db'.members=db.members.set memberId (savedMember moment existing data user.id)
  roles : db'.roles=db.roles
  later : db.nextUuid ≤ db'.nextUuid

/-- The effect of a call together with its right. -/
def Guarded (env : Environment) (call : Call) (db db' : Database) : Prop :=
  OwnCall db db' ∨ ∃ moment user, call.user?=some (moment,user) ∧
    ∃ memberId existing data, SavedBy env db db' moment user memberId existing data

section
variable {env : Environment} {moment : Moment} {memberId requestId : Uuid} {user : Actor}
  {db db' : Database} {s s' : Session Database}

@[refl] lemma OwnSettings.refl (m : Member) : OwnSettings m m :=
  ⟨by simp,rfl,rfl,rfl,rfl,rfl,rfl⟩

lemma OwnCall.of_members_eq (h : db'.members=db.members) (hroles : db'.roles=db.roles)
    (hlater : db.nextUuid ≤ db'.nextUuid) : OwnCall db db' := by
  refine ⟨fun id => ?_,hroles,hlater⟩
  rw [h]
  cases db.members.get? id with
  | none => exact .none
  | some m => exact .some (.refl m)

lemma OwnCall.putMember {m m' : Member} (hfound : db.members.get? memberId=some m)
    (h : OwnSettings m m') : OwnCall db (putMember memberId m' db) := by
  refine ⟨fun id => ?_,rfl,le_rfl⟩
  by_cases hid : id=memberId
  · subst hid
    rw [hfound,Members.putMember,Dict.get?_set_self]
    exact .some h
  · rw [Members.putMember,Dict.get?_set_of_ne _ hid]
    cases db.members.get? id with
    | none => exact .none
    | some m => exact .some (.refl m)

lemma validateIdsExist_ok {ι : Type} [DecidableEq ι] {valid entries : List ι} {label : PyText}
    {show_ : ι → PyText} {u : Unit} (h : validateIdsExist valid entries label show_=.ok u) :
    ∀ id ∈ entries, id ∈ valid := by
  unfold validateIdsExist at h
  split at h
  · rename_i hnone
    intro id hid
    simpa using List.find?_eq_none.mp hnone id hid
  · cases h

/-- The roles of a checked input are there. -/
lemma validateMemberReferences_roles {data : MemberSaveRequest} {u : Unit}
    (h : validateMemberReferences db data=.ok u) :
    ∀ e ∈ data.rolesHistory.map RoleHistoryEntry.entry, e.roleId ∈ db.roles.map Role.id := by
  obtain ⟨_,-,h⟩ := bind_eq_ok_iff.mp h
  obtain ⟨_,hroles,-⟩ := bind_eq_ok_iff.mp h
  intro e he
  obtain ⟨entry,hentry,rfl⟩ := List.mem_map.mp he
  exact validateIdsExist_ok hroles entry.id (List.mem_map_of_mem hentry)

lemma createMember_savedBy {body : MemberInput} {id : Uuid}
    (h : exec (createMember env moment body user) ⟨db,db⟩=(.ok id,s')) :
    ∃ memberId existing data, SavedBy env db s'.committed moment user memberId existing data := by
  obtain ⟨data,-,h⟩ := check_bind_eq_ok_iff.mp h
  obtain ⟨_,hadmin,h⟩ := check_bind_eq_ok_iff.mp h
  obtain ⟨_,horg,h⟩ := check_bind_eq_ok_iff.mp h
  obtain ⟨_,-,h⟩ := check_bind_eq_ok_iff.mp h
  obtain ⟨_,-,h⟩ := check_bind_eq_ok_iff.mp h
  obtain ⟨_,hreferences,h⟩ := check_bind_eq_ok_iff.mp h
  obtain ⟨memberId,s₁,hid,h⟩ := exec_bind_eq_ok_iff.mp h
  obtain ⟨diff,s₂,happly,h⟩ := exec_bind_eq_ok_iff.mp h
  rw [exec_pure,Prod.mk.injEq] at h
  obtain ⟨-,rfl⟩ := h
  obtain ⟨rfl,rfl⟩ := newId_ok hid
  obtain ⟨-,hcurrent,hcommitted⟩ := applyMemberInput_ok happly
  rw [hcommitted,if_pos rfl,hcurrent]
  obtain ⟨orgId,hsome,hadmin⟩ := requireOrgAdmin_ok hadmin
  refine ⟨db.nextUuid,none,data,⟨orgId,hadmin,hsome⟩,guardError_eq_ok_iff.mp horg,?_,?_,?_,rfl,rfl,?_⟩
  · intro e he
    exact .inl (validateMemberReferences_roles hreferences e he)
  · intro m hm
    cases hm
  · intro _
    exact ⟨rfl,Nat.lt_succ_self _⟩
  · exact Nat.le_succ _

lemma getAssignedMemberForOrgAdmin_admin {m : Member}
    (h : getAssignedMemberForOrgAdmin env db moment memberId user=.ok m) :
    ∃ orgId, Administers env db.roles moment.today user orgId ∧ m.columns.text .orgId=some orgId := by
  obtain ⟨m',-,h⟩ := bind_eq_ok_iff.mp h
  obtain ⟨_,-,h⟩ := bind_eq_ok_iff.mp h
  obtain ⟨_,hadmin,h⟩ := bind_eq_ok_iff.mp h
  cases h
  obtain ⟨orgId,hsome,hadmin⟩ := requireOrgAdmin_ok hadmin
  exact ⟨orgId,hadmin,hsome⟩

lemma updateMember_savedBy {body : MemberInput} {diff : Diff}
    (h : exec (updateMember env moment memberId body user) ⟨db,db⟩=(.ok diff,s')) :
    ∃ existing data, SavedBy env db s'.committed moment user memberId existing data := by
  obtain ⟨data,-,h⟩ := check_bind_eq_ok_iff.mp h
  obtain ⟨m,hm,h⟩ := check_bind_eq_ok_iff.mp h
  obtain ⟨_,horg,h⟩ := check_bind_eq_ok_iff.mp h
  obtain ⟨_,-,h⟩ := check_bind_eq_ok_iff.mp h
  obtain ⟨_,-,h⟩ := check_bind_eq_ok_iff.mp h
  obtain ⟨_,hreferences,h⟩ := check_bind_eq_ok_iff.mp h
  obtain ⟨-,hcurrent,hcommitted⟩ := applyMemberInput_ok h
  rw [hcommitted,if_pos rfl,hcurrent]
  refine ⟨some m,data,getAssignedMemberForOrgAdmin_admin hm,guardError_eq_ok_iff.mp horg,?_,?_,?_,rfl,
    rfl,le_rfl⟩
  · intro e he
    exact .inl (validateMemberReferences_roles hreferences e he)
  · intro m' hm'
    cases hm'
    exact getAssignedMemberForOrgAdmin_ok hm
  · intro hnone
    cases hnone

lemma resolveChangeRequest_own {request : MemberChangeRequest} {decisions : FieldDecisions}
    {expectedUpdatedAt : Timestamp} {u : Unit}
    (h : exec (resolveChangeRequest env moment requestId request decisions expectedUpdatedAt user)
      ⟨db,db⟩=(.ok u,s')) :
    ∃ m data, db.members.get? request.memberId=some m ∧
      data.columns.text .orgId=user.member.columns.text .orgId ∧
      data.rolesHistory.map RoleHistoryEntry.entry=m.memberRoles ∧
      s'.committed.members=db.members.set request.memberId (savedMember moment (some m) data user.id) ∧
      s'.committed.roles=db.roles ∧ s'.committed.nextUuid=db.nextUuid := by
  obtain ⟨_,-,h⟩ := check_bind_eq_ok_iff.mp h
  obtain ⟨_,-,h⟩ := check_bind_eq_ok_iff.mp h
  obtain ⟨_,-,h⟩ := check_bind_eq_ok_iff.mp h
  obtain ⟨m,hm,h⟩ := check_bind_eq_ok_iff.mp h
  obtain ⟨data,hdata,h⟩ := check_bind_eq_ok_iff.mp h
  obtain ⟨_,horg,h⟩ := check_bind_eq_ok_iff.mp h
  obtain ⟨_,-,h⟩ := check_bind_eq_ok_iff.mp h
  obtain ⟨diff,s₁,happly,h⟩ := exec_bind_eq_ok_iff.mp h
  obtain ⟨-,hcurrent,-⟩ := applyMemberInput_ok happly
  rw [exec_write_bind] at h
  refine ⟨m,data,?_,guardError_eq_ok_iff.mp horg,?_,?_⟩
  · split at hm
    · rename_i m' hm'
      cases hm
      exact hm'
    · cases hm
  · rw [modelValidate_eq_ok hdata]
    change (m.memberRoles.map _).map RoleHistoryEntry.entry=m.memberRoles
    rw [List.map_map]
    exact List.map_id' _
  · rw [commitSession_ok h,hcurrent]
    exact ⟨rfl,rfl,rfl⟩

lemma decideChangeRequest_savedBy {decisions : FieldDecisions} {expectedUpdatedAt : Timestamp} {u : Unit}
    (h : exec (decideChangeRequest env moment requestId decisions expectedUpdatedAt user) ⟨db,db⟩=
      (.ok u,s')) :
    ∃ memberId existing data, SavedBy env db s'.committed moment user memberId existing data := by
  obtain ⟨request,-,h⟩ := check_bind_eq_ok_iff.mp h
  obtain ⟨_,hadmin,h⟩ := check_bind_eq_ok_iff.mp h
  obtain ⟨m,data,hm,horg,hentries,hmembers,hroles,hnext⟩ := resolveChangeRequest_own h
  rw [hm] at hadmin
  obtain ⟨orgId,hsome,hadmin⟩ := requireOrgAdmin_ok hadmin
  refine ⟨request.memberId,some m,data,⟨orgId,hadmin,hsome⟩,horg,?_,?_,?_,hmembers,hroles,hnext.ge⟩
  · intro e he
    exact .inr ⟨m,rfl,hentries ▸ he⟩
  · intro m' hm'
    cases hm'
    exact hm
  · intro hnone
    cases hnone

lemma submitChangeRequest_own {body : SelfServiceField → Option PyText} {u : Unit}
    (h : exec (submitChangeRequest env moment memberId body) ⟨db,db⟩=(.ok u,s')) :
    OwnCall db s'.committed := by
  obtain ⟨m,-,h⟩ := check_bind_eq_ok_iff.mp h
  obtain ⟨proposed,-,h⟩ := check_bind_eq_ok_iff.mp h
  obtain ⟨_,-,h⟩ := check_bind_eq_ok_iff.mp h
  obtain ⟨existing,-,h⟩ := check_bind_eq_ok_iff.mp h
  cases existing with
  | some row =>
    dsimp only at h
    split_ifs at h
    · rw [exec_write_bind] at h
      rw [commitSession_ok h]
      exact .of_members_eq rfl rfl le_rfl
    · rw [exec_write_bind] at h
      rw [commitSession_ok h]
      exact .of_members_eq rfl rfl le_rfl
  | none =>
    dsimp only at h
    split_ifs at h
    · rw [exec_pure,Prod.mk.injEq] at h
      rw [← h.2]
      exact .of_members_eq rfl rfl le_rfl
    · obtain ⟨requestId,s₁,hid,h⟩ := exec_bind_eq_ok_iff.mp h
      obtain ⟨rfl,rfl⟩ := newId_ok hid
      rw [exec_write_bind] at h
      rw [commitSession_ok h]
      exact .of_members_eq rfl rfl (Nat.le_succ _)

lemma toggleChroniclemail_own {u : Unit}
    (h : exec (toggleChroniclemail env moment memberId) ⟨db,db⟩=(.ok u,s')) :
    OwnCall db s'.committed := by
  obtain ⟨m,hm,h⟩ := check_bind_eq_ok_iff.mp h
  rw [exec_write_bind] at h
  rw [commitSession_ok h]
  refine .putMember (signedIn_ok hm).1 ⟨?_,rfl,rfl,rfl,rfl,rfl,rfl⟩
  simp

lemma resetPassword_own {passwordHash : PyText} {u : Unit}
    (h : exec (resetPassword env moment memberId passwordHash) ⟨db,db⟩=(.ok u,s')) :
    OwnCall db s'.committed := by
  obtain ⟨m,hm,h⟩ := check_bind_eq_ok_iff.mp h
  rw [exec_write_bind] at h
  rw [commitSession_ok h]
  exact .putMember (getMemberOr404_ok hm) ⟨by simp,rfl,rfl,rfl,rfl,rfl,rfl⟩

lemma ownCall_refl (db : Database) : OwnCall db db := .of_members_eq rfl rfl le_rfl

/-- Every call changes own settings only, or is a save with the right to it. -/
theorem step_guarded (env : Environment) (db : Database) (call : Call) :
    Guarded env call db (step env db call) := by
  cases call with
  | createMember moment body user =>
    exact commitsLast_createMember.run_rel (.inl (ownCall_refl db)) fun _ _ h =>
      .inr ⟨moment,user,rfl,createMember_savedBy h⟩
  | updateMember moment memberId body user =>
    exact commitsLast_updateMember.run_rel (.inl (ownCall_refl db)) fun _ _ h =>
      .inr ⟨moment,user,rfl,memberId,updateMember_savedBy h⟩
  | submitChangeRequest moment memberId body =>
    exact commitsLast_submitChangeRequest.run_rel (.inl (ownCall_refl db)) fun _ _ h =>
      .inl (submitChangeRequest_own h)
  | decideChangeRequest moment requestId decisions expectedUpdatedAt user =>
    exact commitsLast_decideChangeRequest.run_rel (.inl (ownCall_refl db)) fun _ _ h =>
      .inr ⟨moment,user,rfl,decideChangeRequest_savedBy h⟩
  | toggleChroniclemail moment memberId =>
    exact commitsLast_toggleChroniclemail.run_rel (.inl (ownCall_refl db)) fun _ _ h =>
      .inl (toggleChroniclemail_own h)
  | resetPassword moment memberId passwordHash =>
    exact commitsLast_resetPassword.run_rel (.inl (ownCall_refl db)) fun _ _ h =>
      .inl (resetPassword_own h)

end

/-! ### One call -/

section Steps
variable {env : Environment} {moment : Moment} {memberId : Uuid} {user : Actor} {db db' db'' : Database}
  {existing : Option Member} {data : MemberSaveRequest} {orgId : PyText} {call : Call}

lemma savedMember_orgId (userId : Uuid) :
    (savedMember moment existing data userId).columns.text .orgId=data.columns.text .orgId := by
  change (normalise data.columns).text .orgId=_
  simp

lemma OwnSettings.orgId_eq {m m' : Member} (h : OwnSettings m m') :
    m'.columns.text .orgId=m.columns.text .orgId := by
  rw [h.columns]

lemma OwnSettings.trans {m m' m'' : Member} (h : OwnSettings m m') (h' : OwnSettings m' m'') :
    OwnSettings m m'' where
  columns := by
    rw [h'.columns,h.columns]
    simp
  memberRoles := h'.memberRoles.trans h.memberRoles
  memberBadges := h'.memberBadges.trans h.memberBadges
  memberKeys := h'.memberKeys.trans h.memberKeys
  modifiedAt := h'.modifiedAt.trans h.modifiedAt
  modifiedBy := h'.modifiedBy.trans h.modifiedBy
  other := h'.other.trans h.other

lemma SameMembers.refl (orgId : PyText) (db : Database) : SameMembers orgId db db :=
  ⟨fun _ m h _ => ⟨m,h,.refl m⟩,fun _ m h horg => ⟨m,h,horg⟩⟩

lemma SameMembers.trans (h : SameMembers orgId db db') (h' : SameMembers orgId db' db'') :
    SameMembers orgId db db'' where
  kept id m hm horg := by
    obtain ⟨m',hm',hown⟩ := h.kept id m hm horg
    obtain ⟨m'',hm'',hown'⟩ := h'.kept id m' hm' (hown.orgId_eq.trans horg)
    exact ⟨m'',hm'',hown.trans hown'⟩
  no_new id m'' hm'' horg := by
    obtain ⟨m',hm',horg'⟩ := h'.no_new id m'' hm'' horg
    exact h.no_new id m' hm' horg'

/-- The members before are there, each in its organisation. -/
def KeepsOrgs (db db' : Database) : Prop :=
  ∀ id m, db.members.get? id=some m →
    ∃ m', db'.members.get? id=some m' ∧ m'.columns.text .orgId=m.columns.text .orgId

lemma OwnCall.found (h : OwnCall db db') {id : Uuid} {m : Member} (hm : db.members.get? id=some m) :
    ∃ m', db'.members.get? id=some m' ∧ OwnSettings m m' := by
  have hrel := h.members id
  rw [hm] at hrel
  cases hdb' : db'.members.get? id with
  | none =>
    rw [hdb'] at hrel
    cases hrel
  | some m' =>
    rw [hdb'] at hrel
    cases hrel with
    | some hown => exact ⟨m',rfl,hown⟩

lemma OwnCall.found' (h : OwnCall db db') {id : Uuid} {m' : Member}
    (hm' : db'.members.get? id=some m') : ∃ m, db.members.get? id=some m ∧ OwnSettings m m' := by
  have hrel := h.members id
  rw [hm'] at hrel
  cases hdb : db.members.get? id with
  | none =>
    rw [hdb] at hrel
    cases hrel
  | some m =>
    rw [hdb] at hrel
    cases hrel with
    | some hown => exact ⟨m,rfl,hown⟩

/-- A save stays in one known organisation, which its user administers. -/
lemma SavedBy.org (h : SavedBy env db db' moment user memberId existing data)
    (hdev : env.devSuperuserId=none) (hdb : Registered db)
    (huser : db.members.get? user.id=some user.member) :
    ∃ orgId ∈ knownOrgs, Administers env db.roles moment.today user orgId ∧
      data.columns.text .orgId=some orgId ∧ ∀ m, existing=some m → m.columns.text .orgId=some orgId := by
  obtain ⟨orgId,hadmin,hsome⟩ := h.admin
  cases hexisting : existing with
  | none =>
    rw [hexisting] at hsome
    have huserOrg : user.member.columns.text .orgId=some orgId := h.own.symm.trans hsome
    refine ⟨orgId,hdb.known _ _ _ huser huserOrg,hadmin,hsome,?_⟩
    intro m hm
    cases hm
  | some m =>
    rw [hexisting] at hsome
    have hknown := hdb.known _ _ _ (h.found m hexisting) hsome
    refine ⟨orgId,hknown,hadmin,h.own.trans (hadmin.org hdev hknown),?_⟩
    intro m' hm'
    cases hm'
    exact hsome

/-- The id of a save is that of its record, or a free one. -/
lemma SavedBy.existing_eq (h : SavedBy env db db' moment user memberId existing data)
    (hdb : Registered db) : existing=db.members.get? memberId := by
  cases hexisting : existing with
  | some m => exact (h.found m hexisting).symm
  | none =>
    obtain ⟨hid,-⟩ := h.fresh hexisting
    cases hm : db.members.get? memberId with
    | none => rfl
    | some m =>
      exact absurd hid (hdb.used _ _ hm).ne

lemma SavedBy.get? (h : SavedBy env db db' moment user memberId existing data) (id : Uuid) :
    db'.members.get? id=if id=memberId then some (savedMember moment existing data user.id)
      else db.members.get? id := by
  rw [h.members,Dict.get?_set]

section Guarded
variable (hdev : env.devSuperuserId=none) (hdb : Registered db)
  (huser : ∀ moment user, call.user?=some (moment,user) → db.members.get? user.id=some user.member)
  (h : Guarded env call db db')
include h

lemma Guarded.roles : db'.roles=db.roles := by
  obtain hown | ⟨_,_,-,_,_,_,hsaved⟩ := h
  · exact hown.roles
  · exact hsaved.roles

include hdb

include hdev huser in
lemma Guarded.keepsOrgs : KeepsOrgs db db' := by
  intro id m hm
  obtain hown | ⟨moment,user,hcall,memberId,existing,data,hsaved⟩ := h
  · obtain ⟨m',hm',hsettings⟩ := hown.found hm
    exact ⟨m',hm',hsettings.orgId_eq⟩
  · obtain ⟨orgId,-,-,hdata,hexisting⟩ := hsaved.org hdev hdb (huser _ _ hcall)
    rw [hsaved.get?]
    by_cases hid : id=memberId
    · subst hid
      refine ⟨_,if_pos rfl,?_⟩
      rw [savedMember_orgId,hdata,hexisting m ((hsaved.existing_eq hdb).trans hm)]
    · exact ⟨m,by rw [if_neg hid,hm],rfl⟩

include hdev huser in
lemma Guarded.registered : Registered db' := by
  obtain hown | ⟨moment,user,hcall,memberId,existing,data,hsaved⟩ := h
  · constructor
    · intro id m' hm'
      obtain ⟨m,hm,-⟩ := hown.found' hm'
      exact lt_of_lt_of_le (hdb.used id m hm) hown.later
    · intro id m' orgId hm' horg
      obtain ⟨m,hm,hsettings⟩ := hown.found' hm'
      exact hdb.known id m orgId hm (hsettings.orgId_eq.symm.trans horg)
  · obtain ⟨orgId,hknown,-,hdata,-⟩ := hsaved.org hdev hdb (huser _ _ hcall)
    constructor
    · intro id m' hm'
      rw [hsaved.get?] at hm'
      split_ifs at hm' with hid
      · subst hid
        cases hexisting : existing with
        | some m => exact lt_of_lt_of_le (hdb.used _ m (hsaved.found m hexisting)) hsaved.later
        | none =>
          obtain ⟨hfresh,hlt⟩ := hsaved.fresh hexisting
          exact hfresh ▸ hlt
      · exact lt_of_lt_of_le (hdb.used id m' hm') hsaved.later
    · intro id m' orgId' hm' horg
      rw [hsaved.get?] at hm'
      split_ifs at hm' with hid
      · cases hm'
        rw [savedMember_orgId,hdata] at horg
        cases horg
        exact hknown
      · exact hdb.known id m' orgId' hm' horg

include hdev huser in
/-- A call leaves the members of an organisation as they are unless its user administers it. -/
lemma Guarded.sameMembers_or_admin (orgId : PyText) : SameMembers orgId db db' ∨
    ∃ moment user, call.user?=some (moment,user) ∧
      Administers env db.roles moment.today user orgId := by
  obtain hown | ⟨moment,user,hcall,memberId,existing,data,hsaved⟩ := h
  · left
    constructor
    · intro id m hm _
      exact hown.found hm
    · intro id m' hm' horg
      obtain ⟨m,hm,hsettings⟩ := hown.found' hm'
      exact ⟨m,hm,hsettings.orgId_eq.symm.trans horg⟩
  · obtain ⟨orgId',-,hadmin,hdata,hexisting⟩ := hsaved.org hdev hdb (huser _ _ hcall)
    by_cases heq : orgId'=orgId
    · exact .inr ⟨moment,user,hcall,heq ▸ hadmin⟩
    · left
      constructor
      · intro id m hm horg
        have hid : id ≠ memberId := by
          rintro rfl
          have horg' := hexisting m ((hsaved.existing_eq hdb).trans hm)
          exact heq (Option.some.inj (horg'.symm.trans horg))
        exact ⟨m,by rw [hsaved.get?,if_neg hid,hm],.refl m⟩
      · intro id m' hm' horg
        rw [hsaved.get?] at hm'
        split_ifs at hm' with hid
        · cases hm'
          rw [savedMember_orgId,hdata] at horg
          exact absurd (Option.some.inj horg) heq
        · exact ⟨m',hm',horg⟩

end Guarded

/-- Who administers an organisation does so by what a save alone can change. -/
lemma SameMembers.nobodyAdministers (h : SameMembers orgId db db') (hroles : db'.roles=db.roles)
    (hdev : env.devSuperuserId=none) (hknown : orgId ∈ knownOrgs)
    (hnobody : NobodyAdministers env db orgId) : NobodyAdministers env db' orgId := by
  intro id m' hm' day hadmin
  rw [administers_iff hdev hknown,hroles] at hadmin
  obtain ⟨horg,hmeets⟩ := hadmin
  obtain ⟨m,hm,horg'⟩ := h.no_new id m' hm' horg
  obtain ⟨m'',hm'',hsettings⟩ := h.kept id m hm horg'
  obtain rfl : m''=m' := Option.some.inj (hm''.symm.trans hm')
  refine hnobody id m hm day ((administers_iff hdev hknown).mpr ⟨horg',?_⟩)
  simpa only [activeRoles,hsettings.memberRoles] using hmeets

end Steps

/-! ### Runs -/

section Runs
variable {env : Environment} {db : Database} {calls : List Call} {orgId : PyText}

lemma runCalls_keepsOrgs (hdev : env.devSuperuserId=none) (hdb : Registered db)
    (hcalls : SignedIn env db calls) : KeepsOrgs db (runCalls env db calls) := by
  induction calls generalizing db with
  | nil => exact fun _ m hm => ⟨m,hm,rfl⟩
  | cons call calls ih =>
    obtain ⟨huser,hcalls⟩ := hcalls
    have hstep := step_guarded env db call
    intro id m hm
    obtain ⟨m',hm',horg⟩ := hstep.keepsOrgs hdev hdb huser id m hm
    obtain ⟨m'',hm'',horg'⟩ := ih (hstep.registered hdev hdb huser) hcalls id m' hm'
    exact ⟨m'',hm'',horg'.trans horg⟩

lemma runCalls_sameMembers (hdev : env.devSuperuserId=none) (hdb : Registered db)
    (hcalls : SignedIn env db calls) (hknown : orgId ∈ knownOrgs)
    (hothers : ∀ call ∈ calls, ∀ moment user, call.user?=some (moment,user) →
      user.member.columns.text .orgId ≠ some orgId) :
    SameMembers orgId db (runCalls env db calls) := by
  induction calls generalizing db with
  | nil => exact .refl orgId db
  | cons call calls ih =>
    obtain ⟨huser,hcalls⟩ := hcalls
    have hstep := step_guarded env db call
    have hrest := ih (hstep.registered hdev hdb huser) hcalls
      fun call hcall => hothers call (List.mem_cons_of_mem _ hcall)
    obtain hsame | ⟨moment,user,hcall,hadmin⟩ := hstep.sameMembers_or_admin hdev hdb huser orgId
    · exact hsame.trans hrest
    · exact absurd (hadmin.org hdev hknown) (hothers call List.mem_cons_self moment user hcall)

/-- Members keep their organisation, and the users of other organisations leave them as they are. -/
theorem organisations_separate (hdev : env.devSuperuserId=none) (hdb : Registered db)
    (hcalls : SignedIn env db calls) :
    KeepsOrgs db (runCalls env db calls) ∧ ∀ orgId ∈ knownOrgs,
      (∀ call ∈ calls, ∀ moment user, call.user?=some (moment,user) →
        user.member.columns.text .orgId ≠ some orgId) →
      SameMembers orgId db (runCalls env db calls) :=
  ⟨runCalls_keepsOrgs hdev hdb hcalls,fun _ hknown => runCalls_sameMembers hdev hdb hcalls hknown⟩

section TwoOrganisations

def memberOf (orgId : PyText) (memberRoles : List RoleEntry) : Member := {newMember ⟨0,.minDate⟩ with
  columns := {Columns.default with text := fun f => if f=.orgId then some orgId else none}
  memberRoles := memberRoles}

/-- A member who administers the one organisation, and a member of the other. -/
def twoOrganisations : Database :=
  putMember 2 (memberOf (text "vbn") [])
    (putMember 1 (memberOf (text "vbw") [⟨text "standesfuehrer",.minDate,none⟩])
      (emptyDatabase [⟨text "standesfuehrer",some (text "chc"),none⟩] [] [] [] 3))

def newFellow : MemberInput where
  columns := {Columns.default with
    text := fun f => if f=.orgId then some (text "vbw")
      else if f=.nachname then some (text "Muster") else none}
  rolesHistory := []
  badges := []
  keys := []

def twoOrganisationsCalls : List Call :=
  [.createMember ⟨5,.minDate⟩ newFellow
    ⟨1,memberOf (text "vbw") [⟨text "standesfuehrer",.minDate,none⟩]⟩,
    .toggleChroniclemail ⟨6,.minDate⟩ 2]

lemma twoOrganisations_members {id : Uuid} {m : Member} (h : twoOrganisations.members.get? id=some m) :
    (id=1 ∧ m=memberOf (text "vbw") [⟨text "standesfuehrer",.minDate,none⟩]) ∨
      (id=2 ∧ m=memberOf (text "vbn") []) := by
  simp only [twoOrganisations,putMember,emptyDatabase,Dict.get?_set,Dict.get?_empty] at h
  split_ifs at h with h₂ h₁
  · exact .inr ⟨h₂,(Option.some.inj h).symm⟩
  · exact .inl ⟨h₁,(Option.some.inj h).symm⟩

lemma registered_twoOrganisations : Registered twoOrganisations := by
  constructor
  · intro id m hm
    obtain ⟨rfl,-⟩ | ⟨rfl,-⟩ := twoOrganisations_members hm <;> decide
  · intro id m orgId hm horg
    obtain ⟨-,rfl⟩ | ⟨-,rfl⟩ := twoOrganisations_members hm
    · cases horg
      exact List.mem_cons_self
    · cases horg
      exact List.mem_cons_of_mem _ List.mem_cons_self

lemma signedIn_twoOrganisationsCalls :
    SignedIn plainEnvironment twoOrganisations twoOrganisationsCalls := by
  refine ⟨?_,?_,trivial⟩
  · intro moment user h
    cases h
    rfl
  · intro moment user h
    cases h

/-- Nobody leads the other organisation. -/
lemma nobodyAdministers_twoOrganisations :
    NobodyAdministers plainEnvironment twoOrganisations (text "vbn") := by
  intro id m hm day hadmin
  rw [administers_iff rfl (by decide)] at hadmin
  obtain ⟨horg,hmeets⟩ := hadmin
  obtain ⟨-,rfl⟩ | ⟨-,rfl⟩ := twoOrganisations_members hm
  · change some (text "vbw")=some (text "vbn") at horg
    exact absurd horg (by decide)
  · cases hmeets

end TwoOrganisations

theorem organisations_separate_two :
    let db := runCalls plainEnvironment twoOrganisations twoOrganisationsCalls
    db.members.keys=[1,2,3] ∧ KeepsOrgs twoOrganisations db ∧
      ∀ orgId ∈ knownOrgs, (∀ call ∈ twoOrganisationsCalls, ∀ moment user,
        call.user?=some (moment,user) → user.member.columns.text .orgId ≠ some orgId) →
      SameMembers orgId twoOrganisations db :=
  ⟨by decide,organisations_separate rfl registered_twoOrganisations signedIn_twoOrganisationsCalls⟩

/-- An organisation that nobody administers stays so, with the members that it has. -/
theorem no_new_admins (hdev : env.devSuperuserId=none) (hdb : Registered db)
    (hcalls : SignedIn env db calls) (hknown : orgId ∈ knownOrgs)
    (hnobody : NobodyAdministers env db orgId) :
    NobodyAdministers env (runCalls env db calls) orgId ∧
      SameMembers orgId db (runCalls env db calls) := by
  induction calls generalizing db with
  | nil => exact ⟨hnobody,.refl orgId db⟩
  | cons call calls ih =>
    obtain ⟨huser,hcalls⟩ := hcalls
    have hstep := step_guarded env db call
    obtain hsame | ⟨moment,user,hcall,hadmin⟩ := hstep.sameMembers_or_admin hdev hdb huser orgId
    · have hnobody' := hsame.nobodyAdministers hstep.roles hdev hknown hnobody
      obtain ⟨hnobody'',hrest⟩ := ih (hstep.registered hdev hdb huser) hcalls hnobody'
      exact ⟨hnobody'',hsame.trans hrest⟩
    · exact absurd hadmin (hnobody user.id user.member (huser _ _ hcall) moment.today)

theorem no_new_admins_two :
    let db := runCalls plainEnvironment twoOrganisations twoOrganisationsCalls
    NobodyAdministers plainEnvironment db (text "vbn") ∧ SameMembers (text "vbn") twoOrganisations db :=
  no_new_admins rfl registered_twoOrganisations signedIn_twoOrganisationsCalls (by decide)
    nobodyAdministers_twoOrganisations

end Runs

end VbApi.Members
