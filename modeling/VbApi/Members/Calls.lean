import VbApi.Members.Operations

/-! Runs of calls, one after the other, and what each call can do to the tables. -/
namespace VbApi.Members
open VbApi.Foundations Stateful Transaction
open VbApi.Standesdb (Uuid Timestamp SelfServiceField Decision FieldDecisions RequestStatus)

/-- A call with its moment; whoever is signed in comes with it. -/
inductive Call
  | createMember (moment : Moment) (body : MemberInput) (user : Actor)
  | updateMember (moment : Moment) (memberId : Uuid) (body : MemberInput) (user : Actor)
  | submitChangeRequest (moment : Moment) (memberId : Uuid) (body : SelfServiceField → Option PyText)
  | decideChangeRequest (moment : Moment) (requestId : Uuid) (decisions : FieldDecisions)
    (expectedUpdatedAt : Timestamp) (user : Actor)
  | toggleChroniclemail (moment : Moment) (memberId : Uuid)
  | resetPassword (moment : Moment) (memberId : Uuid) (passwordHash : PyText)

/-- The tables after a call; one that raises is rolled back. -/
def step (env : Environment) (db : Database) : Call → Database
  | .createMember moment body user => (run (createMember env moment body user) db).2
  | .updateMember moment memberId body user => (run (updateMember env moment memberId body user) db).2
  | .submitChangeRequest moment memberId body =>
    (run (submitChangeRequest env moment memberId body) db).2
  | .decideChangeRequest moment requestId decisions expectedUpdatedAt user =>
    (run (decideChangeRequest env moment requestId decisions expectedUpdatedAt user) db).2
  | .toggleChroniclemail moment memberId => (run (toggleChroniclemail env moment memberId) db).2
  | .resetPassword moment memberId passwordHash =>
    (run (resetPassword env moment memberId passwordHash) db).2

/-- No member has been saved yet; the reference tables are there. -/
def emptyDatabase (roles : List Role) (stateIds : List PyText) (badgeIds keyIds : List Uuid)
    (nextUuid : Uuid) : Database :=
  ⟨.empty,.empty,[],[],roles,stateIds,badgeIds,keyIds,nextUuid⟩

/-- A database that refuses nothing, and addresses that are in their normal form. -/
def plainEnvironment : Environment := ⟨[],none,id,some,fun _ => true⟩

/-- Any calls, executed one after the other. -/
def runCalls (env : Environment) (db : Database) (calls : List Call) : Database :=
  calls.foldl (step env) db

/-- What every call preserves, every run preserves. -/
theorem runCalls_invariant {env : Environment} {I : Database → Prop}
    (hstep : ∀ db call, I db → I (step env db call)) {db : Database} (h : I db)
    (calls : List Call) : I (runCalls env db calls) := by
  induction calls generalizing db with
  | nil => exact h
  | cons call calls ih => exact ih (hstep db call h)

/-- The parent passes `validate_parent_id`. -/
def ParentValid (db : Database) (data : MemberSaveRequest) (memberId : Option Uuid) : Prop :=
  validateParentId db data.columns.parentId (data.columns.text .orgId) memberId=.ok ()

/-- What holds when a save writes a member: a new row gets a new id, the periods of the roles fit, and
the parent is a checked one or the one before. -/
structure Saves (db : Database) (memberId : Uuid) (existing : Option Member)
    (data : MemberSaveRequest) : Prop where
  found : ∀ m, existing=some m → db.members.get? memberId=some m
  fresh : existing=none → memberId=db.nextUuid
  fits : RolesFit db (data.rolesHistory.map RoleHistoryEntry.entry)
    (((normalise data.columns).text .orgId).getD []) memberId
  parent : ParentValid db data (existing.map fun _ => memberId) ∨
    ∃ m, existing=some m ∧ data.columns.parentId=m.columns.parentId

/-- The effects of calls on the tables. -/
inductive Effect (db : Database) : Database → Prop
  /-- nothing but change requests -/
  | requests (changeRequests : Dict Uuid MemberChangeRequest) {nextUuid : Uuid}
      (later : db.nextUuid ≤ nextUuid) :
      Effect db {db with changeRequests := changeRequests,nextUuid := nextUuid}
  /-- the save of a member -/
  | saved (moment : Moment) {memberId : Uuid} {existing : Option Member} {data : MemberSaveRequest}
      (userId : Uuid) (changeRequests : Dict Uuid MemberChangeRequest) {nextUuid : Uuid}
      (saves : Saves db memberId existing data) (later : db.nextUuid ≤ nextUuid)
      (used : existing=none → db.nextUuid < nextUuid) :
      Effect db {savedDatabase moment memberId existing data userId db with
        changeRequests := changeRequests,nextUuid := nextUuid}
  /-- the subscription of a member who may sign in -/
  | toggled (moment : Moment) {memberId : Uuid} {m : Member}
      (found : db.members.get? memberId=some m) (unlocked : m.columns.flag .authLocked=false) :
      Effect db (putMember memberId {m with
        columns := {m.columns with
          flag := Function.update m.columns.flag .chroniclemail (!m.columns.flag .chroniclemail)}
        updatedAt := some moment.now} db)
  | passwordReset (moment : Moment) {memberId : Uuid} {m : Member} (passwordHash : PyText)
      (found : db.members.get? memberId=some m) :
      Effect db (putMember memberId {m with
        authPassword := some passwordHash
        emailVerifiedAt := some moment.now
        updatedAt := some moment.now} db)

lemma Effect.unchanged (db : Database) : Effect db db := .requests db.changeRequests le_rfl

section
variable {env : Environment} {moment : Moment} {memberId requestId : Uuid} {user : Actor}
  {db : Database} {s s' : Session Database}

lemma newId_ok {id : Uuid} (h : exec newId s=(.ok id,s')) :
    id=s.current.nextUuid ∧ s'={s with current := takeUuid s.current} := by
  obtain ⟨id',hid,h⟩ := check_bind_eq_ok_iff.mp h
  simp only [Except.ok.injEq] at hid
  rw [exec_write_bind,exec_pure,Prod.mk.injEq,Except.ok.injEq] at h
  obtain ⟨rfl,rfl⟩ := h
  exact ⟨hid.symm,rfl⟩

lemma pending_newId : Pending newId :=
  (pending_check _).bind fun _ => (pending_write _).bind fun _ => pending_pure _

lemma createMember_ok {body : MemberInput} {id : Uuid}
    (h : exec (createMember env moment body user) ⟨db,db⟩=(.ok id,s')) : Effect db s'.committed := by
  obtain ⟨data,-,h⟩ := check_bind_eq_ok_iff.mp h
  obtain ⟨_,-,h⟩ := check_bind_eq_ok_iff.mp h
  obtain ⟨_,-,h⟩ := check_bind_eq_ok_iff.mp h
  obtain ⟨_,-,h⟩ := check_bind_eq_ok_iff.mp h
  obtain ⟨_,hparent,h⟩ := check_bind_eq_ok_iff.mp h
  obtain ⟨_,-,h⟩ := check_bind_eq_ok_iff.mp h
  obtain ⟨memberId,s₁,hid,h⟩ := exec_bind_eq_ok_iff.mp h
  obtain ⟨diff,s₂,happly,h⟩ := exec_bind_eq_ok_iff.mp h
  rw [exec_pure,Prod.mk.injEq] at h
  obtain ⟨-,rfl⟩ := h
  obtain ⟨rfl,rfl⟩ := newId_ok hid
  obtain ⟨hfit,hcurrent,hcommitted⟩ := applyMemberInput_ok happly
  rw [hcommitted,if_pos rfl,hcurrent]
  exact .saved moment user.id db.changeRequests
    ⟨fun _ h => (Option.some_ne_none _ h.symm).elim,fun _ => rfl,⟨hfit.proper,hfit.own,hfit.others⟩,
      .inl hparent⟩ (Nat.le_succ _) (fun _ => Nat.lt_succ_self _)

lemma getMemberOr404_ok {m : Member} (h : getMemberOr404 db memberId=.ok m) :
    db.members.get? memberId=some m := by
  unfold getMemberOr404 at h
  split at h
  · rename_i m' hm'
    cases h
    exact hm'
  · cases h

lemma getAssignedMemberForOrgAdmin_ok {m : Member}
    (h : getAssignedMemberForOrgAdmin env db moment memberId user=.ok m) :
    db.members.get? memberId=some m := by
  obtain ⟨m',hm',h⟩ := bind_eq_ok_iff.mp h
  obtain ⟨_,-,h⟩ := bind_eq_ok_iff.mp h
  obtain ⟨_,-,h⟩ := bind_eq_ok_iff.mp h
  cases h
  exact getMemberOr404_ok hm'

lemma signedIn_ok {m : Member} (h : signedIn db memberId=.ok m) :
    db.members.get? memberId=some m ∧ m.columns.flag .authLocked=false := by
  unfold signedIn at h
  split at h
  · rename_i m' hm'
    split_ifs at h with hlocked
    cases h
    exact ⟨hm',by simpa using hlocked⟩
  · cases h

lemma updateMember_ok {body : MemberInput} {diff : Diff}
    (h : exec (updateMember env moment memberId body user) ⟨db,db⟩=(.ok diff,s')) :
    Effect db s'.committed := by
  obtain ⟨data,-,h⟩ := check_bind_eq_ok_iff.mp h
  obtain ⟨m,hm,h⟩ := check_bind_eq_ok_iff.mp h
  obtain ⟨_,-,h⟩ := check_bind_eq_ok_iff.mp h
  obtain ⟨_,-,h⟩ := check_bind_eq_ok_iff.mp h
  obtain ⟨_,hparent,h⟩ := check_bind_eq_ok_iff.mp h
  obtain ⟨_,-,h⟩ := check_bind_eq_ok_iff.mp h
  obtain ⟨hfit,hcurrent,hcommitted⟩ := applyMemberInput_ok h
  rw [hcommitted,if_pos rfl,hcurrent]
  have hfound := getAssignedMemberForOrgAdmin_ok hm
  exact .saved moment user.id db.changeRequests
    ⟨fun m' h => Option.some.inj h ▸ hfound,fun h => (Option.some_ne_none _ h).elim,hfit,.inl hparent⟩
    le_rfl (fun h => (Option.some_ne_none _ h).elim)

lemma commitSession_ok {u : Unit} (h : exec (commitSession env) s=(.ok u,s')) :
    s'.committed=s.current := by
  obtain ⟨-,rfl⟩ := exec_commit_eq_ok_iff.mp h
  rfl

lemma submitChangeRequest_ok {body : SelfServiceField → Option PyText} {u : Unit}
    (h : exec (submitChangeRequest env moment memberId body) ⟨db,db⟩=(.ok u,s')) :
    Effect db s'.committed := by
  obtain ⟨m,-,h⟩ := check_bind_eq_ok_iff.mp h
  obtain ⟨proposed,-,h⟩ := check_bind_eq_ok_iff.mp h
  obtain ⟨_,-,h⟩ := check_bind_eq_ok_iff.mp h
  obtain ⟨existing,-,h⟩ := check_bind_eq_ok_iff.mp h
  cases existing with
  | some row =>
    dsimp only at h
    split_ifs at h
    · rw [exec_write_bind] at h
      rw [commitSession_ok h]
      exact .requests _ le_rfl
    · rw [exec_write_bind] at h
      rw [commitSession_ok h]
      exact .requests _ le_rfl
  | none =>
    dsimp only at h
    split_ifs at h
    · rw [exec_pure,Prod.mk.injEq] at h
      rw [← h.2]
      exact .unchanged db
    · obtain ⟨requestId,s₁,hid,h⟩ := exec_bind_eq_ok_iff.mp h
      obtain ⟨rfl,rfl⟩ := newId_ok hid
      rw [exec_write_bind] at h
      rw [commitSession_ok h]
      exact .requests _ (Nat.le_succ _)

/-- What a resolution that returns has done. -/
lemma resolveChangeRequest_ok {request : MemberChangeRequest} {decisions : FieldDecisions}
    {expectedUpdatedAt : Timestamp} {admin : Actor} {u : Unit}
    (h : exec (resolveChangeRequest env moment requestId request decisions expectedUpdatedAt admin)
      ⟨db,db⟩=(.ok u,s')) :
    ∃ m data, db.members.get? request.memberId=some m ∧
      modelValidate env {currentFullRequest db.roles m with
        columns := overlay (currentFullRequest db.roles m).columns request.proposedData decisions}=
          .ok data ∧
      RolesFit db (data.rolesHistory.map RoleHistoryEntry.entry)
        (((normalise data.columns).text .orgId).getD []) request.memberId ∧
      s'.committed=putRequest requestId {request with
        status := .resolved
        fieldDecisions := some decisions
        resolvedBy := some admin.id
        resolvedAt := some moment.now
        updatedAt := moment.now} (savedDatabase moment request.memberId (some m) data admin.id db) := by
  obtain ⟨_,-,h⟩ := check_bind_eq_ok_iff.mp h
  obtain ⟨_,-,h⟩ := check_bind_eq_ok_iff.mp h
  obtain ⟨_,-,h⟩ := check_bind_eq_ok_iff.mp h
  obtain ⟨m,hm,h⟩ := check_bind_eq_ok_iff.mp h
  obtain ⟨data,hdata,h⟩ := check_bind_eq_ok_iff.mp h
  obtain ⟨_,-,h⟩ := check_bind_eq_ok_iff.mp h
  obtain ⟨_,-,h⟩ := check_bind_eq_ok_iff.mp h
  obtain ⟨diff,s₁,happly,h⟩ := exec_bind_eq_ok_iff.mp h
  obtain ⟨hfit,hcurrent,-⟩ := applyMemberInput_ok happly
  rw [exec_write_bind] at h
  refine ⟨m,data,?_,hdata,hfit,?_⟩
  · split at hm
    · rename_i m' hm'
      cases hm
      exact hm'
    · cases hm
  · rw [commitSession_ok h,hcurrent]

lemma decideChangeRequest_ok {decisions : FieldDecisions} {expectedUpdatedAt : Timestamp} {u : Unit}
    (h : exec (decideChangeRequest env moment requestId decisions expectedUpdatedAt user) ⟨db,db⟩=
      (.ok u,s')) : Effect db s'.committed := by
  obtain ⟨request,-,h⟩ := check_bind_eq_ok_iff.mp h
  obtain ⟨_,-,h⟩ := check_bind_eq_ok_iff.mp h
  obtain ⟨m,data,hm,hdata,hfit,hcommitted⟩ := resolveChangeRequest_ok h
  rw [hcommitted]
  refine .saved moment user.id _ ⟨fun m' h => Option.some.inj h ▸ hm,
    fun h => (Option.some_ne_none _ h).elim,hfit,.inr ⟨m,rfl,?_⟩⟩ le_rfl
    (fun h => (Option.some_ne_none _ h).elim)
  -- no field of a request is the parent
  rw [modelValidate_eq_ok hdata]
  rfl

lemma toggleChroniclemail_ok {u : Unit}
    (h : exec (toggleChroniclemail env moment memberId) ⟨db,db⟩=(.ok u,s')) :
    Effect db s'.committed := by
  obtain ⟨m,hm,h⟩ := check_bind_eq_ok_iff.mp h
  rw [exec_write_bind] at h
  obtain ⟨hfound,hunlocked⟩ := signedIn_ok hm
  rw [commitSession_ok h]
  exact .toggled moment hfound hunlocked

lemma resetPassword_ok {passwordHash : PyText} {u : Unit}
    (h : exec (resetPassword env moment memberId passwordHash) ⟨db,db⟩=(.ok u,s')) :
    Effect db s'.committed := by
  obtain ⟨m,hm,h⟩ := check_bind_eq_ok_iff.mp h
  rw [exec_write_bind] at h
  rw [commitSession_ok h]
  exact .passwordReset moment passwordHash (getMemberOr404_ok hm)

lemma commitsLast_createMember {body : MemberInput} :
    CommitsLast (createMember env moment body user) :=
  .bind (pending_check _) fun _ => .bind (pending_check _) fun _ => .bind (pending_check _) fun _ =>
    .bind (pending_check _) fun _ => .bind (pending_check _) fun _ => .bind (pending_check _) fun _ =>
    .bind pending_newId fun id => commitsLast_applyMemberInput.bind_pure fun _ => id

lemma commitsLast_updateMember {body : MemberInput} :
    CommitsLast (updateMember env moment memberId body user) :=
  .bind (pending_check _) fun _ => .bind (pending_check _) fun _ => .bind (pending_check _) fun _ =>
    .bind (pending_check _) fun _ => .bind (pending_check _) fun _ => .bind (pending_check _) fun _ =>
    commitsLast_applyMemberInput

lemma commitsLast_write_commit (f : Database → Database) :
    CommitsLast (write f >>= fun _ => commitSession env) :=
  .bind (pending_write f) fun _ => commitsLast_commit _ _

lemma commitsLast_submitChangeRequest {body : SelfServiceField → Option PyText} :
    CommitsLast (submitChangeRequest env moment memberId body) := by
  refine .bind (pending_check _) fun m => .bind (pending_check _) fun proposed =>
    .bind (pending_check _) fun _ => .bind (pending_check _) fun existing => ?_
  cases existing with
  | some row =>
    dsimp only
    split_ifs
    · exact commitsLast_write_commit _
    · exact commitsLast_write_commit _
  | none =>
    dsimp only
    split_ifs
    · exact (pending_pure _).commitsLast
    · exact .bind pending_newId fun _ => commitsLast_write_commit _

lemma pending_applyMemberInput {existing : Option Member} {data : MemberSaveRequest} {userId : Uuid} :
    Pending (applyMemberInput env moment memberId existing data userId false) :=
  pending_flushMemberInput.bind fun diff => pending_pure diff

lemma commitsLast_resolveChangeRequest {request : MemberChangeRequest} {decisions : FieldDecisions}
    {expectedUpdatedAt : Timestamp} :
    CommitsLast (resolveChangeRequest env moment requestId request decisions expectedUpdatedAt user) :=
  .bind (pending_check _) fun _ => .bind (pending_check _) fun _ => .bind (pending_check _) fun _ =>
    .bind (pending_check _) fun _ => .bind (pending_check _) fun _ => .bind (pending_check _) fun _ =>
    .bind (pending_check _) fun _ => .bind pending_applyMemberInput fun _ => commitsLast_write_commit _

lemma commitsLast_decideChangeRequest {decisions : FieldDecisions} {expectedUpdatedAt : Timestamp} :
    CommitsLast (decideChangeRequest env moment requestId decisions expectedUpdatedAt user) :=
  .bind (pending_check _) fun _ => .bind (pending_check _) fun _ => commitsLast_resolveChangeRequest

lemma commitsLast_toggleChroniclemail : CommitsLast (toggleChroniclemail env moment memberId) :=
  .bind (pending_check _) fun _ => commitsLast_write_commit _

lemma commitsLast_resetPassword {passwordHash : PyText} :
    CommitsLast (resetPassword env moment memberId passwordHash) :=
  .bind (pending_check _) fun _ => commitsLast_write_commit _

/-- A call that commits last has one of the effects when it has one of them whenever it returns. -/
lemma CommitsLast.effect {α : Type} {x : Saving α} (hlast : CommitsLast x)
    (hok : ∀ a s', exec x ⟨db,db⟩=(.ok a,s') → Effect db s'.committed) : Effect db (run x db).2 := by
  obtain hsame | ⟨a,s',hexec,hrun⟩ := hlast.run_cases db
  · rw [hsame]
    exact .unchanged db
  · rw [hrun]
    exact hok a s' hexec

/-- Every call has one of the effects. -/
theorem step_effect (env : Environment) (db : Database) (call : Call) : Effect db (step env db call) := by
  cases call with
  | createMember moment body user =>
    exact CommitsLast.effect commitsLast_createMember fun _ _ => createMember_ok
  | updateMember moment memberId body user =>
    exact CommitsLast.effect commitsLast_updateMember fun _ _ => updateMember_ok
  | submitChangeRequest moment memberId body =>
    exact CommitsLast.effect commitsLast_submitChangeRequest fun _ _ => submitChangeRequest_ok
  | decideChangeRequest moment requestId decisions expectedUpdatedAt user =>
    exact CommitsLast.effect commitsLast_decideChangeRequest fun _ _ => decideChangeRequest_ok
  | toggleChroniclemail moment memberId =>
    exact CommitsLast.effect commitsLast_toggleChroniclemail fun _ _ => toggleChroniclemail_ok
  | resetPassword moment memberId passwordHash =>
    exact CommitsLast.effect commitsLast_resetPassword fun _ _ => resetPassword_ok

end

/-- What every effect preserves, every run preserves. -/
theorem runCalls_preserves {I : Database → Prop} (h : ∀ db db', I db → Effect db db' → I db')
    (env : Environment) {db : Database} (hdb : I db) (calls : List Call) :
    I (runCalls env db calls) :=
  runCalls_invariant (fun db call hI => h db _ hI (step_effect env db call)) hdb calls

end VbApi.Members
