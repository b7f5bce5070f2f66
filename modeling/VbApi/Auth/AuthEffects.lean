import VbApi.Auth.AuthCalls

/-! What one step can do to the accounts and to the sessions. Every invariant of the calls is derived
from these two relations. -/
namespace VbApi.Auth
open VbApi.Foundations

/-- The place holds a reset token. -/
def Place.HoldsToken : Place → Prop
  | .forgotMail _ _ => True
  | .resetSelect _ _ _ => True
  | .resetSessions _ _ _ _ => True
  | .resetDelete _ _ _ _ _ _ => True
  | _ => False

/-- The place holds a session. -/
def Place.HoldsSession : Place → Prop
  | .resetDelete _ _ _ _ _ _ => True
  | .refreshCheck _ _ => True
  | .refreshRotate _ _ _ => True
  | .accessIdle _ => True
  | .accessTouch _ _ _ _ => True
  | .accessMember _ _ _ _ => True
  | .accessReload _ _ _ _ => True
  | _ => False

/-- The step of one client as seen from the accounts. -/
inductive AccountsEffect (s : AuthState) (input : Input) : Place → Accounts → ℕ → Place → Prop
  | quiet {place place' : Place} {nextId : ℕ} (hnext : s.nextId ≤ nextId)
    (hplace : ¬ place'.HoldsToken) : AccountsEffect s input place s.accounts nextId place'
  | stay {place : Place} : AccountsEffect s input place s.accounts s.nextId place
  | insertToken {memberId : Uuid} {startedAt : Timestamp} {deleted : List Uuid}
    (honly : ∀ id ∈ s.accounts.tokensOf memberId, id ∈ deleted) :
    AccountsEffect s input (.forgotInsert memberId startedAt deleted)
      (s.accounts.insertToken deleted s.nextId ⟨memberId,hashResetToken (s.nextId+1),startedAt⟩)
      (s.nextId+2) (.forgotMail memberId (s.nextId+1))
  | sendMail {memberId : Uuid} {token : Secret} {m : Member} {address : Email}
    (hm : s.accounts.members.get? memberId=some m) (haddress : m.email=some address) :
    AccountsEffect s input (.forgotMail memberId token) (s.accounts.sendMail ⟨token,memberId,address⟩)
      s.nextId .idle
  | present {memberId : Uuid} {token : Secret} {newPassword : Password}
    (hmay : s.accounts.MayPresent token) :
    AccountsEffect s input .idle s.accounts (max s.nextId (token+1))
      (.resetSelect memberId token newPassword)
  | select {memberId entry : Uuid} {token : Secret} {newPassword : Password}
    {row : PasswordResetToken} (hrow : s.accounts.resetTokens.get? entry=some row)
    (hmember : row.memberId=memberId) (hhash : row.tokenHash=hashResetToken token) :
    AccountsEffect s input (.resetSelect memberId token newPassword) s.accounts s.nextId
      (.resetSessions memberId entry token newPassword)
  | startDelete {memberId entry : Uuid} {token : Secret} {newPassword : Password} :
    AccountsEffect s input (.resetSessions memberId entry token newPassword) s.accounts s.nextId
      (.resetDelete memberId entry token newPassword (s.sessions.sessionsOf memberId) [])
  | delete {memberId entry : Uuid} {token : Secret} {newPassword : Password} {jti : SessionId}
    {pending deleted deleted' : List SessionId} :
    AccountsEffect s input (.resetDelete memberId entry token newPassword (jti::pending) deleted)
      s.accounts s.nextId (.resetDelete memberId entry token newPassword pending deleted')
  | redeem {memberId entry : Uuid} {token : Secret} {newPassword : Password}
    {deleted : List SessionId} {m : Member} (hinput : input=.next)
    (hm : s.accounts.members.get? memberId=some m) :
    AccountsEffect s input (.resetDelete memberId entry token newPassword [] deleted)
      (s.accounts.redeem memberId m entry token (getPasswordHash newPassword s.nextId) s.clock)
      (s.nextId+1) .idle
  | eraseToken {entry : Uuid} :
    AccountsEffect s input (.resetExpired entry) (s.accounts.eraseToken entry) s.nextId .idle
  | updateMember {memberId : Uuid} {update : MemberUpdate} {deletedTokens : List Uuid} {m : Member}
    (hinput : input=.next) (hm : s.accounts.members.get? memberId=some m) :
    AccountsEffect s input (.saveCommit memberId update deletedTokens)
      (s.accounts.updateMember memberId m update deletedTokens) s.nextId .idle

/-- The step of one client as seen from the sessions. -/
inductive SessionsEffect (settings : Settings) (c : ClientId) (s : AuthState) (input : Input) :
    Place → Sessions → Locks RowKey → ℕ → Place → Prop
  | quiet {place place' : Place} {locks : Locks RowKey} {nextId : ℕ}
    (hlocks : s.locks.KeptBut c locks) (hnext : s.nextId ≤ nextId) (hplace : ¬ place'.HoldsSession) :
    SessionsEffect settings c s input place s.sessions locks nextId place'
  | stay {place : Place} : SessionsEffect settings c s input place s.sessions s.locks s.nextId place
  | openSession {memberId : Uuid} {email : Option Email} {verified : PasswordHash}
    {startedAt : Timestamp} (hinput : input=.next) (hemail : isEmptyEmail email=false) :
    SessionsEffect settings c s input (.createUserSession memberId email verified startedAt)
      (s.sessions.openSession s.nextId
        ⟨memberId,some (hashRefreshSecret (s.nextId+1)),s.clock,startedAt⟩ verified)
      s.locks (s.nextId+2) .idle
  | startDelete {memberId entry : Uuid} {token : Secret} {newPassword : Password} :
    SessionsEffect settings c s input (.resetSessions memberId entry token newPassword) s.sessions s.locks
      s.nextId (.resetDelete memberId entry token newPassword (s.sessions.sessionsOf memberId) [])
  | pass {memberId entry : Uuid} {token : Secret} {newPassword : Password} {jti : SessionId}
    {pending deleted : List SessionId} (hgone : s.sessions.rows.get? jti=none) :
    SessionsEffect settings c s input (.resetDelete memberId entry token newPassword (jti::pending) deleted)
      s.sessions s.locks s.nextId (.resetDelete memberId entry token newPassword pending deleted)
  | delete {memberId entry : Uuid} {token : Secret} {newPassword : Password} {jti : SessionId}
    {pending deleted : List SessionId} (hfree : s.locks.FreeFor c (.session jti)) :
    SessionsEffect settings c s input (.resetDelete memberId entry token newPassword (jti::pending) deleted)
      s.sessions (s.locks.acquire c [.session jti]) s.nextId
      (.resetDelete memberId entry token newPassword pending (jti::deleted))
  | redeem {memberId entry : Uuid} {token : Secret} {newPassword : Password}
    {deleted : List SessionId} (hinput : input=.next) :
    SessionsEffect settings c s input (.resetDelete memberId entry token newPassword [] deleted)
      (s.sessions.endSessions deleted) (s.locks.release c) (s.nextId+1) .idle
  | refuse {jti : SessionId} {secret : Secret} (hgone : s.sessions.rows.get? jti=none) :
    SessionsEffect settings c s input .idle (s.sessions.refuse jti secret) s.locks s.nextId .idle
  | lock {jti : SessionId} {secret : Secret} {row : AuthSession}
    (hrow : s.sessions.rows.get? jti=some row) (hfree : s.locks.FreeFor c (.session jti)) :
    SessionsEffect settings c s input .idle s.sessions (s.locks.acquire c [.session jti]) s.nextId
      (.refreshCheck jti secret)
  | accept {jti : SessionId} {secret : Secret} {row : AuthSession}
    (hrow : s.sessions.rows.get? jti=some row) (haccepts : acceptsRefresh settings s row secret) :
    SessionsEffect settings c s input (.refreshCheck jti secret) s.sessions s.locks s.nextId
      (.refreshRotate jti secret s.clock)
  | endRefused {jti : SessionId} {secret : Secret} :
    SessionsEffect settings c s input (.refreshCheck jti secret)
      ((s.sessions.endSessions [jti]).refuse jti secret) (s.locks.release c) s.nextId .idle
  | rotate {jti : SessionId} {secret : Secret} {now : Timestamp} {row : AuthSession}
    (hrow : s.sessions.rows.get? jti=some row) :
    SessionsEffect settings c s input (.refreshRotate jti secret now)
      (s.sessions.rotate jti row secret s.nextId now) (s.locks.release c) (s.nextId+1) .idle
  | endSession {place : Place} {jti : SessionId} (hfree : s.locks.FreeFor c (.session jti)) :
    SessionsEffect settings c s input place (s.sessions.endSessions [jti]) s.locks s.nextId .idle
  | find {token : AccessToken} {row : AuthSession} {place' : Place}
    (hrow : s.sessions.rows.get? token.jti=some row)
    (hplace : place'=.accessIdle token.jti ∨ place'=.accessTouch s.nextId token row.memberId s.clock ∨
      place'=.accessMember s.nextId token row.memberId false) :
    SessionsEffect settings c s input .idle (s.sessions.find s.nextId token.jti) s.locks (s.nextId+1) place'
  | touch {check : ℕ} {token : AccessToken} {memberId : Uuid} {now : Timestamp} {row : AuthSession}
    (hrow : s.sessions.rows.get? token.jti=some row)
    (hfree : s.locks.FreeFor c (.session token.jti)) :
    SessionsEffect settings c s input (.accessTouch check token memberId now)
      (s.sessions.touch token.jti row now) s.locks s.nextId (.accessMember check token memberId true)
  | reload {check : ℕ} {token : AccessToken} {memberId id : Uuid} {locked : Bool} :
    SessionsEffect settings c s input (.accessMember check token memberId true) s.sessions s.locks s.nextId
      (.accessReload check token.jti id locked)
  | allowMember {check : ℕ} {token : AccessToken} {memberId : Uuid} {touched : Bool} :
    SessionsEffect settings c s input (.accessMember check token memberId touched)
      (s.sessions.allow check token.jti) s.locks s.nextId .idle
  | allowReload {check : ℕ} {jti : SessionId} {memberId : Uuid} {locked : Bool}
    {row : AuthSession} (hrow : s.sessions.rows.get? jti=some row) :
    SessionsEffect settings c s input (.accessReload check jti memberId locked)
      (s.sessions.allow check jti) s.locks s.nextId .idle

variable {settings : Settings} {c : ClientId} {s s' : AuthState} {place place' : Place}

lemma AuthState.await_eq_some {keys : List RowKey} {r : AuthState × Place} :
    s.await c keys r=some (s',place') ↔ (∀ key ∈ keys, s.locks.FreeFor c key) ∧ r=(s',place') := by
  unfold AuthState.await
  split_ifs with hfree
  · simp only [Option.some.injEq]
    exact (and_iff_right hfree).symm
  · simp only [hfree,false_and]

lemma accessAllowed_eq (s : AuthState) (check : ℕ) (jti : SessionId) (sessionMember memberId : Uuid)
    (locked : Bool) : accessAllowed s check jti sessionMember memberId locked=(s,.idle) ∨
    accessAllowed s check jti sessionMember memberId locked=
      ({ s with sessions := s.sessions.allow check jti },.idle) := by
  unfold accessAllowed
  split_ifs
  · exact .inr rfl
  · exact .inl rfl

lemma begin_accounts {request : Request} (h : begin settings c s request=some (s',place')) :
    AccountsEffect s (.call request) .idle s'.accounts s'.nextId place' := by
  cases request with
  | authenticateUser email password =>
    cases h
    refine .quiet le_rfl ?_
    unfold authenticateUser
    split
    · exact not_false
    · split
      · exact not_false
      · split_ifs <;> exact not_false
  | processForgotPassword email =>
    cases h
    refine .quiet le_rfl ?_
    unfold processForgotPassword
    split <;> exact not_false
  | executePasswordReset email token newPassword =>
    simp only [begin,executePasswordReset] at h
    split_ifs at h with hmay
    cases h
    split
    · exact .quiet (le_max_left _ _) not_false
    · exact .present hmay
  | refreshSession jti secret =>
    simp only [begin,refreshSession] at h
    split at h
    · cases h
      exact .quiet le_rfl not_false
    · obtain ⟨-,heq⟩ := AuthState.await_eq_some.mp h
      cases heq
      exact .quiet le_rfl not_false
  | logoutUser token =>
    cases h
    refine .quiet le_rfl ?_
    unfold logoutUser
    split <;> exact not_false
  | authenticateAccessToken token =>
    simp only [begin,authenticateAccessToken] at h
    split_ifs at h
    · cases h
      exact .quiet le_rfl not_false
    · split at h
      · cases h
        exact .quiet le_rfl not_false
      · cases h
        refine .quiet (Nat.le_succ _) ?_
        split_ifs <;> exact not_false
  | applyMemberInput memberId input =>
    cases h
    refine .quiet le_rfl ?_
    unfold applyMemberInput
    split <;> exact not_false

lemma resume_accounts (h : resume settings c s place=some (s',place')) :
    AccountsEffect s .next place s'.accounts s'.nextId place' := by
  cases place with
  | idle => contradiction
  | createUserSession memberId email verified startedAt =>
    simp only [resume,createUserSession] at h
    split_ifs at h
    · cases h
      exact .quiet le_rfl not_false
    · obtain ⟨-,heq⟩ := AuthState.await_eq_some.mp h
      cases heq
      exact .quiet (Nat.le_add_right _ 2) not_false
  | forgotDelete memberId startedAt =>
    obtain ⟨-,heq⟩ := AuthState.await_eq_some.mp h
    cases heq
    exact .quiet le_rfl not_false
  | forgotInsert memberId startedAt deleted =>
    obtain ⟨-,heq⟩ := AuthState.await_eq_some.mp h
    split_ifs at heq with hothers
    · cases heq
      exact .quiet le_rfl not_false
    · cases heq
      refine .insertToken ?_
      intro id hid
      by_contra hnew
      refine hothers (List.ne_nil_of_mem (List.mem_filter.mpr ⟨hid,?_⟩))
      simpa using hnew
  | forgotMail memberId token =>
    simp only [resume,forgotMail] at h
    split at h
    · cases h
      exact .quiet le_rfl not_false
    · rename_i address haddress
      obtain ⟨m,hm,haddress⟩ := Option.bind_eq_some_iff.mp haddress
      split_ifs at h
      · cases h
        exact .quiet le_rfl not_false
      · cases h
        exact .sendMail hm haddress
  | resetSelect memberId token newPassword =>
    cases h
    unfold resetSelect
    split
    · exact .quiet le_rfl not_false
    · rename_i entry row hfind
      obtain ⟨hrow,hmatch⟩ := Dict.get?_of_find? hfind
      simp only [Bool.and_eq_true,decide_eq_true_eq] at hmatch
      split_ifs
      · exact .quiet le_rfl not_false
      · exact .quiet le_rfl not_false
      · exact .select hrow hmatch.1 hmatch.2
  | resetExpired entry =>
    obtain ⟨-,heq⟩ := AuthState.await_eq_some.mp h
    cases heq
    exact .eraseToken
  | resetSessions memberId entry token newPassword =>
    cases h
    exact .startDelete
  | resetDelete memberId entry token newPassword pending deleted =>
    cases pending with
    | nil =>
      obtain ⟨-,heq⟩ := AuthState.await_eq_some.mp h
      split at heq
      · cases heq
        exact .quiet le_rfl not_false
      · rename_i m hm
        cases heq
        exact .redeem rfl hm
    | cons jti pending =>
      simp only [resume,resetDelete] at h
      split at h
      · cases h
        exact .delete
      · obtain ⟨-,heq⟩ := AuthState.await_eq_some.mp h
        cases heq
        exact .delete
  | refreshCheck jti secret =>
    simp only [resume,refreshCheck] at h
    split at h
    · cases h
      exact .quiet le_rfl not_false
    · split_ifs at h <;> cases h <;> exact .quiet le_rfl not_false
  | refreshRotate jti secret now =>
    simp only [resume,refreshRotate] at h
    split at h
    · cases h
      exact .quiet le_rfl not_false
    · obtain ⟨-,heq⟩ := AuthState.await_eq_some.mp h
      cases heq
      exact .quiet (Nat.le_succ _) not_false
  | logoutDelete jti memberId =>
    obtain ⟨-,heq⟩ := AuthState.await_eq_some.mp h
    cases heq
    exact .quiet le_rfl not_false
  | accessIdle jti =>
    obtain ⟨-,heq⟩ := AuthState.await_eq_some.mp h
    cases heq
    exact .quiet le_rfl not_false
  | accessTouch check token memberId now =>
    simp only [resume,accessTouch] at h
    split at h
    · cases h
      exact .quiet le_rfl not_false
    · obtain ⟨-,heq⟩ := AuthState.await_eq_some.mp h
      cases heq
      exact .quiet le_rfl not_false
  | accessMember check token memberId touched =>
    simp only [resume,accessMember] at h
    split at h
    · cases h
      exact .quiet le_rfl not_false
    · rename_i id m _
      split_ifs at h
      · cases h
        exact .quiet le_rfl not_false
      · rcases accessAllowed_eq s check token.jti memberId id m.authLocked with heq | heq <;>
          · rw [heq] at h
            cases h
            exact .quiet le_rfl not_false
  | accessReload check jti memberId locked =>
    simp only [resume,accessReload] at h
    split at h
    · cases h
      exact .quiet le_rfl not_false
    · rename_i row _
      rcases accessAllowed_eq s check jti row.memberId memberId locked with heq | heq <;>
        · rw [heq] at h
          cases h
          exact .quiet le_rfl not_false
  | saveFlush memberId loaded input =>
    simp only [resume,saveFlush] at h
    split at h
    · cases h
      exact .quiet le_rfl not_false
    · obtain ⟨-,heq⟩ := AuthState.await_eq_some.mp h
      cases heq
      exact .quiet le_rfl not_false
  | saveCommit memberId update deletedTokens =>
    simp only [resume,saveCommit] at h
    split at h
    · cases h
      exact .quiet le_rfl not_false
    · rename_i m hm
      split_ifs at h
      · cases h
        exact .quiet le_rfl not_false
      · cases h
        exact .updateMember rfl hm

/-- What a step can do to the accounts. -/
theorem authProgram_accounts {input : Input}
    (h : authProgram settings c s place input=some (s',place')) :
    AccountsEffect s input place s'.accounts s'.nextId place' := by
  cases input with
  | call request =>
    cases place with
    | idle => exact begin_accounts h
    | _ => contradiction
  | next => exact resume_accounts h
  | fail =>
    cases h
    exact .quiet le_rfl not_false
  | tick duration =>
    cases h
    exact .stay

lemma begin_sessions {request : Request} (h : begin settings c s request=some (s',place')) :
    SessionsEffect settings c s (.call request) .idle s'.sessions s'.locks s'.nextId place' := by
  have hkept := Locks.KeptBut.refl c s.locks
  cases request with
  | authenticateUser email password =>
    cases h
    refine .quiet hkept le_rfl ?_
    unfold authenticateUser
    split
    · exact not_false
    · split
      · exact not_false
      · split_ifs <;> exact not_false
  | processForgotPassword email =>
    cases h
    refine .quiet hkept le_rfl ?_
    unfold processForgotPassword
    split <;> exact not_false
  | executePasswordReset email token newPassword =>
    simp only [begin,executePasswordReset] at h
    split_ifs at h with hmay
    cases h
    refine .quiet hkept (le_max_left _ _) ?_
    split <;> exact not_false
  | refreshSession jti secret =>
    simp only [begin,refreshSession] at h
    split at h
    · rename_i hgone
      cases h
      exact .refuse hgone
    · rename_i row hrow
      obtain ⟨hfree,heq⟩ := AuthState.await_eq_some.mp h
      cases heq
      exact .lock hrow (hfree _ (List.mem_singleton_self _))
  | logoutUser token =>
    cases h
    refine .quiet hkept le_rfl ?_
    unfold logoutUser
    split <;> exact not_false
  | authenticateAccessToken token =>
    simp only [begin,authenticateAccessToken] at h
    split_ifs at h
    · cases h
      exact .quiet hkept le_rfl not_false
    · split at h
      · cases h
        exact .quiet hkept le_rfl not_false
      · rename_i row hrow
        cases h
        refine .find hrow ?_
        split_ifs
        · exact .inl rfl
        · exact .inr (.inl rfl)
        · exact .inr (.inr rfl)
  | applyMemberInput memberId input =>
    cases h
    refine .quiet hkept le_rfl ?_
    unfold applyMemberInput
    split <;> exact not_false

lemma resume_sessions (h : resume settings c s place=some (s',place')) :
    SessionsEffect settings c s .next place s'.sessions s'.locks s'.nextId place' := by
  have hkept := Locks.KeptBut.refl c s.locks
  have hreleased := Locks.KeptBut.release c s.locks
  cases place with
  | idle => contradiction
  | createUserSession memberId email verified startedAt =>
    simp only [resume,createUserSession] at h
    split_ifs at h with hempty
    · cases h
      exact .quiet hkept le_rfl not_false
    · obtain ⟨-,heq⟩ := AuthState.await_eq_some.mp h
      cases heq
      exact .openSession rfl (Bool.not_eq_true _ ▸ hempty)
  | forgotDelete memberId startedAt =>
    obtain ⟨hfree,heq⟩ := AuthState.await_eq_some.mp h
    cases heq
    exact .quiet (.acquire hfree) le_rfl not_false
  | forgotInsert memberId startedAt deleted =>
    obtain ⟨-,heq⟩ := AuthState.await_eq_some.mp h
    split_ifs at heq with hothers
    · cases heq
      exact .quiet hreleased le_rfl not_false
    · cases heq
      exact .quiet hreleased (Nat.le_add_right _ 2) not_false
  | forgotMail memberId token =>
    simp only [resume,forgotMail] at h
    split at h
    · cases h
      exact .quiet hkept le_rfl not_false
    · split_ifs at h <;> cases h <;> exact .quiet hkept le_rfl not_false
  | resetSelect memberId token newPassword =>
    cases h
    refine .quiet hkept le_rfl ?_
    unfold resetSelect
    split
    · exact not_false
    · split_ifs <;> exact not_false
  | resetExpired entry =>
    obtain ⟨-,heq⟩ := AuthState.await_eq_some.mp h
    cases heq
    exact .quiet hkept le_rfl not_false
  | resetSessions memberId entry token newPassword =>
    cases h
    exact .startDelete
  | resetDelete memberId entry token newPassword pending deleted =>
    cases pending with
    | nil =>
      obtain ⟨-,heq⟩ := AuthState.await_eq_some.mp h
      split at heq
      · cases heq
        exact .quiet hreleased le_rfl not_false
      · cases heq
        exact .redeem rfl
    | cons jti pending =>
      simp only [resume,resetDelete] at h
      split at h
      · rename_i hgone
        cases h
        exact .pass hgone
      · obtain ⟨hfree,heq⟩ := AuthState.await_eq_some.mp h
        cases heq
        exact .delete (hfree _ (List.mem_singleton_self _))
  | refreshCheck jti secret =>
    simp only [resume,refreshCheck] at h
    split at h
    · cases h
      exact .quiet hreleased le_rfl not_false
    · rename_i row hrow
      split_ifs at h with haccepts
      · cases h
        exact .accept hrow haccepts
      · cases h
        exact .endRefused
  | refreshRotate jti secret now =>
    simp only [resume,refreshRotate] at h
    split at h
    · cases h
      exact .quiet hreleased le_rfl not_false
    · rename_i row hrow
      obtain ⟨-,heq⟩ := AuthState.await_eq_some.mp h
      cases heq
      exact .rotate hrow
  | logoutDelete jti memberId =>
    obtain ⟨hfree,heq⟩ := AuthState.await_eq_some.mp h
    cases heq
    exact .endSession (hfree _ (List.mem_cons_of_mem _ (List.mem_singleton_self _)))
  | accessIdle jti =>
    obtain ⟨hfree,heq⟩ := AuthState.await_eq_some.mp h
    cases heq
    exact .endSession (hfree _ (List.mem_singleton_self _))
  | accessTouch check token memberId now =>
    simp only [resume,accessTouch] at h
    split at h
    · cases h
      exact .quiet hkept le_rfl not_false
    · rename_i row hrow
      obtain ⟨hfree,heq⟩ := AuthState.await_eq_some.mp h
      cases heq
      exact .touch hrow (hfree _ (List.mem_cons_of_mem _ (List.mem_singleton_self _)))
  | accessMember check token memberId touched =>
    simp only [resume,accessMember] at h
    split at h
    · cases h
      exact .quiet hkept le_rfl not_false
    · rename_i id m _
      split_ifs at h with htouched
      · cases h
        rw [htouched]
        exact .reload
      · rcases accessAllowed_eq s check token.jti memberId id m.authLocked with heq | heq
        · rw [heq] at h
          cases h
          exact .quiet hkept le_rfl not_false
        · rw [heq] at h
          cases h
          exact .allowMember
  | accessReload check jti memberId locked =>
    simp only [resume,accessReload] at h
    split at h
    · cases h
      exact .quiet hkept le_rfl not_false
    · rename_i row hrow
      rcases accessAllowed_eq s check jti row.memberId memberId locked with heq | heq
      · rw [heq] at h
        cases h
        exact .quiet hkept le_rfl not_false
      · rw [heq] at h
        cases h
        exact .allowReload hrow
  | saveFlush memberId loaded input =>
    simp only [resume,saveFlush] at h
    split at h
    · cases h
      exact .quiet hkept le_rfl not_false
    · obtain ⟨hfree,heq⟩ := AuthState.await_eq_some.mp h
      cases heq
      exact .quiet (.acquire hfree) le_rfl not_false
  | saveCommit memberId update deletedTokens =>
    simp only [resume,saveCommit] at h
    split at h
    · cases h
      exact .quiet hreleased le_rfl not_false
    · split_ifs at h <;> cases h <;> exact .quiet hreleased le_rfl not_false

/-- The commit of a reset changes both, or the call ends without a change. -/
lemma resetCommit_eq {memberId entry : Uuid} {token : Secret} {newPassword : Password}
    {deleted : List SessionId}
    (h : resume settings c s (.resetDelete memberId entry token newPassword [] deleted)=
      some (s',place')) :
    place'=.idle ∧ (s'.accounts=s.accounts ∧ s'.sessions=s.sessions ∧ s'.nextId=s.nextId ∨
      ∃ m, s.accounts.members.get? memberId=some m ∧
        s'.accounts=s.accounts.redeem memberId m entry token (getPasswordHash newPassword s.nextId)
          s.clock ∧
        s'.sessions=s.sessions.endSessions deleted ∧ s'.nextId=s.nextId+1) := by
  obtain ⟨-,heq⟩ := AuthState.await_eq_some.mp h
  split at heq
  · cases heq
    exact ⟨rfl,.inl ⟨rfl,rfl,rfl⟩⟩
  · rename_i m hm
    cases heq
    exact ⟨rfl,.inr ⟨m,hm,rfl,rfl,rfl⟩⟩

/-- What a step can do to the sessions. -/
theorem authProgram_sessions {input : Input}
    (h : authProgram settings c s place input=some (s',place')) :
    SessionsEffect settings c s input place s'.sessions s'.locks s'.nextId place' := by
  cases input with
  | call request =>
    cases place with
    | idle => exact begin_sessions h
    | _ => contradiction
  | next => exact resume_sessions h
  | fail =>
    cases h
    exact .quiet (.release c s.locks) le_rfl not_false
  | tick duration =>
    cases h
    exact .stay

end VbApi.Auth
