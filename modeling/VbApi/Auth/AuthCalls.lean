import VbApi.Auth.Accounts

/-! The calls of the auth service and the save of a member, each as atomic steps: one statement or
one commit. A step that needs a row locked by another client has to wait. -/
namespace VbApi.Auth
open VbApi.Foundations

/-- The claims of a signed access token that are read. -/
structure AccessToken where
  sub : Email
  jti : SessionId
  exp : Timestamp
  deriving DecidableEq, Repr

inductive Request
  | authenticateUser (email : Email) (password : Password)
  | processForgotPassword (email : Email)
  | executePasswordReset (email : Email) (token : Secret) (newPassword : Password)
  | refreshSession (sessionId : SessionId) (refreshSecret : Secret)
  | logoutUser (token : AccessToken)
  | authenticateAccessToken (token : AccessToken)
  | applyMemberInput (memberId : Uuid) (input : MemberInput)

/-- Where a client stands; each place names what comes next. -/
inductive Place
  | idle
  /-- `create_user_session`, after `authenticate_user`. -/
  | createUserSession (memberId : Uuid) (email : Option Email) (verified : PasswordHash)
    (startedAt : Timestamp)
  | forgotDelete (memberId : Uuid) (startedAt : Timestamp)
  | forgotInsert (memberId : Uuid) (startedAt : Timestamp) (deleted : List Uuid)
  | forgotMail (memberId : Uuid) (token : Secret)
  | resetSelect (memberId : Uuid) (token : Secret) (newPassword : Password)
  | resetExpired (entry : Uuid)
  /-- The token is found; next the new hash and the `DELETE` on the sessions. -/
  | resetSessions (memberId entry : Uuid) (token : Secret) (newPassword : Password)
  /-- The `DELETE` takes the sessions it saw one after the other; then the rest and the commit. -/
  | resetDelete (memberId entry : Uuid) (token : Secret) (newPassword : Password)
    (pending deleted : List SessionId)
  | refreshCheck (jti : SessionId) (secret : Secret)
  | refreshRotate (jti : SessionId) (secret : Secret) (now : Timestamp)
  | logoutDelete (jti : SessionId) (memberId : Uuid)
  | accessIdle (jti : SessionId)
  | accessTouch (check : ℕ) (token : AccessToken) (memberId : Uuid) (now : Timestamp)
  | accessMember (check : ℕ) (token : AccessToken) (memberId : Uuid) (touched : Bool)
  /-- After a commit the session is read again for its member. -/
  | accessReload (check : ℕ) (jti : SessionId) (memberId : Uuid) (locked : Bool)
  | saveFlush (memberId : Uuid) (loaded : Member) (input : MemberInput)
  /-- The `UPDATE` and the trigger have run; next the commit. -/
  | saveCommit (memberId : Uuid) (update : MemberUpdate) (deletedTokens : List Uuid)

/-- A call begins, takes its next step, or fails and rolls back; or time passes. -/
inductive Input
  | call (request : Request)
  | next
  | fail
  | tick (duration : Timestamp)

/-- The step, once nobody else holds the rows. -/
def AuthState.await (s : AuthState) (c : ClientId) (keys : List RowKey) (r : AuthState × Place) :
    Option (AuthState × Place) :=
  if ∀ key ∈ keys, s.locks.FreeFor c key then some r else none

variable (settings : Settings) (c : ClientId) (s : AuthState)

/-! ### Login -/

def authenticateUser (email : Email) (password : Password) : Place :=
  match s.accounts.memberByLowerEmail settings email with
  | none => .idle
  | some (id,m) =>
    match m.authPassword with
    | none => .idle
    | some hashed =>
      if !m.authLocked && verifyPassword password hashed then
        .createUserSession id m.email hashed s.clock
      else .idle

def createUserSession (memberId : Uuid) (email : Option Email) (verified : PasswordHash)
    (startedAt : Timestamp) : Option (AuthState × Place) :=
  if isEmptyEmail email then some (s,.idle)
  else s.await c [.member memberId] ({ s with
    sessions := s.sessions.openSession s.nextId
      ⟨memberId,some (hashRefreshSecret (s.nextId+1)),s.clock,startedAt⟩ verified
    nextId := s.nextId+2 },.idle)

/-! ### Forgotten password -/

def processForgotPassword (email : Email) : Place :=
  match s.accounts.memberByLowerEmail settings email with
  | none => .idle
  | some (id,_) => .forgotDelete id s.clock

def forgotDelete (memberId : Uuid) (startedAt : Timestamp) : Option (AuthState × Place) :=
  let deleted := s.accounts.tokensOf memberId
  s.await c (deleted.map .resetToken)
    (s.lock c (deleted.map .resetToken),.forgotInsert memberId startedAt deleted)

/-- At most one row per member: another one is waited for while it may go, and else an error. -/
def forgotInsert (memberId : Uuid) (startedAt : Timestamp) (deleted : List Uuid) :
    Option (AuthState × Place) :=
  let others := (s.accounts.tokensOf memberId).filter (· ∉ deleted)
  s.await c (others.map .resetToken) <|
    if others ≠ [] then (s.unlock c,.idle)
    else ({ s with
      accounts := s.accounts.insertToken deleted s.nextId
        ⟨memberId,hashResetToken (s.nextId+1),startedAt⟩
      locks := s.locks.release c
      nextId := s.nextId+2 },.forgotMail memberId (s.nextId+1))

/-- The address is read again after the commit. -/
def forgotMail (memberId : Uuid) (token : Secret) : AuthState × Place :=
  match (s.accounts.members.get? memberId).bind (·.email) with
  | none => (s,.idle)
  | some address =>
    if address="" then (s,.idle)
    else ({ s with accounts := s.accounts.sendMail ⟨token,memberId,address⟩ },.idle)

/-! ### Password reset -/

/-- A value that somebody presents is not drawn afterwards. -/
def executePasswordReset (email : Email) (token : Secret) (newPassword : Password) :
    Option (AuthState × Place) :=
  if s.accounts.MayPresent token then
    some ({ s with nextId := max s.nextId (token+1) },
      match s.accounts.memberByLowerEmail settings email with
      | none => .idle
      | some (id,_) => .resetSelect id token newPassword)
  else none

def resetTokenLifetime : Timestamp := minutes 20

/-- bcrypt raises for a longer password. -/
def resetSelect (memberId : Uuid) (token : Secret) (newPassword : Password) : Place :=
  match s.accounts.tokenByHash memberId token with
  | none => .idle
  | some (entry,row) =>
    if s.clock-row.createdAt > resetTokenLifetime then .resetExpired entry
    else if newPassword.length > bcryptMaxPasswordBytes then .idle
    else .resetSessions memberId entry token newPassword

def resetExpired (entry : Uuid) : Option (AuthState × Place) :=
  s.await c [.resetToken entry] ({ s with accounts := s.accounts.eraseToken entry },.idle)

/-- A session that is gone by now is passed over. The salt may as well be drawn when the hash is
written. -/
def resetDelete (memberId entry : Uuid) (token : Secret) (newPassword : Password)
    (deleted : List SessionId) : List SessionId → Option (AuthState × Place)
  | [] => s.await c [.member memberId,.resetToken entry] <|
    match s.accounts.members.get? memberId with
    | none => (s.unlock c,.idle)
    | some m => ({ s with
        accounts := s.accounts.redeem memberId m entry token (getPasswordHash newPassword s.nextId)
          s.clock
        sessions := s.sessions.endSessions deleted
        locks := s.locks.release c
        nextId := s.nextId+1 },.idle)
  | jti::pending =>
    match s.sessions.rows.get? jti with
    | none => some (s,.resetDelete memberId entry token newPassword pending deleted)
    | some _ => s.await c [.session jti] (s.lock c [.session jti],
        .resetDelete memberId entry token newPassword pending (jti::deleted))

/-! ### Refresh -/

/-- `SELECT ... FOR UPDATE`: it waits for the lock and reads the row as it is then. -/
def refreshSession (jti : SessionId) (secret : Secret) : Option (AuthState × Place) :=
  match s.sessions.rows.get? jti with
  | none => some ({ s with sessions := s.sessions.refuse jti secret },.idle)
  | some _ => s.await c [.session jti] (s.lock c [.session jti],.refreshCheck jti secret)

def isIdle (row : AuthSession) (now : Timestamp) : Bool :=
  now-row.lastUsedAt > minutes settings.sessionIdleTimeoutMinutes

def validateRefreshToken (row : AuthSession) (secret : Secret) : Bool :=
  match row.refreshTokenHash with
  | none => false
  | some hashed => verifyRefreshSecret secret hashed

def validateSessionExpiry (row : AuthSession) (now : Timestamp) : Bool :=
  !isIdle settings row now && now-row.createdAt ≤ days settings.refreshTokenLifetimeDays

def mayRefresh (m : Option Member) : Bool :=
  match m with
  | none => false
  | some m => !m.authLocked && !isEmptyEmail m.email

/-- `refresh_session` goes on to rotate the secret. -/
def acceptsRefresh (row : AuthSession) (secret : Secret) : Bool :=
  validateRefreshToken row secret && validateSessionExpiry settings row s.clock &&
    mayRefresh (s.accounts.members.get? row.memberId)

/-- A refusal ends the session. -/
def refreshCheck (jti : SessionId) (secret : Secret) : AuthState × Place :=
  match s.sessions.rows.get? jti with
  | none => (s.unlock c,.idle)
  | some row =>
    if acceptsRefresh settings s row secret then (s,.refreshRotate jti secret s.clock)
    else ({ s with
      sessions := (s.sessions.endSessions [jti]).refuse jti secret
      locks := s.locks.release c },.idle)

def refreshRotate (jti : SessionId) (secret : Secret) (now : Timestamp) :
    Option (AuthState × Place) :=
  match s.sessions.rows.get? jti with
  | none => some (s.unlock c,.idle)
  | some row => s.await c [.member row.memberId] ({ s with
      sessions := s.sessions.rotate jti row secret s.nextId now
      locks := s.locks.release c
      nextId := s.nextId+1 },.idle)

/-! ### Logout -/

/-- An expired access token will do. -/
def logoutUser (token : AccessToken) : Place :=
  match s.sessions.rows.get? token.jti with
  | none => .idle
  | some row => .logoutDelete token.jti row.memberId

def logoutDelete (jti : SessionId) (memberId : Uuid) : Option (AuthState × Place) :=
  s.await c [.member memberId,.session jti]
    ({ s with sessions := s.sessions.endSessions [jti] },.idle)

/-! ### Access tokens -/

def sessionTouchInterval : Timestamp := minutes 1

/-- Each check has a number of its own. -/
def authenticateAccessToken (token : AccessToken) : AuthState × Place :=
  if token.exp ≤ s.clock then (s,.idle)
  else
    match s.sessions.rows.get? token.jti with
    | none => (s,.idle)
    | some row => ({ s with
        sessions := s.sessions.find s.nextId token.jti
        nextId := s.nextId+1 },
        if isIdle settings row s.clock then .accessIdle token.jti
        else if s.clock-row.lastUsedAt > sessionTouchInterval then
          .accessTouch s.nextId token row.memberId s.clock
        else .accessMember s.nextId token row.memberId false)

def accessIdle (jti : SessionId) : Option (AuthState × Place) :=
  s.await c [.session jti] ({ s with sessions := s.sessions.endSessions [jti] },.idle)

/-- The update of a row that is gone raises. -/
def accessTouch (check : ℕ) (token : AccessToken) (memberId : Uuid) (now : Timestamp) :
    Option (AuthState × Place) :=
  match s.sessions.rows.get? token.jti with
  | none => some (s,.idle)
  | some row => s.await c [.member memberId,.session token.jti]
      ({ s with sessions := s.sessions.touch token.jti row now },
        .accessMember check token memberId true)

def accessAllowed (check : ℕ) (jti : SessionId) (sessionMember memberId : Uuid) (locked : Bool) :
    AuthState × Place :=
  if memberId=sessionMember ∧ locked=false then
    ({ s with sessions := s.sessions.allow check jti },.idle)
  else (s,.idle)

def accessMember (check : ℕ) (token : AccessToken) (sessionMember : Uuid) (touched : Bool) :
    AuthState × Place :=
  match s.accounts.memberByEmail token.sub with
  | none => (s,.idle)
  | some (id,m) =>
    if touched then (s,.accessReload check token.jti id m.authLocked)
    else accessAllowed s check token.jti sessionMember id m.authLocked

def accessReload (check : ℕ) (jti : SessionId) (memberId : Uuid) (locked : Bool) :
    AuthState × Place :=
  match s.sessions.rows.get? jti with
  | none => (s,.idle)
  | some row => accessAllowed s check jti row.memberId memberId locked

/-! ### Saves of a member -/

def applyMemberInput (memberId : Uuid) (input : MemberInput) : Place :=
  match s.accounts.members.get? memberId with
  | none => .idle
  | some loaded => .saveFlush memberId loaded input

/-- The trigger deletes the tokens that it sees when the address changes. -/
def saveFlush (memberId : Uuid) (loaded : Member) (input : MemberInput) :
    Option (AuthState × Place) :=
  match s.accounts.members.get? memberId with
  | none => some (s,.idle)
  | some m =>
    let update := memberUpdate loaded input
    let deleted := if update.ChangesEmail m then s.accounts.tokensOf memberId else []
    let keys := .member memberId::deleted.map .resetToken
    s.await c keys (s.lock c keys,.saveCommit memberId update deleted)

def saveCommit (memberId : Uuid) (update : MemberUpdate) (deletedTokens : List Uuid) :
    AuthState × Place :=
  match s.accounts.members.get? memberId with
  | none => (s.unlock c,.idle)
  | some m =>
    if s.accounts.emailTaken settings memberId (update.apply m).email then (s.unlock c,.idle)
    else ({ s with
      accounts := s.accounts.updateMember memberId m update deletedTokens
      locks := s.locks.release c },.idle)

/-! ### The program -/

def begin : Request → Option (AuthState × Place)
  | .authenticateUser email password => some (s,authenticateUser settings s email password)
  | .processForgotPassword email => some (s,processForgotPassword settings s email)
  | .executePasswordReset email token newPassword =>
    executePasswordReset settings s email token newPassword
  | .refreshSession jti secret => refreshSession c s jti secret
  | .logoutUser token => some (s,logoutUser s token)
  | .authenticateAccessToken token => some (authenticateAccessToken settings s token)
  | .applyMemberInput memberId input => some (s,applyMemberInput s memberId input)

def resume : Place → Option (AuthState × Place)
  | .idle => none
  | .createUserSession memberId email verified startedAt =>
    createUserSession c s memberId email verified startedAt
  | .forgotDelete memberId startedAt => forgotDelete c s memberId startedAt
  | .forgotInsert memberId startedAt deleted => forgotInsert c s memberId startedAt deleted
  | .forgotMail memberId token => some (forgotMail s memberId token)
  | .resetSelect memberId token newPassword => some (s,resetSelect s memberId token newPassword)
  | .resetExpired entry => resetExpired c s entry
  | .resetSessions memberId entry token newPassword =>
    some (s,.resetDelete memberId entry token newPassword (s.sessions.sessionsOf memberId) [])
  | .resetDelete memberId entry token newPassword pending deleted =>
    resetDelete c s memberId entry token newPassword deleted pending
  | .refreshCheck jti secret => some (refreshCheck settings c s jti secret)
  | .refreshRotate jti secret now => refreshRotate c s jti secret now
  | .logoutDelete jti memberId => logoutDelete c s jti memberId
  | .accessIdle jti => accessIdle c s jti
  | .accessTouch check token memberId now => accessTouch c s check token memberId now
  | .accessMember check token memberId touched =>
    some (accessMember s check token memberId touched)
  | .accessReload check jti memberId locked => some (accessReload s check jti memberId locked)
  | .saveFlush memberId loaded input => saveFlush c s memberId loaded input
  | .saveCommit memberId update deletedTokens =>
    some (saveCommit settings c s memberId update deletedTokens)

def authProgram : Program AuthState Place Input := fun c s place input =>
  match input with
  | .call request =>
    match place with
    | .idle => begin settings c s request
    | _ => none
  | .next => resume settings c s place
  | .fail => some (s.unlock c,.idle)
  | .tick duration => some ({ s with clock := s.clock+duration },place)

end VbApi.Auth
