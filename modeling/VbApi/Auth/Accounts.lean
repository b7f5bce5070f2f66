import VbApi.Foundations.Dict
import VbApi.Foundations.RowLocks

/-! Members, their sessions and their reset tokens as committed rows, and the writes of the
transactions on them. Digests are symbolic: a digest belongs to one secret only. -/
namespace VbApi.Auth
open VbApi.Foundations

abbrev Uuid := ℕ
abbrev SessionId := ℕ
abbrev Email := String
/-- Microseconds. -/
abbrev Timestamp := ℕ
/-- A value of `secrets.token_urlsafe(32)`; none is drawn twice. -/
abbrev Secret := ℕ
/-- The bytes in UTF-8. -/
abbrev Password := List UInt8

def minutes (n : ℕ) : Timestamp := n*60*1000000

def days (n : ℕ) : Timestamp := minutes (n*24*60)

structure Settings where
  /-- `lower` of the database. -/
  lower : Email → Email
  sessionIdleTimeoutMinutes : ℕ
  refreshTokenLifetimeDays : ℕ

structure Digest where
  secret : Secret
  deriving DecidableEq, Repr

def hashResetToken (token : Secret) : Digest := ⟨token⟩

def hashRefreshSecret (secret : Secret) : Digest := ⟨secret⟩

def verifyRefreshSecret (plain : Secret) (hashed : Digest) : Bool := hashRefreshSecret plain=hashed

/-- A bcrypt hash; its salt is drawn for it. -/
structure PasswordHash where
  password : Password
  salt : ℕ
  deriving DecidableEq, Repr

def bcryptMaxPasswordBytes : ℕ := 72

def getPasswordHash (password : Password) (salt : ℕ) : PasswordHash := ⟨password,salt⟩

def verifyPassword (plain : Password) (hashed : PasswordHash) : Bool :=
  plain.take bcryptMaxPasswordBytes=hashed.password

structure Member where
  email : Option Email
  emailVerifiedAt : Option Timestamp
  authPassword : Option PasswordHash
  authLocked : Bool
  deriving DecidableEq, Repr

structure AuthSession where
  memberId : Uuid
  refreshTokenHash : Option Digest
  lastUsedAt : Timestamp
  createdAt : Timestamp
  deriving DecidableEq, Repr

structure PasswordResetToken where
  memberId : Uuid
  tokenHash : Digest
  createdAt : Timestamp
  deriving DecidableEq, Repr

/-- The mail task of a forgotten password, and the member it is about. -/
structure ResetMail where
  token : Secret
  memberId : Uuid
  address : Email
  deriving DecidableEq, Repr

/-- A token changed the password of a member, who then had this address. -/
structure Redemption where
  token : Secret
  memberId : Uuid
  address : Option Email
  previous : Option PasswordHash
  deriving DecidableEq, Repr

/-- A session was opened for a member whose password was verified against the hash. -/
structure Opening where
  jti : SessionId
  memberId : Uuid
  password : PasswordHash
  deriving DecidableEq, Repr

/-- The members and their reset tokens. `mails` holds what was mailed; no step reads
`redemptions`. -/
structure Accounts where
  members : Dict Uuid Member
  resetTokens : Dict Uuid PasswordResetToken
  mails : List ResetMail
  redemptions : List Redemption

/-- The sessions under their `jti`. The other fields record what happened, the newest first: refresh
secrets that were accepted or refused, checks of access tokens that found their session, and
those that let the request through. No step reads them. -/
structure Sessions where
  rows : Dict SessionId AuthSession
  openings : List Opening
  accepted : List (SessionId × Secret)
  refused : List (SessionId × Secret)
  found : List (ℕ × SessionId)
  allowed : List (ℕ × SessionId)

inductive RowKey
  | member (id : Uuid)
  | session (jti : SessionId)
  | resetToken (id : Uuid)
  deriving DecidableEq, Repr

/-- The committed state. Ids, secrets and salts are all drawn from `nextId`. -/
structure AuthState where
  accounts : Accounts
  sessions : Sessions
  locks : Locks RowKey
  clock : Timestamp
  nextId : ℕ

/-- What a save of a member changes in its row: only the fields that differ from the loaded ones. -/
structure MemberUpdate where
  email : Option (Option Email)
  clearsMark : Bool
  authLocked : Option Bool
  deriving DecidableEq, Repr

def MemberUpdate.apply (u : MemberUpdate) (m : Member) : Member where
  email := u.email.getD m.email
  emailVerifiedAt := if u.clearsMark then none else m.emailVerifiedAt
  authPassword := m.authPassword
  authLocked := u.authLocked.getD m.authLocked

/-- The address of the row differs afterwards. -/
def MemberUpdate.ChangesEmail (u : MemberUpdate) (m : Member) : Prop := (u.apply m).email ≠ m.email

instance (u : MemberUpdate) (m : Member) : Decidable (u.ChangesEmail m) :=
  inferInstanceAs (Decidable (_ ≠ _))

def isEmptyEmail (email : Option Email) : Bool := email ∈ [none,some ""]

/-- The fields of a save that matter here. -/
structure MemberInput where
  email : Option Email
  entlassen : Bool
  verstorben : Bool
  authLocked : Bool
  deriving DecidableEq, Repr

/-- The account of a dismissed or dead member, or one without an address, is locked. -/
def MemberInput.locked (input : MemberInput) : Bool :=
  input.entlassen || input.verstorben || isEmptyEmail input.email || input.authLocked

def memberUpdate (loaded : Member) (input : MemberInput) : MemberUpdate where
  email := if loaded.email=input.email then none else some input.email
  clearsMark := decide (loaded.email ≠ input.email) && loaded.emailVerifiedAt.isSome
  authLocked := if loaded.authLocked=input.locked then none else some input.locked

namespace Accounts

def memberByLowerEmail (a : Accounts) (settings : Settings) (email : Email) :
    Option (Uuid × Member) :=
  a.members.find? fun _ m => m.email.map settings.lower=some (settings.lower email)

def memberByEmail (a : Accounts) (email : Email) : Option (Uuid × Member) :=
  a.members.find? fun _ m => m.email=some email

/-- The unique index on `lower(email)`. -/
def emailTaken (a : Accounts) (settings : Settings) (id : Uuid) (email : Option Email) : Bool :=
  (a.members.find? fun id' m => id' ≠ id && m.email.isSome &&
    m.email.map settings.lower=email.map settings.lower).isSome

def tokensOf (a : Accounts) (memberId : Uuid) : List Uuid :=
  a.resetTokens.keysWhere fun _ t => t.memberId=memberId

def tokenByHash (a : Accounts) (memberId : Uuid) (token : Secret) :
    Option (Uuid × PasswordResetToken) :=
  a.resetTokens.find? fun _ t => t.memberId=memberId && t.tokenHash=hashResetToken token

/-- A random token is known from its mail only. -/
def MayPresent (a : Accounts) (token : Secret) : Prop :=
  (a.resetTokens.find? fun _ t => t.tokenHash=hashResetToken token).isSome →
    ∃ mail ∈ a.mails, mail.token=token

instance (a : Accounts) (token : Secret) : Decidable (a.MayPresent token) :=
  inferInstanceAs (Decidable (_ → ∃ mail ∈ a.mails, _))

def insertToken (a : Accounts) (deleted : List Uuid) (id : Uuid) (row : PasswordResetToken) :
    Accounts :=
  { a with resetTokens := (a.resetTokens.eraseAll deleted).set id row }

def sendMail (a : Accounts) (mail : ResetMail) : Accounts := { a with mails := mail::a.mails }

def eraseToken (a : Accounts) (entry : Uuid) : Accounts :=
  { a with resetTokens := a.resetTokens.erase entry }

def updateMember (a : Accounts) (id : Uuid) (m : Member) (u : MemberUpdate)
    (deletedTokens : List Uuid) : Accounts :=
  { a with
    members := a.members.set id (u.apply m)
    resetTokens := a.resetTokens.eraseAll deletedTokens }

/-- The new password, the mark of the address and the end of the token. -/
def redeem (a : Accounts) (id : Uuid) (m : Member) (entry : Uuid) (token : Secret)
    (hashed : PasswordHash) (now : Timestamp) : Accounts :=
  { a with
    members := a.members.set id { m with emailVerifiedAt := some now, authPassword := some hashed }
    resetTokens := a.resetTokens.erase entry
    redemptions := ⟨token,id,m.email,m.authPassword⟩::a.redemptions }

end Accounts

namespace Sessions

def sessionsOf (s : Sessions) (memberId : Uuid) : List SessionId :=
  s.rows.keysWhere fun _ row => row.memberId=memberId

def openSession (s : Sessions) (jti : SessionId) (row : AuthSession) (password : PasswordHash) :
    Sessions :=
  { s with
    rows := s.rows.set jti row
    openings := ⟨jti,row.memberId,password⟩::s.openings }

def endSessions (s : Sessions) (jtis : List SessionId) : Sessions :=
  { s with rows := s.rows.eraseAll jtis }

def refuse (s : Sessions) (jti : SessionId) (secret : Secret) : Sessions :=
  { s with refused := (jti,secret)::s.refused }

/-- The secret is accepted and another one takes its place. -/
def rotate (s : Sessions) (jti : SessionId) (row : AuthSession) (secret new : Secret)
    (now : Timestamp) : Sessions :=
  { s with
    rows := s.rows.set jti
      { row with refreshTokenHash := some (hashRefreshSecret new), lastUsedAt := now }
    accepted := (jti,secret)::s.accepted }

def touch (s : Sessions) (jti : SessionId) (row : AuthSession) (now : Timestamp) : Sessions :=
  { s with rows := s.rows.set jti { row with lastUsedAt := now } }

def find (s : Sessions) (check : ℕ) (jti : SessionId) : Sessions :=
  { s with found := (check,jti)::s.found }

def allow (s : Sessions) (check : ℕ) (jti : SessionId) : Sessions :=
  { s with allowed := (check,jti)::s.allowed }

end Sessions

/-- The end of a transaction. -/
def AuthState.unlock (s : AuthState) (c : ClientId) : AuthState :=
  { s with locks := s.locks.release c }

def AuthState.lock (s : AuthState) (c : ClientId) (keys : List RowKey) : AuthState :=
  { s with locks := s.locks.acquire c keys }

end VbApi.Auth
