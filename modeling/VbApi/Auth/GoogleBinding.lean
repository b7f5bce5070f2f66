import VbApi.Auth.AuthCalls

/-! Google accounts bound to members: logins, links and unlinks by any number of clients, each as atomic
steps. A link inserts its row in a savepoint, and the two unique constraints decide a race. -/
namespace VbApi.Auth.Google
open VbApi.Foundations

/-- `sub` of a Google account. -/
abbrev GoogleId := String

/-- The claims that are read; one that is not a text is left out. -/
structure GoogleClaims where
  sub : Option GoogleId
  name : Option String

/-- The configuration, and the library that checks a token for one application. -/
structure GoogleSettings where
  googleClientId : Option String
  verifyOauth2Token : Timestamp → String → String → Option GoogleClaims

structure MembersOauth2Binding where
  memberId : Uuid
  remoteId : GoogleId
  remoteName : String
  boundAt : Timestamp
  lastuseAt : Timestamp
  deriving DecidableEq, Repr

/-- What was committed, in order; no step reads it. -/
inductive Event
  | linked (memberId : Uuid) (googleId : GoogleId)
  | unlinked (memberId : Uuid)
  | opened (jti : SessionId) (memberId : Uuid) (googleId : GoogleId)
  deriving DecidableEq, Repr

/-- A row, or an entry of one of the unique indexes that is not committed yet. -/
inductive BindingKey
  | row (id : Uuid)
  | remoteId (googleId : GoogleId)
  | owner (memberId : Uuid)
  deriving DecidableEq, Repr

/-- The committed state; `events` holds the newest first. -/
structure GoogleState where
  accounts : Accounts
  bindings : Dict Uuid MembersOauth2Binding
  events : List Event
  locks : Locks BindingKey
  clock : Timestamp
  nextId : ℕ

inductive Request
  | authenticateGoogleUser (credential : String)
  | linkGoogleAccount (credential : String) (email : Email) (password : Password)
  | unlinkGoogleAccount (memberId : Uuid)

/-- The member who is logged in, and the row that says so. -/
structure Login where
  binding : Uuid
  memberId : Uuid
  googleId : GoogleId

inductive Place
  | idle
  /-- A binding is found; next the flush of its last use. -/
  | loginFlush (login : Login)
  | loginMember (login : Login) (lastuseAt : Timestamp)
  /-- The binding is there already; next the flush of its last use. -/
  | linkFlush (login : Login) (email : Option Email)
  /-- `create_user_session` of a member whose binding is flushed. -/
  | openSession (login : Login) (email : Option Email) (lastuseAt : Timestamp)
  | linkSelect (memberId : Uuid) (email : Option Email) (googleId : GoogleId) (name : String)
  | linkInsert (memberId : Uuid) (email : Option Email) (googleId : GoogleId) (name : String)
  /-- `create_user_session` of a member whose binding is inserted. -/
  | linkCommit (memberId : Uuid) (email : Option Email) (googleId : GoogleId) (name : String)
    (startedAt : Timestamp)
  /-- The `DELETE` has seen these rows. -/
  | unlinkDelete (memberId : Uuid) (seen : List Uuid)

/-- A call begins, takes its next step, or fails and rolls back; a member is saved elsewhere, or time
passes. -/
inductive Input
  | call (request : Request)
  | next
  | fail
  | saveMember (memberId : Uuid) (m : Member)
  | tick (duration : Timestamp)

section Steps
variable (settings : Settings) (google : GoogleSettings) (c : ClientId) (s : GoogleState)

def GoogleState.await (keys : List BindingKey) (r : GoogleState × Place) :
    Option (GoogleState × Place) :=
  if ∀ key ∈ keys, s.locks.FreeFor c key then some r else none

def GoogleState.unlock : GoogleState := { s with locks := s.locks.release c }

def GoogleState.lock (keys : List BindingKey) : GoogleState :=
  { s with locks := s.locks.acquire c keys }

/-- The subject and the claims of a token for this application. -/
def verifyGoogleCredential (credential : String) : Option (GoogleId × GoogleClaims) :=
  match google.googleClientId with
  | none | some "" => none
  | some clientId =>
    match google.verifyOauth2Token s.clock credential clientId with
    | none => none
    | some claims =>
      match claims.sub with
      | none | some "" => none
      | some sub => some (sub,claims)

/-! ### Login -/

def authenticateGoogleUser (credential : String) : Place :=
  match verifyGoogleCredential google s credential with
  | none => .idle
  | some (googleId,_) =>
    match s.bindings.find? fun _ b => b.remoteId=googleId with
    | none => .idle
    | some (id,b) => .loginFlush ⟨id,b.memberId,googleId⟩

/-- The update of a row that is gone raises. -/
def flushBinding (login : Login) (next : Place) : Option (GoogleState × Place) :=
  match s.bindings.get? login.binding with
  | none => some (s.unlock c,.idle)
  | some _ => s.await c [.row login.binding] (s.lock c [.row login.binding],next)

def loginMember (login : Login) (lastuseAt : Timestamp) : GoogleState × Place :=
  match s.accounts.members.get? login.memberId with
  | none => (s.unlock c,.idle)
  | some m =>
    if m.authLocked then (s.unlock c,.idle) else (s,.openSession login m.email lastuseAt)

/-- The commit of the session covers the last use. -/
def openSession (login : Login) (email : Option Email) (lastuseAt : Timestamp) :
    GoogleState × Place :=
  if isEmptyEmail email then (s.unlock c,.idle)
  else ({ s with
    bindings := s.bindings.modify [login.binding] fun b => { b with lastuseAt := lastuseAt }
    events := .opened s.nextId login.memberId login.googleId::s.events
    locks := s.locks.release c
    nextId := s.nextId+1 },.idle)

/-! ### Link -/

/-- What `authenticate_user` reads; the sessions are nothing to it. -/
def GoogleState.auth : AuthState where
  accounts := s.accounts
  sessions := ⟨Dict.empty,[],[],[],[],[]⟩
  locks _ := none
  clock := s.clock
  nextId := s.nextId

/-- The member by e-mail and password, and then the Google account. -/
def linkGoogleAccount (credential : String) (email : Email) (password : Password) : Place :=
  match authenticateUser settings s.auth email password with
  | .createUserSession memberId email _ _ =>
    match verifyGoogleCredential google s credential with
    | none => .idle
    | some (googleId,claims) => .linkSelect memberId email googleId (claims.name.getD "Unknown")
  | _ => .idle

def Conflicts (memberId : Uuid) (googleId : GoogleId) (b : MembersOauth2Binding) : Bool :=
  b.remoteId=googleId || b.memberId=memberId

def linkSelect (memberId : Uuid) (email : Option Email) (googleId : GoogleId) (name : String) :
    Place :=
  match s.bindings.find? fun _ b => Conflicts memberId googleId b with
  | none => .linkInsert memberId email googleId name
  | some (id,b) =>
    if b.memberId=memberId ∧ b.remoteId=googleId then .linkFlush ⟨id,memberId,googleId⟩ email
    else .idle

/-- A committed row refuses the insert; one that is not committed yet is waited for. -/
def linkInsert (memberId : Uuid) (email : Option Email) (googleId : GoogleId) (name : String) :
    Option (GoogleState × Place) :=
  match s.bindings.find? fun _ b => Conflicts memberId googleId b with
  | some _ => some (s.unlock c,.idle)
  | none => s.await c [.remoteId googleId,.owner memberId]
      (s.lock c [.remoteId googleId,.owner memberId],
        .linkCommit memberId email googleId name s.clock)

/-- The commit of the session covers the new row. -/
def linkCommit (memberId : Uuid) (email : Option Email) (googleId : GoogleId) (name : String)
    (startedAt : Timestamp) : GoogleState × Place :=
  if isEmptyEmail email then (s.unlock c,.idle)
  else ({ s with
    bindings := s.bindings.set s.nextId ⟨memberId,googleId,name,startedAt,startedAt⟩
    events := .opened (s.nextId+1) memberId googleId::.linked memberId googleId::s.events
    locks := s.locks.release c
    nextId := s.nextId+2 },.idle)

/-! ### Unlink -/

def unlinkGoogleAccount (memberId : Uuid) : Place :=
  .unlinkDelete memberId (s.bindings.keysWhere fun _ b => b.memberId=memberId)

/-- Rows that are gone by now are passed over. -/
def unlinkDelete (memberId : Uuid) (seen : List Uuid) : Option (GoogleState × Place) :=
  let present := seen.filter fun id => (s.bindings.get? id).isSome
  s.await c (present.map .row) ({ s with
    bindings := s.bindings.eraseAll present
    events := if present=[] then s.events else .unlinked memberId::s.events },.idle)

/-! ### The program -/

def begin : Request → Place
  | .authenticateGoogleUser credential => authenticateGoogleUser google s credential
  | .linkGoogleAccount credential email password =>
    linkGoogleAccount settings google s credential email password
  | .unlinkGoogleAccount memberId => unlinkGoogleAccount s memberId

def resume : Place → Option (GoogleState × Place)
  | .idle => none
  | .loginFlush login => flushBinding c s login (.loginMember login s.clock)
  | .loginMember login lastuseAt => some (loginMember c s login lastuseAt)
  | .linkFlush login email => flushBinding c s login (.openSession login email s.clock)
  | .openSession login email lastuseAt => some (openSession c s login email lastuseAt)
  | .linkSelect memberId email googleId name => some (s,linkSelect s memberId email googleId name)
  | .linkInsert memberId email googleId name => linkInsert c s memberId email googleId name
  | .linkCommit memberId email googleId name startedAt =>
    some (linkCommit c s memberId email googleId name startedAt)
  | .unlinkDelete memberId seen => unlinkDelete c s memberId seen

end Steps

def googleProgram (settings : Settings) (google : GoogleSettings) :
    Program GoogleState Place Input := fun c s place input =>
  match input with
  | .call request =>
    match place with
    | .idle => some (s,begin settings google s request)
    | _ => none
  | .next => resume c s place
  | .fail => some (s.unlock c,.idle)
  | .saveMember memberId m => some
      ({ s with accounts := { s.accounts with members := s.accounts.members.set memberId m } },place)
  | .tick duration => some ({ s with clock := s.clock+duration },place)

/-! ### What the rows and the events say -/

/-- Linked, and not unlinked since. -/
def LinkedNow : List Event → Uuid → GoogleId → Prop
  | [],_,_ => False
  | .linked m' g'::events,m,g => m'=m ∧ g'=g ∨ LinkedNow events m g
  | .unlinked m'::events,m,g => m' ≠ m ∧ LinkedNow events m g
  | .opened _ _ _::events,m,g => LinkedNow events m g

/-- Every session was opened for the member that the Google account was linked to. -/
def Sanctioned : List Event → Prop
  | [] => True
  | .opened _ m g::events => LinkedNow events m g ∧ Sanctioned events
  | .linked _ _::events => Sanctioned events
  | .unlinked _::events => Sanctioned events

/-- The member and the Google account of a row. -/
def GoogleState.ids (s : GoogleState) (id : Uuid) : Option (Uuid × GoogleId) :=
  (s.bindings.get? id).map fun b => (b.memberId,b.remoteId)

structure BindingsLaw (s : GoogleState) : Prop where
  fresh : ∀ id p, s.ids id=some p → id < s.nextId
  unique : ∀ id p id' p', s.ids id=some p → s.ids id'=some p' → p.1=p'.1 ∨ p.2=p'.2 → id=id'
  replayed : ∀ m g, (∃ id, s.ids id=some (m,g)) ↔ LinkedNow s.events m g
  sanctioned : Sanctioned s.events

/-- The row is still as the client has found it, if it is there. -/
def Knows (s : GoogleState) (login : Login) : Prop :=
  login.binding < s.nextId ∧
    ∀ p, s.ids login.binding=some p → p=(login.memberId,login.googleId)

/-- The row is there, and the client has it locked. -/
def Holding (c : ClientId) (s : GoogleState) (login : Login) : Prop :=
  s.locks (.row login.binding)=some c ∧
    s.ids login.binding=some (login.memberId,login.googleId)

/-- What a client relies on. -/
def PlaceHolds (c : ClientId) (s : GoogleState) : Place → Prop
  | .loginFlush login => Knows s login
  | .linkFlush login _ => Knows s login
  | .loginMember login _ => Holding c s login
  | .openSession login _ _ => Holding c s login
  | .linkCommit m _ g _ _ => s.locks (.remoteId g)=some c ∧ s.locks (.owner m)=some c ∧
      ∀ id p, s.ids id=some p → p.1 ≠ m ∧ p.2 ≠ g
  | .unlinkDelete m seen => ∀ id ∈ seen, id < s.nextId ∧ ∀ p, s.ids id=some p → p.1=m
  | _ => True

/-- What a step of one client leaves to the others. -/
structure Evolves (c : ClientId) (s s' : GoogleState) : Prop where
  locks : s.locks.KeptBut c s'.locks
  next : s.nextId ≤ s'.nextId
  kept : ∀ c' id p, c' ≠ c → s.locks (.row id)=some c' → s.ids id=some p → s'.ids id=some p
  old : ∀ id p, s'.ids id=some p → s.ids id=some p ∨
    s.nextId ≤ id ∧ s.locks (.remoteId p.2)=some c ∧ s.locks (.owner p.1)=some c

section Evolves
variable {c c' : ClientId} {s s' : GoogleState}

lemma Knows.evolve (h : Evolves c s s') {login : Login} (hknows : Knows s login) :
    Knows s' login := by
  refine ⟨hknows.1.trans_le h.next,?_⟩
  intro p hp
  obtain hold | ⟨hnew,-⟩ := h.old _ p hp
  · exact hknows.2 p hold
  · exact absurd hknows.1 (not_lt.mpr hnew)

lemma Holding.evolve (h : Evolves c s s') (hc : c' ≠ c) {login : Login}
    (hheld : Holding c' s login) : Holding c' s' login :=
  ⟨h.locks c' _ hc hheld.1,h.kept c' _ _ hc hheld.1 hheld.2⟩

/-- What the others rely on stays. -/
lemma PlaceHolds.evolve (h : Evolves c s s') (hc : c' ≠ c) {place : Place}
    (hplace : PlaceHolds c' s place) : PlaceHolds c' s' place := by
  cases place with
  | loginFlush login => exact Knows.evolve h hplace
  | linkFlush login email => exact Knows.evolve h hplace
  | loginMember login lastuseAt => exact Holding.evolve h hc hplace
  | openSession login email lastuseAt => exact Holding.evolve h hc hplace
  | linkCommit m email g name startedAt =>
    obtain ⟨hremote,howner,hnone⟩ := hplace
    refine ⟨h.locks c' _ hc hremote,h.locks c' _ hc howner,?_⟩
    intro id p hp
    obtain hold | ⟨-,hremote',howner'⟩ := h.old id p hp
    · exact hnone id p hold
    · constructor
      · rintro rfl
        exact hc (Option.some.inj (howner.symm.trans howner'))
      · rintro rfl
        exact hc (Option.some.inj (hremote.symm.trans hremote'))
  | unlinkDelete m seen =>
    intro id hid
    obtain ⟨hlt,hmember⟩ := hplace id hid
    refine ⟨hlt.trans_le h.next,?_⟩
    intro p hp
    obtain hold | ⟨hnew,-⟩ := h.old id p hp
    · exact hmember p hold
    · exact absurd hlt (not_lt.mpr hnew)
  | _ => trivial

/-- A step that leaves the rows and the events. -/
lemma Evolves.of_same (hids : s'.ids=s.ids) (hlocks : s.locks.KeptBut c s'.locks)
    (hnext : s.nextId ≤ s'.nextId) : Evolves c s s' where
  locks := hlocks
  next := hnext
  kept _ id p _ _ hp := by rw [hids]; exact hp
  old id p hp := .inl (hids ▸ hp)

lemma BindingsLaw.of_same (h : BindingsLaw s) (hids : s'.ids=s.ids) (hevents : s'.events=s.events)
    (hnext : s.nextId ≤ s'.nextId) : BindingsLaw s' where
  fresh id p hp := (h.fresh id p (hids ▸ hp)).trans_le hnext
  unique := by rw [hids]; exact h.unique
  replayed := by rw [hids,hevents]; exact h.replayed
  sanctioned := by rw [hevents]; exact h.sanctioned

end Evolves

/-! ### One step -/

/-- A step of one client keeps the law, what the others rely on and what it relies on itself. -/
structure Good (c : ClientId) (s s' : GoogleState) (place' : Place) : Prop where
  evolves : Evolves c s s'
  law : BindingsLaw s'
  place : PlaceHolds c s' place'

section Steps
variable {settings : Settings} {google : GoogleSettings} {c : ClientId} {s s' : GoogleState}
  {place' : Place} {login : Login}

lemma Good.of_same (hlaw : BindingsLaw s) (hids : s'.ids=s.ids) (hevents : s'.events=s.events)
    (hlocks : s.locks.KeptBut c s'.locks) (hnext : s.nextId ≤ s'.nextId)
    (hplace : PlaceHolds c s' place') : Good c s s' place' :=
  ⟨.of_same hids hlocks hnext,hlaw.of_same hids hevents hnext,hplace⟩

lemma Good.stay (hlaw : BindingsLaw s) (hplace : PlaceHolds c s place') : Good c s s place' :=
  .of_same hlaw rfl rfl (.refl c s.locks) le_rfl hplace

lemma Good.unlock (hlaw : BindingsLaw s) : Good c s (s.unlock c) .idle :=
  .of_same hlaw rfl rfl (.release c s.locks) le_rfl trivial

lemma await_eq_some {keys : List BindingKey} {r : GoogleState × Place}
    (h : s.await c keys r=some (s',place')) :
    (∀ key ∈ keys, s.locks.FreeFor c key) ∧ r=(s',place') := by
  unfold GoogleState.await at h
  split_ifs at h with hfree
  exact ⟨hfree,Option.some.inj h⟩

lemma ids_of_get? {id : Uuid} {b : MembersOauth2Binding} (h : s.bindings.get? id=some b) :
    s.ids id=some (b.memberId,b.remoteId) := by
  rw [GoogleState.ids,h]
  rfl

lemma exists_of_ids {id : Uuid} {p : Uuid × GoogleId} (h : s.ids id=some p) :
    ∃ b, s.bindings.get? id=some b ∧ (b.memberId,b.remoteId)=p :=
  Option.map_eq_some_iff.mp h

lemma flushBinding_good (hlaw : BindingsLaw s) (hknows : Knows s login) (next : Place)
    (hnext : ∀ s, Holding c s login → PlaceHolds c s next)
    (h : flushBinding c s login next=some (s',place')) : Good c s s' place' := by
  unfold flushBinding at h
  cases hrow : s.bindings.get? login.binding with
  | none =>
    rw [hrow] at h
    cases h
    exact .unlock hlaw
  | some b =>
    rw [hrow] at h
    obtain ⟨hfree,h⟩ := await_eq_some h
    cases h
    have hids := ids_of_get? hrow
    rw [hknows.2 _ hids] at hids
    exact .of_same hlaw rfl rfl (.acquire hfree) le_rfl
      (hnext _ ⟨Locks.acquire_self _ _ _,hids⟩)

lemma loginMember_good (hlaw : BindingsLaw s) (hheld : Holding c s login) {lastuseAt : Timestamp}
    (h : loginMember c s login lastuseAt=(s',place')) : Good c s s' place' := by
  unfold loginMember at h
  cases hmember : s.accounts.members.get? login.memberId with
  | none =>
    rw [hmember] at h
    cases h
    exact .unlock hlaw
  | some m =>
    rw [hmember] at h
    dsimp only at h
    split_ifs at h
    · cases h
      exact .unlock hlaw
    · cases h
      exact .stay hlaw hheld

lemma openSession_good (hlaw : BindingsLaw s) (hheld : Holding c s login) {email : Option Email}
    {lastuseAt : Timestamp} (h : openSession c s login email lastuseAt=(s',place')) :
    Good c s s' place' := by
  unfold openSession at h
  split_ifs at h
  · cases h
    exact .unlock hlaw
  · obtain ⟨hs,rfl⟩ := Prod.mk.inj h
    have hids : s'.ids=s.ids := by
      funext id
      rw [← hs,GoogleState.ids,GoogleState.ids,Dict.get?_modify]
      split_ifs
      · rw [Option.map_map]
        rfl
      · rfl
    have hnext : s.nextId ≤ s'.nextId := by
      rw [← hs]
      exact Nat.le_succ _
    refine ⟨.of_same hids (hs ▸ .release c s.locks) hnext,?_,trivial⟩
    constructor
    · intro id p hp
      rw [hids] at hp
      exact (hlaw.fresh id p hp).trans_le hnext
    · rw [hids]
      exact hlaw.unique
    · rw [hids,← hs]
      exact hlaw.replayed
    · rw [← hs]
      exact ⟨(hlaw.replayed _ _).mp ⟨_,hheld.2⟩,hlaw.sanctioned⟩

lemma knows_of_get? (hlaw : BindingsLaw s) {id m : Uuid} {b : MembersOauth2Binding} {g : GoogleId}
    (hrow : s.bindings.get? id=some b) (hm : b.memberId=m) (hg : b.remoteId=g) :
    Knows s ⟨id,m,g⟩ := by
  have hids := ids_of_get? hrow
  rw [hm,hg] at hids
  refine ⟨hlaw.fresh id _ hids,?_⟩
  intro p hp
  exact (Option.some.inj (hids.symm.trans hp)).symm

lemma begin_holds (hlaw : BindingsLaw s) (request : Request) :
    PlaceHolds c s (begin settings google s request) := by
  cases request with
  | authenticateGoogleUser credential =>
    change PlaceHolds c s (authenticateGoogleUser google s credential)
    unfold authenticateGoogleUser
    cases verifyGoogleCredential google s credential with
    | none => trivial
    | some verified =>
      dsimp only
      cases hfind : s.bindings.find? fun _ b => b.remoteId=verified.1 with
      | none => trivial
      | some row =>
        obtain ⟨hrow,hremote⟩ := Dict.get?_of_find? hfind
        exact knows_of_get? hlaw hrow rfl (of_decide_eq_true hremote)
  | linkGoogleAccount credential email password =>
    change PlaceHolds c s (linkGoogleAccount settings google s credential email password)
    unfold linkGoogleAccount
    split
    · cases verifyGoogleCredential google s credential <;> trivial
    · trivial
  | unlinkGoogleAccount memberId =>
    intro id hid
    obtain ⟨b,hrow,hmember⟩ := (Dict.mem_keysWhere _ _ _).mp hid
    have hids := ids_of_get? hrow
    refine ⟨hlaw.fresh id _ hids,?_⟩
    intro p hp
    rw [← Option.some.inj (hids.symm.trans hp)]
    exact of_decide_eq_true hmember

lemma linkSelect_holds (hlaw : BindingsLaw s) (m : Uuid) (email : Option Email) (g : GoogleId)
    (name : String) : PlaceHolds c s (linkSelect s m email g name) := by
  unfold linkSelect
  cases hfind : s.bindings.find? fun _ b => Conflicts m g b with
  | none => trivial
  | some row =>
    dsimp only
    split_ifs with hsame
    · exact knows_of_get? hlaw (Dict.get?_of_find? hfind).1 hsame.1 hsame.2
    · trivial

/-- No row conflicts when the search finds none. -/
lemma ids_ne_of_find? {m : Uuid} {g : GoogleId}
    (hfind : (s.bindings.find? fun _ b => Conflicts m g b)=none) (id : Uuid) (p : Uuid × GoogleId)
    (hp : s.ids id=some p) : p.1 ≠ m ∧ p.2 ≠ g := by
  obtain ⟨b,hrow,rfl⟩ := exists_of_ids hp
  have hnot := List.find?_eq_none.mp hfind (id,b) ((Dict.get?_eq_some_iff _ _ _).mp hrow)
  simp only [Conflicts,Bool.or_eq_true,decide_eq_true_eq,not_or] at hnot
  exact ⟨hnot.2,hnot.1⟩

lemma linkInsert_good (hlaw : BindingsLaw s) {m : Uuid} {email : Option Email} {g : GoogleId}
    {name : String} (h : linkInsert c s m email g name=some (s',place')) : Good c s s' place' := by
  unfold linkInsert at h
  cases hfind : s.bindings.find? fun _ b => Conflicts m g b with
  | some row =>
    rw [hfind] at h
    cases h
    exact .unlock hlaw
  | none =>
    rw [hfind] at h
    obtain ⟨hfree,h⟩ := await_eq_some h
    cases h
    refine .of_same hlaw rfl rfl (.acquire hfree) le_rfl ⟨?_,?_,ids_ne_of_find? hfind⟩
    · simp [GoogleState.lock,Locks.acquire]
    · simp [GoogleState.lock,Locks.acquire]

lemma linkCommit_good (hlaw : BindingsLaw s) {m : Uuid} {email : Option Email} {g : GoogleId}
    {name : String} {startedAt : Timestamp}
    (hplace : PlaceHolds c s (.linkCommit m email g name startedAt))
    (h : linkCommit c s m email g name startedAt=(s',place')) : Good c s s' place' := by
  obtain ⟨hremote,howner,hnone⟩ := hplace
  unfold linkCommit at h
  split_ifs at h
  · cases h
    exact .unlock hlaw
  · obtain ⟨hs,rfl⟩ := Prod.mk.inj h
    have hids : ∀ id, s'.ids id=if id=s.nextId then some (m,g) else s.ids id := by
      intro id
      rw [← hs,GoogleState.ids,Dict.get?_set]
      split_ifs <;> rfl
    have hold : ∀ id p, s.ids id=some p → s'.ids id=some p := by
      intro id p hp
      rw [hids,if_neg (hlaw.fresh id p hp).ne]
      exact hp
    refine ⟨⟨hs ▸ .release c s.locks,hs ▸ Nat.le_add_right _ _,fun _ id p _ _ => hold id p,?_⟩,
      ⟨?_,?_,?_,?_⟩,trivial⟩
    · intro id p hp
      rw [hids] at hp
      split_ifs at hp with hid
      · cases hp
        exact .inr ⟨hid.ge,hremote,howner⟩
      · exact .inl hp
    · intro id p hp
      have hnext : s'.nextId=s.nextId+2 := by rw [← hs]
      rw [hids] at hp
      rw [hnext]
      split_ifs at hp with hid
      · exact hid ▸ Nat.lt_add_of_pos_right two_pos
      · exact Nat.lt_add_right 2 (hlaw.fresh id p hp)
    · intro id p id' p' hp hp' heq
      rw [hids] at hp hp'
      split_ifs at hp hp' with hid hid' hid'
      · exact hid.trans hid'.symm
      · cases hp
        obtain ⟨hm,hg⟩ := hnone id' p' hp'
        exact (heq.elim (fun h => hm h.symm) fun h => hg h.symm).elim
      · cases hp'
        obtain ⟨hm,hg⟩ := hnone id p hp
        exact (heq.elim hm hg).elim
      · exact hlaw.unique id p id' p' hp hp' heq
    · intro m' g'
      rw [← hs]
      change _ ↔ m=m' ∧ g=g' ∨ LinkedNow s.events m' g'
      rw [← hlaw.replayed,hs]
      constructor
      · intro hbound
        obtain ⟨id,hid⟩ := hbound
        rw [hids] at hid
        split_ifs at hid
        · cases hid
          exact .inl ⟨rfl,rfl⟩
        · exact .inr ⟨id,hid⟩
      · rintro (⟨rfl,rfl⟩ | ⟨id,hid⟩)
        · exact ⟨s.nextId,by rw [hids,if_pos rfl]⟩
        · exact ⟨id,hold id _ hid⟩
    · rw [← hs]
      exact ⟨.inl ⟨rfl,rfl⟩,hlaw.sanctioned⟩

lemma unlinkDelete_good (hlaw : BindingsLaw s) {m : Uuid} {seen : List Uuid}
    (hplace : PlaceHolds c s (.unlinkDelete m seen))
    (h : unlinkDelete c s m seen=some (s',place')) : Good c s s' place' := by
  let present := seen.filter fun id => (s.bindings.get? id).isSome
  obtain ⟨hfree,h⟩ := await_eq_some h
  obtain ⟨hs,rfl⟩ := Prod.mk.inj h
  have hids : ∀ id p, s'.ids id=some p ↔ id ∉ present ∧ s.ids id=some p := by
    intro id p
    rw [← hs]
    simp only [GoogleState.ids,Option.map_eq_some_iff,Dict.get?_eraseAll_eq_some_iff]
    constructor
    · rintro ⟨b,⟨hid,hrow⟩,hb⟩
      exact ⟨hid,b,hrow,hb⟩
    · rintro ⟨hid,b,hrow,hb⟩
      exact ⟨b,⟨hid,hrow⟩,hb⟩
  have hmember : ∀ id ∈ present, ∃ g, s.ids id=some (m,g) := by
    intro id hid
    obtain ⟨hseen,hsome⟩ := List.mem_filter.mp hid
    obtain ⟨b,hrow⟩ := Option.isSome_iff_exists.mp hsome
    have hb := ids_of_get? hrow
    have hm := (hplace id hseen).2 _ hb
    exact ⟨b.remoteId,by rw [hb,← hm]⟩
  have hnext : s'.nextId=s.nextId := by rw [← hs]
  have hlocks : s'.locks=s.locks := by rw [← hs]
  refine ⟨⟨hlocks ▸ .refl c s.locks,hnext.ge,?_,?_⟩,⟨?_,?_,?_,?_⟩,trivial⟩
  · intro c' id p hc hlock hp
    refine (hids id p).mpr ⟨?_,hp⟩
    intro hid
    exact (hfree _ (List.mem_map_of_mem hid)).ne_of_held hc hlock
  · intro id p hp
    exact .inl ((hids id p).mp hp).2
  · intro id p hp
    rw [hnext]
    exact hlaw.fresh id p ((hids id p).mp hp).2
  · intro id p id' p' hp hp'
    exact hlaw.unique id p id' p' ((hids id p).mp hp).2 ((hids id' p').mp hp').2
  · intro m' g'
    have hevents : s'.events=if present=[] then s.events else .unlinked m::s.events := by rw [← hs]
    by_cases hpresent : present=[]
    · rw [hevents,if_pos hpresent,← hlaw.replayed]
      simp [hids,hpresent]
    · rw [hevents,if_neg hpresent]
      change _ ↔ m ≠ m' ∧ LinkedNow s.events m' g'
      rw [← hlaw.replayed]
      obtain ⟨id₀,hid₀⟩ := List.exists_mem_of_ne_nil _ hpresent
      obtain ⟨g₀,hg₀⟩ := hmember id₀ hid₀
      constructor
      · rintro ⟨id,hid⟩
        obtain ⟨hkept,hid⟩ := (hids id _).mp hid
        refine ⟨?_,id,hid⟩
        rintro rfl
        exact hkept (hlaw.unique id₀ _ id _ hg₀ hid (.inl rfl) ▸ hid₀)
      · rintro ⟨hne,id,hid⟩
        refine ⟨id,(hids id _).mpr ⟨?_,hid⟩⟩
        intro hpres
        obtain ⟨g,hg⟩ := hmember id hpres
        rw [hg] at hid
        exact hne (Prod.mk.inj (Option.some.inj hid)).1
  · have hevents : s'.events=if present=[] then s.events else .unlinked m::s.events := by rw [← hs]
    rw [hevents]
    split_ifs
    · exact hlaw.sanctioned
    · exact hlaw.sanctioned

lemma step_good (hlaw : BindingsLaw s) {place : Place} (hplace : PlaceHolds c s place)
    {input : Input} (h : googleProgram settings google c s place input=some (s',place')) :
    Good c s s' place' := by
  cases input with
  | call request =>
    cases place with
    | idle =>
      cases h
      exact .stay hlaw (begin_holds hlaw request)
    | _ => cases h
  | next =>
    cases place with
    | idle => cases h
    | loginFlush login =>
      exact flushBinding_good hlaw hplace (.loginMember login s.clock) (fun _ hheld => hheld) h
    | loginMember login lastuseAt => exact loginMember_good hlaw hplace (Option.some.inj h)
    | linkFlush login email =>
      exact flushBinding_good hlaw hplace (.openSession login email s.clock) (fun _ hheld => hheld)
        h
    | openSession login email lastuseAt => exact openSession_good hlaw hplace (Option.some.inj h)
    | linkSelect m email g name =>
      cases h
      exact .stay hlaw (linkSelect_holds hlaw m email g name)
    | linkInsert m email g name => exact linkInsert_good hlaw h
    | linkCommit m email g name startedAt => exact linkCommit_good hlaw hplace (Option.some.inj h)
    | unlinkDelete m seen => exact unlinkDelete_good hlaw hplace h
  | fail =>
    cases h
    exact .unlock hlaw
  | saveMember memberId m =>
    cases h
    refine .of_same hlaw rfl rfl (.refl c s.locks) le_rfl ?_
    cases place' <;> exact hplace
  | tick duration =>
    cases h
    refine .of_same hlaw rfl rfl (.refl c s.locks) le_rfl ?_
    cases place' <;> exact hplace

end Steps

/-! ### Runs -/

/-- Nothing is linked yet, and nobody is in a call. -/
structure Start (w : World GoogleState Place) : Prop where
  bindings : w.shared.bindings=Dict.empty
  events : w.shared.events=[]
  idle : ∀ c, w.clients c=.idle

lemma Start.holds {w : World GoogleState Place} (h : Start w) :
    Program.Holds BindingsLaw PlaceHolds w := by
  have hids : ∀ id p, w.shared.ids id ≠ some p := by
    intro id p
    rw [GoogleState.ids,h.bindings]
    simp
  refine ⟨⟨?_,?_,?_,?_⟩,?_⟩
  · exact fun id p hp => absurd hp (hids id p)
  · exact fun id p _ _ hp => absurd hp (hids id p)
  · intro m g
    rw [h.events]
    refine ⟨?_,False.elim⟩
    rintro ⟨id,hid⟩
    exact absurd hid (hids id _)
  · rw [h.events]
    trivial
  · intro c
    rw [h.idle]
    trivial

lemma Sanctioned.opened {newer older : List Event} {jti : SessionId} {m : Uuid} {g : GoogleId}
    (h : Sanctioned (newer ++ .opened jti m g::older)) : LinkedNow older m g := by
  induction newer with
  | nil => exact h.1
  | cons e newer ih =>
    cases e with
    | opened jti' m' g' => exact ih h.2
    | linked m' g' => exact ih h
    | unlinked m' => exact ih h

/-- In every interleaving of logins, links and unlinks a Google account belongs to one member and a
member has one Google account at most; the rows are those linked and not unlinked since, and a session
is only opened while the row of its member and Google account is there. -/
theorem google_bindings_sound (settings : Settings) (google : GoogleSettings)
    {w₀ w : World GoogleState Place} (hstart : Start w₀)
    (hrun : (googleProgram settings google).interleave.Reaches Machine.Any w₀ w) :
    (∀ id b id' b', w.shared.bindings.get? id=some b → w.shared.bindings.get? id'=some b' →
      b.memberId=b'.memberId ∨ b.remoteId=b'.remoteId → id=id') ∧
    (∀ m g, (∃ id b, w.shared.bindings.get? id=some b ∧ b.memberId=m ∧ b.remoteId=g) ↔
      LinkedNow w.shared.events m g) ∧
    ∀ newer jti m g older, w.shared.events=newer ++ .opened jti m g::older →
      LinkedNow older m g := by
  have hholds : Program.Holds BindingsLaw PlaceHolds w := by
    refine Program.Holds.of_reaches hrun hstart.holds ?_ ?_
    · intro w c input s' place' hw _ hstep
      have hgood := step_good hw.shared (hw.clients c) hstep
      exact ⟨hgood.law,hgood.place⟩
    · intro w c input s' place' c' hw _ hstep hc
      exact (hw.clients c').evolve (step_good hw.shared (hw.clients c) hstep).evolves hc
  obtain ⟨hlaw,-⟩ := hholds
  refine ⟨?_,?_,?_⟩
  · intro id b id' b' hb hb' heq
    exact hlaw.unique id _ id' _ (ids_of_get? hb) (ids_of_get? hb') heq
  · intro m g
    rw [← hlaw.replayed]
    constructor
    · rintro ⟨id,b,hb,rfl,rfl⟩
      exact ⟨id,ids_of_get? hb⟩
    · rintro ⟨id,hid⟩
      obtain ⟨b,hb,heq⟩ := exists_of_ids hid
      obtain ⟨rfl,rfl⟩ := Prod.mk.inj heq
      exact ⟨id,b,hb,rfl,rfl⟩
  · intro newer jti m g older heq
    have hsanctioned := hlaw.sanctioned
    rw [heq] at hsanctioned
    exact hsanctioned.opened

/-- One member, with a password; every token is for the Google account of its text. -/
def linkWorld : World GoogleState Place where
  shared :=
    { accounts := ⟨Dict.ofPairs [(1,⟨some "a@b.at",none,some ⟨[7],0⟩,false⟩)],Dict.empty,[],[]⟩
      bindings := Dict.empty
      events := []
      locks := fun _ => none
      clock := 0
      nextId := 10 }
  clients _ := .idle

def linkSettings : Settings := ⟨id,30,30⟩

def linkGoogle : GoogleSettings := ⟨some "app",fun _ credential _ => some ⟨some credential,none⟩⟩

/-- A link up to its commit. -/
def linkSteps : List (ClientId × Input) :=
  [(0,.call (.linkGoogleAccount "g" "a@b.at" [7])),(0,.next),(0,.next),(0,.next)]

theorem google_bindings_sound_linked :
    ∃ w, (googleProgram linkSettings linkGoogle).interleave.run linkWorld linkSteps=some w ∧
      w.shared.events=[.opened 11 1 "g",.linked 1 "g"] ∧
      ∃ id b, w.shared.bindings.get? id=some b ∧ b.memberId=1 ∧ b.remoteId="g" := by
  refine ⟨_,rfl,rfl,?_⟩
  have hstart : Start linkWorld := ⟨rfl,rfl,fun _ => rfl⟩
  refine ((google_bindings_sound linkSettings linkGoogle hstart
    (Machine.reaches_of_run (Machine.meets_any linkWorld linkSteps) ?_)).2.1 1 "g").mpr ?_
  · rfl
  · exact .inl ⟨rfl,rfl⟩

end VbApi.Auth.Google
