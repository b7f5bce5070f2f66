import VbApi.Auth.VerifiedAddress

/-! The idle timeout. The stamp of a session is written when it is stale by a minute, and read by the
checks of access tokens and of refreshes. Requests come one after the other here; time passes between
them and within them. -/
namespace VbApi.Auth
open VbApi.Foundations Machine

/-- One request at a time. -/
def serial (settings : Settings) : Machine (AuthState × Place) Input where
  step x input := authProgram settings 0 x.1 x.2 input

/-- The session that a step uses, and when: it is opened, an access check gets past
`_touch_session`, or a refresh succeeds. -/
def useOf (settings : Settings) (x : AuthState × Place) : Input → Option (SessionId × Timestamp)
  | .call (.authenticateAccessToken token) =>
    match x.2 with
    | .idle =>
      if token.exp ≤ x.1.clock then none
      else (x.1.sessions.rows.get? token.jti).bind fun row =>
        if isIdle settings row x.1.clock || x.1.clock-row.lastUsedAt > sessionTouchInterval then none
        else some (token.jti,x.1.clock)
    | _ => none
  | .next =>
    match x.2 with
    | .createUserSession _ email _ _ =>
      if isEmptyEmail email then none else some (x.1.nextId,x.1.clock)
    | .accessTouch _ token _ now => (x.1.sessions.rows.get? token.jti).map fun _ => (token.jti,now)
    | .refreshRotate jti _ now => (x.1.sessions.rows.get? jti).map fun _ => (jti,now)
    | _ => none
  | _ => none

/-- When each session was last used. -/
abbrev LastUses := SessionId → Option Timestamp

def noteUse (settings : Settings) (x : AuthState × Place) (input : Input) (uses : LastUses) :
    LastUses :=
  match useOf settings x input with
  | some (jti,now) => Function.update uses jti (some now)
  | none => uses

/-- A session that is there at the start was used when its stamp says so. -/
def stamps (s : AuthState) : LastUses := fun jti => (s.sessions.rows.get? jti).map (·.lastUsedAt)

structure StartOfUses (s : AuthState) : Prop where
  unlocked : ∀ key, s.locks key=none
  past : ∀ jti row, s.sessions.rows.get? jti=some row → row.lastUsedAt ≤ s.clock

/-- What holds of the sessions between the steps of any requests. -/
structure SessionTimes (settings : Settings) (s : AuthState) (place : Place) (uses : LastUses) :
    Prop where
  /-- The stamp is not later than the last use and at most a minute behind it. -/
  stamp : ∀ jti row, s.sessions.rows.get? jti=some row → ∃ last, uses jti=some last ∧
    row.lastUsedAt ≤ last ∧ last ≤ row.lastUsedAt+minutes 1
  /-- Within the limit less a minute, an access check gets past the check for idleness. -/
  accessPasses : ∀ token row last, place=.idle → s.clock < token.exp →
    s.sessions.rows.get? token.jti=some row → uses token.jti=some last →
    s.clock+minutes 1 ≤ last+minutes settings.sessionIdleTimeoutMinutes →
    ∃ s' place', (serial settings).step (s,place) (.call (.authenticateAccessToken token))=
        some (s',place') ∧
      (place'=.accessTouch s.nextId token row.memberId s.clock ∨
        place'=.accessMember s.nextId token row.memberId false)
  /-- Then a refresh is decided by the other checks alone. -/
  refreshPasses : ∀ jti secret row last, place=.refreshCheck jti secret →
    s.sessions.rows.get? jti=some row → uses jti=some last →
    s.clock+minutes 1 ≤ last+minutes settings.sessionIdleTimeoutMinutes →
    acceptsRefresh settings s row secret=(validateRefreshToken row secret &&
      (s.clock-row.createdAt ≤ days settings.refreshTokenLifetimeDays) &&
      mayRefresh (s.accounts.members.get? row.memberId))
  /-- Past the limit, an access check ends the session instead of letting the request through. -/
  accessEnds : ∀ token row last, place=.idle → s.clock < token.exp →
    s.sessions.rows.get? token.jti=some row → uses token.jti=some last →
    last+minutes settings.sessionIdleTimeoutMinutes < s.clock →
    ∃ s', (serial settings).step (s,place) (.call (.authenticateAccessToken token))=
      some (s',.accessIdle token.jti)
  accessEnded : ∀ jti, place=.accessIdle jti → ∃ s',
    (serial settings).step (s,place) .next=some (s',.idle) ∧ s'.sessions.rows.get? jti=none ∧
      s'.sessions.allowed=s.sessions.allowed
  /-- Past one of the limits, a refresh ends the session and no secret is accepted. -/
  refreshEnds : ∀ jti secret row last, place=.refreshCheck jti secret →
    s.sessions.rows.get? jti=some row → uses jti=some last →
    last+minutes settings.sessionIdleTimeoutMinutes < s.clock ∨
      row.createdAt+days settings.refreshTokenLifetimeDays < s.clock →
    ∃ s', (serial settings).step (s,place) .next=some (s',.idle) ∧
      s'.sessions.rows.get? jti=none ∧ s'.sessions.accepted=s.sessions.accepted
  /-- A refresh that goes through was checked within the lifetime of the session. -/
  lifetime : ∀ jti secret now, place=.refreshRotate jti secret now → ∃ row,
    s.sessions.rows.get? jti=some row ∧ now ≤ row.createdAt+days settings.refreshTokenLifetimeDays

/-! ### The steps -/

/-- Everything that is locked is locked by this client. -/
def OwnLocks (c : ClientId) (l : Locks RowKey) : Prop := ∀ key c', l key=some c' → c'=c

section Steps
variable {settings : Settings} {c : ClientId} {s s' : AuthState} {place place' : Place}
  {input : Input}

lemma OwnLocks.free {l : Locks RowKey} (h : OwnLocks c l) (key : RowKey) : l.FreeFor c key :=
  fun c' hc' => h key c' hc'

lemma OwnLocks.acquire {l : Locks RowKey} (h : OwnLocks c l) (keys : List RowKey) :
    OwnLocks c (l.acquire c keys) := by
  intro key c' hc'
  unfold Locks.acquire at hc'
  split_ifs at hc' with hmem
  · exact (Option.some.inj hc').symm
  · exact h key c' hc'

lemma OwnLocks.release {l : Locks RowKey} (h : OwnLocks c l) : OwnLocks c (l.release c) := by
  intro key c' hc'
  unfold Locks.release at hc'
  split_ifs at hc'
  exact h key c' hc'

lemma OwnLocks.await (h : OwnLocks c s.locks) (keys : List RowKey) (r : AuthState × Place) :
    s.await c keys r=some r := by
  rw [AuthState.await,if_pos fun key _ => h.free key]

lemma begin_ownLocks (h : OwnLocks c s.locks) {request : Request}
    (hstep : begin settings c s request=some (s',place')) :
    OwnLocks c s'.locks ∧ s'.clock=s.clock := by
  cases request with
  | executePasswordReset email token newPassword =>
    simp only [begin,executePasswordReset] at hstep
    split_ifs at hstep
    cases hstep
    exact ⟨h,rfl⟩
  | refreshSession jti secret =>
    simp only [begin,refreshSession,h.await] at hstep
    split at hstep
    · cases hstep
      exact ⟨h,rfl⟩
    · cases hstep
      exact ⟨h.acquire _,rfl⟩
  | authenticateAccessToken token =>
    simp only [begin,authenticateAccessToken] at hstep
    split_ifs at hstep
    · cases hstep
      exact ⟨h,rfl⟩
    · split at hstep <;> cases hstep <;> exact ⟨h,rfl⟩
  | authenticateUser email password => cases hstep; exact ⟨h,rfl⟩
  | processForgotPassword email => cases hstep; exact ⟨h,rfl⟩
  | logoutUser token => cases hstep; exact ⟨h,rfl⟩
  | applyMemberInput memberId input => cases hstep; exact ⟨h,rfl⟩

lemma resume_ownLocks (h : OwnLocks c s.locks) (hstep : resume settings c s place=some (s',place')) :
    OwnLocks c s'.locks ∧ s'.clock=s.clock := by
  cases place with
  | idle => contradiction
  | createUserSession memberId email verified startedAt =>
    simp only [resume,createUserSession,h.await] at hstep
    split_ifs at hstep <;> cases hstep <;> exact ⟨h,rfl⟩
  | forgotDelete memberId startedAt =>
    simp only [resume,forgotDelete,h.await] at hstep
    cases hstep
    exact ⟨h.acquire _,rfl⟩
  | forgotInsert memberId startedAt deleted =>
    simp only [resume,forgotInsert,h.await] at hstep
    split_ifs at hstep <;> cases hstep <;> exact ⟨h.release,rfl⟩
  | forgotMail memberId token =>
    simp only [resume,forgotMail] at hstep
    split at hstep
    · cases hstep
      exact ⟨h,rfl⟩
    · split_ifs at hstep <;> cases hstep <;> exact ⟨h,rfl⟩
  | resetSelect memberId token newPassword => cases hstep; exact ⟨h,rfl⟩
  | resetExpired entry =>
    simp only [resume,resetExpired,h.await] at hstep
    cases hstep
    exact ⟨h,rfl⟩
  | resetSessions memberId entry token newPassword => cases hstep; exact ⟨h,rfl⟩
  | resetDelete memberId entry token newPassword pending deleted =>
    cases pending with
    | nil =>
      simp only [resume,resetDelete,h.await] at hstep
      split at hstep <;> cases hstep <;> exact ⟨h.release,rfl⟩
    | cons jti pending =>
      simp only [resume,resetDelete,h.await] at hstep
      split at hstep
      · cases hstep
        exact ⟨h,rfl⟩
      · cases hstep
        exact ⟨h.acquire _,rfl⟩
  | refreshCheck jti secret =>
    simp only [resume,refreshCheck] at hstep
    split at hstep
    · cases hstep
      exact ⟨h.release,rfl⟩
    · split_ifs at hstep
      · cases hstep
        exact ⟨h,rfl⟩
      · cases hstep
        exact ⟨h.release,rfl⟩
  | refreshRotate jti secret now =>
    simp only [resume,refreshRotate,h.await] at hstep
    split at hstep <;> cases hstep <;> exact ⟨h.release,rfl⟩
  | logoutDelete jti memberId =>
    simp only [resume,logoutDelete,h.await] at hstep
    cases hstep
    exact ⟨h,rfl⟩
  | accessIdle jti =>
    simp only [resume,accessIdle,h.await] at hstep
    cases hstep
    exact ⟨h,rfl⟩
  | accessTouch check token memberId now =>
    simp only [resume,accessTouch,h.await] at hstep
    split at hstep <;> cases hstep <;> exact ⟨h,rfl⟩
  | accessMember check token memberId touched =>
    simp only [resume,accessMember,accessAllowed] at hstep
    split at hstep
    · cases hstep
      exact ⟨h,rfl⟩
    · split_ifs at hstep <;> cases hstep <;> exact ⟨h,rfl⟩
  | accessReload check jti memberId locked =>
    simp only [resume,accessReload,accessAllowed] at hstep
    split at hstep
    · cases hstep
      exact ⟨h,rfl⟩
    · split_ifs at hstep <;> cases hstep <;> exact ⟨h,rfl⟩
  | saveFlush memberId loaded input =>
    simp only [resume,saveFlush,h.await] at hstep
    split at hstep
    · cases hstep
      exact ⟨h,rfl⟩
    · cases hstep
      exact ⟨h.acquire _,rfl⟩
  | saveCommit memberId update deletedTokens =>
    simp only [resume,saveCommit] at hstep
    split at hstep
    · cases hstep
      exact ⟨h.release,rfl⟩
    · split_ifs at hstep <;> cases hstep <;> exact ⟨h.release,rfl⟩

/-- A client that works alone never waits, and time goes on. -/
lemma authProgram_ownLocks (h : OwnLocks c s.locks)
    (hstep : authProgram settings c s place input=some (s',place')) :
    OwnLocks c s'.locks ∧ s.clock ≤ s'.clock := by
  cases input with
  | call request =>
    cases place with
    | idle => exact (begin_ownLocks h hstep).imp_right fun heq => heq.ge
    | _ => contradiction
  | next => exact (resume_ownLocks h hstep).imp_right fun heq => heq.ge
  | fail =>
    cases hstep
    exact ⟨h.release,le_rfl⟩
  | tick duration =>
    cases hstep
    exact ⟨h,Nat.le_add_right _ _⟩

/-- Elsewhere no stamp is written. -/
lemma SessionsEffect.rows_sub {ss' : Sessions} {locks' : Locks RowKey} {nextId' : ℕ}
    (h : SessionsEffect settings c s input place ss' locks' nextId' place')
    (hopen : ∀ memberId email verified startedAt,
      place ≠ .createUserSession memberId email verified startedAt)
    (hrotate : ∀ jti secret now, place ≠ .refreshRotate jti secret now)
    (htouch : ∀ check token memberId now, place ≠ .accessTouch check token memberId now)
    (jti : SessionId) (row : AuthSession) (hrow : ss'.rows.get? jti=some row) :
    s.sessions.rows.get? jti=some row := by
  cases h with
  | openSession => exact absurd rfl (hopen _ _ _ _)
  | rotate => exact absurd rfl (hrotate _ _ _)
  | touch => exact absurd rfl (htouch _ _ _ _)
  | redeem => exact ((Dict.get?_eraseAll_eq_some_iff _ _ _ _).mp hrow).2
  | endRefused => exact ((Dict.get?_eraseAll_eq_some_iff _ _ _ _).mp hrow).2
  | endSession => exact ((Dict.get?_eraseAll_eq_some_iff _ _ _ _).mp hrow).2
  | _ => exact hrow

/-- What a step does to the stamps, and what is noted of it. -/
inductive Stamping (settings : Settings) (s s' : AuthState) (place : Place) (input : Input) : Prop
  | none (huse : useOf settings (s,place) input=none)
    (hrows : ∀ jti row, s'.sessions.rows.get? jti=some row → s.sessions.rows.get? jti=some row)
  /-- An access check within a minute of the stamp leaves it. -/
  | fresh {jti : SessionId} {row : AuthSession}
    (huse : useOf settings (s,place) input=some (jti,s.clock))
    (hrow : s.sessions.rows.get? jti=some row) (hfresh : s.clock ≤ row.lastUsedAt+minutes 1)
    (hrows : s'.sessions.rows=s.sessions.rows)
  | stamped {jti : SessionId} (row : AuthSession)
    (huse : useOf settings (s,place) input=some (jti,row.lastUsedAt))
    (hclock : row.lastUsedAt=s.clock ∨ (∃ check token memberId,
      place=.accessTouch check token memberId row.lastUsedAt) ∨
      ∃ secret, place=.refreshRotate jti secret row.lastUsedAt)
    (hrows : s'.sessions.rows=s.sessions.rows.set jti row)

variable (settings) in
lemma useOf_accessToken {token : AccessToken} {row : AuthSession} (hexp : ¬ token.exp ≤ s.clock)
    (hrow : s.sessions.rows.get? token.jti=some row) :
    useOf settings (s,.idle) (.call (.authenticateAccessToken token))=
      if isIdle settings row s.clock || s.clock-row.lastUsedAt > sessionTouchInterval then none
      else some (token.jti,s.clock) := by
  have huse : useOf settings (s,.idle) (.call (.authenticateAccessToken token))=
    if token.exp ≤ s.clock then none
      else (s.sessions.rows.get? token.jti).bind fun row =>
        if isIdle settings row s.clock || s.clock-row.lastUsedAt > sessionTouchInterval then none
        else some (token.jti,s.clock) := rfl
  rw [huse,if_neg hexp,hrow,Option.bind_some]

lemma authProgram_stamping (hstep : authProgram settings c s place input=some (s',place')) :
    Stamping settings s s' place input := by
  have heffect := authProgram_sessions hstep
  cases input with
  | tick duration =>
    cases hstep
    exact .none rfl fun _ _ hrow => hrow
  | fail =>
    cases hstep
    exact .none rfl fun _ _ hrow => hrow
  | call request =>
    cases place with
    | idle =>
      have hsub := heffect.rows_sub (by simp) (by simp) (by simp)
      cases request with
      | authenticateAccessToken token =>
        simp only [authProgram,begin,authenticateAccessToken] at hstep
        split_ifs at hstep with hexp
        · exact .none (by simp [useOf,hexp]) hsub
        · cases hrow : s.sessions.rows.get? token.jti with
          | none => exact .none (by simp [useOf,hexp,hrow]) hsub
          | some row =>
            simp only [hrow] at hstep
            cases hstep
            have huse := useOf_accessToken settings hexp hrow
            by_cases hidle : isIdle settings row s.clock=true
            · exact .none (huse.trans (if_pos (by simp [hidle]))) hsub
            · by_cases hstale : s.clock-row.lastUsedAt > sessionTouchInterval
              · exact .none (huse.trans (if_pos (by simp [hstale]))) hsub
              · refine .fresh (huse.trans (if_neg (by simp [hidle,hstale]))) hrow ?_ rfl
                exact Nat.sub_le_iff_le_add'.mp (not_lt.mp hstale)
      | _ => exact .none rfl hsub
    | _ => contradiction
  | next =>
    cases place with
    | createUserSession memberId email verified startedAt =>
      simp only [authProgram,resume,createUserSession] at hstep
      split_ifs at hstep with hempty
      · cases hstep
        exact .none (by simp [useOf,hempty]) fun _ _ hrow => hrow
      · obtain ⟨-,heq⟩ := AuthState.await_eq_some.mp hstep
        cases heq
        exact .stamped ⟨memberId,some (hashRefreshSecret (s.nextId+1)),s.clock,startedAt⟩
          (by simp [useOf,hempty]) (Or.inl rfl) rfl
    | accessTouch check token memberId now =>
      simp only [authProgram,resume,accessTouch] at hstep
      cases hrow : s.sessions.rows.get? token.jti with
      | none =>
        simp only [hrow] at hstep
        cases hstep
        exact .none (by simp [useOf,hrow]) fun _ _ hrow => hrow
      | some row =>
        simp only [hrow] at hstep
        obtain ⟨-,heq⟩ := AuthState.await_eq_some.mp hstep
        cases heq
        exact .stamped { row with lastUsedAt := now } (by simp [useOf,hrow])
          (Or.inr (Or.inl ⟨_,_,_,rfl⟩)) rfl
    | refreshRotate jti secret now =>
      simp only [authProgram,resume,refreshRotate] at hstep
      cases hrow : s.sessions.rows.get? jti with
      | none =>
        simp only [hrow] at hstep
        cases hstep
        exact .none (by simp [useOf,hrow]) fun _ _ hrow => hrow
      | some row =>
        simp only [hrow] at hstep
        obtain ⟨-,heq⟩ := AuthState.await_eq_some.mp hstep
        cases heq
        exact .stamped
          { row with refreshTokenHash := some (hashRefreshSecret s.nextId), lastUsedAt := now }
          (by simp [useOf,hrow]) (Or.inr (Or.inr ⟨_,rfl⟩)) rfl
    | _ => exact .none rfl (heffect.rows_sub (by simp) (by simp) (by simp))

/-! ### Runs -/

/-- A request that is about to write a stamp has read the clock before. -/
def UsePlace (settings : Settings) (ss : Sessions) (clock : Timestamp) : Place → Prop
  | .accessTouch _ _ _ now => now ≤ clock
  | .refreshRotate jti _ now => now ≤ clock ∧ ∃ row, ss.rows.get? jti=some row ∧
      now ≤ row.createdAt+days settings.refreshTokenLifetimeDays
  | _ => True

lemma SessionsEffect.usePlace {ss' : Sessions} {locks' : Locks RowKey} {nextId' : ℕ}
    {clock' : Timestamp} (h : SessionsEffect settings c s input place ss' locks' nextId' place')
    (hclock : s.clock ≤ clock') (hp : UsePlace settings s.sessions s.clock place) :
    UsePlace settings ss' clock' place' := by
  cases h with
  | quiet _ _ hplace =>
    cases place' with
    | accessTouch => exact absurd trivial hplace
    | refreshRotate => exact absurd trivial hplace
    | _ => trivial
  | stay =>
    cases place with
    | accessTouch => exact le_trans hp hclock
    | refreshRotate => exact ⟨hp.1.trans hclock,hp.2⟩
    | _ => trivial
  | accept hrow haccepts =>
    simp only [acceptsRefresh,validateSessionExpiry,Bool.and_eq_true,decide_eq_true_eq] at haccepts
    exact ⟨hclock,_,hrow,Nat.sub_le_iff_le_add'.mp haccepts.1.2.2⟩
  | find _ hplace =>
    rcases hplace with rfl | rfl | rfl
    · trivial
    · exact hclock
    · trivial
  | _ => trivial

structure UseInvariant (settings : Settings) (s : AuthState) (place : Place) (uses : LastUses) :
    Prop where
  locks : OwnLocks 0 s.locks
  past : ∀ jti row, s.sessions.rows.get? jti=some row → row.lastUsedAt ≤ s.clock
  stamp : ∀ jti row, s.sessions.rows.get? jti=some row → ∃ last, uses jti=some last ∧
    row.lastUsedAt ≤ last ∧ last ≤ row.lastUsedAt+minutes 1
  pending : UsePlace settings s.sessions s.clock place

lemma StartOfUses.invariant (h : StartOfUses s) : UseInvariant settings s .idle (stamps s) where
  locks key c' hc' := by
    rw [h.unlocked key] at hc'
    contradiction
  past := h.past
  stamp jti row hrow := ⟨row.lastUsedAt,by rw [stamps,hrow]; rfl,le_rfl,Nat.le_add_right _ _⟩
  pending := trivial

lemma UseInvariant.step {uses : LastUses} (h : UseInvariant settings s place uses)
    (hstep : authProgram settings 0 s place input=some (s',place')) :
    UseInvariant settings s' place' (noteUse settings (s,place) input uses) := by
  obtain ⟨hlocks,hclock⟩ := authProgram_ownLocks h.locks hstep
  have hpending := (authProgram_sessions hstep).usePlace hclock h.pending
  cases authProgram_stamping hstep with
  | none huse hrows =>
    refine ⟨hlocks,fun jti row hrow => (h.past jti row (hrows jti row hrow)).trans hclock,?_,hpending⟩
    intro jti row hrow
    rw [noteUse,huse]
    exact h.stamp jti row (hrows jti row hrow)
  | @fresh used usedRow huse husedRow hfresh hrows =>
    rw [noteUse,huse]
    refine ⟨hlocks,?_,?_,hpending⟩
    · intro jti row hrow
      rw [hrows] at hrow
      exact (h.past jti row hrow).trans hclock
    · intro jti row hrow
      rw [hrows] at hrow
      by_cases hjti : jti=used
      · subst hjti
        cases husedRow.symm.trans hrow
        exact ⟨s.clock,Function.update_self _ _ _,h.past _ _ hrow,hfresh⟩
      · simp only [Function.update_of_ne hjti]
        exact h.stamp jti row hrow
  | @stamped used newRow huse hnow hrows =>
    have hnew : newRow.lastUsedAt ≤ s.clock := by
      have hp := h.pending
      rcases hnow with heq | ⟨check,token,memberId,rfl⟩ | ⟨secret,rfl⟩
      · exact heq.le
      · exact hp
      · exact hp.1
    rw [noteUse,huse]
    refine ⟨hlocks,?_,?_,hpending⟩
    · intro jti row hrow
      rw [hrows,Dict.get?_set] at hrow
      split_ifs at hrow with hjti
      · cases hrow
        exact hnew.trans hclock
      · exact (h.past jti row hrow).trans hclock
    · intro jti row hrow
      rw [hrows,Dict.get?_set] at hrow
      split_ifs at hrow with hjti
      · subst hjti
        cases hrow
        exact ⟨_,Function.update_self _ _ _,le_rfl,Nat.le_add_right _ _⟩
      · simp only [Function.update_of_ne hjti]
        exact h.stamp jti row hrow

lemma isIdle_of_gap {row : AuthSession} {last : Timestamp} (hlast : row.lastUsedAt ≤ last)
    (hgap : last+minutes settings.sessionIdleTimeoutMinutes < s.clock) :
    isIdle settings row s.clock=true := by
  simp only [isIdle,decide_eq_true_eq]
  exact Nat.lt_sub_of_add_lt (Nat.add_comm _ _ ▸ (Nat.add_le_add_right hlast _).trans_lt hgap)

lemma not_isIdle_of_gap {row : AuthSession} {last : Timestamp}
    (hlast : last ≤ row.lastUsedAt+minutes 1)
    (hgap : s.clock+minutes 1 ≤ last+minutes settings.sessionIdleTimeoutMinutes) :
    isIdle settings row s.clock=false := by
  have hwithin : s.clock ≤ row.lastUsedAt+minutes settings.sessionIdleTimeoutMinutes := by
    change (_ : ℕ) ≤ _ at hlast hgap ⊢
    omega
  simp only [isIdle,decide_eq_false_iff_not,not_lt]
  exact Nat.sub_le_iff_le_add'.mpr hwithin

lemma refreshCheck_eq {jti : SessionId} {secret : Secret} {row : AuthSession}
    (hrow : s.sessions.rows.get? jti=some row) (hrefused : acceptsRefresh settings s row secret=false) :
    ∃ s', authProgram settings c s (.refreshCheck jti secret) .next=some (s',.idle) ∧
      s'.sessions.rows.get? jti=none ∧ s'.sessions.accepted=s.sessions.accepted := by
  refine ⟨({ s with sessions := (s.sessions.endSessions [jti]).refuse jti secret }).unlock c,?_,?_,rfl⟩
  · simp only [authProgram,resume,refreshCheck,hrow,hrefused]
    rfl
  · exact Dict.get?_eraseAll_of_mem _ (List.mem_singleton_self _)

variable (settings) in
lemma authenticateAccessToken_eq {token : AccessToken} {row : AuthSession}
    (hexp : s.clock < token.exp) (hrow : s.sessions.rows.get? token.jti=some row) :
    (serial settings).step (s,.idle) (.call (.authenticateAccessToken token))=some
      ({ s with sessions := s.sessions.find s.nextId token.jti, nextId := s.nextId+1 },
        if isIdle settings row s.clock then .accessIdle token.jti
        else if s.clock-row.lastUsedAt > sessionTouchInterval then
          .accessTouch s.nextId token row.memberId s.clock
        else .accessMember s.nextId token row.memberId false) := by
  simp only [serial,authProgram,begin,authenticateAccessToken,if_neg (not_le.mpr hexp),hrow]

lemma UseInvariant.times {uses : LastUses} (h : UseInvariant settings s place uses) :
    SessionTimes settings s place uses where
  stamp := h.stamp
  accessPasses token row last hplace hexp hrow hlast hgap := by
    subst hplace
    obtain ⟨last',hlast',-,hbehind⟩ := h.stamp _ _ hrow
    cases hlast.symm.trans hlast'
    have hidle := not_isIdle_of_gap hbehind hgap
    refine ⟨_,_,authenticateAccessToken_eq settings hexp hrow,?_⟩
    rw [hidle,if_neg Bool.false_ne_true]
    split_ifs
    · exact Or.inl rfl
    · exact Or.inr rfl
  refreshPasses jti secret row last hplace hrow hlast hgap := by
    obtain ⟨last',hlast',-,hbehind⟩ := h.stamp _ _ hrow
    cases hlast.symm.trans hlast'
    simp [acceptsRefresh,validateSessionExpiry,not_isIdle_of_gap hbehind hgap]
  accessEnds token row last hplace hexp hrow hlast hgap := by
    subst hplace
    obtain ⟨last',hlast',hnever,-⟩ := h.stamp _ _ hrow
    cases hlast.symm.trans hlast'
    have hstep := authenticateAccessToken_eq settings hexp hrow
    rw [isIdle_of_gap hnever hgap,if_pos rfl] at hstep
    exact ⟨_,hstep⟩
  accessEnded jti hplace := by
    subst hplace
    refine ⟨_,h.locks.await _ _,?_,rfl⟩
    exact Dict.get?_eraseAll_of_mem _ (List.mem_singleton_self _)
  refreshEnds jti secret row last hplace hrow hlast hgap := by
    subst hplace
    apply refreshCheck_eq hrow
    obtain ⟨last',hlast',hnever,-⟩ := h.stamp _ _ hrow
    cases hlast.symm.trans hlast'
    rcases hgap with hgap | hgap
    · simp [acceptsRefresh,validateSessionExpiry,isIdle_of_gap hnever hgap]
    · have hover : ¬ s.clock-row.createdAt ≤ days settings.refreshTokenLifetimeDays :=
        not_le.mpr (Nat.lt_sub_of_add_lt (Nat.add_comm _ _ ▸ hgap))
      simp [acceptsRefresh,validateSessionExpiry,hover]
  lifetime jti secret now hplace := by
    have hp := h.pending
    rw [hplace] at hp
    exact hp.2

end Steps

/-- The times of the sessions hold between the steps of every run of requests, whatever time passes
between and within them. -/
theorem idleTimeout {settings : Settings} {s₀ s : AuthState} {place : Place} {uses : LastUses}
    (h₀ : StartOfUses s₀) (hrun : ((serial settings).observed (noteUse settings)).Reaches Any
      ((s₀,.idle),stamps s₀) ((s,place),uses)) : SessionTimes settings s place uses := by
  have hinv : UseInvariant settings s place uses := by
    apply hrun.invariant (I := fun x => UseInvariant settings x.1.1 x.1.2 x.2) h₀.invariant
    intro x input y hx _ hstep
    obtain ⟨hserial,hnote⟩ := observed_step_eq_some.mp hstep
    rw [hnote]
    exact hx.step hserial
  exact hinv.times

lemma memberWorld_startOfUses : StartOfUses memberWorld.shared where
  unlocked _ := rfl
  past jti row hrow := by
    change Dict.empty.get? jti=some row at hrow
    contradiction

/-- A login, and an access check after two minutes. -/
def useSchedule : List Input :=
  [.call (.authenticateUser "old" [97]),.next,.tick (minutes 2),
    .call (.authenticateAccessToken ⟨"old",2,minutes 15⟩),.next,.next,.next,.tick (minutes 29)]

theorem idleTimeout_useSchedule : ∃ s uses,
    ((serial sampleSettings).observed (noteUse sampleSettings)).run
        ((memberWorld.shared,.idle),stamps memberWorld.shared) useSchedule=some ((s,.idle),uses) ∧
      uses 2=some (minutes 2) ∧ s.clock=minutes 31 ∧ SessionTimes sampleSettings s .idle uses := by
  obtain ⟨s,uses,hrun,huse,hclock⟩ : ∃ s uses,
      ((serial sampleSettings).observed (noteUse sampleSettings)).run
        ((memberWorld.shared,.idle),stamps memberWorld.shared) useSchedule=some ((s,.idle),uses) ∧
      uses 2=some (minutes 2) ∧ s.clock=minutes 31 := ⟨_,_,rfl,rfl,rfl⟩
  exact ⟨s,uses,hrun,huse,hclock,idleTimeout memberWorld_startOfUses
    (Machine.reaches_of_run (Machine.meets_any _ useSchedule) hrun)⟩

end VbApi.Auth
