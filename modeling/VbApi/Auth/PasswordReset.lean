import VbApi.Auth.VerifiedAddress

/-! A reset and the credentials before it. A login verifies the password some steps before it opens its
session, and a reset deletes the sessions before it writes the password. -/
namespace VbApi.Auth
open VbApi.Foundations

/-- No session is left that was opened with a password which a reset replaced. A refresh keeps the
session, so this covers what descends from it. -/
def OldSessionsEnded (s : AuthState) : Prop :=
  ∀ r ∈ s.accounts.redemptions, ∀ o ∈ s.sessions.openings, o.memberId=r.memberId →
    r.previous=some o.password → s.sessions.rows.get? o.jti=none

def TokensUsedOnce (a : Accounts) : Prop := (a.redemptions.map (·.token)).Nodup

instance (a : Accounts) : Decidable (TokensUsedOnce a) :=
  inferInstanceAs (Decidable (List.Nodup _))

/-- A login opens its session while the password that it verified is the member's. A reset commits
while its token row is there and after it has taken all sessions of the member. -/
def CutsOff (s : AuthState) : Place → Prop
  | .createUserSession memberId email verified _ => isEmptyEmail email=false →
    (s.accounts.members.get? memberId).bind (·.authPassword)=some verified
  | .resetDelete memberId entry _ _ [] deleted => (s.accounts.resetTokens.get? entry).isSome ∧
    ∀ jti ∈ s.sessions.sessionsOf memberId, jti ∈ deleted
  | _ => True

def CutsOffInTime (w : World AuthState Place) (a : ClientId × Input) : Prop :=
  a.2=.next → CutsOff w.shared (w.clients a.1)

/-- Passwords and tokens: a stored token is unused, a replaced password does not come back. -/
structure PasswordsInvariant (a : Accounts) (nextId : ℕ) : Prop where
  distinct : ∀ id id' row row', a.resetTokens.get? id=some row → a.resetTokens.get? id'=some row' →
    row.tokenHash=row'.tokenHash → id=id'
  unused : ∀ id row, a.resetTokens.get? id=some row → ∀ r ∈ a.redemptions,
    row.tokenHash ≠ hashResetToken r.token
  once : TokensUsedOnce a
  replaced : ∀ r ∈ a.redemptions, ∀ m, a.members.get? r.memberId=some m → m.authPassword ≠ r.previous ∨
    r.previous=none
  salts : ∀ id m, a.members.get? id=some m → ∀ hashed ∈ m.authPassword, hashed.salt < nextId
  previous : ∀ r ∈ a.redemptions, ∀ hashed ∈ r.previous, hashed.salt < nextId

/-- Every session was opened with the password its member has. -/
structure OpeningsInvariant (a : Accounts) (ss : Sessions) (nextId : ℕ) : Prop where
  fresh : ∀ o ∈ ss.openings, o.jti < nextId
  current : ∀ o ∈ ss.openings, ∀ row, ss.rows.get? o.jti=some row → row.memberId=o.memberId ∧
    (a.members.get? o.memberId).bind (·.authPassword)=some o.password

lemma PasswordsInvariant.mono {a : Accounts} {nextId nextId' : ℕ} (h : PasswordsInvariant a nextId)
    (hle : nextId ≤ nextId') : PasswordsInvariant a nextId' :=
  ⟨h.distinct,h.unused,h.once,h.replaced,fun id m hm hashed hh => (h.salts id m hm hashed hh).trans_le hle,
    fun r hr hashed hh => (h.previous r hr hashed hh).trans_le hle⟩

/-- Rows of tokens may go. -/
lemma PasswordsInvariant.of_subset {a a' : Accounts} {nextId : ℕ} (h : PasswordsInvariant a nextId)
    (hrows : ∀ id row, a'.resetTokens.get? id=some row → a.resetTokens.get? id=some row)
    (hmembers : ∀ id m', a'.members.get? id=some m' → ∃ m, a.members.get? id=some m ∧
      m'.authPassword=m.authPassword)
    (hredemptions : a'.redemptions=a.redemptions) : PasswordsInvariant a' nextId := by
  constructor
  · intro id id' row row' hrow hrow'
    exact h.distinct id id' row row' (hrows id row hrow) (hrows id' row' hrow')
  · intro id row hrow r hr
    rw [hredemptions] at hr
    exact h.unused id row (hrows id row hrow) r hr
  · rw [TokensUsedOnce,hredemptions]
    exact h.once
  · intro r hr m' hm'
    rw [hredemptions] at hr
    obtain ⟨m,hm,hpassword⟩ := hmembers _ _ hm'
    rw [hpassword]
    exact h.replaced r hr m hm
  · intro id m' hm' hashed hh
    obtain ⟨m,hm,hpassword⟩ := hmembers _ _ hm'
    rw [hpassword] at hh
    exact h.salts id m hm hashed hh
  · intro r hr
    rw [hredemptions] at hr
    exact h.previous r hr

lemma PasswordsInvariant.insertToken {a : Accounts} {nextId : ℕ} (h : PasswordsInvariant a nextId)
    (hfresh : TokensFresh a nextId) (deleted : List Uuid) (memberId : Uuid) (now : Timestamp) :
    PasswordsInvariant (a.insertToken deleted nextId ⟨memberId,hashResetToken (nextId+1),now⟩)
      (nextId+2) := by
  have hmono := h.mono (Nat.le_add_right nextId 2)
  have hnew : ∀ id row, a.resetTokens.get? id=some row → row.tokenHash ≠ hashResetToken (nextId+1) := by
    intro id row hrow heq
    have hlt := (hfresh.rows id row hrow).2
    rw [heq] at hlt
    exact absurd hlt (not_lt.mpr (Nat.le_succ _))
  have hrows : ∀ id row, (a.insertToken deleted nextId
      ⟨memberId,hashResetToken (nextId+1),now⟩).resetTokens.get? id=some row →
      id=nextId ∧ row.tokenHash=hashResetToken (nextId+1) ∨ a.resetTokens.get? id=some row := by
    intro id row hrow
    rw [Accounts.insertToken,Dict.get?_set] at hrow
    split_ifs at hrow with hid
    · cases hrow
      exact .inl ⟨hid,rfl⟩
    · exact .inr (get?_of_eraseAll hrow)
  refine ⟨?_,?_,h.once,h.replaced,hmono.salts,hmono.previous⟩
  · intro id id' row row' hrow hrow' heq
    rcases hrows id row hrow with ⟨rfl,hhash⟩ | hold <;>
      rcases hrows id' row' hrow' with ⟨rfl,hhash'⟩ | hold'
    · rfl
    · exact absurd (heq.symm.trans hhash) (hnew id' row' hold')
    · exact absurd (heq.trans hhash') (hnew id row hold)
    · exact h.distinct id id' row row' hold hold' heq
  · intro id row hrow r hr heq
    rcases hrows id row hrow with ⟨rfl,hhash⟩ | hold
    · have hlt := hfresh.redemptions r hr
      rw [← Digest.mk.inj (hhash.symm.trans heq)] at hlt
      exact absurd hlt (not_lt.mpr (Nat.le_succ _))
    · exact h.unused id row hold r hr heq

lemma PasswordsInvariant.redeem {a : Accounts} {nextId : ℕ} (h : PasswordsInvariant a nextId)
    {memberId entry : Uuid} {token : Secret} (hentry : EntryOf a nextId memberId entry token)
    (hthere : (a.resetTokens.get? entry).isSome) {m : Member}
    (hm : a.members.get? memberId=some m) (newPassword : Password) (now : Timestamp) :
    PasswordsInvariant (a.redeem memberId m entry token (getPasswordHash newPassword nextId) now)
      (nextId+1) := by
  obtain ⟨row,hrow⟩ := Option.isSome_iff_exists.mp hthere
  have hhash := (hentry.row row hrow).2
  have hmono := h.mono (Nat.le_succ nextId)
  have hnew : ∀ hashed : PasswordHash, hashed.salt < nextId →
      getPasswordHash newPassword nextId ≠ hashed := by
    rintro hashed hlt rfl
    exact lt_irrefl _ hlt
  refine ⟨?_,?_,?_,?_,?_,?_⟩
  · intro id id' row row' hrow hrow'
    exact h.distinct id id' row row' (get?_of_erase hrow) (get?_of_erase hrow')
  · intro id row' hrow' r hr heq
    rcases List.mem_cons.mp hr with rfl | hr
    · have hid := h.distinct id entry row' row (get?_of_erase hrow') hrow (heq.trans hhash.symm)
      simp [Accounts.redeem,Dict.get?_erase,hid] at hrow'
    · exact h.unused id row' (get?_of_erase hrow') r hr heq
  · refine List.nodup_cons.mpr ⟨?_,h.once⟩
    intro hused
    obtain ⟨r,hr,htoken⟩ := List.mem_map.mp hused
    exact h.unused entry row hrow r hr (by rw [hhash,htoken])
  · intro r hr m' hm'
    rcases List.mem_cons.mp hr with rfl | hr
    · have hset : (a.members.set memberId { m with
          emailVerifiedAt := some now, authPassword := some (getPasswordHash newPassword nextId) }).get?
          memberId=some m' := hm'
      rw [Dict.get?_set_self] at hset
      cases hset
      cases hprevious : m.authPassword with
      | none => exact .inr rfl
      | some hashed =>
        refine .inl fun heq => hnew hashed ?_ (Option.some.inj heq)
        exact h.salts memberId m hm hashed hprevious
    · rcases get?_set_cases hm' with ⟨hid,rfl⟩ | ⟨-,hm'⟩
      · cases hprevious : r.previous with
        | none => exact .inr rfl
        | some hashed =>
          refine .inl fun heq => hnew hashed ?_ (Option.some.inj heq)
          exact h.previous r hr hashed hprevious
      · exact h.replaced r hr m' hm'
  · intro id m' hm' hashed hh
    rcases get?_set_cases hm' with ⟨-,rfl⟩ | ⟨-,hm'⟩
    · cases hh
      exact Nat.lt_succ_self _
    · exact hmono.salts id m' hm' hashed hh
  · intro r hr hashed hh
    rcases List.mem_cons.mp hr with rfl | hr
    · exact hmono.salts memberId m hm hashed hh
    · exact hmono.previous r hr hashed hh

/-- Passwords change with a redemption only. -/
lemma AccountsEffect.passwords {s : AuthState} {input : Input} {place place' : Place}
    {a' : Accounts} {nextId' : ℕ} (h : AccountsEffect s input place a' nextId' place')
    (hs : PasswordsInvariant s.accounts s.nextId) (hfresh : TokensFresh s.accounts s.nextId)
    (hp : TokenPlace s.accounts s.nextId place) (hok : input=.next → CutsOff s place) :
    PasswordsInvariant a' nextId' := by
  cases h with
  | quiet hnext => exact hs.mono hnext
  | stay => exact hs
  | insertToken => exact hs.insertToken hfresh _ _ _
  | sendMail => exact ⟨hs.distinct,hs.unused,hs.once,hs.replaced,hs.salts,hs.previous⟩
  | present => exact hs.mono (le_max_left _ _)
  | redeem hinput hm => exact hs.redeem hp.2 (hok hinput).1 hm _ _
  | eraseToken =>
    exact hs.of_subset (fun _ _ hrow => get?_of_erase hrow) (fun _ m hm => ⟨m,hm,rfl⟩) rfl
  | @updateMember memberId update deletedTokens m _ hm =>
    refine hs.of_subset (fun _ _ hrow => get?_of_eraseAll hrow) ?_ rfl
    intro id m' hm'
    rcases get?_set_cases hm' with ⟨rfl,rfl⟩ | ⟨-,hm'⟩
    · exact ⟨m,hm,rfl⟩
    · exact ⟨m',hm',rfl⟩
  | _ => exact hs

/-- The password of a member. -/
def Accounts.passwordOf (a : Accounts) (memberId : Uuid) : Option PasswordHash :=
  (a.members.get? memberId).bind (·.authPassword)

lemma AccountsEffect.passwordOf_eq {s : AuthState} {input : Input} {place place' : Place}
    {a' : Accounts} {nextId' : ℕ} (h : AccountsEffect s input place a' nextId' place')
    (hne : ∀ memberId entry token newPassword deleted, input=.next →
      place ≠ .resetDelete memberId entry token newPassword [] deleted) (id : Uuid) :
    a'.passwordOf id=s.accounts.passwordOf id := by
  cases h with
  | redeem hinput => exact absurd rfl (hne _ _ _ _ _ hinput)
  | @updateMember memberId update deletedTokens m _ hm =>
    simp only [Accounts.passwordOf,Accounts.updateMember,Dict.get?_set]
    split_ifs with hid
    · rw [hid,hm]
      rfl
    · rfl
  | _ => rfl

lemma OpeningsInvariant.mono {a : Accounts} {ss : Sessions} {nextId nextId' : ℕ}
    (h : OpeningsInvariant a ss nextId) (hle : nextId ≤ nextId') : OpeningsInvariant a ss nextId' :=
  ⟨fun o ho => (h.fresh o ho).trans_le hle,h.current⟩

/-- Sessions may end and be stamped. -/
lemma OpeningsInvariant.of_rows {a : Accounts} {ss ss' : Sessions} {nextId : ℕ}
    (h : OpeningsInvariant a ss nextId) (hrows : ∀ jti row', ss'.rows.get? jti=some row' →
      ∃ row, ss.rows.get? jti=some row ∧ row'.memberId=row.memberId)
    (hopenings : ss'.openings=ss.openings) : OpeningsInvariant a ss' nextId := by
  refine ⟨?_,?_⟩
  · rw [hopenings]
    exact h.fresh
  · intro o ho row' hrow'
    rw [hopenings] at ho
    obtain ⟨row,hrow,hmember⟩ := hrows _ _ hrow'
    rw [hmember]
    exact h.current o ho row hrow

lemma OpeningsInvariant.endSessions {a : Accounts} {ss : Sessions} {nextId : ℕ}
    (h : OpeningsInvariant a ss nextId) (jtis : List SessionId) :
    OpeningsInvariant a (ss.endSessions jtis) nextId :=
  h.of_rows (fun _ row hrow => ⟨row,get?_of_eraseAll hrow,rfl⟩) rfl

/-- A row that keeps its member. -/
lemma OpeningsInvariant.setRow {a : Accounts} {ss ss' : Sessions} {nextId : ℕ}
    (h : OpeningsInvariant a ss nextId) {jti : SessionId} {row row' : AuthSession}
    (hrows : ss'.rows=ss.rows.set jti row') (hopenings : ss'.openings=ss.openings)
    (hrow : ss.rows.get? jti=some row) (hmember : row'.memberId=row.memberId) :
    OpeningsInvariant a ss' nextId := by
  refine h.of_rows ?_ hopenings
  intro jti' row'' hrow''
  rw [hrows] at hrow''
  rcases get?_set_cases hrow'' with ⟨rfl,rfl⟩ | ⟨-,hold⟩
  · exact ⟨row,hrow,hmember⟩
  · exact ⟨row'',hold,rfl⟩

/-- Logins open sessions with the password of the member; the other steps open none. -/
lemma SessionsEffect.openings {settings : Settings} {c : ClientId} {s : AuthState} {input : Input}
    {place place' : Place} {ss' : Sessions} {locks' : Locks RowKey} {nextId' : ℕ}
    (h : SessionsEffect settings c s input place ss' locks' nextId' place')
    (hs : OpeningsInvariant s.accounts s.sessions s.nextId)
    (hok : input=.next → CutsOff s place) : OpeningsInvariant s.accounts ss' nextId' := by
  cases h with
  | quiet _ hnext => exact hs.mono hnext
  | @openSession memberId email verified startedAt hinput hemail =>
    refine ⟨?_,?_⟩
    · intro o ho
      rcases List.mem_cons.mp ho with rfl | ho
      · exact Nat.lt_add_of_pos_right (by decide)
      · exact (hs.fresh o ho).trans (Nat.lt_add_of_pos_right (by decide))
    · intro o ho row hrow
      rcases List.mem_cons.mp ho with rfl | ho
      · have hset : (s.sessions.rows.set s.nextId
            ⟨memberId,some (hashRefreshSecret (s.nextId+1)),s.clock,startedAt⟩).get? s.nextId=some row :=
          hrow
        rw [Dict.get?_set_self] at hset
        cases hset
        exact ⟨rfl,hok hinput hemail⟩
      · rcases get?_set_cases hrow with ⟨heq,-⟩ | ⟨-,hold⟩
        · exact absurd (hs.fresh o ho) (by rw [heq]; exact lt_irrefl _)
        · exact hs.current o ho row hold
  | redeem => exact (hs.endSessions _).mono (Nat.le_succ _)
  | endRefused => exact hs.of_rows (fun _ row hrow => ⟨row,get?_of_eraseAll hrow,rfl⟩) rfl
  | rotate hrow => exact (hs.mono (Nat.le_succ _)).setRow rfl rfl hrow rfl
  | endSession => exact hs.endSessions _
  | find => exact ⟨fun o ho => (hs.fresh o ho).trans (Nat.lt_succ_self _),hs.current⟩
  | touch hrow => exact hs.setRow rfl rfl hrow rfl
  | _ => exact hs.of_rows (fun _ row hrow => ⟨row,hrow,rfl⟩) rfl

/-- One step that cuts off keeps sessions and passwords together. -/
lemma authProgram_openings {settings : Settings} {c : ClientId} {s s' : AuthState} {input : Input}
    {place place' : Place} (hstep : authProgram settings c s place input=some (s',place'))
    (hs : OpeningsInvariant s.accounts s.sessions s.nextId)
    (hok : input=.next → CutsOff s place) :
    OpeningsInvariant s'.accounts s'.sessions s'.nextId := by
  by_cases hcommit : ∃ memberId entry token newPassword deleted, input=.next ∧
      place=.resetDelete memberId entry token newPassword [] deleted
  · obtain ⟨memberId,entry,token,newPassword,deleted,rfl,rfl⟩ := hcommit
    have hresume : resume settings c s
        (.resetDelete memberId entry token newPassword [] deleted)=some (s',place') := hstep
    obtain ⟨-,⟨ha,hss,hn⟩ | ⟨m,hm,ha,hss,hn⟩⟩ := resetCommit_eq hresume
    · rw [ha,hss,hn]
      exact hs
    · rw [ha,hss,hn]
      refine ⟨fun o ho => (hs.fresh o ho).trans (Nat.lt_succ_self _),?_⟩
      intro o ho row hrow
      obtain ⟨hleft,hrow⟩ := (Dict.get?_eraseAll_eq_some_iff _ _ _ _).mp hrow
      obtain ⟨hmember,hpassword⟩ := hs.current o ho row hrow
      refine ⟨hmember,?_⟩
      have hother : o.memberId ≠ memberId := by
        intro heq
        refine hleft ((hok rfl).2 _ ?_)
        simpa [Sessions.sessionsOf] using ⟨row,hrow,hmember.trans heq⟩
      rw [← hpassword,Accounts.redeem,Dict.get?_set_of_ne _ hother]
  · have hsame := (authProgram_accounts hstep).passwordOf_eq (by
      intro memberId entry token newPassword deleted hinput hplace
      exact hcommit ⟨memberId,entry,token,newPassword,deleted,hinput,hplace⟩)
    have hopened := (authProgram_sessions hstep).openings hs hok
    refine ⟨hopened.fresh,?_⟩
    intro o ho row hrow
    obtain ⟨hmember,hpassword⟩ := hopened.current o ho row hrow
    exact ⟨hmember,(hsame o.memberId).trans hpassword⟩

/-- In every run whose logins and resets are in time, a reset ends the sessions opened before it, and
a token changes the password at most once. -/
theorem oldSessionsEnded_inTime {settings : Settings} {w₀ w : World AuthState Place}
    (hstart : StartOfAuth w₀)
    (hrun : (authProgram settings).interleave.Reaches CutsOffInTime w₀ w) :
    OldSessionsEnded w.shared ∧ TokensUsedOnce w.shared.accounts := by
  have hholds : Program.Holds (fun s => TokensFresh s.accounts s.nextId ∧
      PasswordsInvariant s.accounts s.nextId ∧
      OpeningsInvariant s.accounts s.sessions s.nextId)
      (fun _ s place => TokenPlace s.accounts s.nextId place) w₀ := by
    refine ⟨⟨hstart.tokensFresh,?_,?_⟩,?_⟩
    · constructor
      · simp [hstart.resetTokens]
      · simp [hstart.resetTokens]
      · simp [TokensUsedOnce,hstart.redemptions]
      · simp [hstart.redemptions]
      · exact hstart.salts
      · simp [hstart.redemptions]
    · constructor <;> simp [hstart.sessions]
    · intro c
      rw [hstart.idle c]
      trivial
  have hinv := Program.Holds.of_reaches hrun hholds ?_ ?_
  · obtain ⟨-,hpasswords,hopenings⟩ := hinv.shared
    refine ⟨?_,hpasswords.once⟩
    intro r hr o ho hmember hprevious
    by_contra hlive
    obtain ⟨row,hrow⟩ := Option.ne_none_iff_exists'.mp hlive
    obtain ⟨-,hpassword⟩ := hopenings.current o ho row hrow
    obtain ⟨m,hm,hhash⟩ := Option.bind_eq_some_iff.mp hpassword
    rw [hmember] at hm
    rcases hpasswords.replaced r hr m hm with hne | hnone
    · exact hne (hhash.trans hprevious.symm)
    · rw [hnone] at hprevious
      contradiction
  · intro w c input s place hw hok hstep
    obtain ⟨hfresh,hpasswords,hopenings⟩ := hw.shared
    have heffect := authProgram_accounts hstep
    obtain ⟨hfresh',hplace⟩ := heffect.tokens hfresh (hw.clients c)
    exact ⟨⟨hfresh',heffect.passwords hpasswords hfresh (hw.clients c) hok,
      authProgram_openings hstep hopenings hok⟩,hplace⟩
  · intro w c input s place c' hw _ hstep _
    exact (hw.clients c').evolve (authProgram_accounts hstep).evolve

/-- A login of the member. -/
def loginStep (password : Password) : ClientId × Input := (2,.call (.authenticateUser "old" password))

/-- A login, a reset, and a login with the new password. -/
def cutOffSchedule : List (ClientId × Input) :=
  [loginStep [97],(2,.next)]++forgotSteps++
    [(1,.call (.executePasswordReset "old" 5 [98])),(1,.next),(1,.next),(1,.next),(1,.next),
      loginStep [98],(2,.next)]

lemma cutOffSchedule_meets : (authProgram sampleSettings).interleave.Meets CutsOffInTime memberWorld
    cutOffSchedule := by
  refine ⟨nofun,fun w₁ h₁ => ?_⟩
  cases h₁
  refine ⟨fun _ _ => rfl,fun w₂ h₂ => ?_⟩
  cases h₂
  refine ⟨nofun,fun w₃ h₃ => ?_⟩
  cases h₃
  refine ⟨fun _ => trivial,fun w₄ h₄ => ?_⟩
  cases h₄
  refine ⟨fun _ => trivial,fun w₅ h₅ => ?_⟩
  cases h₅
  refine ⟨fun _ => trivial,fun w₆ h₆ => ?_⟩
  cases h₆
  refine ⟨nofun,fun w₇ h₇ => ?_⟩
  cases h₇
  refine ⟨fun _ => trivial,fun w₈ h₈ => ?_⟩
  cases h₈
  refine ⟨fun _ => trivial,fun w₉ h₉ => ?_⟩
  cases h₉
  refine ⟨fun _ => trivial,fun w₁₀ h₁₀ => ?_⟩
  cases h₁₀
  refine ⟨fun _ => ⟨rfl,?_⟩,fun w₁₁ h₁₁ => ?_⟩
  · intro jti hjti
    exact hjti
  cases h₁₁
  refine ⟨nofun,fun w₁₂ h₁₂ => ?_⟩
  cases h₁₂
  exact ⟨fun _ _ => rfl,fun _ _ => trivial⟩

theorem oldSessionsEnded_cutOffSchedule : ∃ w,
    (authProgram sampleSettings).interleave.run memberWorld cutOffSchedule=some w ∧
      w.shared.sessions.rows.keys=[7] ∧ OldSessionsEnded w.shared ∧
      TokensUsedOnce w.shared.accounts :=
  ⟨_,rfl,rfl,oldSessionsEnded_inTime memberWorld_start
    (Machine.reaches_of_run cutOffSchedule_meets rfl)⟩

/-- The password is verified before the reset and the session opened after it. -/
def lateLoginSchedule : List (ClientId × Input) :=
  loginStep [97]::forgotSteps++redeemSteps "old"++[(2,.next)]

/-- The session is opened after the reset has looked for sessions. -/
def duringResetSchedule : List (ClientId × Input) :=
  forgotSteps++(redeemSteps "old").take 3++[loginStep [97],(2,.next),(1,.next)]

/-- Two resets find the same token. -/
def twiceSchedule : List (ClientId × Input) :=
  forgotSteps++[(2,.call (.executePasswordReset "old" 3 [99])),(2,.next),(2,.next)]++
    redeemSteps "old"++[(2,.next)]

theorem old_session_alive : StartOfAuth memberWorld ∧
    (∀ schedule ∈ [lateLoginSchedule,duringResetSchedule], ∃ w,
      (authProgram sampleSettings).interleave.run memberWorld schedule=some w ∧
        ¬ OldSessionsEnded w.shared) ∧
    ∃ w, (authProgram sampleSettings).interleave.run memberWorld twiceSchedule=some w ∧
      ¬ TokensUsedOnce w.shared.accounts := by
  refine ⟨memberWorld_start,?_,_,rfl,by decide⟩
  intro schedule hschedule
  simp only [List.mem_cons,List.not_mem_nil,or_false] at hschedule
  rcases hschedule with rfl | rfl
  · refine ⟨_,rfl,fun hended => ?_⟩
    have hgone := hended _ (List.mem_singleton_self _) _ (List.mem_singleton_self _) rfl rfl
    contradiction
  · refine ⟨_,rfl,fun hended => ?_⟩
    have hgone := hended _ (List.mem_singleton_self _) _ (List.mem_singleton_self _) rfl rfl
    contradiction

end VbApi.Auth
