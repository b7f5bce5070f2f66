import VbApi.Auth.ResetTokens

/-! The verified mark of an address. A reset sets it, a change of the address clears it and deletes the
token; both act on what they read some steps before. -/
namespace VbApi.Auth
open VbApi.Foundations

/-- A marked address had a token mailed to it that was redeemed while it was the member's. -/
def VerifiedAddress (a : Accounts) : Prop :=
  ∀ id m, a.members.get? id=some m → m.emailVerifiedAt.isSome → ∃ address token,
    m.email=some address ∧ ⟨token,id,address⟩ ∈ a.mails ∧
      ∃ r ∈ a.redemptions, r.token=token ∧ r.memberId=id ∧ r.address=some address

/-- What the next step of a client may rely on when it commits. A reset still has its token row. A
save that changes the address clears the mark, or there is none, and it leaves no token. -/
def CommitsInTime (s : AuthState) : Place → Prop
  | .resetDelete _ entry _ _ [] _ => (s.accounts.resetTokens.get? entry).isSome
  | .saveCommit memberId update deletedTokens =>
    ∀ m, s.accounts.members.get? memberId=some m → update.ChangesEmail m →
      (update.clearsMark ∨ m.emailVerifiedAt=none) ∧
        ∀ id ∈ s.accounts.tokensOf memberId, id ∈ deletedTokens
  | _ => True

def VerifiesInTime (w : World AuthState Place) (a : ClientId × Input) : Prop :=
  a.2=.next → CommitsInTime w.shared (w.clients a.1)

/-- Besides the property: a stored token was mailed, if at all, to the address its member has. -/
structure VerifiedInvariant (a : Accounts) : Prop where
  verified : VerifiedAddress a
  mailedTo : ∀ id row, a.resetTokens.get? id=some row → ∀ mail ∈ a.mails,
    row.tokenHash=hashResetToken mail.token → mail.memberId=row.memberId ∧
      ∃ m, a.members.get? row.memberId=some m ∧ m.email=some mail.address

lemma mem_tokensOf {a : Accounts} {memberId id : Uuid} :
    id ∈ a.tokensOf memberId ↔ ∃ row, a.resetTokens.get? id=some row ∧ row.memberId=memberId := by
  simp [Accounts.tokensOf]

lemma VerifiedInvariant.insertToken {a : Accounts} (h : VerifiedInvariant a) {nextId : ℕ}
    (hfresh : TokensFresh a nextId) (deleted : List Uuid) (memberId : Uuid) (now : Timestamp) :
    VerifiedInvariant (a.insertToken deleted nextId ⟨memberId,hashResetToken (nextId+1),now⟩) := by
  refine ⟨h.verified,?_⟩
  intro id row hrow mail hmail hhash
  rw [Accounts.insertToken,Dict.get?_set] at hrow
  split_ifs at hrow
  · cases hrow
    have hlt := hfresh.mails mail hmail
    rw [← Digest.mk.inj hhash] at hlt
    exact absurd hlt (not_lt.mpr (Nat.le_succ _))
  · exact h.mailedTo id row (get?_of_eraseAll hrow) mail hmail hhash

lemma VerifiedInvariant.sendMail {a : Accounts} (h : VerifiedInvariant a) {nextId : ℕ}
    {memberId : Uuid} {token : Secret} (hplace : TokenPlace a nextId (.forgotMail memberId token))
    {m : Member} (hm : a.members.get? memberId=some m) {address : Email}
    (haddress : m.email=some address) : VerifiedInvariant (a.sendMail ⟨token,memberId,address⟩) := by
  refine ⟨?_,?_⟩
  · intro id m' hm' hmark
    obtain ⟨address',token',hemail,hmail,hredeemed⟩ := h.verified id m' hm' hmark
    exact ⟨address',token',hemail,List.mem_cons_of_mem _ hmail,hredeemed⟩
  · intro id row hrow mail hmail hhash
    rcases List.mem_cons.mp hmail with rfl | hmail
    · have hmember := hplace.2 id row hrow hhash
      exact ⟨hmember.symm,m,by rw [hmember]; exact hm,haddress⟩
    · exact h.mailedTo id row hrow mail hmail hhash

/-- The member's row, its old fields or the new ones. -/
lemma get?_set_cases {ν : Type*} {d : Dict Uuid ν} {id id' : Uuid} {v w : ν}
    (h : (d.set id v).get? id'=some w) : id'=id ∧ w=v ∨ id' ≠ id ∧ d.get? id'=some w := by
  rw [Dict.get?_set] at h
  split_ifs at h with hid
  · exact .inl ⟨hid,(Option.some.inj h).symm⟩
  · exact .inr ⟨hid,h⟩

lemma VerifiedInvariant.redeem {a : Accounts} (h : VerifiedInvariant a) {nextId : ℕ}
    {memberId entry : Uuid} {token : Secret} (hpresented : Presented a nextId token)
    (hentry : EntryOf a nextId memberId entry token) (hthere : (a.resetTokens.get? entry).isSome)
    {m : Member} (hm : a.members.get? memberId=some m) (hashed : PasswordHash) (now : Timestamp) :
    VerifiedInvariant (a.redeem memberId m entry token hashed now) := by
  obtain ⟨row,hrow⟩ := Option.isSome_iff_exists.mp hthere
  obtain ⟨hmember,hhash⟩ := hentry.row row hrow
  obtain ⟨mail,hmail,htoken⟩ := hpresented.mailed entry row hrow hhash
  obtain ⟨hmailMember,m',hm',hemail⟩ := h.mailedTo entry row hrow mail hmail (by rw [hhash,htoken])
  rw [hmember] at hmailMember hm'
  rw [hm] at hm'
  cases hm'
  refine ⟨?_,?_⟩
  · intro id m' hm' hmark
    rcases get?_set_cases hm' with ⟨rfl,rfl⟩ | ⟨hne,hm'⟩
    · refine ⟨mail.address,token,hemail,?_,_,List.mem_cons_self,rfl,rfl,hemail⟩
      rw [← htoken,← hmailMember]
      exact hmail
    · obtain ⟨address,token',hemail',hmail',r,hr,hredeemed⟩ := h.verified id m' hm' hmark
      exact ⟨address,token',hemail',hmail',r,List.mem_cons_of_mem _ hr,hredeemed⟩
  · intro id row' hrow' mail' hmail' hhash'
    obtain ⟨hmember',m',hm',hemail'⟩ := h.mailedTo id row' (get?_of_erase hrow') mail' hmail' hhash'
    refine ⟨hmember',?_⟩
    by_cases hid : row'.memberId=memberId
    · rw [hid,hm] at hm'
      cases hm'
      rw [hid]
      exact ⟨_,Dict.get?_set_self _ _ _,hemail'⟩
    · exact ⟨m',by rw [← hm']; exact Dict.get?_set_of_ne _ hid _,hemail'⟩

lemma VerifiedInvariant.updateMember {a : Accounts} (h : VerifiedInvariant a) {memberId : Uuid}
    {m : Member} (hm : a.members.get? memberId=some m) {u : MemberUpdate}
    {deletedTokens : List Uuid} (hok : u.ChangesEmail m →
      (u.clearsMark ∨ m.emailVerifiedAt=none) ∧ ∀ id ∈ a.tokensOf memberId, id ∈ deletedTokens) :
    VerifiedInvariant (a.updateMember memberId m u deletedTokens) := by
  refine ⟨?_,?_⟩
  · intro id m' hm' hmark
    rcases get?_set_cases hm' with ⟨rfl,rfl⟩ | ⟨-,hm'⟩
    · have hcleared : ¬ u.clearsMark := by
        intro hclears
        simp [MemberUpdate.apply,hclears] at hmark
      have hold : m.emailVerifiedAt.isSome := by simpa [MemberUpdate.apply,hcleared] using hmark
      have hsame : (u.apply m).email=m.email := by
        by_contra hchanges
        rcases (hok hchanges).1 with hclears | hnone
        · exact hcleared hclears
        · simp [hnone] at hold
      rw [hsame]
      exact h.verified id m hm hold
    · exact h.verified id m' hm' hmark
  · intro id row hrow mail hmail hhash
    obtain ⟨hgone,hrow⟩ := (Dict.get?_eraseAll_eq_some_iff _ _ _ _).mp hrow
    obtain ⟨hmember,m',hm',hemail⟩ := h.mailedTo id row hrow mail hmail hhash
    refine ⟨hmember,?_⟩
    by_cases hid : row.memberId=memberId
    · rw [hid,hm] at hm'
      cases hm'
      rw [hid]
      refine ⟨_,Dict.get?_set_self _ _ _,?_⟩
      by_contra hchanged
      refine hgone ((hok ?_).2 id (mem_tokensOf.mpr ⟨row,hrow,hid⟩))
      intro hsame
      exact hchanged (hsame.trans hemail)
    · exact ⟨m',by rw [← hm']; exact Dict.get?_set_of_ne _ hid _,hemail⟩

/-- A step that commits in time keeps the marks true. -/
lemma AccountsEffect.verified {s : AuthState} {input : Input} {place place' : Place} {a' : Accounts}
    {nextId' : ℕ} (h : AccountsEffect s input place a' nextId' place')
    (hs : VerifiedInvariant s.accounts) (hfresh : TokensFresh s.accounts s.nextId)
    (hp : TokenPlace s.accounts s.nextId place) (hok : input=.next → CommitsInTime s place) :
    VerifiedInvariant a' := by
  cases h with
  | insertToken => exact hs.insertToken hfresh _ _ _
  | sendMail hm haddress => exact hs.sendMail hp hm haddress
  | redeem hinput hm => exact hs.redeem hp.1 hp.2 (hok hinput) hm _ _
  | eraseToken => exact ⟨hs.verified,fun id row hrow => hs.mailedTo id row (get?_of_erase hrow)⟩
  | updateMember hinput hm => exact hs.updateMember hm (hok hinput _ hm)
  | _ => exact hs

/-- Nobody at work, nobody signed in, no token, and no address marked. -/
structure StartOfAuth (w : World AuthState Place) : Prop where
  idle : ∀ c, w.clients c=.idle
  unmarked : ∀ id m, w.shared.accounts.members.get? id=some m → m.emailVerifiedAt=none
  salts : ∀ id m, w.shared.accounts.members.get? id=some m → ∀ hashed ∈ m.authPassword,
    hashed.salt < w.shared.nextId
  resetTokens : w.shared.accounts.resetTokens=.empty
  mails : w.shared.accounts.mails=[]
  redemptions : w.shared.accounts.redemptions=[]
  sessions : w.shared.sessions=⟨.empty,[],[],[],[],[]⟩

lemma StartOfAuth.tokensFresh {w : World AuthState Place} (h : StartOfAuth w) :
    TokensFresh w.shared.accounts w.shared.nextId := by
  refine ⟨?_,?_,?_⟩
  · simp [h.resetTokens]
  · simp [h.mails]
  · simp [h.redemptions]

/-- In every run whose commits are in time, every marked address is verified. -/
theorem verifiedAddress_inTime {settings : Settings} {w₀ w : World AuthState Place}
    (hstart : StartOfAuth w₀)
    (hrun : (authProgram settings).interleave.Reaches VerifiesInTime w₀ w) :
    VerifiedAddress w.shared.accounts := by
  have hholds : Program.Holds
      (fun s => TokensFresh s.accounts s.nextId ∧ VerifiedInvariant s.accounts)
      (fun _ s place => TokenPlace s.accounts s.nextId place) w₀ := by
    refine ⟨⟨hstart.tokensFresh,?_,?_⟩,?_⟩
    · intro id m hm hmark
      simp [hstart.unmarked id m hm] at hmark
    · simp [hstart.resetTokens]
    · intro c
      rw [hstart.idle c]
      trivial
  have hinv := Program.Holds.of_reaches hrun hholds ?_ ?_
  · exact hinv.shared.2.verified
  · intro w c input s place hw hok hstep
    have heffect := authProgram_accounts hstep
    obtain ⟨hfresh,hplace⟩ := heffect.tokens hw.shared.1 (hw.clients c)
    exact ⟨⟨hfresh,heffect.verified hw.shared.2 hw.shared.1 (hw.clients c) hok⟩,hplace⟩
  · intro w c input s place c' hw _ hstep _
    exact (hw.clients c').evolve (authProgram_accounts hstep).evolve

/-- Addresses in lower case, half an hour and a week. -/
def sampleSettings : Settings := ⟨id,30,7⟩

/-- One member with an address and a password. -/
def memberWorld : World AuthState Place where
  shared :=
    { accounts := ⟨Dict.ofPairs [(1,⟨some "old",none,some ⟨[97],0⟩,false⟩)],.empty,[],[]⟩
      sessions := ⟨.empty,[],[],[],[],[]⟩
      locks := fun _ => none
      clock := 0
      nextId := 2 }
  clients := fun _ => .idle

lemma memberWorld_member {id : Uuid} {m : Member}
    (hm : memberWorld.shared.accounts.members.get? id=some m) :
    m=⟨some "old",none,some ⟨[97],0⟩,false⟩ := by
  have hentry := (Dict.get?_ofPairs_iff _ (by decide) _ _).mp hm
  cases List.mem_singleton.mp hentry
  rfl

lemma memberWorld_start : StartOfAuth memberWorld where
  idle _ := rfl
  unmarked id m hm := by rw [memberWorld_member hm]
  salts id m hm hashed hhashed := by
    rw [memberWorld_member hm] at hhashed
    cases hhashed
    decide
  resetTokens := rfl
  mails := rfl
  redemptions := rfl
  sessions := rfl

/-- The forgotten password of the member, up to the mail. -/
def forgotSteps : List (ClientId × Input) :=
  [(0,.call (.processForgotPassword "old")),(0,.next),(0,.next),(0,.next)]

/-- A reset with the token of that mail. -/
def redeemSteps (email : Email) : List (ClientId × Input) :=
  [(1,.call (.executePasswordReset email 3 [98])),(1,.next),(1,.next),(1,.next)]

def verifySchedule : List (ClientId × Input) := forgotSteps++redeemSteps "old"

lemma verifySchedule_meets : (authProgram sampleSettings).interleave.Meets VerifiesInTime memberWorld
    verifySchedule := by
  refine ⟨nofun,fun w₁ h₁ => ?_⟩
  cases h₁
  refine ⟨fun _ => trivial,fun w₂ h₂ => ?_⟩
  cases h₂
  refine ⟨fun _ => trivial,fun w₃ h₃ => ?_⟩
  cases h₃
  refine ⟨fun _ => trivial,fun w₄ h₄ => ?_⟩
  cases h₄
  refine ⟨nofun,fun w₅ h₅ => ?_⟩
  cases h₅
  refine ⟨fun _ => trivial,fun w₆ h₆ => ?_⟩
  cases h₆
  refine ⟨fun _ => trivial,fun w₇ h₇ => ?_⟩
  cases h₇
  exact ⟨fun _ => rfl,fun _ _ => trivial⟩

theorem verifiedAddress_verifySchedule : ∃ w,
    (authProgram sampleSettings).interleave.run memberWorld verifySchedule=some w ∧
      (w.shared.accounts.members.get? 1).bind (·.emailVerifiedAt)=some 0 ∧
      VerifiedAddress w.shared.accounts :=
  ⟨_,rfl,rfl,verifiedAddress_inTime memberWorld_start
    (Machine.reaches_of_run verifySchedule_meets rfl)⟩

def saveNew : Input := .call (.applyMemberInput 1 ⟨some "new",false,false,false⟩)

/-- The address changes after the reset has found its token. -/
def lateResetSchedule : List (ClientId × Input) :=
  forgotSteps++(redeemSteps "old").take 3++[(2,saveNew),(2,.next),(2,.next),(1,.next)]

/-- The save has loaded the member before the reset marks the address. -/
def staleMarkSchedule : List (ClientId × Input) :=
  (2,saveNew)::forgotSteps++redeemSteps "old"++[(2,.next),(2,.next)]

/-- The token is stored and mailed after the trigger has run, before the save commits. -/
def lateTokenSchedule : List (ClientId × Input) :=
  [(2,saveNew),(2,.next)]++forgotSteps++[(2,.next)]++redeemSteps "new"

/-- Each time the new address is marked, and only the old one got a token. -/
theorem unverified_address : StartOfAuth memberWorld ∧
    ∀ schedule ∈ [lateResetSchedule,staleMarkSchedule,lateTokenSchedule], ∃ w,
      (authProgram sampleSettings).interleave.run memberWorld schedule=some w ∧
        ¬ VerifiedAddress w.shared.accounts := by
  have hnew : ∀ {a : Accounts} {mark : Option Timestamp} {hashed : Option PasswordHash},
      a.members.get? 1=some ⟨some "new",mark,hashed,false⟩ → mark.isSome →
      a.mails=[⟨3,1,"old"⟩] → ¬ VerifiedAddress a := by
    intro a mark hashed hm hmark hmails hverified
    obtain ⟨address,token,hemail,hmail,-⟩ := hverified 1 _ hm hmark
    rw [hmails] at hmail
    cases hemail
    simp at hmail
  refine ⟨memberWorld_start,?_⟩
  intro schedule hschedule
  simp only [List.mem_cons,List.not_mem_nil,or_false] at hschedule
  rcases hschedule with rfl | rfl | rfl
  · exact ⟨_,rfl,hnew rfl rfl rfl⟩
  · exact ⟨_,rfl,hnew rfl rfl rfl⟩
  · exact ⟨_,rfl,hnew rfl rfl rfl⟩

end VbApi.Auth
