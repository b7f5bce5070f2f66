import VbApi.Auth.PasswordReset

/-! Rotation of refresh secrets. The row lock of a refresh keeps the session as it was checked until the
new secret is written. -/
namespace VbApi.Auth
open VbApi.Foundations

/-- A refresh that had the row locked now would be accepted. -/
def WouldAccept (settings : Settings) (s : AuthState) (jti : SessionId) (secret : Secret) : Prop :=
  ∃ row, s.sessions.rows.get? jti=some row ∧ acceptsRefresh settings s row secret

lemma acceptsRefresh_hash {settings : Settings} {s : AuthState} {row : AuthSession} {secret : Secret}
    (h : acceptsRefresh settings s row secret) :
    row.refreshTokenHash=some (hashRefreshSecret secret) := by
  simp only [acceptsRefresh,Bool.and_eq_true] at h
  obtain ⟨⟨hvalid,-⟩,-⟩ := h
  unfold validateRefreshToken at hvalid
  split at hvalid
  · contradiction
  · rename_i hashed hhash
    rw [hhash]
    simpa [verifyRefreshSecret,eq_comm] using hvalid

/-- The current secret of a session is unspent; what is in use was drawn before. -/
structure RotationInvariant (ss : Sessions) (nextId : ℕ) : Prop where
  rows : ∀ jti row, ss.rows.get? jti=some row → jti < nextId ∧
    ∀ hashed ∈ row.refreshTokenHash, hashed.secret < nextId
  accepted : ∀ p ∈ ss.accepted, p.1 < nextId ∧ p.2 < nextId
  unspent : ∀ p ∈ ss.accepted, ∀ row, ss.rows.get? p.1=some row →
    row.refreshTokenHash ≠ some (hashRefreshSecret p.2)
  once : ss.accepted.Nodup
  allowed : ∀ p ∈ ss.allowed, p ∈ ss.found

/-- A client holds the session that it is about to change, and remembers the check it makes. -/
def RotationPlace (c : ClientId) (ss : Sessions) (locks : Locks RowKey) : Place → Prop
  | .resetDelete _ _ _ _ _ deleted => ∀ jti ∈ deleted, locks (.session jti)=some c
  | .refreshCheck jti _ => locks (.session jti)=some c ∧ ∃ row, ss.rows.get? jti=some row
  | .refreshRotate jti secret _ => locks (.session jti)=some c ∧
    ∃ row, ss.rows.get? jti=some row ∧ row.refreshTokenHash=some (hashRefreshSecret secret)
  | .accessTouch check token _ _ => (check,token.jti) ∈ ss.found
  | .accessMember check token _ _ => (check,token.jti) ∈ ss.found
  | .accessReload check jti _ _ => (check,jti) ∈ ss.found
  | _ => True

/-- What a step of one client leaves to the others. -/
structure SessionsEvolve (c : ClientId) (ss : Sessions) (locks : Locks RowKey) (ss' : Sessions)
    (locks' : Locks RowKey) : Prop where
  kept : locks.KeptBut c locks'
  rows : ∀ c' jti row, c' ≠ c → locks (.session jti)=some c' → ss.rows.get? jti=some row →
    ss'.rows.get? jti=some row
  found : ∀ p ∈ ss.found, p ∈ ss'.found

lemma RotationPlace.evolve {c c' : ClientId} (hc : c' ≠ c) {ss ss' : Sessions}
    {locks locks' : Locks RowKey} (h : SessionsEvolve c ss locks ss' locks') {place : Place}
    (hp : RotationPlace c' ss locks place) : RotationPlace c' ss' locks' place := by
  cases place with
  | resetDelete memberId entry token newPassword pending deleted =>
    exact fun jti hjti => h.kept c' _ hc (hp jti hjti)
  | refreshCheck jti secret =>
    obtain ⟨hlock,row,hrow⟩ := hp
    exact ⟨h.kept c' _ hc hlock,row,h.rows c' jti row hc hlock hrow⟩
  | refreshRotate jti secret now =>
    obtain ⟨hlock,row,hrow,hhash⟩ := hp
    exact ⟨h.kept c' _ hc hlock,row,h.rows c' jti row hc hlock hrow,hhash⟩
  | accessTouch check token memberId now => exact h.found _ hp
  | accessMember check token memberId touched => exact h.found _ hp
  | accessReload check jti memberId locked => exact h.found _ hp
  | _ => trivial

lemma RotationPlace.of_not_holds {c : ClientId} {ss : Sessions} {locks : Locks RowKey}
    {place : Place} (h : ¬ place.HoldsSession) : RotationPlace c ss locks place := by
  cases place <;> first | trivial | exact absurd trivial h

section Evolve
variable {c : ClientId} {ss : Sessions} {locks locks' : Locks RowKey}

lemma SessionsEvolve.refl : SessionsEvolve c ss locks ss locks :=
  ⟨.refl c locks,fun _ _ _ _ _ hrow => hrow,fun _ hp => hp⟩

lemma SessionsEvolve.of_locks (h : locks.KeptBut c locks') : SessionsEvolve c ss locks ss locks' :=
  ⟨h,fun _ _ _ _ _ hrow => hrow,fun _ hp => hp⟩

/-- Sessions that nobody else holds may go. -/
lemma SessionsEvolve.endSessions (h : locks.KeptBut c locks') {jtis : List SessionId}
    (hfree : ∀ jti ∈ jtis, locks.FreeFor c (.session jti)) :
    SessionsEvolve c ss locks (ss.endSessions jtis) locks' := by
  refine ⟨h,?_,fun _ hp => hp⟩
  intro c' jti row hc hlock hrow
  refine (Dict.get?_eraseAll_eq_some_iff _ _ _ _).mpr ⟨?_,hrow⟩
  exact fun hjti => (hfree jti hjti).ne_of_held hc hlock

/-- A session that nobody else holds may change. -/
lemma SessionsEvolve.setRow {ss' : Sessions} {jti : SessionId} {row' : AuthSession}
    (hrows : ss'.rows=ss.rows.set jti row') (hfound : ss'.found=ss.found)
    (h : locks.KeptBut c locks') (hfree : locks.FreeFor c (.session jti)) :
    SessionsEvolve c ss locks ss' locks' := by
  refine ⟨h,?_,fun p hp => by rw [hfound]; exact hp⟩
  intro c' jti' row hc hlock hrow
  have hne : jti' ≠ jti := by
    rintro rfl
    exact hfree.ne_of_held hc hlock
  rw [hrows,Dict.get?_set_of_ne _ hne]
  exact hrow

lemma freeFor_of_held {key : RowKey} (h : locks key=some c) : locks.FreeFor c key := by
  intro c' hc'
  rw [h] at hc'
  exact (Option.some.inj hc').symm

end Evolve

section Steps
variable {settings : Settings} {c : ClientId} {s : AuthState} {input : Input} {place place' : Place}
  {ss' : Sessions} {locks' : Locks RowKey} {nextId' : ℕ}

lemma SessionsEffect.evolve (h : SessionsEffect settings c s input place ss' locks' nextId' place')
    (hs : RotationInvariant s.sessions s.nextId) (hp : RotationPlace c s.sessions s.locks place) :
    SessionsEvolve c s.sessions s.locks ss' locks' := by
  have hkept := Locks.KeptBut.refl c s.locks
  have hreleased := Locks.KeptBut.release c s.locks
  cases h with
  | quiet hlocks => exact .of_locks hlocks
  | openSession =>
    refine ⟨hkept,?_,fun _ hp => hp⟩
    intro c' jti row hc _ hrow
    have hne : jti ≠ s.nextId := (hs.rows jti row hrow).1.ne
    exact (Dict.get?_set_of_ne _ hne _).trans hrow
  | delete hfree => exact .of_locks (.acquire fun key hkey => by rwa [List.mem_singleton.mp hkey])
  | redeem => exact .endSessions hreleased fun jti hjti => freeFor_of_held (hp jti hjti)
  | lock _ hfree => exact .of_locks (.acquire fun key hkey => by rwa [List.mem_singleton.mp hkey])
  | endRefused =>
    have hended : SessionsEvolve c s.sessions s.locks (s.sessions.endSessions [_]) _ :=
      .endSessions hreleased fun jti hjti => by
        rw [List.mem_singleton.mp hjti]
        exact freeFor_of_held hp.1
    exact ⟨hended.kept,hended.rows,hended.found⟩
  | rotate => exact .setRow rfl rfl hreleased (freeFor_of_held hp.1)
  | endSession hfree =>
    exact .endSessions hkept fun jti hjti => by rwa [List.mem_singleton.mp hjti]
  | find => exact ⟨hkept,fun _ _ _ _ _ hrow => hrow,fun _ hp => List.mem_cons_of_mem _ hp⟩
  | touch _ hfree => exact .setRow rfl rfl hkept hfree
  | _ => exact ⟨hkept,fun _ _ _ _ _ hrow => hrow,fun _ hp => hp⟩

/-- The next step of the client finds what it remembers. -/
lemma SessionsEffect.ownPlace (h : SessionsEffect settings c s input place ss' locks' nextId' place')
    (hp : RotationPlace c s.sessions s.locks place) : RotationPlace c ss' locks' place' := by
  cases h with
  | quiet _ _ hplace => exact .of_not_holds hplace
  | stay => exact hp
  | startDelete => exact nofun
  | pass => exact hp
  | @delete _ _ _ _ jti pending deleted =>
    intro jti' hjti'
    simp only [Locks.acquire]
    split_ifs with hnew
    · rfl
    · rcases List.mem_cons.mp hjti' with rfl | hold
      · exact absurd (List.mem_singleton_self _) hnew
      · exact hp jti' hold
  | lock hrow => exact ⟨Locks.acquire_self _ _ _,_,hrow⟩
  | accept hrow haccepts => exact ⟨hp.1,_,hrow,acceptsRefresh_hash haccepts⟩
  | find hrow hplace =>
    rcases hplace with rfl | rfl | rfl
    · trivial
    · exact List.mem_cons_self
    · exact List.mem_cons_self
  | touch => exact hp
  | reload => exact hp
  | _ => trivial

lemma RotationInvariant.mono {ss : Sessions} {nextId nextId' : ℕ} (h : RotationInvariant ss nextId)
    (hle : nextId ≤ nextId') : RotationInvariant ss nextId' := by
  refine ⟨?_,?_,h.unspent,h.once,h.allowed⟩
  · intro jti row hrow
    obtain ⟨hjti,hsecret⟩ := h.rows jti row hrow
    exact ⟨hjti.trans_le hle,fun hashed hh => (hsecret hashed hh).trans_le hle⟩
  · exact fun p hp => ⟨(h.accepted p hp).1.trans_le hle,(h.accepted p hp).2.trans_le hle⟩

/-- Rows may go, or change without their secret. -/
lemma RotationInvariant.of_rows {ss ss' : Sessions} {nextId : ℕ} (h : RotationInvariant ss nextId)
    (hrows : ∀ jti row', ss'.rows.get? jti=some row' →
      ∃ row, ss.rows.get? jti=some row ∧ row'.refreshTokenHash=row.refreshTokenHash)
    (haccepted : ss'.accepted=ss.accepted) (hallowed : ∀ p ∈ ss'.allowed, p ∈ ss'.found) :
    RotationInvariant ss' nextId := by
  refine ⟨?_,?_,?_,?_,hallowed⟩
  · intro jti row' hrow'
    obtain ⟨row,hrow,hhash⟩ := hrows jti row' hrow'
    rw [hhash]
    exact h.rows jti row hrow
  · rw [haccepted]
    exact h.accepted
  · intro p hp row' hrow'
    rw [haccepted] at hp
    obtain ⟨row,hrow,hhash⟩ := hrows _ row' hrow'
    rw [hhash]
    exact h.unspent p hp row hrow
  · rw [haccepted]
    exact h.once

lemma RotationInvariant.openSession {ss : Sessions} {nextId : ℕ} (h : RotationInvariant ss nextId)
    (memberId : Uuid) (clock startedAt : Timestamp) (verified : PasswordHash) :
    RotationInvariant (ss.openSession nextId
      ⟨memberId,some (hashRefreshSecret (nextId+1)),clock,startedAt⟩ verified) (nextId+2) := by
  have hmono := h.mono (Nat.le_add_right nextId 2)
  refine ⟨?_,hmono.accepted,?_,h.once,h.allowed⟩
  · intro jti row hrow
    rcases get?_set_cases hrow with ⟨rfl,rfl⟩ | ⟨-,hold⟩
    · refine ⟨Nat.lt_add_of_pos_right (by decide),?_⟩
      intro hashed hh
      cases hh
      exact Nat.lt_succ_self _
    · exact hmono.rows jti row hold
  · intro p hp row hrow
    rcases get?_set_cases hrow with ⟨heq,-⟩ | ⟨-,hold⟩
    · exact absurd (h.accepted p hp).1 (by rw [heq]; exact lt_irrefl _)
    · exact h.unspent p hp row hold

lemma RotationInvariant.rotate {ss : Sessions} {nextId : ℕ} (h : RotationInvariant ss nextId)
    {jti : SessionId} {row : AuthSession} {secret : Secret} (hrow : ss.rows.get? jti=some row)
    (hhash : row.refreshTokenHash=some (hashRefreshSecret secret)) (now : Timestamp) :
    RotationInvariant (ss.rotate jti row secret nextId now) (nextId+1) := by
  have hmono := h.mono (Nat.le_succ nextId)
  obtain ⟨hjti,hsecret⟩ := h.rows jti row hrow
  refine ⟨?_,?_,?_,?_,h.allowed⟩
  · intro jti' row' hrow'
    rcases get?_set_cases hrow' with ⟨rfl,rfl⟩ | ⟨-,hold⟩
    · refine ⟨hjti.trans (Nat.lt_succ_self _),?_⟩
      intro hashed hh
      cases hh
      exact Nat.lt_succ_self _
    · exact hmono.rows jti' row' hold
  · intro p hp
    rcases List.mem_cons.mp hp with rfl | hp
    · exact ⟨hjti.trans (Nat.lt_succ_self _),(hsecret _ hhash).trans (Nat.lt_succ_self _)⟩
    · exact hmono.accepted p hp
  · intro p hp row' hrow'
    have hlt : p.2 < nextId := by
      rcases List.mem_cons.mp hp with rfl | hp
      · exact hsecret _ hhash
      · exact (h.accepted p hp).2
    rcases get?_set_cases hrow' with ⟨-,rfl⟩ | ⟨hne,hold⟩
    · intro heq
      have hsame : nextId=p.2 := Digest.mk.inj (Option.some.inj heq)
      exact hlt.ne hsame.symm
    · rcases List.mem_cons.mp hp with rfl | hp
      · exact absurd rfl hne
      · exact h.unspent p hp row' hold
  · refine List.nodup_cons.mpr ⟨?_,h.once⟩
    exact fun hspent => h.unspent (jti,secret) hspent row hrow hhash

/-- Every step keeps the rotation in order. -/
lemma SessionsEffect.rotation
    (h : SessionsEffect settings c s input place ss' locks' nextId' place')
    (hs : RotationInvariant s.sessions s.nextId) (hp : RotationPlace c s.sessions s.locks place) :
    RotationInvariant ss' nextId' := by
  cases h with
  | quiet _ hnext => exact hs.mono hnext
  | openSession => exact hs.openSession _ _ _ _
  | redeem =>
    refine (hs.mono (Nat.le_succ _)).of_rows ?_ rfl hs.allowed
    exact fun _ row hrow => ⟨row,get?_of_eraseAll hrow,rfl⟩
  | endRefused => exact hs.of_rows (fun _ row hrow => ⟨row,get?_of_eraseAll hrow,rfl⟩) rfl hs.allowed
  | endSession => exact hs.of_rows (fun _ row hrow => ⟨row,get?_of_eraseAll hrow,rfl⟩) rfl hs.allowed
  | rotate hrow =>
    obtain ⟨-,row,hrow',hhash⟩ := hp
    rw [hrow] at hrow'
    cases hrow'
    exact hs.rotate hrow hhash _
  | find =>
    refine (hs.mono (Nat.le_succ _)).of_rows (fun _ row hrow => ⟨row,hrow,rfl⟩) rfl ?_
    exact fun p hp => List.mem_cons_of_mem _ (hs.allowed p hp)
  | @touch check token memberId now row hrow =>
    refine hs.of_rows ?_ rfl hs.allowed
    intro jti row' hrow'
    rcases get?_set_cases hrow' with ⟨rfl,rfl⟩ | ⟨-,hold⟩
    · exact ⟨row,hrow,rfl⟩
    · exact ⟨row',hold,rfl⟩
  | allowMember =>
    refine hs.of_rows (fun _ row hrow => ⟨row,hrow,rfl⟩) rfl ?_
    intro p hp'
    rcases List.mem_cons.mp hp' with rfl | hold
    · exact hp
    · exact hs.allowed p hold
  | allowReload =>
    refine hs.of_rows (fun _ row hrow => ⟨row,hrow,rfl⟩) rfl ?_
    intro p hp'
    rcases List.mem_cons.mp hp' with rfl | hold
    · exact hp
    · exact hs.allowed p hold
  | refuse => exact hs.of_rows (fun _ row hrow => ⟨row,hrow,rfl⟩) rfl hs.allowed
  | _ => exact hs

/-- A session that is gone: it does not come back, and nothing of it is accepted or found. -/
structure StaysGone (jti : SessionId) (ss ss' : Sessions) : Prop where
  rows : ss'.rows.get? jti=none
  accepted : ∀ secret, (jti,secret) ∈ ss'.accepted → (jti,secret) ∈ ss.accepted
  found : ∀ check, (check,jti) ∈ ss'.found → (check,jti) ∈ ss.found

lemma get?_set_eq_none {ν : Type*} {d : Dict Uuid ν} {id id' : Uuid} {v : ν}
    (h : d.get? id=none) (hne : id ≠ id') : (d.set id' v).get? id=none :=
  (Dict.get?_set_of_ne _ hne _).trans h

lemma get?_eraseAll_eq_none {ν : Type*} {d : Dict Uuid ν} {id : Uuid} (ids : List Uuid)
    (h : d.get? id=none) : (d.eraseAll ids).get? id=none := by
  by_contra hsome
  obtain ⟨v,hv⟩ := Option.ne_none_iff_exists'.mp hsome
  rw [get?_of_eraseAll hv] at h
  contradiction

lemma SessionsEffect.staysGone
    (h : SessionsEffect settings c s input place ss' locks' nextId' place') {jti : SessionId}
    (hlt : jti < s.nextId) (hgone : s.sessions.rows.get? jti=none) :
    StaysGone jti s.sessions ss' ∧ jti < nextId' := by
  have hrefl : ∀ {ss : Sessions}, ss.rows.get? jti=none → ss.accepted=s.sessions.accepted →
      ss.found=s.sessions.found → StaysGone jti s.sessions ss := by
    intro ss hrows haccepted hfound
    exact ⟨hrows,fun secret hsecret => by rwa [haccepted] at hsecret,
      fun check hcheck => by rwa [hfound] at hcheck⟩
  have hne : ∀ {jti' row}, s.sessions.rows.get? jti'=some row → jti ≠ jti' := by
    rintro jti' row hrow rfl
    rw [hgone] at hrow
    contradiction
  cases h with
  | quiet _ hnext => exact ⟨hrefl hgone rfl rfl,hlt.trans_le hnext⟩
  | openSession =>
    exact ⟨hrefl (get?_set_eq_none hgone hlt.ne) rfl rfl,hlt.trans (Nat.lt_add_of_pos_right (by decide))⟩
  | redeem => exact ⟨hrefl (get?_eraseAll_eq_none _ hgone) rfl rfl,hlt.trans (Nat.lt_succ_self _)⟩
  | endRefused => exact ⟨hrefl (get?_eraseAll_eq_none _ hgone) rfl rfl,hlt⟩
  | rotate hrow =>
    refine ⟨⟨get?_set_eq_none hgone (hne hrow),?_,fun _ hcheck => hcheck⟩,
      hlt.trans (Nat.lt_succ_self _)⟩
    intro secret hsecret
    rcases List.mem_cons.mp hsecret with heq | hold
    · cases heq
      exact absurd rfl (hne hrow)
    · exact hold
  | endSession => exact ⟨hrefl (get?_eraseAll_eq_none _ hgone) rfl rfl,hlt⟩
  | find hrow =>
    refine ⟨⟨hgone,fun _ hsecret => hsecret,?_⟩,hlt.trans (Nat.lt_succ_self _)⟩
    intro check hcheck
    rcases List.mem_cons.mp hcheck with heq | hold
    · cases heq
      exact absurd rfl (hne hrow)
    · exact hold
  | touch hrow => exact ⟨hrefl (get?_set_eq_none hgone (hne hrow)) rfl rfl,hlt⟩
  | _ => exact ⟨hrefl hgone rfl rfl,hlt⟩

/-- Whoever is refused leaves no session behind. -/
lemma SessionsEffect.refused
    (h : SessionsEffect settings c s input place ss' locks' nextId' place') (p : SessionId × Secret) :
    ss'.refused.count p=s.sessions.refused.count p ∨ ss'.rows.get? p.1=none := by
  cases h with
  | @refuse jti secret hgone =>
    by_cases heq : (jti,secret)=p
    · subst heq
      exact .inr hgone
    · exact .inl (List.count_cons_of_ne heq)
  | @endRefused jti secret =>
    by_cases heq : (jti,secret)=p
    · subst heq
      refine .inr ?_
      by_contra hsome
      obtain ⟨row,hrow⟩ := Option.ne_none_iff_exists'.mp hsome
      have hleft := ((Dict.get?_eraseAll_eq_some_iff _ _ _ _).mp hrow).1
      exact hleft (List.mem_singleton_self _)
    · exact .inl (List.count_cons_of_ne heq)
  | _ => exact .inl rfl

end Steps

/-- Nothing of the session is accepted from here on, but for checks that have already found it. -/
def SessionOver (settings : Settings) (jti : SessionId) (w : World AuthState Place) : Prop :=
  ∀ w', (authProgram settings).interleave.Reaches Machine.Any w w' →
    w'.shared.sessions.rows.get? jti=none ∧
    (∀ secret, ¬ WouldAccept settings w'.shared jti secret) ∧
    (∀ secret, (jti,secret) ∈ w'.shared.sessions.accepted →
      (jti,secret) ∈ w.shared.sessions.accepted) ∧
    ∀ check, (check,jti) ∈ w'.shared.sessions.allowed → (check,jti) ∈ w.shared.sessions.found

/-- The rotation invariant of the shared state and of every client. -/
abbrev RotationHolds : World AuthState Place → Prop :=
  Program.Holds (fun s => RotationInvariant s.sessions s.nextId)
    fun c s place => RotationPlace c s.sessions s.locks place

lemma StartOfAuth.rotationHolds {w : World AuthState Place} (h : StartOfAuth w) :
    RotationHolds w := by
  constructor
  · constructor <;> simp [h.sessions]
  · intro c
    rw [h.idle c]
    trivial

lemma RotationHolds.of_reaches {settings : Settings} {w w' : World AuthState Place}
    (h : RotationHolds w) (hrun : (authProgram settings).interleave.Reaches Machine.Any w w') :
    RotationHolds w' := by
  refine Program.Holds.of_reaches hrun h ?_ ?_
  · intro w c input s place hw _ hstep
    have heffect := authProgram_sessions hstep
    exact ⟨heffect.rotation hw.shared (hw.clients c),heffect.ownPlace (hw.clients c)⟩
  · intro w c input s place c' hw _ hstep hc
    exact (hw.clients c').evolve hc ((authProgram_sessions hstep).evolve hw.shared (hw.clients c))

lemma sessionOver_of_gone {settings : Settings} {jti : SessionId} {w : World AuthState Place}
    (h : RotationHolds w) (hlt : jti < w.shared.nextId)
    (hgone : w.shared.sessions.rows.get? jti=none) : SessionOver settings jti w := by
  intro w' hrun
  have hw' := RotationHolds.of_reaches h hrun
  have hstays : StaysGone jti w.shared.sessions w'.shared.sessions ∧ jti < w'.shared.nextId := by
    refine hrun.invariant (I := fun t => StaysGone jti w.shared.sessions t.shared.sessions ∧
      jti < t.shared.nextId) ⟨⟨hgone,fun _ hx => hx,fun _ hx => hx⟩,hlt⟩ ?_
    rintro t ⟨c,input⟩ u ⟨ht,htlt⟩ _ hstep
    obtain ⟨s,place,hp,rfl⟩ := Program.interleave_step_eq_some.mp hstep
    obtain ⟨hu,hult⟩ := (authProgram_sessions hp).staysGone htlt ht.rows
    exact ⟨⟨hu.rows,fun x hx => ht.accepted x (hu.accepted x hx),
      fun k hk => ht.found k (hu.found k hk)⟩,hult⟩
  refine ⟨hstays.1.rows,?_,hstays.1.accepted,?_⟩
  · rintro secret ⟨row,hrow,-⟩
    rw [hstays.1.rows] at hrow
    contradiction
  · exact fun check hcheck => hstays.1.found check (hw'.shared.allowed _ hcheck)

/-- A secret that is refused once more has ended its session. -/
lemma sessionOver_of_refused {settings : Settings} {p : SessionId × Secret}
    {w w' : World AuthState Place} (h : RotationHolds w) (hspent : p ∈ w.shared.sessions.accepted)
    (hrun : (authProgram settings).interleave.Reaches Machine.Any w w')
    (hrefused : w.shared.sessions.refused.count p < w'.shared.sessions.refused.count p) :
    SessionOver settings p.1 w' := by
  have hlt := (h.shared.accepted p hspent).1
  have hgone : (w'.shared.sessions.refused.count p=w.shared.sessions.refused.count p ∨
      w'.shared.sessions.rows.get? p.1=none) ∧ p.1 < w'.shared.nextId := by
    refine hrun.invariant (I := fun t =>
      (t.shared.sessions.refused.count p=w.shared.sessions.refused.count p ∨
        t.shared.sessions.rows.get? p.1=none) ∧ p.1 < t.shared.nextId) ⟨.inl rfl,hlt⟩ ?_
    rintro t ⟨c,input⟩ u ⟨ht,htlt⟩ _ hstep
    obtain ⟨s,place,hp,rfl⟩ := Program.interleave_step_eq_some.mp hstep
    have heffect := authProgram_sessions hp
    rcases ht with hsame | hgone
    · refine ⟨?_,htlt.trans_le ?_⟩
      · rcases heffect.refused p with hkept | hgone
        · exact .inl (hkept.trans hsame)
        · exact .inr hgone
      · exact (authProgram_accounts hp).evolve.next
    · obtain ⟨hstays,hult⟩ := heffect.staysGone htlt hgone
      exact ⟨.inr hstays.rows,hult⟩
  rcases hgone with ⟨hsame | hgone,hlt'⟩
  · exact absurd hsame hrefused.ne'
  · exact sessionOver_of_gone (RotationHolds.of_reaches h hrun) hlt' hgone

/-- The check of a spent secret refuses it and deletes the session. -/
lemma refreshCheck_spent {settings : Settings} {w : World AuthState Place} (h : RotationHolds w)
    {jti : SessionId} {secret : Secret} (hspent : (jti,secret) ∈ w.shared.sessions.accepted)
    {c : ClientId} (hplace : w.clients c=.refreshCheck jti secret) :
    ∃ w', (authProgram settings).interleave.step w (c,.next)=some w' ∧
      w'.shared.sessions.refused=(jti,secret)::w.shared.sessions.refused ∧
      w'.shared.sessions.rows.get? jti=none := by
  have hown := h.clients c
  rw [hplace] at hown
  obtain ⟨-,row,hrow⟩ := hown
  have hrefuses : ¬ acceptsRefresh settings w.shared row secret := fun haccepts =>
    h.shared.unspent _ hspent row hrow (acceptsRefresh_hash haccepts)
  have hresume : authProgram settings c w.shared (w.clients c) .next=some ({ w.shared with
      sessions := (w.shared.sessions.endSessions [jti]).refuse jti secret
      locks := w.shared.locks.release c },.idle) := by
    rw [hplace]
    simp only [authProgram,resume,refreshCheck,hrow,if_neg hrefuses]
  refine ⟨_,Program.interleave_step_eq_some.mpr ⟨_,_,hresume,rfl⟩,rfl,?_⟩
  change (w.shared.sessions.rows.erase jti).get? jti=none
  rw [Dict.get?_erase,if_pos rfl]

/-- In every run a refresh secret is accepted at most once, at most one would be accepted, and it is
unspent. Whoever presents a spent one is refused, and then the session is over. -/
theorem refreshRotation {settings : Settings} {w₀ w : World AuthState Place}
    (hstart : StartOfAuth w₀)
    (hrun : (authProgram settings).interleave.Reaches Machine.Any w₀ w) :
    w.shared.sessions.accepted.Nodup ∧
    (∀ jti x y, WouldAccept settings w.shared jti x → WouldAccept settings w.shared jti y → x=y) ∧
    (∀ jti x, WouldAccept settings w.shared jti x → (jti,x) ∉ w.shared.sessions.accepted) ∧
    ∀ jti x, (jti,x) ∈ w.shared.sessions.accepted →
      (∀ c, w.clients c=.refreshCheck jti x → ∃ w',
        (authProgram settings).interleave.step w (c,.next)=some w' ∧
          w'.shared.sessions.refused=(jti,x)::w.shared.sessions.refused ∧
          w'.shared.sessions.rows.get? jti=none) ∧
      ∀ w', (authProgram settings).interleave.Reaches Machine.Any w w' →
        w.shared.sessions.refused.count (jti,x) < w'.shared.sessions.refused.count (jti,x) →
        SessionOver settings jti w' := by
  have hw := RotationHolds.of_reaches hstart.rotationHolds hrun
  refine ⟨hw.shared.once,?_,?_,?_⟩
  · rintro jti x y ⟨row,hrow,hx⟩ ⟨row',hrow',hy⟩
    rw [hrow] at hrow'
    cases hrow'
    have hsame := (acceptsRefresh_hash hx).symm.trans (acceptsRefresh_hash hy)
    exact Digest.mk.inj (Option.some.inj hsame)
  · rintro jti x ⟨row,hrow,hx⟩ hspent
    exact hw.shared.unspent _ hspent row hrow (acceptsRefresh_hash hx)
  · intro jti x hspent
    refine ⟨fun c hplace => refreshCheck_spent hw hspent hplace,?_⟩
    exact fun w' hrun' hrefused => sessionOver_of_refused hw hspent hrun' hrefused

/-- A login, a check of its access token up to the session's row, and a refresh. -/
def rotateSchedule : List (ClientId × Input) :=
  [loginStep [97],(2,.next),(3,.call (.authenticateAccessToken ⟨"old",2,1000⟩)),
    (1,.call (.refreshSession 2 3)),(1,.next),(1,.next)]

/-- The same refresh secret is presented again. -/
def replaySteps : List (ClientId × Input) := [(4,.call (.refreshSession 2 3)),(4,.next)]

theorem refreshRotation_replay : ∃ w w',
    (authProgram sampleSettings).interleave.run memberWorld rotateSchedule=some w ∧
      (authProgram sampleSettings).interleave.run w replaySteps=some w' ∧
      w.shared.sessions.accepted=[(2,3)] ∧ SessionOver sampleSettings 2 w' := by
  refine ⟨_,_,rfl,rfl,rfl,?_⟩
  refine ((refreshRotation memberWorld_start (Machine.reaches_of_run
    (Machine.meets_any memberWorld rotateSchedule) rfl)).2.2.2 2 3 List.mem_cons_self).2 _
    (Machine.reaches_of_run (Machine.meets_any _ replaySteps) rfl) ?_
  decide

/-- A check that has found the session lets its request through after the session has ended. -/
theorem access_after_end : StartOfAuth memberWorld ∧ ∃ w w' w'',
    (authProgram sampleSettings).interleave.run memberWorld rotateSchedule=some w ∧
      (authProgram sampleSettings).interleave.run w replaySteps=some w' ∧
      w.shared.sessions.accepted=[(2,3)] ∧ w'.shared.sessions.refused=[(2,3)] ∧
      w'.shared.sessions.rows.get? 2=none ∧ w'.shared.sessions.allowed=[] ∧
      (authProgram sampleSettings).interleave.run w' [(3,.next)]=some w'' ∧
      w''.shared.sessions.allowed=[(4,2)] :=
  ⟨memberWorld_start,_,_,_,rfl,rfl,rfl,rfl,rfl,rfl,rfl,rfl⟩

end VbApi.Auth
