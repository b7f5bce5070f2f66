import VbApi.Auth.AuthEffects

/-! Reset tokens over all runs: a stored token is fresh when it is stored, its row never changes, and
a client that holds a token knows the row it found. -/
namespace VbApi.Auth
open VbApi.Foundations

/-- Ids and tokens that are in use were drawn before. -/
structure TokensFresh (a : Accounts) (nextId : ℕ) : Prop where
  rows : ∀ id row, a.resetTokens.get? id=some row → id < nextId ∧ row.tokenHash.secret < nextId
  mails : ∀ mail ∈ a.mails, mail.token < nextId
  redemptions : ∀ r ∈ a.redemptions, r.token < nextId

/-- A presented token: if it is stored, it was mailed. -/
structure Presented (a : Accounts) (nextId : ℕ) (token : Secret) : Prop where
  drawn : token < nextId
  mailed : ∀ id row, a.resetTokens.get? id=some row → row.tokenHash=hashResetToken token →
    ∃ mail ∈ a.mails, mail.token=token

/-- The row of a reset, as long as it is there. -/
structure EntryOf (a : Accounts) (nextId : ℕ) (memberId entry : Uuid) (token : Secret) : Prop where
  drawn : entry < nextId
  row : ∀ row, a.resetTokens.get? entry=some row →
    row.memberId=memberId ∧ row.tokenHash=hashResetToken token

def TokenPlace (a : Accounts) (nextId : ℕ) : Place → Prop
  | .forgotMail memberId token => token < nextId ∧ ∀ id row, a.resetTokens.get? id=some row →
      row.tokenHash=hashResetToken token → row.memberId=memberId
  | .resetSelect _ token _ => Presented a nextId token
  | .resetSessions memberId entry token _ =>
    Presented a nextId token ∧ EntryOf a nextId memberId entry token
  | .resetDelete memberId entry token _ _ _ =>
    Presented a nextId token ∧ EntryOf a nextId memberId entry token
  | _ => True

/-- What any step leaves of the tokens: rows are inserted under a new id with a new token, or go. -/
structure TokensEvolve (a : Accounts) (nextId : ℕ) (a' : Accounts) (nextId' : ℕ) : Prop where
  next : nextId ≤ nextId'
  rows : ∀ id row, a'.resetTokens.get? id=some row →
    a.resetTokens.get? id=some row ∨ nextId ≤ id ∧ nextId ≤ row.tokenHash.secret
  mails : ∀ mail ∈ a.mails, mail ∈ a'.mails

lemma TokensEvolve.of_le (a : Accounts) {nextId nextId' : ℕ} (h : nextId ≤ nextId') :
    TokensEvolve a nextId a nextId' := ⟨h,fun _ _ hrow => .inl hrow,fun _ hmail => hmail⟩

/-- Only rows go. -/
lemma TokensEvolve.of_subset {a a' : Accounts} {nextId nextId' : ℕ} (h : nextId ≤ nextId')
    (hrows : ∀ id row, a'.resetTokens.get? id=some row → a.resetTokens.get? id=some row)
    (hmails : a'.mails=a.mails) : TokensEvolve a nextId a' nextId' :=
  ⟨h,fun id row hrow => .inl (hrows id row hrow),fun mail hmail => by rw [hmails]; exact hmail⟩

lemma get?_of_eraseAll {ν : Type*} {d : Dict Uuid ν} {ids : List Uuid} {id : Uuid} {v : ν}
    (h : (d.eraseAll ids).get? id=some v) : d.get? id=some v :=
  ((d.get?_eraseAll_eq_some_iff ids id v).mp h).2

lemma get?_of_erase {ν : Type*} {d : Dict Uuid ν} {id id' : Uuid} {v : ν}
    (h : (d.erase id').get? id=some v) : d.get? id=some v := get?_of_eraseAll h

lemma AccountsEffect.evolve {s : AuthState} {input : Input} {place place' : Place} {a' : Accounts}
    {nextId' : ℕ} (h : AccountsEffect s input place a' nextId' place') :
    TokensEvolve s.accounts s.nextId a' nextId' := by
  cases h with
  | quiet hnext => exact .of_le _ hnext
  | @insertToken memberId startedAt deleted honly =>
    refine ⟨Nat.le_add_right _ 2,?_,fun _ hmail => hmail⟩
    intro id row hrow
    rw [Accounts.insertToken,Dict.get?_set] at hrow
    split_ifs at hrow with hid
    · cases hrow
      exact .inr ⟨hid.ge,Nat.le_succ _⟩
    · exact .inl (get?_of_eraseAll hrow)
  | sendMail => exact ⟨le_rfl,fun _ _ hrow => .inl hrow,fun _ hmail => List.mem_cons_of_mem _ hmail⟩
  | present => exact .of_le _ (le_max_left _ _)
  | redeem => exact .of_subset (Nat.le_succ _) (fun _ _ hrow => get?_of_erase hrow) rfl
  | eraseToken => exact .of_subset le_rfl (fun _ _ hrow => get?_of_erase hrow) rfl
  | updateMember => exact .of_subset le_rfl (fun _ _ hrow => get?_of_eraseAll hrow) rfl
  | _ => exact .of_le _ le_rfl

section Evolve
variable {a a' : Accounts} {nextId nextId' : ℕ} (h : TokensEvolve a nextId a' nextId')
include h

lemma Presented.evolve {token : Secret} (hp : Presented a nextId token) :
    Presented a' nextId' token := by
  refine ⟨hp.drawn.trans_le h.next,?_⟩
  intro id row hrow hhash
  rcases h.rows id row hrow with hold | ⟨-,hnew⟩
  · obtain ⟨mail,hmail,heq⟩ := hp.mailed id row hold hhash
    exact ⟨mail,h.mails mail hmail,heq⟩
  · rw [hhash] at hnew
    exact absurd hp.drawn (not_lt.mpr hnew)

lemma EntryOf.evolve {memberId entry : Uuid} {token : Secret}
    (he : EntryOf a nextId memberId entry token) : EntryOf a' nextId' memberId entry token := by
  refine ⟨he.drawn.trans_le h.next,?_⟩
  intro row hrow
  rcases h.rows entry row hrow with hold | ⟨hnew,-⟩
  · exact he.row row hold
  · exact absurd he.drawn (not_lt.mpr hnew)

/-- The place of a client stays true whatever the others do. -/
lemma TokenPlace.evolve {place : Place} (hp : TokenPlace a nextId place) :
    TokenPlace a' nextId' place := by
  cases place with
  | forgotMail memberId token =>
    obtain ⟨hdrawn,hrows⟩ := hp
    refine ⟨hdrawn.trans_le h.next,?_⟩
    intro id row hrow hhash
    rcases h.rows id row hrow with hold | ⟨-,hnew⟩
    · exact hrows id row hold hhash
    · rw [hhash] at hnew
      exact absurd hdrawn (not_lt.mpr hnew)
  | resetSelect memberId token newPassword => exact Presented.evolve h hp
  | resetSessions memberId entry token newPassword =>
    exact ⟨Presented.evolve h hp.1,EntryOf.evolve h hp.2⟩
  | resetDelete memberId entry token newPassword pending deleted =>
    exact ⟨Presented.evolve h hp.1,EntryOf.evolve h hp.2⟩
  | _ => trivial

end Evolve

lemma TokenPlace.of_not_holds {a : Accounts} {nextId : ℕ} {place : Place}
    (h : ¬ place.HoldsToken) : TokenPlace a nextId place := by
  cases place <;> first | trivial | exact absurd trivial h

/-- Every step keeps the tokens fresh and tells its client what it knows. -/
lemma AccountsEffect.tokens {s : AuthState} {input : Input} {place place' : Place} {a' : Accounts}
    {nextId' : ℕ} (h : AccountsEffect s input place a' nextId' place')
    (hs : TokensFresh s.accounts s.nextId) (hp : TokenPlace s.accounts s.nextId place) :
    TokensFresh a' nextId' ∧ TokenPlace a' nextId' place' := by
  have hmono : ∀ {nextId}, s.nextId ≤ nextId → TokensFresh s.accounts nextId := fun hle =>
    ⟨fun id row hrow => ⟨(hs.rows id row hrow).1.trans_le hle,(hs.rows id row hrow).2.trans_le hle⟩,
      fun mail hmail => (hs.mails mail hmail).trans_le hle,
      fun r hr => (hs.redemptions r hr).trans_le hle⟩
  cases h with
  | quiet hnext hplace => exact ⟨hmono hnext,.of_not_holds hplace⟩
  | stay => exact ⟨hs,hp⟩
  | @insertToken memberId startedAt deleted honly =>
    have hold := hmono (Nat.le_add_right s.nextId 2)
    refine ⟨⟨?_,hold.mails,hold.redemptions⟩,Nat.lt_succ_self _,?_⟩
    · intro id row hrow
      rw [Accounts.insertToken,Dict.get?_set] at hrow
      split_ifs at hrow with hid
      · cases hrow
        exact ⟨hid.trans_lt (Nat.lt_add_of_pos_right (by decide)),Nat.lt_succ_self _⟩
      · exact hold.rows id row (get?_of_eraseAll hrow)
    · intro id row hrow hhash
      rw [Accounts.insertToken,Dict.get?_set] at hrow
      split_ifs at hrow with hid
      · cases hrow
        rfl
      · have hlt := (hs.rows id row (get?_of_eraseAll hrow)).2
        rw [hhash] at hlt
        exact absurd hlt (not_lt.mpr (Nat.le_succ _))
  | sendMail =>
    refine ⟨⟨hs.rows,?_,hs.redemptions⟩,trivial⟩
    intro mail hmail
    rcases List.mem_cons.mp hmail with rfl | hmail
    · exact hp.1
    · exact hs.mails mail hmail
  | @present memberId token newPassword hmay =>
    refine ⟨hmono (le_max_left _ _),(Nat.lt_succ_self _).trans_le (le_max_right _ _),?_⟩
    intro id row hrow hhash
    apply hmay
    rw [Dict.find?,List.find?_isSome]
    exact ⟨(id,row),(Dict.get?_eq_some_iff _ _ _).mp hrow,by simpa using hhash⟩
  | @select memberId entry token newPassword row hrow hmember hhash =>
    refine ⟨hs,hp,(hs.rows entry row hrow).1,?_⟩
    intro row' hrow'
    rw [hrow] at hrow'
    cases hrow'
    exact ⟨hmember,hhash⟩
  | startDelete => exact ⟨hs,hp⟩
  | delete => exact ⟨hs,hp⟩
  | @redeem memberId entry token newPassword deleted m _ hm =>
    have hold := hmono (Nat.le_succ s.nextId)
    refine ⟨⟨fun id row hrow => hold.rows id row (get?_of_erase hrow),hold.mails,?_⟩,trivial⟩
    intro r hr
    rcases List.mem_cons.mp hr with rfl | hr
    · exact hp.1.drawn.trans (Nat.lt_succ_self _)
    · exact hold.redemptions r hr
  | eraseToken =>
    exact ⟨⟨fun id row hrow => hs.rows id row (get?_of_erase hrow),hs.mails,hs.redemptions⟩,trivial⟩
  | updateMember =>
    exact ⟨⟨fun id row hrow => hs.rows id row (get?_of_eraseAll hrow),hs.mails,hs.redemptions⟩,
      trivial⟩

end VbApi.Auth
