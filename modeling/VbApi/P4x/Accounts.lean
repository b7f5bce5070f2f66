import VbApi.P4x.FilterHits

/-! The bank accounts: they are created, changed and set aside while transactions are imported into
them. Blanks do not make a different IBAN, and an account with transactions cannot be deleted. -/
namespace VbApi.P4x.Accounts
open VbApi.Foundations

/-- The columns of an account that the other finance tables do not read. -/
structure AccountTexts where
  iban : PyText
  bic : Option PyText
  label : Option PyText

/-- The finance tables with the texts of the accounts, by their ids. -/
structure Books where
  store : Store
  texts : Uuid → AccountTexts

/-- The IBAN without blanks. -/
def normalizedIban (iban : PyText) : PyText := iban.filter fun c => c ≠ codePoint ' '

def isCapital (c : CodePoint) : Bool := 65 ≤ c.val && c.val ≤ 90

/-- `[A-Za-z0-9]{1,11}`. -/
def bicRegex (bic : PyText) : Bool :=
  1 ≤ bic.length && bic.length ≤ 11 && bic.all fun c =>
    isCapital c || (97 ≤ c.val && c.val ≤ 122) || (asciiDigit? c).isSome

/-- `^[A-Z]{2}[0-9]{2}[A-Z0-9 ]{4,}$`, what the table accepts. -/
def ibanCheck (iban : PyText) : Bool :=
  match iban with
  | a::b::c::d::rest => isCapital a && isCapital b && (asciiDigit? c).isSome &&
      (asciiDigit? d).isSome && 4 ≤ rest.length && rest.all fun c =>
        isCapital c || (asciiDigit? c).isSome || c=codePoint ' '
  | _ => false

section Requests
variable (isAlnum : CodePoint → Bool)

/-- `[A-Z]{2}\d{2}\w{4,}`, what a request is checked for: any letters and decimal digits. -/
def ibanRegex (iban : PyText) : Bool :=
  match iban with
  | a::b::c::d::rest => isCapital a && isCapital b && (digit? c).isSome && (digit? d).isSome &&
      4 ≤ rest.length && rest.all fun c => isAlnum c || c=codePoint '_'
  | _ => false

/-- A validated request: its fields keep the bounds of the schema. -/
structure AccountSaveRequest (today : Date) where
  iban : PyText
  bic : PyText
  label : PyText
  initDate : Date
  initBalance : Cents
  iban_length : iban.length ≤ 34
  iban_format : ibanRegex isAlnum (normalizedIban iban)=true
  bic_format : bicRegex bic=true
  label_length : label.length ≤ 32
  init_date_floor : Date.of 2015 1 1 ≤ initDate
  init_date_past : initDate ≤ today
  init_balance_bound : |initBalance| ≤ 99999999900

end Requests

def isActive (a : P4xAccount) : Bool := a.deletedAt.isNone

/-- The values of the unique index, which deleted accounts are not in. -/
def activeIbans (b : Books) : List PyText :=
  (b.store.accounts.filter isActive).map fun a => normalizedIban (b.texts a.id).iban

def AccountRowValid (texts : AccountTexts) (a : P4xAccount) : Prop :=
  ibanCheck texts.iban=true ∧ (∀ bic ∈ texts.bic, bicRegex bic=true) ∧
  (∀ label ∈ texts.label, Storable label) ∧ InNumericRange a.initBalance

instance (texts : AccountTexts) (a : P4xAccount) : Decidable (AccountRowValid texts a) :=
  inferInstanceAs (Decidable (_ ∧ _))

/-- What the tables enforce, the accounts included. -/
def BookConstraints (b : Books) : Prop :=
  DbConstraints b.store ∧ (b.store.accounts.map (·.id)).Nodup ∧ (activeIbans b).Nodup ∧
  ∀ a ∈ b.store.accounts, AccountRowValid (b.texts a.id) a

instance (b : Books) : Decidable (BookConstraints b) := inferInstanceAs (Decidable (_ ∧ _))

def commitBooks (b : Books) : Except OpError Books :=
  if BookConstraints b then .ok b else .error .databaseError

/-- Another active account has the IBAN, with or without blanks. -/
def IbanTaken (b : Books) (iban : PyText) (but : Option Uuid) : Prop :=
  ∃ a ∈ b.store.accounts, isActive a=true ∧ some a.id ≠ but ∧
    normalizedIban (b.texts a.id).iban=normalizedIban iban

instance (b : Books) (iban : PyText) (but : Option Uuid) : Decidable (IbanTaken b iban but) :=
  inferInstanceAs (Decidable (∃ _ ∈ _, _))

section Requests
variable {isAlnum : CodePoint → Bool} {today : Date}

def AccountSaveRequest.texts (data : AccountSaveRequest isAlnum today) : AccountTexts :=
  ⟨data.iban,some data.bic,some data.label⟩

def addedAccount (b : Books) (data : AccountSaveRequest isAlnum today) : Books where
  store := { b.store with
    accounts := b.store.accounts ++ [⟨b.store.nextUuid,some data.initDate,data.initBalance,none⟩]
    nextUuid := b.store.nextUuid+1 }
  texts := Function.update b.texts b.store.nextUuid data.texts

def createAccount (b : Books) (data : AccountSaveRequest isAlnum today) : Except OpError Books := do
  guardError (¬ IbanTaken b data.iban none) (.http 409 "IBAN existiert bereits.")
  commitBooks (addedAccount b data)

/-- The tables with the row of an account changed. -/
def withAccount (s : Store) (id : Uuid) (change : P4xAccount → P4xAccount) : Store :=
  { s with accounts := s.accounts.map fun a => if a.id=id then change a else a }

def changedAccount (b : Books) (account : P4xAccount) (data : AccountSaveRequest isAlnum today) :
    Books where
  store := withAccount b.store account.id fun a =>
    { a with initDate := some data.initDate, initBalance := data.initBalance }
  texts := Function.update b.texts account.id data.texts

def updateAccount (b : Books) (account : P4xAccount) (data : AccountSaveRequest isAlnum today) :
    Except OpError Books := do
  guardError (¬ IbanTaken b data.iban (some account.id)) (.http 409 "IBAN existiert bereits.")
  commitBooks (changedAccount b account data)

end Requests

/-- The active transactions of an account. -/
def txCount (s : Store) (account : P4xAccount) : ℕ :=
  s.transactions.countP fun t => t.p4xAccountId=account.id && t.active

def deletedAccount (b : Books) (account : P4xAccount) (now : Timestamp) : Books :=
  { b with store := withAccount b.store account.id fun a => { a with deletedAt := some now } }

def deleteAccount (b : Books) (account : P4xAccount) (now : Timestamp) : Except OpError Books := do
  guardError (¬ txCount b.store account > 0)
    (.http 409 "Konto kann nicht gelöscht werden, da Transaktionen vorhanden sind.")
  commitBooks (deletedAccount b account now)

section Frame
variable (lower : PyText → PyText) (sha256 : List Char → String)

/-- The accounts and the transactions of another store, with ids at least as far. -/
structure SameRows (s s' : Store) : Prop where
  accounts : s'.accounts=s.accounts
  transactions : s'.transactions=s.transactions
  next : s.nextUuid ≤ s'.nextUuid

variable {s s' s'' : Store}

lemma SameRows.refl (s : Store) : SameRows s s := ⟨rfl,rfl,le_rfl⟩

lemma SameRows.trans (h : SameRows s s') (h' : SameRows s' s'') : SameRows s s'' :=
  ⟨h'.accounts.trans h.accounts,h'.transactions.trans h.transactions,h.next.trans h'.next⟩

lemma sameRows_applyAll (s : Store) : SameRows s (applyAllCategoryFiltersCore lower s) := by
  have hfold : ∀ (directs : Finset Uuid) (fs : List P4xCategoryFilter) (s : Store),
      SameRows s (fs.foldl (applyFilterWithCache lower directs) s) := by
    intro directs fs
    induction fs with
    | nil => exact SameRows.refl
    | cons f fs ih =>
      intro s
      have hmid : SameRows s (applyFilterWithCache lower directs s f) := ⟨rfl,rfl,le_rfl⟩
      exact hmid.trans (ih _)
  exact hfold _ _ _

lemma sameRows_refresh (s : Store) (txId : Uuid) (assigned : Bool) :
    SameRows s (refreshTransactionHits lower s txId assigned) := by
  unfold refreshTransactionHits
  dsimp only
  split_ifs <;> exact ⟨rfl,rfl,le_rfl⟩

lemma sameRows_setCategoryDirectCore {now : Timestamp} {t : P4xTransaction} {slots : List Slot}
    {r : Option String × Store} (h : setCategoryDirectCore lower s now t slots=.ok r) :
    SameRows s r.2 := by
  simp only [setCategoryDirectCore,bind_eq_ok_iff] at h
  obtain ⟨values,-,h⟩ := h
  split_ifs at h
  · cases h
    exact SameRows.refl s
  · cases h
    have hreplaced : SameRows s (replaceDirects s now t.id values) := ⟨rfl,rfl,le_rfl⟩
    exact hreplaced.trans (sameRows_refresh lower _ _ _)

lemma sameRows_convertHits {now : Timestamp} {f : P4xCategoryFilter}
    {ts : List P4xTransaction} (h : ts.foldlM (convertHit lower now f) s=.ok s') : SameRows s s' := by
  induction ts generalizing s with
  | nil =>
    cases h
    exact SameRows.refl _
  | cons t ts ih =>
    rw [List.foldlM_cons,bind_eq_ok_iff] at h
    obtain ⟨mid,hmid,h⟩ := h
    simp only [convertHit,bind_eq_ok_iff] at hmid
    obtain ⟨⟨message,s₁⟩,hcore,hmid⟩ := hmid
    cases hmid
    exact (sameRows_setCategoryDirectCore lower hcore).trans (ih h)

lemma sameRows_commit (h : commit s=.ok s') : SameRows s s' := by
  obtain ⟨rfl,-⟩ := commit_eq_ok h
  exact SameRows.refl _

/-- Everything but the import leaves accounts and transactions as they are. -/
lemma sameRows_perform {op : CategoryOp}
    (himport : ∀ accountId now entries, op ≠ .importAndApplyFilters accountId now entries)
    (h : op.perform lower sha256 s=.ok s') : SameRows s s' := by
  cases op with
  | importAndApplyFilters accountId now entries => exact absurd rfl (himport accountId now entries)
  | createCategoryFilter data =>
    simp only [CategoryOp.perform,createCategoryFilter,bind_eq_ok_iff] at h
    obtain ⟨-,-,-,-,h⟩ := h
    refine SameRows.trans ?_ ((sameRows_applyAll lower _).trans (sameRows_commit h))
    exact ⟨rfl,rfl,Nat.le_succ _⟩
  | updateCategoryFilter filterId data =>
    simp only [CategoryOp.perform,updateCategoryFilter,bind_eq_ok_iff] at h
    obtain ⟨f,-,-,-,-,-,h⟩ := h
    refine SameRows.trans ?_ ((sameRows_applyAll lower _).trans (sameRows_commit h))
    exact ⟨rfl,rfl,le_rfl⟩
  | deleteCategoryFilter filterId =>
    simp only [CategoryOp.perform,bind_eq_ok_iff] at h
    obtain ⟨f,-,h⟩ := h
    unfold deleteCategoryFilter at h
    refine SameRows.trans ?_ (sameRows_commit h)
    exact ⟨rfl,rfl,le_rfl⟩
  | setCategoryDirect transactionId now slots =>
    simp only [CategoryOp.perform,setCategoryDirect,bind_eq_ok_iff] at h
    obtain ⟨t,-,⟨message,s₁⟩,hcore,h⟩ := h
    cases message with
    | some message => cases h
    | none => exact (sameRows_setCategoryDirectCore lower hcore).trans (sameRows_commit h)
  | unsetCategoryDirect transactionId now =>
    simp only [CategoryOp.perform,bind_eq_ok_iff] at h
    obtain ⟨t,-,h⟩ := h
    refine SameRows.trans ?_ ((sameRows_refresh lower _ _ _).trans (sameRows_commit h))
    exact ⟨rfl,rfl,le_rfl⟩
  | filterToDirect filterId now =>
    simp only [CategoryOp.perform,bind_eq_ok_iff] at h
    obtain ⟨f,-,h⟩ := h
    unfold filterToDirect at h
    split_ifs at h
    rw [bind_eq_ok_iff] at h
    obtain ⟨converted,hfold,h⟩ := h
    refine (sameRows_convertHits lower hfold).trans (SameRows.trans ?_ (sameRows_commit h))
    exact ⟨rfl,rfl,le_rfl⟩

/-- An active transaction belongs to an active account. -/
def Owned (accounts : List P4xAccount) (transactions : List P4xTransaction) : Prop :=
  ∀ t ∈ transactions, t.active=true → ∃ a ∈ accounts, a.id=t.p4xAccountId ∧ isActive a=true

variable {account : P4xAccount} {now : Timestamp} {st st' : ImportState}

lemma Owned.updateHash (h : Owned s.accounts s.transactions) {hash : String}
    {change : P4xTransaction → P4xTransaction}
    (hchange : ∀ t, (change t).active=true → (change t).p4xAccountId=account.id)
    (haccount : account ∈ s.accounts ∧ isActive account=true) :
    Owned (updateHash s hash change).accounts (updateHash s hash change).transactions := by
  intro t ht hactive
  obtain ⟨t₀,ht₀,rfl⟩ := List.mem_map.mp ht
  split_ifs at hactive ⊢
  · exact ⟨account,haccount.1,(hchange t₀ hactive).symm,haccount.2⟩
  · exact h t₀ ht₀ hactive

/-- What the loop of an import into an active account keeps. -/
structure ImportOwned (s : Store) (st : ImportState) : Prop where
  accounts : st.store.accounts=s.accounts
  next : st.store.nextUuid=s.nextUuid
  stored : Owned s.accounts st.store.transactions
  pending : Owned s.accounts st.pending

lemma ImportOwned.storeEntry (h : ImportOwned s st)
    (haccount : account ∈ s.accounts ∧ isActive account=true) (hash : String) (p : CompletePayload)
    (raw : String) : ImportOwned s (storeEntry account now st hash p raw) := by
  have haccount' : account ∈ st.store.accounts ∧ isActive account=true := h.accounts ▸ haccount
  have hstored : Owned st.store.accounts st.store.transactions := h.accounts ▸ h.stored
  have hupdated : ∀ change : P4xTransaction → P4xTransaction,
      (∀ t, (change t).active=true → (change t).p4xAccountId=account.id) →
      Owned s.accounts (updateHash st.store hash change).transactions := by
    intro change hchange
    rw [← h.accounts]
    exact hstored.updateHash hchange haccount'
  unfold P4x.storeEntry
  split_ifs
  · refine ⟨h.accounts,h.next,hupdated _ ?_,h.pending⟩
    intro t hactive
    cases hactive
  · cases st.store.transactions.find? fun t => t.sha256Hash=hash with
    | some existing => exact ⟨h.accounts,h.next,hupdated _ fun _ _ => rfl,h.pending⟩
    | none =>
      refine ⟨h.accounts,h.next,h.stored,?_⟩
      intro t ht hactive
      obtain ht | ht := List.mem_append.mp ht
      · exact h.pending t ht hactive
      · rw [List.mem_singleton.mp ht]
        exact ⟨account,haccount.1,rfl,haccount.2⟩

lemma ImportOwned.importEntry (h : ImportOwned s st)
    (haccount : account ∈ s.accounts ∧ isActive account=true) {e : ImportEntry}
    (hok : importEntry sha256 account now st e=.ok st') : ImportOwned s st' := by
  have hsame : ∀ (seen : Dict String ℕ) (summary : Summary),
      ImportOwned s { st with seen := seen, summary := summary } :=
    fun _ _ => ⟨h.accounts,h.next,h.stored,h.pending⟩
  unfold P4x.importEntry at hok
  cases hp : e.payload.complete with
  | none =>
    rw [hp] at hok
    cases hok
    exact hsame _ _
  | some p =>
    rw [hp] at hok
    dsimp only at hok
    split_ifs at hok
    · cases hok
      exact hsame _ _
    · simp only [bind_eq_ok_iff] at hok
      obtain ⟨bookingCarbon,-,valuationCarbon,-,hok⟩ := hok
      cases hok
      exact (hsame _ _).storeEntry haccount _ _ _

lemma ImportOwned.foldlM (h : ImportOwned s st)
    (haccount : account ∈ s.accounts ∧ isActive account=true) {entries : List ImportEntry}
    (hok : entries.foldlM (P4x.importEntry sha256 account now) st=.ok st') : ImportOwned s st' := by
  induction entries generalizing st with
  | nil =>
    cases hok
    exact h
  | cons e entries ih =>
    rw [List.foldlM_cons,bind_eq_ok_iff] at hok
    obtain ⟨mid,hmid,hok⟩ := hok
    exact ih (h.importEntry sha256 haccount hmid) hok

lemma ImportOwned.flush (h : ImportOwned s st) :
    (flush st).accounts=s.accounts ∧ s.nextUuid ≤ (flush st).nextUuid ∧
      Owned s.accounts (flush st).transactions := by
  refine ⟨h.accounts,h.next ▸ Nat.le_add_right _ _,?_⟩
  intro t ht hactive
  obtain ht | ht := List.mem_append.mp ht
  · exact h.stored t ht hactive
  · obtain ⟨i,hi,rfl⟩ := List.mem_mapIdx.mp ht
    exact h.pending st.pending[i] (List.getElem_mem hi) hactive

lemma getAccountOr404_ok {id : Uuid} (h : getAccountOr404 s id=.ok account) :
    account ∈ s.accounts ∧ account.id=id ∧ isActive account=true := by
  unfold getAccountOr404 at h
  cases hfind : s.accounts.find? fun a => a.id=id && a.deletedAt.isNone with
  | none =>
    rw [hfind] at h
    cases h
  | some a =>
    rw [hfind] at h
    cases h
    have hfound := List.find?_some hfind
    rw [Bool.and_eq_true,decide_eq_true_eq] at hfound
    exact ⟨List.mem_of_find?_eq_some hfind,hfound.1,hfound.2⟩

/-- A request on filters, directs or transactions leaves the accounts as they are, and new active
transactions belong to active ones. -/
lemma owned_perform (h : Owned s.accounts s.transactions) {op : CategoryOp}
    (hok : op.perform lower sha256 s=.ok s') :
    s'.accounts=s.accounts ∧ s.nextUuid ≤ s'.nextUuid ∧ Owned s.accounts s'.transactions := by
  by_cases himport : ∃ accountId now entries, op=.importAndApplyFilters accountId now entries
  · obtain ⟨accountId,now,entries,rfl⟩ := himport
    simp only [CategoryOp.perform,bind_eq_ok_iff] at hok
    obtain ⟨account,hget,⟨s₁,summary⟩,himport,hok⟩ := hok
    cases hok
    obtain ⟨hmem,-,hactive⟩ := getAccountOr404_ok hget
    unfold importAndApplyFilters importTransactions at himport
    cases hrun : entries.foldlM (P4x.importEntry sha256 account now)
        ⟨s,[],Dict.empty,Dict.empty⟩ with
    | error e =>
      rw [hrun] at himport
      contradiction
    | ok st =>
      rw [hrun] at himport
      simp only [ok_bind,pure_eq_ok,bind_eq_ok_iff] at himport
      obtain ⟨s₂,hcommit,himport⟩ := himport
      cases himport
      have hstart : ImportOwned s ⟨s,[],Dict.empty,Dict.empty⟩ :=
        ⟨rfl,rfl,h,fun t ht => absurd ht List.not_mem_nil⟩
      obtain ⟨haccounts,hnext,howned⟩ := (hstart.foldlM sha256 ⟨hmem,hactive⟩ hrun).flush
      have hsame := (sameRows_applyAll lower _).trans (sameRows_commit hcommit)
      exact ⟨hsame.accounts.trans haccounts,hnext.trans hsame.next,hsame.transactions ▸ howned⟩
  · have hsame := sameRows_perform lower sha256
      (fun accountId now entries heq => himport ⟨accountId,now,entries,heq⟩) hok
    exact ⟨hsame.accounts,hsame.next,hsame.transactions ▸ h⟩

end Frame

section Runs
variable (isAlnum : CodePoint → Bool) (lower : PyText → PyText) (sha256 : List Char → String)

/-- A request on the accounts, or one of the requests on filters, directs and transactions. -/
inductive BookOp
  | createAccount (today : Date) (data : AccountSaveRequest isAlnum today)
  | updateAccount (accountId : Uuid) (today : Date) (data : AccountSaveRequest isAlnum today)
  | deleteAccount (accountId : Uuid) (now : Timestamp)
  | category (op : CategoryOp)

variable {isAlnum} in
def BookOp.perform (b : Books) : BookOp isAlnum → Except OpError Books
  | .createAccount _ data => Accounts.createAccount b data
  | .updateAccount accountId _ data => do
    Accounts.updateAccount b (← getAccountOr404 b.store accountId) data
  | .deleteAccount accountId now => do
    Accounts.deleteAccount b (← getAccountOr404 b.store accountId) now
  | .category op => do return { b with store := ← op.perform lower sha256 b.store }

variable {isAlnum} in
/-- The tables after a request; one that raises is rolled back. -/
def BookOp.after (b : Books) (op : BookOp isAlnum) : Books :=
  match op.perform lower sha256 b with
  | .ok b' => b'
  | .error _ => b

def bookMachine : Machine Books (BookOp isAlnum) where
  step b op := some (op.after lower sha256 b)

end Runs

section Outcomes
variable {isAlnum : CodePoint → Bool} {lower : PyText → PyText} {today : Date} {b : Books}
  {account : P4xAccount} {now : Timestamp}

/-- What every committed state keeps. -/
structure BookInvariant (lower : PyText → PyText) (b : Books) : Prop where
  category : CategoryInvariant lower b.store
  ids : (b.store.accounts.map (·.id)).Nodup
  ids_lt : ∀ a ∈ b.store.accounts, a.id < b.store.nextUuid
  ibans : (activeIbans b).Nodup
  rows : ∀ a ∈ b.store.accounts, AccountRowValid (b.texts a.id) a
  owned : Owned b.store.accounts b.store.transactions

lemma activeIbans_nodup_iff (hids : (b.store.accounts.map (·.id)).Nodup) :
    (activeIbans b).Nodup ↔ ∀ a ∈ b.store.accounts, ∀ a' ∈ b.store.accounts, isActive a=true →
      isActive a'=true → normalizedIban (b.texts a.id).iban=normalizedIban (b.texts a'.id).iban →
        a=a' := by
  rw [activeIbans,List.nodup_map_iff_inj_on (hids.of_map.filter _)]
  simp only [List.mem_filter]
  constructor
  · intro h a ha a' ha' hactive hactive' heq
    exact h a ⟨ha,hactive⟩ a' ⟨ha',hactive'⟩ heq
  · intro h a ha a' ha' heq
    exact h a ha.1 a' ha'.1 ha.2 ha'.2 heq

/-- The rows of the other tables only ask that the ids of the accounts stay. -/
lemma dbConstraints_accounts {s : Store} (h : DbConstraints s) {accounts : List P4xAccount}
    {next : Uuid} (hkept : ∀ a ∈ s.accounts, a.id ∈ accounts.map (·.id)) :
    DbConstraints { s with accounts := accounts, nextUuid := next } := by
  obtain ⟨hnames,hfilters,hhits,hdirects,hrows,hhashes,htransactions⟩ := h
  have haccount : ∀ id, (∃ a ∈ s.accounts, a.id=id) → ∃ a ∈ accounts, a.id=id := by
    intro id hid
    obtain ⟨a,ha,rfl⟩ := hid
    exact List.mem_map.mp (hkept a ha)
  refine ⟨hnames,?_,hhits,hdirects,hrows,hhashes,?_⟩
  · intro f hf
    obtain ⟨hid,hrest⟩ := hfilters f hf
    exact ⟨haccount _ hid,hrest⟩
  · intro t ht
    obtain ⟨hid,hrest⟩ := htransactions t ht
    exact ⟨haccount _ hid,hrest⟩

lemma categoryInvariant_accounts {s : Store} (h : CategoryInvariant lower s)
    {accounts : List P4xAccount} {next : Uuid} (hnext : s.nextUuid ≤ next)
    (hkept : ∀ a ∈ s.accounts, a.id ∈ accounts.map (·.id)) :
    CategoryInvariant lower { s with accounts := accounts, nextUuid := next } where
  ids := ⟨h.ids.filters_nodup,h.ids.transactions_nodup,
    fun f hf => (h.ids.filters_lt f hf).trans_le hnext,
    fun t ht => (h.ids.transactions_lt t ht).trans_le hnext⟩
  amounts := h.amounts
  constraints := dbConstraints_accounts h.constraints hkept
  hits := ⟨h.hits.nodup,h.hits.mem_iff⟩

/-- What the checks of the table still may refuse of a validated request. -/
def Saveable (data : AccountSaveRequest isAlnum today) : Prop :=
  ibanCheck data.iban=true ∧ Storable data.label

instance (data : AccountSaveRequest isAlnum today) : Decidable (Saveable data) :=
  inferInstanceAs (Decidable (_ ∧ _))

lemma accountRowValid_iff (data : AccountSaveRequest isAlnum today) {a : P4xAccount}
    (hbalance : a.initBalance=data.initBalance) :
    AccountRowValid data.texts a ↔ Saveable data := by
  have hrange : InNumericRange a.initBalance := by
    rw [InNumericRange,hbalance]
    exact data.init_balance_bound.trans_lt (by norm_num)
  constructor
  · intro h
    exact ⟨h.1,h.2.2.1 _ rfl⟩
  · intro h
    refine ⟨h.1,?_,?_,hrange⟩
    · intro bic hbic
      obtain rfl := Option.some.inj hbic
      exact data.bic_format
    · intro label hlabel
      obtain rfl := Option.some.inj hlabel
      exact h.2

/-- The row of a new account. -/
def newAccount (b : Books) (data : AccountSaveRequest isAlnum today) : P4xAccount :=
  ⟨b.store.nextUuid,some data.initDate,data.initBalance,none⟩

lemma addedAccount_texts (h : BookInvariant lower b) (data : AccountSaveRequest isAlnum today)
    {a : P4xAccount} (ha : a ∈ b.store.accounts) : (addedAccount b data).texts a.id=b.texts a.id :=
  Function.update_of_ne (h.ids_lt a ha).ne _ _

lemma addedAccount_texts_new (data : AccountSaveRequest isAlnum today) :
    (addedAccount b data).texts (newAccount b data).id=data.texts :=
  Function.update_self _ _ _

lemma mem_addedAccount {data : AccountSaveRequest isAlnum today} {a : P4xAccount} :
    a ∈ (addedAccount b data).store.accounts ↔ a ∈ b.store.accounts ∨ a=newAccount b data :=
  List.mem_append.trans (or_congr_right List.mem_singleton)

lemma BookInvariant.added (h : BookInvariant lower b) {data : AccountSaveRequest isAlnum today}
    (hfree : ¬ IbanTaken b data.iban none) (hsave : Saveable data) :
    BookInvariant lower (addedAccount b data) := by
  have hids : ((addedAccount b data).store.accounts.map (·.id)).Nodup := by
    change ((b.store.accounts ++ [newAccount b data]).map (·.id)).Nodup
    rw [List.map_append]
    refine h.ids.append (List.nodup_singleton _) ?_
    intro id hold hnew
    obtain ⟨a,ha,rfl⟩ := List.mem_map.mp hold
    exact (h.ids_lt a ha).ne (List.mem_singleton.mp hnew)
  have hother : ∀ a ∈ b.store.accounts, isActive a=true →
      normalizedIban ((addedAccount b data).texts a.id).iban ≠ normalizedIban data.iban := by
    intro a ha hactive heq
    rw [addedAccount_texts h data ha] at heq
    exact hfree ⟨a,ha,hactive,Option.some_ne_none _,heq⟩
  constructor
  · refine categoryInvariant_accounts h.category (Nat.le_succ _) ?_
    intro a ha
    exact List.mem_map_of_mem (List.mem_append_left _ ha)
  · exact hids
  · intro a ha
    obtain ha | rfl := mem_addedAccount.mp ha
    · exact Nat.lt_succ_of_lt (h.ids_lt a ha)
    · exact Nat.lt_succ_self _
  · rw [activeIbans_nodup_iff hids]
    intro a ha a' ha' hactive hactive' heq
    obtain ha | rfl := mem_addedAccount.mp ha
    · obtain ha' | rfl := mem_addedAccount.mp ha'
      · rw [addedAccount_texts h data ha,addedAccount_texts h data ha'] at heq
        exact (activeIbans_nodup_iff h.ids).mp h.ibans a ha a' ha' hactive hactive' heq
      · rw [addedAccount_texts_new] at heq
        exact absurd heq (hother a ha hactive)
    · obtain ha' | rfl := mem_addedAccount.mp ha'
      · rw [addedAccount_texts_new] at heq
        exact absurd heq.symm (hother a' ha' hactive')
      · rfl
  · intro a ha
    obtain ha | rfl := mem_addedAccount.mp ha
    · rw [addedAccount_texts h data ha]
      exact h.rows a ha
    · rw [addedAccount_texts_new]
      exact (accountRowValid_iff data rfl).mpr hsave
  · intro t ht hactive
    obtain ⟨a,ha,hid,hopen⟩ := h.owned t ht hactive
    exact ⟨a,mem_addedAccount.mpr (.inl ha),hid,hopen⟩

lemma BookInvariant.constraints (h : BookInvariant lower b) : BookConstraints b :=
  ⟨h.category.constraints,h.ids,h.ibans,h.rows⟩

/-- Which answer the creation of an account gets. -/
lemma createAccount_eq (h : BookInvariant lower b) (data : AccountSaveRequest isAlnum today) :
    createAccount b data=
      if IbanTaken b data.iban none then .error (.http 409 "IBAN existiert bereits.")
      else if Saveable data then .ok (addedAccount b data) else .error .databaseError := by
  unfold createAccount guardError
  by_cases htaken : IbanTaken b data.iban none
  · rw [if_neg (not_not.mpr htaken),if_pos htaken]
    rfl
  · rw [if_pos htaken,if_neg htaken,ok_bind]
    by_cases hsave : Saveable data
    · rw [if_pos hsave,commitBooks,if_pos (h.added htaken hsave).constraints]
    · rw [if_neg hsave,commitBooks,if_neg]
      intro hvalid
      have hrow := hvalid.2.2.2 _ (mem_addedAccount.mpr (.inr rfl))
      rw [addedAccount_texts_new] at hrow
      exact hsave ((accountRowValid_iff data rfl).mp hrow)

section Change
variable {s : Store} {id : Uuid} {change : P4xAccount → P4xAccount}

lemma mem_withAccount {a : P4xAccount} : a ∈ (withAccount s id change).accounts ↔
    ∃ a₀ ∈ s.accounts, (if a₀.id=id then change a₀ else a₀)=a :=
  List.mem_map

lemma withAccount_ids (hid : ∀ a, (change a).id=a.id) :
    (withAccount s id change).accounts.map (·.id)=s.accounts.map (·.id) := by
  unfold withAccount
  rw [List.map_map]
  apply List.map_congr_left
  intro a _
  by_cases ha : a.id=id <;> simp [ha,hid]

lemma categoryInvariant_withAccount (h : CategoryInvariant lower s)
    (hid : ∀ a, (change a).id=a.id) : CategoryInvariant lower (withAccount s id change) := by
  refine categoryInvariant_accounts h le_rfl ?_
  intro a ha
  change a.id ∈ (withAccount s id change).accounts.map (·.id)
  rw [withAccount_ids hid]
  exact List.mem_map_of_mem ha

end Change

lemma changedAccount_texts {data : AccountSaveRequest isAlnum today} {a : P4xAccount} :
    (changedAccount b account data).texts a.id=
      if a.id=account.id then data.texts else b.texts a.id :=
  Function.update_apply _ _ _ _

lemma BookInvariant.changed (h : BookInvariant lower b) {data : AccountSaveRequest isAlnum today}
    (hfree : ¬ IbanTaken b data.iban (some account.id)) (hsave : Saveable data) :
    BookInvariant lower (changedAccount b account data) := by
  have hids : ((changedAccount b account data).store.accounts.map (·.id)).Nodup := by
    unfold changedAccount
    rw [withAccount_ids (by intro; rfl)]
    exact h.ids
  have hother : ∀ a ∈ b.store.accounts, isActive a=true → a.id ≠ account.id →
      normalizedIban (b.texts a.id).iban ≠ normalizedIban data.iban := by
    intro a ha hactive hne heq
    exact hfree ⟨a,ha,hactive,fun hid => hne (Option.some.inj hid),heq⟩
  constructor
  · exact categoryInvariant_withAccount h.category (by intro; rfl)
  · exact hids
  · intro a ha
    obtain ⟨a₀,ha₀,rfl⟩ := mem_withAccount.mp ha
    split_ifs <;> exact h.ids_lt a₀ ha₀
  · rw [activeIbans_nodup_iff hids]
    intro a ha a' ha' hactive hactive' heq
    obtain ⟨a₀,ha₀,rfl⟩ := mem_withAccount.mp ha
    obtain ⟨a₁,ha₁,rfl⟩ := mem_withAccount.mp ha'
    rw [changedAccount_texts,changedAccount_texts] at heq
    by_cases h₀ : a₀.id=account.id
    · by_cases h₁ : a₁.id=account.id
      · rw [List.inj_on_of_nodup_map h.ids ha₀ ha₁ (h₀.trans h₁.symm)]
      · simp only [h₀,h₁,if_true,if_false] at heq hactive'
        exact absurd heq.symm (hother a₁ ha₁ hactive' h₁)
    · by_cases h₁ : a₁.id=account.id
      · simp only [h₀,h₁,if_true,if_false] at heq hactive
        exact absurd heq (hother a₀ ha₀ hactive h₀)
      · simp only [h₀,h₁,if_false] at heq hactive hactive'
        rw [(activeIbans_nodup_iff h.ids).mp h.ibans a₀ ha₀ a₁ ha₁ hactive hactive' heq]
  · intro a ha
    obtain ⟨a₀,ha₀,rfl⟩ := mem_withAccount.mp ha
    rw [changedAccount_texts]
    by_cases h₀ : a₀.id=account.id
    · simp only [h₀,if_true]
      exact (accountRowValid_iff data rfl).mpr hsave
    · simp only [h₀,if_false]
      exact h.rows a₀ ha₀
  · intro t ht hactive
    obtain ⟨a,ha,hid,hopen⟩ := h.owned t ht hactive
    refine ⟨_,mem_withAccount.mpr ⟨a,ha,rfl⟩,?_,?_⟩
    · split_ifs <;> exact hid
    · split_ifs <;> exact hopen

/-- Which answer a change of an account gets. -/
lemma updateAccount_eq (h : BookInvariant lower b) (haccount : account ∈ b.store.accounts)
    (data : AccountSaveRequest isAlnum today) :
    updateAccount b account data=
      if IbanTaken b data.iban (some account.id) then .error (.http 409 "IBAN existiert bereits.")
      else if Saveable data then .ok (changedAccount b account data)
      else .error .databaseError := by
  unfold updateAccount guardError
  by_cases htaken : IbanTaken b data.iban (some account.id)
  · rw [if_neg (not_not.mpr htaken),if_pos htaken]
    rfl
  · rw [if_pos htaken,if_neg htaken,ok_bind]
    by_cases hsave : Saveable data
    · rw [if_pos hsave,commitBooks,if_pos (h.changed htaken hsave).constraints]
    · rw [if_neg hsave,commitBooks,if_neg]
      intro hvalid
      have hrow := hvalid.2.2.2 _ (mem_withAccount.mpr ⟨account,haccount,rfl⟩)
      rw [changedAccount_texts] at hrow
      simp only [if_true] at hrow
      exact hsave ((accountRowValid_iff data rfl).mp hrow)

/-- No active transaction belongs to the account. -/
def Unused (s : Store) (account : P4xAccount) : Prop :=
  ∀ t ∈ s.transactions, t.active=true → t.p4xAccountId ≠ account.id

instance (s : Store) (account : P4xAccount) : Decidable (Unused s account) :=
  inferInstanceAs (Decidable (∀ _ ∈ _, _))

lemma txCount_eq_zero_iff {s : Store} : txCount s account=0 ↔ Unused s account := by
  rw [txCount,List.countP_eq_zero]
  simp only [Bool.and_eq_true,decide_eq_true_eq,not_and,Bool.not_eq_true,Unused]
  constructor
  · intro h t ht hactive hid
    rw [h t ht hid] at hactive
    cases hactive
  · intro h t ht hid
    rw [← Bool.not_eq_true]
    exact fun hactive => h t ht hactive hid

lemma BookInvariant.deleted (h : BookInvariant lower b) (hunused : Unused b.store account) :
    BookInvariant lower (deletedAccount b account now) := by
  have hids : ((deletedAccount b account now).store.accounts.map (·.id)).Nodup := by
    unfold deletedAccount
    rw [withAccount_ids (by intro; rfl)]
    exact h.ids
  constructor
  · exact categoryInvariant_withAccount h.category (by intro; rfl)
  · exact hids
  · intro a ha
    obtain ⟨a₀,ha₀,rfl⟩ := mem_withAccount.mp ha
    split_ifs <;> exact h.ids_lt a₀ ha₀
  · rw [activeIbans_nodup_iff hids]
    intro a ha a' ha' hactive hactive' heq
    obtain ⟨a₀,ha₀,rfl⟩ := mem_withAccount.mp ha
    obtain ⟨a₁,ha₁,rfl⟩ := mem_withAccount.mp ha'
    by_cases h₀ : a₀.id=account.id
    · simp only [h₀,if_true] at hactive
      cases hactive
    · by_cases h₁ : a₁.id=account.id
      · simp only [h₁,if_true] at hactive'
        cases hactive'
      · simp only [h₀,h₁,if_false] at heq hactive hactive' ⊢
        exact (activeIbans_nodup_iff h.ids).mp h.ibans a₀ ha₀ a₁ ha₁ hactive hactive' heq
  · intro a ha
    obtain ⟨a₀,ha₀,rfl⟩ := mem_withAccount.mp ha
    split_ifs <;> exact h.rows a₀ ha₀
  · intro t ht hactive
    obtain ⟨a,ha,hid,hopen⟩ := h.owned t ht hactive
    refine ⟨a,mem_withAccount.mpr ⟨a,ha,if_neg ?_⟩,hid,hopen⟩
    exact fun heq => hunused t ht hactive (hid.symm.trans heq)

/-- Which answer the deletion of an account gets. -/
lemma deleteAccount_eq (h : BookInvariant lower b) (account : P4xAccount) (now : Timestamp) :
    deleteAccount b account now=
      if Unused b.store account then .ok (deletedAccount b account now)
      else .error (.http 409
        "Konto kann nicht gelöscht werden, da Transaktionen vorhanden sind.") := by
  unfold deleteAccount guardError
  have hcount : txCount b.store account=0 ↔ Unused b.store account := txCount_eq_zero_iff
  by_cases hunused : Unused b.store account
  · rw [if_pos hunused,if_pos (by rw [hcount.mpr hunused]; omega),ok_bind,commitBooks,
      if_pos (h.deleted hunused).constraints]
  · rw [if_neg hunused,if_neg]
    · rfl
    · rw [not_not]
      exact Nat.pos_of_ne_zero fun hzero => hunused (hcount.mp hzero)

end Outcomes

section Law
variable {isAlnum : CodePoint → Bool} {lower : PyText → PyText} {sha256 : List Char → String}
  {b b' : Books}

/-- The deleted accounts and their texts are still there, unchanged. -/
def KeepsDeleted (b b' : Books) : Prop :=
  ∀ a ∈ b.store.accounts, isActive a=false → a ∈ b'.store.accounts ∧ b'.texts a.id=b.texts a.id

lemma KeepsDeleted.trans {b'' : Books} (h : KeepsDeleted b b') (h' : KeepsDeleted b' b'') :
    KeepsDeleted b b'' := by
  intro a ha hdeleted
  obtain ⟨hkept,htexts⟩ := h a ha hdeleted
  obtain ⟨hkept',htexts'⟩ := h' a hkept hdeleted
  exact ⟨hkept',htexts'.trans htexts⟩

/-- The change of an active account touches no deleted one. -/
lemma ne_of_deleted (h : BookInvariant lower b) {account a : P4xAccount}
    (haccount : account ∈ b.store.accounts) (hactive : isActive account=true)
    (ha : a ∈ b.store.accounts) (hdeleted : isActive a=false) : a.id ≠ account.id := by
  intro hid
  rw [List.inj_on_of_nodup_map h.ids ha haccount hid,hactive] at hdeleted
  cases hdeleted

lemma BookInvariant.perform (h : BookInvariant lower b) {op : BookOp isAlnum}
    (hok : op.perform lower sha256 b=.ok b') : BookInvariant lower b' ∧ KeepsDeleted b b' := by
  cases op with
  | createAccount today data =>
    rw [BookOp.perform,createAccount_eq h] at hok
    split_ifs at hok with htaken hsave
    cases hok
    refine ⟨h.added htaken hsave,?_⟩
    intro a ha _
    exact ⟨mem_addedAccount.mpr (.inl ha),addedAccount_texts h data ha⟩
  | updateAccount accountId today data =>
    simp only [BookOp.perform,bind_eq_ok_iff] at hok
    obtain ⟨account,hget,hok⟩ := hok
    obtain ⟨haccount,-,hactive⟩ := getAccountOr404_ok hget
    rw [updateAccount_eq h haccount] at hok
    split_ifs at hok with htaken hsave
    cases hok
    refine ⟨h.changed htaken hsave,?_⟩
    intro a ha hdeleted
    have hne := ne_of_deleted h haccount hactive ha hdeleted
    exact ⟨mem_withAccount.mpr ⟨a,ha,if_neg hne⟩,changedAccount_texts.trans (if_neg hne)⟩
  | deleteAccount accountId now =>
    simp only [BookOp.perform,bind_eq_ok_iff] at hok
    obtain ⟨account,hget,hok⟩ := hok
    obtain ⟨haccount,-,hactive⟩ := getAccountOr404_ok hget
    rw [deleteAccount_eq h] at hok
    split_ifs at hok with hunused
    cases hok
    refine ⟨h.deleted hunused,?_⟩
    intro a ha hdeleted
    have hne := ne_of_deleted h haccount hactive ha hdeleted
    exact ⟨mem_withAccount.mpr ⟨a,ha,if_neg hne⟩,rfl⟩
  | category op =>
    simp only [BookOp.perform,bind_eq_ok_iff] at hok
    obtain ⟨s,hs,hok⟩ := hok
    cases hok
    obtain ⟨haccounts,hnext,howned⟩ := owned_perform lower sha256 h.owned hs
    constructor
    · constructor
      · exact perform_invariant lower sha256 h.category hs
      · exact haccounts ▸ h.ids
      · intro a ha
        exact (h.ids_lt a (haccounts ▸ ha)).trans_le hnext
      · change ((s.accounts.filter isActive).map _).Nodup
        rw [haccounts]
        exact h.ibans
      · intro a ha
        exact h.rows a (haccounts ▸ ha)
      · exact haccounts.symm ▸ howned
    · intro a ha _
      exact ⟨haccounts.symm ▸ ha,rfl⟩

lemma BookInvariant.after (h : BookInvariant lower b) (op : BookOp isAlnum) :
    BookInvariant lower (op.after lower sha256 b) ∧ KeepsDeleted b (op.after lower sha256 b) := by
  unfold BookOp.after
  cases hop : op.perform lower sha256 b with
  | error e => exact ⟨h,fun a ha _ => ⟨ha,rfl⟩⟩
  | ok b' => exact h.perform hop

/-- No accounts, filters, hits, directs or transactions yet. -/
structure EmptyBooks (b : Books) : Prop where
  store : EmptyStore b.store
  accounts : b.store.accounts=[]

lemma EmptyBooks.invariant (h : EmptyBooks b) : BookInvariant lower b where
  category := h.store.invariant lower
  ids := by simp [h.accounts]
  ids_lt := by simp [h.accounts]
  ibans := by simp [activeIbans,h.accounts]
  rows := by simp [h.accounts]
  owned := by simp [Owned,h.store.transactions]

/-- What holds of the accounts, and which answers their requests get. -/
structure AccountLaw (isAlnum : CodePoint → Bool) (b : Books) : Prop where
  one_iban : ∀ a ∈ b.store.accounts, ∀ a' ∈ b.store.accounts, isActive a=true → isActive a'=true →
    normalizedIban (b.texts a.id).iban=normalizedIban (b.texts a'.id).iban → a=a'
  owned : Owned b.store.accounts b.store.transactions
  hits : ∀ hit ∈ b.store.filterHits, ∃ f ∈ b.store.filters, f.id=hit.p4xCategoryFilterId ∧
    ∃ a ∈ b.store.accounts, a.id=f.p4xAccountId ∧ isActive a=true
  created : ∀ today (data : AccountSaveRequest isAlnum today), createAccount b data=
    if IbanTaken b data.iban none then .error (.http 409 "IBAN existiert bereits.")
    else if Saveable data then .ok (addedAccount b data) else .error .databaseError
  updated : ∀ account ∈ b.store.accounts, ∀ today (data : AccountSaveRequest isAlnum today),
    updateAccount b account data=
      if IbanTaken b data.iban (some account.id) then .error (.http 409 "IBAN existiert bereits.")
      else if Saveable data then .ok (changedAccount b account data) else .error .databaseError
  deleted : ∀ account ∈ b.store.accounts, ∀ now, deleteAccount b account now=
    if Unused b.store account then .ok (deletedAccount b account now)
    else .error (.http 409
      "Konto kann nicht gelöscht werden, da Transaktionen vorhanden sind.")

lemma BookInvariant.law (h : BookInvariant lower b) : AccountLaw isAlnum b where
  one_iban := (activeIbans_nodup_iff h.ids).mp h.ibans
  owned := h.owned
  hits hit hhit := by
    obtain ⟨f,hf,t,ht,rfl,hactive,-,hcriteria⟩ := (h.category.hits.mem_iff hit).mp hhit
    obtain ⟨a,ha,hid,hopen⟩ := h.owned t ht hactive
    refine ⟨f,hf,rfl,a,ha,hid.trans ?_,hopen⟩
    simp only [meetsCriteria,Bool.and_eq_true,decide_eq_true_eq] at hcriteria
    exact hcriteria.1.1.1.1
  created _ data := createAccount_eq h data
  updated _ haccount _ data := updateAccount_eq h haccount data
  deleted account _ now := deleteAccount_eq h account now

variable (isAlnum lower sha256)

lemma bookInvariant_of_reaches (h : BookInvariant lower b)
    (hrun : (bookMachine isAlnum lower sha256).Reaches Machine.Any b b') :
    BookInvariant lower b' := by
  refine hrun.invariant h ?_
  intro b op b' hb _ hstep
  obtain rfl := Option.some.inj hstep
  exact (hb.after op).1

/-- In every reachable state each IBAN, blanks apart, has one active account at most, active
transactions and hits belong to active accounts, and the requests are answered as the guards say:
the index of the table refuses nothing. A deleted account stays as it was. -/
theorem accounts_lawful {b₀ b : Books} (hempty : EmptyBooks b₀)
    (hrun : (bookMachine isAlnum lower sha256).Reaches Machine.Any b₀ b) :
    AccountLaw isAlnum b ∧
      ∀ b', (bookMachine isAlnum lower sha256).Reaches Machine.Any b b' → KeepsDeleted b b' := by
  have hinvariant := bookInvariant_of_reaches isAlnum lower sha256 hempty.invariant hrun
  refine ⟨hinvariant.law,?_⟩
  intro b' hlater
  refine hlater.relates (I:=BookInvariant lower) hinvariant ?_ ?_ ?_ ?_
  · intro b op b' hb _ hstep
    obtain rfl := Option.some.inj hstep
    exact (hb.after op).1
  · intro b a ha _
    exact ⟨ha,rfl⟩
  · intro b b' b'' h h'
    exact h.trans h'
  · intro b op b' hb _ hstep
    obtain rfl := Option.some.inj hstep
    exact (hb.after op).2

end Law

/-- The empty tables of the module. -/
def emptyBooks : Books :=
  ⟨{ bareStore with accounts := [] },fun _ => ⟨[],none,none⟩⟩

def noAlnum (c : CodePoint) : Bool := (asciiDigit? c).isSome

/-- A request for an account, with blanks in the IBAN or without. -/
def girokontoRequest (blanks : Bool) : AccountSaveRequest noAlnum (Date.of 2026 1 1) where
  iban := text (if blanks then "AT61 1904 3002" else "AT6119043002")
  bic := text "OPSKATWW"
  label := text "Girokonto"
  initDate := Date.of 2020 1 1
  initBalance := 0
  iban_length := by cases blanks <;> decide
  iban_format := by cases blanks <;> decide
  bic_format := by decide
  label_length := by decide
  init_date_floor := by decide
  init_date_past := by decide
  init_balance_bound := by decide

def girokontoBooks : Books :=
  (BookOp.createAccount _ (girokontoRequest false)).after id (fun _ => "h") emptyBooks

theorem accounts_lawful_girokonto : createAccount girokontoBooks (girokontoRequest true)=
    .error (.http 409 "IBAN existiert bereits.") := by
  have hempty : EmptyBooks emptyBooks := ⟨⟨rfl,rfl,rfl,rfl⟩,rfl⟩
  have hrun : (bookMachine noAlnum id fun _ => "h").Reaches Machine.Any emptyBooks
      girokontoBooks := .next .refl trivial rfl
  have hlaw := (accounts_lawful noAlnum id (fun _ => "h") hempty hrun).1
  rw [hlaw.created,if_pos]
  decide

end VbApi.P4x.Accounts
