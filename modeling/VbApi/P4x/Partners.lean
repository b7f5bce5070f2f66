import VbApi.P4x.FilterHits
import VbApi.P4x.Listings

/-! The partners of transactions: a partner is stored for each IBAN of a counter-account, and a
transaction may name a delegating partner of its own. -/
namespace VbApi.P4x.Partners
open VbApi.Foundations
open VbApi.P4x.Listings (PartnerType)

/-- What a request names: a partner of some type by its id. -/
structure PartnerRef where
  type : PartnerType
  id : Uuid
  deriving DecidableEq

/-- The four foreign keys of which at most one is set. -/
structure Arc where
  member : Option Uuid
  contact : Option Uuid
  account : Option Uuid
  special : Option Uuid

namespace Arc

def empty : Arc := ⟨none,none,none,none⟩

/-- Reset all four columns, then set the one of the type. -/
def single (ref : PartnerRef) : Arc :=
  match ref.type with
  | .member => { empty with member := some ref.id }
  | .contact => { empty with contact := some ref.id }
  | .account => { empty with account := some ref.id }
  | .special => { empty with special := some ref.id }

def refs (a : Arc) : List PartnerRef :=
  a.member.toList.map (⟨.member,·⟩) ++ a.contact.toList.map (⟨.contact,·⟩) ++
    a.account.toList.map (⟨.account,·⟩) ++ a.special.toList.map (⟨.special,·⟩)

@[simp] lemma refs_empty : empty.refs=[] := rfl

@[simp] lemma refs_single (ref : PartnerRef) : (single ref).refs=[ref] := by
  obtain ⟨type,id⟩ := ref
  cases type <;> rfl

end Arc

def partnerArc (p : P4xPartner) : Arc :=
  ⟨p.memberId,p.contactId,p.p4xAccountId,p.p4xSpecialContactId⟩

def delegatingArc (t : P4xTransaction) : Arc :=
  ⟨t.delegatingMemberId,t.delegatingContactId,t.delegatingP4xAccountId,
    t.delegatingP4xSpecialContactId⟩

/-- The finance tables with the ids of the contacts and the special contacts. -/
structure Finance where
  store : Store
  contactIds : List Uuid
  specialcontactIds : List Uuid

def entityIds (f : Finance) : PartnerType → List Uuid
  | .member => f.store.members.map (·.id)
  | .contact => f.contactIds
  | .account => f.store.accounts.map (·.id)
  | .special => f.specialcontactIds

/-- `find_partner_entity`; a deleted account is found as well. -/
def HasEntity (f : Finance) (ref : PartnerRef) : Prop := ref.id ∈ entityIds f ref.type

instance (f : Finance) (ref : PartnerRef) : Decidable (HasEntity f ref) :=
  inferInstanceAs (Decidable (_ ∈ _))

/-- Exactly one foreign key, to a row that exists. -/
def PartnerRowValid (f : Finance) (p : P4xPartner) : Prop :=
  (partnerArc p).refs.length=1 ∧ (∀ ref ∈ (partnerArc p).refs, HasEntity f ref) ∧
  ∀ iban ∈ p.iban, Storable iban

instance (f : Finance) (p : P4xPartner) : Decidable (PartnerRowValid f p) :=
  inferInstanceAs (Decidable (_ ∧ _))

/-- At most one delegating partner, of a row that exists. -/
def DelegatingValid (f : Finance) (t : P4xTransaction) : Prop :=
  (delegatingArc t).refs.length ≤ 1 ∧ ∀ ref ∈ (delegatingArc t).refs, HasEntity f ref

instance (f : Finance) (t : P4xTransaction) : Decidable (DelegatingValid f t) :=
  inferInstanceAs (Decidable (_ ∧ _))

/-- What the tables enforce, the partners included. -/
def FinanceConstraints (f : Finance) : Prop :=
  DbConstraints f.store ∧ (f.store.transactions.map (·.id)).Nodup ∧
  (f.store.partners.filterMap (·.iban)).Nodup ∧ (∀ p ∈ f.store.partners, PartnerRowValid f p) ∧
  ∀ t ∈ f.store.transactions, DelegatingValid f t

instance (f : Finance) : Decidable (FinanceConstraints f) := inferInstanceAs (Decidable (_ ∧ _))

def commitFinance (f : Finance) : Except OpError Finance :=
  if FinanceConstraints f then .ok f else .error .databaseError

/-- The partner row of an IBAN, updated or added. -/
def assignPartner (partners : List P4xPartner) (iban : PyText) (ref : PartnerRef) : List P4xPartner :=
  let a := Arc.single ref
  let row : P4xPartner := ⟨some iban,a.member,a.contact,a.account,a.special,none⟩
  if some iban ∈ partners.map (·.iban) then
    partners.map fun p => if p.iban=some iban then row else p
  else partners ++ [row]

/-- Set the live partner of an IBAN aside. -/
def removePartner (partners : List P4xPartner) (iban : PyText) (now : Timestamp) : List P4xPartner :=
  partners.map fun p =>
    if p.iban=some iban ∧ p.active=true then { p with deletedAt := some now } else p

def withDelegating (a : Arc) (t : P4xTransaction) : P4xTransaction :=
  { t with
    delegatingMemberId := a.member
    delegatingContactId := a.contact
    delegatingP4xAccountId := a.account
    delegatingP4xSpecialContactId := a.special }

/-- The finance tables with other partners, and one transaction with another delegating partner. -/
def withPartners (f : Finance) (txId : Uuid) (partners : List P4xPartner) (delegating : Arc) :
    Finance :=
  { f with store := { f.store with
      partners := partners
      transactions := f.store.transactions.map fun row =>
        if row.id=txId then withDelegating delegating row else row } }

/-- Set the partner of a transaction and, independently, its delegating partner. -/
def setTransactionPartner (f : Finance) (now : Timestamp) (t : P4xTransaction)
    (partnerData : Option PartnerRef) (hasDelegating : Bool) (delegatingData : Option PartnerRef) :
    Except OpError Finance := do
  guardError (partnerData=none ∨ strip t.iban ≠ [])
    (.http 422 "Buchungen ohne Gegenkonto können keinem Partner zugeordnet werden.")
  guardError (∀ ref ∈ partnerData, HasEntity f ref)
    (.http 404 "Angegebener Partner wurde nicht gefunden.")
  let partners := match partnerData with
    | some ref => assignPartner f.store.partners t.iban ref
    | none => removePartner f.store.partners t.iban now
  let delegatingData := if hasDelegating then delegatingData else none
  guardError (∀ ref ∈ delegatingData, HasEntity f ref)
    (.http 404 "Angegebener delegierender Partner wurde nicht gefunden.")
  commitFinance (withPartners f t.id partners ((delegatingData.map Arc.single).getD .empty))

/-- The partner warnings name the transaction. -/
def Reported (f : Finance) (txId : Uuid) : Prop :=
  txId ∈ (getWarningsPartner f.store).1.map (·.id)

/-- Some partner can be set for the transaction, after which it is not reported any more. -/
def Clearable (f : Finance) (t : P4xTransaction) : Prop :=
  ∃ partner, ∀ now, ∃ f', setTransactionPartner f now t (some partner) false none=.ok f' ∧
    ¬ Reported f' t.id

section Assignment
variable {f : Finance} {partners : List P4xPartner} {iban : PyText} {ref : PartnerRef}

lemma mem_assignPartner {p : P4xPartner} (hp : p ∈ assignPartner partners iban ref) :
    p ∈ partners ∨ p.iban=some iban ∧ p.active=true ∧ partnerArc p=Arc.single ref := by
  unfold assignPartner at hp
  dsimp only at hp
  split_ifs at hp
  · obtain ⟨q,hq,rfl⟩ := List.mem_map.mp hp
    split_ifs
    · exact Or.inr ⟨rfl,rfl,rfl⟩
    · exact Or.inl hq
  · rcases List.mem_append.mp hp with hp | hp
    · exact Or.inl hp
    · rw [List.mem_singleton.mp hp]
      exact Or.inr ⟨rfl,rfl,rfl⟩

/-- The IBAN has a live partner now. -/
lemma exists_assignPartner (partners : List P4xPartner) (iban : PyText) (ref : PartnerRef) :
    ∃ p ∈ assignPartner partners iban ref, p.iban=some iban ∧ p.active=true := by
  unfold assignPartner
  dsimp only
  split_ifs with hmem
  · obtain ⟨q,hq,hiban⟩ := List.mem_map.mp hmem
    exact ⟨_,List.mem_map_of_mem hq,by rw [if_pos hiban],by rw [if_pos hiban]; rfl⟩
  · exact ⟨_,List.mem_append_right _ (List.mem_singleton_self _),rfl,rfl⟩

/-- The IBANs stay unique. -/
lemma assignPartner_ibans (h : (partners.filterMap (·.iban)).Nodup) :
    ((assignPartner partners iban ref).filterMap (·.iban)).Nodup := by
  unfold assignPartner
  dsimp only
  split_ifs with hmem
  · have hsame : ∀ p : P4xPartner, (if p.iban=some iban then
        (⟨some iban,(Arc.single ref).member,(Arc.single ref).contact,(Arc.single ref).account,
          (Arc.single ref).special,none⟩ : P4xPartner) else p).iban=p.iban := by
      intro p
      split_ifs with hp
      · exact hp.symm
      · rfl
    rw [List.filterMap_map]
    simpa only [Function.comp_def,hsame] using h
  · rw [List.filterMap_append]
    refine h.append (by simp) ?_
    intro other hold hnew
    obtain ⟨p,hp,hiban⟩ := List.mem_filterMap.mp hold
    have heq : other=iban := by simpa using hnew
    exact hmem (List.mem_map.mpr ⟨p,hp,heq ▸ hiban⟩)

@[simp] lemma withDelegating_id (a : Arc) (t : P4xTransaction) : (withDelegating a t).id=t.id := rfl

lemma delegatingArc_withDelegating (a : Arc) (t : P4xTransaction) :
    delegatingArc (withDelegating a t)=a := rfl

/-- Another delegating partner changes nothing that the category tables check. -/
lemma DbConstraints.withPartners (h : DbConstraints f.store) (txId : Uuid) (delegating : Arc) :
    DbConstraints (withPartners f txId partners delegating).store := by
  obtain ⟨hnames,hfilters,hhits,hdirects,hrows,hhashes,htransactions⟩ := h
  have hsame : ∀ (β : Type) (column : P4xTransaction → β),
      (∀ t, column (withDelegating delegating t)=column t) →
      (f.store.transactions.map fun row =>
        if row.id=txId then withDelegating delegating row else row).map column=
        f.store.transactions.map column := by
    intro β column hcolumn
    rw [List.map_map]
    apply List.map_congr_left
    intro row _
    dsimp only [Function.comp_apply]
    split_ifs
    · exact hcolumn row
    · rfl
  refine ⟨hnames,hfilters,hhits,hdirects,?_,?_,?_⟩
  · intro d hd
    obtain ⟨⟨t,ht,hid⟩,hrest⟩ := hrows d hd
    refine ⟨?_,hrest⟩
    have hmem : d.p4xTransactionId ∈ f.store.transactions.map (·.id) := List.mem_map.mpr ⟨t,ht,hid⟩
    rw [← hsame _ (·.id) fun _ => rfl] at hmem
    exact List.mem_map.mp hmem
  · change ((f.store.transactions.map fun row =>
      if row.id=txId then withDelegating delegating row else row).map (·.sha256Hash)).Nodup
    rw [hsame _ (·.sha256Hash) fun _ => rfl]
    exact hhashes
  · intro t ht
    obtain ⟨row,hrow,rfl⟩ := List.mem_map.mp ht
    have hvalid := htransactions row hrow
    split_ifs
    · exact hvalid
    · exact hvalid

lemma HasEntity.withPartners {txId : Uuid} {delegating : Arc} (h : HasEntity f ref) :
    HasEntity (withPartners f txId partners delegating) ref := by
  obtain ⟨type,id⟩ := ref
  cases type <;> exact h

/-- An assignment without a delegating partner goes through. -/
lemma FinanceConstraints.assign (h : FinanceConstraints f) {t : P4xTransaction}
    (ht : t ∈ f.store.transactions) (href : HasEntity f ref) :
    FinanceConstraints
      (withPartners f t.id (assignPartner f.store.partners t.iban ref) .empty) := by
  obtain ⟨hcategory,hids,hibans,hpartners,hdelegating⟩ := h
  refine ⟨DbConstraints.withPartners hcategory _ _,?_,assignPartner_ibans hibans,?_,?_⟩
  · have hsame : (f.store.transactions.map fun row =>
        if row.id=t.id then withDelegating .empty row else row).map (·.id)=
        f.store.transactions.map (·.id) := by
      rw [List.map_map]
      apply List.map_congr_left
      intro row _
      by_cases hrow : row.id=t.id <;> simp [hrow]
    change ((f.store.transactions.map fun row =>
      if row.id=t.id then withDelegating .empty row else row).map (·.id)).Nodup
    rw [hsame]
    exact hids
  · intro p hp
    rcases mem_assignPartner hp with hp | ⟨hiban,-,harc⟩
    · obtain ⟨hone,hrefs,hstorable⟩ := hpartners p hp
      exact ⟨hone,fun r hr => (hrefs r hr).withPartners,hstorable⟩
    · refine ⟨?_,?_,?_⟩
      · rw [harc,Arc.refs_single]
        rfl
      · rw [harc,Arc.refs_single]
        intro r hr
        rw [List.mem_singleton.mp hr]
        exact href.withPartners
      · intro iban hmem
        obtain rfl : t.iban=iban := Option.some.inj (hiban.symm.trans hmem)
        obtain ⟨-,-,-,-,-,-,hrows⟩ := hcategory
        exact (hrows t ht).2.1
  · intro row' hrow'
    obtain ⟨row,hrow,rfl⟩ := List.mem_map.mp hrow'
    split_ifs
    · rw [DelegatingValid,delegatingArc_withDelegating]
      exact ⟨Nat.zero_le _,by simp⟩
    · obtain ⟨hone,hrefs⟩ := hdelegating row hrow
      exact ⟨hone,fun r hr => (hrefs r hr).withPartners⟩

/-- A transaction whose IBAN has a live partner is not reported. -/
lemma not_reported_of_partner (hids : (f.store.transactions.map (·.id)).Nodup) {t : P4xTransaction}
    (ht : t ∈ f.store.transactions) {p : P4xPartner} (hp : p ∈ f.store.partners)
    (hactive : p.active=true) (hiban : p.iban=some t.iban) : ¬ Reported f t.id := by
  intro hreported
  obtain ⟨row,hrow,hid⟩ := List.mem_map.mp hreported
  simp only [getWarningsPartner,mem_sortBy,List.mem_filter,Bool.and_eq_true,Bool.or_eq_true,
    decide_eq_true_eq] at hrow
  obtain ⟨hrow,-,hnone⟩ := hrow
  have hmem : some t.iban ∈ (f.store.partners.filter P4xPartner.active).map (·.iban) :=
    List.mem_map.mpr ⟨p,List.mem_filter.mpr ⟨hp,hactive⟩,hiban⟩
  obtain rfl := List.inj_on_of_nodup_map hids hrow ht hid
  rcases hnone with hnil | ⟨hnot,-⟩
  · rw [hnil] at hmem
    contradiction
  · exact hnot hmem

end Assignment

/-- A transaction can be cleared exactly when its IBAN is not blank: then its own account will do. -/
lemma clearable_iff {f : Finance} (h : FinanceConstraints f) {t : P4xTransaction}
    (ht : t ∈ f.store.transactions) : Clearable f t ↔ strip t.iban ≠ [] := by
  constructor
  · rintro ⟨partner,hpartner⟩
    obtain ⟨f',hset,-⟩ := hpartner 0
    simp only [setTransactionPartner,bind_eq_ok_iff,guardError_eq_ok_iff] at hset
    obtain ⟨-,hblank,-⟩ := hset
    exact hblank.resolve_left (by simp)
  · intro hiban
    obtain ⟨-,-,-,-,-,-,hrows⟩ := h.1
    obtain ⟨account,haccount,hid⟩ := (hrows t ht).1
    let ref : PartnerRef := ⟨.account,account.id⟩
    have href : HasEntity f ref := List.mem_map_of_mem haccount
    let f' := withPartners f t.id (assignPartner f.store.partners t.iban ref) .empty
    have hvalid : FinanceConstraints f' := h.assign ht href
    refine ⟨ref,fun now => ⟨f',?_,?_⟩⟩
    · simp only [setTransactionPartner,guardError]
      rw [if_pos (Or.inr hiban),ok_bind,if_pos (by simpa using href),ok_bind]
      simp only [Bool.false_eq_true,if_false,Option.not_mem_none,IsEmpty.forall_iff,
        implies_true,if_true,ok_bind]
      exact if_pos hvalid
    · obtain ⟨p,hp,hpiban,hactive⟩ := exists_assignPartner f.store.partners t.iban ref
      have ht' : withDelegating .empty t ∈ f'.store.transactions :=
        List.mem_map.mpr ⟨t,ht,if_pos rfl⟩
      rw [← withDelegating_id .empty t]
      exact not_reported_of_partner hvalid.2.1 ht' hp hactive hpiban

section Runs
variable (lower : PyText → PyText) (sha256 : List Char → String)

/-- A request on the finance tables, or a save of the members, accounts and contacts elsewhere. -/
inductive FinanceOp
  | category (op : CategoryOp)
  | setTransactionPartner (transactionId : Uuid) (now : Timestamp) (partner : Option PartnerRef)
      (hasDelegating : Bool) (delegating : Option PartnerRef)
  | saveElsewhere (members : List Member) (accounts : List P4xAccount)
      (contactIds specialcontactIds : List Uuid)

def FinanceOp.perform (f : Finance) : FinanceOp → Except OpError Finance
  | .category op => do commitFinance { f with store := ← op.perform lower sha256 f.store }
  | .setTransactionPartner transactionId now partner hasDelegating delegating => do
    Partners.setTransactionPartner f now (← getTransactionOr404 f.store transactionId) partner
      hasDelegating delegating
  | .saveElsewhere members accounts contactIds specialcontactIds =>
    commitFinance ⟨{ f.store with members := members, accounts := accounts },contactIds,
      specialcontactIds⟩

/-- The tables after a request; one that raises is rolled back. -/
def FinanceOp.after (f : Finance) (op : FinanceOp) : Finance :=
  match op.perform lower sha256 f with
  | .ok f' => f'
  | .error _ => f

def financeMachine : Machine Finance FinanceOp where
  step f op := some (op.after lower sha256 f)

def IsAssignment (_ : Finance) (op : FinanceOp) : Prop :=
  ∃ transactionId now partner hasDelegating delegating,
    op=.setTransactionPartner transactionId now partner hasDelegating delegating

lemma commitFinance_eq_ok {f f' : Finance} (h : commitFinance f=.ok f') :
    f'=f ∧ FinanceConstraints f := by
  unfold commitFinance at h
  split_ifs at h with hvalid
  cases h
  exact ⟨rfl,hvalid⟩

/-- What an assignment that goes through has written. -/
lemma setTransactionPartner_eq_ok {f f' : Finance} {now : Timestamp} {t : P4xTransaction}
    {partner delegating : Option PartnerRef} {hasDelegating : Bool}
    (h : setTransactionPartner f now t partner hasDelegating delegating=.ok f') :
    FinanceConstraints f' ∧ ∃ partners arc, f'=withPartners f t.id partners arc ∧
      (partners=removePartner f.store.partners t.iban now ∨
        strip t.iban ≠ [] ∧ ∃ ref, partners=assignPartner f.store.partners t.iban ref) := by
  simp only [setTransactionPartner,bind_eq_ok_iff,guardError_eq_ok_iff] at h
  obtain ⟨-,hblank,-,-,-,-,hcommit⟩ := h
  obtain ⟨rfl,hvalid⟩ := commitFinance_eq_ok hcommit
  refine ⟨hvalid,_,_,rfl,?_⟩
  cases partner with
  | none => exact Or.inl rfl
  | some ref => exact Or.inr ⟨hblank.resolve_left (by simp),ref,rfl⟩

/-- Every committed request leaves tables that meet their constraints. -/
lemma FinanceConstraints.after {f : Finance} (h : FinanceConstraints f) (op : FinanceOp) :
    FinanceConstraints (op.after lower sha256 f) := by
  unfold FinanceOp.after
  cases hop : op.perform lower sha256 f with
  | error e => exact h
  | ok f' =>
    cases op with
    | category op =>
      simp only [FinanceOp.perform,bind_eq_ok_iff] at hop
      obtain ⟨s,-,hcommit⟩ := hop
      obtain ⟨rfl,hvalid⟩ := commitFinance_eq_ok hcommit
      exact hvalid
    | setTransactionPartner transactionId now partner hasDelegating delegating =>
      simp only [FinanceOp.perform,bind_eq_ok_iff] at hop
      obtain ⟨t,-,hset⟩ := hop
      exact (setTransactionPartner_eq_ok hset).1
    | saveElsewhere members accounts contactIds specialcontactIds =>
      obtain ⟨rfl,hvalid⟩ := commitFinance_eq_ok hop
      exact hvalid

/-- A reported booking with a blank IBAN. -/
def BlankReported (f : Finance) (txId : Uuid) : Prop :=
  ∃ t ∈ f.store.transactions, t.id=txId ∧ t.active=true ∧ strip t.iban=[] ∧
    ∀ p ∈ f.store.partners, p.active=true → p.iban ≠ some t.iban ∧ p.iban ≠ none

lemma BlankReported.reported {f : Finance} {txId : Uuid} (h : BlankReported f txId) :
    Reported f txId := by
  obtain ⟨t,ht,rfl,hactive,-,hnone⟩ := h
  refine List.mem_map_of_mem ?_
  simp only [getWarningsPartner,mem_sortBy,List.mem_filter,Bool.and_eq_true,Bool.or_eq_true,
    decide_eq_true_eq,List.mem_map,not_exists,not_and]
  refine ⟨ht,hactive,Or.inr ⟨?_,?_⟩⟩
  · rintro p ⟨hp,hlive⟩
    exact (hnone p hp hlive).1
  · rintro p ⟨hp,hlive⟩
    exact (hnone p hp hlive).2

lemma blankReported_of_reported {f : Finance} (hids : (f.store.transactions.map (·.id)).Nodup)
    {t : P4xTransaction} (ht : t ∈ f.store.transactions) (hblank : strip t.iban=[])
    (h : Reported f t.id) : BlankReported f t.id := by
  obtain ⟨row,hrow,hid⟩ := List.mem_map.mp h
  simp only [getWarningsPartner,mem_sortBy,List.mem_filter,Bool.and_eq_true,Bool.or_eq_true,
    decide_eq_true_eq] at hrow
  obtain ⟨hrow,hactive,hnone⟩ := hrow
  obtain rfl := List.inj_on_of_nodup_map hids hrow ht hid
  refine ⟨row,hrow,rfl,hactive,hblank,?_⟩
  intro p hp hlive
  have hmem : p.iban ∈ (f.store.partners.filter P4xPartner.active).map (·.iban) :=
    List.mem_map_of_mem (List.mem_filter.mpr ⟨hp,hlive⟩)
  rcases hnone with hnil | ⟨hnot,hnull⟩
  · rw [hnil] at hmem
    contradiction
  · exact ⟨fun heq => hnot (heq ▸ hmem),fun heq => hnull (heq ▸ hmem)⟩

/-- No assignment on any transaction gives a blank IBAN a partner. -/
lemma BlankReported.set {f f' : Finance} {txId : Uuid} (h : BlankReported f txId) {now : Timestamp}
    {t : P4xTransaction} {partner delegating : Option PartnerRef} {hasDelegating : Bool}
    (hset : setTransactionPartner f now t partner hasDelegating delegating=.ok f') :
    BlankReported f' txId := by
  obtain ⟨t₀,ht₀,rfl,hactive,hblank,hnone⟩ := h
  obtain ⟨-,partners,arc,rfl,hpartners⟩ := setTransactionPartner_eq_ok hset
  have hrow : (if t₀.id=t.id then withDelegating arc t₀ else t₀) ∈
      (withPartners f t.id partners arc).store.transactions :=
    List.mem_map.mpr ⟨t₀,ht₀,rfl⟩
  have hpartner : ∀ p ∈ partners, p.active=true → p.iban ≠ some t₀.iban ∧ p.iban ≠ none := by
    intro p hp hlive
    rcases hpartners with rfl | ⟨hfilled,ref,rfl⟩
    · obtain ⟨q,hq,rfl⟩ := List.mem_map.mp hp
      split_ifs at hlive with haside
      · cases hlive
      · rw [if_neg haside]
        exact hnone q hq hlive
    · rcases mem_assignPartner hp with hp | ⟨hiban,-,-⟩
      · exact hnone p hp hlive
      · rw [hiban]
        refine ⟨?_,Option.some_ne_none _⟩
        intro heq
        exact hfilled (Option.some.inj heq ▸ hblank)
  refine ⟨_,hrow,?_,?_,?_,?_⟩
  · split_ifs <;> rfl
  · split_ifs <;> exact hactive
  · split_ifs <;> exact hblank
  · split_ifs <;> exact hpartner

lemma BlankReported.run {f f' : Finance} {txId : Uuid} (h : BlankReported f txId)
    (hrun : (financeMachine lower sha256).Reaches IsAssignment f f') : BlankReported f' txId := by
  refine hrun.invariant (I := fun g => BlankReported g txId) h ?_
  rintro g op g' hg ⟨transactionId,now,partner,hasDelegating,delegating,rfl⟩ hstep
  obtain rfl := Option.some.inj hstep
  unfold FinanceOp.after
  cases hop : FinanceOp.perform lower sha256 g
      (.setTransactionPartner transactionId now partner hasDelegating delegating) with
  | error e => exact hg
  | ok g' =>
    simp only [FinanceOp.perform,bind_eq_ok_iff] at hop
    obtain ⟨t,-,hset⟩ := hop
    exact hg.set hset

/-- An open partner warning blocks the conversion of every filter. -/
lemma filterToDirect_refused {f : Finance} {txId : Uuid} (h : Reported f txId) (now : Timestamp)
    (categoryFilter : P4xCategoryFilter) : filterToDirect lower f.store now categoryFilter=
      .error (.refused "Es gibt noch offene Warnungen. Bitte zuerst alle Warnungen beheben.") := by
  have hpos : 0 < (getWarningsPartner f.store).2 := by
    obtain ⟨t,ht,-⟩ := List.mem_map.mp h
    rw [getWarningsPartner,mem_sortBy] at ht
    exact List.length_pos_of_mem ht
  rw [filterToDirect,if_pos (by omega)]
  rfl

/-- In every reachable state the warning of a transaction can be cleared exactly when its IBAN is not
blank; the warning of a booking with a blank IBAN outlasts all assignments, and no filter can be
converted while it is there. -/
theorem warnings_clearable_iff {f₀ f : Finance} (h : FinanceConstraints f₀)
    (hrun : (financeMachine lower sha256).Reaches Machine.Any f₀ f) {t : P4xTransaction}
    (ht : t ∈ f.store.transactions) :
    (Clearable f t ↔ strip t.iban ≠ []) ∧
    (strip t.iban=[] → Reported f t.id →
      ∀ f', (financeMachine lower sha256).Reaches IsAssignment f f' →
        Reported f' t.id ∧ ∀ now categoryFilter, filterToDirect lower f'.store now categoryFilter=
          .error (.refused
            "Es gibt noch offene Warnungen. Bitte zuerst alle Warnungen beheben.")) := by
  have hvalid : FinanceConstraints f := by
    refine hrun.invariant h ?_
    intro g op g' hg _ hstep
    obtain rfl := Option.some.inj hstep
    exact hg.after lower sha256 op
  refine ⟨clearable_iff hvalid ht,?_⟩
  intro hblank hreported f' hassign
  have hstays := (blankReported_of_reported hvalid.2.1 ht hblank hreported).run lower sha256 hassign
  exact ⟨hstays.reported,filterToDirect_refused lower hstays.reported⟩

end Runs

/-- An entry of the cash register: it names no counter-account. -/
def cashEntry : ImportEntry where
  payload := ⟨some (Date.of 2026 3 1),some (Date.of 2026 3 1),some ⟨[],trivial⟩,
    some ⟨false,5000⟩,some ⟨text "mitgliedsbeitrag",merged_mitgliedsbeitrag⟩⟩
  raw := "{}"
  originalBooking := text "2026-03-01T00:00:00.000+0100"
  originalValuation := text "2026-03-01T00:00:00.000+0100"

def bareFinance : Finance := ⟨{ bareStore with members := [⟨3,none,none,none,none,none,false,false,
  none,none,none,none⟩] },[],[]⟩

/-- The tables after the entries are imported. -/
def importedFinance (entries : List ImportEntry) : Finance :=
  FinanceOp.after id (fun _ => "h") bareFinance (.category (.importAndApplyFilters 1 7 entries))

lemma importedFinance_reaches (entries : List ImportEntry) :
    (financeMachine id fun _ => "h").Reaches Machine.Any bareFinance (importedFinance entries) :=
  .next .refl trivial rfl

lemma bareFinance_constraints : FinanceConstraints bareFinance := by decide +kernel

lemma cash_blankReported : BlankReported (importedFinance [cashEntry]) 10 := by
  unfold BlankReported
  decide +kernel

theorem warnings_clearable_at1 :
    ∃ t ∈ (importedFinance [beitragEntry]).store.transactions,
      Clearable (importedFinance [beitragEntry]) t := by
  have hrows : ∃ t ∈ (importedFinance [beitragEntry]).store.transactions, strip t.iban ≠ [] := by
    decide +kernel
  obtain ⟨t,ht,hiban⟩ := hrows
  exact ⟨t,ht,((warnings_clearable_iff id (fun _ => "h") bareFinance_constraints
    (importedFinance_reaches [beitragEntry]) ht).1).mpr hiban⟩

/-- The import of a cash entry leaves a warning that no partner clears. -/
theorem cash_warning_stays :
    (financeMachine id fun _ => "h").Reaches Machine.Any bareFinance (importedFinance [cashEntry]) ∧
    ∃ t ∈ (importedFinance [cashEntry]).store.transactions, t.active=true ∧
      Reported (importedFinance [cashEntry]) t.id ∧ ¬ Clearable (importedFinance [cashEntry]) t := by
  refine ⟨importedFinance_reaches _,?_⟩
  obtain ⟨t,ht,hid,hactive,hblank,hnone⟩ := cash_blankReported
  refine ⟨t,ht,hactive,?_,?_⟩
  · rw [hid]
    exact cash_blankReported.reported
  · have hvalid : FinanceConstraints (importedFinance [cashEntry]) :=
      bareFinance_constraints.after id (fun _ => "h") _
    rw [clearable_iff hvalid ht,not_not]
    exact hblank

end VbApi.P4x.Partners
