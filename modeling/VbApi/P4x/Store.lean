import VbApi.Foundations.IsoDate
import Mathlib.Data.Finset.Basic

/-! The tables of the P4x finance module. Amounts are NUMERIC(12,2) columns and are counted in
cents; a soft-deleted row keeps its place and carries the moment of its deletion. -/
namespace VbApi.P4x
open VbApi.Foundations

abbrev Uuid := ℕ
abbrev Timestamp := ℕ
abbrev Cents := ℤ

inductive SubjectMode
  | contains
  | equals
  | starts
  deriving DecidableEq, Repr

/-- The columns of a member that the finance module reads. -/
structure Member where
  id : Uuid
  vorname : Option PyText
  nachname : Option PyText
  couleurname : Option PyText
  orgId : Option PyText
  stateId : Option PyText
  entlassen : Bool
  verstorben : Bool
  philistrierungsdatum : Option Date
  p4xInitDate : Option Date
  p4xInitBalance : Option Cents
  p4xFreed : Option Bool
  deriving DecidableEq

structure P4xAccount where
  id : Uuid
  initDate : Option Date
  initBalance : Cents
  deletedAt : Option Timestamp
  deriving DecidableEq

structure P4xCategory where
  id : Uuid
  name : PyText
  deriving DecidableEq

structure P4xCategoryFilter where
  id : Uuid
  name : PyText
  p4xAccountId : Uuid
  iban : Option PyText
  minAmount : Option Cents
  maxAmount : Option Cents
  subject : Option PyText
  subjectMode : SubjectMode
  p4xCategoryId : Uuid
  deriving DecidableEq

structure P4xCategoryFilterHit where
  p4xCategoryFilterId : Uuid
  p4xTransactionId : Uuid
  deriving DecidableEq

structure P4xCategoryDirect where
  p4xTransactionId : Uuid
  p4xCategoryId : Uuid
  amount : Cents
  deletedAt : Option Timestamp
  deriving DecidableEq

structure P4xFee where
  start : Date
  fee : Cents
  deriving DecidableEq

structure P4xPartner where
  iban : Option PyText
  memberId : Option Uuid
  contactId : Option Uuid
  p4xAccountId : Option Uuid
  p4xSpecialContactId : Option Uuid
  deletedAt : Option Timestamp
  deriving DecidableEq

structure P4xTransaction where
  id : Uuid
  sha256Hash : String
  booking : Date
  valuation : Date
  iban : PyText
  amount : Cents
  subject : PyText
  p4xAccountId : Uuid
  delegatingMemberId : Option Uuid
  delegatingContactId : Option Uuid
  delegatingP4xAccountId : Option Uuid
  delegatingP4xSpecialContactId : Option Uuid
  raw : String
  deletedAt : Option Timestamp
  deriving DecidableEq

structure Store where
  members : List Member
  accounts : List P4xAccount
  categories : List P4xCategory
  filters : List P4xCategoryFilter
  filterHits : List P4xCategoryFilterHit
  directs : List P4xCategoryDirect
  fees : List P4xFee
  partners : List P4xPartner
  transactions : List P4xTransaction
  /-- The next value of `uuidv7()`. -/
  nextUuid : Uuid

def P4xCategoryDirect.active (d : P4xCategoryDirect) : Bool := d.deletedAt.isNone
def P4xPartner.active (p : P4xPartner) : Bool := p.deletedAt.isNone
def P4xTransaction.active (t : P4xTransaction) : Bool := t.deletedAt.isNone

/-- True when a transaction has no delegating partner set at all. -/
def noDelegationFilter (t : P4xTransaction) : Bool :=
  t.delegatingMemberId.isNone && t.delegatingContactId.isNone &&
  t.delegatingP4xAccountId.isNone && t.delegatingP4xSpecialContactId.isNone

/-- The transactions with at least one active direct assignment. -/
def txWithDirects (s : Store) : Finset Uuid :=
  ((s.directs.filter P4xCategoryDirect.active).map (·.p4xTransactionId)).toFinset

/-- The active direct assignments of one transaction. -/
def activeDirects (s : Store) (txId : Uuid) : List P4xCategoryDirect :=
  s.directs.filter fun d => d.active && d.p4xTransactionId=txId

/-- The rule of the deferred trigger: the active directs of a transaction split its amount. -/
def DirectSumHolds (s : Store) (t : P4xTransaction) : Prop :=
  activeDirects s t.id=[] ∨ ((activeDirects s t.id).map (·.amount)).sum=t.amount

instance (s : Store) (t : P4xTransaction) : Decidable (DirectSumHolds s t) :=
  inferInstanceAs (Decidable (_ ∨ _))

lemma mem_txWithDirects (s : Store) (txId : Uuid) :
    txId ∈ txWithDirects s ↔ ∃ d ∈ s.directs, d.active=true ∧ d.p4xTransactionId=txId := by
  simp [txWithDirects,and_assoc]

lemma mem_activeDirects (s : Store) (txId : Uuid) (d : P4xCategoryDirect) :
    d ∈ activeDirects s txId ↔ d ∈ s.directs ∧ d.active=true ∧ d.p4xTransactionId=txId := by
  simp [activeDirects]

lemma mem_txWithDirects_iff_activeDirects (s : Store) (txId : Uuid) :
    txId ∈ txWithDirects s ↔ activeDirects s txId ≠ [] := by
  rw [mem_txWithDirects]
  constructor
  · rintro ⟨d,hd⟩
    exact List.ne_nil_of_mem ((mem_activeDirects s txId d).mpr hd)
  · intro hne
    obtain ⟨d,hd⟩ := List.exists_mem_of_ne_nil _ hne
    exact ⟨d,(mem_activeDirects s txId d).mp hd⟩

end VbApi.P4x
