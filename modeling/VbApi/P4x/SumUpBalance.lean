import VbApi.P4x.CategoryReaders

/-! The SumUp balance of the giro account. -/
namespace VbApi.P4x
open VbApi.Foundations

def girokontoAccountId : Uuid := 0x01a0645ca89e72aeb12cd68913d686e4

structure SumUpBalanceResponse where
  inCount : ℕ
  inSum : Cents
  outCount : ℕ
  outSum : Cents
  latest : Option PyText
  deriving DecidableEq

def SumUpBalanceResponse.zero : SumUpBalanceResponse := ⟨0,0,0,0,none⟩

def girokonto (s : Store) : Option P4xAccount :=
  s.accounts.find? fun a => a.id=girokontoAccountId && a.deletedAt.isNone

def sumupCategory (s : Store) : Option P4xCategory :=
  s.categories.find? fun c => c.name=sumupCategoryName

/-- The active bookings of the category in the account. -/
def sumupTransactions (s : Store) (account : P4xAccount) (category : P4xCategory) :
    List P4xTransaction :=
  s.transactions.filter fun t =>
    t.id ∈ categoryTxIds s (some category.id) && t.p4xAccountId=account.id && t.active

def getSumupBalance (s : Store) : SumUpBalanceResponse :=
  match girokonto s,sumupCategory s with
  | some account,some category =>
    if categoryTxIds s (some category.id)=∅ then .zero
    else
      let txs := sumupTransactions s account category
      let inTxs := txs.filter fun t => 0 < t.amount
      let outTxs := txs.filter fun t => t.amount < 0
      { inCount := inTxs.length
        inSum := (inTxs.map (·.amount)).sum
        outCount := outTxs.length
        outSum := (outTxs.map (·.amount)).sum
        latest := ((txs.map (·.booking)).max?).map Date.isoformat }
  | _,_ => .zero

/-- Both sums are over the category's bookings, also when there are none. -/
lemma getSumupBalance_sums {s : Store} {account : P4xAccount} {category : P4xCategory}
    (ha : girokonto s=some account) (hc : sumupCategory s=some category) :
    (getSumupBalance s).inSum=
        (((sumupTransactions s account category).filter fun t => 0 < t.amount).map (·.amount)).sum ∧
      (getSumupBalance s).outSum=
        (((sumupTransactions s account category).filter fun t => t.amount < 0).map (·.amount)).sum := by
  simp only [getSumupBalance,ha,hc]
  split_ifs with hempty
  · have hnil : sumupTransactions s account category=[] := by
      simp [sumupTransactions,hempty]
    simp [hnil,SumUpBalanceResponse.zero]
  · exact ⟨rfl,rfl⟩

end VbApi.P4x
