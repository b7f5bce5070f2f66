import VbApi.Foundations.Interleaving

/-! Row locks. A client that changes a row holds it locked until its transaction ends; what one
client does leaves the locks of the others. -/
namespace VbApi.Foundations

/-- Who holds which row. -/
abbrev Locks (κ : Type*) := κ → Option ClientId

namespace Locks
variable {κ : Type*} {l l' l'' : Locks κ} {c c' : ClientId} {k : κ} {ks : List κ}

/-- The row is not locked by anyone else. -/
def FreeFor (l : Locks κ) (c : ClientId) (k : κ) : Prop := ∀ c' ∈ l k, c'=c

instance (l : Locks κ) (c : ClientId) (k : κ) : Decidable (l.FreeFor c k) :=
  inferInstanceAs (Decidable (∀ c' ∈ l k, c'=c))

def acquire [DecidableEq κ] (l : Locks κ) (c : ClientId) (ks : List κ) : Locks κ :=
  fun k => if k ∈ ks then some c else l k

/-- The end of a transaction. -/
def release (l : Locks κ) (c : ClientId) : Locks κ := fun k => if l k=some c then none else l k

/-- The locks of the other clients stay. -/
def KeptBut (c : ClientId) (l l' : Locks κ) : Prop :=
  ∀ c' k, c' ≠ c → l k=some c' → l' k=some c'

lemma KeptBut.refl (c : ClientId) (l : Locks κ) : KeptBut c l l := fun _ _ _ h => h

lemma KeptBut.release (c : ClientId) (l : Locks κ) : KeptBut c l (l.release c) := by
  intro c' k hc hk
  have hne : l k ≠ some c := by
    rw [hk]
    exact fun h => hc (Option.some.inj h)
  rw [Locks.release,if_neg hne]
  exact hk

lemma KeptBut.acquire [DecidableEq κ] (hfree : ∀ k ∈ ks, l.FreeFor c k) :
    KeptBut c l (l.acquire c ks) := by
  intro c' k hc hk
  have hmem : k ∉ ks := fun hmem => hc (hfree k hmem c' hk)
  rw [Locks.acquire,if_neg hmem]
  exact hk

lemma FreeFor.ne_of_held (hfree : l.FreeFor c k) (hc : c' ≠ c) : l k ≠ some c' :=
  fun hk => hc (hfree c' hk)

@[simp] lemma acquire_self [DecidableEq κ] (l : Locks κ) (c : ClientId) (k : κ) :
    l.acquire c [k] k=some c := by
  simp [acquire]

end Locks
end VbApi.Foundations
