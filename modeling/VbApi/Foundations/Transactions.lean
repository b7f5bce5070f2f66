import VbApi.Foundations.Stateful

/-! Transactions: a session works on tables of its own until a commit makes them the committed ones.
What a session has not committed when it raises is rolled back. -/
namespace VbApi.Foundations
universe u

/-- The committed tables, and the tables as the session sees them. -/
structure Session (δ : Type u) where
  committed : δ
  current : δ

abbrev Transaction (ε δ : Type u) : Type u → Type u := Stateful ε (Session δ)

namespace Transaction
open Stateful
variable {ε δ α β : Type u}

/-- Write to the session's tables. -/
def write (f : δ → δ) : Transaction ε δ PUnit :=
  modify fun s => {s with current := f s.current}

/-- Read the session's tables; the answer may be an error. -/
def check (x : δ → Except ε α) : Transaction ε δ α := do
  let s ← get
  match x s.current with
  | .ok a => return a
  | .error e => throw e

/-- Send the writes to the database, which may refuse them. -/
def flush (accepts : δ → Bool) (refusal : ε) : Transaction ε δ PUnit := do
  let s ← get
  if !accepts s.current then throw refusal

def commit (accepts : δ → Bool) (refusal : ε) : Transaction ε δ PUnit := do
  flush accepts refusal
  modify fun s => {s with committed := s.current}

/-- Run in a new session; only what it commits stays. -/
def run (x : Transaction ε δ α) (db : δ) : Except ε α × δ :=
  let (result,s) := exec x ⟨db,db⟩
  (result,s.committed)

@[simp] lemma exec_write (f : δ → δ) (s : Session δ) :
    exec (write f : Transaction ε δ PUnit) s=(.ok ⟨⟩,{s with current := f s.current}) := rfl

@[simp] lemma exec_check (x : δ → Except ε α) (s : Session δ) :
    exec (check x) s=(x s.current,s) := by
  rw [check,exec_bind,exec_get]
  cases h : x s.current with
  | ok a => simp [h]
  | error e => simp [h]

lemma exec_flush (accepts : δ → Bool) (refusal : ε) (s : Session δ) :
    exec (flush accepts refusal) s=(if accepts s.current then .ok ⟨⟩ else .error refusal,s) := by
  rw [flush,exec_bind,exec_get]
  cases h : accepts s.current <;> simp [h]

@[simp] lemma exec_flush_eq_ok_iff {accepts : δ → Bool} {refusal : ε} {s s' : Session δ} {u : PUnit} :
    exec (flush accepts refusal) s=(.ok u,s') ↔ accepts s.current=true ∧ s=s' := by
  rw [exec_flush]
  cases accepts s.current <;> simp

@[simp] lemma exec_commit_eq_ok_iff {accepts : δ → Bool} {refusal : ε} {s s' : Session δ} {u : PUnit} :
    exec (commit accepts refusal) s=(.ok u,s') ↔
      accepts s.current=true ∧ s'={s with committed := s.current} := by
  rw [commit,exec_bind,exec_flush]
  cases accepts s.current <;> simp [eq_comm]

lemma exec_write_bind (f : δ → δ) (g : PUnit → Transaction ε δ α) (s : Session δ) :
    exec (write f >>= g) s=exec (g ⟨⟩) {s with current := f s.current} := rfl

/-- A sequence returns when its check passes and the rest returns. -/
lemma check_bind_eq_ok_iff {x : δ → Except ε α} {f : α → Transaction ε δ β} {s s' : Session δ} {b : β} :
    exec (check x >>= f) s=(.ok b,s') ↔ ∃ a, x s.current=.ok a ∧ exec (f a) s=(.ok b,s') := by
  rw [exec_bind,exec_check]
  cases x s.current with
  | ok a => simp
  | error e => simp

/-- Nothing is committed. -/
def Pending (x : Transaction ε δ α) : Prop := ∀ s, (exec x s).2.committed=s.committed

/-- Nothing is committed when it raises. -/
def CommitsLast (x : Transaction ε δ α) : Prop :=
  ∀ s e s', exec x s=(.error e,s') → s'.committed=s.committed

lemma Pending.commitsLast {x : Transaction ε δ α} (h : Pending x) : CommitsLast x := by
  intro s e s' hx
  rw [← h s,hx]

lemma pending_pure (a : α) : Pending (pure a : Transaction ε δ α) := fun _ => rfl

lemma pending_write (f : δ → δ) : Pending (write f : Transaction ε δ PUnit) := fun _ => rfl

lemma pending_check (x : δ → Except ε α) : Pending (check x) := by
  intro s
  rw [exec_check]

lemma pending_flush (accepts : δ → Bool) (refusal : ε) : Pending (flush accepts refusal) := by
  intro s
  rw [exec_flush]

lemma commitsLast_commit (accepts : δ → Bool) (refusal : ε) : CommitsLast (commit accepts refusal) := by
  intro s e s' h
  rw [commit,exec_bind,exec_flush] at h
  cases haccepts : accepts s.current with
  | true => simp [haccepts] at h
  | false =>
    simp only [haccepts,Bool.false_eq_true,if_false,Prod.mk.injEq] at h
    rw [← h.2]

lemma Pending.bind {x : Transaction ε δ α} {f : α → Transaction ε δ β} (hx : Pending x)
    (hf : ∀ a, Pending (f a)) : Pending (x >>= f) := by
  intro s
  rw [exec_bind]
  have hs := hx s
  cases h : exec x s with
  | mk r mid =>
    rw [h] at hs
    cases r with
    | ok a => exact (hf a mid).trans hs
    | error e => exact hs

/-- Only the last part may commit. -/
lemma CommitsLast.bind {x : Transaction ε δ α} {f : α → Transaction ε δ β} (hx : Pending x)
    (hf : ∀ a, CommitsLast (f a)) : CommitsLast (x >>= f) := by
  intro s e s' h
  rw [exec_bind] at h
  have hs := hx s
  cases hexec : exec x s with
  | mk r mid =>
    rw [hexec] at h hs
    cases r with
    | ok a => exact (hf a mid e s' h).trans hs
    | error e' =>
      cases h
      exact hs

/-- What only answers after the commit does not raise. -/
lemma CommitsLast.bind_pure {x : Transaction ε δ α} (h : CommitsLast x) (g : α → β) :
    CommitsLast (x >>= fun a => pure (g a)) := by
  intro s e s' hexec
  rw [exec_bind] at hexec
  cases hx : exec x s with
  | mk r mid =>
    rw [hx] at hexec
    cases r with
    | ok a => cases hexec
    | error e' =>
      cases hexec
      exact h s _ _ hx

/-- A call that raises leaves the tables as they were. -/
theorem CommitsLast.run {x : Transaction ε δ α} (h : CommitsLast x) {db db' : δ} {e : ε}
    (hrun : run x db=(.error e,db')) : db'=db := by
  simp only [Transaction.run,Prod.mk.injEq] at hrun
  rw [← hrun.2]
  exact h ⟨db,db⟩ e _ (Prod.ext hrun.1 rfl)

/-- A call raises and changes nothing, or returns. -/
theorem CommitsLast.run_cases {x : Transaction ε δ α} (h : CommitsLast x) (db : δ) :
    (Transaction.run x db).2=db ∨
      ∃ a s', exec x ⟨db,db⟩=(.ok a,s') ∧ (Transaction.run x db).2=s'.committed := by
  cases hexec : exec x ⟨db,db⟩ with
  | mk r s' =>
    have hrun : (Transaction.run x db).2=s'.committed := by simp [Transaction.run,hexec]
    cases r with
    | ok a => exact .inr ⟨a,s',rfl,hrun⟩
    | error e => exact .inl (hrun.trans (h _ e s' hexec))

/-- A call that commits last relates the tables as it does whenever it returns. -/
theorem CommitsLast.run_rel {R : δ → δ → Prop} {x : Transaction ε δ α} (h : CommitsLast x) {db : δ}
    (hrefl : R db db) (hok : ∀ a s', exec x ⟨db,db⟩=(.ok a,s') → R db s'.committed) :
    R db (Transaction.run x db).2 := by
  obtain hsame | ⟨a,s',hexec,hrun⟩ := h.run_cases db
  · rw [hsame]
    exact hrefl
  · rw [hrun]
    exact hok a s' hexec

end Transaction
end VbApi.Foundations
