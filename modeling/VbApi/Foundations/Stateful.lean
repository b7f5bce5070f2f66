import Mathlib.Tactic

/-! Computations on a state that may raise. What was changed before an error stays changed, and a
handler goes on from there. -/
namespace VbApi.Foundations
universe u

abbrev Stateful (ε σ : Type u) : Type u → Type u := ExceptT ε (StateM σ)

namespace Stateful
variable {ε σ α β : Type u}

/-- Run a computation. -/
def exec (x : Stateful ε σ α) (s : σ) : Except ε α × σ := x.run.run s

@[simp] lemma exec_pure (a : α) (s : σ) : exec (pure a : Stateful ε σ α) s=(.ok a,s) := rfl

@[simp] lemma exec_throw (e : ε) (s : σ) : exec (throw e : Stateful ε σ α) s=(.error e,s) := rfl

@[simp] lemma exec_throw_bind (e : ε) (f : α → Stateful ε σ β) (s : σ) :
    exec (throw e >>= f) s=(.error e,s) := rfl

@[simp] lemma exec_get (s : σ) : exec (get : Stateful ε σ σ) s=(.ok s,s) := rfl

@[simp] lemma exec_modify (f : σ → σ) (s : σ) :
    exec (modify f : Stateful ε σ PUnit) s=(.ok ⟨⟩,f s) := rfl

lemma exec_bind (x : Stateful ε σ α) (f : α → Stateful ε σ β) (s : σ) :
    exec (x >>= f) s=match exec x s with
      | (.ok a,s) => exec (f a) s
      | (.error e,s) => (.error e,s) := by
  simp only [exec,ExceptT.run_bind,StateT.run_bind]
  cases h : x.run.run s with
  | mk r s' => cases r <;> rfl

lemma exec_map (f : α → β) (x : Stateful ε σ α) (s : σ) :
    exec (f <$> x) s=match exec x s with
      | (.ok a,s) => (.ok (f a),s)
      | (.error e,s) => (.error e,s) := by
  rw [map_eq_pure_bind,exec_bind]
  cases exec x s with
  | mk r mid => cases r <;> rfl

lemma exec_tryCatch (x : Stateful ε σ α) (handler : ε → Stateful ε σ α) (s : σ) :
    exec (tryCatch x handler) s=match exec x s with
      | (.ok a,s) => (.ok a,s)
      | (.error e,s) => exec (handler e) s := by
  simp only [exec,tryCatch,tryCatchThe,MonadExceptOf.tryCatch,ExceptT.tryCatch,ExceptT.run_mk,
    StateT.run_bind]
  cases h : x.run.run s with
  | mk r s' =>
    have hrun : StateT.run x s=(r,s') := h
    simp only [hrun,bind]
    cases r <;> rfl

/-- A sequence returns when both parts do. -/
lemma exec_bind_eq_ok_iff {x : Stateful ε σ α} {f : α → Stateful ε σ β} {s s' : σ} {b : β} :
    exec (x >>= f) s=(.ok b,s') ↔ ∃ a mid, exec x s=(.ok a,mid) ∧ exec (f a) mid=(.ok b,s') := by
  rw [exec_bind]
  cases exec x s with
  | mk r mid =>
    cases r with
    | ok a => simp
    | error e => simp

/-- A guarded part returns by itself or through its handler. -/
lemma exec_tryCatch_eq_ok_iff {x : Stateful ε σ α} {handler : ε → Stateful ε σ α} {s s' : σ} {a : α} :
    exec (tryCatch x handler) s=(.ok a,s') ↔ exec x s=(.ok a,s') ∨
      ∃ e mid, exec x s=(.error e,mid) ∧ exec (handler e) mid=(.ok a,s') := by
  rw [exec_tryCatch]
  cases exec x s with
  | mk r mid =>
    cases r with
    | ok b => simp
    | error e => simp

end Stateful
end VbApi.Foundations
