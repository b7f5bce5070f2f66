import Mathlib.Tactic

/-! Computations that answer or raise, or run out of the fuel they are given. -/
namespace VbApi.Foundations
universe u
variable {ε α β : Type u}

/-- The computation gives this result. -/
def Succeeds (x : ExceptT ε Option α) (a : α) : Prop := x.run=some (.ok a)

/-- The computation gives a result or an error. -/
def Answered (x : ExceptT ε Option α) : Prop := ∃ r, x.run=some r

@[simp] lemma succeeds_pure {a b : α} : Succeeds (pure a : ExceptT ε Option α) b ↔ a=b := by
  simp [Succeeds,ExceptT.run_pure]

@[simp] lemma succeeds_throw {e : ε} {a : α} : ¬ Succeeds (throw e : ExceptT ε Option α) a := by
  simp [Succeeds]

@[simp] lemma succeeds_lift {o : Option α} {a : α} :
    Succeeds (ExceptT.lift o : ExceptT ε Option α) a ↔ o=some a := by
  cases o <;> simp [Succeeds]

/-- A sequence succeeds when both parts do. -/
@[simp] lemma succeeds_bind {x : ExceptT ε Option α} {f : α → ExceptT ε Option β} {b : β} :
    Succeeds (x >>= f) b ↔ ∃ a, Succeeds x a ∧ Succeeds (f a) b := by
  unfold Succeeds
  rw [ExceptT.run_bind]
  cases hx : x.run with
  | none => simp
  | some r => cases r <;> simp

lemma Succeeds.unique {x : ExceptT ε Option α} {a b : α} (ha : Succeeds x a) (hb : Succeeds x b) :
    a=b := by
  rw [Succeeds,ha] at hb
  simpa using hb

/-- A loop succeeds when every round does. -/
lemma succeeds_mapM {f : α → ExceptT ε Option β} {xs : List α} {ys : List β} :
    Succeeds (xs.mapM f) ys ↔ List.Forall₂ (fun x y => Succeeds (f x) y) xs ys := by
  induction xs generalizing ys with
  | nil =>
    rw [List.mapM_nil,succeeds_pure,List.forall₂_nil_left_iff]
    exact eq_comm
  | cons x xs ih =>
    simp only [List.mapM_cons,succeeds_bind,succeeds_pure,ih]
    constructor
    · rintro ⟨y,hy,zs,hzs,rfl⟩
      exact .cons hy hzs
    · rintro (_ | ⟨hy,hzs⟩)
      exact ⟨_,hy,_,hzs,rfl⟩

lemma exists_succeeds_mapM {f : α → ExceptT ε Option β} {xs : List α}
    (h : ∀ x ∈ xs, ∃ y, Succeeds (f x) y) : ∃ ys, Succeeds (xs.mapM f) ys := by
  simp only [succeeds_mapM]
  induction xs with
  | nil => exact ⟨[],.nil⟩
  | cons x xs ih =>
    obtain ⟨y,hy⟩ := h x List.mem_cons_self
    obtain ⟨ys,hys⟩ := ih fun z hz => h z (List.mem_cons_of_mem x hz)
    exact ⟨y::ys,.cons hy hys⟩

lemma Succeeds.answered {x : ExceptT ε Option α} {a : α} (h : Succeeds x a) : Answered x := ⟨_,h⟩

@[simp] lemma answered_pure (a : α) : Answered (pure a : ExceptT ε Option α) := ⟨_,rfl⟩

@[simp] lemma answered_throw (e : ε) : Answered (throw e : ExceptT ε Option α) := ⟨_,rfl⟩

lemma answered_lift {o : Option α} {a : α} (h : o=some a) :
    Answered (ExceptT.lift o : ExceptT ε Option α) := (succeeds_lift.mpr h).answered

lemma Answered.bind {x : ExceptT ε Option α} {f : α → ExceptT ε Option β} (hx : Answered x)
    (hf : ∀ a, Succeeds x a → Answered (f a)) : Answered (x >>= f) := by
  obtain ⟨r,hr⟩ := hx
  cases r with
  | error e => exact ⟨.error e,by rw [ExceptT.run_bind,hr]; rfl⟩
  | ok a =>
    obtain ⟨s,hs⟩ := hf a hr
    exact ⟨s,by rw [ExceptT.run_bind,hr]; exact hs⟩

end VbApi.Foundations
