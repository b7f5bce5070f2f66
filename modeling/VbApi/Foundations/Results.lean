import Mathlib.Tactic

/-! Computations that may raise: how they compose, and what a successful one went through. -/
namespace VbApi.Foundations
universe u v
variable {ε : Type u} {α β : Type v}

@[simp] lemma ok_bind (a : α) (f : α → Except ε β) : ((Except.ok a : Except ε α) >>= f)=f a := rfl

@[simp] lemma error_bind (e : ε) (f : α → Except ε β) :
    ((Except.error e : Except ε α) >>= f)=.error e := rfl

@[simp] lemma pure_eq_ok (a : α) : (pure a : Except ε α)=.ok a := rfl

@[simp] lemma throw_eq_error (e : ε) : (throw e : Except ε α)=.error e := rfl

/-- A sequence succeeds when both parts do. -/
lemma bind_eq_ok_iff {x : Except ε α} {f : α → Except ε β} {b : β} :
    (x >>= f)=.ok b ↔ ∃ a, x=.ok a ∧ f a=.ok b := by
  cases x <;> simp

/-- A loop that ends has gone through every round. -/
lemma exists_round_of_foldlM {f : β → α → Except ε β} {xs : List α} {b b' : β}
    (h : xs.foldlM f b=.ok b') {x : α} (hx : x ∈ xs) : ∃ c c', f c x=.ok c' := by
  induction xs generalizing b with
  | nil => contradiction
  | cons y xs ih =>
    rw [List.foldlM_cons,bind_eq_ok_iff] at h
    obtain ⟨c,hc,hrest⟩ := h
    rcases List.mem_cons.mp hx with rfl | hx
    · exact ⟨b,c,hc⟩
    · exact ih hrest hx

/-- What a loop collects are the results of its rounds. -/
lemma mem_of_mapM_eq_ok {f : α → Except ε β} {xs : List α} {ys : List β} (h : xs.mapM f=.ok ys)
    {y : β} : y ∈ ys ↔ ∃ x ∈ xs, f x=.ok y := by
  induction xs generalizing ys with
  | nil =>
    cases h
    simp
  | cons x xs ih =>
    rw [List.mapM_cons,bind_eq_ok_iff] at h
    obtain ⟨z,hz,h⟩ := h
    obtain ⟨zs,hzs,h⟩ := bind_eq_ok_iff.mp h
    cases h
    have hfirst : f x=.ok y ↔ y=z := by rw [hz,Except.ok.injEq,eq_comm]
    simp only [List.mem_cons,exists_eq_or_imp,hfirst,ih hzs]

lemma exists_mapM_eq_ok {f : α → Except ε β} {xs : List α} (h : ∀ x ∈ xs, ∃ y, f x=.ok y) :
    ∃ ys, xs.mapM f=.ok ys := by
  induction xs with
  | nil => exact ⟨[],rfl⟩
  | cons x xs ih =>
    obtain ⟨y,hy⟩ := h x List.mem_cons_self
    obtain ⟨ys,hys⟩ := ih fun z hz => h z (List.mem_cons_of_mem x hz)
    exact ⟨y::ys,by rw [List.mapM_cons,hy,hys]; rfl⟩

lemma exists_ok_of_mapM {f : α → Except ε β} {xs : List α} {ys : List β} (h : xs.mapM f=.ok ys) {x : α}
    (hx : x ∈ xs) : ∃ y, f x=.ok y := by
  induction xs generalizing ys with
  | nil => contradiction
  | cons z xs ih =>
    rw [List.mapM_cons,bind_eq_ok_iff] at h
    obtain ⟨y,hy,h⟩ := h
    obtain ⟨zs,hzs,-⟩ := bind_eq_ok_iff.mp h
    rcases List.mem_cons.mp hx with rfl | hx
    · exact ⟨y,hy⟩
    · exact ih hzs hx

/-- A check that raises unless it holds. -/
def guardError (condition : Prop) [Decidable condition] (e : ε) : Except ε PUnit :=
  if condition then .ok ⟨⟩ else .error e

@[simp] lemma guardError_eq_ok_iff {condition : Prop} [Decidable condition] {e : ε} {u : PUnit} :
    guardError condition e=.ok u ↔ condition := by
  unfold guardError
  split_ifs with h <;> simp [h]

end VbApi.Foundations
