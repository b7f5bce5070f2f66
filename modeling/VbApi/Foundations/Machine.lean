import Mathlib.Tactic

/-! Machines that take one labelled atomic step at a time, their finite runs, and the
induction rules for what a run preserves. A label that is not enabled yields `none`. -/
namespace VbApi.Foundations

structure Machine (σ α : Type*) where
  step : σ → α → Option σ

namespace Machine
variable {σ α : Type*} (M : Machine σ α)

/-- Take the labelled steps of a schedule one after the other. -/
def run (s : σ) : List α → Option σ
  | [] => some s
  | a::as => (M.step s a).bind fun t => run t as

/-- Every step of the schedule meets `ok` in the state it is taken from. -/
def Meets (ok : σ → α → Prop) (s : σ) : List α → Prop
  | [] => True
  | a::as => ok s a ∧ ∀ t ∈ M.step s a, Meets ok t as

/-- `t` is reached from `s` by steps that all meet `ok` where they are taken. -/
inductive Reaches (ok : σ → α → Prop) (s : σ) : σ → Prop
  | refl : Reaches ok s s
  | next {t u : σ} {a : α} (head : Reaches ok s t) (guard : ok t a)
      (hstep : M.step t a = some u) : Reaches ok s u

/-- No restriction on the steps. -/
abbrev Any : σ → α → Prop := fun _ _ => True

variable {M} {ok ok' : σ → α → Prop} {s t u : σ}

theorem Reaches.trans (h : M.Reaches ok s t) (h' : M.Reaches ok t u) : M.Reaches ok s u := by
  induction h' with
  | refl => exact h
  | next _ guard hstep ih => exact .next ih guard hstep

theorem Reaches.mono (hok : ∀ s a, ok s a → ok' s a) (h : M.Reaches ok s t) :
    M.Reaches ok' s t := by
  induction h with
  | refl => exact .refl
  | next _ guard hstep ih => exact .next ih (hok _ _ guard) hstep

/-- What one step preserves, a run preserves. -/
theorem Reaches.invariant {I : σ → Prop} (h : M.Reaches ok s t) (hs : I s)
    (hI : ∀ t a u, I t → ok t a → M.step t a = some u → I u) : I t := by
  induction h with
  | refl => exact hs
  | next _ guard hstep ih => exact hI _ _ _ ih guard hstep

/-- A reflexive and transitive relation that every step respects relates the ends of a run.
The invariant is available at the step. -/
theorem Reaches.relates {I : σ → Prop} {R : σ → σ → Prop} (h : M.Reaches ok s t) (hs : I s)
    (hI : ∀ t a u, I t → ok t a → M.step t a = some u → I u) (refl : ∀ s, R s s)
    (trans : ∀ s t u, R s t → R t u → R s u)
    (hR : ∀ t a u, I t → ok t a → M.step t a = some u → R t u) : R s t := by
  induction h with
  | refl => exact refl s
  | next head guard hstep ih =>
    exact trans _ _ _ ih (hR _ _ _ (head.invariant hs hI) guard hstep)

theorem reaches_of_run {as : List α} (hmeets : M.Meets ok s as) (h : M.run s as = some t) :
    M.Reaches ok s t := by
  induction as generalizing s with
  | nil =>
    cases h
    exact .refl
  | cons a as ih =>
    obtain ⟨u,hu,hrun⟩ := Option.bind_eq_some_iff.mp h
    exact (Reaches.next .refl hmeets.1 hu).trans (ih (hmeets.2 u hu) hrun)

theorem meets_any (s : σ) (as : List α) : M.Meets Any s as := by
  induction as generalizing s with
  | nil => trivial
  | cons a as ih => exact ⟨trivial,fun t _ => ih t⟩

/-- Labels that may be taken in every state. -/
theorem meets_of_forall {as : List α} (h : ∀ a ∈ as, ∀ s, ok s a) (s : σ) : M.Meets ok s as := by
  induction as generalizing s with
  | nil => trivial
  | cons a as ih =>
    refine ⟨h a List.mem_cons_self s,?_⟩
    exact fun t _ => ih (fun b hb => h b (List.mem_cons_of_mem a hb)) t

/-- A condition on the labels and on the states that the schedule leads to. -/
theorem meets_of_split {as : List α}
    (h : ∀ done a rest, as = done ++ a::rest → ∀ t, M.run s done = some t → ok t a) :
    M.Meets ok s as := by
  induction as generalizing s with
  | nil => trivial
  | cons a as ih =>
    refine ⟨h [] a as rfl s rfl,?_⟩
    intro t ht
    apply ih
    intro done b rest heq u hu
    refine h (a::done) b rest (congrArg (a::·) heq) u ?_
    exact Option.bind_eq_some_iff.mpr ⟨t,ht,hu⟩

/-- The machine with what an observer notes of every step; the machine does not read it. -/
def observed {γ : Type*} (M : Machine σ α) (note : σ → α → γ → γ) : Machine (σ × γ) α where
  step x a := (M.step x.1 a).map fun t => (t,note x.1 a x.2)

lemma observed_step_eq_some {γ : Type*} {note : σ → α → γ → γ} {x y : σ × γ} {a : α} :
    (M.observed note).step x a=some y ↔ M.step x.1 a=some y.1 ∧ y.2=note x.1 a x.2 := by
  rw [observed,Option.map_eq_some_iff]
  constructor
  · rintro ⟨t,ht,rfl⟩
    exact ⟨ht,rfl⟩
  · rintro ⟨ht,hnote⟩
    exact ⟨y.1,ht,Prod.ext rfl hnote.symm⟩

end Machine
end VbApi.Foundations
