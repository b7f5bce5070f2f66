import VbApi.Foundations.Dict

/-! Unique indexes over keyed tables: an index gives a row a value, or none when the row is outside of
it, and no two rows have the same value. -/
namespace VbApi.Foundations.Dict
variable {κ ν ι : Type*} [DecidableEq κ] [DecidableEq ι]

/-- What a unique index allows. -/
def uniqueOn (index : ν → Option ι) (d : Dict κ ν) : Bool :=
  d.entries.all fun e => d.entries.all fun e' => index e.2=none || index e.2 ≠ index e'.2 || e.1=e'.1

variable {index : ν → Option ι} {d : Dict κ ν} {k k' : κ} {v v' : ν} {x : ι}

lemma uniqueOn_iff : d.uniqueOn index=true ↔ ∀ k v k' v' x, d.get? k=some v → d.get? k'=some v' →
    index v=some x → index v'=some x → k=k' := by
  simp only [uniqueOn,List.all_eq_true,Bool.or_eq_true,decide_eq_true_eq,get?_eq_some_iff]
  constructor
  · intro h k v k' v' x hv hv' hx hx'
    obtain (hnone | hne) | heq := h (k,v) hv (k',v') hv'
    · rw [hx] at hnone
      cases hnone
    · exact absurd (hx.trans hx'.symm) hne
    · exact heq
  · intro h e he e' he'
    cases hx : index e.2 with
    | none => exact .inl (.inl rfl)
    | some x =>
      by_cases hx' : index e'.2=some x
      · exact .inr (h e.1 e.2 e'.1 e'.2 x he he' hx hx')
      · exact .inl (.inr (Ne.symm hx'))

@[simp] lemma uniqueOn_empty (index : ν → Option ι) : (empty : Dict κ ν).uniqueOn index=true := rfl

/-- A row may be written when no other row has its value. -/
lemma uniqueOn_set (h : d.uniqueOn index=true)
    (hfree : ∀ x, index v=some x → ∀ k' v', d.get? k'=some v' → index v'=some x → k'=k) :
    (d.set k v).uniqueOn index=true := by
  rw [uniqueOn_iff] at h ⊢
  intro k₁ v₁ k₂ v₂ x h₁ h₂ hx₁ hx₂
  rw [get?_set] at h₁ h₂
  split_ifs at h₁ h₂ with hk₁ hk₂ hk₂
  · exact hk₁.trans hk₂.symm
  · cases h₁
    exact hk₁.trans (hfree x hx₁ k₂ v₂ h₂ hx₂).symm
  · cases h₂
    exact (hfree x hx₂ k₁ v₁ h₁ hx₁).trans hk₂.symm
  · exact h k₁ v₁ k₂ v₂ x h₁ h₂ hx₁ hx₂

/-- A row may leave the index. -/
lemma uniqueOn_set_of_none (h : d.uniqueOn index=true) (hnone : index v=none) :
    (d.set k v).uniqueOn index=true := by
  apply uniqueOn_set h
  intro x hx
  rw [hnone] at hx
  cases hx

end VbApi.Foundations.Dict
