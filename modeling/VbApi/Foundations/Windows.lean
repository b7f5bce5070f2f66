import Mathlib.Algebra.BigOperators.Group.List.Basic
import Mathlib.Order.Lattice
import Mathlib.Tactic.Tauto

/-! Sums over the rows of a period: a period that is cut into two parts weighs what they weigh. -/
namespace VbApi.Foundations
variable {α κ M : Type*} [AddCommMonoid M]

/-- Rows that satisfy one of two exclusive conditions weigh what the rows of each weigh. -/
lemma sum_filter_split (w : α → M) {rows : List α} {p q r : α → Bool}
    (h : ∀ a ∈ rows, r a=true ↔ p a=true ∨ q a=true) (hne : ∀ a ∈ rows, ¬ (p a=true ∧ q a=true)) :
    ((rows.filter r).map w).sum=((rows.filter p).map w).sum+((rows.filter q).map w).sum := by
  induction rows with
  | nil => simp
  | cons a rows ih =>
    have ih := ih (fun b hb => h b (List.mem_cons_of_mem _ hb))
      fun b hb => hne b (List.mem_cons_of_mem _ hb)
    have ha := h a List.mem_cons_self
    have hnea := hne a List.mem_cons_self
    cases hp : p a <;> cases hq : q a <;> simp_all [add_assoc,add_left_comm]

section Cuts
variable [LinearOrder κ] (w : α → M) (key : α → κ) (p : α → Bool) (rows : List α) {a b : κ}

/-- What lies up to a later moment lies up to the earlier one or after it. -/
lemma sum_upTo_eq (h : a ≤ b) :
    ((rows.filter fun x => p x && decide (key x ≤ b)).map w).sum=
      ((rows.filter fun x => p x && decide (key x ≤ a)).map w).sum+
      ((rows.filter fun x => p x && (decide (a < key x) && decide (key x ≤ b))).map w).sum := by
  apply sum_filter_split
  · intro x _
    simp only [Bool.and_eq_true,decide_eq_true_eq]
    constructor
    · rintro ⟨hp,hx⟩
      rcases le_or_gt (key x) a with hle | hgt
      · exact Or.inl ⟨hp,hle⟩
      · exact Or.inr ⟨hp,hgt,hx⟩
    · rintro (⟨hp,hx⟩ | ⟨hp,-,hx⟩)
      · exact ⟨hp,hx.trans h⟩
      · exact ⟨hp,hx⟩
  · rintro x _ ⟨hle,hgt⟩
    simp only [Bool.and_eq_true,decide_eq_true_eq] at hle hgt
    exact absurd hle.2 (not_le.mpr hgt.2.1)

end Cuts
end VbApi.Foundations
