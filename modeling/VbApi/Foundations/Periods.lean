import Mathlib

/-! Half-open periods over a linear order. A period without an end never stops. -/
namespace VbApi.Foundations

structure Period (α : Type*) where
  start : α
  stop : Option α

namespace Period
variable {α : Type*} [LinearOrder α] {p q : Period α} {d : α}

/-- The moments of a period; the end is not one of them. -/
def days (p : Period α) : Set α := {d | p.start ≤ d ∧ ∀ e ∈ p.stop, d < e}

/-- The period starts before it ends. -/
def Proper (p : Period α) : Prop := ∀ e ∈ p.stop, p.start < e

/-- Each period starts before the other one ends. -/
def Overlaps (p q : Period α) : Prop := (∀ e ∈ q.stop, p.start < e) ∧ ∀ e ∈ p.stop, q.start < e

instance (p : Period α) : Decidable p.Proper :=
  inferInstanceAs (Decidable (∀ e ∈ p.stop, p.start < e))

instance (p q : Period α) : Decidable (p.Overlaps q) := inferInstanceAs (Decidable (_ ∧ _))

lemma mem_days : d ∈ p.days ↔ p.start ≤ d ∧ ∀ e ∈ p.stop, d < e := Iff.rfl

lemma overlaps_comm : p.Overlaps q ↔ q.Overlaps p := and_comm

/-- A proper period that starts on the same day overlaps. -/
lemma overlaps_of_start_eq (hp : p.Proper) (hq : q.Proper) (h : p.start=q.start) : p.Overlaps q := by
  constructor
  · intro e he
    rw [h]
    exact hq e he
  · intro e he
    rw [← h]
    exact hp e he

/-- Two proper periods share a day exactly when each starts before the other one ends. -/
theorem disjoint_days_iff (hp : p.Proper) (hq : q.Proper) :
    Disjoint p.days q.days ↔ ¬ p.Overlaps q := by
  rw [Set.disjoint_left]
  constructor
  · intro hdisjoint hoverlaps
    apply hdisjoint (a := max p.start q.start)
    · refine ⟨le_max_left _ _,?_⟩
      intro e he
      exact max_lt (hp e he) (hoverlaps.2 e he)
    · refine ⟨le_max_right _ _,?_⟩
      intro e he
      exact max_lt (hoverlaps.1 e he) (hq e he)
  · intro hnot d hd hd'
    apply hnot
    constructor
    · intro e he
      exact lt_of_le_of_lt hd.1 (hd'.2 e he)
    · intro e he
      exact lt_of_le_of_lt hd'.1 (hd.2 e he)

end Period
end VbApi.Foundations
