import VbApi.Foundations.LowerCase
import VbApi.P4x.CategoryFilters

/-! The subject condition of a category filter: its pattern finds the literal text of the filter. -/
namespace VbApi.P4x
open VbApi.Foundations

/-- What a mode asks of a subject. -/
def SubjectMode.Finds (mode : SubjectMode) (wanted subject : PyText) : Prop :=
  match mode with
  | .equals => subject=wanted
  | .contains => wanted <:+: subject
  | .starts => wanted <+: subject

variable {lower : PyText → PyText}

lemma subjectPattern_iff (h : KeepsWildcards lower) (mode : SubjectMode) (wanted subject : PyText) :
    ilikeMatch lower (subjectPattern mode wanted) subject=true ↔
      mode.Finds (lower wanted) (lower subject) := by
  cases mode with
  | equals => exact ilikeMatch_equals h wanted subject
  | contains => exact ilikeMatch_contains h wanted subject
  | starts => exact ilikeMatch_starts h wanted subject

/-- Wildcards and backslashes of a filter text stand for themselves: the pattern matches the
subjects that the mode asks for, and the filter takes those of the bookings that meet its other
conditions. -/
theorem filterSubject_iff (h : KeepsWildcards lower) :
    (∀ mode wanted subject, ilikeMatch lower (subjectPattern mode wanted) subject=true ↔
      mode.Finds (lower wanted) (lower subject)) ∧
    ∀ (f : P4xCategoryFilter) (t : P4xTransaction), meetsCriteria lower f t=true ↔
      meetsCriteria lower { f with subject := none } t=true ∧
        ∀ wanted ∈ f.subject, f.subjectMode.Finds (lower wanted) (lower t.subject) := by
  refine ⟨subjectPattern_iff h,?_⟩
  intro f t
  cases hsubject : f.subject with
  | none => simp [meetsCriteria,ibanCriterion,hsubject]
  | some wanted => simp [meetsCriteria,ibanCriterion,hsubject,subjectPattern_iff h]

/-- Lower case where only the letters A to Z have one. -/
def lowerLatin : PyText → PyText := List.map lowerLetter

lemma keepsWildcards_lowerLatin : KeepsWildcards lowerLatin := by
  apply keepsWildcards_map
  · intro c hc
    apply lowerLetter_other
    intro hletter
    simp only [isWildcard,Bool.or_eq_true,decide_eq_true_eq] at hc
    rcases hc with (rfl | rfl) | rfl <;> revert hletter <;> decide
  · intro c hc
    by_cases hletter : 65 ≤ c.val ∧ c.val ≤ 90
    · have hne : ∀ x : Char, x.toNat < 97 ∨ 122 < x.toNat → lowerLetter c ≠ codePoint x := by
        intro x hx heq
        have h := congrArg Fin.val heq
        rw [lowerLetter_val hletter] at h
        change c.val+32=x.toNat at h
        omega
      simp only [isWildcard,Bool.or_eq_false_iff,decide_eq_false_iff_not]
      exact ⟨⟨hne _ (by decide),hne _ (by decide)⟩,hne _ (by decide)⟩
    · rw [lowerLetter_other hletter]
      exact hc

theorem filterSubject_lowerLatin :
    ilikeMatch lowerLatin (subjectPattern .contains (text "100%_\\")) (text "ALLE 100%_\\ EURO")=true :=
  ((filterSubject_iff keepsWildcards_lowerLatin).1 .contains (text "100%_\\")
    (text "ALLE 100%_\\ EURO")).mpr ⟨text "alle ",text " euro",by decide⟩

end VbApi.P4x
