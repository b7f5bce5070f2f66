import VbApi.Foundations.Forest

/-! The generations below a node, when the parents may also lead in a circle. -/
namespace VbApi.Foundations.Parents
variable {κ : Type*} {P : Parents κ} {root k p : κ} {m n : ℕ}

/-- The ancestor so many steps up is `a`. -/
inductive Up (P : Parents κ) (a : κ) : ℕ → κ → Prop
  | here : Up P a 0 a
  | up {n : ℕ} {k p : κ} (parent : P.Child k p) (chain : Up P a n p) : Up P a (n+1) k

/-- The generation of a node: so many steps up the root is met for the first time. -/
inductive Generation (P : Parents κ) (root : κ) : ℕ → κ → Prop
  | root : Generation P root 0 root
  | child {n : ℕ} {k p : κ} (parent : P.Child k p) (upper : Generation P root n p) (hne : k ≠ root) :
    Generation P root (n+1) k

lemma Child.unique {q : κ} (h : P.Child k p) (h' : P.Child k q) : p=q := by
  rw [Child,h,Option.some.injEq,Option.some.injEq] at h'
  exact h'

lemma Generation.up (h : P.Generation root n k) : P.Up root n k := by
  induction h with
  | root => exact .here
  | child parent _ _ ih => exact .up parent ih

lemma Generation.unique (h : P.Generation root n k) (h' : P.Generation root m k) : n=m := by
  induction h generalizing m with
  | root =>
    cases h' with
    | root => rfl
    | child _ _ hne => exact absurd rfl hne
  | child parent _ hne ih =>
    cases h' with
    | root => exact absurd rfl hne
    | child parent' upper' _ =>
      rw [parent'.unique parent] at upper'
      rw [ih upper']

lemma generation_succ_iff : P.Generation root (n+1) k ↔
    k ≠ root ∧ ∃ p, P.Child k p ∧ P.Generation root n p := by
  constructor
  · rintro (_ | ⟨parent,upper,hne⟩)
    exact ⟨hne,_,parent,upper⟩
  · rintro ⟨hne,p,parent,upper⟩
    exact .child parent upper hne

lemma generation_zero_iff : P.Generation root 0 k ↔ k=root := by
  constructor
  · rintro ⟨_⟩
    rfl
  · rintro rfl
    exact .root

lemma Generation.descendant (h : P.Generation root (n+1) k) : Relation.TransGen P.Child k root := by
  induction n generalizing k with
  | zero =>
    obtain ⟨-,p,parent,upper⟩ := generation_succ_iff.mp h
    rw [generation_zero_iff] at upper
    subst upper
    exact .single parent
  | succ n ih =>
    obtain ⟨-,p,parent,upper⟩ := generation_succ_iff.mp h
    exact .head parent (ih upper)

/-- When the root is not its own descendant, every descendant has a generation. -/
lemma generation_of_descendant (hroot : ¬ Relation.TransGen P.Child root root)
    (h : Relation.TransGen P.Child k root) : ∃ n, P.Generation root (n+1) k := by
  induction h using Relation.TransGen.head_induction_on with
  | @single k parent =>
    refine ⟨0,.child parent .root ?_⟩
    rintro rfl
    exact hroot (.single parent)
  | @head k p parent hp ih =>
    obtain ⟨n,hn⟩ := ih
    refine ⟨n+1,.child parent hn ?_⟩
    rintro rfl
    exact hroot (.head parent hp)

end VbApi.Foundations.Parents
