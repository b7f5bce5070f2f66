import Mathlib.Logic.Relation
import Mathlib.Tactic

/-! Nodes with at most one parent each. In a forest every chain of parents ends at a node that has
none; it stays one as long as no node is put below itself. -/
namespace VbApi.Foundations

/-- The nodes that exist, each with its parent. -/
abbrev Parents (κ : Type*) := κ → Option (Option κ)

namespace Parents
variable {κ : Type*} {P Q : Parents κ} {k a b : κ} {p : Option κ}

/-- The chain of parents from here ends. -/
inductive Ends (P : Parents κ) : Option κ → Prop
  | root : Ends P none
  | up {k : κ} {p : Option κ} (parent : P k=some p) (chain : Ends P p) : Ends P (some k)

/-- Every chain of parents ends, and nothing on it is missing. -/
def Forest (P : Parents κ) : Prop := ∀ k p, P k=some p → P.Ends p

/-- The chain of parents from here passes through `a`. -/
inductive Below (P : Parents κ) (a : κ) : Option κ → Prop
  | here : Below P a (some a)
  | up {k : κ} {p : Option κ} (parent : P k=some p) (chain : Below P a p) : Below P a (some k)

/-- One node is the parent of the other. -/
def Child (P : Parents κ) (k a : κ) : Prop := P k=some (some a)

lemma Forest.ends (h : P.Forest) (hk : P k=some p) : P.Ends (some k) := .up hk (h k p hk)

lemma Below.trans (hab : P.Below b (some a)) (h : P.Below a p) : P.Below b p := by
  induction h with
  | here => exact hab
  | up parent _ ih => exact .up parent ih

lemma Below.of_transGen (h : Relation.TransGen P.Child k a) : ∃ p, P k=some p ∧ P.Below a p := by
  induction h using Relation.TransGen.head_induction_on with
  | single h => exact ⟨_,h,.here⟩
  | head h _ ih =>
    obtain ⟨q,hq,hbelow⟩ := ih
    exact ⟨_,h,.up hq hbelow⟩

/-- A node on a chain that ends has a chain of its own that ends, and is not on it again. -/
lemma Ends.not_below (h : P.Ends p) (hbelow : P.Below a p) :
    ∃ q, P a=some q ∧ P.Ends q ∧ ¬ P.Below a q := by
  induction h with
  | root => cases hbelow
  | @up k p parent chain ih =>
    by_cases hp : P.Below a p
    · exact ih hp
    · cases hbelow with
      | here => exact ⟨p,parent,chain,hp⟩
      | up parent' below =>
        rw [parent,Option.some.injEq] at parent'
        subst parent'
        exact absurd below hp

/-- A forest has no cycle. -/
theorem Forest.acyclic (h : P.Forest) (k : κ) : ¬ Relation.TransGen P.Child k k := by
  intro hcycle
  obtain ⟨p,hp,hbelow⟩ := Below.of_transGen hcycle
  obtain ⟨q,hq,-,hnot⟩ := (h.ends hp).not_below .here
  rw [hp,Option.some.injEq] at hq
  subst hq
  exact hnot hbelow

/-- Without a cycle, finitely many nodes can be visited parents first. -/
theorem wellFounded_of_acyclic (hfinite : {k | (P k).isSome}.Finite)
    (h : ∀ k, ¬ Relation.TransGen P.Child k k) : WellFounded fun a k => P.Child k a := by
  have hancestors : ∀ k, {a | Relation.TransGen P.Child k a}.Finite := by
    intro k
    refine (hfinite.image fun b => ((P b).bind id).getD b).subset ?_
    intro a ha
    obtain ⟨b,-,hba⟩ := Relation.TransGen.tail'_iff.mp ha
    exact ⟨b,by simp [show P b=some (some a) from hba],by simp [show P b=some (some a) from hba]⟩
  refine Subrelation.wf ?_ (InvImage.wf (fun k => {a | Relation.TransGen P.Child k a}.ncard)
    wellFounded_lt)
  intro a k hka
  apply Set.ncard_lt_ncard _ (hancestors k)
  refine ⟨fun b hb => Relation.TransGen.head hka hb,?_⟩
  intro hsubset
  exact h a (hsubset (Relation.TransGen.single hka))

/-- Chains that avoid the changed nodes stay. -/
lemma Below.congr (h : P.Below a p) (hsame : ∀ k, P.Below k p → k ≠ a → Q k=P k) : Q.Below a p := by
  induction h with
  | here => exact .here
  | @up k p parent chain ih =>
    by_cases hk : k=a
    · subst hk
      exact .here
    · refine .up ((hsame k .here hk).trans parent) (ih ?_)
      intro k' hk' hne
      exact hsame k' (.up parent hk') hne

lemma Ends.congr (h : P.Ends p) (hsame : ∀ k, P.Below k p → Q k=P k) : Q.Ends p := by
  induction h with
  | root => exact .root
  | up parent _ ih =>
    refine .up ((hsame _ .here).trans parent) (ih ?_)
    intro k hk
    exact hsame k (.up parent hk)

section Moves
variable [DecidableEq κ]

/-- The nodes in the list get a new parent. -/
def move (P : Parents κ) (ks : List κ) (p : Option κ) : Parents κ :=
  fun k => if k ∈ ks then (P k).map fun _ => p else P k

lemma move_of_mem {ks : List κ} (hk : k ∈ ks) (hthere : (P k).isSome) : P.move ks p k=some p := by
  obtain ⟨q,hq⟩ := Option.isSome_iff_exists.mp hthere
  simp [move,hk,hq]

lemma move_of_notMem {ks : List κ} (hk : k ∉ ks) : P.move ks p k=P k := by
  simp [move,hk]

/-- The first moved node on a chain is still reached after the move. -/
lemma Below.move {ks : List κ} {q : Option κ} (h : P.Below a q) (ha : a ∈ ks) :
    ∃ k ∈ ks, (P.move ks p).Below k q := by
  induction h with
  | here => exact ⟨a,ha,.here⟩
  | @up k _ parent _ ih =>
    by_cases hk : k ∈ ks
    · exact ⟨k,hk,.here⟩
    · obtain ⟨k',hk',hbelow⟩ := ih
      exact ⟨k',hk',.up ((move_of_notMem hk).trans parent) hbelow⟩

/-- Moves keep a forest exactly when the new parent is not below a moved node. -/
theorem forest_move_iff {ks : List κ} (h : P.Forest) (hp : P.Ends p)
    (hks : ∀ k ∈ ks, (P k).isSome) : (P.move ks p).Forest ↔ ∀ k ∈ ks, ¬ P.Below k p := by
  constructor
  · intro hmoved k hk hbelow
    obtain ⟨k',hk',hbelow'⟩ := hbelow.move (p := p) hk
    have hparent : P.move ks p k'=some p := move_of_mem hk' (hks k' hk')
    obtain ⟨q,hq,-,hnot⟩ := (hmoved.ends hparent).not_below .here
    rw [hparent,Option.some.injEq] at hq
    subst hq
    exact hnot hbelow'
  · intro hnot
    have hends : (P.move ks p).Ends p := by
      apply hp.congr
      intro k hk
      exact move_of_notMem fun hmem => hnot k hmem hk
    have hall : ∀ q, P.Ends q → (P.move ks p).Ends q := by
      intro q hq
      induction hq with
      | root => exact .root
      | @up k _ parent _ ih =>
        by_cases hk : k ∈ ks
        · exact .up (move_of_mem hk (hks k hk)) hends
        · exact .up ((move_of_notMem hk).trans parent) ih
    intro k q hq
    by_cases hk : k ∈ ks
    · rw [move_of_mem hk (hks k hk),Option.some.injEq] at hq
      subst hq
      exact hends
    · rw [move_of_notMem hk] at hq
      exact hall q (h k q hq)

/-- A new node, without children, below what exists. -/
theorem Forest.insert (h : P.Forest) (hk : P k=none) (hp : P.Ends p) :
    Forest (Function.update P k (some p)) := by
  have hall : ∀ q, P.Ends q → Ends (Function.update P k (some p)) q := by
    intro q hq
    apply hq.congr
    intro k' hk'
    obtain ⟨_,hthere,-⟩ := hq.not_below hk'
    apply Function.update_of_ne
    intro heq
    rw [heq,hk] at hthere
    cases hthere
  intro k' q hq
  by_cases heq : k'=k
  · subst heq
    rw [Function.update_self,Option.some.injEq] at hq
    subst hq
    exact hall _ hp
  · rw [Function.update_of_ne heq] at hq
    exact hall q (h k' q hq)

/-- A node without children goes. -/
theorem Forest.remove (h : P.Forest) (hleaf : ∀ k' p, P k'=some p → p ≠ some k) :
    Forest (Function.update P k none) := by
  have hall : ∀ q, P.Ends q → q ≠ some k → Ends (Function.update P k none) q := by
    intro q hq
    induction hq with
    | root => exact fun _ => .root
    | @up k' p parent _ ih =>
      intro hne
      have hk' : k' ≠ k := fun heq => hne (congrArg some heq)
      exact .up ((Function.update_of_ne hk' _ _).trans parent) (ih (hleaf k' p parent))
  intro k' q hq
  by_cases heq : k'=k
  · subst heq
    rw [Function.update_self] at hq
    cases hq
  · rw [Function.update_of_ne heq] at hq
    exact hall q (h k' q hq) (hleaf k' q hq)

end Moves
end Parents
end VbApi.Foundations
