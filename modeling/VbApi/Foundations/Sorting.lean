import Mathlib.Tactic
import Mathlib.Order.Defs.LinearOrder
import Mathlib.Order.OrderDual

/-! Stable sorting by a key, and the bisection of a sorted list. -/
namespace VbApi.Foundations
variable {α β : Type*} [LinearOrder β]

/-- Sort by a key; equal keys keep their order. -/
def sortBy (key : α → β) (xs : List α) : List α :=
  xs.mergeSort fun a b => decide (key a ≤ key b)

lemma sortBy_perm (key : α → β) (xs : List α) : (sortBy key xs).Perm xs := List.mergeSort_perm _ _

@[simp] lemma mem_sortBy (key : α → β) (xs : List α) (a : α) : a ∈ sortBy key xs ↔ a ∈ xs :=
  List.mem_mergeSort

@[simp] lemma sortBy_nil (key : α → β) : sortBy key []=[] := List.mergeSort_nil

@[simp] lemma sortBy_singleton (key : α → β) (a : α) : sortBy key [a]=[a] := List.mergeSort_singleton a

lemma sortBy_sorted (key : α → β) (xs : List α) :
    (sortBy key xs).Pairwise fun a b => key a ≤ key b := by
  have htrans : ∀ a b c, decide (key a ≤ key b)=true → decide (key b ≤ key c)=true →
      decide (key a ≤ key c)=true := by
    intro a b c hab hbc
    simp only [decide_eq_true_eq] at hab hbc ⊢
    exact hab.trans hbc
  have htotal : ∀ a b, (decide (key a ≤ key b) || decide (key b ≤ key a))=true := by
    intro a b
    simpa using le_total (key a) (key b)
  exact (List.pairwise_mergeSort htrans htotal xs).imp (by simp)

/-- The last of the sorted elements is a greatest one. -/
lemma le_of_sortBy_getLast? {key : α → β} {xs : List α} {a : α}
    (h : (sortBy key xs).getLast?=some a) : a ∈ xs ∧ ∀ b ∈ xs, key b ≤ key a := by
  obtain ⟨ys,hys⟩ := List.getLast?_eq_some_iff.mp h
  have hsorted := sortBy_sorted key xs
  rw [hys,List.pairwise_append] at hsorted
  constructor
  · rw [← mem_sortBy key xs,hys]
    exact List.mem_append_right _ (List.mem_singleton_self a)
  · intro b hb
    rw [← mem_sortBy key xs,hys,List.mem_append,List.mem_singleton] at hb
    obtain hb | rfl := hb
    · exact hsorted.2.2 b hb a (List.mem_singleton_self a)
    · exact le_rfl

section Sorted
variable {key : α → β} {xs ys : List α}

/-- The first of the sorted elements is a least one. -/
lemma le_of_sortBy_head? {a : α} (h : (sortBy key xs).head?=some a) : a ∈ xs ∧ ∀ b ∈ xs, key a ≤ key b := by
  obtain ⟨rest,hrest⟩ := List.head?_eq_some_iff.mp h
  have hsorted := sortBy_sorted key xs
  rw [hrest,List.pairwise_cons] at hsorted
  constructor
  · rw [← mem_sortBy key xs,hrest]
    exact List.mem_cons_self
  · intro b hb
    rw [← mem_sortBy key xs,hrest] at hb
    rcases List.mem_cons.mp hb with rfl | hb
    · exact le_rfl
    · exact hsorted.1 b hb

lemma sortBy_head?_eq_none_iff : (sortBy key xs).head?=none ↔ xs=[] := by
  rw [List.head?_eq_none_iff]
  constructor
  · intro h
    exact (h ▸ sortBy_perm key xs).symm.eq_nil
  · intro h
    rw [h,sortBy_nil]

/-- A list in strictly increasing order is what the sorting yields of its permutations. -/
lemma sortBy_eq_of_perm (hperm : ys.Perm xs) (hsorted : ys.Pairwise fun a b => key a < key b) :
    sortBy key xs=ys := by
  have hle : ys.Pairwise fun a b => key a ≤ key b := hsorted.imp fun hab => hab.le
  have hinj : ∀ a ∈ ys, ∀ b ∈ ys, key a=key b → a=b := by
    have hnodup : (ys.map key).Nodup := List.pairwise_map.mpr (hsorted.imp fun hab => hab.ne)
    intro a ha b hb hab
    exact List.inj_on_of_nodup_map hnodup ha hb hab
  refine List.Perm.eq_of_pairwise ?_ (sortBy_sorted key xs) hle ((sortBy_perm key xs).trans hperm.symm)
  intro a b ha hb hab hba
  rw [mem_sortBy] at ha
  exact hinj a (hperm.mem_iff.mpr ha) b hb (le_antisymm hab hba)

lemma sortBy_strict (hnodup : (xs.map key).Nodup) :
    (sortBy key xs).Pairwise fun a b => key a < key b := by
  have hdistinct : (sortBy key xs).Pairwise fun a b => key a ≠ key b :=
    List.pairwise_map.mp (((sortBy_perm key xs).map key).nodup_iff.mpr hnodup)
  exact ((sortBy_sorted key xs).and hdistinct).imp fun h => lt_of_le_of_ne h.1 h.2

end Sorted

/-- Halve the part between `lo` and `hi` until it is empty. -/
def bisectLoop (a : List β) (x : β) (lo hi : ℕ) : ℕ :=
  if lo < hi then
    match a[(lo+hi)/2]? with
    | some y => if x < y then bisectLoop a x lo ((lo+hi)/2) else bisectLoop a x ((lo+hi)/2+1) hi
    | none => lo
  else lo
termination_by hi-lo

/-- The place after all elements up to `x`. -/
def bisectRight (a : List β) (x : β) : ℕ := bisectLoop a x 0 a.length

/-- The loop keeps: everything before `lo` is at most `x`, everything from `hi` on is above it. -/
lemma bisectLoop_spec {a : List β} (hsorted : a.Pairwise (· ≤ ·)) (x : β) (lo hi : ℕ)
    (hle : lo ≤ hi) (hlen : hi ≤ a.length) (hlo : ∀ y ∈ a.take lo, y ≤ x)
    (hhi : ∀ y ∈ a.drop hi, x < y) :
    bisectLoop a x lo hi ≤ a.length ∧ (∀ y ∈ a.take (bisectLoop a x lo hi), y ≤ x) ∧
      ∀ y ∈ a.drop (bisectLoop a x lo hi), x < y := by
  induction lo,hi using bisectLoop.induct a x with
  | case1 lo hi hlt y hy hxy ih =>
    rw [bisectLoop,if_pos hlt,hy]
    simp only [hxy,if_true]
    apply ih (by omega) (by omega) hlo
    intro z hz
    obtain ⟨hm,rfl⟩ := List.getElem?_eq_some_iff.mp hy
    rw [List.drop_eq_getElem_cons hm] at hz
    have hdrop := hsorted.sublist (List.drop_sublist ((lo+hi)/2) a)
    rw [List.drop_eq_getElem_cons hm,List.pairwise_cons] at hdrop
    rcases List.mem_cons.mp hz with rfl | hz
    · exact hxy
    · exact lt_of_lt_of_le hxy (hdrop.1 z hz)
  | case2 lo hi hlt y hy hxy ih =>
    rw [bisectLoop,if_pos hlt,hy]
    simp only [hxy,if_false]
    refine ih (by omega) (by omega) ?_ hhi
    intro z hz
    obtain ⟨hm,rfl⟩ := List.getElem?_eq_some_iff.mp hy
    rw [List.take_succ_eq_append_getElem hm,List.mem_append,List.mem_singleton] at hz
    have htake := hsorted.sublist (List.take_sublist ((lo+hi)/2+1) a)
    rw [List.take_succ_eq_append_getElem hm,List.pairwise_append] at htake
    rcases hz with hz | rfl
    · exact (htake.2.2 z hz _ (List.mem_singleton_self _)).trans (not_lt.mp hxy)
    · exact not_lt.mp hxy
  | case3 lo hi hlt hnone =>
    have := List.getElem?_eq_none_iff.mp hnone
    omega
  | case4 lo hi hge =>
    have : lo=hi := by omega
    subst this
    rw [bisectLoop,if_neg hge]
    exact ⟨hlen,hlo,hhi⟩

/-- The bisection separates the elements up to the bound from those above it. -/
theorem bisectRight_spec {a : List β} (hsorted : a.Pairwise (· ≤ ·)) (x : β) :
    bisectRight a x ≤ a.length ∧ (∀ y ∈ a.take (bisectRight a x), y ≤ x) ∧
      ∀ y ∈ a.drop (bisectRight a x), x < y :=
  bisectLoop_spec hsorted x 0 a.length (Nat.zero_le _) le_rfl (by simp) (by simp)

/-- The element just before the bisection is the greatest one up to the bound. -/
theorem bisectRight_greatest {a : List β} (hsorted : a.Pairwise (· ≤ ·)) {x : β} {i : ℕ}
    (h : bisectRight a x=i+1) :
    ∃ hi : i < a.length, a[i] ≤ x ∧ ∀ y ∈ a, y ≤ x → y ≤ a[i] := by
  obtain ⟨hlen,hbefore,hafter⟩ := bisectRight_spec hsorted x
  rw [h] at hlen hbefore hafter
  have hi : i < a.length := by omega
  refine ⟨hi,?_,?_⟩
  · apply hbefore
    rw [List.take_succ_eq_append_getElem hi]
    exact List.mem_append_right _ (List.mem_singleton_self _)
  · intro y hy hyx
    obtain ⟨j,hj,rfl⟩ := List.getElem_of_mem hy
    have hji : j ≤ i := by
      by_contra hlt
      refine not_lt.mpr hyx (hafter _ ?_)
      rw [List.mem_drop_iff_getElem]
      refine ⟨j-(i+1),by omega,?_⟩
      congr 1
      omega
    rcases hji.eq_or_lt with rfl | hlt
    · exact le_rfl
    · exact List.pairwise_iff_getElem.mp hsorted j i hj hi hlt

end VbApi.Foundations
