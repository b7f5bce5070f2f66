import Mathlib.Logic.Relation
import Mathlib.Data.List.Perm.Subperm
import Mathlib.Data.List.Dedup
import Mathlib.Tactic

/-! A recursive `UNION` query: the rows of its base, and what follows from rows it has found. -/
namespace VbApi.Foundations
variable {α : Type*} [DecidableEq α]

/-- The rounds of the query. Each joins the rows that the last one added, and drops the results
that were there before; the query ends when a round adds nothing. -/
def recursiveUnion (next : α → List α) : ℕ → List α → List α → List α
  | 0,_,result => result
  | n+1,work,result =>
    let added := ((work.flatMap next).filter fun x => x ∉ result).dedup
    if added=[] then result else recursiveUnion next n added (result ++ added)

section Rounds
variable {next : α → List α}

lemma mem_added {work result : List α} {y : α} :
    y ∈ ((work.flatMap next).filter fun x => x ∉ result).dedup ↔
      (∃ x ∈ work, y ∈ next x) ∧ y ∉ result := by
  simp

/-- Whatever is found follows from the rows of the result. -/
lemma recursiveUnion_sound (n : ℕ) {work result : List α} (hwork : work ⊆ result) {y : α}
    (hy : y ∈ recursiveUnion next n work result) :
    ∃ x ∈ result, Relation.ReflTransGen (fun a b => b ∈ next a) x y := by
  induction n generalizing work result with
  | zero => exact ⟨y,hy,.refl⟩
  | succ n ih =>
    rw [recursiveUnion] at hy
    split_ifs at hy with hadded
    · exact ⟨y,hy,.refl⟩
    · obtain ⟨x,hx,hxy⟩ := ih (List.subset_append_right _ _) hy
      rcases List.mem_append.mp hx with hx | hx
      · exact ⟨x,hx,hxy⟩
      · obtain ⟨⟨w,hw,hwx⟩,-⟩ := mem_added.mp hx
        exact ⟨w,hwork hw,hxy.head hwx⟩

lemma subset_recursiveUnion (n : ℕ) (work result : List α) :
    result ⊆ recursiveUnion next n work result := by
  induction n generalizing work result with
  | zero => exact List.Subset.refl _
  | succ n ih =>
    rw [recursiveUnion]
    split_ifs
    · exact List.Subset.refl _
    · exact List.Subset.trans (List.subset_append_left _ _) (ih _ _)

/-- With a round for every row, the result is closed: only the last rows have an open successor. -/
lemma recursiveUnion_closed {all : List α} (hnext : ∀ x ∈ all, ∀ y ∈ next x, y ∈ all) (n : ℕ)
    {work result : List α} (hwork : work ⊆ result) (hall : result ⊆ all) (hnodup : result.Nodup)
    (hopen : ∀ x ∈ result, x ∉ work → ∀ y ∈ next x, y ∈ result)
    (hn : all.length ≤ result.length+n) {x y : α} (hx : x ∈ recursiveUnion next n work result)
    (hy : y ∈ next x) : y ∈ recursiveUnion next n work result := by
  induction n generalizing work result with
  | zero =>
    have hperm : result.Perm all := (List.subperm_of_subset hnodup hall).perm_of_length_le hn
    exact hperm.mem_iff.mpr (hnext x (hall hx) y hy)
  | succ n ih =>
    rw [recursiveUnion] at hx ⊢
    split_ifs at hx ⊢ with hadded
    · by_cases hxw : x ∈ work
      · by_contra hnot
        have hmem := mem_added.mpr ⟨⟨x,hxw,hy⟩,hnot⟩
        rw [hadded] at hmem
        contradiction
      · exact hopen x hx hxw y hy
    · refine ih (List.subset_append_right _ _) ?_ ?_ ?_ ?_ hx
      · intro z hz
        rcases List.mem_append.mp hz with hz | hz
        · exact hall hz
        · obtain ⟨⟨w,hw,hwz⟩,-⟩ := mem_added.mp hz
          exact hnext w (hall (hwork hw)) z hwz
      · refine List.Nodup.append hnodup (List.nodup_dedup _) ?_
        intro z hz hz'
        exact (mem_added.mp hz').2 hz
      · intro z hz hznot w hw
        rcases List.mem_append.mp hz with hz | hz
        · by_cases hzw : z ∈ work
          · by_cases hwres : w ∈ result
            · exact List.mem_append_left _ hwres
            · exact List.mem_append_right _ (mem_added.mpr ⟨⟨z,hzw,hw⟩,hwres⟩)
          · exact List.mem_append_left _ (hopen z hz hzw w hw)
        · exact absurd hz hznot
      · have hpos := List.length_pos_iff.mpr hadded
        rw [List.length_append]
        omega

/-- The query finds exactly what can be reached from its base. -/
theorem mem_recursiveUnion_iff {all base : List α} (hnext : ∀ x ∈ all, ∀ y ∈ next x, y ∈ all)
    (hbase : base ⊆ all) (hnodup : base.Nodup) (y : α) :
    y ∈ recursiveUnion next all.length base base ↔
      ∃ x ∈ base, Relation.ReflTransGen (fun a b => b ∈ next a) x y := by
  constructor
  · exact recursiveUnion_sound _ (List.Subset.refl _)
  · rintro ⟨x,hx,hxy⟩
    induction hxy with
    | refl => exact subset_recursiveUnion _ _ _ hx
    | tail _ hstep ih =>
      exact recursiveUnion_closed hnext _ (List.Subset.refl _) hbase hnodup
        (fun z hz hnot => absurd hz hnot) (Nat.le_add_left _ _) ih hstep

end Rounds
end VbApi.Foundations
