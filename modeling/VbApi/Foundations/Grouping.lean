import Mathlib.Algebra.BigOperators.Group.List.Basic
import Mathlib.Data.List.Dedup
import Mathlib.Data.Set.Card
import VbApi.Foundations.Dict

/-! Rows grouped by a key, and tables counted by their keys. -/
namespace VbApi.Foundations
variable {α κ : Type*} [DecidableEq κ]

/-- Every key that occurs, with its rows. -/
def groupBy (key : α → κ) (rows : List α) : List (κ × List α) :=
  (rows.map key).dedup.map fun k => (k,rows.filter fun a => key a=k)

variable {key : α → κ} {rows : List α} {k : κ} {group : List α}

lemma map_fst_groupBy (key : α → κ) (rows : List α) :
    (groupBy key rows).map Prod.fst=(rows.map key).dedup := by
  simp [groupBy,Function.comp_def]

lemma nodup_groupBy (key : α → κ) (rows : List α) : ((groupBy key rows).map Prod.fst).Nodup := by
  rw [map_fst_groupBy]
  exact List.nodup_dedup _

lemma mem_groupBy : (k,group) ∈ groupBy key rows ↔
    k ∈ rows.map key ∧ group=rows.filter fun a => key a=k := by
  simp only [groupBy,List.mem_map,Prod.mk.injEq,List.mem_dedup]
  constructor
  · rintro ⟨k',hk',rfl,rfl⟩
    exact ⟨hk',rfl⟩
  · rintro ⟨hk,rfl⟩
    exact ⟨k,hk,rfl,rfl⟩

/-- One row more adds its weight to the sum of one group. -/
lemma sum_indicator {keys : List κ} (hkeys : keys.Nodup) (hk : k ∈ keys) (n : ℕ) :
    (keys.map fun k' => if k=k' then n else 0).sum=n := by
  induction keys with
  | nil => cases hk
  | cons k' keys ih =>
    obtain ⟨hfresh,hkeys⟩ := List.nodup_cons.mp hkeys
    rw [List.map_cons,List.sum_cons]
    rcases List.mem_cons.mp hk with rfl | hk
    · have hrest : (keys.map fun k' => if k=k' then n else 0).sum=0 := by
        apply List.sum_eq_zero
        intro x hx
        obtain ⟨k',hk',rfl⟩ := List.mem_map.mp hx
        apply if_neg
        rintro rfl
        exact hfresh hk'
      rw [if_pos rfl,hrest,Nat.add_zero]
    · have hne : k ≠ k' := fun heq => hfresh (heq ▸ hk)
      rw [if_neg hne,ih hkeys hk,Nat.zero_add]

lemma sum_by_keys {keys : List κ} (hkeys : keys.Nodup) (hcover : ∀ a ∈ rows, key a ∈ keys)
    (w : α → ℕ) : (keys.map fun k => ((rows.filter fun a => key a=k).map w).sum).sum=
      (rows.map w).sum := by
  induction rows with
  | nil => simp
  | cons a rows ih =>
    have hstep : ∀ k, (((a::rows).filter fun a => key a=k).map w).sum=
        (if key a=k then w a else 0)+((rows.filter fun a => key a=k).map w).sum := by
      intro k
      by_cases h : key a=k <;> simp [h]
    have hrows : ∀ b ∈ rows, key b ∈ keys := fun b hb => hcover b (.tail a hb)
    simp only [hstep,List.sum_map_add]
    rw [sum_indicator hkeys (hcover a (.head rows)),ih hrows,List.map_cons,List.sum_cons]

/-- The weights of the groups add up to the weight of all rows. -/
theorem sum_groupBy (key : α → κ) (rows : List α) (w : α → ℕ) :
    ((groupBy key rows).map fun g => (g.2.map w).sum).sum=(rows.map w).sum := by
  have hcover : ∀ a ∈ rows, key a ∈ (rows.map key).dedup :=
    fun a ha => List.mem_dedup.mpr (List.mem_map_of_mem ha)
  rw [← sum_by_keys (List.nodup_dedup _) hcover w,groupBy,List.map_map]
  rfl

theorem length_groupBy (key : α → κ) (rows : List α) :
    ((groupBy key rows).map fun g => g.2.length).sum=rows.length := by
  have hones : ∀ xs : List α, (xs.map fun _ => 1).sum=xs.length := by simp
  have h := sum_groupBy key rows fun _ => 1
  simpa only [hones] using h

namespace Dict
variable {ν : Type*}

/-- The number of entries with a property is the number of their keys. -/
theorem ncard_keysWhere (d : Dict κ ν) (p : κ → ν → Bool) :
    {k | ∃ v, d.get? k=some v ∧ p k v}.ncard=d.entries.countP fun e => p e.1 e.2 := by
  have hset : {k | ∃ v, d.get? k=some v ∧ p k v}=((d.keysWhere p).toFinset : Set κ) := by
    ext k
    simp [Dict.mem_keysWhere]
  rw [hset,Set.ncard_coe_finset,List.toFinset_card_of_nodup (d.nodup_keysWhere p),
    Dict.keysWhere,List.length_map,List.countP_eq_length_filter]

omit [DecidableEq κ] in
lemma countP_values (d : Dict κ ν) (p : ν → Bool) :
    d.values.countP p=d.entries.countP fun e => p e.2 := by
  rw [values,List.countP_map]
  rfl

end Dict
end VbApi.Foundations
