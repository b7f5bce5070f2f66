import Mathlib.Data.List.Perm.Basic
import Mathlib.Tactic

/-! Edits of a table with one entry for each key, and the replay of a log of edits. An edit names
the entry before and after it and is refused where the entry before is another one. -/
namespace VbApi.Foundations

/-- The entry of each key that has one. -/
abbrev Table (κ ν : Type*) := κ → Option ν

structure Edit (κ ν : Type*) where
  key : κ
  old : Option ν
  new : Option ν

namespace Table
variable {κ ν : Type*} {s t : Table κ ν} {es es' : List (Edit κ ν)}

/-- The edits say, key by key, how the one table differs from the other. -/
structure Differs (s t : Table κ ν) (es : List (Edit κ ν)) : Prop where
  distinct : (es.map Edit.key).Nodup
  old : ∀ e ∈ es, s e.key=e.old
  new : ∀ e ∈ es, t e.key=e.new
  rest : ∀ k, k ∉ es.map Edit.key → s k=t k

lemma Differs.perm (h : Differs s t es) (hperm : es.Perm es') : Differs s t es' where
  distinct := (hperm.map _).nodup_iff.mp h.distinct
  old e he := h.old e (hperm.mem_iff.mpr he)
  new e he := h.new e (hperm.mem_iff.mpr he)
  rest k hk := h.rest k fun hmem => hk ((hperm.map _).mem_iff.mp hmem)

variable [DecidableEq κ] [DecidableEq ν]

def edit (s : Table κ ν) (e : Edit κ ν) : Option (Table κ ν) :=
  if s e.key=e.old then some (Function.update s e.key e.new) else none

/-- Apply the edits in order. -/
def replay (s : Table κ ν) (es : List (Edit κ ν)) : Option (Table κ ν) := es.foldlM edit s

@[simp] lemma replay_nil : s.replay []=some s := rfl

lemma replay_cons (e : Edit κ ν) : s.replay (e::es)=(s.edit e).bind fun s => s.replay es := rfl

lemma replay_append : s.replay (es ++ es')=(s.replay es).bind fun s => s.replay es' := by
  simp only [replay,List.foldlM_append]
  rfl

/-- Edits of different keys turn the one table into the other, in whatever order they come. -/
theorem Differs.replay (h : Differs s t es) : s.replay es=some t := by
  induction es generalizing s with
  | nil =>
    rw [replay_nil,Option.some.injEq]
    funext k
    exact h.rest k (List.not_mem_nil)
  | cons e es ih =>
    have hdistinct := h.distinct
    rw [List.map_cons,List.nodup_cons] at hdistinct
    have hedit : s.edit e=some (Function.update s e.key e.new) :=
      if_pos (h.old e List.mem_cons_self)
    rw [replay_cons,hedit,Option.bind_some]
    apply ih
    refine ⟨hdistinct.2,?_,fun e' he' => h.new e' (List.mem_cons_of_mem _ he'),?_⟩
    · intro e' he'
      have hne : e'.key ≠ e.key := by
        intro heq
        apply hdistinct.1
        rw [← heq]
        exact List.mem_map_of_mem he'
      rw [Function.update_of_ne hne]
      exact h.old e' (List.mem_cons_of_mem _ he')
    · intro k hk
      by_cases hkey : k=e.key
      · subst hkey
        rw [Function.update_self]
        exact (h.new e List.mem_cons_self).symm
      · rw [Function.update_of_ne hkey]
        apply h.rest
        rw [List.map_cons,List.mem_cons]
        rintro (heq | hmem)
        · exact hkey heq
        · exact hk hmem

/-- A key is edited once when its entry differs, and not at all otherwise. -/
theorem Differs.count (h : Differs s t es) (hreal : ∀ e ∈ es, e.old ≠ e.new) (k : κ) :
    (es.filter fun e => e.key=k).length=if s k=t k then 0 else 1 := by
  have hcount : (es.filter fun e => e.key=k).length=(es.map Edit.key).count k := by
    rw [List.count,List.countP_map,List.countP_eq_length_filter]
    rfl
  rw [hcount]
  by_cases hk : k ∈ es.map Edit.key
  · rw [List.count_eq_one_of_mem h.distinct hk,if_neg]
    obtain ⟨e,he,rfl⟩ := List.mem_map.mp hk
    rw [h.old e he,h.new e he]
    exact hreal e he
  · rw [List.count_eq_zero_of_not_mem hk,if_pos (h.rest k hk)]

/-- An entry after a replay was there before, or one of the edits has set it. -/
theorem exists_edit_of_replay (h : s.replay es=some t) {k : κ} {v : ν} (hv : t k=some v) :
    s k=some v ∨ ∃ e ∈ es, e.key=k ∧ e.new=some v := by
  induction es generalizing s with
  | nil =>
    rw [replay_nil,Option.some.injEq] at h
    exact .inl (h ▸ hv)
  | cons e es ih =>
    rw [replay_cons,edit] at h
    split_ifs at h with hold
    · obtain hs | ⟨e',he',hedit⟩ := ih h
      · by_cases hkey : k=e.key
        · subst hkey
          rw [Function.update_self] at hs
          exact .inr ⟨e,List.mem_cons_self,rfl,hs⟩
        · rw [Function.update_of_ne hkey] at hs
          exact .inl hs
      · exact .inr ⟨e',List.mem_cons_of_mem _ he',hedit⟩
    · cases h

end Table
end VbApi.Foundations
