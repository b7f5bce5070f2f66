import Mathlib.Tactic
import Mathlib.Data.List.Nodup

/-! Insertion-ordered dictionaries: setting a present key keeps its position, a new key goes
to the end. -/
namespace VbApi.Foundations

structure Dict (κ ν : Type*) where
  entries : List (κ × ν)
  nodup : (entries.map Prod.fst).Nodup

namespace Dict
variable {κ ν μ : Type*} [DecidableEq κ]

def setEntry (k : κ) (v : ν) : List (κ × ν) → List (κ × ν)
  | [] => [(k,v)]
  | e::es => if e.1=k then (k,v)::es else e::setEntry k v es

lemma map_fst_setEntry (k : κ) (v : ν) (es : List (κ × ν)) :
    (setEntry k v es).map Prod.fst =
      if k ∈ es.map Prod.fst then es.map Prod.fst else es.map Prod.fst ++ [k] := by
  induction es with
  | nil => simp [setEntry]
  | cons e es ih =>
    by_cases he : e.1=k
    · simp [setEntry,he]
    · have he' : ¬ k=e.1 := fun h => he h.symm
      simp only [setEntry,he,if_false,List.map_cons,ih,List.mem_cons,he',false_or]
      split_ifs <;> simp

def empty : Dict κ ν := ⟨[],by simp⟩

def get? (d : Dict κ ν) (k : κ) : Option ν := d.entries.lookup k

def getD (d : Dict κ ν) (k : κ) (default : ν) : ν := (d.get? k).getD default

def keys (d : Dict κ ν) : List κ := d.entries.map Prod.fst

def values (d : Dict κ ν) : List ν := d.entries.map Prod.snd

def set (d : Dict κ ν) (k : κ) (v : ν) : Dict κ ν where
  entries := setEntry k v d.entries
  nodup := by
    rw [map_fst_setEntry]
    split_ifs with h
    · exact d.nodup
    · exact List.Nodup.append d.nodup (List.nodup_singleton k) (by simpa using h)

/-- A dict comprehension: a later pair overwrites an earlier one with the same key. -/
def ofPairs (ps : List (κ × ν)) : Dict κ ν :=
  ps.foldl (fun d p => d.set p.1 p.2) empty

@[simp] theorem get?_empty (k : κ) : (empty : Dict κ ν).get? k=none := rfl

lemma lookup_setEntry (k k' : κ) (v : ν) (es : List (κ × ν)) :
    (setEntry k v es).lookup k' = if k'=k then some v else es.lookup k' := by
  induction es with
  | nil =>
    by_cases h : k'=k
    · subst h
      simp [setEntry]
    · have hb : (k'==k)=false := beq_eq_false_iff_ne.mpr h
      simp [setEntry,List.lookup_cons,hb,h]
  | cons e es ih =>
    obtain ⟨k₀,v₀⟩ := e
    by_cases h₀ : k₀=k
    · subst h₀
      by_cases h : k'=k₀
      · simp [setEntry,h]
      · have hb : (k'==k₀)=false := beq_eq_false_iff_ne.mpr h
        simp [setEntry,List.lookup_cons,hb,h]
    · simp only [setEntry,h₀,if_false,List.lookup_cons,ih]
      by_cases h : k'=k₀
      · subst h
        simp [h₀]
      · have hb : (k'==k₀)=false := beq_eq_false_iff_ne.mpr h
        simp only [hb]

theorem get?_set (d : Dict κ ν) (k k' : κ) (v : ν) :
    (d.set k v).get? k' = if k'=k then some v else d.get? k' :=
  lookup_setEntry k k' v d.entries

@[simp] theorem get?_set_self (d : Dict κ ν) (k : κ) (v : ν) : (d.set k v).get? k=some v := by
  simp [get?_set]

@[simp] theorem get?_set_of_ne (d : Dict κ ν) {k k' : κ} (h : k' ≠ k) (v : ν) :
    (d.set k v).get? k'=d.get? k' := by
  simp [get?_set,h]

/-- The later value stays. -/
@[simp] theorem set_set (d : Dict κ ν) (k : κ) (v w : ν) : (d.set k v).set k w=d.set k w := by
  obtain ⟨es,hes⟩ := d
  simp only [set,mk.injEq]
  clear hes
  induction es with
  | nil => simp [setEntry]
  | cons e es ih =>
    by_cases he : e.1=k
    · simp [setEntry,he]
    · simp [setEntry,he,ih]

theorem getD_set (d : Dict κ ν) (k k' : κ) (v w : ν) :
    (d.set k v).getD k' w = if k'=k then v else d.getD k' w := by
  simp only [getD,get?_set]
  split_ifs <;> rfl

theorem get?_eq_some_iff (d : Dict κ ν) (k : κ) (v : ν) :
    d.get? k=some v ↔ (k,v) ∈ d.entries := by
  obtain ⟨es,hes⟩ := d
  change es.lookup k=some v ↔ (k,v) ∈ es
  induction es with
  | nil => simp
  | cons e es ih =>
    obtain ⟨k₀,v₀⟩ := e
    simp only [List.map_cons,List.nodup_cons] at hes
    by_cases h : k=k₀
    · subst h
      have hk : (k,v) ∉ es := fun hm => hes.1 (List.mem_map_of_mem (f := Prod.fst) hm)
      simp [eq_comm,hk]
    · have hb : (k==k₀)=false := beq_eq_false_iff_ne.mpr h
      simp [List.lookup_cons,hb,ih hes.2,h]

theorem mem_keys_iff (d : Dict κ ν) (k : κ) : k ∈ d.keys ↔ ∃ v, d.get? k=some v := by
  simp [keys,get?_eq_some_iff]

theorem mem_values_iff (d : Dict κ ν) (v : ν) : v ∈ d.values ↔ ∃ k, d.get? k=some v := by
  simp [values,get?_eq_some_iff]

theorem get?_foldl_set_of_notMem (ps : List (κ × ν)) (d : Dict κ ν) {k : κ}
    (h : k ∉ ps.map Prod.fst) :
    (ps.foldl (fun d p => d.set p.1 p.2) d).get? k=d.get? k := by
  induction ps generalizing d with
  | nil => rfl
  | cons p ps ih =>
    simp only [List.map_cons,List.mem_cons,not_or] at h
    rw [List.foldl_cons,ih _ h.2,get?_set_of_ne _ h.1]

theorem get?_foldl_set_of_mem (ps : List (κ × ν)) (d : Dict κ ν) (hps : (ps.map Prod.fst).Nodup)
    {k : κ} {v : ν} (h : (k,v) ∈ ps) :
    (ps.foldl (fun d p => d.set p.1 p.2) d).get? k=some v := by
  induction ps generalizing d with
  | nil => simp at h
  | cons p ps ih =>
    simp only [List.map_cons,List.nodup_cons] at hps
    rw [List.foldl_cons]
    rcases List.mem_cons.mp h with rfl | h
    · rw [get?_foldl_set_of_notMem _ _ hps.1,get?_set_self]
    · exact ih _ hps.2 h

/-- Pairs with different keys are looked up as they stand. -/
theorem get?_ofPairs_iff (ps : List (κ × ν)) (hps : (ps.map Prod.fst).Nodup) (k : κ) (v : ν) :
    (ofPairs ps).get? k=some v ↔ (k,v) ∈ ps := by
  constructor
  · intro h
    by_contra hm
    by_cases hk : k ∈ ps.map Prod.fst
    · obtain ⟨⟨k',w⟩,hw,rfl⟩ := List.mem_map.mp hk
      have := get?_foldl_set_of_mem ps empty hps hw
      rw [ofPairs,this] at h
      cases h
      exact hm hw
    · rw [ofPairs,get?_foldl_set_of_notMem ps empty hk] at h
      simp at h
  · exact get?_foldl_set_of_mem ps empty hps

/-- What is looked up was one of the pairs. -/
theorem mem_of_get?_ofPairs {ps : List (κ × ν)} {k : κ} {v : ν} (h : (ofPairs ps).get? k=some v) :
    (k,v) ∈ ps := by
  have hfold : ∀ (ps : List (κ × ν)) (d : Dict κ ν),
      (ps.foldl (fun d p => d.set p.1 p.2) d).get? k=some v → (k,v) ∈ ps ∨ d.get? k=some v := by
    intro ps
    induction ps with
    | nil => exact fun d h => .inr h
    | cons p ps ih =>
      intro d h
      obtain hmem | hd := ih _ h
      · exact .inl (List.mem_cons_of_mem _ hmem)
      · rw [get?_set] at hd
        split_ifs at hd with hk
        · left
          rw [hk,← Option.some.inj hd]
          exact List.mem_cons_self
        · exact .inr hd
  obtain hmem | hempty := hfold ps empty h
  · exact hmem
  · cases hempty

/-- The entries whose keys are not listed. -/
def eraseAll (d : Dict κ ν) (ks : List κ) : Dict κ ν where
  entries := d.entries.filter fun e => e.1 ∉ ks
  nodup := d.nodup.sublist (List.filter_sublist.map _)

def erase (d : Dict κ ν) (k : κ) : Dict κ ν := d.eraseAll [k]

/-- The listed entries get a new value each. -/
def modify (d : Dict κ ν) (ks : List κ) (f : ν → ν) : Dict κ ν where
  entries := d.entries.map fun e => if e.1 ∈ ks then (e.1,f e.2) else e
  nodup := by
    have hkeys : (d.entries.map fun e => if e.1 ∈ ks then (e.1,f e.2) else e).map Prod.fst=
        d.entries.map Prod.fst := by
      rw [List.map_map]
      apply List.map_congr_left
      intro e _
      by_cases he : e.1 ∈ ks <;> simp [he]
    rw [hkeys]
    exact d.nodup

/-- Another value for every key. -/
def mapValues (d : Dict κ ν) (f : ν → μ) : Dict κ μ where
  entries := d.entries.map fun e => (e.1,f e.2)
  nodup := by
    rw [List.map_map]
    exact d.nodup

/-- The first entry that meets a condition. -/
def find? (d : Dict κ ν) (p : κ → ν → Bool) : Option (κ × ν) := d.entries.find? fun e => p e.1 e.2

/-- The keys of the entries that meet a condition. -/
def keysWhere (d : Dict κ ν) (p : κ → ν → Bool) : List κ :=
  (d.entries.filter fun e => p e.1 e.2).map Prod.fst

@[simp] theorem get?_eraseAll_eq_some_iff (d : Dict κ ν) (ks : List κ) (k : κ) (v : ν) :
    (d.eraseAll ks).get? k=some v ↔ k ∉ ks ∧ d.get? k=some v := by
  rw [get?_eq_some_iff,get?_eq_some_iff]
  simp [eraseAll,and_comm]

lemma get?_eraseAll_of_mem (d : Dict κ ν) {ks : List κ} {k : κ} (hk : k ∈ ks) :
    (d.eraseAll ks).get? k=none :=
  Option.eq_none_iff_forall_ne_some.mpr fun v hv =>
    ((get?_eraseAll_eq_some_iff d ks k v).mp hv).1 hk

theorem get?_erase (d : Dict κ ν) (k k' : κ) :
    (d.erase k).get? k'=if k'=k then none else d.get? k' := by
  ext v
  by_cases h : k'=k <;> simp [erase,h]

theorem get?_modify (d : Dict κ ν) (ks : List κ) (f : ν → ν) (k : κ) :
    (d.modify ks f).get? k=if k ∈ ks then (d.get? k).map f else d.get? k := by
  obtain ⟨es,hes⟩ := d
  simp only [modify,get?]
  clear hes
  induction es with
  | nil => simp
  | cons e es ih =>
    rw [List.map_cons,List.lookup_cons,List.lookup_cons,ih]
    by_cases hk : k=e.1
    · subst hk
      by_cases he : e.1 ∈ ks <;> simp [he]
    · have hbeq : (k==e.1)=false := beq_false_of_ne hk
      by_cases he : e.1 ∈ ks <;> simp [he,hbeq]

theorem get?_mapValues (d : Dict κ ν) (f : ν → μ) (k : κ) :
    (d.mapValues f).get? k=(d.get? k).map f := by
  obtain ⟨es,hes⟩ := d
  simp only [mapValues,get?]
  clear hes
  induction es with
  | nil => rfl
  | cons e es ih =>
    rw [List.map_cons,List.lookup_cons,List.lookup_cons,ih]
    by_cases hk : k=e.1
    · subst hk
      simp
    · have hbeq : (k==e.1)=false := beq_false_of_ne hk
      simp [hbeq]

lemma getD_mapValues (d : Dict κ ν) (f : ν → μ) (k : κ) (v : ν) :
    (d.mapValues f).getD k (f v)=f (d.getD k v) := by
  rw [getD,getD,get?_mapValues,Option.getD_map]

theorem get?_of_find? {d : Dict κ ν} {p : κ → ν → Bool} {k : κ} {v : ν}
    (h : d.find? p=some (k,v)) : d.get? k=some v ∧ p k v :=
  ⟨(d.get?_eq_some_iff k v).mpr (List.mem_of_find?_eq_some h),
    List.find?_some (p := fun e : κ × ν => p e.1 e.2) h⟩

@[simp] theorem mem_keysWhere (d : Dict κ ν) (p : κ → ν → Bool) (k : κ) :
    k ∈ d.keysWhere p ↔ ∃ v, d.get? k=some v ∧ p k v := by
  simp [keysWhere,get?_eq_some_iff]

/-- A table is one of its rows, and the table without it. -/
lemma entries_perm_erase {d : Dict κ ν} {k : κ} {v : ν} (h : d.get? k=some v) :
    d.entries.Perm ((k,v)::(d.erase k).entries) := by
  have hmem : ∀ e, e ∈ (d.erase k).entries ↔ e.1 ≠ k ∧ e ∈ d.entries := by
    intro e
    simp [erase,eraseAll,and_comm]
  have hfresh : (k,v) ∉ (d.erase k).entries := fun hin => ((hmem _).mp hin).1 rfl
  have hnodup : ((k,v)::(d.erase k).entries).Nodup :=
    List.nodup_cons.mpr ⟨hfresh,(d.erase k).nodup.of_map _⟩
  rw [List.perm_ext_iff_of_nodup (d.nodup.of_map _) hnodup]
  intro e
  rw [List.mem_cons,hmem]
  constructor
  · intro he
    by_cases hk : e.1=k
    · left
      have hrow := (get?_eq_some_iff d e.1 e.2).mpr he
      rw [hk,h,Option.some.injEq] at hrow
      exact Prod.ext hk hrow.symm
    · exact .inr ⟨hk,he⟩
  · rintro (rfl | ⟨-,he⟩)
    · exact (get?_eq_some_iff d k v).mp h
    · exact he

omit [DecidableEq κ] in
lemma nodup_keysWhere (d : Dict κ ν) (p : κ → ν → Bool) : (d.keysWhere p).Nodup :=
  d.nodup.sublist (List.filter_sublist.map _)

end Dict
end VbApi.Foundations
