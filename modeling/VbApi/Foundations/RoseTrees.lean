import Mathlib.Data.List.Nodup
import Mathlib.Logic.Relation
import Mathlib.Tactic

/-! Trees that are unfolded from the children of a node. When the nodes lie on levels, a bounded
number of nested calls is enough, and every node below the first occurs once. -/
namespace VbApi.Foundations

inductive Rose (α : Type*)
  | node (value : α) (children : List (Rose α))

namespace Rose
variable {α β : Type*}

def value : Rose α → α
  | .node a _ => a

def children : Rose α → List (Rose α)
  | .node _ ts => ts

mutual
/-- The values of a tree, each before those below it. -/
def values : Rose α → List α
  | .node a ts => a::valuesOf ts

def valuesOf : List (Rose α) → List α
  | [] => []
  | t::ts => values t ++ valuesOf ts
end

mutual
/-- The values that stand directly one below the other, the upper one first. -/
def links : Rose α → List (α × α)
  | .node a ts => ts.map (fun t => (a,t.value)) ++ linksOf ts

def linksOf : List (Rose α) → List (α × α)
  | [] => []
  | t::ts => links t ++ linksOf ts
end

lemma valuesOf_map (xs : List β) (f : β → Rose α) :
    valuesOf (xs.map f)=xs.flatMap fun b => (f b).values := by
  induction xs with
  | nil => rfl
  | cons b xs ih => rw [List.map_cons,valuesOf,ih,List.flatMap_cons]

lemma linksOf_map (xs : List β) (f : β → Rose α) :
    linksOf (xs.map f)=xs.flatMap fun b => (f b).links := by
  induction xs with
  | nil => rfl
  | cons b xs ih => rw [List.map_cons,linksOf,ih,List.flatMap_cons]

variable (next : α → List α)

/-- Unfold a tree with so many nested calls at most. -/
def unfold (label : α → β) : ℕ → α → Option (Rose β)
  | 0,_ => none
  | n+1,a => ((next a).mapM (unfold label n)).map (.node (label a))

/-- The nodes that an unfolding visits. -/
def preorder : ℕ → α → List α
  | 0,_ => []
  | n+1,a => a::(next a).flatMap (preorder n)

/-- The nodes lie on levels down to some depth, each below one parent. -/
structure Layered (level : ℕ → α → Prop) (depth : ℕ) : Prop where
  bound : ∀ n a, level n a → n ≤ depth
  unique : ∀ n m a, level n a → level m a → n=m
  down : ∀ n a, level n a → ∀ c ∈ next a, level (n+1) c
  nodup : ∀ a, (next a).Nodup
  parent : ∀ n m a b c, level n a → level m b → c ∈ next a → c ∈ next b → a=b

variable {next} {level : ℕ → α → Prop} {depth : ℕ}

lemma mapM_eq_some {f : α → Option β} {g : α → β} {xs : List α} (h : ∀ a ∈ xs, f a=some (g a)) :
    xs.mapM f=some (xs.map g) := by
  induction xs with
  | nil => rfl
  | cons a xs ih =>
    rw [List.mapM_cons,h a List.mem_cons_self,ih fun b hb => h b (List.mem_cons_of_mem a hb)]
    rfl

/-- From every level the calls that are left are enough, and more do not change the tree. -/
theorem Layered.unfold (h : Layered next level depth) (label : α → β) {n l : ℕ} {a : α}
    (ha : level l a) (hn : depth < l+n) : ∃ t, (∀ m, n ≤ m → Rose.unfold next label m a=some t) ∧
      t.value=label a ∧ t.values=(preorder next n a).map label ∧
      ∀ e ∈ t.links, ∃ b c, e=(label b,label c) ∧ c ∈ next b := by
  induction n generalizing l a with
  | zero => exact absurd (h.bound l a ha) (by omega)
  | succ n ih =>
    have hbelow : ∀ c ∈ next a, ∃ t : Rose β, (∀ m, n ≤ m → Rose.unfold next label m c=some t) ∧
        t.value=label c ∧ t.values=(preorder next n c).map label ∧
        ∀ e ∈ t.links, ∃ b c, e=(label b,label c) ∧ c ∈ next b :=
      fun c hc => ih (h.down l a ha c hc) (by omega)
    have : Nonempty (Rose β) := ⟨.node (label a) []⟩
    choose! tree htree hvalue hvalues hlinks using hbelow
    refine ⟨.node (label a) ((next a).map tree),?_,rfl,?_,?_⟩
    · intro m hm
      obtain ⟨m,rfl⟩ : ∃ k, m=k+1 := ⟨m-1,by omega⟩
      rw [Rose.unfold,mapM_eq_some fun c hc => htree c hc m (by omega),Option.map_some]
    · rw [values,valuesOf_map,preorder,List.map_cons,List.map_flatMap]
      exact congrArg _ (List.flatMap_congr hvalues)
    · intro e he
      rw [links,linksOf_map,List.map_map,List.mem_append] at he
      rcases he with he | he
      · obtain ⟨c,hc,rfl⟩ := List.mem_map.mp he
        exact ⟨a,c,Prod.ext rfl (hvalue c hc),hc⟩
      · obtain ⟨c,hc,hec⟩ := List.mem_flatMap.mp he
        exact hlinks c hc e hec

/-- One node is reached from the other by going down. -/
abbrev Reaches (next : α → List α) : α → α → Prop :=
  Relation.ReflTransGen fun a c => c ∈ next a

lemma Layered.level_of_reaches (h : Layered next level depth) {l : ℕ} {a x : α} (ha : level l a)
    (hx : Reaches next a x) : ∃ n, level (l+n) x := by
  induction hx with
  | refl => exact ⟨0,ha⟩
  | tail _ hstep ih =>
    obtain ⟨n,hn⟩ := ih
    exact ⟨n+1,h.down _ _ hn _ hstep⟩

lemma Layered.mem_preorder_iff (h : Layered next level depth) {n l : ℕ} {a x : α} (ha : level l a)
    (hn : depth < l+n) : x ∈ preorder next n a ↔ Reaches next a x := by
  induction n generalizing l a with
  | zero => exact absurd (h.bound l a ha) (by omega)
  | succ n ih =>
    rw [preorder,List.mem_cons,List.mem_flatMap]
    constructor
    · rintro (rfl | ⟨c,hc,hx⟩)
      · exact .refl
      · exact .head hc ((ih (h.down l a ha c hc) (by omega)).mp hx)
    · intro hx
      cases Relation.ReflTransGen.cases_head hx with
      | inl heq => exact Or.inl heq.symm
      | inr hstep =>
        obtain ⟨c,hc,hcx⟩ := hstep
        exact Or.inr ⟨c,hc,(ih (h.down l a ha c hc) (by omega)).mpr hcx⟩

/-- What is below two nodes of one level is below one. -/
lemma Layered.eq_of_reaches (h : Layered next level depth) {l : ℕ} {a b x : α} (ha : level l a)
    (hb : level l b) (hax : Reaches next a x) (hbx : Reaches next b x) : a=b := by
  induction hax with
  | refl =>
    cases hbx with
    | refl => rfl
    | tail hby hstep =>
      obtain ⟨n,hn⟩ := h.level_of_reaches hb hby
      have := h.unique _ _ _ ha (h.down _ _ hn _ hstep)
      omega
  | @tail y x hay hstep ih =>
    cases hbx with
    | refl =>
      obtain ⟨n,hn⟩ := h.level_of_reaches ha hay
      have := h.unique _ _ _ hb (h.down _ _ hn _ hstep)
      omega
    | tail hby hstep' =>
      obtain ⟨_,hy⟩ := h.level_of_reaches ha hay
      obtain ⟨_,hy'⟩ := h.level_of_reaches hb hby
      rw [h.parent _ _ _ _ _ hy' hy hstep' hstep] at hby
      exact ih hby

lemma Layered.nodup_preorder (h : Layered next level depth) {n l : ℕ} {a : α} (ha : level l a)
    (hn : depth < l+n) : (preorder next n a).Nodup := by
  induction n generalizing l a with
  | zero => exact List.nodup_nil
  | succ n ih =>
    have hmem : ∀ c ∈ next a, ∀ x, x ∈ preorder next n c ↔ Reaches next c x :=
      fun c hc x => h.mem_preorder_iff (h.down l a ha c hc) (by omega)
    rw [preorder,List.nodup_cons,List.nodup_flatMap]
    refine ⟨?_,fun c hc => ih (h.down l a ha c hc) (by omega),?_⟩
    · intro hself
      obtain ⟨c,hc,hca⟩ := List.mem_flatMap.mp hself
      obtain ⟨m,hm⟩ := h.level_of_reaches (h.down l a ha c hc) ((hmem c hc a).mp hca)
      have := h.unique _ _ _ ha hm
      omega
    · refine (h.nodup a).imp_of_mem ?_
      intro c d hc hd hne x hxc hxd
      exact hne (h.eq_of_reaches (h.down l a ha c hc) (h.down l a ha d hd) ((hmem c hc x).mp hxc)
        ((hmem d hd x).mp hxd))

end Rose
end VbApi.Foundations
