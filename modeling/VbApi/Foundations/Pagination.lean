import VbApi.Foundations.Sorting
import Mathlib.Algebra.BigOperators.Group.Finset.Basic
import Mathlib.Algebra.Order.Group.Multiset

/-! The pages of a query that orders its rows by a key. Every page is a query of its own, and each time
the database may order rows with equal keys anew. -/
namespace VbApi.Foundations
variable {α κ M : Type*} [LinearOrder κ]

/-- What `ORDER BY` gives: all rows, none after one with a greater key. -/
def Ordered (key : α → κ) (rows order : List α) : Prop :=
  order.Perm rows ∧ order.Pairwise fun a b => key a ≤ key b

/-- `OFFSET` and `LIMIT`; the pages are counted from 1. -/
def pageOf (size page : ℕ) (order : List α) : List α := (order.drop ((page-1)*size)).take size

def pageCount (size total : ℕ) : ℕ := (total+size-1)/size

/-- The first pages one after the other, each with an order of its own. -/
def firstPages (size : ℕ) (orders : ℕ → List α) (n : ℕ) : List α :=
  (List.range n).flatMap fun i => pageOf size (i+1) (orders (i+1))

/-- Among the rows with this key some stand before the position and some after it. -/
def SplitsAt (key : α → κ) (rows : List α) (m : ℕ) (k : κ) : Prop :=
  rows.countP (fun a => key a < k) < m ∧ m < rows.countP (fun a => key a ≤ k)

instance (key : α → κ) (rows : List α) (m : ℕ) (k : κ) : Decidable (SplitsAt key rows m k) :=
  inferInstanceAs (Decidable (_ ∧ _))

lemma ordered_sortBy (key : α → κ) (rows : List α) : Ordered key rows (sortBy key rows) :=
  ⟨sortBy_perm key rows,sortBy_sorted key rows⟩

/-- Shown with their keys, ordered rows with different keys are strictly sorted. -/
lemma Ordered.strict {γ : Type*} {key : α → κ} (f : α → γ) {rows order : List α}
    (h : Ordered key rows order) (hnodup : (rows.map key).Nodup) :
    (order.map fun a => (key a,f a)).Pairwise fun a b => a.1 < b.1 := by
  have hdistinct : (order.map key).Nodup := (h.1.map key).nodup_iff.mpr hnodup
  rw [List.pairwise_map]
  exact ((List.pairwise_map.mp hdistinct).and h.2).imp fun hab => lt_of_le_of_ne hab.2 hab.1

/-- Rows that their keys tell apart come in one order, whatever else is shown of them. -/
lemma Ordered.map_eq {α' γ : Type*} {key : α → κ} {key' : α' → κ} {f : α → γ} {f' : α' → γ}
    {rows order : List α} {rows' order' : List α'} (h : Ordered key rows order)
    (h' : Ordered key' rows' order')
    (hsame : (rows.map fun a => (key a,f a)).Perm (rows'.map fun a => (key' a,f' a)))
    (hnodup : (rows.map key).Nodup) : order.map f=order'.map f' := by
  have hnodup' : (rows'.map key').Nodup := by
    have hkeys := hsame.map Prod.fst
    simp only [List.map_map] at hkeys
    exact hkeys.nodup_iff.mp hnodup
  have hfirst := sortBy_eq_of_perm (h.1.map fun a => (key a,f a)) (h.strict f hnodup)
  have hsecond := sortBy_eq_of_perm ((h'.1.map fun a => (key' a,f' a)).trans hsame.symm)
    (h'.strict f' hnodup')
  have heq := congrArg (List.map Prod.snd) (hfirst.symm.trans hsecond)
  rw [List.map_map,List.map_map] at heq
  exact heq

section Classes
variable {key : α → κ}

/-- An ordered list shows the smaller keys first, then the equal ones, then the greater ones. -/
lemma eq_classes {order : List α} (h : order.Pairwise fun a b => key a ≤ key b) (k : κ) :
    order=order.filter (fun a => key a < k) ++
      (order.filter (fun a => key a=k) ++ order.filter fun a => k < key a) := by
  induction order with
  | nil => rfl
  | cons a order ih =>
    obtain ⟨hle,h⟩ := List.pairwise_cons.mp h
    have ih := ih h
    rcases lt_trichotomy (key a) k with hk | hk | hk
    · simp only [List.filter_cons,decide_eq_true hk,hk.ne,hk.not_gt,decide_false,if_true,
        Bool.false_eq_true,if_false,List.cons_append]
      rw [← ih]
    · have hnone : order.filter (fun b => key b < k)=[] := by
        rw [List.filter_eq_nil_iff]
        intro b hb
        simpa [← hk] using hle b hb
      rw [hnone,List.nil_append] at ih
      simp only [List.filter_cons,hk,lt_irrefl,decide_false,decide_true,if_true,Bool.false_eq_true,
        if_false,hnone,List.nil_append,List.cons_append]
      rw [← ih]
    · have hnone : ∀ b ∈ order, k < key b := fun b hb => hk.trans_le (hle b hb)
      have hlt : order.filter (fun b => key b < k)=[] := by
        rw [List.filter_eq_nil_iff]
        intro b hb
        simpa using (hnone b hb).le
      have heq : order.filter (fun b => key b=k)=[] := by
        rw [List.filter_eq_nil_iff]
        intro b hb
        simpa using (hnone b hb).ne'
      rw [hlt,heq,List.nil_append,List.nil_append] at ih
      simp only [List.filter_cons,decide_eq_true hk,hk.ne',hk.not_gt,decide_false,if_true,
        Bool.false_eq_true,if_false,hlt,heq,List.nil_append]
      rw [← ih]

/-- The three classes together are in order, whatever the order of the middle one. -/
lemma pairwise_classes {smaller same greater : List α} {k : κ}
    (hsmaller : smaller.Pairwise fun a b => key a ≤ key b) (hlt : ∀ a ∈ smaller, key a < k)
    (hsame : ∀ a ∈ same, key a=k) (hgreater : greater.Pairwise fun a b => key a ≤ key b)
    (hgt : ∀ a ∈ greater, k < key a) :
    (smaller ++ (same ++ greater)).Pairwise fun a b => key a ≤ key b := by
  rw [List.pairwise_append,List.pairwise_append]
  refine ⟨hsmaller,⟨?_,hgreater,?_⟩,?_⟩
  · apply List.pairwise_of_forall_mem_list
    intro a ha b hb
    exact ((hsame a ha).trans (hsame b hb).symm).le
  · intro a ha b hb
    exact (hsame a ha).le.trans (hgt b hb).le
  · intro a ha b hb
    apply (hlt a ha).le.trans
    rcases List.mem_append.mp hb with hb | hb
    · exact (hsame b hb).ge
    · exact (hgt b hb).le

lemma countP_le_eq (rows : List α) (k : κ) : rows.countP (fun a => key a ≤ k)=
    rows.countP (fun a => key a < k)+rows.countP fun a => key a=k := by
  induction rows with
  | nil => rfl
  | cons a rows ih =>
    simp only [List.countP_cons,ih]
    rcases lt_trichotomy (key a) k with hk | hk | hk
    · simp [hk,hk.le,hk.ne]
      omega
    · simp [hk]
      omega
    · simp [hk.not_ge,hk.not_gt,hk.ne']

/-- Keys that tell the rows apart leave nothing to the database. -/
lemma not_splitsAt_of_nodup {rows : List α} (h : (rows.map key).Nodup) (m : ℕ) (k : κ) :
    ¬ SplitsAt key rows m k := by
  have hone : rows.countP (fun a => key a=k) ≤ 1 := by
    have hcount := List.nodup_iff_count_le_one.mp h k
    rw [List.count,List.countP_map] at hcount
    exact hcount
  rw [SplitsAt,countP_le_eq]
  omega

lemma splitsAt_of_forall_eq {rows : List α} {k : κ} {m : ℕ} (h : ∀ a ∈ rows, key a=k) (hpos : 0 < m)
    (hlt : m < rows.length) : SplitsAt key rows m k := by
  have hbelow : rows.countP (fun a => key a < k)=0 := by
    rw [List.countP_eq_zero]
    intro a ha
    simp [h a ha]
  have hall : rows.countP (fun a => key a ≤ k)=rows.length := by
    rw [List.countP_eq_length]
    intro a ha
    simp [h a ha]
  exact ⟨hbelow ▸ hpos,hall ▸ hlt⟩

end Classes

section Prefixes
variable {key : α → κ} {rows order order' : List α} [AddCommMonoid M] {w : α → M} {m : ℕ}

lemma sum_take_eq {same same' : List α} {j : ℕ} (h : same.Perm same') (hj : j ≤ same.length)
    (hw : j ≠ 0 → j < same.length → ∀ a ∈ same, ∀ b ∈ same, w a=w b) :
    ((same.take j).map w).sum=((same'.take j).map w).sum := by
  by_cases hzero : j=0
  · rw [hzero,List.take_zero,List.take_zero]
  · rcases hj.eq_or_lt with rfl | hlt
    · rw [List.take_length,List.take_of_length_le h.length_eq.ge]
      exact (h.map w).sum_eq
    · obtain ⟨a,ha⟩ : ∃ a, a ∈ same := List.exists_mem_of_length_pos (by omega)
      have hall : ∀ (l : List α), (∀ b ∈ l, b ∈ same) → (l.map w).sum=l.length • w a := by
        intro l hl
        rw [List.sum_eq_card_nsmul (l.map w) (w a),List.length_map]
        intro x hx
        obtain ⟨b,hb,rfl⟩ := List.mem_map.mp hx
        exact hw hzero hlt b (hl b hb) a ha
      rw [hall _ fun b hb => List.mem_of_mem_take hb,
        hall _ fun b hb => h.mem_iff.mpr (List.mem_of_mem_take hb),List.length_take,
        List.length_take,h.length_eq]

/-- A row stands behind the smaller keys and among the equal ones. -/
lemma class_of_getElem? (h : order.Pairwise fun a b => key a ≤ key b) {x : α}
    (hx : order[m]?=some x) : (order.filter fun a => key a < key x).length ≤ m ∧
      m-(order.filter fun a => key a < key x).length < (order.filter fun a => key a=key x).length := by
  have hclasses := eq_classes h (key x)
  have hfirst : (order.filter fun a => key a < key x).length ≤ m := by
    by_contra hlt
    rw [hclasses,List.getElem?_append_left (by omega)] at hx
    have hmem := List.mem_of_getElem? hx
    simp at hmem
  refine ⟨hfirst,?_⟩
  by_contra hge
  rw [hclasses,List.getElem?_append_right hfirst,List.getElem?_append_right (by omega)] at hx
  have hmem := List.mem_of_getElem? hx
  simp at hmem

lemma sum_take_classes {smaller same greater : List α} (hle : smaller.length ≤ m)
    (hle' : m-smaller.length ≤ same.length) :
    (((smaller ++ (same ++ greater)).take m).map w).sum=
      (smaller.map w).sum+((same.take (m-smaller.length)).map w).sum := by
  rw [List.take_append,List.take_of_length_le hle,List.take_append_of_le_length hle',
    List.map_append,List.sum_append]

/-- Two orders weigh the same up to a position that splits no class with different weights. -/
lemma sum_take_ordered (h : Ordered key rows order) (h' : Ordered key rows order')
    (hw : ∀ k, SplitsAt key rows m k → ∀ a ∈ rows, ∀ b ∈ rows, key a=k → key b=k → w a=w b) :
    ((order.take m).map w).sum=((order'.take m).map w).sum := by
  have hperm := h.1.trans h'.1.symm
  cases hx : order[m]? with
  | none =>
    have hlength := hperm.length_eq
    have hm := List.getElem?_eq_none_iff.mp hx
    rw [List.take_of_length_le hm,List.take_of_length_le (hlength ▸ hm)]
    exact (hperm.map w).sum_eq
  | some x =>
    obtain ⟨hfirst,hlast⟩ := class_of_getElem? h.2 hx
    have hsmaller := hperm.filter fun a => key a < key x
    have hsame := hperm.filter fun a => key a=key x
    have hfirst' := hsmaller.length_eq ▸ hfirst
    have hlast' := hsmaller.length_eq ▸ hsame.length_eq ▸ hlast.le
    rw [eq_classes h.2 (key x),eq_classes h'.2 (key x),sum_take_classes hfirst hlast.le,
      sum_take_classes hfirst' hlast',(hsmaller.map w).sum_eq,← hsmaller.length_eq]
    congr 1
    apply sum_take_eq hsame hlast.le
    intro hzero _ a ha b hb
    have hsplits : SplitsAt key rows m (key x) := by
      rw [SplitsAt,countP_le_eq,← h.1.countP_eq,← h.1.countP_eq,List.countP_eq_length_filter,
        List.countP_eq_length_filter]
      omega
    obtain ⟨ha,hka⟩ := List.mem_filter.mp ha
    obtain ⟨hb,hkb⟩ := List.mem_filter.mp hb
    exact hw _ hsplits a (h.1.mem_iff.mp ha) b (h.1.mem_iff.mp hb) (of_decide_eq_true hka)
      (of_decide_eq_true hkb)

end Prefixes

section Pages
variable {key : α → κ} {rows : List α} {size : ℕ} {orders : ℕ → List α}

lemma firstPages_succ (size : ℕ) (orders : ℕ → List α) (n : ℕ) : firstPages size orders (n+1)=
    firstPages size orders n ++ ((orders (n+1)).drop (n*size)).take size := by
  rw [firstPages,List.range_succ,List.flatMap_append,List.flatMap_singleton]
  rfl

/-- The pages are enough for all rows. -/
lemma le_pageCount (hsize : 0 < size) (total : ℕ) : total ≤ pageCount size total*size := by
  have hdiv := Nat.div_add_mod (total+size-1) size
  have hmod := Nat.mod_lt (total+size-1) hsize
  rw [pageCount,mul_comm]
  omega

/-- Pages weigh what the rows on them weigh in any one order. -/
lemma sum_firstPages [AddCommMonoid M] {w : α → M} (h : ∀ page, Ordered key rows (orders page))
    (hw : ∀ n k, SplitsAt key rows (n*size) k →
      ∀ a ∈ rows, ∀ b ∈ rows, key a=k → key b=k → w a=w b) (n : ℕ) {order : List α}
    (horder : Ordered key rows order) :
    ((firstPages size orders n).map w).sum=((order.take (n*size)).map w).sum := by
  induction n generalizing order with
  | zero => simp [firstPages]
  | succ n ih =>
    have htake : (orders (n+1)).take ((n+1)*size)=
        (orders (n+1)).take (n*size) ++ ((orders (n+1)).drop (n*size)).take size := by
      rw [Nat.succ_mul,List.take_add]
    rw [firstPages_succ,List.map_append,List.sum_append,ih (h (n+1)),← List.sum_append,
      ← List.map_append,← htake]
    exact sum_take_ordered (h (n+1)) horder (hw (n+1))

/-- All pages together, as one sum. -/
lemma sum_firstPages_eq [AddCommMonoid M] (w : α → M) (n : ℕ) :
    ((firstPages size orders n).map w).sum=
      ∑ i ∈ Finset.range n, ((pageOf size (i+1) (orders (i+1))).map w).sum := by
  induction n with
  | zero => simp [firstPages]
  | succ n ih =>
    rw [firstPages_succ,List.map_append,List.sum_append,ih,Finset.sum_range_succ]
    rfl

/-- What is listed is on one of the pages. -/
lemma exists_page_iff (hsize : 0 < size) {order : List α} {a : α} :
    (∃ page, 1 ≤ page ∧ a ∈ pageOf size page order) ↔ a ∈ order := by
  constructor
  · intro ⟨page,_,ha⟩
    exact List.mem_of_mem_drop (List.mem_of_mem_take ha)
  · intro ha
    obtain ⟨i,hi,rfl⟩ := List.mem_iff_getElem.mp ha
    refine ⟨i/size+1,Nat.succ_pos _,List.mem_iff_getElem?.mpr ⟨i%size,?_⟩⟩
    have hlt : i%size < size := Nat.mod_lt i hsize
    have hdiv : i/size*size+i%size=i := Nat.div_add_mod' i size
    rw [pageOf,Nat.add_sub_cancel,List.getElem?_take_of_lt hlt,List.getElem?_drop,hdiv,
      List.getElem?_eq_getElem hi]

/-- The last row of a page, when the rows before it are known. -/
lemma pageOf_last {before after : List α} {a : α} {n : ℕ} (hsize : 0 < size)
    (hlength : before.length+1=(n+1)*size) :
    pageOf size (n+1) (before ++ a::after)=before.drop (n*size) ++ [a] := by
  rw [Nat.succ_mul] at hlength
  have hdrop : n*size ≤ before.length := by omega
  have htail : (before.drop (n*size)).length+1=size := by
    rw [List.length_drop]
    omega
  have hone : size-(before.drop (n*size)).length=1 := by omega
  rw [pageOf,Nat.add_sub_cancel,List.drop_append_of_le_length hdrop,List.take_append,
    List.take_of_length_le (by omega),hone]
  rfl

/-- Two equal keys at a page boundary, with either of them before it. -/
lemma exists_orders_of_splitsAt {m : ℕ} {k : κ} {a b : α} (h : SplitsAt key rows m k)
    (ha : a ∈ rows) (hb : b ∈ rows) (hka : key a=k) (hkb : key b=k) (hab : a ≠ b) :
    ∃ before after, before.length+1=m ∧ Ordered key rows (before ++ a::b::after) ∧
      Ordered key rows (before ++ b::a::after) := by
  classical
  obtain ⟨hperm,hsorted⟩ := ordered_sortBy key rows
  generalize sortBy key rows=order at hperm hsorted
  let smaller := order.filter fun c => key c < k
  let same := order.filter fun c => key c=k
  let greater := order.filter fun c => k < key c
  have hclasses : order=smaller ++ (same ++ greater) := eq_classes hsorted k
  have hmem : ∀ c ∈ rows, key c=k → c ∈ same := fun c hc hkc =>
    List.mem_filter.mpr ⟨hperm.mem_iff.mpr hc,decide_eq_true hkc⟩
  obtain ⟨rest,hrest⟩ : ∃ rest, same.Perm (a::b::rest) := by
    have hb' : b ∈ same.erase a := (List.mem_erase_of_ne hab.symm).mpr (hmem b hb hkb)
    exact ⟨_,(List.perm_cons_erase (hmem a ha hka)).trans ((List.perm_cons_erase hb').cons a)⟩
  have hsmaller : rows.countP (fun c => key c < k)=smaller.length := by
    rw [← hperm.countP_eq,List.countP_eq_length_filter]
  have hsame : rows.countP (fun c => key c=k)=rest.length+2 := by
    rw [← hperm.countP_eq,List.countP_eq_length_filter]
    exact hrest.length_eq
  rw [SplitsAt,countP_le_eq,hsmaller,hsame] at h
  let j := m-1-smaller.length
  have hordered : ∀ pair : List α, pair.Perm [a,b] →
      Ordered key rows (smaller ++ rest.take j ++ (pair ++ (rest.drop j ++ greater))) := by
    intro pair hpair
    have hmiddle : (rest.take j ++ (pair ++ rest.drop j)).Perm same := by
      refine .trans ?_ hrest.symm
      refine (List.perm_append_comm_assoc _ _ _).trans ?_
      rw [List.take_append_drop]
      exact hpair.append_right rest
    have heq : smaller ++ rest.take j ++ (pair ++ (rest.drop j ++ greater))=
        smaller ++ ((rest.take j ++ (pair ++ rest.drop j)) ++ greater) := by
      simp only [List.append_assoc]
    rw [heq]
    constructor
    · refine .trans ?_ hperm
      rw [hclasses]
      exact (hmiddle.append_right greater).append_left smaller
    · apply pairwise_classes (k := k)
      · exact hsorted.filter _
      · intro c hc
        exact of_decide_eq_true (List.mem_filter.mp hc).2
      · intro c hc
        exact of_decide_eq_true (List.mem_filter.mp (hmiddle.mem_iff.mp hc)).2
      · exact hsorted.filter _
      · intro c hc
        exact of_decide_eq_true (List.mem_filter.mp hc).2
  refine ⟨smaller ++ rest.take j,rest.drop j ++ greater,?_,hordered [a,b] (.refl _),
    hordered [b,a] (.swap a b [])⟩
  rw [List.length_append,List.length_take]
  omega

variable (key rows) in
/-- The pages weigh what the rows weigh, whatever the database picks, exactly when no page boundary
splits a class of rows with different weights. -/
theorem sum_pages_iff [AddCancelCommMonoid M] (w : α → M) (hsize : 0 < size) :
    (∀ orders : ℕ → List α, (∀ page, Ordered key rows (orders page)) →
      ((firstPages size orders (pageCount size rows.length)).map w).sum=(rows.map w).sum) ↔
    ∀ n k, SplitsAt key rows (n*size) k →
      ∀ a ∈ rows, ∀ b ∈ rows, key a=k → key b=k → w a=w b := by
  constructor
  · intro h n k hsplits a ha b hb hka hkb
    by_contra hne
    obtain ⟨before,after,hlength,hfirst,hsecond⟩ :=
      exists_orders_of_splitsAt hsplits ha hb hka hkb fun heq => hne (congrArg w heq)
    obtain ⟨n,rfl⟩ : ∃ i, n=i+1 := by
      cases n with
      | zero => rw [Nat.zero_mul] at hlength; omega
      | succ n => exact ⟨n,rfl⟩
    -- the second choice differs from the first on the page before the boundary only
    let order := before ++ a::b::after
    let order' := before ++ b::a::after
    have hsame := (h (fun _ => order) fun _ => hfirst).trans
      (h (fun page => if page=n+1 then order' else order) fun page => by
        split_ifs
        · exact hsecond
        · exact hfirst).symm
    have hmem : n ∈ Finset.range (pageCount size rows.length) := by
      have hcount := le_pageCount hsize rows.length
      have hrows := hfirst.1.length_eq
      rw [List.length_append,List.length_cons,List.length_cons] at hrows
      rw [Finset.mem_range]
      by_contra hge
      have hmul := Nat.mul_le_mul_right size (not_lt.mp hge)
      rw [Nat.succ_mul] at hlength
      omega
    rw [sum_firstPages_eq,sum_firstPages_eq,← Finset.add_sum_erase _ _ hmem,
      ← Finset.add_sum_erase _ _ hmem] at hsame
    have hothers : ∀ i ∈ (Finset.range (pageCount size rows.length)).erase n,
        ((pageOf size (i+1) (if i+1=n+1 then order' else order)).map w).sum=
          ((pageOf size (i+1) order).map w).sum := by
      intro i hi
      have hi : i+1 ≠ n+1 := fun heq => Finset.ne_of_mem_erase hi (Nat.succ.inj heq)
      rw [if_neg hi]
    rw [Finset.sum_congr rfl hothers,if_pos rfl,pageOf_last hsize hlength,
      pageOf_last hsize hlength,List.map_append,List.map_append,List.sum_append,
      List.sum_append] at hsame
    exact hne (by simpa using hsame)
  · intro hw orders h
    rw [sum_firstPages h hw _ (ordered_sortBy key rows),
      List.take_of_length_le ((sortBy_perm key rows).length_eq ▸ le_pageCount hsize _)]
    exact ((sortBy_perm key rows).map w).sum_eq

/-- Every row on exactly one page, whatever the database picks: exactly when no page boundary falls
between rows with equal keys. The rows are shown through `f`, which tells them apart. -/
theorem pages_perm_iff {β : Type*} {f : α → β} (hsize : 0 < size) (hnodup : rows.Nodup)
    (hf : ∀ a ∈ rows, ∀ b ∈ rows, f a=f b → a=b) :
    (∀ orders : ℕ → List α, (∀ page, Ordered key rows (orders page)) →
      ((firstPages size orders (pageCount size rows.length)).map f).Perm (rows.map f)) ↔
    ∀ n k, ¬ SplitsAt key rows (n*size) k := by
  have hcoe : ∀ l : List α, (l.map fun a => ({f a} : Multiset β)).sum=(l.map f : List β) := by
    intro l
    induction l with
    | nil => rfl
    | cons a l ih =>
      rw [List.map_cons,List.sum_cons,ih]
      rfl
  have hsum := sum_pages_iff key rows (fun a => ({f a} : Multiset β)) hsize
  simp only [hcoe,Multiset.coe_eq_coe,Multiset.singleton_inj] at hsum
  rw [hsum]
  constructor
  · intro h n k hsplits
    have hclass : 2 ≤ (rows.filter fun a => key a=k).length := by
      have hcount := hsplits
      rw [SplitsAt,countP_le_eq,List.countP_eq_length_filter (p := fun a => key a=k)] at hcount
      omega
    obtain ⟨a,b,rest,hrest⟩ : ∃ a b rest, (rows.filter fun a => key a=k)=a::b::rest := by
      match hl : rows.filter fun a => key a=k with
      | [] => rw [hl] at hclass; contradiction
      | [_] => rw [hl] at hclass; contradiction
      | a::b::rest => exact ⟨a,b,rest,rfl⟩
    have hin : ∀ c ∈ [a,b], c ∈ rows ∧ key c=k := by
      intro c hc
      have hc' : c ∈ rows.filter fun a => key a=k := by
        rw [hrest]
        simp only [List.mem_cons,List.not_mem_nil,or_false] at hc ⊢
        tauto
      exact ⟨(List.mem_filter.mp hc').1,of_decide_eq_true (List.mem_filter.mp hc').2⟩
    obtain ⟨ha,hka⟩ := hin a (by simp)
    obtain ⟨hb,hkb⟩ := hin b (by simp)
    have hdistinct := hnodup.filter fun a => key a=k
    rw [hrest,hf a ha b hb (h n k hsplits a ha b hb hka hkb)] at hdistinct
    simp at hdistinct
  · intro h n k hsplits
    exact absurd hsplits (h n k)

end Pages

/-- How the database answers `ORDER BY` in one query; rows with equal keys come as it likes. -/
structure OrderBy (key : α → κ) where
  pick : List α → List α
  ordered : ∀ rows, Ordered key rows (pick rows)

namespace OrderBy
variable {key : α → κ} {rows : List α} {size : ℕ}

/-- The order that keeps equal rows as they are stored. -/
def stable (key : α → κ) : OrderBy key := ⟨sortBy key,ordered_sortBy key⟩

/-- One page and the total number of rows. -/
def page (o : OrderBy key) (size page : ℕ) (rows : List α) : List α × ℕ :=
  (pageOf size page (o.pick rows),rows.length)

lemma pick_perm (o : OrderBy key) (rows : List α) : (o.pick rows).Perm rows := (o.ordered rows).1

lemma page_nil (o : OrderBy key) (size page : ℕ) : o.page size page []=([],0) := by
  have hnil : o.pick []=[] := List.perm_nil.mp (o.pick_perm [])
  simp [OrderBy.page,pageOf,hnil]

/-- An order of some given rows, extended to all queries. -/
def ofOrder [DecidableEq α] (order : List α) (h : Ordered key rows order) : OrderBy key where
  pick rows' := if rows'=rows then order else sortBy key rows'
  ordered rows' := by
    split_ifs with heq
    · rw [heq]
      exact h
    · exact ordered_sortBy key rows'

lemma ofOrder_pick [DecidableEq α] {order : List α} (h : Ordered key rows order) :
    (ofOrder order h).pick rows=order := if_pos rfl

end OrderBy

/-- All pages of a listing, each asked for by a query of its own. -/
def allPages {β ω : Type*} (get : ω → ℕ → List β × ℕ) (size : ℕ) (orders : ℕ → ω) : List β :=
  (List.range (pageCount size (get (orders 1) 1).2)).flatMap fun i => (get (orders (i+1)) (i+1)).1

/-- The pages of a listing show every entry once, however each query orders equal rows. -/
def Covers {β : Type*} (key : α → κ) (get : OrderBy key → ℕ → List β × ℕ) (size : ℕ)
    (entries : List β) : Prop :=
  ∀ orders : ℕ → OrderBy key, (allPages get size orders).Perm entries

section Covers
variable {β : Type*} {key : α → κ} {rows : List α} {size : ℕ} {f : α → β}
  {get : OrderBy key → ℕ → List β × ℕ}

lemma allPages_eq (hget : ∀ o page, get o page=((pageOf size page (o.pick rows)).map f,rows.length))
    (orders : ℕ → OrderBy key) : allPages get size orders=
      (firstPages size (fun page => (orders page).pick rows) (pageCount size rows.length)).map f := by
  simp only [allPages,hget,firstPages,List.map_flatMap]

/-- A listing covers its rows exactly when no page boundary falls between rows with equal keys. -/
theorem covers_iff [DecidableEq α] (hsize : 0 < size) (hnodup : rows.Nodup)
    (hf : ∀ a ∈ rows, ∀ b ∈ rows, f a=f b → a=b)
    (hget : ∀ o page, get o page=((pageOf size page (o.pick rows)).map f,rows.length)) :
    Covers key get size (rows.map f) ↔ ∀ n k, ¬ SplitsAt key rows (n*size) k := by
  rw [← pages_perm_iff hsize hnodup hf]
  constructor
  · intro h orders horders
    have hall := h fun page => .ofOrder (orders page) (horders page)
    rw [allPages_eq hget] at hall
    simpa only [OrderBy.ofOrder_pick] using hall
  · intro h orders
    rw [allPages_eq hget]
    exact h _ fun page => (orders page).ordered rows

/-- The entries of all pages weigh what the rows weigh exactly when no page boundary splits a class of
rows with different weights. -/
theorem sum_allPages_iff [DecidableEq α] [AddCancelCommMonoid M] (w : β → M) (hsize : 0 < size)
    (hget : ∀ o page, get o page=((pageOf size page (o.pick rows)).map f,rows.length)) :
    (∀ orders : ℕ → OrderBy key,
      ((allPages get size orders).map w).sum=((rows.map f).map w).sum) ↔
    ∀ n k, SplitsAt key rows (n*size) k →
      ∀ a ∈ rows, ∀ b ∈ rows, key a=k → key b=k → w (f a)=w (f b) := by
  have hiff := sum_pages_iff key rows (fun a => w (f a)) hsize
  rw [← hiff]
  constructor
  · intro h orders horders
    have hall := h fun page => .ofOrder (orders page) (horders page)
    rw [allPages_eq hget,List.map_map,List.map_map] at hall
    simp only [OrderBy.ofOrder_pick] at hall
    exact hall
  · intro h orders
    rw [allPages_eq hget,List.map_map,List.map_map]
    exact h _ fun page => (orders page).ordered rows

end Covers
end VbApi.Foundations
