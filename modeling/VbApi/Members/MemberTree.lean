import VbApi.Foundations.Generations
import VbApi.Foundations.RoseTrees
import VbApi.Members.FamilyTree

/-! The tree of a member's detail page: the descendants, generation by generation, and the line of
ancestors. The parents may lead anywhere, also in a circle. -/
namespace VbApi.Members
open VbApi.Foundations Parents
open VbApi.Standesdb (Uuid)

/-- A node without its children. -/
structure TreeNodeResponse where
  id : Uuid
  cn : PyText
  gruender : Bool
  orgId : Option PyText
  stateId : Option PyText
  entlassen : Bool
  verstorben : Bool
  deriving DecidableEq

/-- A member under its id. -/
abbrev Row := Uuid × Member

def treeNode (row : Row) : TreeNodeResponse where
  id := row.1
  cn := row.2.cn
  gruender := row.2.columns.flag .gruender
  orgId := row.2.columns.text .orgId
  stateId := row.2.columns.text .stateId
  entlassen := row.2.columns.flag .entlassen
  verstorben := row.2.columns.flag .verstorben

def maxTreeDepth : ℕ := 100

/-! ### The descendants -/

abbrev ByParent := Dict Uuid (List Row)

structure Walk where
  byParent : ByParent
  seen : List Uuid
  generation : List Uuid

variable (db : Database)

/-- `Member.parent_id.in_(generation)`, ordered by id. -/
def childrenOf (generation : List Uuid) : List Row :=
  sortBy (·.1) (db.members.entries.filter fun row => row.2.columns.parentId.any (· ∈ generation))

def takeChild (w : Walk) (child : Row) : Walk :=
  match child.2.columns.parentId with
  | none => w
  | some parentId =>
    if child.1 ∈ w.seen then w
    else {
      byParent := w.byParent.set parentId (w.byParent.getD parentId [] ++ [child])
      seen := child.1::w.seen
      generation := w.generation ++ [child.1] }

def nextGeneration (w : Walk) : Walk :=
  (childrenOf db w.generation).foldl takeChild {w with generation := []}

def walkDown : ℕ → Walk → Walk
  | 0,w => w
  | n+1,w => if w.generation=[] then w else walkDown n (nextGeneration db w)

def descendantsByParent (rootId : Uuid) : ByParent :=
  (walkDown db maxTreeDepth ⟨.empty,[rootId],[rootId]⟩).byParent

/-- `_build_tree_node` with so many nested calls at most. -/
def buildTreeNode (byParent : ByParent) (calls : ℕ) (member : Row) : Option (Rose TreeNodeResponse) :=
  Rose.unfold (fun row => byParent.getD row.1 []) treeNode calls member

/-! ### The ancestors -/

/-- The loop over `current`; the first argument is how many more may be taken. -/
def climbAncestry : ℕ → List Uuid → Option Row → List TreeNodeResponse
  | 0,_,_ => []
  | _+1,_,none => []
  | n+1,seen,some current =>
    if current.1 ∈ seen then []
    else treeNode current::climbAncestry n (current.1::seen)
      (current.2.columns.parentId.bind fun parentId => (db.members.get? parentId).map (parentId,·))

structure MemberTree where
  children : List (Rose TreeNodeResponse)
  ancestry : List TreeNodeResponse

/-- The tree of `get_member_detail`. -/
def memberTree (calls : ℕ) (member : Row) : Option MemberTree := do
  let byParent := descendantsByParent db member.1
  let children ← (byParent.getD member.1 []).mapM (buildTreeNode byParent calls)
  return ⟨children,(climbAncestry db maxTreeDepth [] (some member)).reverse⟩

/-- What the tree of a member shows. -/
structure ShowsFamily (tree : MemberTree) (member : Row) : Prop where
  once : ((Rose.valuesOf tree.children).map (·.id)).Nodup
  notItself : member.1 ∉ (Rose.valuesOf tree.children).map (·.id)
  data : ∀ node ∈ Rose.valuesOf tree.children, ∃ m, db.members.get? node.id=some m ∧
    node=treeNode (node.id,m)
  /-- Each node stands below its parent. -/
  placed : ∀ link ∈ (Rose.node (treeNode member) tree.children).links,
    (parents db).Child link.2.id link.1.id
  /-- Without circles and down to the limit, the descendants are complete. -/
  complete : (∀ id, ¬ Relation.TransGen (parents db).Child id id) →
    (∀ n id, (parents db).Up member.1 n id → n ≤ maxTreeDepth) →
    ∀ id, id ∈ (Rose.valuesOf tree.children).map (·.id) ↔
      Relation.TransGen (parents db).Child id member.1
  ancestryOnce : (tree.ancestry.map (·.id)).Nodup
  ancestryLength : tree.ancestry.length ≤ maxTreeDepth
  ancestryStart : tree.ancestry.getLast?=some (treeNode member)
  ancestryChain : tree.ancestry.IsChain fun upper lower => (parents db).Child lower.id upper.id
  /-- It goes on up to the limit, unless there is no parent or it comes back. -/
  ancestryTop : tree.ancestry.length < maxTreeDepth → ∀ top, tree.ancestry.head?=some top →
    ∀ p, (parents db).Child top.id p → (db.members.get? p).isSome → p ∈ tree.ancestry.map (·.id)

/-! ### The walk down -/

section Walk
variable {db} {rootId : Uuid}

lemma child_iff {id p : Uuid} : (parents db).Child id p ↔
    ∃ m, db.members.get? id=some m ∧ m.columns.parentId=some p := by
  simp [Child,parents]

lemma mem_childrenOf {generation : List Uuid} {row : Row} :
    row ∈ childrenOf db generation ↔ db.members.get? row.1=some row.2 ∧
      ∃ p ∈ generation, row.2.columns.parentId=some p := by
  rw [childrenOf,mem_sortBy,List.mem_filter,Dict.get?_eq_some_iff,Option.any_eq_true]
  simp [and_comm]

lemma nodup_childrenOf (generation : List Uuid) : ((childrenOf db generation).map Prod.fst).Nodup :=
  ((sortBy_perm _ _).map _).nodup_iff.mpr ((List.filter_sublist.map _).nodup db.members.nodup)

/-- Whether a child is taken: it has this parent and was not met before. -/
def isNewChild (w : Walk) (p : Uuid) (c : Row) : Bool :=
  c.2.columns.parentId=some p && c.1 ∉ w.seen

lemma takeChild_spec {c : Row} (hparent : c.2.columns.parentId ≠ none) (w : Walk) :
    (∀ id, id ∈ (takeChild w c).seen ↔ id ∈ w.seen ∨ id=c.1) ∧
    (∀ id, id ∈ (takeChild w c).generation ↔ id ∈ w.generation ∨ id ∉ w.seen ∧ id=c.1) ∧
    ∀ p, (takeChild w c).byParent.getD p []=w.byParent.getD p [] ++ [c].filter (isNewChild w p) := by
  obtain ⟨q,hq⟩ := Option.ne_none_iff_exists'.mp hparent
  by_cases hold : c.1 ∈ w.seen
  · have htake : takeChild w c=w := by
      rw [takeChild,hq]
      exact if_pos hold
    rw [htake]
    refine ⟨fun id => (or_iff_left_of_imp ?_).symm,fun id => (or_iff_left_of_imp ?_).symm,fun p => ?_⟩
    · rintro rfl
      exact hold
    · rintro ⟨hnew,rfl⟩
      exact absurd hold hnew
    · rw [List.filter_singleton,isNewChild,decide_eq_false (not_not.mpr hold),Bool.and_false]
      exact (List.append_nil _).symm
  · have htake : takeChild w c={
        byParent := w.byParent.set q (w.byParent.getD q [] ++ [c])
        seen := c.1::w.seen
        generation := w.generation ++ [c.1] } := by
      rw [takeChild,hq]
      exact if_neg hold
    rw [htake]
    refine ⟨fun id => List.mem_cons.trans or_comm,fun id => ?_,fun p => ?_⟩
    · rw [List.mem_append,List.mem_singleton]
      refine or_congr_right ⟨?_,And.right⟩
      rintro rfl
      exact ⟨hold,rfl⟩
    · rw [Dict.getD_set,List.filter_singleton,isNewChild,hq,decide_eq_true hold,Bool.and_true]
      by_cases hp : p=q
      · simp [hp]
      · simp [hp,Ne.symm hp]

/-- What one generation of children adds to the walk. -/
lemma foldl_takeChild {cs : List Row} (hcs : (cs.map Prod.fst).Nodup)
    (hparent : ∀ c ∈ cs, c.2.columns.parentId ≠ none) (w : Walk) :
    (∀ id, id ∈ (cs.foldl takeChild w).seen ↔ id ∈ w.seen ∨ id ∈ cs.map Prod.fst) ∧
    (∀ id, id ∈ (cs.foldl takeChild w).generation ↔
      id ∈ w.generation ∨ id ∉ w.seen ∧ id ∈ cs.map Prod.fst) ∧
    ∀ p, (cs.foldl takeChild w).byParent.getD p []=
      w.byParent.getD p [] ++ cs.filter (isNewChild w p) := by
  induction cs generalizing w with
  | nil => simp
  | cons c cs ih =>
    rw [List.map_cons,List.nodup_cons] at hcs
    obtain ⟨hseen,hgeneration,hbyParent⟩ := ih hcs.2
      (fun d hd => hparent d (List.mem_cons_of_mem c hd)) (takeChild w c)
    obtain ⟨hseen',hgeneration',hbyParent'⟩ := takeChild_spec (hparent c List.mem_cons_self) w
    have hother : ∀ id ∈ cs.map Prod.fst, id ≠ c.1 := by
      rintro id hid rfl
      exact hcs.1 hid
    rw [List.foldl_cons]
    refine ⟨fun id => ?_,fun id => ?_,fun p => ?_⟩
    · rw [hseen,hseen',List.map_cons,List.mem_cons,or_assoc]
    · rw [hgeneration,hgeneration',hseen',List.map_cons,List.mem_cons]
      have := hother id
      tauto
    · have hsame : cs.filter (isNewChild (takeChild w c) p)=cs.filter (isNewChild w p) := by
        apply List.filter_congr
        intro d hd
        have hne := hother d.1 (List.mem_map_of_mem hd)
        simp only [isNewChild,hseen']
        simp [hne]
      have hcons : (c::cs).filter (isNewChild w p)=
          [c].filter (isNewChild w p) ++ cs.filter (isNewChild w p) := List.filter_append [c] cs
      rw [hbyParent,hbyParent',hsame,hcons,List.append_assoc]

/-! ### Levels -/

/-- The walk after `k` generations. -/
structure WalkInvariant (db : Database) (rootId : Uuid) (k : ℕ) (w : Walk) : Prop where
  seen : ∀ id, id ∈ w.seen ↔ ∃ i ≤ k, (parents db).Generation rootId i id
  generation : ∀ id, id ∈ w.generation ↔ (parents db).Generation rootId k id
  byParent : ∀ p c, c ∈ w.byParent.getD p [] ↔ db.members.get? c.1=some c.2 ∧
    c.2.columns.parentId=some p ∧ c.1 ≠ rootId ∧ ∃ i < k, (parents db).Generation rootId i p
  nodup : ∀ p, (w.byParent.getD p []).Nodup

variable (db rootId) in
lemma WalkInvariant.start : WalkInvariant db rootId 0 ⟨.empty,[rootId],[rootId]⟩ where
  seen id := by simp [generation_zero_iff]
  generation id := by simp [generation_zero_iff]
  byParent p c := by simp [Dict.getD]
  nodup p := List.nodup_nil

/-- A child of the last generation is met before only when it is the root. -/
lemma WalkInvariant.new_iff {k : ℕ} {w : Walk} (h : WalkInvariant db rootId k w) {id p : Uuid}
    (hchild : (parents db).Child id p) (hp : p ∈ w.generation) : id ∉ w.seen ↔ id ≠ rootId := by
  rw [h.seen]
  constructor
  · rintro hnew rfl
    exact hnew ⟨0,Nat.zero_le k,.root⟩
  · rintro hne ⟨i,hi,hgeneration⟩
    have := hgeneration.unique (.child hchild ((h.generation p).mp hp) hne)
    omega

lemma WalkInvariant.next {k : ℕ} {w : Walk} (h : WalkInvariant db rootId k w) :
    WalkInvariant db rootId (k+1) (nextGeneration db w) := by
  have hparent : ∀ c ∈ childrenOf db w.generation, c.2.columns.parentId ≠ none := by
    intro c hc
    obtain ⟨-,p,-,hp⟩ := mem_childrenOf.mp hc
    rw [hp]
    exact Option.some_ne_none p
  obtain ⟨hseen,hgeneration,hbyParent⟩ := foldl_takeChild (nodup_childrenOf w.generation) hparent
    {w with generation := []}
  have hids : ∀ id, id ∈ (childrenOf db w.generation).map Prod.fst ↔
      ∃ p ∈ w.generation, (parents db).Child id p := by
    intro id
    simp only [List.mem_map,mem_childrenOf,child_iff]
    constructor
    · rintro ⟨c,⟨hc,p,hp,hparent⟩,rfl⟩
      exact ⟨p,hp,c.2,hc,hparent⟩
    · rintro ⟨p,hp,m,hm,hparent⟩
      exact ⟨(id,m),⟨hm,p,hp,hparent⟩,rfl⟩
  have hnext : ∀ id, (parents db).Generation rootId (k+1) id ↔
      id ∉ w.seen ∧ ∃ p ∈ w.generation, (parents db).Child id p := by
    intro id
    rw [generation_succ_iff]
    constructor
    · rintro ⟨hne,p,hchild,hp⟩
      have hp' := (h.generation p).mpr hp
      exact ⟨(h.new_iff hchild hp').mpr hne,p,hp',hchild⟩
    · rintro ⟨hnew,p,hp,hchild⟩
      exact ⟨(h.new_iff hchild hp).mp hnew,p,hchild,(h.generation p).mp hp⟩
  refine ⟨fun id => ?_,fun id => ?_,fun p c => ?_,fun p => ?_⟩
  · rw [nextGeneration,hseen,hids,h.seen]
    constructor
    · rintro (⟨i,hi,hid⟩ | hchild)
      · exact ⟨i,Nat.le_succ_of_le hi,hid⟩
      · by_cases hold : id ∈ w.seen
        · obtain ⟨i,hi,hid⟩ := (h.seen id).mp hold
          exact ⟨i,Nat.le_succ_of_le hi,hid⟩
        · exact ⟨k+1,le_rfl,(hnext id).mpr ⟨hold,hchild⟩⟩
    · rintro ⟨i,hi,hid⟩
      rcases Nat.le_or_eq_of_le_succ hi with hi | rfl
      · exact Or.inl ⟨i,hi,hid⟩
      · exact Or.inr ((hnext id).mp hid).2
  · rw [nextGeneration,hgeneration,hids,hnext]
    exact or_iff_right List.not_mem_nil
  · rw [nextGeneration,hbyParent,List.mem_append,h.byParent,List.mem_filter,mem_childrenOf]
    constructor
    · rintro (⟨hc,hp,hne,i,hi,hupper⟩ | ⟨⟨hc,q,hq,hparent⟩,hnew⟩)
      · exact ⟨hc,hp,hne,i,Nat.lt_succ_of_lt hi,hupper⟩
      · simp only [isNewChild,Bool.and_eq_true,decide_eq_true_eq] at hnew
        rw [hparent,Option.some.injEq] at hnew
        obtain ⟨rfl,hnew⟩ := hnew
        exact ⟨hc,hparent,(h.new_iff (child_iff.mpr ⟨c.2,hc,hparent⟩) hq).mp hnew,k,Nat.lt_succ_self k,
          (h.generation q).mp hq⟩
    · rintro ⟨hc,hp,hne,i,hi,hupper⟩
      rcases Nat.lt_succ_iff_lt_or_eq.mp hi with hi | rfl
      · exact Or.inl ⟨hc,hp,hne,i,hi,hupper⟩
      · have hp' := (h.generation p).mpr hupper
        refine Or.inr ⟨⟨hc,p,hp',hp⟩,?_⟩
        simp only [isNewChild,Bool.and_eq_true,decide_eq_true_eq]
        exact ⟨hp,(h.new_iff (child_iff.mpr ⟨c.2,hc,hp⟩) hp').mpr hne⟩
  · rw [nextGeneration,hbyParent]
    refine (h.nodup p).append (((nodup_childrenOf w.generation).of_map _).filter _) ?_
    intro c hold hc
    obtain ⟨-,hp,hne,i,hi,hupper⟩ := (h.byParent p c).mp hold
    obtain ⟨hchild,hnew⟩ := List.mem_filter.mp hc
    simp only [isNewChild,Bool.and_eq_true,decide_eq_true_eq] at hnew
    obtain ⟨hmember,q,hq,hparent⟩ := mem_childrenOf.mp hchild
    rw [hnew.1,Option.some.injEq] at hparent
    subst hparent
    have := hupper.unique ((h.generation p).mp hq)
    omega

lemma nextGeneration_of_end {w : Walk} (hend : w.generation=[]) : nextGeneration db w=w := by
  have hnone : childrenOf db w.generation=[] := by
    apply List.eq_nil_iff_forall_not_mem.mpr
    intro c hc
    obtain ⟨-,p,hp,-⟩ := mem_childrenOf.mp hc
    rw [hend] at hp
    contradiction
  rw [nextGeneration,hnone,List.foldl_nil,← hend]

/-- The loop may as well go on when a generation is empty. -/
lemma walkDown_invariant {k : ℕ} {w : Walk} (h : WalkInvariant db rootId k w) (n : ℕ) :
    WalkInvariant db rootId (k+n) (walkDown db n w) := by
  induction n generalizing k w with
  | zero => exact h
  | succ n ih =>
    have hnext := ih h.next
    rw [Nat.add_right_comm] at hnext
    rw [walkDown]
    split_ifs with hend
    · rw [nextGeneration_of_end hend] at hnext
      cases n with
      | zero => exact hnext
      | succ n => rwa [walkDown,if_pos hend] at hnext
    · exact hnext

lemma descendants_invariant (db : Database) (rootId : Uuid) : WalkInvariant db rootId maxTreeDepth
    (walkDown db maxTreeDepth ⟨.empty,[rootId],[rootId]⟩) := by
  have h := walkDown_invariant (WalkInvariant.start db rootId) maxTreeDepth
  rwa [Nat.zero_add] at h

end Walk

/-! ### The tree -/

/-- The children that the tree shows of a row. -/
def shownChildren (rootId : Uuid) (row : Row) : List Row :=
  (descendantsByParent db rootId).getD row.1 []

/-- A row of a member in its generation. -/
def OnLevel (rootId : Uuid) (n : ℕ) (row : Row) : Prop :=
  (parents db).Generation rootId n row.1 ∧ db.members.get? row.1=some row.2 ∧ n ≤ maxTreeDepth

section Tree
variable {db} {rootId : Uuid}

lemma mem_shownChildren {row c : Row} : c ∈ shownChildren db rootId row ↔
    db.members.get? c.1=some c.2 ∧ c.2.columns.parentId=some row.1 ∧ c.1 ≠ rootId ∧
      ∃ i < maxTreeDepth, (parents db).Generation rootId i row.1 :=
  (descendants_invariant db rootId).byParent row.1 c

lemma child_of_shown {row c : Row} (hc : c ∈ shownChildren db rootId row) :
    (parents db).Child c.1 row.1 := by
  obtain ⟨hmember,hparent,-⟩ := mem_shownChildren.mp hc
  exact child_iff.mpr ⟨c.2,hmember,hparent⟩

variable (db rootId) in
lemma shownChildren_layered :
    Rose.Layered (shownChildren db rootId) (OnLevel db rootId) maxTreeDepth where
  bound n row h := h.2.2
  unique n m row h h' := h.1.unique h'.1
  down n row h c hc := by
    obtain ⟨hmember,-,hne,i,hi,hupper⟩ := mem_shownChildren.mp hc
    rw [hupper.unique h.1] at hi
    exact ⟨.child (child_of_shown hc) h.1 hne,hmember,hi⟩
  nodup row := (descendants_invariant db rootId).nodup row.1
  parent n m a b c ha hb hca hcb := by
    have hid := (child_of_shown hca).unique (child_of_shown hcb)
    have hrow := ha.2.1
    rw [hid,hb.2.1,Option.some.injEq] at hrow
    exact Prod.ext hid hrow.symm

/-- Whoever is in a generation down to the limit is shown. -/
lemma reaches_of_generation {m₀ : Member} (hroot : db.members.get? rootId=some m₀) {n : ℕ} {id : Uuid}
    (h : (parents db).Generation rootId n id) (hn : n ≤ maxTreeDepth) : ∃ m,
      db.members.get? id=some m ∧ Rose.Reaches (shownChildren db rootId) (rootId,m₀) (id,m) := by
  induction h with
  | root => exact ⟨m₀,hroot,.refl⟩
  | @child n id p hchild hupper hne ih =>
    obtain ⟨m,hm,hparent⟩ := child_iff.mp hchild
    obtain ⟨mp,-,hreach⟩ := ih (Nat.le_of_succ_le hn)
    exact ⟨m,hm,hreach.tail (mem_shownChildren.mpr ⟨hm,hparent,hne,n,hn,hupper⟩)⟩

/-- The rows that the tree of a member visits, itself first. -/
lemma visited {member : Row} (hmember : db.members.get? member.1=some member.2) :
    ((Rose.preorder (shownChildren db member.1) (maxTreeDepth+1) member).map Prod.fst).Nodup ∧
    ∀ row, row ∈ Rose.preorder (shownChildren db member.1) (maxTreeDepth+1) member ↔
      ∃ n, OnLevel db member.1 n row := by
  have hlayered := shownChildren_layered db member.1
  have hlevel : OnLevel db member.1 0 member := ⟨.root,hmember,Nat.zero_le _⟩
  have hmem : ∀ row, row ∈ Rose.preorder (shownChildren db member.1) (maxTreeDepth+1) member ↔
      ∃ n, OnLevel db member.1 n row := by
    intro row
    rw [hlayered.mem_preorder_iff hlevel (by omega)]
    constructor
    · intro hreach
      obtain ⟨n,hn⟩ := hlayered.level_of_reaches hlevel hreach
      exact ⟨0+n,hn⟩
    · rintro ⟨n,hgeneration,hrow,hn⟩
      obtain ⟨m,hm,hreach⟩ := reaches_of_generation hmember hgeneration hn
      rw [hrow,Option.some.injEq] at hm
      subst hm
      exact hreach
  refine ⟨(hlayered.nodup_preorder hlevel (by omega)).map_on ?_,hmem⟩
  intro a ha b hb hid
  obtain ⟨n,hn⟩ := (hmem a).mp ha
  obtain ⟨m,hm⟩ := (hmem b).mp hb
  have hrow := hn.2.1
  rw [hid,hm.2.1,Option.some.injEq] at hrow
  exact Prod.ext hid hrow.symm

/-- The tree is built, however many nested calls there may be beyond the limit. -/
lemma exists_children {member : Row} (hmember : db.members.get? member.1=some member.2) : ∃ ts,
    (∀ calls, maxTreeDepth ≤ calls → (shownChildren db member.1 member).mapM
      (buildTreeNode (descendantsByParent db member.1) calls)=some ts) ∧
    treeNode member::Rose.valuesOf ts=
      (Rose.preorder (shownChildren db member.1) (maxTreeDepth+1) member).map treeNode ∧
    ∀ link ∈ (Rose.node (treeNode member) ts).links, (parents db).Child link.2.id link.1.id := by
  have hlevel : OnLevel db member.1 0 member := ⟨.root,hmember,Nat.zero_le _⟩
  obtain ⟨⟨v,ts⟩,htree,hvalue,hvalues,hlinks⟩ := (shownChildren_layered db member.1).unfold treeNode
    hlevel (n := maxTreeDepth+1) (by omega)
  obtain rfl : v=treeNode member := hvalue
  refine ⟨ts,?_,hvalues,?_⟩
  · intro calls hcalls
    have h := htree (calls+1) (by omega)
    rw [Rose.unfold,Option.map_eq_some_iff] at h
    obtain ⟨ts',hts',heq⟩ := h
    rw [Rose.node.injEq] at heq
    rw [← heq.2]
    exact hts'
  · intro link hlink
    obtain ⟨b,c,rfl,hc⟩ := hlinks link hlink
    exact child_of_shown hc

/-! ### The ancestors -/

lemma climbAncestry_head? {n : ℕ} {seen : List Uuid} {current : Option Row} {x : TreeNodeResponse}
    (hx : (climbAncestry db n seen current).head?=some x) : ∃ row, current=some row ∧ x=treeNode row := by
  cases n with
  | zero => contradiction
  | succ n =>
    cases current with
    | none => contradiction
    | some row =>
      rw [climbAncestry] at hx
      split_ifs at hx
      · contradiction
      · exact ⟨row,rfl,(Option.some.inj hx).symm⟩

/-- The line of ancestors, from the bottom up. -/
structure Ascends (db : Database) (n : ℕ) (seen : List Uuid) (line : List TreeNodeResponse) : Prop where
  once : (line.map (·.id)).Nodup
  new : ∀ node ∈ line, node.id ∉ seen
  length : line.length ≤ n
  chain : line.IsChain fun lower upper => (parents db).Child lower.id upper.id
  top : line.length < n → ∀ node, line.getLast?=some node → ∀ p, (parents db).Child node.id p →
    (db.members.get? p).isSome → p ∈ seen ∨ p ∈ line.map (·.id)

lemma Ascends.nil {n : ℕ} {seen : List Uuid} : Ascends db n seen [] where
  once := List.nodup_nil
  new _ h := absurd h List.not_mem_nil
  length := Nat.zero_le n
  chain := List.isChain_nil
  top _ _ h := by contradiction

lemma Ascends.cons {n : ℕ} {seen : List Uuid} {line : List TreeNodeResponse} {row : Row}
    (h : Ascends db n (row.1::seen) line) (hseen : row.1 ∉ seen)
    (hhead : ∀ node, line.head?=some node → (parents db).Child row.1 node.id)
    (hend : line=[] → 0 < n → ∀ p, (parents db).Child row.1 p → (db.members.get? p).isSome →
      p ∈ row.1::seen) : Ascends db (n+1) seen (treeNode row::line) where
  once := by
    rw [List.map_cons,List.nodup_cons]
    refine ⟨?_,h.once⟩
    intro hmem
    obtain ⟨node,hnode,hid⟩ := List.mem_map.mp hmem
    exact h.new node hnode (hid ▸ List.mem_cons_self)
  new node hnode := by
    rcases List.mem_cons.mp hnode with rfl | hnode
    · exact hseen
    · exact fun hold => h.new node hnode (List.mem_cons_of_mem _ hold)
  length := Nat.succ_le_succ h.length
  chain := List.isChain_cons.mpr ⟨hhead,h.chain⟩
  top hshort node hnode p hp hthere := by
    have hfound : p ∈ row.1::seen ∨ p ∈ line.map (·.id) := by
      cases hline : line with
      | nil =>
        subst hline
        cases Option.some.inj hnode
        exact Or.inl (hend rfl (by simpa using hshort) p hp hthere)
      | cons y ys =>
        rw [hline,List.getLast?_cons_cons] at hnode
        rw [← hline] at hnode ⊢
        exact h.top (Nat.lt_of_succ_lt_succ hshort) node hnode p hp hthere
    rcases hfound with hfound | hfound
    · rcases List.mem_cons.mp hfound with rfl | hold
      · exact Or.inr List.mem_cons_self
      · exact Or.inl hold
    · exact Or.inr (List.mem_cons_of_mem _ hfound)

lemma climbAncestry_ascends (n : ℕ) (seen : List Uuid) (current : Option Row)
    (hcurrent : ∀ row, current=some row → db.members.get? row.1=some row.2) :
    Ascends db n seen (climbAncestry db n seen current) := by
  induction n generalizing seen current with
  | zero => exact .nil
  | succ n ih =>
    cases current with
    | none => exact .nil
    | some row =>
      rw [climbAncestry]
      split_ifs with hseen
      · exact .nil
      · have hrow := hcurrent row rfl
        have hup : ∀ upper, (row.2.columns.parentId.bind fun parentId =>
            (db.members.get? parentId).map (parentId,·))=some upper ↔
            (parents db).Child row.1 upper.1 ∧ db.members.get? upper.1=some upper.2 := by
          intro upper
          simp only [Option.bind_eq_some_iff,Option.map_eq_some_iff,child_iff,hrow,Option.some.injEq,
            exists_eq_left']
          constructor
          · rintro ⟨p,hp,m,hm,rfl⟩
            exact ⟨hp,hm⟩
          · rintro ⟨hp,hm⟩
            exact ⟨upper.1,hp,upper.2,hm,rfl⟩
        have h := ih (row.1::seen) _ fun upper hupper => ((hup upper).mp hupper).2
        refine h.cons hseen ?_ ?_
        · intro node hnode
          obtain ⟨upper,hupper,rfl⟩ := climbAncestry_head? hnode
          exact ((hup upper).mp hupper).1
        · intro hline hn p hp hthere
          obtain ⟨m,hm⟩ := Option.isSome_iff_exists.mp hthere
          rw [(hup (p,m)).mpr ⟨hp,hm⟩] at hline
          obtain ⟨n,rfl⟩ : ∃ k, n=k+1 := ⟨n-1,by omega⟩
          rw [climbAncestry] at hline
          by_contra hnew
          rw [if_neg hnew] at hline
          contradiction

end Tree

/-- Whatever the parents of the members are, the tree of a member is built, with no more than so many
nested calls, and shows the family. -/
theorem memberTree_showsFamily {member : Row} (hmember : db.members.get? member.1=some member.2) :
    ∃ tree, (∀ calls, maxTreeDepth ≤ calls → memberTree db calls member=some tree) ∧
      ShowsFamily db tree member := by
  obtain ⟨ts,hbuilt,hvalues,hlinks⟩ := exists_children hmember
  obtain ⟨hnodup,hvisited⟩ := visited hmember
  have hline := @climbAncestry_ascends db maxTreeDepth [] (some member) fun row hrow =>
    Option.some.inj hrow ▸ hmember
  have hids : member.1::(Rose.valuesOf ts).map (·.id)=
      (Rose.preorder (shownChildren db member.1) (maxTreeDepth+1) member).map Prod.fst := by
    have h := congrArg (List.map (·.id)) hvalues
    rwa [List.map_cons,List.map_map] at h
  rw [← hids,List.nodup_cons] at hnodup
  have hmem : ∀ id, id=member.1 ∨ id ∈ (Rose.valuesOf ts).map (·.id) ↔
      ∃ n m, OnLevel db member.1 n (id,m) := by
    intro id
    rw [← List.mem_cons,hids,List.mem_map]
    constructor
    · rintro ⟨row,hrow,rfl⟩
      obtain ⟨n,hn⟩ := (hvisited row).mp hrow
      exact ⟨n,row.2,hn⟩
    · rintro ⟨n,m,hn⟩
      exact ⟨(id,m),(hvisited _).mpr ⟨n,hn⟩,rfl⟩
  refine ⟨⟨ts,(climbAncestry db maxTreeDepth [] (some member)).reverse⟩,?_,?_⟩
  · intro calls hcalls
    have h := hbuilt calls hcalls
    rw [shownChildren] at h
    rw [memberTree,h]
    rfl
  · constructor
    · exact hnodup.2
    · exact hnodup.1
    · intro node hnode
      have hshown := List.mem_cons_of_mem (treeNode member) hnode
      rw [hvalues] at hshown
      obtain ⟨row,hrow,rfl⟩ := List.mem_map.mp hshown
      obtain ⟨n,hn⟩ := (hvisited row).mp hrow
      exact ⟨row.2,hn.2.1,rfl⟩
    · exact hlinks
    · intro hacyclic hdepth id
      constructor
      · intro hid
        obtain ⟨n,m,hgeneration,-⟩ := (hmem id).mp (Or.inr hid)
        cases n with
        | zero =>
          obtain rfl : id=member.1 := generation_zero_iff.mp hgeneration
          exact absurd hid hnodup.1
        | succ n => exact hgeneration.descendant
      · intro hid
        obtain ⟨n,hn⟩ := generation_of_descendant (hacyclic member.1) hid
        obtain ⟨-,p,hchild,-⟩ := generation_succ_iff.mp hn
        obtain ⟨m,hm,-⟩ := child_iff.mp hchild
        rcases (hmem id).mpr ⟨n+1,m,hn,hm,hdepth _ _ hn.up⟩ with rfl | hid'
        · exact absurd hid (hacyclic _)
        · exact hid'
    · rw [List.map_reverse,List.nodup_reverse]
      exact hline.once
    · rw [List.length_reverse]
      exact hline.length
    · rw [List.getLast?_reverse]
      rfl
    · rw [List.isChain_reverse]
      exact hline.chain
    · intro hshort top htop p hp hthere
      rw [List.length_reverse] at hshort
      rw [List.head?_reverse] at htop
      rw [List.map_reverse,List.mem_reverse]
      exact (hline.top hshort top htop p hp hthere).resolve_left List.not_mem_nil

/-- Two members, each the parent of the other. -/
def circleMember (parentId : Uuid) : Member where
  columns := {Columns.default with parentId := some parentId}
  emailVerifiedAt := none
  authPassword := none
  modifiedAt := none
  modifiedBy := none
  updatedAt := none
  other := ⟨none,none,none,none,none,none,none,none,0⟩
  memberRoles := []
  memberBadges := []
  memberKeys := []

def circleDatabase : Database :=
  {emptyDatabase [] [] [] [] 3 with
    members := (Dict.empty.set 1 (circleMember 2)).set 2 (circleMember 1)}

theorem memberTree_circle : ∃ tree,
    (∀ calls, maxTreeDepth ≤ calls → memberTree circleDatabase calls (1,circleMember 2)=some tree) ∧
      ShowsFamily circleDatabase tree (1,circleMember 2) :=
  memberTree_showsFamily circleDatabase rfl

end VbApi.Members
