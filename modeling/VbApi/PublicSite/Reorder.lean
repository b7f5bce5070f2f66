import VbApi.Foundations.Sorting

/-! Lists that are kept in order by numbers: the neighbour of a row in the list, and a move that swaps
the numbers of the two. -/
namespace VbApi.PublicSite
open VbApi.Foundations

/-- A row of a reorderable list; `content` are its other columns. -/
structure SiteRow (β : Type) where
  id : ℕ
  sortOrder : ℤ
  content : β

inductive MoveDirection
  | up
  | down
  deriving DecidableEq

section Move
variable {β : Type}

/-- The rows by their sort order. -/
def listed (rows : List (SiteRow β)) : List (SiteRow β) := sortBy SiteRow.sortOrder rows

/-- The row right above or below a place in the list. -/
def findReorderNeighbor (rows : List (SiteRow β)) (currentSortOrder : ℤ) :
    MoveDirection → Option (SiteRow β)
  | .up =>
    (sortBy (fun row => OrderDual.toDual row.sortOrder)
      (rows.filter fun row => row.sortOrder < currentSortOrder)).head?
  | .down => (sortBy SiteRow.sortOrder (rows.filter fun row => currentSortOrder < row.sortOrder)).head?

/-- `row` and `neighbor` get each other's sort order. -/
def swapOrders (row neighbor r : SiteRow β) : SiteRow β :=
  if r.id=row.id then { r with sortOrder := neighbor.sortOrder }
  else if r.id=neighbor.id then { r with sortOrder := row.sortOrder }
  else r

def moveRow (rows : List (SiteRow β)) (row : SiteRow β) (direction : MoveDirection) : List (SiteRow β) :=
  match findReorderNeighbor rows row.sortOrder direction with
  | none => rows
  | some neighbor => rows.map (swapOrders row neighbor)

/-- The ids and the sort orders are pairwise distinct. -/
structure Distinct (rows : List (SiteRow β)) : Prop where
  ids : (rows.map SiteRow.id).Nodup
  orders : (rows.map SiteRow.sortOrder).Nodup

/-- What a list shows: the rows without the numbers that keep them in order. -/
def shown (rows : List (SiteRow β)) : List (ℕ × β) := rows.map fun row => (row.id,row.content)

/-- A move swaps a row with its neighbour in the list and nothing else; at the end of the list it does
nothing, and a move down takes back a move up that did something. -/
structure MoveLaw (rows : List (SiteRow β)) : Prop where
  distinct : ∀ x ∈ rows, ∀ direction, Distinct (moveRow rows x direction)
  up : ∀ front n x back, listed rows=front ++ n::x::back →
    shown (listed (moveRow rows x .up))=shown (front ++ x::n::back)
  top : ∀ x back, listed rows=x::back → moveRow rows x .up=rows
  down : ∀ front x n back, listed rows=front ++ x::n::back →
    shown (listed (moveRow rows x .down))=shown (front ++ n::x::back)
  bottom : ∀ front x, listed rows=front ++ [x] → moveRow rows x .down=rows
  restores : ∀ x ∈ rows, moveRow rows x .up ≠ rows → ∀ x' ∈ moveRow rows x .up, x'.id=x.id →
    moveRow (moveRow rows x .up) x' .down=rows

end Move

/-! ### Neighbours -/

section Neighbours
variable {β : Type} {rows front back : List (SiteRow β)} {a b x n : SiteRow β}

lemma mem_listed : x ∈ listed rows ↔ x ∈ rows := mem_sortBy _ _ _

/-- Where two rows stand next to each other, the others lie on their two sides. -/
structure Adjacent (rows front : List (SiteRow β)) (a b : SiteRow β) (back : List (SiteRow β)) : Prop where
  list : listed rows=front ++ a::b::back
  before : ∀ r ∈ front, r.sortOrder < a.sortOrder
  pair : a.sortOrder < b.sortOrder
  after : ∀ r ∈ back, b.sortOrder < r.sortOrder

lemma Distinct.adjacent (h : Distinct rows) (hlist : listed rows=front ++ a::b::back) :
    Adjacent rows front a b back := by
  have hstrict : (listed rows).Pairwise fun r s => r.sortOrder < s.sortOrder := sortBy_strict h.orders
  rw [hlist,List.pairwise_append,List.pairwise_cons,List.pairwise_cons] at hstrict
  obtain ⟨-,⟨ha,hb,-⟩,hfront⟩ := hstrict
  exact ⟨hlist,fun r hr => hfront r hr a List.mem_cons_self,ha b List.mem_cons_self,hb⟩

lemma Adjacent.cases (h : Adjacent rows front a b back) {r : SiteRow β} (hr : r ∈ rows) :
    r.sortOrder < a.sortOrder ∨ r=a ∨ r=b ∨ b.sortOrder < r.sortOrder := by
  rw [← mem_listed,h.list,List.mem_append,List.mem_cons,List.mem_cons] at hr
  rcases hr with hr | hr | hr | hr
  · exact .inl (h.before r hr)
  · exact .inr (.inl hr)
  · exact .inr (.inr (.inl hr))
  · exact .inr (.inr (.inr (h.after r hr)))

lemma Adjacent.mem (h : Adjacent rows front a b back) : a ∈ rows ∧ b ∈ rows := by
  refine ⟨mem_listed.mp ?_,mem_listed.mp ?_⟩ <;> rw [h.list] <;> simp

lemma Adjacent.neighbor_up (h : Adjacent rows front a b back) :
    findReorderNeighbor rows b.sortOrder .up=some a := by
  rw [findReorderNeighbor]
  have hmem : a ∈ rows.filter fun row => row.sortOrder < b.sortOrder :=
    List.mem_filter.mpr ⟨h.mem.1,decide_eq_true h.pair⟩
  cases hfirst : (sortBy (fun row : SiteRow β => OrderDual.toDual row.sortOrder)
      (rows.filter fun row => row.sortOrder < b.sortOrder)).head? with
  | none =>
    rw [sortBy_head?_eq_none_iff.mp hfirst] at hmem
    cases hmem
  | some n =>
    obtain ⟨hn,hleast⟩ := le_of_sortBy_head? hfirst
    obtain ⟨hrow,hbelow⟩ := List.mem_filter.mp hn
    have hbelow : n.sortOrder < b.sortOrder := of_decide_eq_true hbelow
    have hclosest : a.sortOrder ≤ n.sortOrder := hleast a hmem
    rcases h.cases hrow with hlt | rfl | rfl | hgt
    · omega
    · rfl
    · omega
    · omega

lemma Adjacent.neighbor_down (h : Adjacent rows front a b back) :
    findReorderNeighbor rows a.sortOrder .down=some b := by
  rw [findReorderNeighbor]
  have hmem : b ∈ rows.filter fun row => a.sortOrder < row.sortOrder :=
    List.mem_filter.mpr ⟨h.mem.2,decide_eq_true h.pair⟩
  cases hfirst : (sortBy SiteRow.sortOrder
      (rows.filter fun row => a.sortOrder < row.sortOrder)).head? with
  | none =>
    rw [sortBy_head?_eq_none_iff.mp hfirst] at hmem
    cases hmem
  | some n =>
    obtain ⟨hn,hleast⟩ := le_of_sortBy_head? hfirst
    obtain ⟨hrow,habove⟩ := List.mem_filter.mp hn
    have habove : a.sortOrder < n.sortOrder := of_decide_eq_true habove
    have hclosest : n.sortOrder ≤ b.sortOrder := hleast b hmem
    rcases h.cases hrow with hlt | rfl | rfl | hgt
    · omega
    · omega
    · rfl
    · omega

/-- Nothing stands above the first row. -/
lemma Distinct.neighbor_top (h : Distinct rows) (hlist : listed rows=x::back) :
    findReorderNeighbor rows x.sortOrder .up=none := by
  have hstrict : (listed rows).Pairwise fun r s => r.sortOrder < s.sortOrder := sortBy_strict h.orders
  rw [hlist,List.pairwise_cons] at hstrict
  rw [findReorderNeighbor,sortBy_head?_eq_none_iff,List.filter_eq_nil_iff]
  intro r hr hbelow
  have hbelow : r.sortOrder < x.sortOrder := of_decide_eq_true hbelow
  rw [← mem_listed,hlist] at hr
  rcases List.mem_cons.mp hr with rfl | hr
  · omega
  · exact absurd hbelow (hstrict.1 r hr).asymm

/-- Nothing stands below the last row. -/
lemma Distinct.neighbor_bottom (h : Distinct rows) (hlist : listed rows=front ++ [x]) :
    findReorderNeighbor rows x.sortOrder .down=none := by
  have hstrict : (listed rows).Pairwise fun r s => r.sortOrder < s.sortOrder := sortBy_strict h.orders
  rw [hlist,List.pairwise_append] at hstrict
  rw [findReorderNeighbor,sortBy_head?_eq_none_iff,List.filter_eq_nil_iff]
  intro r hr habove
  have habove : x.sortOrder < r.sortOrder := of_decide_eq_true habove
  rw [← mem_listed,hlist] at hr
  rcases List.mem_append.mp hr with hr | hr
  · exact absurd habove (hstrict.2.2 r hr x List.mem_cons_self).asymm
  · rw [List.mem_singleton.mp hr] at habove
    omega

end Neighbours

/-! ### Swapping two neighbours -/

section Swap
variable {β : Type} {rows front back : List (SiteRow β)} {a b x n : SiteRow β}

@[simp] lemma swapOrders_id (r : SiteRow β) : (swapOrders x n r).id=r.id := by
  rw [swapOrders]
  split_ifs <;> rfl

@[simp] lemma swapOrders_content (r : SiteRow β) : (swapOrders x n r).content=r.content := by
  rw [swapOrders]
  split_ifs <;> rfl

lemma swapOrders_self : swapOrders x n x={ x with sortOrder := n.sortOrder } := if_pos rfl

lemma swapOrders_neighbor (hne : n.id ≠ x.id) : swapOrders x n n={ n with sortOrder := x.sortOrder } := by
  rw [swapOrders,if_neg hne,if_pos rfl]

lemma swapOrders_other {r : SiteRow β} (hx : r.id ≠ x.id) (hn : r.id ≠ n.id) : swapOrders x n r=r := by
  rw [swapOrders,if_neg hx,if_neg hn]

lemma swapOrders_comm (hne : a.id ≠ b.id) (r : SiteRow β) : swapOrders a b r=swapOrders b a r := by
  unfold swapOrders
  split_ifs with ha hb hb
  · exact absurd (ha.symm.trans hb) hne
  · rfl
  · rfl
  · rfl

lemma Distinct.eq_of_id (h : Distinct rows) {r s : SiteRow β} (hr : r ∈ rows) (hs : s ∈ rows)
    (hid : r.id=s.id) : r=s := List.inj_on_of_nodup_map h.ids hr hs hid

lemma Adjacent.id_ne (h : Adjacent rows front a b back) (hd : Distinct rows) : a.id ≠ b.id := by
  intro hid
  have heq := hd.eq_of_id h.mem.1 h.mem.2 hid
  have hlt := h.pair
  rw [heq] at hlt
  exact lt_irrefl _ hlt

lemma Adjacent.swap_other (h : Adjacent rows front a b back) (hd : Distinct rows) {r : SiteRow β}
    (hr : r ∈ rows) (hside : r.sortOrder < a.sortOrder ∨ b.sortOrder < r.sortOrder) :
    swapOrders b a r=r := by
  have hpair := h.pair
  apply swapOrders_other
  · intro hid
    rw [hd.eq_of_id hr h.mem.2 hid] at hside
    omega
  · intro hid
    rw [hd.eq_of_id hr h.mem.1 hid] at hside
    omega

/-- The list after two neighbours have swapped their numbers. -/
lemma Adjacent.swap (h : Adjacent rows front a b back) (hd : Distinct rows) :
    Adjacent (rows.map (swapOrders b a)) front { b with sortOrder := a.sortOrder }
      { a with sortOrder := b.sortOrder } back := by
  have hfront : front.map (swapOrders b a)=front := by
    have hsame : ∀ r ∈ front, swapOrders b a r=r := by
      intro r hr
      have hmem : r ∈ rows := mem_listed.mp (h.list ▸ List.mem_append_left _ hr)
      exact h.swap_other hd hmem (.inl (h.before r hr))
    rw [List.map_congr_left hsame,List.map_id']
  have hback : back.map (swapOrders b a)=back := by
    have hsame : ∀ r ∈ back, swapOrders b a r=r := by
      intro r hr
      have hlater : r ∈ a::b::back := List.mem_cons_of_mem a (List.mem_cons_of_mem b hr)
      have hmem : r ∈ rows := mem_listed.mp (h.list ▸ List.mem_append_right front hlater)
      exact h.swap_other hd hmem (.inr (h.after r hr))
    rw [List.map_congr_left hsame,List.map_id']
  have hmap : (listed rows).map (swapOrders b a)=
      front ++ { a with sortOrder := b.sortOrder }::{ b with sortOrder := a.sortOrder }::back := by
    rw [h.list,List.map_append,List.map_cons,List.map_cons,hfront,hback,swapOrders_self,
      swapOrders_neighbor (h.id_ne hd)]
  have hpair := h.pair
  refine ⟨?_,h.before,hpair,h.after⟩
  apply sortBy_eq_of_perm
  · have hrows : ((listed rows).map (swapOrders b a)).Perm (rows.map (swapOrders b a)) :=
      (sortBy_perm _ rows).map _
    rw [hmap] at hrows
    exact ((List.Perm.swap _ _ back).append_left front).trans hrows
  · rw [List.pairwise_append,List.pairwise_cons,List.pairwise_cons]
    have hstrict : (listed rows).Pairwise fun r s => r.sortOrder < s.sortOrder := sortBy_strict hd.orders
    rw [h.list,List.pairwise_append,List.pairwise_cons,List.pairwise_cons] at hstrict
    obtain ⟨hleft,⟨ha,hb,hright⟩,hcross⟩ := hstrict
    refine ⟨hleft,⟨?_,h.after,hright⟩,?_⟩
    · intro r hr
      rcases List.mem_cons.mp hr with rfl | hr
      · exact hpair
      · exact hpair.trans (h.after r hr)
    · intro r hr t ht
      have hbefore := h.before r hr
      rcases List.mem_cons.mp ht with rfl | ht
      · exact hbefore
      · rcases List.mem_cons.mp ht with rfl | ht
        · exact hbefore.trans hpair
        · exact (hbefore.trans hpair).trans (h.after t ht)

lemma Adjacent.swap_distinct (h : Adjacent rows front a b back) (hd : Distinct rows) :
    Distinct (rows.map (swapOrders b a)) := by
  have hswap := h.swap hd
  constructor
  · rw [List.map_map]
    have hids : (SiteRow.id ∘ swapOrders b a : SiteRow β → ℕ)=SiteRow.id := by
      funext r
      exact swapOrders_id r
    rw [hids]
    exact hd.ids
  · have hperm : (listed (rows.map (swapOrders b a))).Perm (rows.map (swapOrders b a)) := sortBy_perm _ _
    refine ((hperm.map SiteRow.sortOrder).nodup_iff).mp ?_
    have hstrict : (listed rows).Pairwise fun r s => r.sortOrder < s.sortOrder := sortBy_strict hd.orders
    have horders : (listed (rows.map (swapOrders b a))).map SiteRow.sortOrder=
        (listed rows).map SiteRow.sortOrder := by
      rw [hswap.list,h.list]
      simp
    rw [horders]
    exact List.pairwise_map.mpr (hstrict.imp fun hlt => hlt.ne)

/-- Swapping the numbers of two neighbours twice changes nothing. -/
lemma Adjacent.swap_swap (h : Adjacent rows front a b back) (hd : Distinct rows) :
    (rows.map (swapOrders b a)).map
      (swapOrders { b with sortOrder := a.sortOrder } { a with sortOrder := b.sortOrder })=rows := by
  rw [List.map_map]
  have hsame : ∀ r ∈ rows, (swapOrders { b with sortOrder := a.sortOrder }
      { a with sortOrder := b.sortOrder } ∘ swapOrders b a) r=r := by
    intro r hr
    have hne := h.id_ne hd
    rw [Function.comp_apply]
    by_cases hb : r.id=b.id
    · rw [hd.eq_of_id hr h.mem.2 hb,swapOrders_self]
      exact if_pos rfl
    · by_cases ha : r.id=a.id
      · rw [hd.eq_of_id hr h.mem.1 ha,swapOrders_neighbor hne]
        exact (if_neg hne).trans (if_pos rfl)
      · rw [swapOrders_other hb ha]
        exact swapOrders_other hb ha
  rw [List.map_congr_left hsame,List.map_id']

end Swap

/-! ### Moves -/

section Moves
variable {β : Type} {rows front back : List (SiteRow β)} {a b x : SiteRow β}

lemma map_id_moveRow (direction : MoveDirection) :
    (moveRow rows x direction).map SiteRow.id=rows.map SiteRow.id := by
  rw [moveRow]
  cases findReorderNeighbor rows x.sortOrder direction with
  | none => rfl
  | some n =>
    rw [List.map_map]
    apply List.map_congr_left
    intro r _
    exact swapOrders_id r

lemma Adjacent.move_up (h : Adjacent rows front a b back) : moveRow rows b .up=rows.map (swapOrders b a) := by
  rw [moveRow,h.neighbor_up]

lemma Adjacent.move_down (h : Adjacent rows front a b back) (hd : Distinct rows) :
    moveRow rows a .down=rows.map (swapOrders b a) := by
  rw [moveRow,h.neighbor_down]
  exact List.map_congr_left fun r _ => swapOrders_comm (h.id_ne hd) r

lemma Adjacent.shown_swap (h : Adjacent rows front a b back) (hd : Distinct rows) :
    shown (listed (rows.map (swapOrders b a)))=shown (front ++ b::a::back) := by
  rw [(h.swap hd).list]
  simp [shown]

/-- A row is the first one, or it stands below another. -/
lemma Distinct.top_or_below (h : Distinct rows) (hx : x ∈ rows) :
    (∃ back, listed rows=x::back) ∨ ∃ front a back, Adjacent rows front a x back := by
  obtain ⟨front,back,hlist⟩ := List.append_of_mem (mem_listed.mpr hx)
  rcases List.eq_nil_or_concat front with rfl | ⟨front,a,rfl⟩
  · exact .inl ⟨back,hlist⟩
  · refine .inr ⟨front,a,back,h.adjacent ?_⟩
    rw [hlist]
    simp

/-- A row is the last one, or it stands above another. -/
lemma Distinct.bottom_or_above (h : Distinct rows) (hx : x ∈ rows) :
    (∃ front, listed rows=front ++ [x]) ∨ ∃ front b back, Adjacent rows front x b back := by
  obtain ⟨front,back,hlist⟩ := List.append_of_mem (mem_listed.mpr hx)
  cases back with
  | nil => exact .inl ⟨front,hlist⟩
  | cons b back => exact .inr ⟨front,b,back,h.adjacent hlist⟩

lemma Distinct.move_top (h : Distinct rows) (hlist : listed rows=x::back) : moveRow rows x .up=rows := by
  rw [moveRow,h.neighbor_top hlist]

lemma Distinct.move_bottom (h : Distinct rows) (hlist : listed rows=front ++ [x]) :
    moveRow rows x .down=rows := by
  rw [moveRow,h.neighbor_bottom hlist]

lemma Distinct.move (h : Distinct rows) (hx : x ∈ rows) (direction : MoveDirection) :
    Distinct (moveRow rows x direction) := by
  cases direction with
  | up =>
    rcases h.top_or_below hx with ⟨back,hlist⟩ | ⟨front,a,back,hadj⟩
    · rw [h.move_top hlist]
      exact h
    · rw [hadj.move_up]
      exact hadj.swap_distinct h
  | down =>
    rcases h.bottom_or_above hx with ⟨front,hlist⟩ | ⟨front,b,back,hadj⟩
    · rw [h.move_bottom hlist]
      exact h
    · rw [hadj.move_down h]
      exact hadj.swap_distinct h

/-- A move down takes back a move up. -/
lemma Distinct.move_restores (h : Distinct rows) (hx : x ∈ rows) (heffect : moveRow rows x .up ≠ rows)
    {x' : SiteRow β} (hx' : x' ∈ moveRow rows x .up) (hid : x'.id=x.id) :
    moveRow (moveRow rows x .up) x' .down=rows := by
  rcases h.top_or_below hx with ⟨back,hlist⟩ | ⟨front,a,back,hadj⟩
  · exact absurd (h.move_top hlist) heffect
  · have hd := hadj.swap_distinct h
    have hswap := hadj.swap h
    rw [hadj.move_up] at hx' ⊢
    have hrow : x'={ x with sortOrder := a.sortOrder } := hd.eq_of_id hx' hswap.mem.1 hid
    rw [hrow,moveRow,hswap.neighbor_down]
    exact hadj.swap_swap h

theorem Distinct.moveLaw (h : Distinct rows) : MoveLaw rows where
  distinct _ hx direction := h.move hx direction
  up _ _ _ _ hlist := by
    have hadj := h.adjacent hlist
    rw [hadj.move_up]
    exact hadj.shown_swap h
  top _ _ hlist := h.move_top hlist
  down _ _ _ _ hlist := by
    have hadj := h.adjacent hlist
    rw [hadj.move_down h]
    exact hadj.shown_swap h
  bottom _ _ hlist := h.move_bottom hlist
  restores _ hx heffect _ hx' hid := h.move_restores hx heffect hx' hid

end Moves

end VbApi.PublicSite
