import VbApi.PublicSite.Reorder
import Mathlib.Order.Lattice

/-! What requests may do to a reorderable list, and what holds of it after any of them. -/
namespace VbApi.PublicSite
open VbApi.Foundations

/-- The rows of a table, and the next id that the database makes. -/
structure SiteTable (β : Type) where
  rows : List (SiteRow β)
  nextId : ℕ

def replaceContent {β : Type} (id : ℕ) (content : β) (row : SiteRow β) : SiteRow β :=
  if row.id=id then { row with content := content } else row

namespace SiteTable
variable {β : Type} (table : SiteTable β)

/-- `(max(sort_order) or 0) + 1`. -/
def nextSortOrder : ℤ := (table.rows.map SiteRow.sortOrder).max?.getD 0+1

def newRow (content : β) : SiteRow β := ⟨table.nextId,table.nextSortOrder,content⟩

def insert (content : β) : SiteTable β := ⟨table.rows ++ [table.newRow content],table.nextId+1⟩

def setContent (id : ℕ) (content : β) : SiteTable β :=
  { table with rows := table.rows.map (replaceContent id content) }

def move (row : SiteRow β) (direction : MoveDirection) : SiteTable β :=
  { table with rows := moveRow table.rows row direction }

def delete (id : ℕ) : SiteTable β := { table with rows := table.rows.filter fun row => row.id ≠ id }

/-- The list is in order, and no row has an id that is still to come. -/
structure Sound : Prop where
  distinct : Distinct table.rows
  fresh : ∀ i ∈ table.rows.map SiteRow.id, i < table.nextId

end SiteTable

/-- What a request is for, as far as the order of the list is concerned. -/
inductive RowRequest
  | create
  | update (id : ℕ)
  | move (id : ℕ) (direction : MoveDirection)
  | delete (id : ℕ)

/-- Everything that a request may do to a table. -/
inductive Change {β : Type} (table : SiteTable β) : RowRequest → SiteTable β → Prop
  | notCreated : Change table .create table
  | created (content : β) : Change table .create (table.insert content)
  | notUpdated (id : ℕ) : Change table (.update id) table
  | updated (id : ℕ) (content : β) : Change table (.update id) (table.setContent id content)
  | notMoved {id : ℕ} (missing : ∀ row ∈ table.rows, row.id ≠ id) (direction : MoveDirection) :
    Change table (.move id direction) table
  | moved {row : SiteRow β} (mem : row ∈ table.rows) (direction : MoveDirection) :
    Change table (.move row.id direction) (table.move row direction)
  | notDeleted {id : ℕ} (missing : ∀ row ∈ table.rows, row.id ≠ id) : Change table (.delete id) table
  | deleted (id : ℕ) : Change table (.delete id) (table.delete id)

/-- What the next request finds and does: a new row comes to the end of the list, an edited one keeps
its place, a move swaps a row with its neighbour and nothing else, and does nothing at the end of the
list; a move down takes back a move up that did something; the others stay in order after a deletion. -/
structure RequestLaw {β Op : Type} (step : SiteTable β → Op → SiteTable β) (request : Op → RowRequest)
    (table : SiteTable β) : Prop where
  distinct : (table.rows.map SiteRow.sortOrder).Nodup
  created : ∀ op, request op=.create → step table op=table ∨
    ∃ row, row.id=table.nextId ∧ listed (step table op).rows=listed table.rows ++ [row]
  updated : ∀ op id, request op=.update id →
    (listed (step table op).rows).map SiteRow.id=(listed table.rows).map SiteRow.id
  movedUp : ∀ op front n x back, request op=.move x.id .up → listed table.rows=front ++ n::x::back →
    shown (listed (step table op).rows)=shown (front ++ x::n::back)
  atTop : ∀ op x back, request op=.move x.id .up → listed table.rows=x::back → step table op=table
  movedDown : ∀ op front x n back, request op=.move x.id .down → listed table.rows=front ++ x::n::back →
    shown (listed (step table op).rows)=shown (front ++ n::x::back)
  atBottom : ∀ op front x, request op=.move x.id .down → listed table.rows=front ++ [x] →
    step table op=table
  restored : ∀ up down id, request up=.move id .up → request down=.move id .down →
    step table up ≠ table → step (step table up) down=table
  deleted : ∀ op id, request op=.delete id →
    listed (step table op).rows=(listed table.rows).filter fun row => row.id ≠ id

/-- The same after any requests one after the other. -/
def ReorderLaw {β Op : Type} (step : SiteTable β → Op → SiteTable β) (request : Op → RowRequest)
    (start : SiteTable β) : Prop :=
  ∀ ops : List Op, RequestLaw step request (ops.foldl step start)

/-! ### The list after a change -/

section Listed
variable {β : Type} {rows : List (SiteRow β)} {table : SiteTable β} {row : SiteRow β}

@[simp] lemma replaceContent_id (id : ℕ) (content : β) : (replaceContent id content row).id=row.id := by
  rw [replaceContent]
  split_ifs <;> rfl

@[simp] lemma replaceContent_sortOrder (id : ℕ) (content : β) :
    (replaceContent id content row).sortOrder=row.sortOrder := by
  rw [replaceContent]
  split_ifs <;> rfl

lemma lt_nextSortOrder (hrow : row ∈ table.rows) : row.sortOrder < table.nextSortOrder := by
  have hmem : row.sortOrder ∈ table.rows.map SiteRow.sortOrder := List.mem_map_of_mem hrow
  rw [SiteTable.nextSortOrder]
  cases hmax : (table.rows.map SiteRow.sortOrder).max? with
  | none =>
    rw [List.max?_eq_none_iff.mp hmax] at hmem
    cases hmem
  | some greatest =>
    have hle : row.sortOrder ≤ greatest := (List.max?_le_iff hmax).mp le_rfl _ hmem
    rw [Option.getD_some]
    omega

lemma Distinct.append (h : Distinct rows) (hid : ∀ r ∈ rows, r.id ≠ row.id)
    (horder : ∀ r ∈ rows, r.sortOrder < row.sortOrder) : Distinct (rows ++ [row]) := by
  constructor
  · rw [List.map_append,List.map_singleton]
    refine h.ids.append (List.nodup_singleton _) ?_
    rw [List.disjoint_singleton]
    intro hmem
    obtain ⟨r,hr,heq⟩ := List.mem_map.mp hmem
    exact hid r hr heq
  · rw [List.map_append,List.map_singleton]
    refine h.orders.append (List.nodup_singleton _) ?_
    rw [List.disjoint_singleton]
    intro hmem
    obtain ⟨r,hr,heq⟩ := List.mem_map.mp hmem
    exact (horder r hr).ne heq

/-- A row with a greater order than all others comes to the end of the list. -/
lemma Distinct.listed_append (h : Distinct rows) (horder : ∀ r ∈ rows, r.sortOrder < row.sortOrder) :
    listed (rows ++ [row])=listed rows ++ [row] := by
  apply sortBy_eq_of_perm
  · exact (sortBy_perm SiteRow.sortOrder rows).append_right [row]
  · refine List.pairwise_append.mpr ⟨sortBy_strict h.orders,List.pairwise_singleton _ _,?_⟩
    intro r hr s hs
    rw [List.mem_singleton.mp hs]
    exact horder r (mem_listed.mp hr)

lemma Distinct.filter (h : Distinct rows) (p : SiteRow β → Bool) : Distinct (rows.filter p) :=
  ⟨h.ids.sublist (List.filter_sublist.map _),h.orders.sublist (List.filter_sublist.map _)⟩

lemma Distinct.listed_filter (h : Distinct rows) (p : SiteRow β → Bool) :
    listed (rows.filter p)=(listed rows).filter p := by
  apply sortBy_eq_of_perm
  · exact (sortBy_perm SiteRow.sortOrder rows).filter p
  · exact (sortBy_strict h.orders).filter p

/-- A change of the rows that touches neither ids nor orders. -/
lemma Distinct.map (h : Distinct rows) {f : SiteRow β → SiteRow β} (hid : ∀ r, (f r).id=r.id)
    (horder : ∀ r, (f r).sortOrder=r.sortOrder) : Distinct (rows.map f) := by
  have hids : SiteRow.id ∘ f=SiteRow.id := funext hid
  have horders : SiteRow.sortOrder ∘ f=SiteRow.sortOrder := funext horder
  constructor
  · rw [List.map_map,hids]
    exact h.ids
  · rw [List.map_map,horders]
    exact h.orders

lemma Distinct.listed_map (h : Distinct rows) {f : SiteRow β → SiteRow β}
    (horder : ∀ r, (f r).sortOrder=r.sortOrder) : listed (rows.map f)=(listed rows).map f := by
  apply sortBy_eq_of_perm
  · exact (sortBy_perm SiteRow.sortOrder rows).map f
  · rw [List.pairwise_map]
    refine (sortBy_strict h.orders).imp ?_
    intro r s hlt
    rw [horder r,horder s]
    exact hlt

end Listed

/-! ### What a change keeps -/

section Changes
variable {β : Type} {table table' : SiteTable β} {row : SiteRow β} {id : ℕ}

lemma SiteTable.Sound.id_ne (h : table.Sound) (hrow : row ∈ table.rows) : row.id ≠ table.nextId :=
  (h.fresh row.id (List.mem_map_of_mem hrow)).ne

lemma SiteTable.Sound.insert (h : table.Sound) (content : β) : (table.insert content).Sound := by
  constructor
  · exact h.distinct.append (fun r hr => h.id_ne hr) fun r hr => lt_nextSortOrder hr
  · intro i hi
    rw [SiteTable.insert,List.map_append,List.mem_append] at hi
    rcases hi with hi | hi
    · exact (h.fresh i hi).trans (Nat.lt_succ_self _)
    · rw [List.map_singleton,List.mem_singleton] at hi
      rw [hi]
      exact Nat.lt_succ_self _

lemma SiteTable.Sound.of_ids (h : table.Sound) {rows : List (SiteRow β)} (hdistinct : Distinct rows)
    (hids : ∀ i ∈ rows.map SiteRow.id, i ∈ table.rows.map SiteRow.id) :
    (⟨rows,table.nextId⟩ : SiteTable β).Sound :=
  ⟨hdistinct,fun i hi => h.fresh i (hids i hi)⟩

theorem Change.sound {request : RowRequest} (h : table.Sound) (hchange : Change table request table') :
    table'.Sound := by
  cases hchange with
  | notCreated => exact h
  | created content => exact h.insert content
  | notUpdated id => exact h
  | updated id content =>
    refine h.of_ids (h.distinct.map (fun _ => replaceContent_id _ _) fun _ => replaceContent_sortOrder _ _) ?_
    intro i hi
    obtain ⟨r',hr',rfl⟩ := List.mem_map.mp hi
    obtain ⟨r,hr,rfl⟩ := List.mem_map.mp hr'
    rw [replaceContent_id]
    exact List.mem_map_of_mem hr
  | notMoved missing direction => exact h
  | moved mem direction =>
    refine h.of_ids (h.distinct.move mem direction) ?_
    intro i hi
    rw [map_id_moveRow] at hi
    exact hi
  | notDeleted missing => exact h
  | deleted id =>
    refine h.of_ids (h.distinct.filter _) ?_
    intro i hi
    exact (List.filter_sublist.map SiteRow.id).subset hi

lemma Change.move_of_mem (hd : Distinct table.rows) (hrow : row ∈ table.rows) {direction : MoveDirection}
    (h : Change table (.move row.id direction) table') : table'=table.move row direction := by
  generalize hid : row.id=id at h
  cases h with
  | notMoved missing => exact absurd hid (missing row hrow)
  | moved mem => rw [hd.eq_of_id hrow mem hid]

/-- A move that did something moved a row. -/
lemma Change.exists_of_ne {direction : MoveDirection} (h : Change table (.move id direction) table')
    (hne : table' ≠ table) : ∃ row ∈ table.rows, row.id=id ∧ table'=table.move row direction := by
  cases h with
  | notMoved missing => exact absurd rfl hne
  | moved mem => exact ⟨_,mem,rfl,rfl⟩

end Changes

/-! ### Any service whose requests change a table in this way -/

section Law
variable {β Op : Type} {step : SiteTable β → Op → SiteTable β} {request : Op → RowRequest}
  {table : SiteTable β}

lemma SiteTable.Sound.moveLaw (h : table.Sound) : MoveLaw table.rows := h.distinct.moveLaw

theorem restored_of_change (hstep : ∀ table op, Change table (request op) (step table op))
    (h : table.Sound) {up down : Op} {id : ℕ} (hup : request up=.move id .up)
    (hdown : request down=.move id .down) (hne : step table up ≠ table) :
    step (step table up) down=table := by
  have hfirst := hstep table up
  rw [hup] at hfirst
  obtain ⟨x,hx,rfl,hmoved⟩ := hfirst.exists_of_ne hne
  have hsecond := hstep (step table up) down
  rw [hdown,hmoved] at hsecond
  rw [hmoved] at hne ⊢
  have heffect : moveRow table.rows x .up ≠ table.rows := by
    intro hsame
    exact hne (congrArg (fun rows => SiteTable.mk rows table.nextId) hsame)
  have hids : x.id ∈ (moveRow table.rows x .up).map SiteRow.id := by
    rw [map_id_moveRow]
    exact List.mem_map_of_mem hx
  obtain ⟨x',hx',hid⟩ := List.mem_map.mp hids
  rw [← hid] at hsecond
  rw [hsecond.move_of_mem (h.distinct.move hx .up) hx']
  have hback := h.distinct.move_restores hx heffect hx' hid
  exact congrArg (fun rows => SiteTable.mk rows table.nextId) hback

theorem requestLaw_of_change (hstep : ∀ table op, Change table (request op) (step table op))
    (h : table.Sound) : RequestLaw step request table where
  distinct := h.distinct.orders
  created op hop := by
    have hchange := hstep table op
    rw [hop] at hchange
    generalize step table op=table' at hchange ⊢
    cases hchange with
    | notCreated => exact .inl rfl
    | created content =>
      refine .inr ⟨table.newRow content,rfl,?_⟩
      exact h.distinct.listed_append fun r hr => lt_nextSortOrder hr
  updated op id hop := by
    have hchange := hstep table op
    rw [hop] at hchange
    generalize step table op=table' at hchange ⊢
    cases hchange with
    | notUpdated => rfl
    | updated _ content =>
      rw [SiteTable.setContent,h.distinct.listed_map fun _ => replaceContent_sortOrder _ _,List.map_map]
      exact List.map_congr_left fun _ _ => replaceContent_id _ _
  movedUp op front n x back hop hlist := by
    have hx : x ∈ table.rows := mem_listed.mp (hlist ▸ by simp)
    have hchange := hstep table op
    rw [hop] at hchange
    rw [hchange.move_of_mem h.distinct hx]
    exact h.moveLaw.up front n x back hlist
  atTop op x back hop hlist := by
    have hx : x ∈ table.rows := mem_listed.mp (hlist ▸ List.mem_cons_self)
    have hchange := hstep table op
    rw [hop] at hchange
    rw [hchange.move_of_mem h.distinct hx,SiteTable.move,h.moveLaw.top x back hlist]
  movedDown op front x n back hop hlist := by
    have hx : x ∈ table.rows := mem_listed.mp (hlist ▸ by simp)
    have hchange := hstep table op
    rw [hop] at hchange
    rw [hchange.move_of_mem h.distinct hx]
    exact h.moveLaw.down front x n back hlist
  atBottom op front x hop hlist := by
    have hx : x ∈ table.rows := mem_listed.mp (hlist ▸ by simp)
    have hchange := hstep table op
    rw [hop] at hchange
    rw [hchange.move_of_mem h.distinct hx,SiteTable.move,h.moveLaw.bottom front x hlist]
  restored _ _ _ hup hdown hne := restored_of_change hstep h hup hdown hne
  deleted op id hop := by
    have hchange := hstep table op
    rw [hop] at hchange
    generalize step table op=table' at hchange ⊢
    cases hchange with
    | notDeleted missing =>
      symm
      apply List.filter_eq_self.mpr
      intro r hr
      exact decide_eq_true (missing r (mem_listed.mp hr))
    | deleted => exact h.distinct.listed_filter _

theorem sound_of_change (hstep : ∀ table op, Change table (request op) (step table op))
    (h : table.Sound) (ops : List Op) : (ops.foldl step table).Sound := by
  induction ops generalizing table with
  | nil => exact h
  | cons op ops ih => exact ih ((hstep table op).sound h)

theorem reorderLaw_of_change (hstep : ∀ table op, Change table (request op) (step table op))
    (h : table.Sound) : ReorderLaw step request table :=
  fun ops => requestLaw_of_change hstep (sound_of_change hstep h ops)

end Law

end VbApi.PublicSite
