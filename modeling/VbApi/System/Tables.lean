import VbApi.Foundations.Dict
import VbApi.Foundations.Pagination
import VbApi.Foundations.PyText
import VbApi.Foundations.Results

/-! The table browser of the system administrators: it pages through any table, and tells nothing of the
values in the masked columns. -/
namespace VbApi.System
open VbApi.Foundations

structure Column where
  name : PyText
  type : PyText
  nullable : Bool

/-- A table with what the inspector tells of it; a missing value is `NULL`. -/
structure Table (β : Type) where
  columns : List Column
  primaryKey : List PyText
  rows : List (PyText → Option β)

abbrev Database (β : Type) := Dict PyText (Table β)

def maskedColumns : List (PyText × PyText) :=
  [(text "members",text "auth_password"),(text "password_reset_tokens",text "token_hash"),
    (text "sessions",text "jti"),(text "sessions",text "refresh_token_hash")]

def maskedValue : PyText := text "***"

inductive TableError
  | http (status : ℕ) (detail : PyText)
  | indexError

structure ColumnInfo where
  name : PyText
  type : PyText
  nullable : Bool
  primaryKey : Bool

structure TableData where
  tableName : PyText
  columns : List ColumnInfo
  rows : List (List (PyText × Option PyText))
  total : ℕ
  page : ℕ
  pageSize : ℕ

section Browser
variable {β : Type} [LinearOrder β] (str : β → PyText)

def getValidTables (db : Database β) : List PyText := sortBy id db.keys

def displayValue (tableName column : PyText) (value : Option β) : Option PyText :=
  match value with
  | none => none
  | some v => if (tableName,column) ∈ maskedColumns then some maskedValue else some (str v)

def displayRow (tableName : PyText) (columns : List Column) (row : PyText → Option β) :
    List (PyText × Option PyText) :=
  columns.map fun c => (c.name,displayValue str tableName c.name (row c.name))

/-- The primary key, or else the first column. -/
def orderColumns (t : Table β) : Option (List PyText) :=
  if t.primaryKey=[] then t.columns.head?.map fun c => [c.name] else some t.primaryKey

/-- `ORDER BY` the columns; `NULL` comes after all values. -/
def orderKey (columns : List PyText) (row : PyText → Option β) : List (WithTop β) :=
  columns.map fun c => row c

/-- How the database orders rows in one query. -/
abbrev Ordering (β : Type) [LinearOrder β] := ∀ columns : List PyText, OrderBy (orderKey (β := β) columns)

def getTableData (o : Ordering β) (db : Database β) (tableName : PyText) (page pageSize : ℕ) :
    Except TableError TableData :=
  match db.get? tableName with
  | none => .error (.http 404 (text "Tabelle nicht gefunden."))
  | some t =>
    match orderColumns t with
    | none => .error .indexError
    | some orderBy =>
      let (rows,total) := (o orderBy).page pageSize page t.rows
      .ok ⟨tableName,t.columns.map fun c => ⟨c.name,c.type,c.nullable,c.name ∈ t.primaryKey⟩,
        rows.map (displayRow str tableName t.columns),total,page,pageSize⟩

end Browser

/-! ### What may differ unseen -/

section Rows
variable {β : Type} {str : β → PyText} {tableName : PyText} {t t' : Table β}
  {row row' : PyText → Option β}

/-- Two rows that differ in masked values at most. -/
def SameRow (tableName : PyText) (row row' : PyText → Option β) : Prop :=
  ∀ c, if (tableName,c) ∈ maskedColumns then (row c).isSome=(row' c).isSome else row c=row' c

structure SameTable (tableName : PyText) (t t' : Table β) : Prop where
  columns : t.columns=t'.columns
  primaryKey : t.primaryKey=t'.primaryKey
  rows : List.Forall₂ (SameRow tableName) t.rows t'.rows

/-- Two databases that differ in masked values at most. -/
def SameButSecrets (db db' : Database β) : Prop :=
  ∀ tableName, Option.Rel (SameTable tableName) (db.get? tableName) (db'.get? tableName)

lemma SameRow.displayRow_eq (h : SameRow tableName row row') (columns : List Column) :
    displayRow str tableName columns row=displayRow str tableName columns row' := by
  apply List.map_congr_left
  intro c _
  have hc := h c.name
  split_ifs at hc with hmasked
  · cases hrow : row c.name <;> cases hrow' : row' c.name <;> simp_all [displayValue]
  · rw [hc]

lemma SameRow.orderKey_eq (h : SameRow tableName row row') {cols : List PyText}
    (hcols : ∀ c ∈ cols, (tableName,c) ∉ maskedColumns) : orderKey cols row=orderKey cols row' := by
  apply List.map_congr_left
  intro c hc
  have hsame := h c
  rw [if_neg (hcols c hc)] at hsame
  exact hsame

lemma SameTable.orderColumns_eq (h : SameTable tableName t t') : orderColumns t=orderColumns t' := by
  rw [orderColumns,orderColumns,h.primaryKey,h.columns]

lemma displayRow_masked {columns : List Column} {cell : PyText × Option PyText}
    (hcell : cell ∈ displayRow str tableName columns row)
    (hmasked : (tableName,cell.1) ∈ maskedColumns) : cell.2=none ∨ cell.2=some maskedValue := by
  obtain ⟨c,-,rfl⟩ := List.mem_map.mp hcell
  dsimp only at hmasked ⊢
  unfold displayValue
  cases row c.name with
  | none => exact .inl rfl
  | some v => exact .inr (if_pos hmasked)

lemma exists_orderColumns (h : t.columns ≠ []) : ∃ cols, orderColumns t=some cols := by
  unfold orderColumns
  split_ifs
  · obtain ⟨c,cs,hc⟩ := List.exists_cons_of_ne_nil h
    exact ⟨[c.name],by rw [hc]; rfl⟩
  · exact ⟨_,rfl⟩

end Rows

section Pages
variable {β : Type} [LinearOrder β] {str : β → PyText} {db db' : Database β} {t t' : Table β}
  {tableName : PyText} {cols : List PyText} {page pageSize : ℕ}

/-- No masked column is ordered by, and the columns that are tell the rows apart. -/
structure OpenKeys (tableName : PyText) (t : Table β) : Prop where
  unmasked : ∀ cols, orderColumns t=some cols → ∀ c ∈ cols, (tableName,c) ∉ maskedColumns
  distinct : ∀ cols, orderColumns t=some cols → (t.rows.map (orderKey cols)).Nodup

lemma getTableData_eq (o : Ordering β) (ht : db.get? tableName=some t)
    (hcols : orderColumns t=some cols) : getTableData str o db tableName page pageSize=
      .ok ⟨tableName,t.columns.map fun c => ⟨c.name,c.type,c.nullable,c.name ∈ t.primaryKey⟩,
        (pageOf pageSize page ((o cols).pick t.rows)).map (displayRow str tableName t.columns),
        t.rows.length,page,pageSize⟩ := by
  simp [getTableData,ht,hcols,OrderBy.page]

lemma getTableData_ok {o : Ordering β} {data : TableData}
    (h : getTableData str o db tableName page pageSize=.ok data) :
    ∃ t cols, db.get? tableName=some t ∧ orderColumns t=some cols := by
  unfold getTableData at h
  cases ht : db.get? tableName with
  | none =>
    rw [ht] at h
    cases h
  | some t =>
    rw [ht] at h
    cases hcols : orderColumns t with
    | none =>
      dsimp only at h
      rw [hcols] at h
      cases h
    | some cols => exact ⟨t,cols,rfl,hcols⟩

variable (str) in
/-- The rows that are shown, in the order in which they are shown. -/
lemma SameTable.rows_eq (h : SameTable tableName t t') (hkeys : OpenKeys tableName t)
    (hcols : orderColumns t=some cols) (o o' : OrderBy (orderKey (β := β) cols)) :
    (o.pick t.rows).map (displayRow str tableName t.columns)=
      (o'.pick t'.rows).map (displayRow str tableName t.columns) := by
  refine (o.ordered t.rows).map_eq (o'.ordered t'.rows) ?_ (hkeys.distinct cols hcols)
  apply List.Perm.of_eq
  rw [← List.forall₂_eq_eq_eq,List.forall₂_map_left_iff,List.forall₂_map_right_iff]
  refine h.rows.imp ?_
  intro row row' hrow
  rw [hrow.orderKey_eq (hkeys.unmasked cols hcols),hrow.displayRow_eq]

/-- Nothing is shown of what is no table. -/
lemma getTableData_notFound (o : Ordering β) (htable : tableName ∉ getValidTables db) :
    getTableData str o db tableName page pageSize=
      .error (.http 404 (text "Tabelle nicht gefunden.")) := by
  have hget : db.get? tableName=none := by
    rw [getValidTables,mem_sortBy,Dict.mem_keys_iff] at htable
    exact Option.eq_none_iff_forall_ne_some.mpr fun v hv => htable ⟨v,hv⟩
  rw [getTableData,hget]

lemma getTableData_same (h : SameButSecrets db db')
    (hkeys : ∀ name t, db.get? name=some t → OpenKeys name t) (o o' : Ordering β) :
    getTableData str o db tableName page pageSize=getTableData str o' db' tableName page pageSize := by
  have hsame := h tableName
  cases ht : db.get? tableName with
  | none =>
    rw [ht] at hsame
    cases ht' : db'.get? tableName with
    | none => simp [getTableData,ht,ht']
    | some t' =>
      rw [ht'] at hsame
      cases hsame
  | some t =>
    rw [ht] at hsame
    cases ht' : db'.get? tableName with
    | none =>
      rw [ht'] at hsame
      cases hsame
    | some t' =>
      rw [ht'] at hsame
      obtain ⟨hsame⟩ := hsame
      cases hcols : orderColumns t with
      | none => simp [getTableData,ht,ht',hcols,hsame.orderColumns_eq ▸ hcols]
      | some cols =>
        have hrows := hsame.rows_eq str (hkeys _ t ht) hcols (o cols) (o' cols)
        rw [getTableData_eq o ht hcols,getTableData_eq o' ht' (hsame.orderColumns_eq ▸ hcols),
          ← hsame.columns,← hsame.primaryKey,← hsame.rows.length_eq]
        simp only [pageOf,List.map_take,List.map_drop,hrows]

/-- All pages of a table, each fetched by a query of its own. -/
def allRows (str : β → PyText) (db : Database β) (tableName : PyText) (pageSize : ℕ)
    (orders : ℕ → Ordering β) : List (List (PyText × Option PyText)) :=
  allPages (fun o page => ((getTableData str o db tableName page pageSize).toOption.map fun data =>
    (data.rows,data.total)).getD ([],0)) pageSize orders

lemma allRows_perm (ht : db.get? tableName=some t) (hcolumns : t.columns ≠ [])
    (hkeys : OpenKeys tableName t) (hsize : 0 < pageSize) (orders : ℕ → Ordering β) :
    (allRows str db tableName pageSize orders).Perm
      (t.rows.map (displayRow str tableName t.columns)) := by
  obtain ⟨cols,hcols⟩ := exists_orderColumns hcolumns
  have hdistinct := hkeys.distinct cols hcols
  have hall : allRows str db tableName pageSize orders=
      (firstPages pageSize (fun page => (orders page cols).pick t.rows)
        (pageCount pageSize t.rows.length)).map (displayRow str tableName t.columns) := by
    simp [allRows,allPages,getTableData_eq _ ht hcols,Except.toOption,firstPages,List.map_flatMap]
  have hpages := (pages_perm_iff (f := id) hsize hdistinct.of_map fun _ _ _ _ heq => heq).mpr
    (fun n k => not_splitsAt_of_nodup hdistinct (n*pageSize) k)
    (fun page => (orders page cols).pick t.rows) fun page => (orders page cols).ordered t.rows
  rw [List.map_id,List.map_id] at hpages
  rw [hall]
  exact hpages.map _

/-- No page of any table tells databases apart that differ in masked values only, whichever way rows are
fetched; masked cells are empty or masked; the pages of a table show each of its rows once; and no other
name has a page. -/
theorem tables_hide_secrets (h : SameButSecrets db db')
    (hkeys : ∀ name t, db.get? name=some t → OpenKeys name t) :
    (∀ (o o' : Ordering β) tableName page pageSize,
      getTableData str o db tableName page pageSize=getTableData str o' db' tableName page pageSize) ∧
    (∀ (o : Ordering β) tableName page pageSize data,
      getTableData str o db tableName page pageSize=.ok data → ∀ row ∈ data.rows, ∀ cell ∈ row,
        (tableName,cell.1) ∈ maskedColumns → cell.2=none ∨ cell.2=some maskedValue) ∧
    (∀ tableName t pageSize, db.get? tableName=some t → t.columns ≠ [] → 0 < pageSize →
      ∀ orders : ℕ → Ordering β, (allRows str db tableName pageSize orders).Perm
        (t.rows.map (displayRow str tableName t.columns))) ∧
    ∀ (o : Ordering β) tableName page pageSize, tableName ∉ getValidTables db →
      getTableData str o db tableName page pageSize=
        .error (.http 404 (text "Tabelle nicht gefunden.")) := by
  refine ⟨fun o o' _ _ _ => getTableData_same h hkeys o o',?_,?_,?_⟩
  · intro o tableName page pageSize data hdata row hrow cell hcell hmasked
    obtain ⟨t,cols,ht,hcols⟩ := getTableData_ok hdata
    rw [getTableData_eq o ht hcols] at hdata
    cases hdata
    obtain ⟨row,-,rfl⟩ := List.mem_map.mp hrow
    exact displayRow_masked hcell hmasked
  · intro tableName t pageSize ht hcolumns hsize orders
    exact allRows_perm ht hcolumns (hkeys tableName t ht) hsize orders
  · intro o tableName page pageSize htable
    exact getTableData_notFound o htable

end Pages

/-- Two sessions of one member; `n` is their secret. -/
def sessionsTable (n : ℕ) : Table ℕ where
  columns := [⟨text "id",text "UUID",false⟩,⟨text "jti",text "VARCHAR",false⟩,
    ⟨text "refresh_token_hash",text "VARCHAR",true⟩]
  primaryKey := [text "id"]
  rows := [fun c => if c=text "id" then some 2 else if c=text "jti" then some n else none,
    fun c => if c=text "id" then some 1 else if c=text "jti" then some (n+1) else none]

def sessionsDatabase (n : ℕ) : Database ℕ := Dict.empty.set (text "sessions") (sessionsTable n)

def decimalText (n : ℕ) : PyText := (Nat.toDigits 10 n).map codePoint

def stableOrdering : Ordering ℕ := fun columns => .stable (orderKey columns)

/-- The browser shows the same of two secrets. -/
theorem tables_hide_secrets_sessions :
    getTableData decimalText stableOrdering (sessionsDatabase 7) (text "sessions") 1 50=
      getTableData decimalText stableOrdering (sessionsDatabase 8) (text "sessions") 1 50 := by
  have hget : ∀ n name, (sessionsDatabase n).get? name=
      if name=text "sessions" then some (sessionsTable n) else none := by
    intro n name
    rw [sessionsDatabase,Dict.get?_set,Dict.get?_empty]
  have hrow : ∀ (id n n' : ℕ), SameRow (text "sessions")
      (fun c => if c=text "id" then some id else if c=text "jti" then some n else none)
      (fun c => if c=text "id" then some id else if c=text "jti" then some n' else none) := by
    intro id n n' c
    by_cases hjti : c=text "jti"
    · have hne : text "jti" ≠ text "id" := by decide
      have hmasked : (text "sessions",text "jti") ∈ maskedColumns := by decide
      subst hjti
      simp [hne,hmasked]
    · simp [hjti]
  have hsame : SameButSecrets (sessionsDatabase 7) (sessionsDatabase 8) := by
    intro name
    rw [hget,hget]
    split_ifs with hname
    · subst hname
      exact .some ⟨rfl,rfl,.cons (hrow _ _ _) (.cons (hrow _ _ _) .nil)⟩
    · exact .none
  have hkeys : ∀ name t, (sessionsDatabase 7).get? name=some t → OpenKeys name t := by
    intro name t ht
    rw [hget] at ht
    split_ifs at ht with hname
    cases ht
    subst hname
    constructor
    · intro cols hcols
      cases hcols
      decide
    · intro cols hcols
      cases hcols
      decide
  exact (tables_hide_secrets hsame hkeys).1 stableOrdering stableOrdering (text "sessions") 1 50

end VbApi.System
