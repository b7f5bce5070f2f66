import VbApi.P4x.FilterHits

/-! The categories themselves: they are created, changed and deleted, and the deletion is guarded by
the rows that use them. The foreign keys hold for every row, also for a direct that is set aside. -/
namespace VbApi.P4x.Categories
open VbApi.Foundations

/-- The columns of a category that its uses do not read. -/
structure CategoryDetails where
  label : PyText
  backgroundColor : PyText
  textColor : PyText
  isProtected : Bool

/-- The finance tables with the further columns of the categories, by their ids. -/
structure CategoryTables where
  store : Store
  details : Uuid → CategoryDetails

/-- `#([0-9a-fA-F]{3}|[0-9a-fA-F]{6})`. -/
def hexColorRegex : PyText → Bool
  | c::rest => c=codePoint '#' && (rest.length=3 || rest.length=6) && rest.all isHexDigit
  | [] => false
where
  isHexDigit (c : CodePoint) : Bool :=
    (48 ≤ c.val && c.val ≤ 57) || (65 ≤ c.val && c.val ≤ 70) || (97 ≤ c.val && c.val ≤ 102)

/-- A validated request: its fields keep the bounds of the schema. -/
structure CategorySaveRequest where
  name : PyText
  label : PyText
  backgroundColor : PyText
  textColor : PyText
  name_length : name.length ≤ 64
  label_length : label.length ≤ 32
  background_format : hexColorRegex backgroundColor=true
  text_format : hexColorRegex textColor=true

def CategoryRowValid (tables : CategoryTables) (c : P4xCategory) : Prop :=
  Storable c.name ∧ Storable (tables.details c.id).label ∧
  hexColorRegex (tables.details c.id).backgroundColor=true ∧
  hexColorRegex (tables.details c.id).textColor=true

instance (tables : CategoryTables) (c : P4xCategory) : Decidable (CategoryRowValid tables c) :=
  inferInstanceAs (Decidable (_ ∧ _))

/-- What the tables enforce, the categories included. -/
def CategoryConstraints (tables : CategoryTables) : Prop :=
  DbConstraints tables.store ∧ (tables.store.categories.map (·.id)).Nodup ∧
  (tables.store.categories.map (·.name)).Nodup ∧
  ∀ c ∈ tables.store.categories, CategoryRowValid tables c

instance (tables : CategoryTables) : Decidable (CategoryConstraints tables) :=
  inferInstanceAs (Decidable (_ ∧ _))

def commitCategories (tables : CategoryTables) : Except OpError CategoryTables :=
  if CategoryConstraints tables then .ok tables else .error .databaseError

def getCategoryOr404 (s : Store) (id : Uuid) : Except OpError P4xCategory :=
  match s.categories.find? fun c => c.id=id with
  | some c => .ok c
  | none => .error (.http 404 "Kategorie nicht gefunden.")

/-- The filters and the live directs of a category. -/
def getCategoryUsage (s : Store) (category : P4xCategory) : ℕ × ℕ :=
  (s.filters.countP fun f => f.p4xCategoryId=category.id,
    s.directs.countP fun d => d.p4xCategoryId=category.id && d.active)

/-- The details that a request gives a category; it cannot protect one. -/
def CategorySaveRequest.details (data : CategorySaveRequest) (isProtected : Bool) :
    CategoryDetails :=
  ⟨data.label,data.backgroundColor,data.textColor,isProtected⟩

def createCategory (tables : CategoryTables) (data : CategorySaveRequest) :
    Except OpError CategoryTables := do
  let s := tables.store
  guardError (∀ c ∈ s.categories, c.name ≠ data.name) (.http 409 "Name muss eindeutig sein.")
  commitCategories {
    store := { s with
      categories := s.categories ++ [⟨s.nextUuid,data.name⟩], nextUuid := s.nextUuid+1 }
    details := Function.update tables.details s.nextUuid (data.details false) }

def updateCategory (tables : CategoryTables) (category : P4xCategory) (data : CategorySaveRequest) :
    Except OpError CategoryTables := do
  let s := tables.store
  guardError (∀ c ∈ s.categories, c.name=data.name → c.id=category.id)
    (.http 409 "Name muss eindeutig sein.")
  commitCategories {
    store := { s with categories := s.categories.map fun c =>
        if c.id=category.id then { c with name := data.name } else c }
    details := Function.update tables.details category.id
      (data.details (tables.details category.id).isProtected) }

/-- The tables without a category. -/
def withoutCategory (tables : CategoryTables) (category : P4xCategory) : CategoryTables :=
  { tables with store := { tables.store with
      categories := tables.store.categories.filter fun c => c.id ≠ category.id } }

/-- Delete a category; the session would empty the references to it, which no column allows. -/
def deleteCategory (tables : CategoryTables) (category : P4xCategory) :
    Except OpError CategoryTables := do
  if (tables.details category.id).isProtected then
    throw (.refused "Geschützte Kategorien können nicht gelöscht werden.")
  else
    let usage := getCategoryUsage tables.store category
    if usage.1 > 0 ∨ usage.2 > 0 then
      throw (.refused "Kategorie ist in Verwendung und kann nicht gelöscht werden.")
    else commitCategories (withoutCategory tables category)

/-- Every filter and every direct, live or set aside, names a present category. -/
structure NoDanglingCategory (s : Store) : Prop where
  filters : ∀ f ∈ s.filters, ∃ c ∈ s.categories, c.id=f.p4xCategoryId
  directs : ∀ d ∈ s.directs, ∃ c ∈ s.categories, c.id=d.p4xCategoryId

/-- A deletion is refused, or it removes the category and leaves no reference to it. -/
def DeletionLaw (tables : CategoryTables) (category : P4xCategory) : Prop :=
  (∃ message, deleteCategory tables category=.error (.refused message)) ∨
  ∃ tables', deleteCategory tables category=.ok tables' ∧
    category.id ∉ tables'.store.categories.map (·.id) ∧ NoDanglingCategory tables'.store

section Deletion
variable {tables : CategoryTables} {category : P4xCategory}

lemma CategoryConstraints.noDangling (h : CategoryConstraints tables) :
    NoDanglingCategory tables.store := by
  obtain ⟨⟨-,hfilters,-,-,hdirects,-,-⟩,-⟩ := h
  exact ⟨fun f hf => (hfilters f hf).2.1,fun d hd => (hdirects d hd).2.1⟩

lemma commitCategories_eq_ok {tables' : CategoryTables} (h : commitCategories tables=.ok tables') :
    tables'=tables ∧ CategoryConstraints tables := by
  unfold commitCategories at h
  split_ifs at h with hvalid
  cases h
  exact ⟨rfl,hvalid⟩

/-- The guard of the deletion. -/
def UsedCategory (tables : CategoryTables) (category : P4xCategory) : Prop :=
  (tables.details category.id).isProtected=true ∨
  (∃ f ∈ tables.store.filters, f.p4xCategoryId=category.id) ∨
  ∃ d ∈ tables.store.directs, d.active=true ∧ d.p4xCategoryId=category.id

lemma deleteCategory_used (h : UsedCategory tables category) :
    ∃ message, deleteCategory tables category=.error (.refused message) := by
  unfold deleteCategory
  dsimp only
  split_ifs with hprotected husage
  · exact ⟨_,rfl⟩
  · exact ⟨_,rfl⟩
  · refine absurd ?_ husage
    rcases h with hp | ⟨f,hf,hcategory⟩ | ⟨d,hd,hactive,hcategory⟩
    · exact absurd hp hprotected
    · refine Or.inl (List.countP_pos_iff.mpr ⟨f,hf,?_⟩)
      exact decide_eq_true hcategory
    · refine Or.inr (List.countP_pos_iff.mpr ⟨d,hd,?_⟩)
      rw [hactive,Bool.and_true]
      exact decide_eq_true hcategory

lemma deleteCategory_unused (h : ¬ UsedCategory tables category) :
    deleteCategory tables category=commitCategories (withoutCategory tables category) := by
  simp only [UsedCategory,not_or,not_exists,not_and] at h
  obtain ⟨hprotected,hfilters,hdirects⟩ := h
  unfold deleteCategory
  rw [if_neg hprotected]
  have hfilter : (getCategoryUsage tables.store category).1=0 := by
    rw [getCategoryUsage,List.countP_eq_zero]
    intro f hf
    simpa using hfilters f hf
  have hdirect : (getCategoryUsage tables.store category).2=0 := by
    rw [getCategoryUsage,List.countP_eq_zero]
    intro d hd
    simp only [Bool.and_eq_true,decide_eq_true_eq,not_and,Bool.not_eq_true]
    intro hcategory
    rw [← Bool.not_eq_true]
    exact fun hactive => hdirects d hd hactive hcategory
  rw [if_neg (by rw [hfilter,hdirect]; omega)]

/-- A category that no filter uses can go exactly when no direct at all names it. -/
lemma withoutCategory_constraints_iff (h : CategoryConstraints tables)
    (hfilters : ∀ f ∈ tables.store.filters, f.p4xCategoryId ≠ category.id) :
    CategoryConstraints (withoutCategory tables category) ↔
      ∀ d ∈ tables.store.directs, d.p4xCategoryId ≠ category.id := by
  have hkept : ∀ id, id ≠ category.id → (∃ c ∈ tables.store.categories, c.id=id) →
      ∃ c ∈ (withoutCategory tables category).store.categories, c.id=id := by
    rintro id hne ⟨c,hc,rfl⟩
    exact ⟨c,List.mem_filter.mpr ⟨hc,decide_eq_true hne⟩,rfl⟩
  constructor
  · intro hvalid d hd hcategory
    obtain ⟨c,hc,hid⟩ := hvalid.noDangling.directs d hd
    have hne : c.id ≠ category.id := of_decide_eq_true (List.mem_filter.mp hc).2
    exact hne (hid.trans hcategory)
  · intro hdirects
    obtain ⟨⟨hnames,hfilterRows,hhits,hunique,hrows,hhashes,htransactions⟩,hids,hcategoryNames,
      hcategories⟩ := h
    refine ⟨⟨hnames,?_,hhits,hunique,?_,hhashes,htransactions⟩,?_,?_,?_⟩
    · intro f hf
      obtain ⟨haccount,hcategory,hrest⟩ := hfilterRows f hf
      exact ⟨haccount,hkept _ (hfilters f hf) hcategory,hrest⟩
    · intro d hd
      obtain ⟨htransaction,hcategory,hamount⟩ := hrows d hd
      exact ⟨htransaction,hkept _ (hdirects d hd) hcategory,hamount⟩
    · exact hids.sublist (List.filter_sublist.map _)
    · exact hcategoryNames.sublist (List.filter_sublist.map _)
    · intro c hc
      exact hcategories c (List.mem_of_mem_filter hc)

/-- The law fails only for an unprotected category without filters and live directs that a direct
set aside names. -/
lemma deletionLaw_iff (h : CategoryConstraints tables) : DeletionLaw tables category ↔
    UsedCategory tables category ∨
      ∀ d ∈ tables.store.directs, d.p4xCategoryId ≠ category.id := by
  by_cases hused : UsedCategory tables category
  · exact iff_of_true (Or.inl (deleteCategory_used hused)) (Or.inl hused)
  · have hfilters : ∀ f ∈ tables.store.filters, f.p4xCategoryId ≠ category.id :=
      fun f hf hcategory => hused (Or.inr (Or.inl ⟨f,hf,hcategory⟩))
    rw [DeletionLaw,deleteCategory_unused hused,or_iff_right hused,
      ← withoutCategory_constraints_iff h hfilters]
    constructor
    · rintro (⟨message,hrefused⟩ | ⟨tables',hcommit,-⟩)
      · unfold commitCategories at hrefused
        split_ifs at hrefused
        cases hrefused
      · exact (commitCategories_eq_ok hcommit).2
    · intro hvalid
      refine Or.inr ⟨_,if_pos hvalid,?_,hvalid.noDangling⟩
      intro hmem
      obtain ⟨c,hc,hid⟩ := List.mem_map.mp hmem
      have hne : c.id ≠ category.id := of_decide_eq_true (List.mem_filter.mp hc).2
      exact hne hid

end Deletion

section Runs
variable (lower : PyText → PyText) (sha256 : List Char → String)

/-- A request on the categories, or one of the requests on filters, directs and transactions. -/
inductive CategoriesOp
  | createCategory (data : CategorySaveRequest)
  | updateCategory (categoryId : Uuid) (data : CategorySaveRequest)
  | deleteCategory (categoryId : Uuid)
  | uses (op : CategoryOp)

def CategoriesOp.perform (tables : CategoryTables) : CategoriesOp → Except OpError CategoryTables
  | .createCategory data => Categories.createCategory tables data
  | .updateCategory categoryId data => do
    Categories.updateCategory tables (← getCategoryOr404 tables.store categoryId) data
  | .deleteCategory categoryId => do
    Categories.deleteCategory tables (← getCategoryOr404 tables.store categoryId)
  | .uses op => do
    commitCategories { tables with store := ← op.perform lower sha256 tables.store }

/-- The tables after a request; one that raises is rolled back. -/
def CategoriesOp.after (tables : CategoryTables) (op : CategoriesOp) : CategoryTables :=
  match op.perform lower sha256 tables with
  | .ok tables' => tables'
  | .error _ => tables

def categoriesMachine : Machine CategoryTables CategoriesOp where
  step tables op := some (op.after lower sha256 tables)

/-- Every request that goes through ends in a commit. -/
lemma perform_committed {tables tables' : CategoryTables} {op : CategoriesOp}
    (h : op.perform lower sha256 tables=.ok tables') : CategoryConstraints tables' := by
  have hcommit : ∃ uncommitted, commitCategories uncommitted=.ok tables' := by
    cases op with
    | createCategory data =>
      simp only [CategoriesOp.perform,createCategory,bind_eq_ok_iff] at h
      obtain ⟨-,-,hcommit⟩ := h
      exact ⟨_,hcommit⟩
    | updateCategory categoryId data =>
      simp only [CategoriesOp.perform,updateCategory,bind_eq_ok_iff] at h
      obtain ⟨c,-,-,-,hcommit⟩ := h
      exact ⟨_,hcommit⟩
    | deleteCategory categoryId =>
      simp only [CategoriesOp.perform,bind_eq_ok_iff] at h
      obtain ⟨c,-,hdelete⟩ := h
      by_cases hused : UsedCategory tables c
      · obtain ⟨message,hrefused⟩ := deleteCategory_used hused
        rw [hrefused] at hdelete
        cases hdelete
      · rw [deleteCategory_unused hused] at hdelete
        exact ⟨_,hdelete⟩
    | uses op =>
      simp only [CategoriesOp.perform,bind_eq_ok_iff] at h
      obtain ⟨s,-,hcommit⟩ := h
      exact ⟨_,hcommit⟩
  obtain ⟨uncommitted,hcommit⟩ := hcommit
  obtain ⟨rfl,hvalid⟩ := commitCategories_eq_ok hcommit
  exact hvalid

lemma constraints_of_reaches {tables₀ tables : CategoryTables} (h : CategoryConstraints tables₀)
    (hrun : (categoriesMachine lower sha256).Reaches Machine.Any tables₀ tables) :
    CategoryConstraints tables := by
  refine hrun.invariant h ?_
  intro t op u ht _ hstep
  obtain rfl := Option.some.inj hstep
  unfold CategoriesOp.after
  cases hop : op.perform lower sha256 t with
  | error e => exact ht
  | ok t' => exact perform_committed lower sha256 hop

/-- In every reachable state no filter and no direct names a missing category, and a deletion is refused
or goes through, except for an unprotected category that is used by directs set aside only. -/
theorem deletion_iff {tables₀ tables : CategoryTables} (h : CategoryConstraints tables₀)
    (hrun : (categoriesMachine lower sha256).Reaches Machine.Any tables₀ tables)
    (category : P4xCategory) :
    NoDanglingCategory tables.store ∧ (DeletionLaw tables category ↔
      UsedCategory tables category ∨
        ∀ d ∈ tables.store.directs, d.p4xCategoryId ≠ category.id) :=
  have hvalid := constraints_of_reaches lower sha256 h hrun
  ⟨hvalid.noDangling,deletionLaw_iff hvalid⟩

end Runs

/-- The tables of `beitragStore`, whose only booking carries id 11. -/
def beitragTables : CategoryTables := ⟨beitragStore,fun _ => ⟨[],text "#fff",text "#000",false⟩⟩

def membershipCategory : P4xCategory := ⟨2,text "eingang.mitgliedsbeitrag"⟩

def performed (ops : List CategoriesOp) : CategoryTables :=
  ops.foldl (fun tables op => op.after id (fun _ => "h") tables) beitragTables

/-- The booking is assigned to the category, and the assignment is taken back. -/
def assignedOnce : List CategoriesOp :=
  [.uses (.setCategoryDirect 11 20 [⟨some 2,.decimal 25⟩]),.uses (.unsetCategoryDirect 11 21)]

lemma performed_reaches (ops : List CategoriesOp) :
    (categoriesMachine id fun _ => "h").Reaches Machine.Any beitragTables (performed ops) := by
  have hrun : ∀ tables, (categoriesMachine id fun _ => "h").run tables ops=
      some (ops.foldl (fun tables op => op.after id (fun _ => "h") tables) tables) := by
    induction ops with
    | nil => intro tables; rfl
    | cons op ops ih => intro tables; exact ih _
  exact Machine.reaches_of_run (Machine.meets_any _ ops) (hrun beitragTables)

lemma beitragTables_constraints : CategoryConstraints beitragTables := by decide +kernel

def donations : CategorySaveRequest where
  name := text "ausgang.spende"
  label := text "Spende"
  backgroundColor := text "#fff"
  textColor := text "#000"
  name_length := by decide
  label_length := by decide
  background_format := by decide
  text_format := by decide

/-- The assignment is taken back, and another category is created. -/
def unusedCategory : CategoryTables := performed (assignedOnce ++ [.createCategory donations])

/-- The category of the filter is refused, the new one goes. -/
theorem deletion_unusedCategory :
    UsedCategory unusedCategory membershipCategory ∧
    ¬ UsedCategory unusedCategory ⟨12,text "ausgang.spende"⟩ ∧
    (⟨12,text "ausgang.spende"⟩ : P4xCategory) ∈ unusedCategory.store.categories ∧
    DeletionLaw unusedCategory membershipCategory ∧
    DeletionLaw unusedCategory ⟨12,text "ausgang.spende"⟩ := by
  have hused : UsedCategory unusedCategory membershipCategory := by
    unfold UsedCategory
    decide +kernel
  have hunused : ¬ UsedCategory unusedCategory ⟨12,text "ausgang.spende"⟩ := by
    unfold UsedCategory
    decide +kernel
  refine ⟨hused,hunused,by decide +kernel,?_,?_⟩
  · exact (deletion_iff id (fun _ => "h") beitragTables_constraints (performed_reaches _) _).2.mpr
      (Or.inl hused)
  · exact (deletion_iff id (fun _ => "h") beitragTables_constraints (performed_reaches _) _).2.mpr
      (Or.inr (by decide +kernel))

/-- The filter is deleted and no direct is live, but one that is set aside still names the category. -/
theorem deletion_fails :
    membershipCategory ∈ (performed (assignedOnce ++ [.uses (.deleteCategoryFilter 10)])).store.categories ∧
    (categoriesMachine id fun _ => "h").Reaches Machine.Any beitragTables
      (performed (assignedOnce ++ [.uses (.deleteCategoryFilter 10)])) ∧
    ¬ DeletionLaw (performed (assignedOnce ++ [.uses (.deleteCategoryFilter 10)]))
      membershipCategory := by
  refine ⟨by decide +kernel,performed_reaches _,?_⟩
  rw [deletionLaw_iff (constraints_of_reaches id (fun _ => "h") beitragTables_constraints
    (performed_reaches _))]
  unfold UsedCategory
  decide +kernel

end VbApi.P4x.Categories
