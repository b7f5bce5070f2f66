import VbApi.Members.Permissions
import VbApi.Foundations.Periods
import VbApi.Foundations.IsoDate

/-! `validate_roles_history`: the periods of a member's role entries against each other and against
those of the other members of the organisation. -/
namespace VbApi.Members
open VbApi.Foundations
open VbApi.Standesdb (Uuid)

def RoleEntry.period (e : RoleEntry) : Period Date := ⟨e.startdate,e.enddate⟩

def RoleHistoryEntry.entry (e : RoleHistoryEntry) : RoleEntry := ⟨e.id,e.startdate,e.enddate⟩

/-- `_ranges_overlap`. -/
def rangesOverlap (start1 : Date) (end1 : Option Date) (start2 : Date) (end2 : Option Date) : Bool :=
  match end1,end2 with
  | some end1,some end2 => start1 < end2 && end1 > start2
  | some end1,none => end1 > start2
  | none,some end2 => start1 < end2
  | none,none => true

lemma rangesOverlap_eq_true_iff (a b : RoleEntry) :
    rangesOverlap a.startdate a.enddate b.startdate b.enddate=true ↔ a.period.Overlaps b.period := by
  cases ha : a.enddate <;> cases hb : b.enddate <;>
    simp [rangesOverlap,Period.Overlaps,RoleEntry.period,ha,hb]

/-- `_format_date`. -/
def formatDate : Option Date → PyText
  | none => text "laufend"
  | some d =>
    let months := ["","Jänner","Februar","März","April","Mai","Juni","Juli","August","September",
      "Oktober","November","Dezember"]
    padded 1 d.day ++ text ". " ++ text (months.getD d.month "") ++ text " " ++ padded 1 d.year

/-- `Member.cn`. -/
def Member.cn (m : Member) : PyText :=
  let name := strip ((m.columns.text .vorname).getD [] ++ text " " ++
    (m.columns.text .nachname).getD [])
  let couleurname := (m.columns.text .couleurname).getD []
  let mark := if m.columns.flag .verstorben || m.columns.flag .entlassen then text " wl. "
    else text " v/o "
  let full := if name ≠ [] && couleurname ≠ [] then name ++ mark ++ couleurname
    else if couleurname ≠ [] then couleurname else name
  join (text " ") (splitWords full)

/-- The label under which an entry appears in an error. -/
def entryLabel (roles : List Role) (e : RoleHistoryEntry) : PyText :=
  let roleLabel := ((roles.find? fun r => r.id=e.id).bind Role.label).filter (· ≠ [])
  (e.label.filter (· ≠ [])).getD (roleLabel.getD e.id)

/-- `combinations(xs, 2)`. -/
def combinations {α : Type} : List α → List (α × α)
  | [] => []
  | x::xs => (xs.map fun y => (x,y)) ++ combinations xs

lemma combinations_find?_eq_none_iff {α : Type} {p : α → α → Bool} {xs : List α} :
    (combinations xs).find? (fun q => p q.1 q.2)=none ↔ xs.Pairwise fun x y => p x y=false := by
  induction xs with
  | nil => simp [combinations]
  | cons x xs ih =>
    rw [combinations,List.find?_append,Option.or_eq_none_iff,ih,List.pairwise_cons]
    simp [List.find?_eq_none]

/-- The roles in the order in which entries first name them. -/
def roleIdsOf (entries : List RoleHistoryEntry) : List RoleId :=
  entries.foldl (fun ids e => if e.id ∈ ids then ids else ids ++ [e.id]) []

/-- Entries that end before they have started. -/
def periodErrors (roles : List Role) (entries : List RoleHistoryEntry) : List PyText :=
  entries.filterMap fun e =>
    if e.enddate.any fun stop => stop ≤ e.startdate then
      some (text "Startdatum von Rolle \"" ++ entryLabel roles e ++ text "\" muss vor Enddatum liegen.")
    else none

/-- For each role the first two entries of the member that overlap. -/
def overlapErrors (roles : List Role) (entries : List RoleHistoryEntry) : List PyText :=
  (roleIdsOf entries).filterMap fun id =>
    let group := entries.filter fun e => e.id=id
    let overlapping := (combinations group).find? fun q =>
      rangesOverlap q.1.startdate q.1.enddate q.2.startdate q.2.enddate
    overlapping.map fun q =>
      text "Die Zeiträume für die Rolle \"" ++ entryLabel roles q.1 ++ text "\" überschneiden sich."

/-- The entries of the other members of an organisation. -/
def otherEntries (db : Database) (orgId : PyText) (memberId : Uuid) : List (Member × RoleEntry) :=
  (db.members.entries.filter fun row =>
    row.2.columns.text .orgId=some orgId && row.1 ≠ memberId).flatMap fun row =>
      row.2.memberRoles.map fun e => (row.2,e)

/-- The condition of the query for a role that is taken in the period. -/
def isTaken (e : RoleHistoryEntry) (other : RoleEntry) : Bool :=
  other.roleId=e.id &&
  match e.enddate with
  | some stop =>
    (other.startdate < stop && other.enddate.any fun otherStop => otherStop > e.startdate) ||
    (other.startdate < stop && other.enddate=none)
  | none => (other.enddate.any fun otherStop => otherStop > e.startdate) || other.enddate=none

lemma isTaken_eq_true_iff (e : RoleHistoryEntry) (other : RoleEntry) :
    isTaken e other=true ↔ other.roleId=e.id ∧ e.entry.period.Overlaps other.period := by
  cases he : e.enddate <;> cases ho : other.enddate <;>
    simp [isTaken,Period.Overlaps,RoleEntry.period,RoleHistoryEntry.entry,he,ho,and_comm]

/-- For each entry the first other member who has the role in the period. -/
def takenErrors (db : Database) (entries : List RoleHistoryEntry) (orgId : PyText) (memberId : Uuid) :
    List PyText :=
  entries.filterMap fun e =>
    ((otherEntries db orgId memberId).find? fun o => isTaken e o.2).map fun o =>
      text "Der Zeitraum für die Rolle \"" ++ entryLabel db.roles e ++ text "\" (" ++
      formatDate (some e.startdate) ++ text " - " ++ formatDate e.enddate ++
      text ") ist durch \"" ++ o.1.cn ++ text "\" belegt (" ++
      formatDate (some o.2.startdate) ++ text " - " ++ formatDate o.2.enddate ++ text ")."

def validateRolesHistory (db : Database) (entries : List RoleHistoryEntry) (orgId : PyText)
    (memberId : Uuid) : Except SaveError Unit := do
  if entries=[] then return
  guardError (periodErrors db.roles entries=[]) (.http 422 (periodErrors db.roles entries))
  guardError (overlapErrors db.roles entries=[]) (.http 422 (overlapErrors db.roles entries))
  guardError (takenErrors db entries orgId memberId=[])
    (.http 422 (takenErrors db entries orgId memberId))

/-- The periods that may be saved for a member. -/
structure RolesFit (db : Database) (entries : List RoleEntry) (orgId : PyText) (memberId : Uuid) :
    Prop where
  proper : ∀ e ∈ entries, e.period.Proper
  own : entries.Pairwise fun a b => a.roleId=b.roleId → ¬ a.period.Overlaps b.period
  others : ∀ e ∈ entries, ∀ id m, db.members.get? id=some m → id ≠ memberId →
    m.columns.text .orgId=some orgId → ∀ o ∈ m.memberRoles, o.roleId=e.roleId →
    ¬ e.period.Overlaps o.period

lemma periodErrors_eq_nil_iff {roles : List Role} {entries : List RoleHistoryEntry} :
    periodErrors roles entries=[] ↔ ∀ e ∈ entries, e.entry.period.Proper := by
  rw [periodErrors,List.filterMap_eq_nil_iff]
  apply forall₂_congr
  intro e _
  cases he : e.enddate <;>
    simp [Period.Proper,RoleEntry.period,RoleHistoryEntry.entry,he]

lemma mem_roleIdsOf {entries : List RoleHistoryEntry} {id : RoleId} :
    id ∈ roleIdsOf entries ↔ ∃ e ∈ entries, e.id=id := by
  have hfold : ∀ (es : List RoleHistoryEntry) (ids : List RoleId),
      id ∈ es.foldl (fun ids e => if e.id ∈ ids then ids else ids ++ [e.id]) ids ↔
        id ∈ ids ∨ ∃ e ∈ es, e.id=id := by
    intro es
    induction es with
    | nil => simp
    | cons e es ih =>
      intro ids
      rw [List.foldl_cons,ih]
      by_cases he : e.id ∈ ids
      · rw [if_pos he]
        constructor
        · rintro (hid | ⟨e',he',hid⟩)
          · exact .inl hid
          · exact .inr ⟨e',List.mem_cons_of_mem _ he',hid⟩
        · rintro (hid | ⟨e',he',hid⟩)
          · exact .inl hid
          · obtain rfl | he' := List.mem_cons.mp he'
            · exact .inl (hid ▸ he)
            · exact .inr ⟨e',he',hid⟩
      · rw [if_neg he]
        simp [or_assoc,eq_comm]
  simpa [roleIdsOf] using hfold entries []

lemma overlapErrors_eq_nil_iff {roles : List Role} {entries : List RoleHistoryEntry} :
    overlapErrors roles entries=[] ↔
      entries.Pairwise fun a b => a.id=b.id → ¬ a.entry.period.Overlaps b.entry.period := by
  have hgroup : ∀ id, ((combinations (entries.filter fun e => e.id=id)).find? fun q =>
      rangesOverlap q.1.startdate q.1.enddate q.2.startdate q.2.enddate)=none ↔
      entries.Pairwise fun a b => a.id=id → b.id=id → ¬ a.entry.period.Overlaps b.entry.period := by
    intro id
    rw [combinations_find?_eq_none_iff (p := fun a b : RoleHistoryEntry =>
      rangesOverlap a.startdate a.enddate b.startdate b.enddate),List.pairwise_filter]
    apply List.Pairwise.iff
    intro a b
    have h := rangesOverlap_eq_true_iff a.entry b.entry
    simp only [RoleHistoryEntry.entry] at h
    simp only [decide_eq_true_eq,← Bool.not_eq_true,h,RoleHistoryEntry.entry]
  rw [overlapErrors,List.filterMap_eq_nil_iff]
  simp only [Option.map_eq_none_iff,hgroup]
  constructor
  · intro h
    rw [List.pairwise_iff_forall_sublist]
    intro a b hab hid
    have ha : a ∈ entries := hab.subset List.mem_cons_self
    have hpair := h a.id (mem_roleIdsOf.mpr ⟨a,ha,rfl⟩)
    exact List.pairwise_iff_forall_sublist.mp hpair hab rfl hid.symm
  · intro h id _
    refine h.imp ?_
    intro a b hab ha hb
    exact hab (ha.trans hb.symm)

lemma mem_otherEntries {db : Database} {orgId : PyText} {memberId : Uuid} {m : Member} {o : RoleEntry} :
    (m,o) ∈ otherEntries db orgId memberId ↔ ∃ id, db.members.get? id=some m ∧ id ≠ memberId ∧
      m.columns.text .orgId=some orgId ∧ o ∈ m.memberRoles := by
  simp only [otherEntries,List.mem_flatMap,List.mem_filter,List.mem_map,Prod.mk.injEq,
    Bool.and_eq_true,decide_eq_true_eq,Dict.get?_eq_some_iff]
  constructor
  · rintro ⟨⟨id,m'⟩,⟨hmem,horg,hne⟩,e,he,rfl,rfl⟩
    exact ⟨id,hmem,hne,horg,he⟩
  · rintro ⟨id,hmem,hne,horg,ho⟩
    exact ⟨(id,m),⟨hmem,horg,hne⟩,o,ho,rfl,rfl⟩

lemma takenErrors_eq_nil_iff {db : Database} {entries : List RoleHistoryEntry} {orgId : PyText}
    {memberId : Uuid} : takenErrors db entries orgId memberId=[] ↔
      ∀ e ∈ entries, ∀ id m, db.members.get? id=some m → id ≠ memberId →
        m.columns.text .orgId=some orgId → ∀ o ∈ m.memberRoles, o.roleId=e.id →
        ¬ e.entry.period.Overlaps o.period := by
  rw [takenErrors,List.filterMap_eq_nil_iff]
  apply forall₂_congr
  intro e _
  rw [Option.map_eq_none_iff,List.find?_eq_none]
  constructor
  · intro h id m hm hne horg o ho hrole hoverlap
    apply h (m,o) (mem_otherEntries.mpr ⟨id,hm,hne,horg,ho⟩)
    exact (isTaken_eq_true_iff e o).mpr ⟨hrole,hoverlap⟩
  · rintro h ⟨m,o⟩ hmem htaken
    obtain ⟨id,hm,hne,horg,ho⟩ := mem_otherEntries.mp hmem
    obtain ⟨hrole,hoverlap⟩ := (isTaken_eq_true_iff e o).mp htaken
    exact h id m hm hne horg o ho hrole hoverlap

/-- The check passes exactly when the periods fit. -/
theorem validateRolesHistory_eq_ok_iff {db : Database} {entries : List RoleHistoryEntry}
    {orgId : PyText} {memberId : Uuid} {u : Unit} :
    validateRolesHistory db entries orgId memberId=.ok u ↔
      RolesFit db (entries.map RoleHistoryEntry.entry) orgId memberId := by
  by_cases hnil : entries=[]
  · subst hnil
    simp only [validateRolesHistory,if_true,pure_eq_ok,List.map_nil,true_iff]
    exact ⟨by simp,by simp,by simp⟩
  · simp only [validateRolesHistory,hnil,if_false,bind_eq_ok_iff,guardError_eq_ok_iff,exists_const,
      periodErrors_eq_nil_iff,overlapErrors_eq_nil_iff,takenErrors_eq_nil_iff]
    constructor
    · rintro ⟨hproper,hown,hothers⟩
      refine ⟨?_,List.pairwise_map.mpr hown,?_⟩
      · intro e he
        obtain ⟨e',he',rfl⟩ := List.mem_map.mp he
        exact hproper e' he'
      · intro e he
        obtain ⟨e',he',rfl⟩ := List.mem_map.mp he
        exact hothers e' he'
    · rintro ⟨hproper,hown,hothers⟩
      refine ⟨?_,List.pairwise_map.mp hown,?_⟩
      · intro e he
        exact hproper e.entry (List.mem_map_of_mem he)
      · intro e he
        exact hothers e.entry (List.mem_map_of_mem he)

end VbApi.Members
