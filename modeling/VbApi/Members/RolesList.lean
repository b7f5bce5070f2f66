import VbApi.Foundations.Pagination
import VbApi.Members.RolePeriods

/-! The list of the officers: for each role who holds it in either organisation, today or in a half
year. Of several holders the one who started first is shown. -/
namespace VbApi.Members
open VbApi.Foundations
open VbApi.Standesdb (Uuid)

inductive Semester
  | ws
  | ss
  deriving DecidableEq, Repr

/-- A row of `members_roles` with its member; the table has a check on the period. -/
structure MemberRole where
  memberId : Uuid
  member : Member
  entry : RoleEntry
  proper : entry.period.Proper

/-- A row of `roles` with its place in the order. -/
structure RoleRow extends Role where
  sortOrder : Option ℕ

structure RoleHolder where
  id : Uuid
  cn : PyText
  startdate : Date
  enddate : Option Date

structure RoleLine where
  label : Option PyText
  group : Option PyText
  vbw : Option RoleHolder
  vbn : Option RoleHolder

structure RolesList where
  semester : Semester
  year : ℕ
  roles : List RoleLine

/-- `ORDER BY sort_order`: a missing one comes last. -/
def roleOrder (r : RoleRow) : WithTop ℕ :=
  match r.sortOrder with
  | some n => n
  | none => ⊤

/-- `ORDER BY startdate`. -/
def assignmentStart (a : MemberRole) : Date := a.entry.startdate

def semesterWindow (year : ℕ) : Semester → Except DateError (Date × Date)
  | .ws => do return (← Date.ofParts year 8 1,← Date.ofParts (year+1) 1 31)
  | .ss => do return (← Date.ofParts year 2 1,← Date.ofParts year 7 31)

/-- The semester of a call and its window; without one it is the day of the call. -/
def requestedSemester (today : Date) (year : Option ℕ) (semester : Option Semester) :
    Except DateError (ℕ × Semester × Option (Date × Date)) :=
  match year.filter (· ≠ 0),semester with
  | some year,some semester => do return (year,semester,some (← semesterWindow year semester))
  | _,_ => .ok (today.year,if 2 ≤ today.month ∧ today.month ≤ 7 then .ss else .ws,none)

/-- The filter of the query. -/
def isListed (today : Date) (window : Option (Date × Date)) (e : RoleEntry) : Bool :=
  match window with
  | some (start,stop) => e.startdate < stop && e.enddate.all fun d => start < d
  | none => e.startdate < today && e.enddate.all fun d => today < d

def assignmentsByRole (as : List MemberRole) : Dict RoleId (List MemberRole) :=
  as.foldl (fun d a => d.set a.entry.roleId (d.getD a.entry.roleId [] ++ [a])) .empty

def roleHolder (a : MemberRole) : RoleHolder :=
  ⟨a.memberId,a.member.cn,a.entry.startdate,a.entry.enddate⟩

/-- The first holder of an organisation. -/
def firstHolder (as : List MemberRole) (orgId : PyText) : Option RoleHolder :=
  (as.find? fun a => a.member.columns.text .orgId=some orgId).map roleHolder

def getRolesList (byOrder : OrderBy roleOrder) (byStart : OrderBy assignmentStart)
    (roles : List RoleRow) (table : List MemberRole) (today : Date) (year : Option ℕ)
    (semester : Option Semester) : Except DateError RolesList := do
  let (year,semester,window) ← requestedSemester today year semester
  let roles := byOrder.pick roles
  let ids := roles.map fun r => r.id
  let listed := table.filter fun a => a.entry.roleId ∈ ids && isListed today window a.entry
  let byRole := assignmentsByRole (byStart.pick listed)
  return ⟨semester,year,roles.map fun r =>
    let as := byRole.getD r.id []
    ⟨r.label,r.group,firstHolder as (text "vbw"),firstHolder as (text "vbn")⟩⟩

/-! ### What is listed -/

/-- The entries of a role in an organisation. -/
def MemberRole.For (a : MemberRole) (roleId : RoleId) (orgId : PyText) : Prop :=
  a.entry.roleId=roleId ∧ a.member.columns.text .orgId=some orgId

/-- Who is shown of those who hold the role: only the first of them to start, and nobody only if none
of them started before the last day. -/
structure ShowsFirst (table : List MemberRole) (held : RoleEntry → Prop) (lastDay : Date)
    (roleId : RoleId) (orgId : PyText) (shown : Option RoleHolder) : Prop where
  sound : ∀ holder, shown=some holder →
    ∃ a ∈ table, a.For roleId orgId ∧ held a.entry ∧ holder=roleHolder a ∧
      ∀ b ∈ table, b.For roleId orgId → held b.entry → a.entry.startdate ≤ b.entry.startdate
  shows : ∀ a ∈ table, a.For roleId orgId → held a.entry → a.entry.startdate < lastDay →
    shown.isSome=true

/-- The lines of a list in the order of the roles. -/
def ListsRoles (byOrder : OrderBy roleOrder) (roles : List RoleRow) (table : List MemberRole)
    (held : RoleEntry → Prop) (lastDay : Date) (lines : List RoleLine) : Prop :=
  List.Forall₂ (fun (r : RoleRow) (line : RoleLine) => line.label=r.label ∧ line.group=r.group ∧
    ShowsFirst table held lastDay r.id (text "vbw") line.vbw ∧
    ShowsFirst table held lastDay r.id (text "vbn") line.vbn) (byOrder.pick roles) lines

/-- The entry is held on a day of the window. -/
def HeldWithin (start stop : Date) (e : RoleEntry) : Prop :=
  ∃ d ∈ e.period.days, start ≤ d ∧ d ≤ stop

/-- The days that the windows cover. -/
def firstWindowDay : Date := Date.of 1 2 1
def lastWindowDay : Date := Date.of 9999 7 31

/-- The window of the semester contains the day. -/
def InSemester (d : Date) (year : ℕ) (semester : Semester) : Prop :=
  ∃ start stop, semesterWindow year semester=.ok (start,stop) ∧ start ≤ d ∧ d ≤ stop

structure RolesListLaw (byOrder : OrderBy roleOrder) (byStart : OrderBy assignmentStart)
    (roles : List RoleRow) (table : List MemberRole) : Prop where
  covers : ∀ d, firstWindowDay ≤ d → d ≤ lastWindowDay →
    ∃! p : ℕ × Semester, InSemester d p.1 p.2
  current : ∀ today, ∃ list,
    getRolesList byOrder byStart roles table today none none=.ok list ∧
    (today.month ≠ 1 → today ≤ lastWindowDay → InSemester today list.year list.semester) ∧
    ListsRoles byOrder roles table (fun e => e.isActive today=true) today list.roles
  semester : ∀ today year semester start stop, semesterWindow year semester=.ok (start,stop) →
    ∃ list, getRolesList byOrder byStart roles table today (some year) (some semester)=.ok list ∧
      list.year=year ∧ list.semester=semester ∧
      ListsRoles byOrder roles table (HeldWithin start stop) stop list.roles

/-! ### The windows -/

section Windows

/-- The first month of a semester. -/
def firstMonth (year : ℕ) : Semester → ℕ
  | .ws => year*12+7
  | .ss => year*12+1

/-- Nothing of its month comes after the last day. -/
lemma le_iff_of_last_day {stop : Date} (h : stop.day=daysInMonth stop.year stop.month) (d : Date) :
    d ≤ stop ↔ d.monthIndex ≤ stop.monthIndex := by
  have hlast : stop.lastOfMonth=stop := Date.ext_monthIndex rfl h.symm
  have hle := Date.le_lastOfMonth_iff d stop
  rwa [hlast] at hle

lemma semesterWindow_eq_ok {year : ℕ} {semester : Semester} {start stop : Date}
    (h : semesterWindow year semester=.ok (start,stop)) :
    (start.day=1 ∧ start.monthIndex=firstMonth year semester) ∧
      stop.day=daysInMonth stop.year stop.month ∧ stop.monthIndex=firstMonth year semester+5 := by
  cases semester with
  | ws =>
    obtain ⟨a,ha,h⟩ := bind_eq_ok_iff.mp h
    obtain ⟨b,hb,h⟩ := bind_eq_ok_iff.mp h
    cases h
    obtain ⟨hyear,hmonth,hday⟩ := Date.ofParts_eq_ok ha
    obtain ⟨hyear',hmonth',hday'⟩ := Date.ofParts_eq_ok hb
    refine ⟨⟨hday,?_⟩,by rw [hday',hmonth']; rfl,?_⟩
    · simp only [Date.monthIndex,firstMonth,hyear,hmonth]
    · simp only [Date.monthIndex,firstMonth,hyear',hmonth']
      omega
  | ss =>
    obtain ⟨a,ha,h⟩ := bind_eq_ok_iff.mp h
    obtain ⟨b,hb,h⟩ := bind_eq_ok_iff.mp h
    cases h
    obtain ⟨hyear,hmonth,hday⟩ := Date.ofParts_eq_ok ha
    obtain ⟨hyear',hmonth',hday'⟩ := Date.ofParts_eq_ok hb
    refine ⟨⟨hday,?_⟩,by rw [hday',hmonth']; rfl,?_⟩
    · simp only [Date.monthIndex,firstMonth,hyear,hmonth]
    · simp only [Date.monthIndex,firstMonth,hyear',hmonth']

lemma mem_window_iff {year : ℕ} {semester : Semester} {start stop : Date}
    (h : semesterWindow year semester=.ok (start,stop)) (d : Date) :
    (start ≤ d ↔ firstMonth year semester ≤ d.monthIndex) ∧
      (d ≤ stop ↔ d.monthIndex ≤ firstMonth year semester+5) := by
  obtain ⟨⟨hday,hstart⟩,hlast,hstop⟩ := semesterWindow_eq_ok h
  rw [Date.le_iff_of_day_one hday,le_iff_of_last_day hlast,hstart,hstop]
  exact ⟨Iff.rfl,Iff.rfl⟩

lemma start_le_stop {year : ℕ} {semester : Semester} {start stop : Date}
    (h : semesterWindow year semester=.ok (start,stop)) : start ≤ stop := by
  obtain ⟨⟨-,hstart⟩,-⟩ := semesterWindow_eq_ok h
  rw [(mem_window_iff h start).2,hstart]
  exact Nat.le_add_right _ _

lemma exists_ofParts {year month day : ℕ} (h : Date.Valid year month day) :
    ∃ d, Date.ofParts year month day=.ok d := ⟨_,dif_pos h⟩

/-- The calendar has the days of the window. -/
lemma exists_semesterWindow {year : ℕ} {semester : Semester} (hyear : 1 ≤ year)
    (hmonth : firstMonth year semester+5 ≤ 9999*12+6) :
    ∃ start stop, semesterWindow year semester=.ok (start,stop) := by
  cases semester with
  | ws =>
    have hbound : year+1 ≤ 9999 := by
      change year*12+7+5 ≤ 9999*12+6 at hmonth
      omega
    have haugust : Date.Valid year 8 1 :=
      ⟨hyear,(Nat.le_succ year).trans hbound,by decide,by decide,le_rfl,(daysInMonth_ge _ _).trans' (by decide)⟩
    have hjanuary : Date.Valid (year+1) 1 31 :=
      ⟨Nat.le_add_left 1 year,hbound,le_rfl,by decide,by decide,le_refl 31⟩
    obtain ⟨a,ha⟩ := exists_ofParts haugust
    obtain ⟨b,hb⟩ := exists_ofParts hjanuary
    exact ⟨a,b,by rw [semesterWindow,ha,hb]; rfl⟩
  | ss =>
    have hbound : year ≤ 9999 := by
      change year*12+1+5 ≤ 9999*12+6 at hmonth
      omega
    have hfebruary : Date.Valid year 2 1 :=
      ⟨hyear,hbound,by decide,by decide,le_rfl,(daysInMonth_ge _ _).trans' (by decide)⟩
    have hjuly : Date.Valid year 7 31 := ⟨hyear,hbound,by decide,by decide,by decide,le_refl 31⟩
    obtain ⟨a,ha⟩ := exists_ofParts hfebruary
    obtain ⟨b,hb⟩ := exists_ofParts hjuly
    exact ⟨a,b,by rw [semesterWindow,ha,hb]; rfl⟩

lemma inSemester_of_month {d : Date} (hfirst : firstWindowDay ≤ d) (hlast : d ≤ lastWindowDay)
    {year : ℕ} {semester : Semester} (hmonth : firstMonth year semester ≤ d.monthIndex)
    (hmonth' : d.monthIndex ≤ firstMonth year semester+5) : InSemester d year semester := by
  have hlower : 13 ≤ d.monthIndex := Date.monthIndex_mono hfirst
  have hupper : d.monthIndex ≤ 9999*12+6 := Date.monthIndex_mono hlast
  have hbounds : 1 ≤ year ∧ firstMonth year semester+5 ≤ 9999*12+6 := by
    cases semester with
    | ws =>
      rw [firstMonth] at hmonth hmonth' ⊢
      omega
    | ss =>
      rw [firstMonth] at hmonth hmonth' ⊢
      omega
  obtain ⟨start,stop,hwindow⟩ := exists_semesterWindow hbounds.1 hbounds.2
  obtain ⟨hle,hge⟩ := mem_window_iff hwindow d
  exact ⟨start,stop,hwindow,hle.mpr hmonth,hge.mpr hmonth'⟩

lemma month_of_inSemester {d : Date} {year : ℕ} {semester : Semester} (h : InSemester d year semester) :
    firstMonth year semester ≤ d.monthIndex ∧ d.monthIndex ≤ firstMonth year semester+5 := by
  obtain ⟨start,stop,hwindow,hstart,hstop⟩ := h
  obtain ⟨hle,hge⟩ := mem_window_iff hwindow d
  exact ⟨hle.mp hstart,hge.mp hstop⟩

lemma semester_unique {i year year' : ℕ} {semester semester' : Semester}
    (h : firstMonth year semester ≤ i ∧ i ≤ firstMonth year semester+5)
    (h' : firstMonth year' semester' ≤ i ∧ i ≤ firstMonth year' semester'+5) :
    year=year' ∧ semester=semester' := by
  cases semester with
  | ws =>
    cases semester' with
    | ws =>
      simp only [firstMonth] at h h'
      exact ⟨by omega,rfl⟩
    | ss =>
      simp only [firstMonth] at h h'
      omega
  | ss =>
    cases semester' with
    | ws =>
      simp only [firstMonth] at h h'
      omega
    | ss =>
      simp only [firstMonth] at h h'
      exact ⟨by omega,rfl⟩

/-- Every day is in one semester. -/
lemma exists_unique_semester {d : Date} (hfirst : firstWindowDay ≤ d) (hlast : d ≤ lastWindowDay) :
    ∃! p : ℕ × Semester, InSemester d p.1 p.2 := by
  have hlower : 13 ≤ d.monthIndex := Date.monthIndex_mono hfirst
  have hexists : ∃ p : ℕ × Semester, firstMonth p.1 p.2 ≤ d.monthIndex ∧
      d.monthIndex ≤ firstMonth p.1 p.2+5 := by
    by_cases hhalf : (d.monthIndex-1)%12 < 6
    · refine ⟨((d.monthIndex-1)/12,.ss),?_⟩
      simp only [firstMonth]
      omega
    · refine ⟨((d.monthIndex-1)/12,.ws),?_⟩
      simp only [firstMonth]
      omega
  obtain ⟨p,hp⟩ := hexists
  refine ⟨p,inSemester_of_month hfirst hlast hp.1 hp.2,?_⟩
  intro q hq
  obtain ⟨hyear,hsemester⟩ := semester_unique (month_of_inSemester hq) hp
  exact Prod.ext hyear hsemester

end Windows

/-! ### The lines -/

section Lines
variable {byOrder : OrderBy roleOrder} {byStart : OrderBy assignmentStart} {roles : List RoleRow}
  {table : List MemberRole}

lemma getD_assignmentsByRole (as : List MemberRole) (roleId : RoleId) :
    (assignmentsByRole as).getD roleId []=as.filter fun a => a.entry.roleId=roleId := by
  have hfold : ∀ d : Dict RoleId (List MemberRole),
      (as.foldl (fun d a => d.set a.entry.roleId (d.getD a.entry.roleId [] ++ [a])) d).getD roleId []=
        d.getD roleId [] ++ as.filter fun a => a.entry.roleId=roleId := by
    induction as with
    | nil => simp
    | cons a as ih =>
      intro d
      rw [List.foldl_cons,ih,Dict.getD_set]
      by_cases hrole : roleId=a.entry.roleId
      · simp [hrole]
      · simp [hrole,Ne.symm hrole]
  exact hfold .empty

/-- The first match in a sorted list has the smallest key. -/
lemma key_le_of_find? {α κ : Type*} [LinearOrder κ] {key : α → κ} {xs : List α} {p : α → Bool} {a : α}
    (hsorted : xs.Pairwise fun a b => key a ≤ key b) (ha : xs.find? p=some a) {b : α} (hb : b ∈ xs)
    (hpb : p b=true) : key a ≤ key b := by
  induction xs with
  | nil => contradiction
  | cons x xs ih =>
    obtain ⟨hle,hrest⟩ := List.pairwise_cons.mp hsorted
    by_cases hpx : p x=true
    · rw [List.find?_cons_of_pos hpx,Option.some.injEq] at ha
      subst ha
      rcases List.mem_cons.mp hb with rfl | hb
      · exact le_rfl
      · exact hle b hb
    · rw [List.find?_cons_of_neg hpx] at ha
      rcases List.mem_cons.mp hb with rfl | hb
      · exact absurd hpb hpx
      · exact ih hrest ha hb

/-- The holder that a line shows, when the filter admits those who held the role and started before
the last day. -/
lemma showsFirst_firstHolder {held : RoleEntry → Prop} {lastDay : Date} {listed : MemberRole → Bool}
    (hheld : ∀ a ∈ table, listed a=true → held a.entry ∧ a.entry.startdate < lastDay)
    {roleId : RoleId} (hlisted : ∀ a ∈ table, a.entry.roleId=roleId → held a.entry →
      a.entry.startdate < lastDay → listed a=true) (orgId : PyText) :
    ShowsFirst table held lastDay roleId orgId
      (firstHolder ((assignmentsByRole (byStart.pick (table.filter listed))).getD roleId []) orgId) := by
  have hperm := byStart.pick_perm (table.filter listed)
  have hmem : ∀ a, a ∈ (byStart.pick (table.filter listed)).filter (fun a => a.entry.roleId=roleId) ↔
      a ∈ table ∧ listed a=true ∧ a.entry.roleId=roleId := by
    intro a
    rw [List.mem_filter,hperm.mem_iff,List.mem_filter,decide_eq_true_eq,and_assoc]
  have hsorted := ((byStart.ordered (table.filter listed)).2).filter
    (fun a => decide (a.entry.roleId=roleId))
  rw [getD_assignmentsByRole,firstHolder]
  constructor
  · intro holder hshown
    obtain ⟨first,hfind,rfl⟩ := Option.map_eq_some_iff.mp hshown
    obtain ⟨htable,hl,hrole⟩ := (hmem first).mp (List.mem_of_find?_eq_some hfind)
    have horg : first.member.columns.text .orgId=some orgId := by
      simpa using List.find?_some hfind
    refine ⟨first,htable,⟨hrole,horg⟩,(hheld first htable hl).1,rfl,?_⟩
    intro b hb hforb hheldb
    by_cases hlast : b.entry.startdate < lastDay
    · have hb' := (hmem b).mpr ⟨hb,hlisted b hb hforb.1 hheldb hlast,hforb.1⟩
      exact key_le_of_find? hsorted hfind hb' (decide_eq_true hforb.2)
    · exact (hheld first htable hl).2.le.trans (not_lt.mp hlast)
  · intro a htable hfor hheld' hstart
    have ha := (hmem a).mpr ⟨htable,hlisted a htable hfor.1 hheld' hstart,hfor.1⟩
    rw [Option.isSome_map,List.find?_isSome]
    exact ⟨a,ha,decide_eq_true hfor.2⟩

lemma isListed_today_iff {today : Date} {e : RoleEntry} :
    isListed today none e=true ↔ e.isActive today=true ∧ e.startdate < today := by
  simp only [isListed,RoleEntry.isActive,Bool.and_eq_true,decide_eq_true_eq]
  constructor
  · rintro ⟨hstart,hend⟩
    exact ⟨⟨hstart.le,hend⟩,hstart⟩
  · rintro ⟨⟨-,hend⟩,hstart⟩
    exact ⟨hstart,hend⟩

/-- A proper period that begins before the last day reaches into the window exactly when it ends after
the first. -/
lemma isListed_window_iff {today start stop : Date} {e : RoleEntry} (hproper : e.period.Proper)
    (hwindow : start ≤ stop) :
    isListed today (some (start,stop)) e=true ↔ HeldWithin start stop e ∧ e.startdate < stop := by
  simp only [isListed,Bool.and_eq_true,decide_eq_true_eq,Option.all_eq_true]
  constructor
  · rintro ⟨hstart,hend⟩
    refine ⟨⟨max e.startdate start,⟨le_max_left _ _,?_⟩,le_max_right _ _,max_le hstart.le hwindow⟩,hstart⟩
    intro d hd
    exact max_lt (hproper d hd) (hend d hd)
  · rintro ⟨⟨d,⟨-,hend⟩,hstart,-⟩,hbefore⟩
    exact ⟨hbefore,fun stop' hstop' => hstart.trans_lt (hend stop' hstop')⟩

lemma listsRoles_getRolesList {held : RoleEntry → Prop} {lastDay today : Date}
    {window : Option (Date × Date)} (hiff : ∀ e : RoleEntry, e.period.Proper →
      (isListed today window e=true ↔ held e ∧ e.startdate < lastDay)) :
    ListsRoles byOrder roles table held lastDay ((byOrder.pick roles).map fun r =>
      let as := (assignmentsByRole (byStart.pick (table.filter fun a =>
        a.entry.roleId ∈ (byOrder.pick roles).map (fun r => r.id) &&
          isListed today window a.entry))).getD r.id []
      ⟨r.label,r.group,firstHolder as (text "vbw"),firstHolder as (text "vbn")⟩) := by
  have hheld : ∀ a ∈ table, (decide (a.entry.roleId ∈ (byOrder.pick roles).map (fun r => r.id)) &&
      isListed today window a.entry)=true → held a.entry ∧ a.entry.startdate < lastDay := by
    intro a _ ha
    rw [Bool.and_eq_true] at ha
    exact (hiff a.entry a.proper).mp ha.2
  rw [ListsRoles,List.forall₂_map_right_iff,List.forall₂_same]
  intro r hr
  have hlisted : ∀ a ∈ table, a.entry.roleId=r.id → held a.entry → a.entry.startdate < lastDay →
      (decide (a.entry.roleId ∈ (byOrder.pick roles).map (fun r => r.id)) &&
        isListed today window a.entry)=true := by
    intro a _ hrole hheld hstart
    rw [Bool.and_eq_true,decide_eq_true_eq,hrole]
    exact ⟨List.mem_map_of_mem hr,(hiff a.entry a.proper).mpr ⟨hheld,hstart⟩⟩
  exact ⟨rfl,rfl,showsFirst_firstHolder hheld hlisted _,showsFirst_firstHolder hheld hlisted _⟩

end Lines

/-- The windows cover every day once; the list names the current one outside January; of those who
hold a role today, or on a day of the semester, it shows in each organisation the first to start. -/
theorem rolesListLaw (byOrder : OrderBy roleOrder) (byStart : OrderBy assignmentStart)
    (roles : List RoleRow) (table : List MemberRole) : RolesListLaw byOrder byStart roles table where
  covers d hfirst hlast := exists_unique_semester hfirst hlast
  current today := by
    refine ⟨_,rfl,?_,listsRoles_getRolesList fun e _ => isListed_today_iff⟩
    intro hjanuary hlast
    have hpos := today.month_pos
    have hle := today.month_le
    have hyear := today.year_pos
    have hfirst : firstWindowDay ≤ today := by
      rw [Date.le_iff_of_day_one rfl]
      change 13 ≤ today.year*12+(today.month-1)
      omega
    have hcurrent : firstMonth today.year (if 2 ≤ today.month ∧ today.month ≤ 7 then .ss else .ws) ≤
        today.monthIndex ∧ today.monthIndex ≤
        firstMonth today.year (if 2 ≤ today.month ∧ today.month ≤ 7 then .ss else .ws)+5 := by
      split_ifs
      · simp only [firstMonth,Date.monthIndex]
        omega
      · simp only [firstMonth,Date.monthIndex]
        omega
    exact inSemester_of_month hfirst hlast hcurrent.1 hcurrent.2
  semester today year semester start stop hwindow := by
    have hyear : year ≠ 0 := by
      rintro rfl
      cases semester <;> contradiction
    have hrequest : requestedSemester today (some year) (some semester)=
        .ok (year,semester,some (start,stop)) := by
      have hgiven : (some year).filter (· ≠ 0)=some year := by simp [hyear]
      simp only [requestedSemester,hgiven,hwindow]
      rfl
    refine ⟨_,by rw [getRolesList,hrequest]; rfl,rfl,rfl,listsRoles_getRolesList fun e hproper => ?_⟩
    exact isListed_window_iff hproper (start_le_stop hwindow)

/-! ### The second holder of a semester -/

def officer (nachname : String) : Member where
  columns := {Columns.default with
    text := fun f =>
      if f=.nachname then some (text nachname) else if f=.orgId then some (text "vbw") else none}
  emailVerifiedAt := none
  authPassword := none
  modifiedAt := none
  modifiedBy := none
  updatedAt := none
  other := ⟨none,none,none,none,none,none,none,none,0⟩
  memberRoles := []
  memberBadges := []
  memberKeys := []

def spring : RoleEntry := ⟨text "x",Date.of 2025 2 1,some (Date.of 2025 4 1)⟩
def summer : RoleEntry := ⟨text "x",Date.of 2025 4 1,some (Date.of 2025 7 31)⟩

lemma spring_proper : spring.period.Proper := by decide
lemma summer_proper : summer.period.Proper := by decide

/-- The office changes hands within the semester. -/
def outgoing : MemberRole := ⟨1,officer "Erster",spring,spring_proper⟩
def incoming : MemberRole := ⟨2,officer "Zweiter",summer,summer_proper⟩

def senior : RoleRow := ⟨⟨text "x",none,some (text "Senior")⟩,some 0⟩

/-- Both held the role in the semester, and only the first is shown. -/
theorem incoming_hidden : outgoing.For (text "x") (text "vbw") ∧ incoming.For (text "x") (text "vbw") ∧
    HeldWithin (Date.of 2025 2 1) (Date.of 2025 7 31) incoming.entry ∧
    getRolesList (.stable roleOrder) (.stable assignmentStart) [senior] [outgoing,incoming]
      (Date.of 2025 10 15) (some 2025) (some .ss)=
        .ok ⟨.ss,2025,[⟨some (text "Senior"),none,some (roleHolder outgoing),none⟩]⟩ := by
  have hmay : Date.of 2025 5 1 ∈ summer.period.days := by
    refine ⟨by decide,fun d hd => ?_⟩
    cases hd
    decide
  have hroles : (OrderBy.stable roleOrder).pick [senior]=[senior] := sortBy_singleton _ _
  have hsorted : (OrderBy.stable assignmentStart).pick [outgoing,incoming]=[outgoing,incoming] :=
    List.mergeSort_of_pairwise (by decide)
  refine ⟨⟨rfl,rfl⟩,⟨rfl,rfl⟩,⟨Date.of 2025 5 1,hmay,by decide,by decide⟩,?_⟩
  have hrequest : requestedSemester (Date.of 2025 10 15) (some 2025) (some .ss)=
      .ok (2025,.ss,some (Date.of 2025 2 1,Date.of 2025 7 31)) := rfl
  have hlisted : [outgoing,incoming].filter (fun a => a.entry.roleId ∈ [senior].map (fun r => r.id) &&
      isListed (Date.of 2025 10 15) (some (Date.of 2025 2 1,Date.of 2025 7 31)) a.entry)=
      [outgoing,incoming] := rfl
  rw [getRolesList,hrequest,ok_bind]
  dsimp only
  rw [hroles,hlisted,hsorted]
  rfl

end VbApi.Members
