import VbApi.Foundations.DayCount
import VbApi.Foundations.PyText
import VbApi.Foundations.Results
import VbApi.Foundations.Sorting
import VbApi.Foundations.ZoneRules

/-! The activity log by days: the overview of a month groups the requests by the local date that the
database computes, the view of one day cuts the time at the midnights that Python computes. -/
namespace VbApi.Activity
open VbApi.Foundations

abbrev Uuid := ℕ

/-- A day in microseconds; moments and readings are counted from the day before the calendar. -/
def dayLength : ℤ := 86400000000

structure Member where
  id : Uuid
  vorname : Option PyText
  nachname : Option PyText

structure RequestLog where
  id : Uuid
  memberId : Option Uuid
  requestMethod : PyText
  requestPath : PyText
  createdAt : ℤ

structure Database where
  members : List Member
  requestLogs : List RequestLog

inductive ActivityError
  | dateError (e : DateError)
  | notFound (detail : PyText)
  deriving DecidableEq

structure IdLabelOption where
  id : Uuid
  label : PyText

structure ActivityDayGroup where
  day : Date
  members : List IdLabelOption

structure ActivityLogEntry where
  id : Uuid
  createdAt : ℤ
  requestMethod : PyText
  requestPath : PyText

structure ActivityMemberDayDetail where
  memberName : PyText
  entries : List ActivityLogEntry

def memberLabel (m : Member) : PyText :=
  strip (m.vorname.getD [] ++ text " " ++ m.nachname.getD [])

def RequestLog.entry (log : RequestLog) : ActivityLogEntry :=
  ⟨log.id,log.createdAt,log.requestMethod,log.requestPath⟩

/-! ### The bounds of a local day -/

/-- What the clock reads at the start of a day. -/
def midnight (day : Date) : ℤ := day.toOrdinal*dayLength

section Zone
variable (zone : ZoneRules)

def raised {α : Type} (x : Except DateError α) : Except ActivityError α := x.mapError .dateError

/-- `astimezone(UTC)` of a reading; the moment has to be in the calendar. -/
def astimezoneUtc (reading : ℤ) : Except DateError ℤ :=
  let moment := zone.momentOf reading
  if midnight Date.minDate ≤ moment ∧ moment < midnight Date.maxDate+dayLength then .ok moment
  else .error .overflowError

def localDayBoundsUtc (day : Date) : Except DateError (ℤ × ℤ) := do
  let nextDay ← day.addDays 1
  return (← astimezoneUtc zone (midnight day),← astimezoneUtc zone (midnight nextDay))

/-! ### The two views -/

/-- `timezone(...)` and the cast to a date: the number of the local day. -/
def localDay (moment : ℤ) : ℤ := zone.reading moment/dayLength

variable (db : Database)

/-- The distinct pairs of a local day and a member in a span of time. -/
def activityRows (start stop : ℤ) : List (ℤ × Uuid) :=
  (db.requestLogs.filterMap fun log =>
    if start ≤ log.createdAt ∧ log.createdAt < stop then
      log.memberId.map fun memberId => (localDay zone log.createdAt,memberId)
    else none).dedup

def loadRow (row : ℤ × Uuid) : Except DateError (Date × Uuid) := do
  return (← Date.ofOrdinal row.1,row.2)

/-- The members of one day that still exist, by name; equal names as the rows have them. -/
def dayMembers (rows : List (Date × Uuid)) (day : Date) : List IdLabelOption :=
  let memberIds := (rows.filter fun row => row.1=day).map Prod.snd
  let members := memberIds.filterMap fun memberId => db.members.find? fun m => m.id=memberId
  (sortBy (fun m : Member => toLex (m.nachname.getD [],m.vorname.getD [])) members).map
    fun m => ⟨m.id,memberLabel m⟩

def nextMonth (year month : ℕ) : Except DateError Date :=
  if month=12 then Date.ofParts (year+1) 1 1 else Date.ofParts year (month+1) 1

/-- The days of a month with activity, newest first. -/
def listDaysWithActivity (year month : ℕ) : Except ActivityError (List ActivityDayGroup) := do
  let firstOfMonth ← raised (Date.ofParts year month 1)
  let firstOfNextMonth ← raised (nextMonth year month)
  let (monthStart,_) ← raised (localDayBoundsUtc zone firstOfMonth)
  let (monthEnd,_) ← raised (localDayBoundsUtc zone firstOfNextMonth)
  let rows ← raised ((activityRows zone db monthStart monthEnd).mapM loadRow)
  let days := sortBy OrderDual.toDual (rows.map Prod.fst).dedup
  return days.map fun day => ⟨day,dayMembers db rows day⟩

/-- The requests of a member on one day, in the order of their times. -/
def listEntriesForMemberDay (memberId : Uuid) (day : Date) :
    Except ActivityError ActivityMemberDayDetail := do
  match db.members.find? fun m => m.id=memberId with
  | none => throw (.notFound (text "Mitglied nicht gefunden"))
  | some member =>
    let (start,stop) ← raised (localDayBoundsUtc zone day)
    let entries := sortBy RequestLog.createdAt (db.requestLogs.filter fun log =>
      log.memberId=some memberId ∧ start ≤ log.createdAt ∧ log.createdAt < stop)
    return ⟨memberLabel member,entries.map RequestLog.entry⟩

/-! ### Cutting the time into days -/

/-- What the data of a time zone promise: the offsets are shorter than a day, and no change of the clock
skips or repeats a span around a midnight. -/
structure ZoneFacts : Prop where
  standard_lt : |zone.standard| < dayLength
  offset_lt : ∀ c ∈ zone.changes, |c.offset| < dayLength
  midnights : ∀ n : ℤ, ClockChange.Passes (n*dayLength) zone.standard zone.changes

end Zone

section Cuts
variable {zone : ZoneRules} {t : ℤ} {day : Date} {start stop : ℤ}

lemma raised_eq_ok_iff {α : Type} {x : Except DateError α} {a : α} : raised x=.ok a ↔ x=.ok a := by
  cases x with
  | error e => simp [raised,Except.mapError]
  | ok b => simp [raised,Except.mapError]

lemma ZoneFacts.reading_near (facts : ZoneFacts zone) (t : ℤ) : |zone.reading t-t| < dayLength := by
  rw [ZoneRules.reading,add_sub_cancel_left]
  exact ClockChange.offsetAt_of_all (P := fun o => |o| < dayLength) facts.standard_lt facts.offset_lt

lemma ZoneFacts.momentOf_near (facts : ZoneFacts zone) (w : ℤ) : |w-zone.momentOf w| < dayLength := by
  rw [ZoneRules.momentOf,sub_sub_cancel]
  exact ClockChange.offsetFor_of_all (P := fun o => |o| < dayLength) facts.standard_lt facts.offset_lt

/-- The clock has come to a day from the moment of its midnight on. -/
lemma ZoneFacts.le_localDay_iff (facts : ZoneFacts zone) (n : ℤ) :
    n ≤ localDay zone t ↔ zone.momentOf (n*dayLength) ≤ t := by
  have hpos : 0 < dayLength := by decide
  rw [localDay,Int.le_ediv_iff_mul_le hpos]
  exact ZoneRules.le_reading_iff (facts.midnights n)

lemma ZoneFacts.momentOf_mono (facts : ZoneFacts zone) {m n : ℤ} (h : m ≤ n) :
    zone.momentOf (m*dayLength) ≤ zone.momentOf (n*dayLength) := by
  have hday : n ≤ localDay zone (zone.momentOf (n*dayLength)) := (facts.le_localDay_iff n).mpr le_rfl
  exact (facts.le_localDay_iff m).mp (h.trans hday)

lemma astimezoneUtc_eq_ok_iff {reading moment : ℤ} : astimezoneUtc zone reading=.ok moment ↔
    zone.momentOf reading=moment ∧ dayLength ≤ moment ∧ moment < 3652060*dayLength := by
  have hmin : midnight Date.minDate=dayLength := by decide +kernel
  have hmax : midnight Date.maxDate+dayLength=3652060*dayLength := by decide +kernel
  rw [astimezoneUtc,hmin,hmax]
  split_ifs with hrange
  · rw [Except.ok.injEq]
    constructor
    · intro h
      subst h
      exact ⟨rfl,hrange⟩
    · intro h
      exact h.1
  · constructor
    · intro h
      cases h
    · intro h
      rw [h.1] at hrange
      exact absurd h.2 hrange

/-- The bounds of a day are the moments of two midnights. -/
lemma localDayBoundsUtc_eq_ok_iff : localDayBoundsUtc zone day=.ok (start,stop) ↔
    day ≠ Date.maxDate ∧ astimezoneUtc zone (day.toOrdinal*dayLength)=.ok start ∧
      astimezoneUtc zone ((day.toOrdinal+1)*dayLength)=.ok stop := by
  have hexists := Date.succDay_isOk_iff day
  rw [← Date.addDays_one] at hexists
  rw [localDayBoundsUtc]
  cases hnext : day.addDays 1 with
  | error e =>
    rw [hnext] at hexists
    rw [error_bind,← hexists]
    simp
  | ok next =>
    rw [hnext] at hexists
    have hne : day ≠ Date.maxDate := hexists.mp ⟨next,rfl⟩
    have hnumber : next.toOrdinal=day.toOrdinal+1 := Date.addDays_toOrdinal (n := 1) hnext
    have hmidnight : midnight next=(day.toOrdinal+1)*dayLength := by
      rw [midnight,hnumber]
      norm_cast
    rw [ok_bind,hmidnight,bind_eq_ok_iff]
    simp only [bind_eq_ok_iff,pure_eq_ok,Except.ok.injEq,Prod.mk.injEq,midnight]
    constructor
    · intro h
      obtain ⟨a,ha,b,hb,rfl,rfl⟩ := h
      exact ⟨hne,ha,hb⟩
    · intro h
      exact ⟨start,h.2.1,stop,h.2.2,rfl,rfl⟩

lemma ZoneFacts.in_bounds_iff (facts : ZoneFacts zone)
    (h : localDayBoundsUtc zone day=.ok (start,stop)) :
    start ≤ t ∧ t < stop ↔ localDay zone t=day.toOrdinal := by
  obtain ⟨-,hstart,hstop⟩ := localDayBoundsUtc_eq_ok_iff.mp h
  rw [← (astimezoneUtc_eq_ok_iff.mp hstart).1,← (astimezoneUtc_eq_ok_iff.mp hstop).1,
    ← facts.le_localDay_iff,← not_le,← facts.le_localDay_iff]
  omega

/-- Days away from the ends of the calendar have bounds. -/
lemma ZoneFacts.exists_bounds (facts : ZoneFacts zone) (hlow : 2 ≤ day.toOrdinal)
    (hhigh : day.toOrdinal+2 ≤ 3652059) : ∃ start stop, localDayBoundsUtc zone day=.ok (start,stop) := by
  have hmax : Date.maxDate.toOrdinal=3652059 := by decide +kernel
  have hstart := abs_lt.mp (facts.momentOf_near (day.toOrdinal*dayLength))
  have hstop := abs_lt.mp (facts.momentOf_near ((day.toOrdinal+1)*dayLength))
  refine ⟨_,_,localDayBoundsUtc_eq_ok_iff.mpr ⟨?_,astimezoneUtc_eq_ok_iff.mpr ⟨rfl,?_⟩,
    astimezoneUtc_eq_ok_iff.mpr ⟨rfl,?_⟩⟩⟩
  · rintro rfl
    omega
  · simp only [dayLength] at *
    omega
  · simp only [dayLength] at *
    omega

/-- A day between two days with bounds has bounds. -/
lemma ZoneFacts.exists_bounds_between (facts : ZoneFacts zone) {first next : Date} {a b a' b' : ℤ}
    (hfirst : localDayBoundsUtc zone first=.ok (a,b)) (hnext : localDayBoundsUtc zone next=.ok (a',b'))
    (hlow : first ≤ day) (hhigh : day < next) :
    ∃ start stop, localDayBoundsUtc zone day=.ok (start,stop) := by
  have hlowOrdinal := Date.toOrdinal_le_iff.mpr hlow
  have hhighOrdinal := Date.toOrdinal_strictMono hhigh
  have hmax := next.toOrdinal_le_max
  obtain ⟨-,ha,-⟩ := localDayBoundsUtc_eq_ok_iff.mp hfirst
  obtain ⟨-,ha',-⟩ := localDayBoundsUtc_eq_ok_iff.mp hnext
  obtain ⟨rfl,hamin,-⟩ := astimezoneUtc_eq_ok_iff.mp ha
  obtain ⟨rfl,-,hamax⟩ := astimezoneUtc_eq_ok_iff.mp ha'
  have hstart := facts.momentOf_mono (m := first.toOrdinal) (n := day.toOrdinal) (by omega)
  have hmiddle := facts.momentOf_mono (m := day.toOrdinal) (n := day.toOrdinal+1) (by omega)
  have hstop := facts.momentOf_mono (m := day.toOrdinal+1) (n := next.toOrdinal) (by omega)
  refine ⟨_,_,localDayBoundsUtc_eq_ok_iff.mpr ⟨?_,astimezoneUtc_eq_ok_iff.mpr ⟨rfl,?_,?_⟩,
    astimezoneUtc_eq_ok_iff.mpr ⟨rfl,?_,?_⟩⟩⟩
  · rintro rfl
    omega
  all_goals omega

end Cuts

/-! ### One day of a member -/

section Entries
variable {zone : ZoneRules} {db : Database} {memberId : Uuid} {day : Date}
variable {detail : ActivityMemberDayDetail}

/-- The member is stored. -/
def Existing (db : Database) (memberId : Uuid) : Prop := ∃ m ∈ db.members, m.id=memberId

/-- The requests of a member on a local day. -/
def dayLogs (zone : ZoneRules) (db : Database) (memberId : Uuid) (day : Date) : List RequestLog :=
  db.requestLogs.filter fun log => log.memberId=some memberId ∧ localDay zone log.createdAt=day.toOrdinal

lemma exists_find_member (h : Existing db memberId) :
    ∃ member, (db.members.find? fun m => m.id=memberId)=some member ∧ member.id=memberId := by
  obtain ⟨m,hm,hid⟩ := h
  have hsome : (db.members.find? fun m => m.id=memberId).isSome :=
    List.find?_isSome.mpr ⟨m,hm,decide_eq_true hid⟩
  obtain ⟨member,hfind⟩ := Option.isSome_iff_exists.mp hsome
  have hfound := List.find?_some hfind
  exact ⟨member,hfind,of_decide_eq_true hfound⟩

/-- A day has an answer where its bounds are in the calendar; the answer holds the day's requests. -/
lemma ZoneFacts.listEntries_ok (facts : ZoneFacts zone) (hmember : Existing db memberId)
    {start stop : ℤ} (h : localDayBoundsUtc zone day=.ok (start,stop)) : ∃ name,
    listEntriesForMemberDay zone db memberId day=.ok
      ⟨name,(sortBy RequestLog.createdAt (dayLogs zone db memberId day)).map RequestLog.entry⟩ := by
  obtain ⟨member,hfind,-⟩ := exists_find_member hmember
  have hlogs : (db.requestLogs.filter fun log =>
      log.memberId=some memberId ∧ start ≤ log.createdAt ∧ log.createdAt < stop)=
        dayLogs zone db memberId day := by
    apply List.filter_congr
    intro log _
    rw [decide_eq_decide,facts.in_bounds_iff h]
  rw [listEntriesForMemberDay,hfind]
  dsimp only
  rw [raised_eq_ok_iff.mpr h,ok_bind]
  dsimp only
  rw [hlogs]
  exact ⟨_,rfl⟩

lemma exists_bounds_of_listEntries (h : listEntriesForMemberDay zone db memberId day=.ok detail) :
    ∃ start stop, localDayBoundsUtc zone day=.ok (start,stop) := by
  rw [listEntriesForMemberDay] at h
  cases hfind : db.members.find? fun m => m.id=memberId with
  | none =>
    rw [hfind] at h
    cases h
  | some member =>
    rw [hfind] at h
    dsimp only at h
    obtain ⟨bounds,hbounds,-⟩ := bind_eq_ok_iff.mp h
    exact ⟨bounds.1,bounds.2,raised_eq_ok_iff.mp hbounds⟩

/-- Every answer holds exactly the requests of the local day. -/
lemma ZoneFacts.entries_perm (facts : ZoneFacts zone) (hmember : Existing db memberId)
    (h : listEntriesForMemberDay zone db memberId day=.ok detail) :
    detail.entries.Perm ((dayLogs zone db memberId day).map RequestLog.entry) := by
  obtain ⟨start,stop,hbounds⟩ := exists_bounds_of_listEntries h
  obtain ⟨name,hok⟩ := facts.listEntries_ok hmember hbounds
  rw [h,Except.ok.injEq] at hok
  rw [hok]
  exact (sortBy_perm _ _).map _

lemma ZoneFacts.entries_ne_nil_iff (facts : ZoneFacts zone) (hmember : Existing db memberId)
    (h : listEntriesForMemberDay zone db memberId day=.ok detail) : detail.entries ≠ [] ↔
      ∃ log ∈ db.requestLogs, log.memberId=some memberId ∧ localDay zone log.createdAt=day.toOrdinal := by
  have hperm := facts.entries_perm hmember h
  have hnil : detail.entries=[] ↔ dayLogs zone db memberId day=[] := by
    rw [← List.map_eq_nil_iff (f := RequestLog.entry)]
    constructor
    · intro hempty
      exact (hempty ▸ hperm).symm.eq_nil
    · intro hempty
      exact (hempty ▸ hperm).eq_nil
  rw [ne_eq,hnil,dayLogs,List.filter_eq_nil_iff]
  simp

/-- The database's clock shows none of the first and last days of the calendar. -/
def ClockYears (moment : ℤ) : Prop := 3*dayLength ≤ moment ∧ moment < 3652057*dayLength

/-- The local date of a request has bounds. -/
lemma ZoneFacts.exists_day (facts : ZoneFacts zone) {moment : ℤ} (h : ClockYears moment) :
    ∃ day : Date, localDay zone moment=day.toOrdinal ∧
      ∃ start stop, localDayBoundsUtc zone day=.ok (start,stop) := by
  have hnear := abs_lt.mp (facts.reading_near moment)
  have hmax : Date.maxDate.toOrdinal=3652059 := by decide +kernel
  have hlow : 2 ≤ localDay zone moment := by
    rw [localDay,Int.le_ediv_iff_mul_le (by decide)]
    simp only [ClockYears,dayLength] at *
    omega
  have hhigh : localDay zone moment < 3652058 := by
    rw [localDay,Int.ediv_lt_iff_lt_mul (by decide)]
    simp only [ClockYears,dayLength] at *
    omega
  obtain ⟨day,hday⟩ := Date.exists_ofOrdinal (n := localDay zone moment) (by omega) (by omega)
  have hnumber := Date.toOrdinal_of_ofOrdinal hday
  exact ⟨day,hnumber.symm,facts.exists_bounds (by omega) (by omega)⟩

end Entries

/-! ### The overview of a month -/

section Overview
variable {zone : ZoneRules} {db : Database} {memberId : Uuid} {day : Date} {year month : ℕ}
variable {first next : Date} {rows : List (Date × Uuid)}

/-- The days from the first of a month on and before the first of the next one. -/
lemma mem_month_iff (hfirst : Date.ofParts year month 1=.ok first)
    (hnext : nextMonth year month=.ok next) (day : Date) :
    first ≤ day ∧ day < next ↔ day.year=year ∧ day.month=month := by
  obtain ⟨hyear,hmonth,hday⟩ := Date.ofParts_eq_ok hfirst
  have hnext' : next.day=1 ∧ next.monthIndex=first.monthIndex+1 := by
    have hpos := first.month_pos
    rw [nextMonth] at hnext
    split_ifs at hnext with hdecember
    · obtain ⟨hyear',hmonth',hday'⟩ := Date.ofParts_eq_ok hnext
      refine ⟨hday',?_⟩
      simp only [Date.monthIndex]
      omega
    · obtain ⟨hyear',hmonth',hday'⟩ := Date.ofParts_eq_ok hnext
      refine ⟨hday',?_⟩
      simp only [Date.monthIndex]
      omega
  rw [Date.le_iff_of_day_one hday,Date.lt_iff_of_day_one hnext'.1,hnext'.2]
  have hpos := first.month_pos
  have hle := first.month_le
  have hdpos := day.month_pos
  have hdle := day.month_le
  simp only [Date.monthIndex]
  omega

lemma mem_activityRows {start stop n : ℤ} : (n,memberId) ∈ activityRows zone db start stop ↔
    ∃ log ∈ db.requestLogs, (start ≤ log.createdAt ∧ log.createdAt < stop) ∧
      log.memberId=some memberId ∧ localDay zone log.createdAt=n := by
  rw [activityRows,List.mem_dedup,List.mem_filterMap]
  apply exists_congr
  intro log
  apply and_congr_right
  intro _
  split_ifs with hspan
  · simp only [hspan,true_and,Option.map_eq_some_iff,Prod.mk.injEq,and_self]
    constructor
    · intro h
      obtain ⟨id,hid,hn,rfl⟩ := h
      exact ⟨hid,hn⟩
    · intro h
      exact ⟨memberId,h.1,h.2,rfl⟩
  · simp [hspan]

lemma loadRow_eq_ok_iff {row : ℤ × Uuid} :
    loadRow row=.ok (day,memberId) ↔ row=((day.toOrdinal : ℤ),memberId) := by
  obtain ⟨n,id⟩ := row
  rw [loadRow,bind_eq_ok_iff]
  simp only [pure_eq_ok,Except.ok.injEq,Prod.mk.injEq]
  constructor
  · intro h
    obtain ⟨d,hd,rfl,rfl⟩ := h
    exact ⟨(Date.toOrdinal_of_ofOrdinal hd).symm,rfl⟩
  · intro h
    obtain ⟨rfl,rfl⟩ := h
    exact ⟨day,Date.ofOrdinal_toOrdinal day,rfl,rfl⟩

/-- The members of a day are the ones of its rows that are stored. -/
lemma mem_dayMembers : (∃ o ∈ dayMembers db rows day, o.id=memberId) ↔
    (day,memberId) ∈ rows ∧ Existing db memberId := by
  simp only [dayMembers,List.mem_map,mem_sortBy,List.mem_filterMap,List.mem_filter,decide_eq_true_eq]
  constructor
  · intro h
    obtain ⟨o,⟨m,⟨id,⟨row,⟨hrow,rfl⟩,rfl⟩,hfind⟩,rfl⟩,rfl⟩ := h
    have hid := List.find?_some hfind
    have hid : m.id=row.2 := of_decide_eq_true hid
    dsimp only
    rw [hid]
    exact ⟨hrow,m,List.mem_of_find?_eq_some hfind,hid⟩
  · intro h
    obtain ⟨hrow,hmember⟩ := h
    obtain ⟨member,hfind,hid⟩ := exists_find_member hmember
    exact ⟨⟨member.id,memberLabel member⟩,⟨member,⟨memberId,⟨(day,memberId),⟨hrow,rfl⟩,rfl⟩,hfind⟩,rfl⟩,hid⟩

/-- The member is listed on the day. -/
def Listed (days : List ActivityDayGroup) (day : Date) (memberId : Uuid) : Prop :=
  ∃ group ∈ days, group.day=day ∧ ∃ o ∈ group.members, o.id=memberId

/-- An overview lists the stored members of the rows between two midnights. -/
lemma listDays_ok {days : List ActivityDayGroup} (h : listDaysWithActivity zone db year month=.ok days) :
    ∃ first next a b a' b', Date.ofParts year month 1=.ok first ∧ nextMonth year month=.ok next ∧
      localDayBoundsUtc zone first=.ok (a,b) ∧ localDayBoundsUtc zone next=.ok (a',b') ∧
      ∀ day memberId, Listed days day memberId ↔
        ((day.toOrdinal : ℤ),memberId) ∈ activityRows zone db a a' ∧ Existing db memberId := by
  rw [listDaysWithActivity] at h
  obtain ⟨first,hfirst,h⟩ := bind_eq_ok_iff.mp h
  obtain ⟨next,hnext,h⟩ := bind_eq_ok_iff.mp h
  obtain ⟨⟨a,b⟩,hstart,h⟩ := bind_eq_ok_iff.mp h
  obtain ⟨⟨a',b'⟩,hstop,h⟩ := bind_eq_ok_iff.mp h
  obtain ⟨rows,hrows,h⟩ := bind_eq_ok_iff.mp h
  rw [raised_eq_ok_iff] at hfirst hnext hstart hstop hrows
  refine ⟨first,next,a,b,a',b',hfirst,hnext,hstart,hstop,?_⟩
  intro day memberId
  have hrow : (day,memberId) ∈ rows ↔ ((day.toOrdinal : ℤ),memberId) ∈ activityRows zone db a a' := by
    rw [mem_of_mapM_eq_ok hrows]
    simp only [loadRow_eq_ok_iff,exists_eq_right]
  cases h
  rw [← hrow,← mem_dayMembers]
  simp only [Listed,List.mem_map,mem_sortBy,List.mem_dedup]
  constructor
  · intro h
    obtain ⟨group,⟨d,-,rfl⟩,rfl,hmember⟩ := h
    exact hmember
  · intro h
    obtain ⟨hmem,-⟩ := mem_dayMembers.mp h
    exact ⟨_,⟨day,⟨(day,memberId),hmem,rfl⟩,rfl⟩,rfl,h⟩

lemma ZoneFacts.mem_month_rows_iff (facts : ZoneFacts zone) {a b a' b' t : ℤ}
    (hfirst : localDayBoundsUtc zone first=.ok (a,b)) (hnext : localDayBoundsUtc zone next=.ok (a',b')) :
    a ≤ t ∧ t < a' ↔ first.toOrdinal ≤ localDay zone t ∧ localDay zone t < next.toOrdinal := by
  obtain ⟨-,hstart,-⟩ := localDayBoundsUtc_eq_ok_iff.mp hfirst
  obtain ⟨-,hstop,-⟩ := localDayBoundsUtc_eq_ok_iff.mp hnext
  rw [← (astimezoneUtc_eq_ok_iff.mp hstart).1,← (astimezoneUtc_eq_ok_iff.mp hstop).1,
    ← facts.le_localDay_iff,← not_le (b := t),← facts.le_localDay_iff,not_le]

/-- The overview and the view of a day agree. -/
lemma ZoneFacts.listed_iff (facts : ZoneFacts zone) (hmember : Existing db memberId)
    {days : List ActivityDayGroup} (h : listDaysWithActivity zone db year month=.ok days) (day : Date) :
    Listed days day memberId ↔ (day.year=year ∧ day.month=month) ∧
      ∃ detail, listEntriesForMemberDay zone db memberId day=.ok detail ∧ detail.entries ≠ [] := by
  obtain ⟨first,next,a,b,a',b',hfirst,hnext,hstart,hstop,hlisted⟩ := listDays_ok h
  have hmonth := mem_month_iff hfirst hnext day
  rw [hlisted,mem_activityRows,← hmonth]
  simp only [facts.mem_month_rows_iff hstart hstop]
  constructor
  · intro h
    obtain ⟨⟨log,hlog,hspan,hown,hday⟩,-⟩ := h
    rw [hday] at hspan
    have hlow : first ≤ day := Date.toOrdinal_le_iff.mp (by omega)
    have hhigh : day < next := Date.toOrdinal_strictMono.lt_iff_lt.mp (by omega)
    obtain ⟨start,stop,hbounds⟩ := facts.exists_bounds_between hstart hstop hlow hhigh
    obtain ⟨name,hok⟩ := facts.listEntries_ok hmember hbounds
    exact ⟨⟨hlow,hhigh⟩,_,hok,(facts.entries_ne_nil_iff hmember hok).mpr ⟨log,hlog,hown,hday⟩⟩
  · intro h
    obtain ⟨⟨hlow,hhigh⟩,detail,hok,hsome⟩ := h
    obtain ⟨log,hlog,hown,hday⟩ := (facts.entries_ne_nil_iff hmember hok).mp hsome
    have hlowOrdinal := Date.toOrdinal_le_iff.mpr hlow
    have hhighOrdinal := Date.toOrdinal_strictMono hhigh
    exact ⟨⟨log,hlog,by omega,hown,hday⟩,hmember⟩

/-- The overview has an answer for every month away from the ends of the calendar. -/
lemma ZoneFacts.listDays_isOk (facts : ZoneFacts zone) (hyear : 2 ≤ year ∧ year ≤ 9998)
    (hmonth : 1 ≤ month ∧ month ≤ 12) : ∃ days, listDaysWithActivity zone db year month=.ok days := by
  have hvalid : ∀ y m, 2 ≤ y → y ≤ 9999 → 1 ≤ m → m ≤ 12 → (y ≤ 9998 ∨ m=1) →
      ∃ d a b, Date.ofParts y m 1=.ok d ∧ localDayBoundsUtc zone d=.ok (a,b) := by
    intro y m hy hy' hm hm' hlast
    have hdays := daysInMonth_ge y m
    obtain ⟨d,hd⟩ : ∃ d, Date.ofParts y m 1=.ok d :=
      ⟨_,dif_pos ⟨by omega,hy',hm,hm',le_rfl,by omega⟩⟩
    obtain ⟨hdy,hdm,hdd⟩ := Date.ofParts_eq_ok hd
    have hlow : Date.of 2 1 1 ≤ d := by
      rw [Date.le_iff_of_day_one rfl]
      change 24 ≤ d.monthIndex
      simp only [Date.monthIndex]
      omega
    have hhigh : d ≤ Date.of 9999 1 1 := by
      rw [Date.le_iff_of_day_one hdd]
      change d.monthIndex ≤ 119988
      simp only [Date.monthIndex]
      omega
    have hlowNumber : (Date.of 2 1 1).toOrdinal=366 := by decide +kernel
    have hhighNumber : (Date.of 9999 1 1).toOrdinal=3651695 := by decide +kernel
    have hlowOrdinal := Date.toOrdinal_le_iff.mpr hlow
    have hhighOrdinal := Date.toOrdinal_le_iff.mpr hhigh
    have hexists : ∃ a b, localDayBoundsUtc zone d=.ok (a,b) :=
      facts.exists_bounds (by omega) (by omega)
    obtain ⟨a,b,hbounds⟩ := hexists
    exact ⟨d,a,b,hd,hbounds⟩
  obtain ⟨first,a,b,hfirst,hstart⟩ := hvalid year month hyear.1 (by omega) hmonth.1 hmonth.2 (.inl hyear.2)
  obtain ⟨next,a',b',hnext,hstop⟩ : ∃ next a' b', nextMonth year month=.ok next ∧
      localDayBoundsUtc zone next=.ok (a',b') := by
    by_cases hdecember : month=12
    · rw [nextMonth,if_pos hdecember]
      exact hvalid (year+1) 1 (by omega) (by omega) le_rfl (by omega) (.inr rfl)
    · rw [nextMonth,if_neg hdecember]
      exact hvalid year (month+1) hyear.1 (by omega) (by omega) (by omega) (.inl hyear.2)
  obtain ⟨rows,hrows⟩ : ∃ rows, (activityRows zone db a a').mapM loadRow=.ok rows := by
    apply exists_mapM_eq_ok
    intro row hrow
    obtain ⟨log,-,hspan,-,hday⟩ := mem_activityRows.mp hrow
    rw [facts.mem_month_rows_iff hstart hstop,hday] at hspan
    have hpos := first.toOrdinal_bounds.1
    have hmax := next.toOrdinal_le_max
    obtain ⟨d,hd⟩ := Date.exists_ofOrdinal (n := row.1) (by omega) (by omega)
    exact ⟨(d,row.2),loadRow_eq_ok_iff.mpr (by rw [Date.toOrdinal_of_ofOrdinal hd])⟩
  rw [listDaysWithActivity,raised_eq_ok_iff.mpr hfirst,ok_bind,raised_eq_ok_iff.mpr hnext,ok_bind,
    raised_eq_ok_iff.mpr hstart,ok_bind]
  dsimp only
  rw [raised_eq_ok_iff.mpr hstop,ok_bind]
  dsimp only
  rw [raised_eq_ok_iff.mpr hrows,ok_bind]
  exact ⟨_,rfl⟩

end Overview

/-! ### The two views together -/

/-- The days partition the requests of a member, and the overview of a month shows the days with some. -/
structure ActivityDaysLaw (zone : ZoneRules) (db : Database) (memberId : Uuid) : Prop where
  own_day : ∀ day detail, listEntriesForMemberDay zone db memberId day=.ok detail →
    detail.entries.Perm ((dayLogs zone db memberId day).map RequestLog.entry)
  one_day : ∀ log ∈ db.requestLogs, log.memberId=some memberId →
    ∃! day, ∃ detail, listEntriesForMemberDay zone db memberId day=.ok detail ∧ log.entry ∈ detail.entries
  overview : ∀ year month days, listDaysWithActivity zone db year month=.ok days → ∀ day,
    Listed days day memberId ↔ (day.year=year ∧ day.month=month) ∧
      ∃ detail, listEntriesForMemberDay zone db memberId day=.ok detail ∧ detail.entries ≠ []
  overview_answers : ∀ year month, 2 ≤ year ∧ year ≤ 9998 → 1 ≤ month ∧ month ≤ 12 →
    ∃ days, listDaysWithActivity zone db year month=.ok days

theorem activityDays_law {zone : ZoneRules} {db : Database} {memberId : Uuid} (facts : ZoneFacts zone)
    (hclock : ∀ log ∈ db.requestLogs, ClockYears log.createdAt) (hmember : Existing db memberId) :
    ActivityDaysLaw zone db memberId := by
  refine ⟨fun day detail h => facts.entries_perm hmember h,?_,
    fun year month days h day => facts.listed_iff hmember h day,
    fun year month hyear hmonth => facts.listDays_isOk hyear hmonth⟩
  intro log hlog hown
  obtain ⟨day,hday,start,stop,hbounds⟩ := facts.exists_day (hclock log hlog)
  obtain ⟨name,hok⟩ := facts.listEntries_ok hmember hbounds
  have hmem : log.entry ∈ (dayLogs zone db memberId day).map RequestLog.entry :=
    List.mem_map_of_mem (List.mem_filter.mpr ⟨hlog,decide_eq_true ⟨hown,hday⟩⟩)
  refine ⟨day,⟨_,hok,(facts.entries_perm hmember hok).mem_iff.mpr hmem⟩,?_⟩
  intro other h
  obtain ⟨detail,hother,hentry⟩ := h
  obtain ⟨log',hlog',heq⟩ := List.mem_map.mp ((facts.entries_perm hmember hother).mem_iff.mp hentry)
  have hday' := (of_decide_eq_true (List.mem_filter.mp hlog').2).2
  have hcreated : log'.createdAt=log.createdAt := congrArg ActivityLogEntry.createdAt heq
  rw [hcreated,hday] at hday'
  exact Date.toOrdinal_injective (Int.ofNat.inj hday'.symm)

/-! ### Vienna in 2026 -/

def viennaChanges : List ClockChange :=
  [⟨739704*dayLength+3600000000,7200000000⟩,⟨739914*dayLength+3600000000,3600000000⟩]

lemma viennaChanges_separated : ClockChange.Separated 3600000000 viennaChanges := by
  refine ⟨?_,trivial⟩
  decide

def vienna2026 : ZoneRules := ⟨3600000000,viennaChanges,viennaChanges_separated⟩

lemma vienna2026_facts : ZoneFacts vienna2026 := by
  refine ⟨by decide,by decide,?_⟩
  intro n
  refine ⟨?_,?_,trivial⟩
  · change ¬ (739704*86400000000+3600000000+min 3600000000 7200000000 < n*86400000000 ∧
      n*86400000000 < 739704*86400000000+3600000000+max 3600000000 7200000000)
    omega
  · change ¬ (739914*86400000000+3600000000+min 7200000000 3600000000 < n*86400000000 ∧
      n*86400000000 < 739914*86400000000+3600000000+max 7200000000 3600000000)
    omega

/-- Requests in both passes of the repeated hour of 25 October. -/
def octoberLog : Database :=
  ⟨[⟨1,some (text "Max"),none⟩],
    [⟨10,some 1,text "GET",text "/a",739914*dayLength+1800000000⟩,
      ⟨11,some 1,text "GET",text "/b",739914*dayLength+5400000000⟩]⟩

theorem activityDays_october : ActivityDaysLaw vienna2026 octoberLog 1 := by
  refine activityDays_law vienna2026_facts ?_ ⟨_,List.mem_cons_self,rfl⟩
  intro log hlog
  rcases List.mem_cons.mp hlog with rfl | hlog
  · exact ⟨by decide,by decide⟩
  · rw [List.mem_singleton.mp hlog]
    exact ⟨by decide,by decide⟩

end VbApi.Activity
