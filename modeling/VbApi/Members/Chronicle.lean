import VbApi.Foundations.DayCount
import VbApi.Foundations.Pagination
import VbApi.Members.RolePeriods

/-! The weekly chronicle of the members: which anniversaries fall into the week after the run. -/
namespace VbApi.Members
open VbApi.Foundations
open VbApi.Standesdb (Uuid)

inductive AnniversaryStatus
  | lebend
  | verstorben
  deriving DecidableEq

inductive AnniversaryField
  | geburtsdatum
  | aufnahmedatum
  | burschungsdatum
  | philistrierungsdatum
  deriving DecidableEq

/-- The column of the field; its accuracy has the same name. -/
def AnniversaryField.column : AnniversaryField → DateField
  | .geburtsdatum => .geburtsdatum
  | .aufnahmedatum => .aufnahmedatum
  | .burschungsdatum => .burschungsdatum
  | .philistrierungsdatum => .philistrierungsdatum

def anniversaryFields : List AnniversaryField :=
  [.geburtsdatum,.aufnahmedatum,.burschungsdatum,.philistrierungsdatum]

structure AnniversaryEntry where
  cn : PyText
  date : PyText
  years : ℤ
  daysTo : ℤ
  leapDayNote : Option PyText
  deriving DecidableEq

/-- The entries by organisation, status and field. -/
abbrev AnniversaryResult :=
  Dict PyText (Dict AnniversaryStatus (Dict AnniversaryField (List AnniversaryEntry)))

def leapDayText : PyText := text "Jahrestag fällt eigentlich auf den 29. Februar"

def formatDateDe (d : Date) : PyText :=
  padded 1 d.day ++ text ". " ++ padded 1 d.month ++ text ". " ++ padded 1 d.year

/-- Monday and Sunday of the week that follows; a Monday stands for its own week. -/
def weekWindow (given : Date) : Except DateError (Date × Date) := do
  let dayOfWeek := given.weekday+1
  let weekStart ← given.addDays ((8-dayOfWeek)%7 : ℕ)
  let weekEnd ← weekStart.addDays (6 : ℕ)
  return (weekStart,weekEnd)

/-- The date in a year, with 28 February in place of a missing 29 February, and whether it was. -/
def safeAnniversaryDate (year month day : ℕ) : Except DateError (Option (Date × Bool)) :=
  match Date.ofParts year month day with
  | .ok d => .ok (some (d,false))
  | .error _ =>
    if month=2 ∧ day=29 then do
      return some (← Date.ofParts year 2 28,true)
    else .ok none

/-- The loop over the years of the window. -/
def anniversaryLoop (value weekStart weekEnd : Date) : List ℕ → Except DateError (Option (Date × Bool))
  | [] => .ok none
  | year::years => do
    match ← safeAnniversaryDate year value.month value.day with
    | some candidate =>
      if weekStart ≤ candidate.1 ∧ candidate.1 ≤ weekEnd then return some candidate
      else anniversaryLoop value weekStart weekEnd years
    | none => anniversaryLoop value weekStart weekEnd years

def anniversaryInWindow (value weekStart weekEnd : Date) : Except DateError (Option (Date × Bool)) :=
  anniversaryLoop value weekStart weekEnd (sortBy id [weekStart.year,weekEnd.year].dedup)

/-- The filter of the query on members. -/
def selected (f : AnniversaryField) (m : Member) : Bool :=
  (m.columns.date f.column).isSome &&
    (match m.columns.accuracy f.column with
    | some accuracy => 3 ≤ accuracy
    | none => false) &&
    !m.columns.flag .entlassen

/-- `m.org_id or "vbw"`. -/
def chronicleOrg (m : Member) : PyText :=
  match m.columns.text .orgId with
  | some org => if org=[] then text "vbw" else org
  | none => text "vbw"

def chronicleStatus (m : Member) : AnniversaryStatus :=
  if m.columns.flag .verstorben then .verstorben else .lebend

def AnniversaryResult.add (result : AnniversaryResult) (org : PyText) (status : AnniversaryStatus)
    (f : AnniversaryField) (entry : AnniversaryEntry) : AnniversaryResult :=
  let byStatus := result.getD org .empty
  let byField := byStatus.getD status .empty
  result.set org (byStatus.set status (byField.set f (byField.getD f [] ++ [entry])))

/-- The entry of an anniversary on `nextDate`. -/
def newEntry (m : Member) (given value nextDate : Date) (leapShifted : Bool) : AnniversaryEntry where
  cn := m.cn
  date := formatDateDe nextDate
  years := nextDate.year-value.year
  daysTo := nextDate.toOrdinal-given.toOrdinal
  leapDayNote := if leapShifted then some leapDayText else none

/-- What one round of the loop over the members finds. -/
def memberEntry (f : AnniversaryField) (given : Date) (window : Date × Date) (m : Member) :
    Except DateError (Option AnniversaryEntry) :=
  match m.columns.date f.column with
  | none => .ok none
  | some value => do
    match ← anniversaryInWindow value window.1 window.2 with
    | none => return none
    | some (nextDate,leapShifted) => return some (newEntry m given value nextDate leapShifted)

def collectFieldAnniversaries (f : AnniversaryField) (given : Date) (window : Date × Date)
    (members : List (Uuid × Member)) (result : AnniversaryResult) : Except DateError AnniversaryResult :=
  members.foldlM (fun result m => do
    match ← memberEntry f given window m.2 with
    | none => return result
    | some entry => return result.add (chronicleOrg m.2) (chronicleStatus m.2) f entry) result

/-- A run of the job: the rows that it finds, each query in an order of its own. -/
structure ChronicleRun where
  members : Dict Uuid Member
  given : Date
  orders : AnniversaryField → OrderBy fun _ : Uuid × Member => ()

def selectedMembers (run : ChronicleRun) (f : AnniversaryField) : List (Uuid × Member) :=
  (run.orders f).pick (run.members.entries.filter fun m => selected f m.2)

def computeAnniversaries (run : ChronicleRun) : Except DateError AnniversaryResult := do
  let window ← weekWindow run.given
  let result ← anniversaryFields.foldlM
    (fun result f => collectFieldAnniversaries f run.given window (selectedMembers run f) result) .empty
  return result.mapValues fun org => org.mapValues fun status => status.mapValues (sortBy (·.daysTo))

end VbApi.Members
