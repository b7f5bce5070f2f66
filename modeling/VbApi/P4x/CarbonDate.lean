import VbApi.Foundations.IsoDate
import VbApi.Foundations.Results

/-! The UTC timestamp text of a bank date, as it enters the stored hashes. -/
namespace VbApi.P4x
open VbApi.Foundations

/-- Take `n` characters that `\d` matches. -/
def takeDecimals : ℕ → PyText → Option (PyText × PyText)
  | 0,s => some ([],s)
  | _+1,[] => none
  | n+1,c::s => if (digit? c).isSome then (takeDecimals n s).map fun r => (c::r.1,r.2) else none

def takeChar (c : Char) (s : PyText) : Option PyText :=
  match s with
  | d::s => if d=codePoint c then some s else none
  | [] => none

/-- `\d{4}-\d{2}-\d{2}` or `\d{2}:\d{2}:\d{2}`. -/
def takeTriple (width : ℕ) (separator : Char) (s : PyText) : Option (PyText × PyText) := do
  let (a,s) ← takeDecimals width s
  let s ← takeChar separator s
  let (b,s) ← takeDecimals 2 s
  let s ← takeChar separator s
  let (c,s) ← takeDecimals 2 s
  return (a ++ [codePoint separator] ++ b ++ [codePoint separator] ++ c,s)

/-- `(?:\.\d+)?`. -/
def skipFraction (s : PyText) : PyText :=
  match s with
  | c::d::s =>
    if c=codePoint '.' ∧ (digit? d).isSome then s.dropWhile fun e => (digit? e).isSome else c::d::s
  | s => s

def decimalValue (s : PyText) : ℕ := s.foldl (fun n c => n*10+(digit? c).getD 0) 0

structure CarbonMatch where
  date : PyText
  time : PyText
  negative : Bool
  hours : ℕ
  minutes : ℕ

/-- `(\d{4}-\d{2}-\d{2})T(\d{2}:\d{2}:\d{2})(?:\.\d+)?([+-])(\d{2})(\d{2})` at the start. -/
def carbonMatch (s : PyText) : Option CarbonMatch := do
  let (date,s) ← takeTriple 4 '-' s
  let s ← takeChar 'T' s
  let (time,s) ← takeTriple 2 ':' s
  let s := skipFraction s
  let (negative,s) ← match takeChar '+' s,takeChar '-' s with
    | some s,_ => some (false,s)
    | none,some s => some (true,s)
    | none,none => none
  let (hours,s) ← takeDecimals 2 s
  let (minutes,_) ← takeDecimals 2 s
  return ⟨date,time,negative,decimalValue hours,decimalValue minutes⟩

/-- The numbers of a matched date or time; `datetime.fromisoformat` reads ASCII digits only. -/
def asciiTriple (s : PyText) : Option (ℕ × ℕ × ℕ) :=
  match s.splitOnP (fun c => (asciiDigit? c).isNone && (digit? c).isNone) with
  | [a,b,c] =>
    if (a ++ b ++ c).all (fun d => (asciiDigit? d).isSome) then
      some (decimalValue a,decimalValue b,decimalValue c)
    else none
  | _ => none

/-- A moment of the local or UTC calendar, in seconds of its day. -/
structure Moment where
  date : Date
  second : ℕ

/-- `datetime.fromisoformat(f"{date}T{time}")`; 24:00:00 is the start of the next day. -/
def readMoment (date time : PyText) : Except DateError Moment := do
  match asciiTriple date,asciiTriple time with
  | some (year,month,day),some (hour,minute,second) =>
    let d ← Date.ofParts year month day
    if hour=24 ∧ minute=0 ∧ second=0 then
      match d.succDay with
      | .ok next => return ⟨next,0⟩
      | .error _ => throw .valueError
    else if hour < 24 ∧ minute < 60 ∧ second < 60 then return ⟨d,hour*3600+minute*60+second⟩
    else throw .valueError
  | _,_ => throw .valueError

/-- `dt.replace(tzinfo=tz).astimezone(UTC)` for an offset below a day. -/
def toUtc (m : Moment) (offset : ℤ) : Except DateError Moment := do
  let second : ℤ := m.second-offset
  if second < 0 then return ⟨← m.date.predDay,(second+86400).toNat⟩
  else if 86400 ≤ second then return ⟨← m.date.succDay,(second-86400).toNat⟩
  else return ⟨m.date,second.toNat⟩

def Moment.carbon (m : Moment) : PyText :=
  m.date.isoformat ++ text "T" ++ padded 2 (m.second/3600) ++ text ":" ++
    padded 2 (m.second/60%60) ++ text ":" ++ padded 2 (m.second%60) ++ text ".000000Z"

/-- The UTC timestamp of the bank's text, or midnight of the booking date when it has no offset. -/
def dateToCarbonJson (bookingDate : Date) (originalDateStr : PyText) : Except DateError PyText := do
  match carbonMatch (strip originalDateStr) with
  | none => return bookingDate.isoformat ++ text "T00:00:00.000000Z"
  | some m =>
    let moment ← readMoment m.date m.time
    let minutes := m.hours*60+m.minutes
    -- `timezone` refuses an offset of a day or more
    if 1440 ≤ minutes then throw .valueError
    else
      let utc ← toUtc moment (if m.negative then -(minutes*60 : ℤ) else minutes*60)
      return utc.carbon

example : dateToCarbonJson (Date.of 2025 1 1) (text "2025-01-01T00:30:00.000+0100")=
    .ok (text "2024-12-31T23:30:00.000000Z") := by
  decide +kernel

end VbApi.P4x
