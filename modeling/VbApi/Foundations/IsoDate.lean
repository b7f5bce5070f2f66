import VbApi.Foundations.Calendar
import VbApi.Foundations.PyText

/-! Dates as ISO 8601 text: `isoformat` and the forms that `date.fromisoformat` reads. -/
namespace VbApi.Foundations

/-- A number in decimal, with leading zeros up to a width. -/
def padded (width n : ℕ) : PyText :=
  let digits := (Nat.toDigits 10 n).map codePoint
  List.replicate (width-digits.length) (codePoint '0') ++ digits

namespace Date

def isoformat (d : Date) : PyText :=
  padded 4 d.year ++ text "-" ++ padded 2 d.month ++ text "-" ++ padded 2 d.day

def daysBeforeYear (year : ℕ) : ℕ :=
  (year-1)*365+(year-1)/4-(year-1)/100+(year-1)/400

def daysBeforeMonth (year month : ℕ) : ℕ :=
  ((List.range (month-1)).map fun m => daysInMonth year (m+1)).sum

/-- `d.toordinal()`: January 1 of year 1 is day 1. -/
def toOrdinal (d : Date) : ℕ := daysBeforeYear d.year+daysBeforeMonth d.year d.month+d.day

/-- `d.weekday()`: Monday is 0. -/
def weekday (d : Date) : ℕ := (d.toOrdinal+6)%7

def iterDays (next : Date → Except DateError Date) : ℕ → Date → Except DateError Date
  | 0,d => .ok d
  | n+1,d => next d >>= iterDays next n

/-- `d + timedelta(days=n)`. -/
def addDays (d : Date) : ℤ → Except DateError Date
  | .ofNat n => iterDays succDay n d
  | .negSucc n => iterDays predDay (n+1) d

/-- The Gregorian date of an ISO year, week and day; out of range is a value error. -/
def ofIsoWeek (year week day : ℕ) : Except DateError Date := do
  let first ← ofParts year 1 1
  let longYear := first.weekday=3 ∨ (first.weekday=2 ∧ isLeapYear year)
  if ¬ (1 ≤ week ∧ (week ≤ 52 ∨ (week=53 ∧ longYear)) ∧ 1 ≤ day ∧ day ≤ 7) then
    throw .valueError
  let monday : ℤ := if first.weekday ≤ 3 then -(first.weekday : ℤ) else 7-first.weekday
  match first.addDays (monday+(week-1)*7+(day-1)) with
  | .ok d => .ok d
  | .error _ => throw .valueError

/-- Take a number of exactly `n` ASCII digits. -/
def takeDigits : ℕ → ℕ → PyText → Option (ℕ × PyText)
  | 0,acc,s => some (acc,s)
  | _+1,_,[] => none
  | n+1,acc,c::s => (asciiDigit? c).bind fun v => takeDigits n (acc*10+v) s

def takeDash (separated : Bool) (s : PyText) : Option PyText :=
  if separated then
    match s with
    | c::s => if c=codePoint '-' then some s else none
    | [] => none
  else some s

/-- The week form after the `W`: two digits and an optional day. -/
def parseIsoWeek (year : ℕ) (separated : Bool) (s : PyText) : Except DateError Date :=
  match takeDigits 2 0 s with
  | none => .error .valueError
  | some (week,[]) => ofIsoWeek year week 1
  | some (week,s) =>
    match (takeDash separated s).bind (takeDigits 1 0) with
    | some (day,_) => ofIsoWeek year week day
    | none => .error .valueError

/-- The number of bytes of a code point in UTF-8. -/
def utf8Size (c : CodePoint) : ℕ :=
  if c.val < 0x80 then 1 else if c.val < 0x800 then 2 else if c.val < 0x10000 then 3 else 4

/-- `date.fromisoformat`: YYYY-MM-DD, YYYYMMDD, YYYY-Www-D, YYYYWwwD, YYYY-Www or YYYYWww. The
reader checks the length in bytes and stops after the day, whatever follows it. -/
def fromIsoformat (s : PyText) : Except DateError Date :=
  let size := (s.map utf8Size).sum
  -- a lone surrogate has no UTF-8 form
  if s.any (fun c => isHighSurrogate c || isLowSurrogate c) then .error .valueError
  else if ¬ (size=7 ∨ size=8 ∨ size=10) then .error .valueError
  else
    match takeDigits 4 0 s with
    | none => .error .valueError
    | some (year,s) =>
      let separated := s.head?=some (codePoint '-')
      let rest := if separated then s.tail else s
      if rest.head?=some (codePoint 'W') then parseIsoWeek year separated rest.tail
      else
        match takeDigits 2 0 rest with
        | none => .error .valueError
        | some (month,s) =>
          match (takeDash separated s).bind (takeDigits 2 0) with
          | some (day,_) => ofParts year month day
          | none => .error .valueError

end Date

example : (Date.fromIsoformat (text "2026-W01-1")).map Date.isoformat=.ok (text "2025-12-29") := by
  decide +kernel

example : (Date.fromIsoformat (text "20240229")).map Date.isoformat=.ok (text "2024-02-29") := by
  decide +kernel

end VbApi.Foundations
