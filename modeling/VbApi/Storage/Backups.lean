import Mathlib.Data.Prod.Lex
import VbApi.Foundations.PyText
import VbApi.Foundations.Calendar
import VbApi.Foundations.Sorting

/-! The names of database backups, the moments in them, and the newest backup among some keys. -/
namespace VbApi.Storage
open VbApi.Foundations

/-- A key of an object store as text. -/
abbrev ObjectKey := PyText

/-- A local date and the second of the day. -/
abbrev BackupTime := Date ×ₗ ℕ

/-! ### The fields of a timestamp -/

/-- `[lo-hi]`. -/
def digitIn (lo hi : ℕ) (c : CodePoint) : Option ℕ :=
  (asciiDigit? c).bind fun d => if lo ≤ d ∧ d ≤ hi then some d else none

/-- `[lo-hi]` and a second character that is read by itself. -/
def twoDigits (lo hi : ℕ) (second : CodePoint → Option ℕ) (a b : CodePoint) : Option ℕ := do
  return 10*(← digitIn lo hi a)+(← second b)

/-- `\d\d\d\d`. -/
def yearField : PyText → Option ℕ
  | [a,b,c,d] => do
    return 1000*(← digit? a)+100*(← digit? b)+10*(← digit? c)+(← digit? d)
  | _ => none

/-- `1[0-2]|0[1-9]|[1-9]`. -/
def monthField : PyText → Option ℕ
  | [a] => digitIn 1 9 a
  | [a,b] => (twoDigits 1 1 (digitIn 0 2) a b).or (twoDigits 0 0 (digitIn 1 9) a b)
  | _ => none

/-- `3[0-1]|[1-2]\d|0[1-9]|[1-9]| [1-9]`. -/
def dayField : PyText → Option ℕ
  | [a] => digitIn 1 9 a
  | [a,b] =>
    if a=codePoint ' ' then digitIn 1 9 b
    else ((twoDigits 3 3 (digitIn 0 1) a b).or (twoDigits 1 2 digit? a b)).or
      (twoDigits 0 0 (digitIn 1 9) a b)
  | _ => none

/-- `2[0-3]|[0-1]\d|\d`. -/
def hourField : PyText → Option ℕ
  | [a] => digit? a
  | [a,b] => (twoDigits 2 2 (digitIn 0 3) a b).or (twoDigits 0 1 digit? a b)
  | _ => none

/-- `[0-5]\d|\d`. -/
def minuteField : PyText → Option ℕ
  | [a] => digit? a
  | [a,b] => twoDigits 0 5 digit? a b
  | _ => none

/-- `6[0-1]|[0-5]\d|\d`. -/
def secondField : PyText → Option ℕ
  | [a] => digit? a
  | [a,b] => (twoDigits 6 6 (digitIn 0 1) a b).or (twoDigits 0 5 digit? a b)
  | _ => none

/-- The text up to a separator and the text after it. -/
def upTo (separator : Char) (s : PyText) : Option (PyText × PyText) :=
  match s.dropWhile (· ≠ codePoint separator) with
  | _::rest => some (s.takeWhile (· ≠ codePoint separator),rest)
  | [] => none

/-- `datetime.strptime(text, "%Y-%m-%d_%H-%M-%S")`. -/
def strptime (s : PyText) : Option BackupTime := do
  let (year,s) ← upTo '-' s
  let (month,s) ← upTo '-' s
  let (day,s) ← upTo '_' s
  let (hour,s) ← upTo '-' s
  let (minute,second) ← upTo '-' s
  let date ← (Date.ofParts (← yearField year) (← monthField month) (← dayField day)).toOption
  let hour ← hourField hour
  let minute ← minuteField minute
  let second ← secondField second
  if second < 60 then some (toLex (date,hour*3600+minute*60+second)) else none

/-! ### Backups -/

def timestampLength : ℕ := 19

def removePrefix (start s : PyText) : PyText := if start <+: s then s.drop start.length else s

/-- The timestamp of a backup name; what follows it is ignored. -/
def parseBackupTimestamp (backupName : PyText) : Option BackupTime :=
  if text ".dump" <:+ backupName then
    let stem := backupName.take (backupName.length-5)
    (upTo '-' stem).bind fun parts => strptime (parts.2.take timestampLength)
  else none

section Keys
variable (path : PyText)

/-- The prefix of the backups' keys. -/
def backupPrefix : PyText := path ++ text "/"

def backupTime (key : ObjectKey) : Option BackupTime :=
  parseBackupTimestamp (removePrefix (backupPrefix path) key)

/-- The keys with a timestamp, oldest first; keys of one moment in the order of their texts. -/
def datedBackupKeys (keys : List ObjectKey) : List (BackupTime ×ₗ ObjectKey) :=
  sortBy id (keys.filterMap fun key => (backupTime path key).map fun t => toLex (t,key))

def latestBackupKey (keys : List ObjectKey) : Option ObjectKey :=
  (datedBackupKeys path keys).getLast?.map fun dated => (ofLex dated).2

/-- The key has a timestamp, and it comes after all others with one. -/
def NewestIn (keys : List ObjectKey) (key : ObjectKey) : Prop :=
  key ∈ keys ∧ ∃ t, backupTime path key=some t ∧
    ∀ key' ∈ keys, ∀ t', backupTime path key'=some t' → toLex (t',key') ≤ toLex (t,key)

variable {path} {keys keys' : List ObjectKey} {key : ObjectKey}

lemma mem_datedBackupKeys {t : BackupTime} :
    toLex (t,key) ∈ datedBackupKeys path keys ↔ key ∈ keys ∧ backupTime path key=some t := by
  rw [datedBackupKeys,mem_sortBy,List.mem_filterMap]
  constructor
  · intro h
    obtain ⟨key',hmem,h⟩ := h
    obtain ⟨t',ht',heq⟩ := Option.map_eq_some_iff.mp h
    obtain ⟨rfl,rfl⟩ := Prod.mk.inj (toLex.injective heq)
    exact ⟨hmem,ht'⟩
  · intro h
    exact ⟨key,h.1,by rw [h.2]; rfl⟩

lemma NewestIn.unique {key' : ObjectKey} (h : NewestIn path keys key) (h' : NewestIn path keys key') :
    key=key' := by
  obtain ⟨hmem,t,ht,hle⟩ := h
  obtain ⟨hmem',t',ht',hle'⟩ := h'
  have heq := le_antisymm (hle' key hmem t ht) (hle key' hmem' t' ht')
  exact (Prod.mk.inj (toLex.injective heq)).2

lemma NewestIn.of_latestBackupKey (h : latestBackupKey path keys=some key) :
    NewestIn path keys key := by
  obtain ⟨dated,hlast,rfl⟩ := Option.map_eq_some_iff.mp h
  obtain ⟨⟨t,key⟩,rfl⟩ := toLex.surjective dated
  obtain ⟨hmem,hmax⟩ := le_of_sortBy_getLast? hlast
  rw [← mem_sortBy id] at hmem
  obtain ⟨hkey,ht⟩ := mem_datedBackupKeys.mp hmem
  refine ⟨hkey,t,ht,?_⟩
  intro key' hkey' t' ht'
  apply hmax
  rw [← mem_sortBy id]
  exact mem_datedBackupKeys.mpr ⟨hkey',ht'⟩

lemma latestBackupKey_eq_none_iff :
    latestBackupKey path keys=none ↔ ∀ key ∈ keys, backupTime path key=none := by
  rw [latestBackupKey,Option.map_eq_none_iff,List.getLast?_eq_none_iff]
  constructor
  · intro h key hkey
    cases ht : backupTime path key with
    | none => rfl
    | some t =>
      have hmem := mem_datedBackupKeys.mpr ⟨hkey,ht⟩
      rw [h] at hmem
      cases hmem
  · intro h
    rw [List.eq_nil_iff_forall_not_mem]
    intro dated hdated
    obtain ⟨⟨t,key⟩,rfl⟩ := toLex.surjective dated
    obtain ⟨hkey,ht⟩ := mem_datedBackupKeys.mp hdated
    rw [h key hkey] at ht
    cases ht

/-- The newest backup does not depend on the order of the keys. -/
theorem latestBackupKey_eq_some_iff : latestBackupKey path keys=some key ↔ NewestIn path keys key := by
  constructor
  · exact NewestIn.of_latestBackupKey
  · intro h
    cases hlatest : latestBackupKey path keys with
    | none =>
      obtain ⟨hmem,t,ht,-⟩ := h
      rw [latestBackupKey_eq_none_iff.mp hlatest key hmem] at ht
      cases ht
    | some key' => rw [(NewestIn.of_latestBackupKey hlatest).unique h]

end Keys

example : parseBackupTimestamp (text "production-2026-07-15_03-00-00-manual.dump")=
    some (toLex (Date.of 2026 7 15,10800)) := by decide +kernel

end VbApi.Storage
