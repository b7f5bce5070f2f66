import VbApi.Activity.Days
import VbApi.Activity.Redact
import VbApi.Foundations.Dict
import VbApi.Foundations.Interleaving

/-! The log of requests and the user agents it names: any number of requests are recorded at once, each
statement by statement, while the cleanup deletes old rows and agents that no row names. -/
namespace VbApi.Activity
open VbApi.Foundations

/-! ### What is stored of a payload -/

def hexDigit (n : ℕ) : CodePoint := codePoint (Nat.digitChar n)

/-- A character as `json.dumps` writes it without `ensure_ascii`. -/
def escapeChar (c : CodePoint) : PyText :=
  if c=codePoint '"' then text "\\\""
  else if c=codePoint '\\' then text "\\\\"
  else if c.val=0x0A then text "\\n"
  else if c.val=0x0D then text "\\r"
  else if c.val=0x09 then text "\\t"
  else if c.val=0x0C then text "\\f"
  else if c.val=0x08 then text "\\b"
  else if c.val < 0x20 then text "\\u00" ++ [hexDigit (c.val/16),hexDigit (c.val%16)]
  else [c]

def dumpsText (s : PyText) : PyText := text "\"" ++ s.flatMap escapeChar ++ text "\""

mutual
/-- `json.dumps(value, ensure_ascii=False)`. -/
def dumps : JsonValue → PyText
  | .null => text "null"
  | .bool true => text "true"
  | .bool false => text "false"
  | .int n => text (toString n)
  | .float repr => repr
  | .str s => dumpsText s
  | .list items => text "[" ++ join (text ", ") (dumpsItems items) ++ text "]"
  | .dict entries => text "\x7b" ++ join (text ", ") (dumpsEntries entries) ++ text "\x7d"

def dumpsItems : List JsonValue → List PyText
  | [] => []
  | v::items => dumps v::dumpsItems items

def dumpsEntries : List (PyText × JsonValue) → List PyText
  | [] => []
  | (key,v)::entries => (dumpsText key ++ text ": " ++ dumps v)::dumpsEntries entries
end

def maxStoredJsonChars : ℕ := 65536

def capStoredSize (v : JsonValue) : JsonValue :=
  if (dumps v).length > maxStoredJsonChars then .null else v

/-! ### Rows and steps -/

def maxUserAgentLength : ℕ := 512

structure RecordRequest where
  clientIp : PyText
  clientIps : List PyText
  authHeader : Option PyText
  userAgentString : Option PyText
  requestMethod : PyText
  requestPath : PyText
  requestInput : JsonValue
  responseStatus : ℕ
  responseContent : JsonValue
  memoryUsage : ℕ

structure StoredRequestLog where
  clientIp : PyText
  clientIps : List PyText
  clientUserAgentId : Option Uuid
  memberId : Option Uuid
  requestMethod : PyText
  requestPath : PyText
  requestInput : JsonValue
  responseStatus : ℕ
  responseContent : JsonValue
  memoryUsage : ℕ
  createdAt : ℤ

/-- The committed rows, and the entries of the index on `string` that are not committed yet. -/
structure AuditTables where
  /-- The `email` of each member. -/
  members : Dict Uuid PyText
  /-- The `string` of each user agent. -/
  agents : Dict Uuid PyText
  pending : Dict PyText (ClientId × Uuid)
  logs : Dict Uuid StoredRequestLog
  /-- The `created_at` of each sent mail. -/
  sentEmails : List ℤ
  /-- The cleanup that holds the rows it deletes. -/
  cleaning : Option ClientId
  nextId : Uuid

/-- Why a request is missing in the log. -/
inductive Loss
  | failed
  /-- `NoResultFound`, although the insert had yielded to a row. -/
  | noRow (id : Uuid)
  /-- The foreign key of the log. -/
  | agentGone (id : Uuid)

inductive LogPlace
  | idle
  | begun (r : RecordRequest) (memberId : Option Uuid)
  /-- The look-up found no agent; next the insert. -/
  | missing (r : RecordRequest) (memberId : Option Uuid) (string : PyText)
  /-- The insert yielded to the row `found`; next the second look-up, by the string again. -/
  | conflicted (r : RecordRequest) (memberId : Option Uuid) (string : PyText) (found : Uuid)
  | ready (r : RecordRequest) (memberId : Option Uuid) (agentId : Option Uuid)
  | recorded (r : RecordRequest) (memberId : Option Uuid) (logId : Uuid) (createdAt : ℤ)
  | lost (r : RecordRequest) (loss : Loss)
  /-- The cleanup has deleted these logs, and some mails. -/
  | purging (cutoff : ℤ) (logIds : List Uuid) (mails : ℕ)
  /-- The cleanup deletes these agents next, and commits. -/
  | removing (cutoff : ℤ) (logIds : List Uuid) (agentIds : List Uuid)
  | cleaned

/-- A request or a cleanup begins, takes its next step, or fails and rolls back; `time` is the clock. -/
inductive LogInput
  | request (r : RecordRequest)
  | cleanup (cutoff : ℤ)
  | next (time : ℤ)
  | fail

section Steps
variable (data : LowerData) (emailFromToken : PyText → Option PyText)

def resolveMemberId (s : AuditTables) (authHeader : Option PyText) : Option Uuid :=
  match authHeader with
  | none | some [] => none
  | some header =>
    if text "bearer " <+: lower data header then
      (emailFromToken (header.drop (text "Bearer ").length)).bind fun email =>
        (s.members.find? fun _ e => e=email).map (·.1)
    else none

def RecordRequest.log (r : RecordRequest) (memberId clientUserAgentId : Option Uuid) (createdAt : ℤ) :
    StoredRequestLog where
  clientIp := r.clientIp
  clientIps := r.clientIps
  clientUserAgentId := clientUserAgentId
  memberId := memberId
  requestMethod := r.requestMethod
  requestPath := r.requestPath
  requestInput := redact data (capStoredSize r.requestInput)
  responseStatus := r.responseStatus
  responseContent := redact data (capStoredSize r.responseContent)
  memoryUsage := r.memoryUsage
  createdAt := createdAt

/-- The user agent to store, if there is one. -/
def RecordRequest.bounded (r : RecordRequest) : Option PyText :=
  match r.userAgentString with
  | none | some [] => none
  | some string => some (string.take maxUserAgentLength)

namespace AuditTables
variable (s : AuditTables) (c : ClientId)

def findClientUserAgentId (string : PyText) : Option Uuid :=
  (s.agents.find? fun _ a => a=string).map (·.1)

/-- Take back the entry of the index, if it is the client's own. -/
def rollback : RecordRequest → AuditTables := fun r =>
  match r.bounded with
  | none => s
  | some string =>
    if (s.pending.get? string).map (·.1)=some c then { s with pending := s.pending.erase string }
    else s

def addLog (log : StoredRequestLog) : AuditTables :=
  { s with logs := s.logs.set s.nextId log, nextId := s.nextId+1 }

/-- The row of a new user agent becomes visible. -/
def commitAgent (string : PyText) (id : Uuid) : AuditTables :=
  { s with agents := s.agents.set id string, pending := s.pending.erase string }

/-- Insert the log and commit; the agent has to be there. -/
def writeLog (r : RecordRequest) (memberId agentId : Option Uuid) (time : ℤ) :
    AuditTables × LogPlace :=
  let log := r.log data memberId agentId time
  match agentId,r.bounded with
  | none,_ => (s.addLog log,.recorded r memberId s.nextId time)
  | some id,none => (s,.lost r (.agentGone id))
  | some id,some string =>
    if s.pending.get? string=some (c,id) then
      ((s.commitAgent string id).addLog log,.recorded r memberId s.nextId time)
    else if (s.agents.get? id).isSome then (s.addLog log,.recorded r memberId s.nextId time)
    else (s,.lost r (.agentGone id))

/-- `ON CONFLICT DO NOTHING`: wait for another insert of the value, and yield to a row. -/
def insertAgent (r : RecordRequest) (memberId : Option Uuid) (string : PyText) :
    Option (AuditTables × LogPlace) :=
  match s.findClientUserAgentId string with
  | some found => some (s,.conflicted r memberId string found)
  | none =>
    match s.pending.get? string with
    | some _ => none
    | none => some ({ s with
        pending := s.pending.set string (c,s.nextId)
        nextId := s.nextId+1 },.ready r memberId (some s.nextId))

/-- The agents that no log names, once the deleted logs are gone. -/
def orphanIds (logIds : List Uuid) : List Uuid :=
  s.agents.keysWhere fun id _ =>
    (s.logs.keysWhere fun logId log => log.clientUserAgentId=some id ∧ logId ∉ logIds).isEmpty

/-- The foreign key of a log is set to null when its agent goes. -/
def forget (agentIds : List Uuid) (log : StoredRequestLog) : StoredRequestLog :=
  if ∃ id ∈ agentIds, log.clientUserAgentId=some id then { log with clientUserAgentId := none }
  else log

def commitCleanup (cutoff : ℤ) (logIds agentIds : List Uuid) : AuditTables :=
  { s with
    agents := s.agents.eraseAll agentIds
    logs := (s.logs.eraseAll logIds).mapValues (forget agentIds)
    sentEmails := s.sentEmails.filter fun time => cutoff ≤ time
    cleaning := none }

end AuditTables

/-- The requests of the web application and the cleanup of the worker. -/
def auditProgram : Program AuditTables LogPlace LogInput := fun c s place input =>
  match place,input with
  | .idle,.request r => some (s,.begun r (resolveMemberId data emailFromToken s r.authHeader))
  | .idle,.cleanup cutoff =>
    if s.cleaning.isSome then none
    else some ({ s with cleaning := some c },
      .purging cutoff (s.logs.keysWhere fun _ log => log.createdAt < cutoff)
        (s.sentEmails.countP fun time => time < cutoff))
  | .begun r memberId,.next _ =>
    match r.bounded with
    | none => some (s,.ready r memberId none)
    | some string =>
      match s.findClientUserAgentId string with
      | some id => some (s,.ready r memberId (some id))
      | none => some (s,.missing r memberId string)
  | .missing r memberId string,.next _ => s.insertAgent c r memberId string
  | .conflicted r memberId string found,.next _ =>
    match s.findClientUserAgentId string with
    | some id => some (s,.ready r memberId (some id))
    | none => some (s,.lost r (.noRow found))
  | .ready r memberId agentId,.next time => some (s.writeLog data c r memberId agentId time)
  | .purging cutoff logIds mails,.next _ =>
    some (s,.removing cutoff logIds (if logIds=[] ∧ mails=0 then [] else s.orphanIds logIds))
  | .removing cutoff logIds agentIds,.next _ =>
    some (s.commitCleanup cutoff logIds agentIds,.cleaned)
  | .begun r _,.fail | .missing r _ _,.fail | .conflicted r _ _ _,.fail | .ready r _ _,.fail =>
    some (s.rollback c r,.lost r .failed)
  | .purging _ _ _,.fail | .removing _ _ _,.fail => some ({ s with cleaning := none },.cleaned)
  | _,_ => none

end Steps

/-! ### What the tables keep -/

/-- Values are unique, also those to come, ids are not used twice, and the agent of a log is there. -/
structure AuditSound (s : AuditTables) : Prop where
  unique : ∀ a b string, s.agents.get? a=some string → s.agents.get? b=some string → a=b
  bounded : ∀ a string, s.agents.get? a=some string → string.length ≤ maxUserAgentLength
  agents_fresh : ∀ a string, s.agents.get? a=some string → a < s.nextId
  logs_fresh : ∀ id log, s.logs.get? id=some log → id < s.nextId
  pending_fresh : ∀ string c a, s.pending.get? string=some (c,a) → a < s.nextId
  pending_bounded : ∀ string c a, s.pending.get? string=some (c,a) →
    string.length ≤ maxUserAgentLength
  pending_row : ∀ string c a, s.pending.get? string=some (c,a) → s.agents.get? a=none
  pending_value : ∀ string c a b, s.pending.get? string=some (c,a) → s.agents.get? b ≠ some string
  pending_id : ∀ x y c d a, s.pending.get? x=some (c,a) → s.pending.get? y=some (d,a) → x=y
  log_agent : ∀ id log a, s.logs.get? id=some log → log.clientUserAgentId=some a →
    ∃ string, s.agents.get? a=some string

section Sound
variable {s : AuditTables} {c : ClientId} {string : PyText}

lemma findClientUserAgentId_some {a : Uuid} (h : s.findClientUserAgentId string=some a) :
    s.agents.get? a=some string := by
  obtain ⟨⟨b,x⟩,hfind,rfl⟩ := Option.map_eq_some_iff.mp h
  obtain ⟨hget,hx⟩ := Dict.get?_of_find? hfind
  rw [hget,of_decide_eq_true hx]

lemma findClientUserAgentId_none (h : s.findClientUserAgentId string=none) (a : Uuid) :
    s.agents.get? a ≠ some string := by
  intro hget
  have hnot := List.find?_eq_none.mp (Option.map_eq_none_iff.mp h) (a,string)
    ((Dict.get?_eq_some_iff _ _ _).mp hget)
  exact hnot (decide_eq_true rfl)

lemma AuditSound.reserve (h : AuditSound s) (hbounded : string.length ≤ maxUserAgentLength)
    (hnone : ∀ a, s.agents.get? a ≠ some string) :
    AuditSound { s with pending := s.pending.set string (c,s.nextId), nextId := s.nextId+1 } := by
  have hpending : ∀ x d a, (s.pending.set string (c,s.nextId)).get? x=some (d,a) →
      x=string ∧ a=s.nextId ∨ s.pending.get? x=some (d,a) := by
    intro x d a hx
    rw [Dict.get?_set] at hx
    split_ifs at hx with heq
    · cases hx
      exact .inl ⟨heq,rfl⟩
    · exact .inr hx
  constructor
  · exact h.unique
  · exact h.bounded
  · exact fun a x ha => Nat.lt_succ_of_lt (h.agents_fresh a x ha)
  · exact fun id log hlog => Nat.lt_succ_of_lt (h.logs_fresh id log hlog)
  · intro x d a hx
    obtain ⟨-,rfl⟩ | hx := hpending x d a hx
    · exact Nat.lt_succ_self _
    · exact Nat.lt_succ_of_lt (h.pending_fresh x d a hx)
  · intro x d a hx
    obtain ⟨rfl,-⟩ | hx := hpending x d a hx
    · exact hbounded
    · exact h.pending_bounded x d a hx
  · intro x d a hx
    obtain ⟨-,rfl⟩ | hx := hpending x d a hx
    · by_contra hsome
      obtain ⟨y,hy⟩ := Option.ne_none_iff_exists'.mp hsome
      exact absurd (h.agents_fresh _ y hy) (lt_irrefl _)
    · exact h.pending_row x d a hx
  · intro x d a b hx
    obtain ⟨rfl,-⟩ | hx := hpending x d a hx
    · exact hnone b
    · exact h.pending_value x d a b hx
  · intro x y d e a hx hy
    obtain ⟨hxs,hxa⟩ | hx := hpending x d a hx
    · obtain ⟨hys,-⟩ | hy := hpending y e a hy
      · exact hxs.trans hys.symm
      · exact absurd (hxa ▸ h.pending_fresh y e a hy) (lt_irrefl _)
    · obtain ⟨-,hya⟩ | hy := hpending y e a hy
      · exact absurd (hya ▸ h.pending_fresh x d a hx) (lt_irrefl _)
      · exact h.pending_id x y d e a hx hy
  · exact h.log_agent

/-- Fewer entries to come, and the same rows. -/
lemma AuditSound.of_pending (h : AuditSound s) {s' : AuditTables} (hagents : s'.agents=s.agents)
    (hlogs : s'.logs=s.logs) (hnext : s'.nextId=s.nextId)
    (hpending : ∀ x p, s'.pending.get? x=some p → s.pending.get? x=some p) : AuditSound s' := by
  constructor
  · rw [hagents]
    exact h.unique
  · rw [hagents]
    exact h.bounded
  · rw [hagents,hnext]
    exact h.agents_fresh
  · rw [hlogs,hnext]
    exact h.logs_fresh
  · rw [hnext]
    exact fun x d a hx => h.pending_fresh x d a (hpending x _ hx)
  · exact fun x d a hx => h.pending_bounded x d a (hpending x _ hx)
  · rw [hagents]
    exact fun x d a hx => h.pending_row x d a (hpending x _ hx)
  · rw [hagents]
    exact fun x d a b hx => h.pending_value x d a b (hpending x _ hx)
  · exact fun x y d e a hx hy => h.pending_id x y d e a (hpending x _ hx) (hpending y _ hy)
  · rw [hagents,hlogs]
    exact h.log_agent

lemma get?_of_erase {x : PyText} {p : ClientId × Uuid}
    (h : (s.pending.erase string).get? x=some p) : x ≠ string ∧ s.pending.get? x=some p := by
  rw [Dict.get?_erase] at h
  split_ifs at h with heq
  exact ⟨heq,h⟩

lemma AuditSound.rollback (h : AuditSound s) (r : RecordRequest) : AuditSound (s.rollback c r) := by
  unfold AuditTables.rollback
  cases r.bounded with
  | none => exact h
  | some x =>
    dsimp only
    split_ifs
    · exact h.of_pending rfl rfl rfl fun y p hy => (get?_of_erase hy).2
    · exact h

lemma AuditSound.addLog (h : AuditSound s) {log : StoredRequestLog}
    (hagent : ∀ a, log.clientUserAgentId=some a → ∃ x, s.agents.get? a=some x) :
    AuditSound (s.addLog log) := by
  constructor
  · exact h.unique
  · exact h.bounded
  · exact fun a x ha => Nat.lt_succ_of_lt (h.agents_fresh a x ha)
  · intro id l hl
    change (s.logs.set s.nextId log).get? id=some l at hl
    rw [Dict.get?_set] at hl
    split_ifs at hl with heq
    · rw [heq]
      exact Nat.lt_succ_self _
    · exact Nat.lt_succ_of_lt (h.logs_fresh id l hl)
  · exact fun x d a hx => Nat.lt_succ_of_lt (h.pending_fresh x d a hx)
  · exact h.pending_bounded
  · exact h.pending_row
  · exact h.pending_value
  · exact h.pending_id
  · intro id l a hl ha
    change (s.logs.set s.nextId log).get? id=some l at hl
    rw [Dict.get?_set] at hl
    split_ifs at hl with heq
    · cases hl
      exact hagent a ha
    · exact h.log_agent id l a hl ha

lemma AuditSound.commitAgent (h : AuditSound s) {a : Uuid}
    (hown : s.pending.get? string=some (c,a)) : AuditSound (s.commitAgent string a) := by
  have hagents : ∀ b x, (s.agents.set a string).get? b=some x →
      b=a ∧ x=string ∨ b ≠ a ∧ s.agents.get? b=some x := by
    intro b x hb
    rw [Dict.get?_set] at hb
    split_ifs at hb with heq
    · cases hb
      exact .inl ⟨heq,rfl⟩
    · exact .inr ⟨heq,hb⟩
  constructor
  · intro b d x hb hd
    obtain ⟨rfl,rfl⟩ | ⟨-,hb'⟩ := hagents b x hb
    · obtain ⟨rfl,-⟩ | ⟨-,hd'⟩ := hagents d x hd
      · rfl
      · exact absurd hd' (h.pending_value x c b d hown)
    · obtain ⟨rfl,rfl⟩ | ⟨-,hd'⟩ := hagents d x hd
      · exact absurd hb' (h.pending_value x c d b hown)
      · exact h.unique b d x hb' hd'
  · intro b x hb
    obtain ⟨-,rfl⟩ | ⟨-,hb⟩ := hagents b x hb
    · exact h.pending_bounded x c a hown
    · exact h.bounded b x hb
  · intro b x hb
    obtain ⟨rfl,-⟩ | ⟨-,hb⟩ := hagents b x hb
    · exact h.pending_fresh string c b hown
    · exact h.agents_fresh b x hb
  · exact h.logs_fresh
  · exact fun x d b hx => h.pending_fresh x d b (get?_of_erase hx).2
  · exact fun x d b hx => h.pending_bounded x d b (get?_of_erase hx).2
  · intro x d b hx
    obtain ⟨hne,hx⟩ := get?_of_erase hx
    have hother : b ≠ a := fun heq => hne (h.pending_id x string d c a (heq ▸ hx) hown)
    exact (Dict.get?_set_of_ne _ hother _).trans (h.pending_row x d b hx)
  · intro x d b b' hx hb'
    obtain ⟨hne,hx⟩ := get?_of_erase hx
    obtain ⟨-,rfl⟩ | ⟨-,hb'⟩ := hagents b' x hb'
    · exact hne rfl
    · exact h.pending_value x d b b' hx hb'
  · exact fun x y d e b hx hy => h.pending_id x y d e b (get?_of_erase hx).2 (get?_of_erase hy).2
  · intro id log b hlog hb
    obtain ⟨x,hx⟩ := h.log_agent id log b hlog hb
    by_cases heq : b=a
    · exact ⟨string,by rw [heq]; exact Dict.get?_set_self _ _ _⟩
    · exact ⟨x,(Dict.get?_set_of_ne _ heq _).trans hx⟩

lemma get?_commitCleanup_logs {cutoff : ℤ} {logIds agentIds : List Uuid} {id : Uuid}
    {log : StoredRequestLog} : (s.commitCleanup cutoff logIds agentIds).logs.get? id=some log ↔
      ∃ old, s.logs.get? id=some old ∧ id ∉ logIds ∧ log=AuditTables.forget agentIds old := by
  change ((s.logs.eraseAll logIds).mapValues _).get? id=some log ↔ _
  rw [Dict.get?_mapValues,Option.map_eq_some_iff]
  simp only [Dict.get?_eraseAll_eq_some_iff]
  constructor
  · rintro ⟨old,⟨hnot,hold⟩,rfl⟩
    exact ⟨old,hold,hnot,rfl⟩
  · rintro ⟨old,hold,hnot,rfl⟩
    exact ⟨old,⟨hnot,hold⟩,rfl⟩

lemma forget_agent {agentIds : List Uuid} {log : StoredRequestLog} {a : Uuid}
    (h : (AuditTables.forget agentIds log).clientUserAgentId=some a) :
    log.clientUserAgentId=some a ∧ a ∉ agentIds := by
  unfold AuditTables.forget at h
  split_ifs at h with hmem
  exact ⟨h,fun ha => hmem ⟨a,ha,h⟩⟩

lemma AuditSound.commitCleanup (h : AuditSound s) (cutoff : ℤ) (logIds agentIds : List Uuid) :
    AuditSound (s.commitCleanup cutoff logIds agentIds) := by
  have hagents : ∀ a x, (s.agents.eraseAll agentIds).get? a=some x → s.agents.get? a=some x :=
    fun a x ha => ((Dict.get?_eraseAll_eq_some_iff _ _ _ _).mp ha).2
  constructor
  · exact fun a b x ha hb => h.unique a b x (hagents a x ha) (hagents b x hb)
  · exact fun a x ha => h.bounded a x (hagents a x ha)
  · exact fun a x ha => h.agents_fresh a x (hagents a x ha)
  · intro id log hlog
    obtain ⟨old,hold,-,-⟩ := get?_commitCleanup_logs.mp hlog
    exact h.logs_fresh id old hold
  · exact h.pending_fresh
  · exact h.pending_bounded
  · intro x d a hx
    by_contra hsome
    obtain ⟨y,hy⟩ := Option.ne_none_iff_exists'.mp hsome
    have hrow := h.pending_row x d a hx
    rw [hagents a y hy] at hrow
    cases hrow
  · exact fun x d a b hx hb => h.pending_value x d a b hx (hagents b x hb)
  · exact h.pending_id
  · intro id log a hlog ha
    obtain ⟨old,hold,-,rfl⟩ := get?_commitCleanup_logs.mp hlog
    obtain ⟨hagent,hnot⟩ := forget_agent ha
    obtain ⟨x,hx⟩ := h.log_agent id old a hold hagent
    exact ⟨x,(Dict.get?_eraseAll_eq_some_iff _ _ _ _).mpr ⟨hnot,hx⟩⟩

end Sound
/-! ### What a client relies on while others go on -/

/-- The id had a row once, and never has one again. -/
def Removed (s : AuditTables) (a : Uuid) : Prop :=
  s.agents.get? a=none ∧ a < s.nextId ∧ ∀ x d, s.pending.get? x ≠ some (d,a)

section Places
variable (data : LowerData) (allow : Prop) (horizon : ℤ)

/-- Logs go only to a cleanup, when they are older than the horizon, and so do their agents. -/
def LogsKept (s s' : AuditTables) : Prop :=
  ∀ id log, s.logs.get? id=some log → (allow ∧ log.createdAt < horizon) ∨
    ∃ agent, s'.logs.get? id=some { log with clientUserAgentId := agent } ∧
      (agent=log.clientUserAgentId ∨ allow ∧ agent=none)

/-- What a step of another client does at most; with cleanups up to a horizon, if they are allowed. -/
structure Evolves (c : ClientId) (s s' : AuditTables) : Prop where
  next : s.nextId ≤ s'.nextId
  agents : ∀ a x, s.agents.get? a=some x → s'.agents.get? a=some x ∨ allow ∧ Removed s' a
  removed : ∀ a, Removed s a → Removed s' a
  pending : ∀ x a, s.pending.get? x=some (c,a) → s'.pending.get? x=some (c,a)
  logs : LogsKept allow horizon s s'
  old_logs : ∀ id log', id < s.nextId → s'.logs.get? id=some log' →
    ∃ log, s.logs.get? id=some log ∧ log'.createdAt=log.createdAt

/-- The agent of a log is that of its request, unless a cleanup took it. -/
def AgentTold (s : AuditTables) (r : RecordRequest) (agent : Option Uuid) : Prop :=
  (agent=none ∧ r.bounded=none) ∨
  (∃ a x, agent=some a ∧ r.bounded=some x ∧ s.agents.get? a=some x) ∨
  (allow ∧ agent=none)

/-- Logs that a cleanup may delete. -/
def Expired (s : AuditTables) (logIds : List Uuid) : Prop :=
  ∀ id ∈ logIds, id < s.nextId ∧ ∀ log, s.logs.get? id=some log → log.createdAt < horizon

def LossTold (s : AuditTables) : Loss → Prop
  | .failed => True
  | .noRow a | .agentGone a => allow ∧ Removed s a

def PlaceHolds (c : ClientId) (s : AuditTables) : LogPlace → Prop
  | .idle | .begun _ _ | .cleaned => True
  | .missing r _ x => r.bounded=some x
  | .conflicted r _ x a => r.bounded=some x ∧ (s.agents.get? a=some x ∨ allow ∧ Removed s a)
  | .ready r _ none => r.bounded=none
  | .ready r _ (some a) => ∃ x, r.bounded=some x ∧
    (s.pending.get? x=some (c,a) ∨ s.agents.get? a=some x ∨ allow ∧ Removed s a)
  | .recorded r memberId id time => id < s.nextId ∧ ((allow ∧ time < horizon) ∨
    ∃ agent, s.logs.get? id=some (r.log data memberId agent time) ∧ AgentTold allow s r agent)
  | .lost _ loss => LossTold allow s loss
  | .purging _ logIds _ | .removing _ logIds _ => allow ∧ Expired horizon s logIds

variable {data allow horizon} {c : ClientId} {s s' s'' : AuditTables}

lemma LogsKept.refl (s : AuditTables) : LogsKept allow horizon s s :=
  fun _ log h => .inr ⟨log.clientUserAgentId,h,.inl rfl⟩

lemma LogsKept.trans (h : LogsKept allow horizon s s') (h' : LogsKept allow horizon s' s'') :
    LogsKept allow horizon s s'' := by
  intro id log hlog
  obtain hexpired | ⟨agent,hlog',hagent⟩ := h id log hlog
  · exact .inl hexpired
  · obtain hexpired | ⟨agent',hlog'',hagent'⟩ := h' id _ hlog'
    · exact .inl hexpired
    · refine .inr ⟨agent',hlog'',?_⟩
      obtain hsame | hnone := hagent'
      · rw [hsame]
        exact hagent
      · exact .inr hnone

lemma Evolves.refl (s : AuditTables) : Evolves allow horizon c s s where
  next := le_rfl
  agents _ _ := .inl
  removed _ := id
  pending _ _ := id
  logs := .refl s
  old_logs _ log' _ h := ⟨log',h,rfl⟩

lemma Evolves.trans (h : Evolves allow horizon c s s') (h' : Evolves allow horizon c s' s'') :
    Evolves allow horizon c s s'' where
  next := h.next.trans h'.next
  agents a x ha := by
    obtain ha' | ⟨hallow,hgone⟩ := h.agents a x ha
    · exact h'.agents a x ha'
    · exact .inr ⟨hallow,h'.removed a hgone⟩
  removed a ha := h'.removed a (h.removed a ha)
  pending x a hx := h'.pending x a (h.pending x a hx)
  logs := h.logs.trans h'.logs
  old_logs id log' hid hlog := by
    obtain ⟨mid,hmid,htime⟩ := h'.old_logs id log' (hid.trans_le h.next) hlog
    obtain ⟨log,hlog',htime'⟩ := h.old_logs id mid hid hmid
    exact ⟨log,hlog',htime.trans htime'⟩

lemma Expired.evolve {logIds : List Uuid} (h : Expired horizon s logIds)
    (he : Evolves allow horizon c s s') : Expired horizon s' logIds := by
  intro id hid
  obtain ⟨hlt,hold⟩ := h id hid
  refine ⟨hlt.trans_le he.next,?_⟩
  intro log' hlog'
  obtain ⟨log,hlog,htime⟩ := he.old_logs id log' hlt hlog'
  rw [htime]
  exact hold log hlog

lemma PlaceHolds.evolve {place : LogPlace} (h : PlaceHolds data allow horizon c s place)
    (he : Evolves allow horizon c s s') (hs' : AuditSound s') :
    PlaceHolds data allow horizon c s' place := by
  cases place with
  | idle => trivial
  | begun r m => trivial
  | missing r m x => exact h
  | conflicted r m x a =>
    obtain ⟨hx,hrow | ⟨hallow,hgone⟩⟩ := h
    · exact ⟨hx,he.agents a x hrow⟩
    · exact ⟨hx,.inr ⟨hallow,he.removed a hgone⟩⟩
  | ready r m agentId =>
    cases agentId with
    | none => exact h
    | some a =>
      obtain ⟨x,hx,hpending | hrow | ⟨hallow,hgone⟩⟩ := h
      · exact ⟨x,hx,.inl (he.pending x a hpending)⟩
      · exact ⟨x,hx,.inr (he.agents a x hrow)⟩
      · exact ⟨x,hx,.inr (.inr ⟨hallow,he.removed a hgone⟩)⟩
  | recorded r m id time =>
    obtain ⟨hid,hexpired | ⟨agent,hlog,htold⟩⟩ := h
    · exact ⟨hid.trans_le he.next,.inl hexpired⟩
    · refine ⟨hid.trans_le he.next,?_⟩
      obtain hexpired | ⟨agent',hlog',hagent⟩ := he.logs id _ hlog
      · exact .inl hexpired
      · refine .inr ⟨agent',hlog',?_⟩
        obtain hsame | hnone := hagent
        · have hsame : agent'=agent := hsame
          subst hsame
          obtain hnone | ⟨a,x,rfl,hx,ha⟩ | hnone := htold
          · exact .inl hnone
          · obtain ⟨y,hy⟩ := hs'.log_agent id _ a hlog' rfl
            obtain ha' | ⟨-,hgone⟩ := he.agents a x ha
            · exact .inr (.inl ⟨a,x,rfl,hx,ha'⟩)
            · rw [hgone.1] at hy
              cases hy
          · exact .inr (.inr hnone)
        · exact .inr (.inr hnone)
  | lost r loss =>
    cases loss with
    | failed => trivial
    | noRow a => exact ⟨h.1,he.removed a h.2⟩
    | agentGone a => exact ⟨h.1,he.removed a h.2⟩
  | purging cutoff logIds mails => exact ⟨h.1,h.2.evolve he⟩
  | removing cutoff logIds agentIds => exact ⟨h.1,h.2.evolve he⟩
  | cleaned => trivial

/-! ### What each write does to the others -/

/-- The rows stay, and the entries of a client. -/
lemma Evolves.of_rows (hagents : s'.agents=s.agents) (hlogs : s'.logs=s.logs)
    (hnext : s'.nextId=s.nextId)
    (hmine : ∀ x a, s.pending.get? x=some (c,a) → s'.pending.get? x=some (c,a))
    (hfewer : ∀ x p, s'.pending.get? x=some p → s.pending.get? x=some p) :
    Evolves allow horizon c s s' where
  next := hnext.ge
  agents _ _ ha := .inl (hagents ▸ ha)
  removed _ h := ⟨hagents ▸ h.1,hnext ▸ h.2.1,fun x d hx => h.2.2 x d (hfewer x _ hx)⟩
  pending := hmine
  logs _ log h := .inr ⟨log.clientUserAgentId,hlogs ▸ h,.inl rfl⟩
  old_logs _ log' _ h := ⟨log',hlogs ▸ h,rfl⟩

lemma Evolves.reserve {d : ClientId} {x : PyText} (hfree : s.pending.get? x=none) :
    Evolves allow horizon c s
      { s with pending := s.pending.set x (d,s.nextId), nextId := s.nextId+1 } where
  next := Nat.le_succ _
  agents _ _ := .inl
  removed a h := by
    refine ⟨h.1,Nat.lt_succ_of_lt h.2.1,?_⟩
    intro y e hy
    rw [Dict.get?_set] at hy
    split_ifs at hy
    · cases hy
      exact absurd h.2.1 (lt_irrefl _)
    · exact h.2.2 y e hy
  pending y a hy := by
    have hne : y ≠ x := by
      intro heq
      rw [heq,hfree] at hy
      cases hy
    exact (Dict.get?_set_of_ne _ hne _).trans hy
  logs id log h := .inr ⟨log.clientUserAgentId,h,.inl rfl⟩
  old_logs id log' _ h := ⟨log',h,rfl⟩

lemma Evolves.rollback {d : ClientId} (hne : c ≠ d) (r : RecordRequest) :
    Evolves allow horizon c s (s.rollback d r) := by
  unfold AuditTables.rollback
  cases r.bounded with
  | none => exact .refl s
  | some x =>
    dsimp only
    split_ifs with hown
    · refine .of_rows rfl rfl rfl ?_ fun y p hy => (get?_of_erase hy).2
      intro y a hy
      have hother : y ≠ x := by
        intro heq
        rw [heq] at hy
        rw [hy,Option.map_some,Option.some.injEq] at hown
        exact hne hown
      exact (Dict.get?_erase _ _ _).trans ((if_neg hother).trans hy)
    · exact .refl s

lemma Evolves.addLog (hs : AuditSound s) (log : StoredRequestLog) :
    Evolves allow horizon c s (s.addLog log) where
  next := Nat.le_succ _
  agents _ _ := .inl
  removed a h := ⟨h.1,Nat.lt_succ_of_lt h.2.1,h.2.2⟩
  pending _ _ := id
  logs id l hl := by
    have hne : id ≠ s.nextId := (hs.logs_fresh id l hl).ne
    exact .inr ⟨l.clientUserAgentId,(Dict.get?_set_of_ne _ hne _).trans hl,.inl rfl⟩
  old_logs id l hid hl := ⟨l,(Dict.get?_set_of_ne _ hid.ne _).symm.trans hl,rfl⟩

lemma Evolves.commitAgent {d : ClientId} (hne : c ≠ d) {x : PyText} {a : Uuid}
    (hs : AuditSound s) (hown : s.pending.get? x=some (d,a)) :
    Evolves allow horizon c s (s.commitAgent x a) where
  next := le_rfl
  agents b y hb := by
    have hother : b ≠ a := by
      intro heq
      rw [heq,hs.pending_row x d a hown] at hb
      cases hb
    exact .inl ((Dict.get?_set_of_ne _ hother _).trans hb)
  removed b h := by
    have hother : b ≠ a := fun heq => h.2.2 x d (heq ▸ hown)
    exact ⟨(Dict.get?_set_of_ne _ hother _).trans h.1,h.2.1,
      fun y e hy => h.2.2 y e (get?_of_erase hy).2⟩
  pending y b hy := by
    have hother : y ≠ x := by
      intro heq
      rw [heq,hown] at hy
      cases hy
      exact hne rfl
    exact (Dict.get?_erase _ _ _).trans ((if_neg hother).trans hy)
  logs id log h := .inr ⟨log.clientUserAgentId,h,.inl rfl⟩
  old_logs id log' _ h := ⟨log',h,rfl⟩

lemma Evolves.commitCleanup (hs : AuditSound s) (hallow : allow) {cutoff : ℤ}
    {logIds agentIds : List Uuid} (hexpired : Expired horizon s logIds) :
    Evolves allow horizon c s (s.commitCleanup cutoff logIds agentIds) where
  next := le_rfl
  agents a x ha := by
    by_cases hmem : a ∈ agentIds
    · refine .inr ⟨hallow,Dict.get?_eraseAll_of_mem _ hmem,hs.agents_fresh a x ha,?_⟩
      intro y d hy
      have hrow := hs.pending_row y d a hy
      rw [ha] at hrow
      cases hrow
    · exact .inl ((Dict.get?_eraseAll_eq_some_iff _ _ _ _).mpr ⟨hmem,ha⟩)
  removed a h := by
    refine ⟨?_,h.2⟩
    by_contra hsome
    obtain ⟨y,hy⟩ := Option.ne_none_iff_exists'.mp hsome
    have hrow := ((Dict.get?_eraseAll_eq_some_iff _ _ _ _).mp hy).2
    rw [h.1] at hrow
    cases hrow
  pending _ _ := id
  logs id log hlog := by
    by_cases hmem : id ∈ logIds
    · exact .inl ⟨hallow,(hexpired id hmem).2 log hlog⟩
    · have hkept : (s.commitCleanup cutoff logIds agentIds).logs.get? id=
          some (AuditTables.forget agentIds log) :=
        get?_commitCleanup_logs.mpr ⟨log,hlog,hmem,rfl⟩
      unfold AuditTables.forget at hkept
      split_ifs at hkept
      · exact .inr ⟨none,hkept,.inr ⟨hallow,rfl⟩⟩
      · exact .inr ⟨log.clientUserAgentId,hkept,.inl rfl⟩
  old_logs id log' _ h := by
    obtain ⟨old,hold,-,rfl⟩ := get?_commitCleanup_logs.mp h
    refine ⟨old,hold,?_⟩
    unfold AuditTables.forget
    split_ifs <;> rfl

/-! ### One step -/

/-- After a step the tables are sound, the client stands where it may, and the others go on. -/
def Good (data : LowerData) (allow : Prop) (horizon : ℤ) (c : ClientId) (s s' : AuditTables)
    (place : LogPlace) : Prop :=
  AuditSound s' ∧ PlaceHolds data allow horizon c s' place ∧
    ∀ c', c' ≠ c → Evolves allow horizon c' s s'

lemma Good.stay (hs : AuditSound s) {place : LogPlace}
    (h : PlaceHolds data allow horizon c s place) : Good data allow horizon c s s place :=
  ⟨hs,h,fun _ _ => .refl s⟩

lemma ready_of_find {r : RecordRequest} {memberId : Option Uuid} {x : PyText} {a : Uuid}
    (hx : r.bounded=some x) (h : s.findClientUserAgentId x=some a) :
    PlaceHolds data allow horizon c s (.ready r memberId (some a)) :=
  ⟨x,hx,.inr (.inl (findClientUserAgentId_some h))⟩

lemma length_bounded {r : RecordRequest} {x : PyText} (hx : r.bounded=some x) :
    x.length ≤ maxUserAgentLength := by
  unfold RecordRequest.bounded at hx
  split at hx
  · cases hx
  · cases hx
  · cases hx
    exact List.length_take_le _ _

lemma insertAgent_good {place : LogPlace} (hs : AuditSound s) {r : RecordRequest}
    {memberId : Option Uuid} {x : PyText} (hx : r.bounded=some x)
    (h : s.insertAgent c r memberId x=some (s',place)) : Good data allow horizon c s s' place := by
  unfold AuditTables.insertAgent at h
  cases hfind : s.findClientUserAgentId x with
  | some a =>
    rw [hfind] at h
    cases h
    exact .stay hs ⟨hx,.inl (findClientUserAgentId_some hfind)⟩
  | none =>
    rw [hfind] at h
    cases hpending : s.pending.get? x with
    | some p =>
      rw [hpending] at h
      cases h
    | none =>
      rw [hpending] at h
      cases h
      refine ⟨hs.reserve (length_bounded hx) (findClientUserAgentId_none hfind),?_,
        fun _ _ => .reserve hpending⟩
      exact ⟨x,hx,.inl (Dict.get?_set_self _ _ _)⟩

/-- The new log is that of the request, with an agent that is told. -/
lemma addLog_good (hs : AuditSound s) {r : RecordRequest} {memberId agent : Option Uuid} {time : ℤ}
    (htold : AgentTold allow s r agent)
    (hagent : ∀ a, agent=some a → ∃ x, s.agents.get? a=some x) :
    Good data allow horizon c s (s.addLog (r.log data memberId agent time))
      (.recorded r memberId s.nextId time) := by
  refine ⟨hs.addLog hagent,⟨Nat.lt_succ_self _,.inr ⟨agent,Dict.get?_set_self _ _ _,htold⟩⟩,
    fun _ _ => .addLog hs _⟩

lemma writeLog_good {place : LogPlace} (hs : AuditSound s) {r : RecordRequest}
    {memberId agentId : Option Uuid} {time : ℤ}
    (hp : PlaceHolds data allow horizon c s (.ready r memberId agentId))
    (h : s.writeLog data c r memberId agentId time=(s',place)) : Good data allow horizon c s s' place := by
  unfold AuditTables.writeLog at h
  cases agentId with
  | none =>
    cases h
    exact addLog_good hs (.inl ⟨rfl,hp⟩) nofun
  | some a =>
    obtain ⟨x,hx,hplace⟩ := hp
    simp only [hx] at h
    split_ifs at h with hown hrow
    · cases h
      have hcommitted := hs.commitAgent hown
      have hget : (s.commitAgent x a).agents.get? a=some x := Dict.get?_set_self _ _ _
      have hgood : Good data allow horizon c (s.commitAgent x a)
          ((s.commitAgent x a).addLog (r.log data memberId (some a) time))
          (.recorded r memberId (s.commitAgent x a).nextId time) :=
        addLog_good hcommitted (.inr (.inl ⟨a,x,rfl,hx,hget⟩)) fun b hb => ⟨x,by cases hb; exact hget⟩
      obtain ⟨hsound,hrecorded,hothers⟩ := hgood
      exact ⟨hsound,hrecorded,fun d hd => .trans (.commitAgent hd hs hown) (hothers d hd)⟩
    · cases h
      obtain ⟨y,hy⟩ := Option.isSome_iff_exists.mp hrow
      have hsame : s.agents.get? a=some x := by
        obtain hpending | hrow | ⟨-,hgone⟩ := hplace
        · exact absurd hpending hown
        · exact hrow
        · rw [hgone.1] at hy
          cases hy
      exact addLog_good hs (.inr (.inl ⟨a,x,rfl,hx,hsame⟩)) fun b hb => ⟨x,by cases hb; exact hsame⟩
    · cases h
      refine .stay hs ?_
      obtain hpending | hrow' | hgone := hplace
      · exact absurd hpending hown
      · exact absurd (Option.isSome_iff_exists.mpr ⟨x,hrow'⟩) hrow
      · exact hgone

lemma fail_good (hs : AuditSound s) (r : RecordRequest) :
    Good data allow horizon c s (s.rollback c r) (.lost r .failed) :=
  ⟨hs.rollback r,trivial,fun _ hd => .rollback hd r⟩

lemma flag_good (hs : AuditSound s) {place : LogPlace} (flag : Option ClientId)
    (hp : PlaceHolds data allow horizon c { s with cleaning := flag } place) :
    Good data allow horizon c s { s with cleaning := flag } place :=
  ⟨hs.of_pending rfl rfl rfl fun _ _ => id,hp,
    fun _ _ => .of_rows rfl rfl rfl (fun _ _ => id) fun _ _ => id⟩

lemma step_good {emailFromToken : PyText → Option PyText} {place place' : LogPlace} {input : LogInput}
    (hs : AuditSound s) (hp : PlaceHolds data allow horizon c s place)
    (hok : ∀ cutoff, input=.cleanup cutoff → allow ∧ cutoff ≤ horizon)
    (h : auditProgram data emailFromToken c s place input=some (s',place')) :
    Good data allow horizon c s s' place' := by
  cases place with
  | idle =>
    cases input with
    | request r =>
      cases h
      exact .stay hs trivial
    | cleanup cutoff =>
      obtain ⟨hallow,hcutoff⟩ := hok cutoff rfl
      simp only [auditProgram] at h
      split_ifs at h
      cases h
      refine flag_good hs _ ⟨hallow,?_⟩
      intro id hid
      obtain ⟨log,hlog,htime⟩ := (Dict.mem_keysWhere _ _ _).mp hid
      refine ⟨hs.logs_fresh id log hlog,?_⟩
      intro log' hlog'
      rw [Option.some.inj (hlog'.symm.trans hlog)]
      exact (of_decide_eq_true htime).trans_le hcutoff
    | next time => cases h
    | fail => cases h
  | begun r memberId =>
    cases input with
    | next time =>
      simp only [auditProgram] at h
      cases hx : r.bounded with
      | none =>
        rw [hx] at h
        cases h
        exact .stay hs hx
      | some x =>
        rw [hx] at h
        dsimp only at h
        cases hfind : s.findClientUserAgentId x with
        | none =>
          rw [hfind] at h
          cases h
          exact .stay hs hx
        | some a =>
          rw [hfind] at h
          cases h
          exact .stay hs (ready_of_find hx hfind)
    | fail =>
      cases h
      exact fail_good hs r
    | request r' => cases h
    | cleanup cutoff => cases h
  | missing r memberId x =>
    cases input with
    | next time => exact insertAgent_good hs hp h
    | fail =>
      cases h
      exact fail_good hs r
    | request r' => cases h
    | cleanup cutoff => cases h
  | conflicted r memberId x found =>
    cases input with
    | next time =>
      simp only [auditProgram] at h
      cases hfind : s.findClientUserAgentId x with
      | none =>
        rw [hfind] at h
        cases h
        obtain ⟨-,hrow | hgone⟩ := hp
        · exact absurd hrow (findClientUserAgentId_none hfind found)
        · exact .stay hs hgone
      | some a =>
        rw [hfind] at h
        cases h
        exact .stay hs (ready_of_find hp.1 hfind)
    | fail =>
      cases h
      exact fail_good hs r
    | request r' => cases h
    | cleanup cutoff => cases h
  | ready r memberId agentId =>
    cases input with
    | next time => exact writeLog_good hs hp (Option.some.inj h)
    | fail =>
      cases h
      exact fail_good hs r
    | request r' => cases h
    | cleanup cutoff => cases h
  | purging cutoff logIds mails =>
    cases input with
    | next time =>
      cases h
      exact .stay hs hp
    | fail =>
      cases h
      exact flag_good hs _ trivial
    | request r' => cases h
    | cleanup cutoff' => cases h
  | removing cutoff logIds agentIds =>
    cases input with
    | next time =>
      cases h
      exact ⟨hs.commitCleanup _ _ _,trivial,fun _ _ => .commitCleanup hs hp.1 hp.2⟩
    | fail =>
      cases h
      exact flag_good hs _ trivial
    | request r' => cases h
    | cleanup cutoff' => cases h
  | recorded r memberId id time => cases input <;> cases h
  | lost r loss => cases input <;> cases h
  | cleaned => cases input <;> cases h

/-! ### Every run -/

/-- In every order of the statements of any number of requests and cleanups, user agents have one row
each, within the bound, and the agent of a log is there. A log goes only when it is older than the
cutoff of a cleanup; it tells its request, and the agent of its header unless a cleanup took it. A
request that does not fail is missing only when a cleanup took the row that it found: without cleanups,
none is, whoever else inserts its agent. -/
theorem request_logs_kept {emailFromToken : PyText → Option PyText} {w₀ w : World AuditTables LogPlace}
    (h₀ : AuditSound w₀.shared) (hidle : ∀ c, w₀.clients c=.idle)
    (h : (auditProgram data emailFromToken).interleave.Reaches
      (fun _ a => ∀ cutoff, a.2=.cleanup cutoff → allow ∧ cutoff ≤ horizon) w₀ w) :
    AuditSound w.shared ∧ LogsKept allow horizon w₀.shared w.shared ∧
    (∀ c r memberId id time, w.clients c=.recorded r memberId id time →
      (allow ∧ time < horizon) ∨ ∃ agent, w.shared.logs.get? id=some (r.log data memberId agent time) ∧
        AgentTold allow w.shared r agent) ∧
    (∀ c r loss, w.clients c=.lost r loss → LossTold allow w.shared loss) := by
  have hholds : Program.Holds
      (fun s => AuditSound s ∧ LogsKept allow horizon w₀.shared s)
      (PlaceHolds data allow horizon) w := by
    refine Program.Holds.of_reaches h ⟨⟨h₀,.refl _⟩,?_⟩ ?_ ?_
    · intro c
      rw [hidle c]
      trivial
    · intro v c input s place hv hok hstep
      have hgood := step_good hv.shared.1 (hv.clients c) hok hstep
      have hkept := (hgood.2.2 (c+1) (Nat.succ_ne_self c)).logs
      exact ⟨⟨hgood.1,hv.shared.2.trans hkept⟩,hgood.2.1⟩
    · intro v c input s place c' hv hok hstep hne
      have hgood := step_good hv.shared.1 (hv.clients c) hok hstep
      exact (hv.clients c').evolve (hgood.2.2 c' hne) hgood.1
  refine ⟨hholds.shared.1,hholds.shared.2,?_,?_⟩
  · intro c r memberId id time hplace
    have hclient := hholds.clients c
    rw [hplace] at hclient
    exact hclient.2
  · intro c r loss hplace
    have hclient := hholds.clients c
    rw [hplace] at hclient
    exact hclient

end Places

def ping : RecordRequest where
  clientIp := text "203.0.113.9"
  clientIps := [text "203.0.113.9"]
  authHeader := none
  userAgentString := some (text "Mozilla/5.0")
  requestMethod := text "GET"
  requestPath := text "/ping"
  requestInput := .null
  responseStatus := 200
  responseContent := .null
  memoryUsage := 0

def emptyAudit : World AuditTables LogPlace :=
  ⟨⟨.empty,.empty,.empty,.empty,[],none,0⟩,fun _ => .idle⟩

/-- Two first requests with one user agent: the first inserts it after both have looked it up. -/
def firstRequests : List (ClientId × LogInput) :=
  [(1,.request ping),(2,.request ping),(1,.next 0),(2,.next 0),(1,.next 0),(1,.next 5),(2,.next 0),
    (2,.next 0),(2,.next 6)]

/-- The second request is recorded under the agent of the first. -/
theorem request_logs_kept_race : ∃ w,
    (auditProgram exceptionsOnly fun _ => none).interleave.run emptyAudit firstRequests=some w ∧
    w.clients 2=.recorded ping none 2 6 ∧
    ∃ agent, w.shared.logs.get? 2=some (ping.log exceptionsOnly none agent 6) ∧
      AgentTold False w.shared ping agent := by
  have hrun : ((auditProgram exceptionsOnly fun _ => none).interleave.run emptyAudit
      firstRequests).map (fun w => w.clients 2)=some (.recorded ping none 2 6) := rfl
  obtain ⟨w,hw,hplace⟩ := Option.map_eq_some_iff.mp hrun
  have hsound : AuditSound emptyAudit.shared := by
    constructor <;> nofun
  have hmeets : (auditProgram exceptionsOnly fun _ => none).interleave.Meets
      (fun _ a => ∀ cutoff, a.2=.cleanup cutoff → False ∧ cutoff ≤ 0) emptyAudit firstRequests := by
    refine Machine.meets_of_forall ?_ _
    intro a ha _ cutoff hcutoff
    rw [firstRequests] at ha
    fin_cases ha <;> cases hcutoff
  have hlaw := request_logs_kept hsound (fun _ => rfl)
    (Machine.reaches_of_run hmeets hw)
  obtain hexpired | hlog := hlaw.2.2.1 2 ping none 2 6 hplace
  · exact hexpired.1.elim
  · exact ⟨w,hw,hplace,hlog⟩

end VbApi.Activity
