import VbApi.Foundations.Pagination
import VbApi.Members.Records
import Mathlib.Order.WithBot

/-! The change log of a member as the administrators page through it. A row is taken as the table
holds it, with the texts that were written when it was logged. -/
namespace VbApi.Members
open VbApi.Foundations
open VbApi.Standesdb (Uuid Timestamp)

/-- A row of `members_logs`. -/
structure LogRow where
  id : Uuid
  modifiedAt : Option Timestamp
  modifiedBy : Option Uuid
  memberId : Option Uuid
  action : ChangeLogAction
  key : PyText
  old : Option PyText
  new : Option PyText
  deriving DecidableEq

structure ChangeLogEntry where
  id : Uuid
  modifiedAt : Option Timestamp
  modifiedByName : Option PyText
  action : ChangeLogAction
  key : PyText
  old : Option PyText
  new : Option PyText
  deriving DecidableEq

def changelogExcludedKeys : List PyText :=
  ["auth_lastlogin","auth_lastlogin_provider","auth_lastsignal","auth_lastlogout","modified_at",
    "modified_by","updated_at"].map text

/-- `f"{vorname or ''} {nachname or ''}".strip()`. -/
def displayName (m : Member) : PyText :=
  strip ((m.columns.text .vorname).getD [] ++ text " " ++ (m.columns.text .nachname).getD [])

def changelogName (db : Database) (modifiedBy : Option Uuid) : Option PyText := do
  let id ← modifiedBy
  let m ← db.members.get? id
  return displayName m

def changeLogEntry (db : Database) (e : LogRow) : ChangeLogEntry where
  id := e.id
  modifiedAt := e.modifiedAt
  modifiedByName := changelogName db e.modifiedBy
  action := e.action
  key := e.key
  old := e.old
  new := e.new

/-- `ORDER BY modified_at DESC`: a missing moment comes first. -/
def modifiedDesc (e : LogRow) : (WithTop Timestamp)ᵒᵈ :=
  OrderDual.toDual (match e.modifiedAt with | some moment => moment | none => ⊤)

/-- The rows that the change log of a member selects. -/
def changelogRows (logs : List LogRow) (memberId : Uuid) : List LogRow :=
  logs.filter fun e => e.memberId=some memberId && e.key ∉ changelogExcludedKeys

/-- One page of the change history of a member, and the total number of its entries. -/
def getMemberChangelog (orderBy : OrderBy modifiedDesc) (db : Database) (logs : List LogRow)
    (memberId : Uuid) (page pageSize : ℕ) : List ChangeLogEntry × ℕ :=
  let (rows,total) := orderBy.page pageSize page (changelogRows logs memberId)
  (rows.map (changeLogEntry db),total)

/-- The entries that the change log of a member has to show. -/
def changelogEntries (db : Database) (logs : List LogRow) (memberId : Uuid) : List ChangeLogEntry :=
  (changelogRows logs memberId).map (changeLogEntry db)

/-- The change log shows every entry once exactly when no page boundary falls between two entries
of one moment. -/
lemma changelog_covers_iff (db : Database) {logs : List LogRow} (memberId : Uuid) {size : ℕ}
    (hsize : 0 < size) (hids : (logs.map (·.id)).Nodup) :
    Covers modifiedDesc (fun orderBy page => getMemberChangelog orderBy db logs memberId page size)
      size (changelogEntries db logs memberId) ↔
    ∀ n k, ¬ SplitsAt modifiedDesc (changelogRows logs memberId) (n*size) k := by
  have hinj := List.inj_on_of_nodup_map hids
  apply covers_iff hsize (hids.of_map.filter _)
  · intro a ha b hb heq
    exact hinj (List.mem_of_mem_filter ha) (List.mem_of_mem_filter hb)
      (congrArg ChangeLogEntry.id heq)
  · intro orderBy page
    rfl

end VbApi.Members
