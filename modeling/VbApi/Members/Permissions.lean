import VbApi.Foundations.Sorting
import VbApi.Members.Inputs

/-! The permissions that follow from a member's active roles and organisation. -/
namespace VbApi.Members
open VbApi.Foundations
open VbApi.Standesdb (Uuid)

/-- When a call happens, and its day in the application's time zone. -/
structure Moment where
  now : VbApi.Standesdb.Timestamp
  today : Date

/-- The signed-in member of a call. -/
structure Actor where
  id : Uuid
  member : Member

structure PermissionRule where
  permission : PyText
  condition : List RoleId → List PyText → Option PyText → Option PyText → Bool

/-- A common element of two collections. -/
def meets (xs ys : List PyText) : Bool := xs.any fun x => x ∈ ys

def permissionRules (env : Environment) : List PermissionRule :=
  let vbw := some (text "vbw")
  let vbn := some (text "vbn")
  [⟨text "archiveAdmin",fun rids _ org _ =>
      org=vbw && meets [text "internetreferent",text "archivar2"] rids⟩,
    ⟨text "systemAdmin",fun rids _ org email =>
      (text "internetreferent" ∈ rids && org=vbw) || email.any fun e => e ∈ env.systemAdminEmails⟩,
    ⟨text "standesdbContactAdmin",fun rids _ _ _ => text "standesfuehrer" ∈ rids⟩,
    ⟨text "standesdbVbwAdmin",fun rids _ org _ =>
      org=vbw && meets [text "standesfuehrer",text "internetreferent"] rids⟩,
    ⟨text "standesdbVbnAdmin",fun rids _ org _ => text "standesfuehrer" ∈ rids && org=vbn⟩,
    ⟨text "standesdbExport",fun rids groups _ _ =>
      meets [text "chc",text "philchc"] groups || text "standesfuehrer" ∈ rids⟩,
    ⟨text "keylist",fun _ groups _ _ => meets [text "chc",text "philchc"] groups⟩,
    ⟨text "p4xView",fun _ groups org _ => text "philchc" ∈ groups && org=vbw⟩,
    ⟨text "p4xAdmin",fun rids _ org _ => text "phil-xxxx" ∈ rids && org=vbw⟩,
    ⟨text "publicContentEditor",fun rids _ org _ =>
      meets [text "internetreferent",text "socialmediareferent"] rids && org=vbw⟩]

def allPermissions (env : Environment) : List PyText :=
  sortBy id ((permissionRules env).map PermissionRule.permission).dedup

lemma mem_allPermissions {env : Environment} {permission : PyText} :
    permission ∈ allPermissions env ↔
      permission ∈ (permissionRules env).map PermissionRule.permission := by
  rw [allPermissions,mem_sortBy,List.mem_dedup]

lemma allPermissions_nodup (env : Environment) : (allPermissions env).Nodup :=
  (sortBy_perm id _).nodup_iff.mpr (List.nodup_dedup _)

/-- `_verified_email`. -/
def Member.verifiedEmail (m : Member) : Option PyText :=
  if m.emailVerifiedAt.isSome then m.columns.text .email else none

/-- The entry has started and not ended on the day. -/
def RoleEntry.isActive (e : RoleEntry) (day : Date) : Bool :=
  e.startdate ≤ day && e.enddate.all fun stop => day < stop

/-- `_active_roles`: the ids and the groups. -/
def activeRoles (roles : List Role) (today : Date) (m : Member) : List RoleId × List PyText :=
  let active := m.memberRoles.filter fun e => e.isActive today
  let groups := active.filterMap fun e => (roles.find? fun r => r.id=e.roleId).bind Role.group
  (active.map RoleEntry.roleId,groups.filter (· ≠ []))

/-- `calculate_permissions`. -/
def calculatePermissions (env : Environment) (roles : List Role) (today : Date) (user : Actor) :
    List PyText :=
  if env.devSuperuserId=some user.id then allPermissions env
  else
    let (ids,groups) := activeRoles roles today user.member
    ((permissionRules env).filter fun r =>
      r.condition ids groups (user.member.columns.text .orgId) user.member.verifiedEmail).map
        PermissionRule.permission

/-- `str.capitalize()` on the characters that have an ASCII case. -/
def capitalize (s : PyText) : PyText :=
  let lower : PyText := s.map fun c =>
    if h : 65 ≤ c.val ∧ c.val ≤ 90 then ⟨c.val+32,by omega⟩ else c
  upperAscii (lower.take 1) ++ lower.drop 1

/-- `_org_admin_permission`. -/
def orgAdminPermission (orgId : PyText) : PyText :=
  text "standesdb" ++ capitalize orgId ++ text "Admin"

/-- `require_org_admin`. -/
def requireOrgAdmin (env : Environment) (roles : List Role) (today : Date) (user : Actor)
    (orgId : Option PyText) : Except SaveError Unit := do
  match orgId.filter (· ≠ []) with
  | none => throw (.http 422 [text "Keine Verbindung zugewiesen."])
  | some org =>
    let permission := orgAdminPermission org
    guardError (permission ∈ calculatePermissions env roles today user)
      (.http 403 [text "Fehlende Berechtigung: " ++ permission])

end VbApi.Members
