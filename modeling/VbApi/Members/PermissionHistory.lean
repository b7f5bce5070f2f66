import VbApi.Foundations.Pagination
import VbApi.Members.Organisations
import VbApi.Members.RoleReplay

/-! Permissions come from single roles: the history of role assignments shows each of them, and the
permission page and the mails go to those who hold them. -/
namespace VbApi.Members
open VbApi.Foundations
open VbApi.Standesdb (Uuid)

/-! ### The permissions of a role, in the history -/

/-- `permissions_conferred_by_role`. -/
def permissionsConferredByRole (env : Environment) (role : Role) (orgId : Option PyText) :
    List PyText :=
  let groups := (role.group.filter (· ≠ [])).toList
  ((permissionRules env).filter fun r => r.condition [role.id] groups orgId none).map
    PermissionRule.permission

/-- An entry of the role history without the names. -/
structure RoleAssignmentEventResponse where
  action : RoleAssignmentAction
  memberId : Uuid
  roleId : RoleId
  roleLabel : PyText
  startdate : Date
  enddate : Option Date
  previousEnddate : Option Date
  permissions : List PyText
  deriving DecidableEq

/-- `_to_response`; the foreign keys keep the role and the member. -/
def toResponse (env : Environment) (db : Database) (ev : RoleAssignmentEvent) :
    RoleAssignmentEventResponse :=
  let entry := ev.change.entry
  let role := db.roles.find? fun r => r.id=entry.roleId
  let orgId := (db.members.get? ev.memberId).bind fun m => m.columns.text .orgId
  { action := ev.change.action
    memberId := ev.memberId
    roleId := entry.roleId
    roleLabel := ((role.bind Role.label).filter (· ≠ [])).getD entry.roleId
    startdate := entry.startdate
    enddate := entry.enddate
    previousEnddate := ev.change.previousEnddate
    permissions := sortBy id
      ((role.map fun role => permissionsConferredByRole env role orgId).getD []) }

/-- `list_role_history`: newest first. -/
def listRoleHistory (env : Environment) (db : Database) (page pageSize : ℕ) :
    List RoleAssignmentEventResponse × ℕ :=
  ((pageOf pageSize page db.roleEvents.reverse).map (toResponse env db),db.roleEvents.length)

/-! ### The permission page and the recipients of mails -/

/-- The rule's condition on a member. -/
def PermissionRule.holds (r : PermissionRule) (roles : List Role) (today : Date) (m : Member) : Bool :=
  let (ids,groups) := activeRoles roles today m
  r.condition ids groups (m.columns.text .orgId) m.verifiedEmail

/-- `_group_members_by_rule_condition`. -/
def groupMembersByRuleCondition (env : Environment) (roles : List Role) (today : Date)
    (members : List Member) : Dict PyText (List Member) :=
  let holders : Dict PyText (List Member) :=
    .ofPairs ((allPermissions env).map fun permission => (permission,[]))
  members.foldl (fun holders m => (permissionRules env).foldl (fun holders r =>
    if r.holds roles today m then holders.set r.permission (holders.getD r.permission [] ++ [m])
    else holders) holders) holders

/-- `get_permission_rules_display` without the descriptions. -/
def getPermissionRulesDisplay (env : Environment) (db : Database) (today : Date) :
    List (PyText × List PyText) :=
  let holders := groupMembersByRuleCondition env db.roles today db.members.values
  (permissionRules env).map fun r =>
    (r.permission,sortBy id ((holders.getD r.permission []).map Member.cn))

def getEmailsWithPermission (env : Environment) (db : Database) (today : Date) (permission : PyText) :
    List PyText :=
  db.members.entries.filterMap fun (id,m) =>
    (m.columns.text .email).filter fun email =>
      email ≠ [] ∧ permission ∈ calculatePermissions env db.roles today ⟨id,m⟩

/-! ### Every rule asks for one role -/

/-- The group that an entry's role has, if it has one. -/
def groupOf (roles : List Role) (e : RoleEntry) : List PyText :=
  (((roles.find? fun r => r.id=e.roleId).bind Role.group).filter (· ≠ [])).toList

section Rules
variable {env : Environment} {roles : List Role} {today : Date}

lemma activeRoles_eq (m : Member) : activeRoles roles today m=
    ((m.memberRoles.filter fun e => e.isActive today).map RoleEntry.roleId,
      (m.memberRoles.filter fun e => e.isActive today).flatMap (groupOf roles)) := by
  unfold activeRoles
  dsimp only
  rw [Prod.mk.injEq]
  refine ⟨rfl,?_⟩
  induction m.memberRoles.filter fun e => e.isActive today with
  | nil => rfl
  | cons e es ih =>
    rw [List.filterMap_cons,List.flatMap_cons,groupOf]
    cases (roles.find? fun r => r.id=e.roleId).bind Role.group with
    | none => simpa using ih
    | some g =>
      by_cases hg : g=[]
      · simpa [hg,Option.filter_some] using ih
      · simpa [hg,Option.filter_some] using ih

lemma meets_iff {xs ys : List PyText} : meets xs ys=true ↔ ∃ x ∈ xs, x ∈ ys := by
  simp [meets]

/-- A rule holds by one of the roles alone, or by an address of the server's configuration. -/
lemma condition_iff {r : PermissionRule} (hr : r ∈ permissionRules env) (active : List RoleEntry)
    (groups : RoleEntry → List PyText) (org email : Option PyText) :
    r.condition (active.map RoleEntry.roleId) (active.flatMap groups) org email=true ↔
      (∃ e ∈ active, r.condition [e.roleId] (groups e) org none=true) ∨
      (r.permission=text "systemAdmin" ∧ email.any (fun e => e ∈ env.systemAdminEmails)=true) := by
  have hother : ∀ name : PyText, name ≠ text "systemAdmin" → ∀ p : Prop,
      (p ∨ (name=text "systemAdmin" ∧ email.any (fun e => e ∈ env.systemAdminEmails)=true)) ↔ p := by
    intro name hname p
    simp [hname]
  simp only [permissionRules,List.mem_cons,List.not_mem_nil,or_false] at hr
  rcases hr with rfl | rfl | rfl | rfl | rfl | rfl | rfl | rfl | rfl | rfl
  case inr.inl =>
    simp only [Bool.or_eq_true,Bool.and_eq_true,decide_eq_true_eq,List.mem_map,List.mem_singleton,
      true_and,Option.any_none,Bool.false_eq_true,or_false]
    constructor
    · intro h
      obtain ⟨⟨e,he,hrole⟩,horg⟩ | hemail := h
      · exact .inl ⟨e,he,hrole.symm,horg⟩
      · exact .inr hemail
    · intro h
      obtain ⟨e,he,hrole,horg⟩ | hemail := h
      · exact .inl ⟨⟨e,he,hrole.symm⟩,horg⟩
      · exact .inr hemail
  all_goals
    dsimp only
    rw [hother _ (by decide)]
    simp only [Bool.or_eq_true,Bool.and_eq_true,decide_eq_true_eq,meets_iff,List.mem_map,
      List.mem_flatMap,List.mem_singleton]
    grind

lemma rule_names_nodup (env : Environment) :
    ((permissionRules env).map PermissionRule.permission).Nodup := by
  change [text "archiveAdmin",text "systemAdmin",text "standesdbContactAdmin",text "standesdbVbwAdmin",
    text "standesdbVbnAdmin",text "standesdbExport",text "keylist",text "p4xView",text "p4xAdmin",
    text "publicContentEditor"].Nodup
  decide

lemma holds_iff {r : PermissionRule} (hr : r ∈ permissionRules env) (m : Member) :
    r.holds roles today m=true ↔
      (∃ e ∈ m.memberRoles, e.isActive today=true ∧
        r.condition [e.roleId] (groupOf roles e) (m.columns.text .orgId) none=true) ∨
      (r.permission=text "systemAdmin" ∧
        m.verifiedEmail.any (fun e => e ∈ env.systemAdminEmails)=true) := by
  rw [PermissionRule.holds,activeRoles_eq]
  dsimp only
  rw [condition_iff hr]
  simp only [List.mem_filter,and_assoc]

/-- What a role confers is held by whoever has the role. -/
lemma mem_permissionsConferredByRole {role : Role} {e : RoleEntry}
    (hrole : roles.find? (fun r => r.id=e.roleId)=some role) {orgId : Option PyText}
    {permission : PyText} :
    permission ∈ permissionsConferredByRole env role orgId ↔
      ∃ r ∈ permissionRules env, r.permission=permission ∧
        r.condition [e.roleId] (groupOf roles e) orgId none=true := by
  have hid : role.id=e.roleId := by simpa using List.find?_some hrole
  simp only [permissionsConferredByRole,groupOf,hrole,hid,List.mem_map,List.mem_filter,
    Option.bind_some]
  constructor
  · rintro ⟨r,⟨hr,hcondition⟩,hname⟩
    exact ⟨r,hr,hname,hcondition⟩
  · rintro ⟨r,hr,hname,hcondition⟩
    exact ⟨r,⟨hr,hcondition⟩,hname⟩

/-- Whoever has a permission is the superuser of the development, or an address of the server's
configuration, or has a role that confers it. -/
lemma mem_calculatePermissions {id : Uuid} {m : Member} {permission : PyText}
    (hroles : ∀ e ∈ m.memberRoles, ∃ role, roles.find? (fun r => r.id=e.roleId)=some role) :
    permission ∈ calculatePermissions env roles today ⟨id,m⟩ ↔
      (env.devSuperuserId=some id ∧ permission ∈ (permissionRules env).map PermissionRule.permission) ∨
      (permission=text "systemAdmin" ∧
        m.verifiedEmail.any (fun e => e ∈ env.systemAdminEmails)=true) ∨
      ∃ e ∈ m.memberRoles, e.isActive today=true ∧ ∃ role,
        roles.find? (fun r => r.id=e.roleId)=some role ∧
        permission ∈ permissionsConferredByRole env role (m.columns.text .orgId) := by
  have hrule : permission ∈ calculatePermissions env roles today ⟨id,m⟩ ↔
      (env.devSuperuserId=some id ∧ permission ∈ (permissionRules env).map PermissionRule.permission) ∨
      ∃ r ∈ permissionRules env, r.permission=permission ∧ r.holds roles today m=true := by
    rw [calculatePermissions]
    by_cases hdev : env.devSuperuserId=some id
    · rw [if_pos hdev,mem_allPermissions]
      constructor
      · intro h
        exact .inl ⟨hdev,h⟩
      · intro h
        obtain ⟨-,h⟩ | ⟨r,hr,hname,-⟩ := h
        · exact h
        · exact List.mem_map.mpr ⟨r,hr,hname⟩
    · rw [if_neg hdev,List.mem_map]
      simp only [List.mem_filter,hdev,false_and,false_or]
      constructor
      · rintro ⟨r,⟨hr,hcondition⟩,hname⟩
        exact ⟨r,hr,hname,hcondition⟩
      · rintro ⟨r,hr,hname,hcondition⟩
        exact ⟨r,⟨hr,hcondition⟩,hname⟩
  rw [hrule]
  apply or_congr_right
  constructor
  · rintro ⟨r,hr,hname,hholds⟩
    obtain ⟨e,he,hactive,hcondition⟩ | ⟨hsystem,hemail⟩ := (holds_iff hr m).mp hholds
    · obtain ⟨role,hrole⟩ := hroles e he
      exact .inr ⟨e,he,hactive,role,hrole,
        (mem_permissionsConferredByRole hrole).mpr ⟨r,hr,hname,hcondition⟩⟩
    · exact .inl ⟨hname.symm.trans hsystem,hemail⟩
  · intro h
    obtain ⟨rfl,hemail⟩ | ⟨e,he,hactive,role,hrole,hconferred⟩ := h
    · have hlt : 1 < (permissionRules env).length := by simp [permissionRules]
      have hr : (permissionRules env)[1] ∈ permissionRules env := List.getElem_mem hlt
      exact ⟨_,hr,rfl,(holds_iff hr m).mpr (.inr ⟨rfl,hemail⟩)⟩
    · obtain ⟨r,hr,hname,hcondition⟩ := (mem_permissionsConferredByRole hrole).mp hconferred
      exact ⟨r,hr,hname,(holds_iff hr m).mpr (.inl ⟨e,he,hactive,hcondition⟩)⟩

end Rules

/-! ### The roles of the entries are there -/

/-- Every entry of a member has its role. -/
def RolesFound (db : Database) : Prop :=
  ∀ id m, db.members.get? id=some m → ∀ e ∈ m.memberRoles,
    ∃ role, db.roles.find? (fun r => r.id=e.roleId)=some role

lemma exists_role_of_mem {roles : List Role} {roleId : RoleId} (h : roleId ∈ roles.map Role.id) :
    ∃ role, roles.find? (fun r => r.id=roleId)=some role := by
  obtain ⟨role,hrole,rfl⟩ := List.mem_map.mp h
  rw [← Option.isSome_iff_exists,List.find?_isSome]
  exact ⟨role,hrole,decide_eq_true rfl⟩

lemma RolesFound.step {env : Environment} {call : Call} {db db' : Database} (hdb : RolesFound db)
    (h : Guarded env call db db') : RolesFound db' := by
  intro id m hm e he
  rw [h.roles]
  obtain hown | ⟨moment,user,-,memberId,existing,data,hsaved⟩ := h
  · obtain ⟨m₀,hm₀,hsettings⟩ := hown.found' hm
    exact hdb id m₀ hm₀ e (hsettings.memberRoles ▸ he)
  · rw [hsaved.get?] at hm
    split_ifs at hm with hid
    · cases hm
      change e ∈ data.rolesHistory.map RoleHistoryEntry.entry at he
      obtain hknown | ⟨m₀,hexisting,he⟩ := hsaved.references e he
      · exact exists_role_of_mem hknown
      · exact hdb memberId m₀ (hsaved.found m₀ hexisting) e he
    · exact hdb id m hm e he

lemma rolesFound_runCalls (env : Environment) (roles : List Role) (stateIds : List PyText)
    (badgeIds keyIds : List Uuid) (nextUuid : Uuid) (calls : List Call) :
    RolesFound (runCalls env (emptyDatabase roles stateIds badgeIds keyIds nextUuid) calls) := by
  apply runCalls_invariant fun db call hdb => hdb.step (step_guarded env db call)
  intro id m hm
  cases hm

/-! ### The history -/

/-- An entry that a member has was granted, or its period changed, by an event of the history. -/
lemma HistoryComplete.exists_event {db : Database} (h : HistoryComplete db) {id : Uuid} {m : Member}
    (hm : db.members.get? id=some m) {e : RoleEntry} (he : e ∈ m.memberRoles) :
    ∃ ev ∈ db.roleEvents, ev.memberId=id ∧ ev.change.action ≠ .revoked ∧ ev.change.entry=e := by
  have hheld := (heldRoles_eq_some_iff (h.distinct id m hm) e).mpr he
  obtain hnone | ⟨edit,hedit,hkey,hnew⟩ := Table.exists_edit_of_replay (h.replays id m hm) hheld
  · cases hnone
  · obtain ⟨c,hc,rfl⟩ := List.mem_map.mp hedit
    obtain ⟨ev,hev,rfl⟩ := List.mem_map.mp hc
    rw [List.mem_filter,decide_eq_true_eq] at hev
    refine ⟨ev,hev.1,hev.2,?_,?_⟩
    · intro haction
      simp [RoleChange.edit,haction] at hnew
    · apply RoleEntry.ext_key hkey
      cases haction : ev.change.action <;> simp_all [RoleChange.edit]

/-- After any run of calls from empty tables: a member has a permission on a day exactly as the
superuser of the development, by an address of the server's configuration, or by a role of that day
whose grant or change the history shows, on one of its pages, with this permission. -/
theorem permissions_in_history (env : Environment) (roles : List Role) (stateIds : List PyText)
    (badgeIds keyIds : List Uuid) (nextUuid : Uuid) (calls : List Call) :
    let db := runCalls env (emptyDatabase roles stateIds badgeIds keyIds nextUuid) calls
    ∀ id m, db.members.get? id=some m → ∀ today permission pageSize, 0 < pageSize →
      (permission ∈ calculatePermissions env db.roles today ⟨id,m⟩ ↔
        (env.devSuperuserId=some id ∧
          permission ∈ (permissionRules env).map PermissionRule.permission) ∨
        (permission=text "systemAdmin" ∧
          m.verifiedEmail.any (fun e => e ∈ env.systemAdminEmails)=true) ∨
        ∃ page, 1 ≤ page ∧ ∃ response ∈ (listRoleHistory env db page pageSize).1,
          response.memberId=id ∧ response.action ≠ .revoked ∧ permission ∈ response.permissions ∧
          ∃ e ∈ m.memberRoles, e=⟨response.roleId,response.startdate,response.enddate⟩ ∧
            e.isActive today=true) := by
  intro db id m hm today permission pageSize hsize
  have hhistory : HistoryComplete db :=
    historyComplete_runCalls env roles stateIds badgeIds keyIds nextUuid calls
  have hroles : RolesFound db := rolesFound_runCalls env roles stateIds badgeIds keyIds nextUuid calls
  have hpermissions : ∀ ev : RoleAssignmentEvent, ev.memberId=id → ∀ role,
      db.roles.find? (fun r => r.id=ev.change.entry.roleId)=some role →
      (permission ∈ (toResponse env db ev).permissions ↔
        permission ∈ permissionsConferredByRole env role (m.columns.text .orgId)) := by
    intro ev hid role hrole
    simp [toResponse,hrole,hid,hm]
  rw [mem_calculatePermissions (hroles id m hm)]
  apply or_congr_right
  apply or_congr_right
  constructor
  · rintro ⟨e,he,hactive,role,hrole,hconferred⟩
    obtain ⟨ev,hev,hid,haction,rfl⟩ := hhistory.exists_event hm he
    obtain ⟨page,hpage,hmem⟩ := (exists_page_iff hsize).mpr (List.mem_reverse.mpr hev)
    exact ⟨page,hpage,toResponse env db ev,List.mem_map_of_mem hmem,hid,haction,
      (hpermissions ev hid role hrole).mpr hconferred,ev.change.entry,he,rfl,hactive⟩
  · rintro ⟨page,hpage,response,hresponse,hid,_,hpermission,e,he,heq,hactive⟩
    obtain ⟨ev,-,rfl⟩ := List.mem_map.mp hresponse
    have hentry : ev.change.entry=e := heq.symm
    obtain ⟨role,hrole⟩ := hroles id m hm e he
    rw [← hentry] at hrole
    refine ⟨e,he,hactive,role,hentry ▸ hrole,(hpermissions ev hid role hrole).mp hpermission⟩

section FirstLeader

/-- Somebody from outside the tables enters the first member. -/
def firstLeaderCalls : List Call :=
  [.createMember ⟨5,.minDate⟩
    {newFellow with rolesHistory := [⟨text "standesfuehrer",none,.minDate,none⟩]}
    ⟨9,memberOf (text "vbw") [⟨text "standesfuehrer",.minDate,none⟩]⟩]

theorem permissions_in_history_first :
    let roles : List Role := [⟨text "standesfuehrer",some (text "chc"),none⟩]
    let db := runCalls plainEnvironment (emptyDatabase roles [] [] [] 1) firstLeaderCalls
    ∃ m, db.members.get? 1=some m ∧
      (text "keylist" ∈ calculatePermissions plainEnvironment db.roles .minDate ⟨1,m⟩ ↔
        (plainEnvironment.devSuperuserId=some 1 ∧
          text "keylist" ∈ (permissionRules plainEnvironment).map PermissionRule.permission) ∨
        (text "keylist"=text "systemAdmin" ∧
          m.verifiedEmail.any (fun e => e ∈ plainEnvironment.systemAdminEmails)=true) ∨
        ∃ page, 1 ≤ page ∧ ∃ response ∈ (listRoleHistory plainEnvironment db page 20).1,
          response.memberId=1 ∧ response.action ≠ .revoked ∧
          text "keylist" ∈ response.permissions ∧
          ∃ e ∈ m.memberRoles, e=⟨response.roleId,response.startdate,response.enddate⟩ ∧
            e.isActive .minDate=true) := by
  intro roles db
  have hsome : (db.members.get? 1).isSome=true := by decide
  obtain ⟨m,hm⟩ := Option.isSome_iff_exists.mp hsome
  exact ⟨m,hm,permissions_in_history plainEnvironment roles [] [] [] 1 firstLeaderCalls 1 m hm .minDate
    (text "keylist") 20 (by decide)⟩

end FirstLeader

/-! ### The page -/

section Page
variable {env : Environment} {roles : List Role} {today : Date}

lemma foldl_rules {rules : List PermissionRule} (hrules : (rules.map PermissionRule.permission).Nodup)
    (holders : Dict PyText (List Member)) (m : Member) (permission : PyText) :
    (rules.foldl (fun holders r =>
      if r.holds roles today m then holders.set r.permission (holders.getD r.permission [] ++ [m])
      else holders) holders).getD permission []=
    holders.getD permission [] ++
      if ∃ r ∈ rules, r.permission=permission ∧ r.holds roles today m=true then [m] else [] := by
  induction rules generalizing holders with
  | nil => simp
  | cons r rules ih =>
    obtain ⟨hr,hrules⟩ := List.nodup_cons.mp hrules
    rw [List.foldl_cons,ih hrules]
    by_cases hname : r.permission=permission
    · subst hname
      have hrest : ¬ ∃ r' ∈ rules, r'.permission=r.permission ∧ r'.holds roles today m=true := by
        rintro ⟨r',hr',hname,_⟩
        exact hr (hname ▸ List.mem_map_of_mem hr')
      rw [if_neg hrest,List.append_nil]
      by_cases hholds : r.holds roles today m=true
      · have hself : ∃ r' ∈ r::rules, r'.permission=r.permission ∧ r'.holds roles today m=true :=
          ⟨r,List.mem_cons_self,rfl,hholds⟩
        rw [if_pos hholds,if_pos hself,Dict.getD_set,if_pos rfl]
      · have hnone : ¬ ∃ r' ∈ r::rules, r'.permission=r.permission ∧
            r'.holds roles today m=true := by
          rintro ⟨r',hr',hname,hholds'⟩
          obtain rfl | hr' := List.mem_cons.mp hr'
          · exact hholds hholds'
          · exact hrest ⟨r',hr',hname,hholds'⟩
        rw [if_neg hholds,if_neg hnone,List.append_nil]
    · have hiff : (∃ r' ∈ r::rules, r'.permission=permission ∧ r'.holds roles today m=true) ↔
          ∃ r' ∈ rules, r'.permission=permission ∧ r'.holds roles today m=true := by
        simp [hname]
      have hget : (if r.holds roles today m then
          holders.set r.permission (holders.getD r.permission [] ++ [m]) else holders).getD
            permission []=holders.getD permission [] := by
        split_ifs
        · rw [Dict.getD_set,if_neg (Ne.symm hname)]
        · rfl
      rw [hget]
      simp only [hiff]

/-- The members under a permission are those on whom its rule holds. -/
lemma getD_groupMembersByRuleCondition {r : PermissionRule} (hr : r ∈ permissionRules env)
    (members : List Member) :
    (groupMembersByRuleCondition env roles today members).getD r.permission []=
      members.filter fun m => r.holds roles today m := by
  have hfold : ∀ holders : Dict PyText (List Member), (members.foldl (fun holders m =>
      (permissionRules env).foldl (fun holders r =>
        if r.holds roles today m then holders.set r.permission (holders.getD r.permission [] ++ [m])
        else holders) holders) holders).getD r.permission []=
      holders.getD r.permission [] ++ members.filter fun m => r.holds roles today m := by
    induction members with
    | nil => simp
    | cons m members ih =>
      intro holders
      have hiff : (∃ r' ∈ permissionRules env, r'.permission=r.permission ∧
          r'.holds roles today m=true) ↔ r.holds roles today m=true := by
        constructor
        · rintro ⟨r',hr',hname,hholds⟩
          rwa [← List.inj_on_of_nodup_map (rule_names_nodup env) hr' hr hname]
        · exact fun hholds => ⟨r,hr,rfl,hholds⟩
      rw [List.foldl_cons,ih,foldl_rules (rule_names_nodup env),List.filter_cons]
      simp only [hiff]
      split_ifs <;> simp
  have hempty : (Dict.ofPairs ((allPermissions env).map fun permission =>
      (permission,([] : List Member)))).getD r.permission []=[] := by
    have hmem := mem_allPermissions.mpr (List.mem_map_of_mem hr)
    have hnodup : (((allPermissions env).map fun permission =>
        (permission,([] : List Member))).map Prod.fst).Nodup := by
      rw [List.map_map]
      exact (List.map_id (allPermissions env)).symm ▸ allPermissions_nodup env
    have hget := (Dict.get?_ofPairs_iff _ hnodup r.permission []).mpr
      (List.mem_map.mpr ⟨_,hmem,rfl⟩)
    rw [Dict.getD,hget]
    rfl
  refine (hfold _).trans ?_
  rw [hempty,List.nil_append]

/-- A permission that a rule gives, the development's superuser aside. -/
lemma mem_calculatePermissions_iff_holds {r : PermissionRule} (hr : r ∈ permissionRules env)
    (id : Uuid) (m : Member) :
    r.permission ∈ calculatePermissions {env with devSuperuserId := none} roles today ⟨id,m⟩ ↔
      r.holds roles today m=true := by
  rw [mem_calculatePermissions_iff rfl]
  constructor
  · rintro ⟨r',hr',hname,hholds⟩
    change r' ∈ permissionRules env at hr'
    rw [List.inj_on_of_nodup_map (rule_names_nodup env) hr' hr hname] at hholds
    exact hholds
  · exact fun hholds => ⟨r,hr,rfl,hholds⟩

/-- The page lists under each rule the sorted names of exactly the members who pass the check of the
permission, the development's superuser aside; and a mail goes to exactly the addresses of the
members who pass it. -/
theorem permission_page_agrees (env : Environment) (db : Database) (today : Date) :
    (getPermissionRulesDisplay env db today=(permissionRules env).map fun r =>
      (r.permission,sortBy id ((db.members.entries.filter fun e => r.permission ∈
        calculatePermissions {env with devSuperuserId := none} db.roles today ⟨e.1,e.2⟩).map
          fun e => e.2.cn))) ∧
    ∀ permission email, email ∈ getEmailsWithPermission env db today permission ↔
      email ≠ [] ∧ ∃ id m, db.members.get? id=some m ∧ m.columns.text .email=some email ∧
        permission ∈ calculatePermissions env db.roles today ⟨id,m⟩ := by
  constructor
  · apply List.map_congr_left
    intro r hr
    rw [getD_groupMembersByRuleCondition hr,Dict.values,List.filter_map,List.map_map]
    have hfilter : db.members.entries.filter ((fun m => r.holds db.roles today m) ∘ Prod.snd)=
        db.members.entries.filter fun e => r.permission ∈
          calculatePermissions {env with devSuperuserId := none} db.roles today ⟨e.1,e.2⟩ := by
      apply List.filter_congr
      intro e _
      rw [Bool.eq_iff_iff,decide_eq_true_eq,mem_calculatePermissions_iff_holds hr]
      rfl
    rw [hfilter]
    rfl
  · intro permission email
    simp only [getEmailsWithPermission,List.mem_filterMap,Dict.get?_eq_some_iff,
      Option.filter_eq_some_iff,decide_eq_true_eq]
    constructor
    · rintro ⟨⟨id,m⟩,hmem,hemail,hne,hpermission⟩
      exact ⟨hne,id,m,hmem,hemail,hpermission⟩
    · rintro ⟨hne,id,m,hmem,hemail,hpermission⟩
      exact ⟨(id,m),hmem,hemail,hne,hpermission⟩

end Page

end VbApi.Members
