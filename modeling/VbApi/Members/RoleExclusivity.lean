import VbApi.Members.StatusRules

/-! No two members of an organisation have the same role at the same time. -/
namespace VbApi.Members
open VbApi.Foundations
open VbApi.Standesdb (Uuid)

/-- The entries of a role in an organisation, with their members. -/
def holdings (db : Database) (orgId : PyText) (roleId : RoleId) : List (Uuid × RoleEntry) :=
  (db.members.entries.filter fun row => row.2.columns.text .orgId=some orgId).flatMap fun row =>
    (row.2.memberRoles.filter fun e => e.roleId=roleId).map fun e => (row.1,e)

/-- The periods of each role are apart, within a member and among the members of an organisation. -/
structure RolesApart (db : Database) : Prop where
  proper : ∀ id m, db.members.get? id=some m → ∀ e ∈ m.memberRoles, e.period.Proper
  own : ∀ id m, db.members.get? id=some m →
    m.memberRoles.Pairwise fun a b => a.roleId=b.roleId → ¬ a.period.Overlaps b.period
  others : ∀ id m id' m' orgId, db.members.get? id=some m → db.members.get? id'=some m' → id ≠ id' →
    m.columns.text .orgId=some orgId → m'.columns.text .orgId=some orgId →
    ∀ e ∈ m.memberRoles, ∀ o ∈ m'.memberRoles, o.roleId=e.roleId → ¬ e.period.Overlaps o.period

section
variable {db db' : Database} {memberId : Uuid} {m : Member}

/-- A member whose periods fit may be written. -/
lemma RolesApart.put (h : RolesApart db) (hproper : ∀ e ∈ m.memberRoles, e.period.Proper)
    (hown : m.memberRoles.Pairwise fun a b => a.roleId=b.roleId → ¬ a.period.Overlaps b.period)
    (hothers : ∀ orgId, m.columns.text .orgId=some orgId → ∀ e ∈ m.memberRoles, ∀ id m',
      db.members.get? id=some m' → id ≠ memberId → m'.columns.text .orgId=some orgId →
      ∀ o ∈ m'.memberRoles, o.roleId=e.roleId → ¬ e.period.Overlaps o.period) :
    RolesApart (putMember memberId m db) := by
  have hget : ∀ id m', (putMember memberId m db).members.get? id=some m' →
      id=memberId ∧ m'=m ∨ id ≠ memberId ∧ db.members.get? id=some m' := by
    intro id m' hm'
    rw [putMember,Dict.get?_set] at hm'
    split_ifs at hm' with hid
    · exact .inl ⟨hid,(Option.some.inj hm').symm⟩
    · exact .inr ⟨hid,hm'⟩
  constructor
  · intro id m' hm'
    obtain ⟨-,rfl⟩ | ⟨-,hm'⟩ := hget id m' hm'
    · exact hproper
    · exact h.proper id m' hm'
  · intro id m' hm'
    obtain ⟨-,rfl⟩ | ⟨-,hm'⟩ := hget id m' hm'
    · exact hown
    · exact h.own id m' hm'
  · intro id m₁ id' m₂ orgId hm₁ hm₂ hne horg₁ horg₂ e he o ho hrole
    obtain ⟨rfl,rfl⟩ | ⟨hid,hget₁⟩ := hget id m₁ hm₁
    · obtain ⟨rfl,-⟩ | ⟨hid',hget₂⟩ := hget id' m₂ hm₂
      · exact absurd rfl hne
      · exact hothers orgId horg₁ e he id' m₂ hget₂ hid' horg₂ o ho hrole
    · obtain ⟨rfl,rfl⟩ | ⟨hid',hget₂⟩ := hget id' m₂ hm₂
      · rw [Period.overlaps_comm]
        exact hothers orgId horg₂ o ho id m₁ hget₁ hid horg₁ e he hrole.symm
      · exact h.others id m₁ id' m₂ orgId hget₁ hget₂ hne horg₁ horg₂ e he o ho hrole

/-- A write that leaves roles and organisation changes nothing here. -/
lemma RolesApart.put_same (h : RolesApart db) {m' : Member} (hm' : db.members.get? memberId=some m')
    (hroles : m.memberRoles=m'.memberRoles) (horg : m.columns.text .orgId=m'.columns.text .orgId) :
    RolesApart (putMember memberId m db) := by
  apply h.put
  · rw [hroles]
    exact h.proper memberId m' hm'
  · rw [hroles]
    exact h.own memberId m' hm'
  · rw [hroles,horg]
    intro orgId horg' e he id m₂ hm₂ hne horg₂
    exact h.others memberId m' id m₂ orgId hm' hm₂ hne.symm horg' horg₂ e he

/-- Every call keeps the periods apart. -/
theorem RolesApart.effect (h : RolesApart db) (heffect : Effect db db') : RolesApart db' := by
  cases heffect with
  | requests => exact ⟨h.proper,h.own,h.others⟩
  | @saved moment memberId existing data userId changeRequests nextUuid saves =>
    have hput : RolesApart (putMember memberId (savedMember moment existing data userId) db) := by
      apply h.put saves.fits.proper saves.fits.own
      intro orgId horg
      have hfits := saves.fits.others
      change (normalise data.columns).text .orgId=some orgId at horg
      rw [horg] at hfits
      exact hfits
    exact ⟨hput.proper,hput.own,hput.others⟩
  | toggled moment found => exact h.put_same found rfl rfl
  | passwordReset moment passwordHash found => exact h.put_same found rfl rfl

lemma rolesApart_runCalls (env : Environment) (roles : List Role) (stateIds : List PyText)
    (badgeIds keyIds : List Uuid) (nextUuid : Uuid) (calls : List Call) :
    RolesApart (runCalls env (emptyDatabase roles stateIds badgeIds keyIds nextUuid) calls) := by
  apply runCalls_preserves fun _ _ => RolesApart.effect
  constructor
  · intro id m hm
    cases hm
  · intro id m hm
    cases hm
  · intro id m id' m' orgId hm
    cases hm

/-- The periods in which a role is held in an organisation have no day in common. -/
lemma RolesApart.holdings (h : RolesApart db) (orgId : PyText) (roleId : RoleId) :
    (holdings db orgId roleId).Pairwise fun a b => Disjoint a.2.period.days b.2.period.days := by
  have hmem : ∀ row ∈ db.members.entries.filter fun row => row.2.columns.text .orgId=some orgId,
      db.members.get? row.1=some row.2 ∧ row.2.columns.text .orgId=some orgId := by
    intro row hrow
    rw [List.mem_filter,decide_eq_true_eq] at hrow
    exact ⟨(Dict.get?_eq_some_iff _ _ _).mpr hrow.1,hrow.2⟩
  rw [VbApi.Members.holdings,List.pairwise_flatMap]
  constructor
  · intro row hrow
    obtain ⟨hget,-⟩ := hmem row hrow
    rw [List.pairwise_map,List.pairwise_filter]
    refine (h.own row.1 row.2 hget).imp_of_mem ?_
    intro a b ha hb hab harole hbrole
    rw [decide_eq_true_eq] at harole hbrole
    exact (Period.disjoint_days_iff (h.proper _ _ hget a ha) (h.proper _ _ hget b hb)).mpr
      (hab (harole.trans hbrole.symm))
  · have hkeys : db.members.entries.Pairwise fun a b => a.1 ≠ b.1 :=
      List.pairwise_map.mp db.members.nodup
    refine (hkeys.filter _).imp_of_mem ?_
    intro row row' hrow hrow' hne x hx y hy
    obtain ⟨hget,horg⟩ := hmem row hrow
    obtain ⟨hget',horg'⟩ := hmem row' hrow'
    obtain ⟨e,he,rfl⟩ := List.mem_map.mp hx
    obtain ⟨o,ho,rfl⟩ := List.mem_map.mp hy
    rw [List.mem_filter,decide_eq_true_eq] at he ho
    exact (Period.disjoint_days_iff (h.proper _ _ hget e he.1) (h.proper _ _ hget' o ho.1)).mpr
      (h.others _ _ _ _ orgId hget hget' hne horg horg' e he.1 o ho.1 (ho.2.trans he.2.symm))

/-- A role is active on the days of one of its entries. -/
lemma mem_activeRoles_iff {roles : List Role} {day : Date} {roleId : RoleId} :
    roleId ∈ (activeRoles roles day m).1 ↔
      ∃ e ∈ m.memberRoles, e.roleId=roleId ∧ day ∈ e.period.days := by
  have hactive : ∀ e : RoleEntry, e.isActive day=true ↔ day ∈ e.period.days := by
    intro e
    cases he : e.enddate <;> simp [RoleEntry.isActive,Period.mem_days,RoleEntry.period,he]
  simp only [activeRoles,List.mem_map,List.mem_filter,hactive]
  constructor
  · rintro ⟨e,⟨he,hday⟩,hrole⟩
    exact ⟨e,he,hrole,hday⟩
  · rintro ⟨e,he,hrole,hday⟩
    exact ⟨e,⟨he,hday⟩,hrole⟩

/-- On every day at most one member of an organisation has a role. -/
lemma RolesApart.active_unique (h : RolesApart db) {orgId : PyText} {roleId : RoleId} {day : Date}
    {id id' : Uuid} {m m' : Member} (hm : db.members.get? id=some m)
    (hm' : db.members.get? id'=some m') (horg : m.columns.text .orgId=some orgId)
    (horg' : m'.columns.text .orgId=some orgId) (hactive : roleId ∈ (activeRoles db.roles day m).1)
    (hactive' : roleId ∈ (activeRoles db.roles day m').1) : id=id' := by
  obtain ⟨e,he,hrole,hday⟩ := mem_activeRoles_iff.mp hactive
  obtain ⟨o,ho,hrole',hday'⟩ := mem_activeRoles_iff.mp hactive'
  by_contra hne
  have hapart := h.others id m id' m' orgId hm hm' hne horg horg' e he o ho (hrole'.trans hrole.symm)
  rw [← Period.disjoint_days_iff (h.proper _ _ hm e he) (h.proper _ _ hm' o ho)] at hapart
  exact Set.disjoint_left.mp hapart hday hday'

end

/-- After any run of calls from empty tables the periods of a role in an organisation are pairwise
disjoint, and on every day at most one of its members has the role. -/
theorem roles_exclusive (env : Environment) (roles : List Role) (stateIds : List PyText)
    (badgeIds keyIds : List Uuid) (nextUuid : Uuid) (calls : List Call) (orgId : PyText)
    (roleId : RoleId) :
    let db := runCalls env (emptyDatabase roles stateIds badgeIds keyIds nextUuid) calls
    ((holdings db orgId roleId).Pairwise fun a b => Disjoint a.2.period.days b.2.period.days) ∧
    ∀ day id m id' m', db.members.get? id=some m → db.members.get? id'=some m' →
      m.columns.text .orgId=some orgId → m'.columns.text .orgId=some orgId →
      roleId ∈ (activeRoles db.roles day m).1 → roleId ∈ (activeRoles db.roles day m').1 → id=id' := by
  intro db
  have h : RolesApart db := rolesApart_runCalls env roles stateIds badgeIds keyIds nextUuid calls
  refine ⟨h.holdings orgId roleId,?_⟩
  intro day id m id' m' hm hm' horg horg'
  exact h.active_unique hm hm' horg horg'

end VbApi.Members
