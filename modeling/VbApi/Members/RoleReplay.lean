import VbApi.Members.RoleExclusivity

/-! The history of role assignments tells the entries of every member. -/
namespace VbApi.Members
open VbApi.Foundations
open VbApi.Standesdb (Uuid)

/-- The recorded changes of a member, in order. -/
def changesOf (db : Database) (memberId : Uuid) : List RoleChange :=
  (db.roleEvents.filter fun ev => ev.memberId=memberId).map RoleAssignmentEvent.change

/-- Nobody has a role yet. -/
def noRoles : Table RoleKey (Option Date) := fun _ => none

section Diff
variable {before after : List RoleEntry}

/-- Entries that may be saved have different keys. -/
lemma RolesFit.keysDistinct {db : Database} {entries : List RoleEntry} {orgId : PyText}
    {memberId : Uuid} (h : RolesFit db entries orgId memberId) : KeysDistinct entries := by
  rw [KeysDistinct,List.Nodup,List.pairwise_map]
  refine h.own.imp_of_mem ?_
  intro a b ha hb hab hkey
  simp only [RoleEntry.key,Prod.mk.injEq] at hkey
  exact hab hkey.1 (Period.overlaps_of_start_eq (h.proper a ha) (h.proper b hb) hkey.2)

lemma heldRoles_perm (h : KeysDistinct before) (hperm : before.Perm after) :
    heldRoles before=heldRoles after := by
  have h' : KeysDistinct after := (hperm.map RoleEntry.key).nodup_iff.mp h
  funext key
  have hget : (byKey before).get? key=(byKey after).get? key := by
    ext e
    rw [byKey_get?_eq_some_iff h,byKey_get?_eq_some_iff h',hperm.mem_iff]
  rw [heldRoles,heldRoles,hget]

/-- The events of a save turn the entries before it into those after it. -/
lemma replay_roleEventsOf (memberId userId : Uuid) (h : KeysDistinct before) :
    replayRoles (heldRoles before)
      ((roleEventsOf memberId before after userId).map RoleAssignmentEvent.change)=
      some (heldRoles after) := by
  unfold roleEventsOf
  split_ifs with hdiffer
  · have hchanges : (recordRoleChanges memberId before after userId).map RoleAssignmentEvent.change=
        diffRoleEntries before after := by
      simp [recordRoleChanges,Function.comp_def]
    rw [hchanges]
    exact replay_diffRoleEntries before after
  · have hsame : sortedRoles before=sortedRoles after := by simpa using hdiffer
    have hperm : before.Perm after := by
      have hbefore := (sortBy_perm (fun e : RoleEntry => toLex (e.roleId,e.startdate)) before).symm
      have hafter := sortBy_perm (fun e : RoleEntry => toLex (e.roleId,e.startdate)) after
      exact hbefore.trans ((List.Perm.of_eq hsame).trans hafter)
    rw [heldRoles_perm h hperm]
    rfl

lemma edit_old_ne_new {c : RoleChange} (h : c ∈ diffRoleEntries before after) :
    c.edit.old ≠ c.edit.new := by
  rw [diffRoleEntries,mem_sortBy,roleChanges,List.mem_append,List.mem_append,
    mem_entriesWithout (keyed_byKey before),mem_entriesWithout (keyed_byKey after),
    mem_periodChanges (keyed_byKey before) (keyed_byKey after)] at h
  obtain (⟨e,rfl,-⟩ | ⟨e,rfl,-⟩) | ⟨e,e',rfl,-,-,-,hend⟩ := h
  · simp [RoleChange.edit]
  · simp [RoleChange.edit]
  · simpa [RoleChange.edit] using hend

/-- A key whose entry differs has one change, any other key has none. -/
lemma diffRoleEntries_count (before after : List RoleEntry) (key : RoleKey) :
    ((diffRoleEntries before after).filter fun c => c.entry.key=key).length=
      if heldRoles before key=heldRoles after key then 0 else 1 := by
  have hcount := (diffRoleEntries_differs before after).count
    (by
      intro e he
      obtain ⟨c,hc,rfl⟩ := List.mem_map.mp he
      exact edit_old_ne_new hc) key
  rw [← hcount,List.filter_map,List.length_map]
  rfl

end Diff

/-- The recorded changes of every member lead to the member's entries. -/
structure HistoryComplete (db : Database) : Prop where
  distinct : ∀ id m, db.members.get? id=some m → KeysDistinct m.memberRoles
  replays : ∀ id m, db.members.get? id=some m →
    replayRoles noRoles (changesOf db id)=some (heldRoles m.memberRoles)
  used : ∀ id m, db.members.get? id=some m → id < db.nextUuid
  events_used : ∀ ev ∈ db.roleEvents, ev.memberId < db.nextUuid

section Steps
variable {db db' : Database} {memberId : Uuid} {m : Member}

lemma HistoryComplete.put_same (h : HistoryComplete db) {m' : Member}
    (hm' : db.members.get? memberId=some m') (hroles : m.memberRoles=m'.memberRoles) :
    HistoryComplete (putMember memberId m db) := by
  have hget : ∀ id m₁, (putMember memberId m db).members.get? id=some m₁ →
      ∃ m₂, db.members.get? id=some m₂ ∧ m₁.memberRoles=m₂.memberRoles := by
    intro id m₁ hm₁
    rw [putMember,Dict.get?_set] at hm₁
    split_ifs at hm₁ with hid
    · subst hid
      cases hm₁
      exact ⟨m',hm',hroles⟩
    · exact ⟨m₁,hm₁,rfl⟩
  constructor
  · intro id m₁ hm₁
    obtain ⟨m₂,hm₂,heq⟩ := hget id m₁ hm₁
    rw [heq]
    exact h.distinct id m₂ hm₂
  · intro id m₁ hm₁
    obtain ⟨m₂,hm₂,heq⟩ := hget id m₁ hm₁
    rw [heq]
    exact h.replays id m₂ hm₂
  · intro id m₁ hm₁
    obtain ⟨m₂,hm₂,-⟩ := hget id m₁ hm₁
    exact h.used id m₂ hm₂
  · exact h.events_used

/-- Before a save the changes recorded for its member lead to the entries that it replaces. -/
lemma HistoryComplete.before (h : HistoryComplete db) {existing : Option Member}
    {data : MemberSaveRequest} (moment : Moment) (saves : Saves db memberId existing data) :
    replayRoles noRoles (changesOf db memberId)=
      some (heldRoles (existing.getD (newMember moment)).memberRoles) ∧
    KeysDistinct (existing.getD (newMember moment)).memberRoles := by
  cases existing with
  | none =>
    have hnone : changesOf db memberId=[] := by
      rw [changesOf,List.map_eq_nil_iff,List.filter_eq_nil_iff]
      intro ev hev
      have hlt := h.events_used ev hev
      rw [← saves.fresh rfl] at hlt
      simpa using hlt.ne
    rw [hnone]
    exact ⟨rfl,List.nodup_nil⟩
  | some m =>
    have hfound := saves.found m rfl
    exact ⟨h.replays _ _ hfound,h.distinct _ _ hfound⟩

/-- Every call keeps the history complete. -/
theorem HistoryComplete.effect (h : HistoryComplete db) (heffect : Effect db db') :
    HistoryComplete db' := by
  cases heffect with
  | requests changeRequests later =>
    exact ⟨h.distinct,h.replays,fun id m hm => (h.used id m hm).trans_le later,
      fun ev hev => (h.events_used ev hev).trans_le later⟩
  | @saved moment memberId existing data userId changeRequests nextUuid saves later used =>
    have hid : memberId < nextUuid := by
      cases existing with
      | none =>
        rw [saves.fresh rfl]
        exact used rfl
      | some m => exact (h.used memberId m (saves.found m rfl)).trans_le later
    have hget : ∀ id m, (db.members.set memberId (savedMember moment existing data userId)).get? id=
        some m → id=memberId ∧ m=savedMember moment existing data userId ∨
          id ≠ memberId ∧ db.members.get? id=some m := by
      intro id m hm
      rw [Dict.get?_set] at hm
      split_ifs at hm with hid
      · exact .inl ⟨hid,(Option.some.inj hm).symm⟩
      · exact .inr ⟨hid,hm⟩
    have hevents : ∀ ev ∈ roleEventsOf memberId (existing.getD (newMember moment)).memberRoles
        (data.rolesHistory.map RoleHistoryEntry.entry) userId, ev.memberId=memberId := by
      intro ev hev
      unfold roleEventsOf recordRoleChanges at hev
      split_ifs at hev
      · obtain ⟨c,-,rfl⟩ := List.mem_map.mp hev
        rfl
      · cases hev
    constructor
    · intro id m hm
      obtain ⟨rfl,rfl⟩ | ⟨-,hm⟩ := hget id m hm
      · exact saves.fits.keysDistinct
      · exact h.distinct id m hm
    · intro id m hm
      change replayRoles noRoles (((db.roleEvents ++ _).filter _).map _)=_
      rw [List.filter_append,List.map_append,replayRoles,List.map_append,Table.replay_append]
      obtain ⟨rfl,rfl⟩ | ⟨hne,hm⟩ := hget id m hm
      · obtain ⟨hbefore,hdistinct⟩ := h.before moment saves
        have hall := List.filter_eq_self.mpr fun ev hev => decide_eq_true (hevents ev hev)
        rw [replayRoles,changesOf] at hbefore
        rw [hbefore,Option.bind_some,hall]
        exact replay_roleEventsOf id userId hdistinct
      · have hnone := List.filter_eq_nil_iff.mpr fun ev hev (heq : decide (ev.memberId=id)=true) =>
          hne ((of_decide_eq_true heq).symm.trans (hevents ev hev))
        have hbefore := h.replays id m hm
        rw [replayRoles,changesOf] at hbefore
        rw [hbefore,Option.bind_some,hnone]
        rfl
    · intro id m hm
      obtain ⟨rfl,-⟩ | ⟨-,hm⟩ := hget id m hm
      · exact hid
      · exact (h.used id m hm).trans_le later
    · intro ev hev
      obtain hev | hev := List.mem_append.mp hev
      · exact (h.events_used ev hev).trans_le later
      · rw [hevents ev hev]
        exact hid
  | toggled moment found => exact h.put_same found rfl
  | passwordReset moment passwordHash found => exact h.put_same found rfl

end Steps

lemma historyComplete_runCalls (env : Environment) (roles : List Role) (stateIds : List PyText)
    (badgeIds keyIds : List Uuid) (nextUuid : Uuid) (calls : List Call) :
    HistoryComplete (runCalls env (emptyDatabase roles stateIds badgeIds keyIds nextUuid) calls) := by
  apply runCalls_preserves fun _ _ => HistoryComplete.effect
  constructor
  · intro id m hm
    cases hm
  · intro id m hm
    cases hm
  · intro id m hm
    cases hm
  · intro ev hev
    cases hev

/-- After any run of calls from empty tables the fold of a member's recorded changes gives exactly the
member's entries. The changes between two sets of entries turn the one into the other; a key that
differs has exactly one change, any other key none. -/
theorem role_history_replays (env : Environment) (roles : List Role) (stateIds : List PyText)
    (badgeIds keyIds : List Uuid) (nextUuid : Uuid) (calls : List Call) :
    (let db := runCalls env (emptyDatabase roles stateIds badgeIds keyIds nextUuid) calls
    ∀ id m, db.members.get? id=some m → ∃ held, replayRoles noRoles (changesOf db id)=some held ∧
      ∀ e, e ∈ m.memberRoles ↔ held e.key=some e.enddate) ∧
    ∀ before after, KeysDistinct before → KeysDistinct after →
      (∃ held, replayRoles (heldRoles before) (diffRoleEntries before after)=some held ∧
        ∀ e, e ∈ after ↔ held e.key=some e.enddate) ∧
      ∀ key, ((diffRoleEntries before after).filter fun c => c.entry.key=key).length=
        if heldRoles before key=heldRoles after key then 0 else 1 := by
  constructor
  · intro db id m hm
    have h : HistoryComplete db := historyComplete_runCalls env roles stateIds badgeIds keyIds nextUuid calls
    exact ⟨_,h.replays id m hm,fun e => (heldRoles_eq_some_iff (h.distinct id m hm) e).symm⟩
  · intro before after _ hafter
    refine ⟨⟨_,replay_diffRoleEntries before after,?_⟩,diffRoleEntries_count before after⟩
    intro e
    exact (heldRoles_eq_some_iff hafter e).symm

end VbApi.Members
