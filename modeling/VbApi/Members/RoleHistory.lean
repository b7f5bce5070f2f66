import VbApi.Members.RolePeriods
import VbApi.Foundations.KeyedEdits
import VbApi.Foundations.Sorting

/-! The history of role assignments: the changes between two sets of entries, and their replay. -/
namespace VbApi.Members
open VbApi.Foundations
open VbApi.Standesdb (Uuid)

/-- What identifies an entry of a member: the primary key of `members_roles`. -/
abbrev RoleKey := RoleId × Date

def RoleEntry.key (e : RoleEntry) : RoleKey := (e.roleId,e.startdate)

lemma RoleEntry.ext_key {a b : RoleEntry} (hkey : a.key=b.key) (hend : a.enddate=b.enddate) : a=b := by
  obtain ⟨ra,sa,ea⟩ := a
  obtain ⟨rb,sb,eb⟩ := b
  simp only [RoleEntry.key,Prod.mk.injEq] at hkey hend
  rw [hkey.1,hkey.2,hend]

def RoleAssignmentAction.value : RoleAssignmentAction → PyText
  | .granted => text "granted"
  | .revoked => text "revoked"
  | .periodChanged => text "period_changed"

/-- `{(e.role_id, e.startdate): e for e in entries}`. -/
def byKey (entries : List RoleEntry) : Dict RoleKey RoleEntry :=
  Dict.ofPairs (entries.map fun e => (e.key,e))

/-- The entries whose keys the other entries do not have. -/
def entriesWithout (action : RoleAssignmentAction) (entries others : Dict RoleKey RoleEntry) :
    List RoleChange :=
  entries.entries.filterMap fun row =>
    if row.1 ∈ others.keys then none else some ⟨action,row.2,none⟩

/-- The entries of common keys that end another day. -/
def periodChanges (old new : Dict RoleKey RoleEntry) : List RoleChange :=
  old.entries.filterMap fun row =>
    (new.get? row.1).bind fun after =>
      if row.2.enddate ≠ after.enddate then some ⟨.periodChanged,after,row.2.enddate⟩ else none

/-- The changes before they are sorted. -/
def roleChanges (old new : Dict RoleKey RoleEntry) : List RoleChange :=
  entriesWithout .revoked old new ++ entriesWithout .granted new old ++ periodChanges old new

/-- `diff_role_entries`. -/
def diffRoleEntries (before after : List RoleEntry) : List RoleChange :=
  sortBy (fun c => toLex (c.entry.roleId,toLex (c.entry.startdate,c.action.value)))
    (roleChanges (byKey before) (byKey after))

/-- Every key once: the primary key holds. -/
def KeysDistinct (entries : List RoleEntry) : Prop := (entries.map RoleEntry.key).Nodup

instance (entries : List RoleEntry) : Decidable (KeysDistinct entries) :=
  inferInstanceAs (Decidable (List.Nodup _))

/-- The end of each entry, by its key. -/
def heldRoles (entries : List RoleEntry) : Table RoleKey (Option Date) :=
  fun key => ((byKey entries).get? key).map RoleEntry.enddate

/-- A change as an edit: a grant needs a free key, a revocation and a changed period the entry as
it was. -/
def RoleChange.edit (c : RoleChange) : Edit RoleKey (Option Date) where
  key := c.entry.key
  old := match c.action with
    | .granted => none
    | .revoked => some c.entry.enddate
    | .periodChanged => some c.previousEnddate
  new := match c.action with
    | .granted | .periodChanged => some c.entry.enddate
    | .revoked => none

/-- Fold the recorded changes over the entries held so far. -/
def replayRoles (held : Table RoleKey (Option Date)) (changes : List RoleChange) :
    Option (Table RoleKey (Option Date)) := held.replay (changes.map RoleChange.edit)

/-- Every entry stands under its own key. -/
def Keyed (entries : Dict RoleKey RoleEntry) : Prop := ∀ key e, entries.get? key=some e → e.key=key

lemma keyed_byKey (entries : List RoleEntry) : Keyed (byKey entries) := by
  intro key e h
  obtain ⟨e',-,heq⟩ := List.mem_map.mp (Dict.mem_of_get?_ofPairs h)
  simp only [Prod.mk.injEq] at heq
  obtain ⟨hkey,rfl⟩ := heq
  exact hkey

lemma byKey_get?_eq_some_iff {entries : List RoleEntry} (h : KeysDistinct entries) {key : RoleKey}
    {e : RoleEntry} : (byKey entries).get? key=some e ↔ e ∈ entries ∧ e.key=key := by
  have hnodup : ((entries.map fun e => (e.key,e)).map Prod.fst).Nodup := by
    rw [List.map_map]
    exact h
  rw [byKey,Dict.get?_ofPairs_iff _ hnodup,List.mem_map]
  constructor
  · rintro ⟨e',he',heq⟩
    simp only [Prod.mk.injEq] at heq
    obtain ⟨hkey,rfl⟩ := heq
    exact ⟨he',hkey⟩
  · rintro ⟨he,rfl⟩
    exact ⟨e,he,rfl⟩

/-- The table says which entries there are. -/
lemma heldRoles_eq_some_iff {entries : List RoleEntry} (h : KeysDistinct entries) (e : RoleEntry) :
    heldRoles entries e.key=some e.enddate ↔ e ∈ entries := by
  rw [heldRoles,Option.map_eq_some_iff]
  constructor
  · rintro ⟨e',he',hend⟩
    obtain ⟨hmem,hkey⟩ := (byKey_get?_eq_some_iff h).mp he'
    rw [RoleEntry.ext_key hkey hend] at hmem
    exact hmem
  · intro he
    exact ⟨e,(byKey_get?_eq_some_iff h).mpr ⟨he,rfl⟩,rfl⟩

section Differences
variable {old new : Dict RoleKey RoleEntry} {c : RoleChange}

lemma mem_entriesWithout {action : RoleAssignmentAction} (hold : Keyed old) :
    c ∈ entriesWithout action old new ↔
      ∃ e, c=⟨action,e,none⟩ ∧ old.get? e.key=some e ∧ new.get? e.key=none := by
  simp only [entriesWithout,List.mem_filterMap]
  constructor
  · rintro ⟨⟨key,e⟩,hmem,hc⟩
    split_ifs at hc with hkey
    have hget := (old.get?_eq_some_iff key e).mpr hmem
    obtain rfl := hold key e hget
    refine ⟨e,(Option.some.inj hc).symm,hget,?_⟩
    rw [Option.eq_none_iff_forall_ne_some]
    intro e' he'
    exact hkey ((new.mem_keys_iff _).mpr ⟨e',he'⟩)
  · rintro ⟨e,rfl,hget,hnone⟩
    refine ⟨(e.key,e),(old.get?_eq_some_iff _ _).mp hget,?_⟩
    rw [if_neg]
    intro hkey
    obtain ⟨e',he'⟩ := (new.mem_keys_iff _).mp hkey
    rw [hnone] at he'
    cases he'

lemma mem_periodChanges (hold : Keyed old) (hnew : Keyed new) :
    c ∈ periodChanges old new ↔ ∃ e e', c=⟨.periodChanged,e',e.enddate⟩ ∧ e.key=e'.key ∧
      old.get? e'.key=some e ∧ new.get? e'.key=some e' ∧ e.enddate ≠ e'.enddate := by
  simp only [periodChanges,List.mem_filterMap,Option.bind_eq_some_iff]
  constructor
  · rintro ⟨⟨key,e⟩,hmem,e',hnew',hc⟩
    split_ifs at hc with hend
    have hget := (old.get?_eq_some_iff key e).mpr hmem
    obtain rfl := hnew key e' hnew'
    exact ⟨e,e',(Option.some.inj hc).symm,hold _ _ hget,hget,hnew',hend⟩
  · rintro ⟨e,e',rfl,-,hget,hget',hend⟩
    exact ⟨(e'.key,e),(old.get?_eq_some_iff _ _).mp hget,e',hget',if_pos hend⟩

lemma nodup_entriesWithout {action : RoleAssignmentAction} (hold : Keyed old) :
    ((entriesWithout action old new).map fun c => c.entry.key).Nodup := by
  rw [List.Nodup,List.pairwise_map,entriesWithout,List.pairwise_filterMap]
  refine (List.pairwise_map.mp old.nodup).imp_of_mem ?_
  rintro ⟨key,e⟩ ⟨key',e'⟩ hmem hmem' hne c hc c' hc'
  split_ifs at hc hc'
  cases hc
  cases hc'
  rw [hold key e ((old.get?_eq_some_iff _ _).mpr hmem),
    hold key' e' ((old.get?_eq_some_iff _ _).mpr hmem')]
  exact hne

lemma nodup_periodChanges (hnew : Keyed new) :
    ((periodChanges old new).map fun c => c.entry.key).Nodup := by
  rw [List.Nodup,List.pairwise_map,periodChanges,List.pairwise_filterMap]
  refine (List.pairwise_map.mp old.nodup).imp ?_
  rintro ⟨key,e⟩ ⟨key',e'⟩ hne c hc c' hc'
  obtain ⟨after,hafter,hc⟩ := Option.bind_eq_some_iff.mp hc
  obtain ⟨after',hafter',hc'⟩ := Option.bind_eq_some_iff.mp hc'
  split_ifs at hc hc'
  cases hc
  cases hc'
  rw [hnew key after hafter,hnew key' after' hafter']
  exact hne

/-- No key changes twice. -/
lemma nodup_roleChanges (hold : Keyed old) (hnew : Keyed new) :
    ((roleChanges old new).map fun c => c.entry.key).Nodup := by
  have hrevoked : ∀ key ∈ (entriesWithout .revoked old new).map fun c => c.entry.key,
      (old.get? key).isSome ∧ new.get? key=none := by
    intro key hkey
    obtain ⟨c,hc,rfl⟩ := List.mem_map.mp hkey
    obtain ⟨e,rfl,hget,hnone⟩ := (mem_entriesWithout hold).mp hc
    exact ⟨by simp [hget],hnone⟩
  have hgranted : ∀ key ∈ (entriesWithout .granted new old).map fun c => c.entry.key,
      old.get? key=none := by
    intro key hkey
    obtain ⟨c,hc,rfl⟩ := List.mem_map.mp hkey
    obtain ⟨e,rfl,-,hnone⟩ := (mem_entriesWithout hnew).mp hc
    exact hnone
  have hchanged : ∀ key ∈ (periodChanges old new).map fun c => c.entry.key,
      (old.get? key).isSome ∧ (new.get? key).isSome := by
    intro key hkey
    obtain ⟨c,hc,rfl⟩ := List.mem_map.mp hkey
    obtain ⟨e,e',rfl,-,hget,hget',-⟩ := (mem_periodChanges hold hnew).mp hc
    exact ⟨by simp [hget],by simp [hget']⟩
  rw [roleChanges,List.map_append,List.map_append,List.nodup_append',List.nodup_append']
  refine ⟨⟨nodup_entriesWithout hold,nodup_entriesWithout hnew,?_⟩,nodup_periodChanges hnew,?_⟩
  · intro key hkey hkey'
    have h := (hrevoked key hkey).1
    rw [hgranted key hkey'] at h
    cases h
  · intro key hkey hkey'
    obtain hkey | hkey := List.mem_append.mp hkey
    · have h := (hchanged key hkey').2
      rw [(hrevoked key hkey).2] at h
      cases h
    · have h := (hchanged key hkey').1
      rw [hgranted key hkey] at h
      cases h

/-- The changes say, key by key, how the entries differ. -/
lemma roleChanges_differs (hold : Keyed old) (hnew : Keyed new) :
    Table.Differs (fun key => (old.get? key).map RoleEntry.enddate)
      (fun key => (new.get? key).map RoleEntry.enddate)
      ((roleChanges old new).map RoleChange.edit) := by
  have hmem : ∀ c ∈ roleChanges old new, (old.get? c.entry.key).map RoleEntry.enddate=c.edit.old ∧
      (new.get? c.entry.key).map RoleEntry.enddate=c.edit.new := by
    intro c hc
    simp only [roleChanges,List.mem_append,mem_entriesWithout hold,mem_entriesWithout hnew,
      mem_periodChanges hold hnew] at hc
    obtain (⟨e,rfl,hget,hnone⟩ | ⟨e,rfl,hget,hnone⟩) | ⟨e,e',rfl,-,hget,hget',-⟩ := hc
    · simp [RoleChange.edit,hget,hnone]
    · simp [RoleChange.edit,hget,hnone]
    · simp [RoleChange.edit,hget,hget']
  constructor
  · rw [List.map_map]
    exact nodup_roleChanges hold hnew
  · intro e he
    obtain ⟨c,hc,rfl⟩ := List.mem_map.mp he
    exact (hmem c hc).1
  · intro e he
    obtain ⟨c,hc,rfl⟩ := List.mem_map.mp he
    exact (hmem c hc).2
  · intro key hkey
    have hnot : ∀ c ∈ roleChanges old new, c.entry.key ≠ key := by
      intro c hc heq
      apply hkey
      rw [List.map_map]
      exact List.mem_map.mpr ⟨c,hc,heq⟩
    cases hget : old.get? key with
    | none =>
      cases hget' : new.get? key with
      | none => rfl
      | some e =>
        obtain rfl := hnew key e hget'
        refine absurd rfl (hnot ⟨.granted,e,none⟩ ?_)
        simp only [roleChanges,List.mem_append,mem_entriesWithout hnew]
        exact .inl (.inr ⟨e,rfl,hget',hget⟩)
    | some e =>
      have hkeyed := hold key e hget
      cases hget' : new.get? key with
      | none =>
        refine absurd hkeyed (hnot ⟨.revoked,e,none⟩ ?_)
        simp only [roleChanges,List.mem_append,mem_entriesWithout hold]
        rw [← hkeyed] at hget hget'
        exact .inl (.inl ⟨e,rfl,hget,hget'⟩)
      | some e' =>
        have hkeyed' := hnew key e' hget'
        by_cases hend : e.enddate=e'.enddate
        · simp [hend]
        · refine absurd hkeyed' (hnot ⟨.periodChanged,e',e.enddate⟩ ?_)
          simp only [roleChanges,List.mem_append,mem_periodChanges hold hnew]
          rw [← hkeyed'] at hget hget'
          exact .inr ⟨e,e',rfl,hkeyed.trans hkeyed'.symm,hget,hget',hend⟩

end Differences

/-- The recorded changes say, key by key, how the entries differ. -/
lemma diffRoleEntries_differs (before after : List RoleEntry) :
    Table.Differs (heldRoles before) (heldRoles after)
      ((diffRoleEntries before after).map RoleChange.edit) :=
  (roleChanges_differs (keyed_byKey before) (keyed_byKey after)).perm
    ((sortBy_perm _ _).symm.map _)

/-- The changes turn the entries before into the entries after. -/
theorem replay_diffRoleEntries (before after : List RoleEntry) :
    replayRoles (heldRoles before) (diffRoleEntries before after)=some (heldRoles after) :=
  (diffRoleEntries_differs before after).replay

end VbApi.Members
