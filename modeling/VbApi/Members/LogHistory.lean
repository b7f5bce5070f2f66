import VbApi.Members.LogTexts
import VbApi.Members.Calls

/-! The change log is complete: a save logs exactly the fields that it changes, and the logged values
lead from one state of a member to the next. -/
namespace VbApi.Members
open VbApi.Foundations Stateful Transaction
open VbApi.Standesdb (Uuid)

/-- A save of a member, new or not. -/
structure Save where
  moment : Moment
  memberId : Uuid
  data : MemberSaveRequest
  userId : Uuid
  /-- Otherwise the caller commits. -/
  commits : Bool

def Save.transaction (env : Environment) (save : Save) (existing : Option Member) : Saving Diff := do
  let diff ← applyMemberInput env save.moment save.memberId existing save.data save.userId save.commits
  if !save.commits then commitSession env
  return diff

/-- The tables after a save; one that raises is rolled back. -/
def applySave (env : Environment) (db : Database) (save : Save) : Database :=
  (run (save.transaction env (db.members.get? save.memberId)) db).2

def applySaves (env : Environment) (db : Database) (saves : List Save) : Database :=
  saves.foldl (applySave env) db

/-- The value of a key in a record. -/
def valueOf (existing : Option Member) : LogKey → LogValue
  | .field f => .value (getattr existing f)
  | .badges => .presentations
    (sortBy (·.id) ((existing.elim [] (·.memberBadges)).map Presentation.known))
  | .keys => .presentations
    (sortBy (·.id) ((existing.elim [] (·.memberKeys)).map Presentation.known))
  | .rolesHistory => .roles (sortedRoles (existing.elim [] (·.memberRoles)))

/-- These count as one empty value. -/
def emptyValues : List FieldValue :=
  [.none,.bool false,.int 0,.text [],.text (text "deaktiviert")]

inductive Equivalent : LogValue → LogValue → Prop
  | same (v : LogValue) : Equivalent v v
  | empty {v w : FieldValue} (hv : v ∈ emptyValues) (hw : w ∈ emptyValues) :
    Equivalent (.value v) (.value w)

/-- Follow the logged new values of a key. -/
def replayLog (key : LogKey) (start : Option PyText) (rows : List LogTexts) : Option PyText :=
  rows.foldl (fun current row => if row.key=key.name then row.new else current) start

/-- The texts logged for a member. -/
def textsOf (memberId : Uuid) (entries : List MembersLog) : List LogTexts :=
  (entries.filter fun e => e.memberId=memberId).map MembersLog.texts

/-- What a save logs. -/
structure SaveLogged (db db' : Database) (memberId : Uuid) (entries : List MembersLog) : Prop where
  log : db'.membersLog=db.membersLog ++ entries
  own : ∀ e ∈ entries, e.memberId=memberId
  entry : ∀ key, ¬ Equivalent (valueOf (db.members.get? memberId) key)
      (valueOf (db'.members.get? memberId) key) →
    ((entries.map MembersLog.texts).filter fun row => row.key=key.name)=
      [⟨key.name,serializeLogValue (valueOf (db.members.get? memberId) key),
        serializeLogValue (valueOf (db'.members.get? memberId) key)⟩]
  noEntry : ∀ key, Equivalent (valueOf (db.members.get? memberId) key)
      (valueOf (db'.members.get? memberId) key) →
    ((entries.map MembersLog.texts).filter fun row => row.key=key.name)=[]
  others : ∀ id, id ≠ memberId → db'.members.get? id=db.members.get? id

/-- Every save logs what it changes, and over any run of saves the logged new values of a key lead to
the text of its value, up to the empty values. -/
structure ChangeLogComplete (env : Environment) : Prop where
  save : ∀ db save, ∃ entries, SaveLogged db (applySave env db save) save.memberId entries
  replay : ∀ db saves memberId key, ∃ entries v,
    (applySaves env db saves).membersLog=db.membersLog ++ entries ∧
    replayLog key (serializeLogValue (valueOf (db.members.get? memberId) key))
      (textsOf memberId entries)=serializeLogValue v ∧
    Equivalent v (valueOf ((applySaves env db saves).members.get? memberId) key)

/-! ### Equivalent values -/

lemma isEmptyValue_iff {v : FieldValue} : isEmptyValue v=true ↔ v ∈ emptyValues := by
  simp [isEmptyValue,emptyValues,or_assoc]

lemma valuesDiffer_iff {v w : FieldValue} :
    valuesDiffer v w=true ↔ ¬ Equivalent (.value v) (.value w) := by
  have hequiv : Equivalent (.value v) (.value w) ↔ v=w ∨ v ∈ emptyValues ∧ w ∈ emptyValues := by
    constructor
    · rintro (⟨_⟩ | ⟨hv,hw⟩)
      · exact Or.inl rfl
      · exact Or.inr ⟨hv,hw⟩
    · rintro (rfl | ⟨hv,hw⟩)
      · exact .same _
      · exact .empty hv hw
  rw [hequiv,valuesDiffer]
  split_ifs with heq
  · simp [heq]
  · simp only [heq,false_or,← isEmptyValue_iff,← Bool.and_eq_true,Bool.not_eq_true',Bool.not_eq_true]

lemma Equivalent.trans {u v w : LogValue} (h : Equivalent u v) (h' : Equivalent v w) :
    Equivalent u w := by
  cases h with
  | same => exact h'
  | empty hu hv =>
    cases h' with
    | same => exact .empty hu hv
    | empty _ hw => exact .empty hu hw

lemma equivalent_presentations {ps qs : List Presentation} :
    Equivalent (.presentations ps) (.presentations qs) ↔ ps=qs := by
  constructor
  · rintro ⟨_⟩
    rfl
  · rintro rfl
    exact .same _

lemma equivalent_roles {rs ss : List RoleEntry} : Equivalent (.roles rs) (.roles ss) ↔ rs=ss := by
  constructor
  · rintro ⟨_⟩
    rfl
  · rintro rfl
    exact .same _

/-! ### One save -/

def differs : LogValue → LogValue → Bool
  | .value v,.value w => valuesDiffer v w
  | u,v => u ≠ v

lemma differs_valueOf_iff {old new : Option Member} {key : LogKey} :
    differs (valueOf old key) (valueOf new key)=true ↔
      ¬ Equivalent (valueOf old key) (valueOf new key) := by
  cases key with
  | field f => exact valuesDiffer_iff
  | badges => simp [valueOf,differs,equivalent_presentations]
  | keys => simp [valueOf,differs,equivalent_presentations]
  | rolesHistory => simp [valueOf,differs,equivalent_roles]

/-- What the diff says of a key. -/
def changeOf (old new : Option Member) (key : LogKey) : Diff :=
  if differs (valueOf old key) (valueOf new key) then [(key,⟨valueOf old key,valueOf new key⟩)]
  else []

/-- Of entries made key by key, those of one key. -/
lemma filter_flatMap_key {κ ν : Type*} [DecidableEq κ] {keys : List κ} (hkeys : keys.Nodup)
    {entries : κ → List (κ × ν)} (hentries : ∀ k, ∀ e ∈ entries k, e.1=k) {key : κ} (hkey : key ∈ keys) :
    (keys.flatMap entries).filter (fun e => e.1=key)=entries key := by
  have hself : ∀ k, k=key → (entries k).filter (fun e => e.1=key)=entries key := by
    rintro k rfl
    exact List.filter_eq_self.mpr fun e he => decide_eq_true (hentries k e he)
  have hother : ∀ k, k ≠ key → (entries k).filter (fun e => e.1=key)=[] := by
    intro k hk
    refine List.filter_eq_nil_iff.mpr fun e he => ?_
    rw [hentries k e he,decide_eq_true_eq]
    exact hk
  induction keys with
  | nil => contradiction
  | cons k keys ih =>
    rw [List.flatMap_cons,List.filter_append]
    obtain ⟨hk,hrest⟩ := List.nodup_cons.mp hkeys
    by_cases heq : k=key
    · have hnone : (keys.flatMap entries).filter (fun e => e.1=key)=[] := by
        rw [List.filter_flatMap,List.flatMap_eq_nil_iff]
        exact fun k' hk' => hother k' fun h => hk (heq ▸ h ▸ hk')
      rw [hself k heq,hnone,List.append_nil]
    · rw [hother k heq,List.nil_append]
      exact ih hrest ((List.mem_cons.mp hkey).resolve_left fun h => heq h.symm)

section Save
variable {moment : Moment} {existing : Option Member} {data : MemberSaveRequest} {userId : Uuid}

lemma getattr_savedMember (f : Field) :
    getattr (some (savedMember moment existing data userId)) f=(normalise data.columns).get f := rfl

lemma changeOf_presentations {old new : Option Member} {key : LogKey} {rows : List Presentation}
    {entries : List PresentationEntry}
    (hold : valueOf old key=.presentations (sortBy (·.id) (rows.map Presentation.known)))
    (hnew : valueOf new key=.presentations
      (sortBy (·.id) ((entries.map PresentationEntry.row).map Presentation.known))) :
    changeOf old new key=presentationsDiff key rows entries := by
  -- the accuracy of an entry of the input is known
  have hknown : (entries.map PresentationEntry.row).map Presentation.known=
      entries.map PresentationEntry.row := by
    rw [List.map_map]
    rfl
  rw [hknown] at hnew
  rw [changeOf,hold,hnew,presentationsDiff]
  simp [differs]

/-- The diff of a save goes through the keys one by one. -/
lemma savedDiff_eq : savedDiff (existing.getD (newMember moment)) existing data=
    LogKey.all.flatMap (changeOf existing (some (savedMember moment existing data userId))) := by
  have hfields : (Field.all.map LogKey.field).flatMap
      (changeOf existing (some (savedMember moment existing data userId)))=
      fieldDiff existing (normalise data.columns) Field.all := by
    rw [List.flatMap_map,fieldDiff,List.filterMap_eq_flatMap_toList]
    congr 1
    funext f
    cases hdiffer : valuesDiffer (getattr existing f) ((normalise data.columns).get f) with
    | true => simp [changeOf,valueOf,differs,getattr_savedMember,hdiffer]
    | false => simp [changeOf,valueOf,differs,getattr_savedMember,hdiffer]
  have hbadges : changeOf existing (some (savedMember moment existing data userId)) .badges=
      presentationsDiff .badges (existing.getD (newMember moment)).memberBadges data.badges := by
    apply changeOf_presentations
    · cases existing <;> rfl
    · rfl
  have hkeys : changeOf existing (some (savedMember moment existing data userId)) .keys=
      presentationsDiff .keys (existing.getD (newMember moment)).memberKeys data.keys := by
    apply changeOf_presentations
    · cases existing <;> rfl
    · rfl
  have hroles : changeOf existing (some (savedMember moment existing data userId)) .rolesHistory=
      rolesDiff (existing.getD (newMember moment)).memberRoles
        (data.rolesHistory.map RoleHistoryEntry.entry) := by
    have hold : (existing.getD (newMember moment)).memberRoles=existing.elim [] (·.memberRoles) := by
      cases existing <;> rfl
    have hnew : valueOf (some (savedMember moment existing data userId)) .rolesHistory=
        .roles (sortedRoles (data.rolesHistory.map RoleHistoryEntry.entry)) := rfl
    rw [changeOf,hnew,rolesDiff,hold]
    simp [valueOf,differs]
  rw [LogKey.all,List.flatMap_append,hfields,savedDiff,← hbadges,← hkeys,← hroles]
  simp [List.append_assoc]

lemma commitsLast_save {env : Environment} {save : Save} :
    CommitsLast (save.transaction env existing) := by
  unfold Save.transaction
  cases hcommits : save.commits with
  | true => simpa using commitsLast_applyMemberInput
  | false => exact .bind pending_applyMemberInput fun diff => (commitsLast_commit _ _).bind_pure fun _ => diff

lemma save_ok {env : Environment} {save : Save} {db : Database} {s' : Session Database} {diff : Diff}
    (h : exec (save.transaction env existing) ⟨db,db⟩=(.ok diff,s')) :
    s'.committed=savedDatabase save.moment save.memberId existing save.data save.userId db := by
  obtain ⟨diff',s₁,happly,h⟩ := exec_bind_eq_ok_iff.mp h
  obtain ⟨-,hcurrent,hcommitted⟩ := applyMemberInput_ok happly
  cases hcommits : save.commits with
  | true =>
    simp only [hcommits,Bool.not_true,Bool.false_eq_true,if_false,if_true,exec_pure,
      Prod.mk.injEq] at h hcommitted
    rw [← h.2,hcommitted,hcurrent]
  | false =>
    simp only [hcommits,Bool.not_false,if_true] at h
    obtain ⟨_,s₂,hcommit,h⟩ := exec_bind_eq_ok_iff.mp h
    rw [exec_pure,Prod.mk.injEq] at h
    rw [← h.2,commitSession_ok hcommit,hcurrent]

/-- A save that raises leaves the tables, any other one leaves the saved tables. -/
lemma applySave_cases (env : Environment) (db : Database) (save : Save) :
    applySave env db save=db ∨ applySave env db save=
      savedDatabase save.moment save.memberId (db.members.get? save.memberId) save.data save.userId db := by
  obtain hsame | ⟨diff,s',hexec,hrun⟩ := CommitsLast.run_cases commitsLast_save db
  · exact Or.inl hsame
  · exact Or.inr (hrun.trans (save_ok hexec))

lemma SaveLogged.unchanged (db : Database) (memberId : Uuid) : SaveLogged db db memberId [] where
  log := (List.append_nil _).symm
  own _ he := absurd he List.not_mem_nil
  entry _ h := absurd (.same _) h
  noEntry _ _ := rfl
  others _ _ := rfl

lemma persistChangeLog_filter (diff : Diff) (key : LogKey) :
    (persistChangeLog diff).filter (fun row => row.key=key.name)=
      persistChangeLog (diff.filter fun e => e.1=key) := by
  rw [persistChangeLog,persistChangeLog,List.filter_map,List.filter_filter,List.filter_filter]
  congr 2
  funext e
  simp [LogKey.name_injective.eq_iff,Bool.and_comm]

lemma persistChangeLog_changeOf (old new : Option Member) (key : LogKey) :
    persistChangeLog (changeOf old new key)=if differs (valueOf old key) (valueOf new key) then
      [⟨key.name,serializeLogValue (valueOf old key),serializeLogValue (valueOf new key)⟩] else [] := by
  unfold changeOf
  split_ifs
  · simp [persistChangeLog,key.name_notMem_excluded]
  · rfl

lemma LogKey.nodup_all : LogKey.all.Nodup := by decide +kernel

/-- The texts that a save writes for a key. -/
lemma savedDiff_texts (key : LogKey) :
    (persistChangeLog (savedDiff (existing.getD (newMember moment)) existing data)).filter
        (fun row => row.key=key.name)=
      persistChangeLog (changeOf existing (some (savedMember moment existing data userId)) key) := by
  rw [persistChangeLog_filter,@savedDiff_eq _ _ _ userId,
    filter_flatMap_key LogKey.nodup_all _ key.mem_all]
  intro k e he
  unfold changeOf at he
  split_ifs at he
  · rw [List.mem_singleton.mp he]
  · contradiction

lemma savedDatabase_logged (db : Database) (moment : Moment) (memberId : Uuid)
    (data : MemberSaveRequest) (userId : Uuid) : ∃ entries, SaveLogged db
      (savedDatabase moment memberId (db.members.get? memberId) data userId db) memberId entries := by
  have hself : (savedDatabase moment memberId (db.members.get? memberId) data userId db).members.get?
      memberId=some (savedMember moment (db.members.get? memberId) data userId) :=
    Dict.get?_set_self _ _ _
  refine ⟨_,rfl,?_,?_,?_,?_⟩
  · intro e he
    obtain ⟨change,-,rfl⟩ := List.mem_map.mp he
    rfl
  · intro key h
    rw [hself] at h ⊢
    rw [texts_changeLogOf,@savedDiff_texts _ _ _ userId,persistChangeLog_changeOf,
      if_pos (differs_valueOf_iff.mpr h)]
  · intro key h
    rw [hself] at h
    rw [texts_changeLogOf,@savedDiff_texts _ _ _ userId,persistChangeLog_changeOf,
      if_neg fun hdiffer => differs_valueOf_iff.mp hdiffer h]
  · intro id hid
    exact Dict.get?_set_of_ne _ hid _

lemma applySave_logged (env : Environment) (db : Database) (save : Save) :
    ∃ entries, SaveLogged db (applySave env db save) save.memberId entries := by
  rcases applySave_cases env db save with h | h
  · rw [h]
    exact ⟨[],.unchanged db _⟩
  · rw [h]
    exact savedDatabase_logged db _ _ _ _

end Save

/-! ### Runs of saves -/

/-- A row of another key does not count. -/
lemma replayLog_filter (key : LogKey) (start : Option PyText) (rows : List LogTexts) :
    replayLog key start rows=replayLog key start (rows.filter fun row => row.key=key.name) := by
  rw [replayLog,replayLog,List.foldl_filter]
  congr 1
  funext current row
  by_cases h : row.key=key.name <;> simp [h]

lemma replayLog_append (key : LogKey) (start : Option PyText) (rows rows' : List LogTexts) :
    replayLog key start (rows ++ rows')=replayLog key (replayLog key start rows) rows' :=
  List.foldl_append

/-- One save leads on from a value that is equivalent to the one before it. -/
lemma SaveLogged.replay {db db' : Database} {saved memberId : Uuid} {entries : List MembersLog}
    (h : SaveLogged db db' saved entries) {key : LogKey} {v : LogValue}
    (hv : Equivalent v (valueOf (db.members.get? memberId) key)) :
    ∃ w, replayLog key (serializeLogValue v) (textsOf memberId entries)=serializeLogValue w ∧
      Equivalent w (valueOf (db'.members.get? memberId) key) := by
  by_cases hid : memberId=saved
  · subst hid
    have hall : entries.filter (fun e => e.memberId=memberId)=entries :=
      List.filter_eq_self.mpr fun e he => decide_eq_true (h.own e he)
    rw [textsOf,hall,replayLog_filter]
    by_cases hequiv : Equivalent (valueOf (db.members.get? memberId) key)
        (valueOf (db'.members.get? memberId) key)
    · rw [h.noEntry key hequiv]
      exact ⟨v,rfl,hv.trans hequiv⟩
    · rw [h.entry key hequiv]
      exact ⟨_,by simp [replayLog],.same _⟩
  · have hnone : entries.filter (fun e => e.memberId=memberId)=[] := by
      refine List.filter_eq_nil_iff.mpr fun e he => ?_
      rw [h.own e he,decide_eq_true_eq]
      exact fun heq => hid heq.symm
    rw [textsOf,hnone,h.others memberId hid]
    exact ⟨v,rfl,hv⟩

lemma applySaves_replay (env : Environment) (saves : List Save) (db : Database) (memberId : Uuid)
    (key : LogKey) {v : LogValue} (hv : Equivalent v (valueOf (db.members.get? memberId) key)) :
    ∃ entries w, (applySaves env db saves).membersLog=db.membersLog ++ entries ∧
      replayLog key (serializeLogValue v) (textsOf memberId entries)=serializeLogValue w ∧
      Equivalent w (valueOf ((applySaves env db saves).members.get? memberId) key) := by
  induction saves generalizing db v with
  | nil => exact ⟨[],v,(List.append_nil _).symm,rfl,hv⟩
  | cons save saves ih =>
    obtain ⟨entries,hsave⟩ := applySave_logged env db save
    obtain ⟨w,hw,hequiv⟩ := hsave.replay hv
    obtain ⟨entries',w',hlog,hw',hequiv'⟩ := ih (applySave env db save) hequiv
    refine ⟨entries ++ entries',w',?_,?_,hequiv'⟩
    · change (applySaves env (applySave env db save) saves).membersLog=_
      rw [hlog,hsave.log,List.append_assoc]
    · rw [textsOf,List.filter_append,List.map_append,replayLog_append]
      exact (congrArg (replayLog key · _) hw).trans hw'

theorem changeLogComplete (env : Environment) : ChangeLogComplete env where
  save db save := applySave_logged env db save
  replay db saves memberId key := applySaves_replay env saves db memberId key (.same _)

end VbApi.Members
