import VbApi.Members.Saving

/-! What a save that returns has done, and that one that raises has done nothing. -/
namespace VbApi.Members
open VbApi.Foundations
open VbApi.Standesdb (Uuid)

section Fields
variable {c c' input : Columns} {f g : Field}

@[simp] lemma get_setattr : (c.setattr input f).get g=if g=f then input.get g else c.get g := by
  by_cases h : g=f
  · subst h
    cases g <;> simp [Columns.setattr,Columns.get]
  · cases f with
    | text f =>
      cases g with
      | text g =>
        have hne : g ≠ f := fun heq => h (congrArg Field.text heq)
        simp [Columns.setattr,Columns.get,hne]
      | _ => simp [Columns.setattr,Columns.get]
    | flag f =>
      cases g with
      | flag g =>
        have hne : g ≠ f := fun heq => h (congrArg Field.flag heq)
        simp [Columns.setattr,Columns.get,hne]
      | _ => simp [Columns.setattr,Columns.get]
    | date f =>
      cases g with
      | date g =>
        have hne : g ≠ f := fun heq => h (congrArg Field.date heq)
        simp [Columns.setattr,Columns.get,hne]
      | _ => simp [Columns.setattr,Columns.get]
    | accuracy f =>
      cases g with
      | accuracy g =>
        have hne : g ≠ f := fun heq => h (congrArg Field.accuracy heq)
        simp [Columns.setattr,Columns.get,hne]
      | _ => simp [Columns.setattr,Columns.get]
    | parentId => cases g <;> simp_all [Columns.setattr,Columns.get]
    | zustellungen => cases g <;> simp_all [Columns.setattr,Columns.get]

lemma FieldValue.ofText_injective : Function.Injective FieldValue.ofText := by
  intro a b h
  cases a <;> cases b <;> simp_all [FieldValue.ofText]

lemma FieldValue.ofDate_injective : Function.Injective FieldValue.ofDate := by
  intro a b h
  cases a <;> cases b <;> simp_all [FieldValue.ofDate]

lemma FieldValue.ofInt_injective : Function.Injective FieldValue.ofInt := by
  intro a b h
  cases a <;> cases b <;> simp_all [FieldValue.ofInt]

lemma FieldValue.ofUuid_injective : Function.Injective FieldValue.ofUuid := by
  intro a b h
  cases a <;> cases b <;> simp_all [FieldValue.ofUuid]

lemma MemberDeliveryPreference.value_injective : Function.Injective value := by
  intro a b
  cases a <;> cases b <;> decide

lemma FieldValue.ofDelivery_injective : Function.Injective FieldValue.ofDelivery := by
  intro a b h
  cases a with
  | none => cases b <;> simp_all [FieldValue.ofDelivery]
  | some a =>
    cases b with
    | none => simp [FieldValue.ofDelivery] at h
    | some b =>
      simp only [FieldValue.ofDelivery,FieldValue.text.injEq] at h
      rw [MemberDeliveryPreference.value_injective h]

/-- The values determine the columns. -/
lemma Columns.ext_get (h : ∀ f, c.get f=c'.get f) : c=c' := by
  obtain ⟨text,flag,date,accuracy,parentId,zustellungen⟩ := c
  obtain ⟨text',flag',date',accuracy',parentId',zustellungen'⟩ := c'
  simp only [Columns.mk.injEq]
  refine ⟨?_,?_,?_,?_,?_,?_⟩
  · funext f
    exact FieldValue.ofText_injective (h (.text f))
  · funext f
    exact FieldValue.bool.inj (h (.flag f))
  · funext f
    exact FieldValue.ofDate_injective (h (.date f))
  · funext f
    exact FieldValue.ofInt_injective (h (.accuracy f))
  · exact FieldValue.ofUuid_injective (h .parentId)
  · exact FieldValue.ofDelivery_injective (h .zustellungen)

/-- What is left unset of a new row has the value that the input has. -/
lemma columnsBefore_get (existing : Option Member) (haccuracy : ∀ f, input.accuracy f ≠ none)
    (hzustellungen : input.zustellungen ≠ none) (h : getattr existing f=input.get f) :
    (columnsBefore existing).get f=input.get f := by
  cases existing with
  | some m => exact h
  | none =>
    rw [← h]
    cases f with
    | text f => rfl
    | flag f => cases h
    | date f => rfl
    | accuracy f =>
      cases hn : input.accuracy f with
      | none => exact absurd hn (haccuracy f)
      | some n => simp [getattr,Columns.get,hn,FieldValue.ofInt] at h
    | parentId => rfl
    | zustellungen =>
      cases hp : input.zustellungen with
      | none => exact absurd hp hzustellungen
      | some p => simp [getattr,Columns.get,hp,FieldValue.ofDelivery] at h

@[simp] lemma valuesDiffer_self (v : FieldValue) : valuesDiffer v v=false := if_pos rfl

/-- The fields that a save reports. -/
def fieldDiff (existing : Option Member) (input : Columns) (fs : List Field) : Diff :=
  fs.filterMap fun f =>
    if valuesDiffer (getattr existing f) (input.get f) then
      some (.field f,⟨.value (getattr existing f),.value (input.get f)⟩)
    else none

lemma foldl_saveField (existing : Option Member) (hunset : ∀ f, getattr existing f=input.get f →
    (columnsBefore existing).get f=input.get f) (fs : List Field) (saved : Columns × Diff)
    (hsaved : ∀ f, saved.1.get f=input.get f ∨ saved.1.get f=(columnsBefore existing).get f) :
    (∀ f, (fs.foldl (saveField existing input) saved).1.get f=
      if f ∈ fs then input.get f else saved.1.get f) ∧
    (fs.foldl (saveField existing input) saved).2=saved.2 ++ fieldDiff existing input fs := by
  induction fs generalizing saved with
  | nil => simp [fieldDiff]
  | cons g fs ih =>
    have hstep : (∀ f, (saveField existing input saved g).1.get f=
        if f=g then input.get f else saved.1.get f) ∧
        (saveField existing input saved g).2=saved.2 ++ fieldDiff existing input [g] := by
      by_cases hdiffer : valuesDiffer (getattr existing g) (input.get g)=true
      · simp [saveField,fieldDiff,hdiffer]
      · by_cases hne : getattr existing g=input.get g
        · refine ⟨?_,by simp [saveField,fieldDiff,hne]⟩
          intro f
          by_cases hf : f=g
          · subst hf
            have hget : saved.1.get f=input.get f := by
              obtain h | h := hsaved f
              · exact h
              · rw [h]
                exact hunset f hne
            simp [saveField,hne,hget]
          · simp [saveField,hne,hf]
        · simp [saveField,fieldDiff,hdiffer,hne]
    have hkeep : ∀ f, (saveField existing input saved g).1.get f=input.get f ∨
        (saveField existing input saved g).1.get f=(columnsBefore existing).get f := by
      intro f
      rw [hstep.1]
      split_ifs
      · exact .inl rfl
      · exact hsaved f
    obtain ⟨hget,hdiff⟩ := ih _ hkeep
    rw [List.foldl_cons]
    constructor
    · intro f
      rw [hget,hstep.1]
      by_cases hfs : f ∈ fs
      · simp [hfs]
      · simp [hfs]
    · rw [hdiff,hstep.2,List.append_assoc]
      simp [fieldDiff,List.filterMap_cons]
      split_ifs <;> simp

/-- The loop leaves the input in the record and reports what differs. -/
theorem saveFields_eq (existing : Option Member) (haccuracy : ∀ f, input.accuracy f ≠ none)
    (hzustellungen : input.zustellungen ≠ none) :
    saveFields existing input=(input,fieldDiff existing input Field.all) := by
  obtain ⟨hget,hdiff⟩ := foldl_saveField existing
    (fun f => columnsBefore_get existing haccuracy hzustellungen) Field.all
    (columnsBefore existing,[]) (fun f => .inr rfl)
  apply Prod.ext
  · apply Columns.ext_get
    intro f
    exact (hget f).trans (if_pos (Field.mem_all f))
  · exact hdiff

end Fields

/-- A member's record after a save. -/
def savedMember (moment : Moment) (existing : Option Member) (data : MemberSaveRequest)
    (userId : Uuid) : Member :=
  let input := normalise data.columns
  (((savedRecord moment existing input input userId).withBadges
    (data.badges.map PresentationEntry.row)).withKeys (data.keys.map PresentationEntry.row)).withRoles
    (data.rolesHistory.map RoleHistoryEntry.entry)

/-- What a save of the record reports. -/
def savedDiff (m : Member) (existing : Option Member) (data : MemberSaveRequest) : Diff :=
  fieldDiff existing (normalise data.columns) Field.all ++
    presentationsDiff .badges m.memberBadges data.badges ++
    presentationsDiff .keys m.memberKeys data.keys ++
    rolesDiff m.memberRoles (data.rolesHistory.map RoleHistoryEntry.entry)

/-- The tables after a save. -/
def savedDatabase (moment : Moment) (memberId : Uuid) (existing : Option Member)
    (data : MemberSaveRequest) (userId : Uuid) (db : Database) : Database :=
  let m := existing.getD (newMember moment)
  let events := roleEventsOf memberId m.memberRoles (data.rolesHistory.map RoleHistoryEntry.entry)
    userId
  let action : ChangeLogAction := if existing.isNone then .create else .update
  addChangeLog (changeLogOf memberId (savedDiff m existing data) action userId moment.now)
    (addRoleEvents events (putMember memberId (savedMember moment existing data userId) db))

section
open Stateful Transaction
variable {env : Environment} {moment : Moment} {memberId userId : Uuid} {existing : Option Member}
  {data : MemberSaveRequest} {commits : Bool} {s s' : Session Database} {diff : Diff}

lemma clearDate_accuracy_ne_none {c : Columns} (h : ∀ f, c.accuracy f ≠ none) (applies : Bool)
    (g f : DateField) : (clearDate applies g c).accuracy f ≠ none := by
  cases applies with
  | true => exact h f
  | false =>
    by_cases hf : f=g
    · simp [clearDate,hf]
    · simpa [clearDate,hf] using h f

lemma normalise_accuracy_ne_none (data : MemberSaveRequest) (f : DateField) :
    (normalise data.columns).accuracy f ≠ none := by
  have h : ∀ f, data.columns.accuracy f ≠ none := by
    intro f hnone
    obtain ⟨n,hn,-⟩ := data.accuracy_range f
    rw [hnone] at hn
    cases hn
  exact clearDate_accuracy_ne_none (clearDate_accuracy_ne_none h _ _) _ _ f

lemma normalise_zustellungen_ne_none (data : MemberSaveRequest) :
    (normalise data.columns).zustellungen ≠ none := by
  change (if data.columns.departed then some .deaktiviert else data.columns.zustellungen) ≠ none
  split_ifs
  · simp
  · exact data.zustellungen_given

lemma replaceRows_ok {cleared filled : Member} {u : PUnit}
    (h : exec (replaceRows env memberId cleared filled) s=(.ok u,s')) :
    s'={s with current := putMember memberId filled s.current} := by
  obtain ⟨_,s₁,hwrite,h⟩ := exec_bind_eq_ok_iff.mp h
  obtain ⟨_,s₂,hflush,h⟩ := exec_bind_eq_ok_iff.mp h
  obtain ⟨-,rfl⟩ := exec_flush_eq_ok_iff.mp hflush
  simp only [exec_write,Prod.mk.injEq,true_and] at hwrite h
  subst hwrite h
  simp [putMember]

lemma RolesFit.of_putMember {db : Database} {m : Member} {entries : List RoleEntry} {orgId : PyText}
    (h : RolesFit (putMember memberId m db) entries orgId memberId) :
    RolesFit db entries orgId memberId where
  proper := h.proper
  own := h.own
  others e he id m' hm' hne := h.others e he id m' ((Dict.get?_set_of_ne _ hne _).trans hm') hne

/-- A save up to its commit: the periods fit, and the record and its logs are written. -/
lemma flushMemberInput_ok
    (h : exec (flushMemberInput env moment memberId existing data userId) s=(.ok diff,s')) :
    RolesFit s.current (data.rolesHistory.map RoleHistoryEntry.entry)
      (((normalise data.columns).text .orgId).getD []) memberId ∧
    s'={s with current := savedDatabase moment memberId existing data userId s.current} := by
  simp only [flushMemberInput,saveFields_eq existing (normalise_accuracy_ne_none data)
    (normalise_zustellungen_ne_none data),flushSession] at h
  obtain ⟨_,s₁,hput,h⟩ := exec_bind_eq_ok_iff.mp h
  obtain ⟨_,s₂,hflush,h⟩ := exec_bind_eq_ok_iff.mp h
  obtain ⟨_,s₃,hbadges,h⟩ := exec_bind_eq_ok_iff.mp h
  obtain ⟨_,s₄,hkeys,h⟩ := exec_bind_eq_ok_iff.mp h
  obtain ⟨_,s₅,hvalid,h⟩ := exec_bind_eq_ok_iff.mp h
  obtain ⟨_,s₆,hevents,h⟩ := exec_bind_eq_ok_iff.mp h
  obtain ⟨_,s₇,hroles,h⟩ := exec_bind_eq_ok_iff.mp h
  obtain ⟨_,s₈,hlog,h⟩ := exec_bind_eq_ok_iff.mp h
  simp only [exec_write,exec_pure,Prod.mk.injEq,true_and] at hput hevents hlog h
  obtain ⟨-,rfl⟩ := exec_flush_eq_ok_iff.mp hflush
  obtain rfl := replaceRows_ok hbadges
  obtain rfl := replaceRows_ok hkeys
  rw [exec_check,Prod.mk.injEq] at hvalid
  obtain ⟨hfit,rfl⟩ := hvalid
  subst hput hevents hlog
  obtain rfl := replaceRows_ok hroles
  constructor
  · rw [validateRolesHistory_eq_ok_iff] at hfit
    exact hfit.of_putMember.of_putMember.of_putMember
  · rw [← h.2]
    cases existing <;>
      simp [savedDatabase,savedMember,savedDiff,savedRecord,putMember,addRoleEvents,addChangeLog]

lemma applyMemberInput_ok
    (h : exec (applyMemberInput env moment memberId existing data userId commits) s=(.ok diff,s')) :
    RolesFit s.current (data.rolesHistory.map RoleHistoryEntry.entry)
      (((normalise data.columns).text .orgId).getD []) memberId ∧
    s'.current=savedDatabase moment memberId existing data userId s.current ∧
    s'.committed=if commits then s'.current else s.committed := by
  obtain ⟨diff',s₁,hflush,h⟩ := exec_bind_eq_ok_iff.mp h
  obtain ⟨hfit,rfl⟩ := flushMemberInput_ok hflush
  refine ⟨hfit,?_⟩
  cases commits with
  | false =>
    simp only [Bool.false_eq_true,if_false,exec_pure,Prod.mk.injEq] at h ⊢
    rw [← h.2]
    exact ⟨rfl,rfl⟩
  | true =>
    simp only [if_true,commitSession] at h ⊢
    obtain ⟨_,s₂,hcommit,h⟩ := exec_bind_eq_ok_iff.mp h
    obtain ⟨-,rfl⟩ := exec_commit_eq_ok_iff.mp hcommit
    simp only [exec_pure,Prod.mk.injEq] at h
    rw [← h.2]
    exact ⟨rfl,rfl⟩

lemma pending_replaceRows (cleared filled : Member) :
    Pending (replaceRows env memberId cleared filled) :=
  (pending_write _).bind fun _ => (pending_flush _ _).bind fun _ => pending_write _

lemma pending_flushMemberInput : Pending (flushMemberInput env moment memberId existing data userId) :=
  (pending_write _).bind fun _ => (pending_flush _ _).bind fun _ =>
    (pending_replaceRows _ _).bind fun _ => (pending_replaceRows _ _).bind fun _ =>
    (pending_check _).bind fun _ => (pending_write _).bind fun _ =>
    (pending_replaceRows _ _).bind fun _ => (pending_write _).bind fun _ => pending_pure _

/-- A save that raises has committed nothing. -/
lemma commitsLast_applyMemberInput :
    CommitsLast (applyMemberInput env moment memberId existing data userId commits) := by
  refine CommitsLast.bind pending_flushMemberInput fun diff => ?_
  cases commits with
  | false => exact (pending_pure diff).commitsLast
  | true => exact (commitsLast_commit _ _).bind_pure fun _ => diff

end
end VbApi.Members
