import VbApi.Members.StatusRules

/-! The resolution of a change request writes the approved fields and leaves the rest of the record. -/
namespace VbApi.Members
open VbApi.Foundations Transaction
open VbApi.Standesdb (Uuid Timestamp SelfServiceField Decision FieldDecisions RequestStatus)

/-- A null accuracy read as 0. -/
def Columns.known (c : Columns) : Columns := {c with
  accuracy := fun f => some ((c.accuracy f).getD 0)}

/-- A record that the validators give back as it is, and that follows the status rules. -/
structure ValidRecord (env : Environment) (c : Columns) : Prop where
  clean : ∀ f, cleanText env f (c.text f)=some (c.text f)
  zustellungen_given : c.zustellungen ≠ none
  rules : StatusRules c.known
  not_dead_accuracy : c.flag .verstorben=false → c.known.accuracy .sterbedatum=some 0

/-- The field is one that the decisions approve. -/
def Approved (decisions : FieldDecisions) (f : Field) : Prop :=
  ∃ g, selfServiceColumn g=f ∧ decisions g=some .approved

/-- A member's record before and after a resolution. -/
structure ApprovedOnly (env : Environment) (moment : Moment) (adminId : Uuid)
    (data : ProposedData) (decisions : FieldDecisions) (m m' : Member) : Prop where
  /-- an approved field takes its proposed value; whoever has left or died still gets nothing -/
  approved : ∀ g change, data g=some change → decisions g=some .approved →
    ∃ v, cleanProposed env g change.new=some v ∧ m'.columns.get (selfServiceColumn g)=
      if g=.zustellungen ∧ m.columns.departed then .ofDelivery (some .deaktiviert) else .ofText v
  others : ∀ f, ¬ Approved decisions f → f ≠ .flag .authLocked →
    m'.columns.get f=m.columns.known.get f
  locked : m'.columns.flag .authLocked=(m.columns.flag .authLocked || hasNoEmail m'.columns)
  verified : m'.emailVerifiedAt=
    if m'.columns.text .email=m.columns.text .email then m.emailVerifiedAt else none
  roles : ∀ e, e ∈ m'.memberRoles ↔ e ∈ m.memberRoles
  badges : ∀ p, p ∈ m'.memberBadges ↔ ∃ q ∈ m.memberBadges, q.known=p
  keys : ∀ p, p ∈ m'.memberKeys ↔ ∃ q ∈ m.memberKeys, q.known=p
  password : m'.authPassword=m.authPassword
  other : m'.other=m.other
  stamp : m'.modifiedAt=some moment.now ∧ m'.modifiedBy=some adminId ∧ m'.updatedAt=some moment.now

section Overlay
variable {c : Columns} {data : ProposedData} {decisions : FieldDecisions} {f : Field}

lemma approvedValue_of_not_approved (h : ¬ Approved decisions f) :
    approvedValue data decisions f=none := by
  unfold approvedValue
  cases hg : selfService? f with
  | none => rfl
  | some g =>
    have hcolumn := selfService?_eq_some_iff.mp hg
    have hdecision : decisions g ≠ some .approved := fun hd => h ⟨g,hcolumn,hd⟩
    simp [hdecision]

lemma approvedValue_of_approved {g : SelfServiceField} {change : ProposedChange}
    (hchange : data g=some change) (hdecision : decisions g=some .approved) :
    approvedValue data decisions (selfServiceColumn g)=some change.new := by
  have hg : selfService? (selfServiceColumn g)=some g := selfService?_eq_some_iff.mpr rfl
  simp [approvedValue,hg,hchange,hdecision]

end Overlay

section Merged
variable {env : Environment} {m : Member} {data : ProposedData} {decisions : FieldDecisions}
  {merged : Columns}

/-- The columns that a resolution saves, before they are normalised. -/
def mergedColumns (env : Environment) (m : Member) (data : ProposedData) (decisions : FieldDecisions) :
    Columns :=
  cleanColumns env (overlay (currentFullRequest [] m).columns data decisions)

lemma mergedColumns_text (hvalid : ValidRecord env m.columns) {f : TextField}
    (hf : ¬ Approved decisions (.text f)) :
    (mergedColumns env m data decisions).text f=m.columns.text f := by
  have hvalue : approvedValue data decisions (.text f)=none := approvedValue_of_not_approved hf
  change (cleanText env f ((approvedValue data decisions (.text f)).getD (m.columns.text f))).getD none=_
  rw [hvalue,Option.getD_none,hvalid.clean f,Option.getD_some]

lemma mergedColumns_zustellungen (hvalid : ValidRecord env m.columns)
    (hf : ¬ Approved decisions .zustellungen) :
    (mergedColumns env m data decisions).zustellungen=m.columns.zustellungen := by
  have hvalue : approvedValue data decisions .zustellungen=none := approvedValue_of_not_approved hf
  have hoverlay : (mergedColumns env m data decisions).zustellungen=
      some (m.columns.zustellungen.getD .deaktiviert) := by
    simp only [mergedColumns,cleanColumns,overlay,hvalue,currentFullRequest]
  obtain ⟨p,hp⟩ := Option.ne_none_iff_exists'.mp hvalid.zustellungen_given
  rw [hoverlay,hp,Option.getD_some]

/-- Fields that are not approved go through the save as they are. -/
lemma normalise_mergedColumns_get (hvalid : ValidRecord env m.columns) {f : Field}
    (hf : ¬ Approved decisions f) (hlock : f ≠ .flag .authLocked) :
    (normalise (mergedColumns env m data decisions)).get f=m.columns.known.get f := by
  have hflag : (mergedColumns env m data decisions).flag=m.columns.flag := rfl
  have hdeparted : (mergedColumns env m data decisions).departed=m.columns.departed := rfl
  cases f with
  | text f =>
    change FieldValue.ofText _=FieldValue.ofText (m.columns.text f)
    rw [normalise_text,hflag]
    split_ifs with hgrab
    · obtain ⟨rfl,hverstorben⟩ := hgrab
      rw [(hvalid.rules.not_dead hverstorben).2.symm]
      rfl
    · rw [mergedColumns_text hvalid hf]
  | flag f =>
    change FieldValue.bool _=FieldValue.bool (m.columns.flag f)
    rw [normalise_flag,hflag,hdeparted]
    by_cases hchronicle : f=.chroniclemail
    · subst hchronicle
      cases hd : m.columns.departed with
      | false => simp
      | true =>
        have hrule := hvalid.rules.departed (Columns.departed_iff.mp hd)
        have hoff : m.columns.flag .chroniclemail=false := hrule.2.2
        simp [hoff]
    · rw [if_neg (fun heq => hlock (congrArg Field.flag heq)),if_neg hchronicle]
  | date f =>
    change FieldValue.ofDate _=FieldValue.ofDate (m.columns.date f)
    rw [normalise_date,hflag]
    split_ifs with hclear
    · obtain ⟨rfl,hentlassen⟩ | ⟨rfl,hverstorben⟩ := hclear
      · rw [(hvalid.rules.not_dismissed hentlassen).1.symm]
        rfl
      · rw [(hvalid.rules.not_dead hverstorben).1.symm]
        rfl
    · rfl
  | accuracy f =>
    change FieldValue.ofInt _=FieldValue.ofInt (m.columns.known.accuracy f)
    rw [normalise_accuracy,hflag]
    split_ifs with hclear
    · obtain ⟨rfl,hentlassen⟩ | ⟨rfl,hverstorben⟩ := hclear
      · rw [(hvalid.rules.not_dismissed hentlassen).2]
      · rw [hvalid.not_dead_accuracy hverstorben]
    · rfl
  | parentId => rfl
  | zustellungen =>
    change FieldValue.ofDelivery _=FieldValue.ofDelivery m.columns.zustellungen
    rw [normalise_zustellungen,hdeparted,mergedColumns_zustellungen hvalid hf]
    split_ifs with hd
    · have hrule := hvalid.rules.departed (Columns.departed_iff.mp hd)
      rw [hrule.2.1.symm]
      rfl
    · rfl

/-- An approved field is saved with its proposed value. -/
lemma normalise_mergedColumns_approved {g : SelfServiceField} {change : ProposedChange}
    (hchange : data g=some change) (hdecision : decisions g=some .approved)
    (hclean : ∀ f, ∃ v, cleanText env f
      ((overlay (currentFullRequest [] m).columns data decisions).text f)=some v)
    (hgiven : (mergedColumns env m data decisions).zustellungen ≠ none) :
    ∃ v, cleanProposed env g change.new=some v ∧
      (normalise (mergedColumns env m data decisions)).get (selfServiceColumn g)=
        if g=.zustellungen ∧ m.columns.departed then .ofDelivery (some .deaktiviert) else .ofText v := by
  have hvalue := approvedValue_of_approved hchange hdecision
  by_cases hg : g=.zustellungen
  · subst hg
    have hzustellungen : (mergedColumns env m data decisions).zustellungen=
        change.new.bind deliveryPreference? := by
      change approvedValue data decisions .zustellungen=_ at hvalue
      simp only [mergedColumns,cleanColumns,overlay,hvalue]
    obtain ⟨p,hp⟩ := Option.ne_none_iff_exists'.mp hgiven
    rw [hzustellungen] at hp
    refine ⟨some p.value,?_,?_⟩
    · change (change.new.bind deliveryPreference?).map _=_
      rw [hp,Option.map_some]
    · change FieldValue.ofDelivery _=_
      rw [normalise_zustellungen,hzustellungen,hp]
      change FieldValue.ofDelivery (if m.columns.departed=true then _ else _)=_
      cases m.columns.departed <;> simp [FieldValue.ofDelivery,FieldValue.ofText]
  · obtain ⟨f,hf⟩ : ∃ f, selfServiceColumn g=.text f := by
      cases g <;> first | exact ⟨_,rfl⟩ | exact absurd rfl hg
    have hgrab : f ≠ .grabadresse := by
      rintro rfl
      cases g <;> cases hf
    rw [hf] at hvalue ⊢
    obtain ⟨v,hv⟩ := hclean f
    have hoverlay : (overlay (currentFullRequest [] m).columns data decisions).text f=change.new := by
      change (approvedValue data decisions (.text f)).getD _=_
      rw [hvalue,Option.getD_some]
    refine ⟨v,?_,?_⟩
    · rw [cleanProposed,hf]
      rw [hoverlay] at hv
      exact hv
    · change FieldValue.ofText _=_
      rw [normalise_text,if_neg (fun h => hgrab h.1),if_neg (fun h => hg h.1)]
      change FieldValue.ofText ((cleanText env f _).getD none)=_
      rw [hv,Option.getD_some]

/-- The account is locked when the address becomes empty. -/
lemma normalise_mergedColumns_locked (hvalid : ValidRecord env m.columns) :
    (normalise (mergedColumns env m data decisions)).flag .authLocked=
      (m.columns.flag .authLocked ||
        hasNoEmail (normalise (mergedColumns env m data decisions))) := by
  have hemail : hasNoEmail (normalise (mergedColumns env m data decisions))=
      hasNoEmail (mergedColumns env m data decisions) := by
    rw [hasNoEmail,hasNoEmail,normalise_text,if_neg (fun h => by cases h.1)]
  rw [hemail,normalise_flag,if_pos rfl]
  change (m.columns.departed || _ || m.columns.flag .authLocked)=_
  cases hd : m.columns.departed with
  | false => rw [Bool.false_or,Bool.or_comm]
  | true =>
    have hlocked : m.columns.flag .authLocked=true :=
      (hvalid.rules.departed (Columns.departed_iff.mp hd)).1
    rw [hlocked,Bool.true_or,Bool.true_or]

end Merged

/-- The lists of a record pass through a resolution. -/
lemma rolesHistory_currentFullRequest (roles : List Role) (m : Member) :
    (currentFullRequest roles m).rolesHistory.map RoleHistoryEntry.entry=m.memberRoles := by
  simp [currentFullRequest,RoleHistoryEntry.entry,Function.comp_def]

lemma known_rows (rows : List Presentation) :
    (rows.map fun p => PresentationEntry.mk p.id p.presentationdate
      (p.presentationdateAccuracy.getD 0)).map PresentationEntry.row=rows.map Presentation.known := by
  rw [List.map_map]
  rfl

/-- Nothing is recorded for roles that stay. -/
lemma roleEventsOf_self (memberId userId : Uuid) (rows : List RoleEntry) :
    roleEventsOf memberId rows rows userId=[] := by
  simp [roleEventsOf]

/-- The record that a resolution saves. -/
lemma approvedOnly_savedMember {env : Environment} {moment : Moment} {adminId : Uuid} {m : Member}
    {roles : List Role} {proposed : ProposedData} {decisions : FieldDecisions} {data : MemberSaveRequest}
    (hvalid : ValidRecord env m.columns)
    (hdata : modelValidate env {currentFullRequest roles m with
      columns := overlay (currentFullRequest roles m).columns proposed decisions}=.ok data) :
    ApprovedOnly env moment adminId proposed decisions m (savedMember moment (some m) data adminId) := by
  have hinput := modelValidate_eq_ok hdata
  have hcolumns : data.columns=mergedColumns env m proposed decisions := by
    rw [hinput]
    rfl
  have hroles : data.rolesHistory=(currentFullRequest roles m).rolesHistory := by rw [hinput]
  have hbadges : data.badges=(currentFullRequest roles m).badges := by rw [hinput]
  have hkeys : data.keys=(currentFullRequest roles m).keys := by rw [hinput]
  have hsaved : (savedMember moment (some m) data adminId).columns=
      normalise (mergedColumns env m proposed decisions) := by
    rw [← hcolumns]
    rfl
  have hknown : ∀ (rows : List Presentation) (p : Presentation),
      p ∈ rows.map Presentation.known ↔ ∃ q ∈ rows, q.known=p := fun rows p => List.mem_map
  constructor
  · intro g change hchange hdecision
    rw [hsaved]
    refine normalise_mergedColumns_approved hchange hdecision ?_ ?_
    · exact (invalidFields_eq_nil (invalidFields_of_modelValidate hdata)).1
    · rw [← hcolumns]
      exact data.zustellungen_given
  · intro f hf hlock
    rw [hsaved]
    exact normalise_mergedColumns_get hvalid hf hlock
  · rw [hsaved]
    exact normalise_mergedColumns_locked hvalid
  · rw [hsaved,← hcolumns]
    change (if FieldValue.ofText (m.columns.text .email) ≠
      FieldValue.ofText ((normalise data.columns).text .email) then none else m.emailVerifiedAt)=_
    by_cases hsame : (normalise data.columns).text .email=m.columns.text .email
    · rw [if_pos hsame,hsame,if_neg (not_not.mpr rfl)]
    · rw [if_neg hsame,if_pos fun heq => hsame (FieldValue.ofText_injective heq).symm]
  · intro e
    change e ∈ data.rolesHistory.map RoleHistoryEntry.entry ↔ _
    rw [hroles,rolesHistory_currentFullRequest]
  · intro p
    change p ∈ data.badges.map PresentationEntry.row ↔ _
    rw [hbadges,currentFullRequest,known_rows,hknown]
  · intro p
    change p ∈ data.keys.map PresentationEntry.row ↔ _
    rw [hkeys,currentFullRequest,known_rows,hknown]
  · rfl
  · rfl
  · exact ⟨rfl,rfl,rfl⟩

/-- A resolution that raises changes nothing at all. One that returns writes, of the record, the
approved fields with their proposed values as the validators give them back, the consequences of the
new address and the stamp; and it resolves the request. -/
theorem resolveChangeRequest_frame (env : Environment) (db : Database) (moment : Moment)
    (requestId : Uuid) (request : MemberChangeRequest) (decisions : FieldDecisions)
    (expectedUpdatedAt : Timestamp) (admin : Actor) (m : Member)
    (hm : db.members.get? request.memberId=some m) (hvalid : ValidRecord env m.columns) :
    match run (resolveChangeRequest env moment requestId request decisions expectedUpdatedAt admin) db with
    | (.error _,db') => db'=db
    | (.ok _,db') => ∃ m', db'.members.get? request.memberId=some m' ∧
        ApprovedOnly env moment admin.id request.proposedData decisions m m' ∧
        (∀ id, id ≠ request.memberId → db'.members.get? id=db.members.get? id) ∧
        (∀ id, id ≠ requestId → db'.changeRequests.get? id=db.changeRequests.get? id) ∧
        (∃ r, db'.changeRequests.get? requestId=some r ∧ r.status=.resolved ∧
          r.fieldDecisions=some decisions) ∧
        db'.roleEvents=db.roleEvents := by
  cases hrun : run (resolveChangeRequest env moment requestId request decisions expectedUpdatedAt admin)
      db with
  | mk result db' =>
    cases result with
    | error e => exact commitsLast_resolveChangeRequest.run hrun
    | ok u =>
      obtain ⟨hexec,hdb'⟩ := Prod.mk.inj hrun
      obtain ⟨m₁,data,hm₁,hdata,-,hcommitted⟩ := resolveChangeRequest_ok (Prod.ext hexec rfl)
      obtain rfl := Option.some.inj (hm₁.symm.trans hm)
      have hhistory : data.rolesHistory.map RoleHistoryEntry.entry=m₁.memberRoles := by
        rw [modelValidate_eq_ok hdata]
        exact rolesHistory_currentFullRequest _ m₁
      have hevents : roleEventsOf request.memberId m₁.memberRoles
          (data.rolesHistory.map RoleHistoryEntry.entry) admin.id=[] := by
        rw [hhistory,roleEventsOf_self]
      obtain rfl := hdb'.symm.trans hcommitted
      refine ⟨savedMember moment (some m₁) data admin.id,Dict.get?_set_self _ _ _,
        approvedOnly_savedMember hvalid hdata,?_,?_,⟨_,Dict.get?_set_self _ _ _,rfl,rfl⟩,?_⟩
      · intro id hid
        exact Dict.get?_set_of_ne _ hid _
      · intro id hid
        exact Dict.get?_set_of_ne _ hid _
      · change db.roleEvents ++ roleEventsOf request.memberId m₁.memberRoles
          (data.rolesHistory.map RoleHistoryEntry.entry) admin.id=_
        rw [hevents,List.append_nil]

/-! A request that was still pending when its member was dismissed. -/

def dismissedMember : Member := {newMember ⟨0,.minDate⟩ with
  columns := {Columns.default with
    text := fun f => if f=.orgId then some (text "vbw") else if f=.nachname then some (text "Huber") else none
    flag := fun f => f=.entlassen || f=.authLocked}}

def dismissedMemberRequest : MemberChangeRequest where
  memberId := 1
  status := .pending
  proposedData := fun g =>
    if g=.zustellungen then some ⟨some (text "deaktiviert"),some (text "adresse_privat")⟩
    else if g=.vorname then some ⟨none,some (text "Karl")⟩
    else none
  fieldDecisions := none
  resolvedBy := none
  resolvedAt := none
  updatedAt := 0

def dismissedMemberDatabase : Database :=
  putRequest 2 dismissedMemberRequest (putMember 1 dismissedMember (emptyDatabase [] [] [] [] 3))

def approveBoth : FieldDecisions := fun g =>
  if g=.zustellungen ∨ g=.vorname then some .approved else none

lemma validRecord_dismissedMember : ValidRecord plainEnvironment dismissedMember.columns where
  clean f := by cases f <;> rfl
  zustellungen_given := by decide
  rules := ⟨fun _ => ⟨rfl,rfl,rfl⟩,fun _ => rfl,fun h => (by cases h),fun _ => ⟨rfl,rfl⟩⟩
  not_dead_accuracy _ := rfl

/-- The approved delivery preference of whoever has left is not written. -/
theorem resolveChangeRequest_leaves_deaktiviert :
    ValidRecord plainEnvironment dismissedMember.columns ∧
    ∃ db' m', run (resolveChangeRequest plainEnvironment ⟨5,.minDate⟩ 2 dismissedMemberRequest
        approveBoth 0 ⟨9,dismissedMember⟩) dismissedMemberDatabase=(.ok ⟨⟩,db') ∧
      db'.members.get? 1=some m' ∧ m'.columns.text .vorname=some (text "Karl") ∧
      m'.columns.zustellungen=some .deaktiviert :=
  ⟨validRecord_dismissedMember,_,_,rfl,rfl,rfl,rfl⟩

theorem resolveChangeRequest_frame_dismissed :
    match run (resolveChangeRequest plainEnvironment ⟨5,.minDate⟩ 2 dismissedMemberRequest
        approveBoth 0 ⟨9,dismissedMember⟩) dismissedMemberDatabase with
    | (.error _,db') => db'=dismissedMemberDatabase
    | (.ok _,db') => ∃ m', db'.members.get? 1=some m' ∧
        ApprovedOnly plainEnvironment ⟨5,.minDate⟩ 9 dismissedMemberRequest.proposedData approveBoth
          dismissedMember m' ∧
        (∀ id, id ≠ 1 → db'.members.get? id=dismissedMemberDatabase.members.get? id) ∧
        (∀ id, id ≠ 2 → db'.changeRequests.get? id=dismissedMemberDatabase.changeRequests.get? id) ∧
        (∃ r, db'.changeRequests.get? 2=some r ∧ r.status=.resolved ∧
          r.fieldDecisions=some approveBoth) ∧
        db'.roleEvents=dismissedMemberDatabase.roleEvents :=
  resolveChangeRequest_frame plainEnvironment dismissedMemberDatabase ⟨5,.minDate⟩ 2
    dismissedMemberRequest approveBoth 0 ⟨9,dismissedMember⟩ dismissedMember rfl
    validRecord_dismissedMember

end VbApi.Members
