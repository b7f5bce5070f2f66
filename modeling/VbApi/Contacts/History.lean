import VbApi.Contacts.Records

/-! The history of the contacts: over any run of calls the log of a contact leads to its fields, names
stay apart, and a deleted contact stays as it was. -/
namespace VbApi.Contacts
open VbApi.Foundations Stateful Transaction
open VbApi.Standesdb (Uuid Timestamp)
open VbApi.Members (FieldValue valuesDiffer valuesDiffer_iff fieldValueText Equivalent
  changelogExcludedKeys)

/-! ### The loop over the fields -/

section Fields
variable {c c' data : Columns} {f g : ContactField}

@[simp] lemma get_setattr : (c.setattr data f).get g=if g=f then data.get g else c.get g := by
  by_cases h : g=f
  · subst h
    cases g <;> simp [Columns.setattr,Columns.get]
  · rw [if_neg h]
    cases f with
    | text f =>
      cases g with
      | text g =>
        have hne : g ≠ f := fun heq => h (congrArg ContactField.text heq)
        simp [Columns.setattr,Columns.get,hne]
      | _ => rfl
    | _ => cases g <;> first | rfl | exact absurd rfl h

lemma ContactType.value_injective : Function.Injective ContactType.value := by
  intro a b
  cases a <;> cases b <;> decide

/-- The values determine the columns. -/
lemma Columns.ext_get (h : ∀ f, c.get f=c'.get f) : c=c' := by
  obtain ⟨kontakttyp,texts,zustellungen,datum,datumAccuracy⟩ := c
  obtain ⟨kontakttyp',texts',zustellungen',datum',datumAccuracy'⟩ := c'
  simp only [Columns.mk.injEq]
  refine ⟨?_,?_,?_,?_,?_⟩
  · exact Option.map_injective ContactType.value_injective
      (Members.FieldValue.ofText_injective (h .kontakttyp))
  · funext f
    exact Members.FieldValue.ofText_injective (h (.text f))
  · have hz := h .zustellungen
    cases zustellungen <;> cases zustellungen' <;> simp_all [Columns.get]
  · exact Members.FieldValue.ofDate_injective (h .datum)
  · exact Members.FieldValue.ofInt_injective (h .datumAccuracy)

/-- What a save reports of a field. -/
def changeOf (c data : Columns) (f : ContactField) : Option (ContactField × FieldChange) :=
  if valuesDiffer (c.get f) (data.get f) then some (f,⟨c.get f,data.get f⟩) else none

lemma saveField_get (saved : Columns × Diff) :
    (saveField data saved f).1.get g=if g=f then data.get g else saved.1.get g := by
  by_cases hdiffer : valuesDiffer (saved.1.get f) (data.get f)=true
  · rw [saveField,if_pos hdiffer,get_setattr]
  · rw [saveField,if_neg hdiffer]
    by_cases hne : saved.1.get f=data.get f
    · rw [if_neg (not_not.mpr hne)]
      split_ifs with hg
      · rw [hg,hne]
      · rfl
    · rw [if_pos hne,get_setattr]

lemma saveField_diff (saved : Columns × Diff) :
    (saveField data saved f).2=saved.2 ++ (changeOf saved.1 data f).toList := by
  unfold saveField changeOf
  dsimp only
  split_ifs <;> simp

lemma foldl_saveField (data : Columns) {fs : List ContactField} (hfs : fs.Nodup)
    (saved : Columns × Diff) :
    (∀ g, (fs.foldl (saveField data) saved).1.get g=
      if g ∈ fs then data.get g else saved.1.get g) ∧
    (fs.foldl (saveField data) saved).2=saved.2 ++ fs.filterMap (changeOf saved.1 data) := by
  induction fs generalizing saved with
  | nil => simp
  | cons f fs ih =>
    obtain ⟨hf,hfs⟩ := List.nodup_cons.mp hfs
    obtain ⟨hget,hdiff⟩ := ih hfs (saveField data saved f)
    rw [List.foldl_cons]
    constructor
    · intro g
      rw [hget,saveField_get]
      by_cases hg : g ∈ fs
      · simp [hg]
      · simp [hg]
    · have hrest : fs.filterMap (changeOf (saveField data saved f).1 data)=
          fs.filterMap (changeOf saved.1 data) := by
        apply List.filterMap_congr
        intro g hg
        have hne : g ≠ f := fun heq => hf (heq ▸ hg)
        rw [changeOf,changeOf,saveField_get,if_neg hne]
      rw [hdiff,hrest,saveField_diff,List.append_assoc,List.filterMap_cons]
      cases changeOf saved.1 data f <;> rfl

/-- The loop leaves the input in the record and reports what differs. -/
theorem saveFields_eq (c data : Columns) :
    saveFields c data=(data,ContactField.all.filterMap (changeOf c data)) := by
  have hnodup : ContactField.all.Nodup := by decide
  obtain ⟨hget,hdiff⟩ := foldl_saveField data hnodup (c,[])
  apply Prod.ext
  · apply Columns.ext_get
    intro f
    exact (hget f).trans (if_pos f.mem_all)
  · exact hdiff

end Fields

/-! ### The log of a contact -/

def entriesOf (contactId : Uuid) (log : List ContactsLog) : List ContactsLog :=
  log.filter fun e => e.contactId=contactId

/-- Follow the logged new values of a key. -/
def follow (key : PyText) (start : Option PyText) (rows : List ContactsLog) : Option PyText :=
  rows.foldl (fun current e => if e.key=key then e.new else current) start

lemma follow_append (key : PyText) (start : Option PyText) (rows rows' : List ContactsLog) :
    follow key start (rows ++ rows')=follow key (follow key start rows) rows' :=
  List.foldl_append

lemma ContactField.name_injective : Function.Injective name := by
  have hnames : (all.map name).Nodup := by decide +kernel
  intro a b h
  exact List.inj_on_of_nodup_map hnames a.mem_all b.mem_all h

lemma ContactField.name_notMem_excluded (f : ContactField) : f.name ∉ changelogExcludedKeys := by
  have hall : ∀ g ∈ all, g.name ∉ changelogExcludedKeys := by decide +kernel
  exact hall f f.mem_all

lemma ContactField.name_ne_deleted_at (f : ContactField) :
    f.name ≠ Foundations.text "deleted_at" := by
  have hall : ∀ g ∈ all, g.name ≠ Foundations.text "deleted_at" := by decide +kernel
  exact hall f f.mem_all

/-- The log of a contact leads to its fields, up to the empty values, and ends with its deletion. -/
structure Traced (env : Environment) (contactId : Uuid) (rows : List ContactsLog) (c : Contact) :
    Prop where
  fields : ∀ f, ∃ v, follow f.name none rows=fieldValueText v ∧
    Equivalent (.value v) (.value (c.columns.get f))
  active : c.deletedAt=none → ∀ e ∈ rows, e.action ≠ .delete
  deleted : ∀ t, c.deletedAt=some t → ∃ before userId,
    rows=before ++ [deletionEntry env t contactId userId] ∧ ∀ e ∈ before, e.action ≠ .delete

structure Sound (env : Environment) (db : Tables) : Prop where
  names : uniqueNames env db=true
  used : ∀ id c, db.contacts.get? id=some c → id < db.nextUuid
  logged : ∀ e ∈ db.log, e.contactId < db.nextUuid
  traced : ∀ id c, db.contacts.get? id=some c → Traced env id (entriesOf id db.log) c

section Log
variable {contactId id userId : Uuid} {now : Timestamp} {action : ChangeLogAction}

lemma persistChangeLog_eq (c data : Columns) (fs : List ContactField) :
    persistChangeLog contactId (fs.filterMap (changeOf c data)) action userId now=
      (fs.filterMap (changeOf c data)).map fun e =>
        ⟨contactId,action,e.1.name,fieldValueText e.2.old,fieldValueText e.2.new,userId,now⟩ := by
  rw [persistChangeLog,List.filter_eq_self.mpr]
  intro e _
  exact decide_eq_true e.1.name_notMem_excluded

/-- The entries of a save lead from the field before to the field after. -/
lemma follow_persistChangeLog (c data : Columns) {fs : List ContactField} (hfs : fs.Nodup)
    (f : ContactField) (start : Option PyText) :
    follow f.name start (persistChangeLog contactId (fs.filterMap (changeOf c data)) action userId now)=
      if f ∈ fs ∧ valuesDiffer (c.get f) (data.get f)=true then fieldValueText (data.get f)
      else start := by
  rw [persistChangeLog_eq]
  induction fs generalizing start with
  | nil => simp [follow]
  | cons g fs ih =>
    obtain ⟨hg,hfs⟩ := List.nodup_cons.mp hfs
    rw [List.filterMap_cons]
    by_cases hdiffer : valuesDiffer (c.get g) (data.get g)=true
    · have hchange : changeOf c data g=some (g,⟨c.get g,data.get g⟩) := if_pos hdiffer
      rw [hchange,List.map_cons]
      change follow f.name (if g.name=f.name then fieldValueText (data.get g) else start) _=_
      rw [ih hfs]
      by_cases hgf : g=f
      · subst hgf
        simp [hg,hdiffer]
      · have hname : g.name ≠ f.name := fun h => hgf (ContactField.name_injective h)
        simp [hname,Ne.symm hgf]
    · have hchange : changeOf c data g=none := if_neg hdiffer
      rw [hchange]
      refine (ih hfs start).trans ?_
      by_cases hfg : f=g
      · subst hfg
        simp [hg,hdiffer]
      · simp [hfg]

lemma entriesOf_append_of_ne {log rows : List ContactsLog} (h : ∀ e ∈ rows, e.contactId ≠ id) :
    entriesOf id (log ++ rows)=entriesOf id log := by
  have hnone : entriesOf id rows=[] := by
    rw [entriesOf,List.filter_eq_nil_iff]
    intro e he
    simpa using h e he
  simp only [entriesOf] at hnone ⊢
  rw [List.filter_append,hnone,List.append_nil]

lemma entriesOf_append_of_eq {log rows : List ContactsLog} (h : ∀ e ∈ rows, e.contactId=id) :
    entriesOf id (log ++ rows)=entriesOf id log ++ rows := by
  have hall : entriesOf id rows=rows := by
    rw [entriesOf,List.filter_eq_self]
    intro e he
    simpa using h e he
  simp only [entriesOf] at hall ⊢
  rw [List.filter_append,hall]

lemma mem_persistChangeLog {diff : Diff} {e : ContactsLog}
    (h : e ∈ persistChangeLog contactId diff action userId now) :
    e.contactId=contactId ∧ e.action=action := by
  obtain ⟨⟨f,change⟩,-,rfl⟩ := List.mem_map.mp h
  exact ⟨rfl,rfl⟩

/-- An id that was never used has no entries. -/
lemma Sound.entriesOf_fresh {env : Environment} {db : Tables} (h : Sound env db) :
    entriesOf db.nextUuid db.log=[] := by
  rw [entriesOf,List.filter_eq_nil_iff]
  intro e he
  have hlt := h.logged e he
  simpa using hlt.ne

end Log

/-! ### What a call does -/

/-- The tables after a save. -/
def savedTables (now : Timestamp) (contactId : Uuid) (existing : Option Contact)
    (data : ContactSaveRequest) (userId : Uuid) (db : Tables) : Tables :=
  let diff := ContactField.all.filterMap
    (changeOf (existing.getD (newContact now)).columns data.columns)
  addLog (persistChangeLog contactId diff (if existing.isNone then .create else .update) userId now)
    (putContact contactId (savedContact now existing data.columns userId) db)

/-- Nobody else has the name. -/
def NameFree (env : Environment) (db : Tables) (name : PyText) (contactId : Uuid) : Prop :=
  ∀ id c, db.contacts.get? id=some c → nameKey env c=some (env.lower name) → id=contactId

inductive Effect (env : Environment) (db : Tables) : Option ContactError × Tables → Prop
  /-- a refusal, though never by the index on the names -/
  | refused {e : ContactError} (h : e ≠ .nameIndex) : Effect env db (some e,db)
  | created (now : Timestamp) (data : ContactSaveRequest) (userId : Uuid)
      (free : NameFree env db data.name db.nextUuid) :
      Effect env db (none,savedTables now db.nextUuid none data userId
        {db with nextUuid := db.nextUuid+1})
  | updated (now : Timestamp) {contactId : Uuid} {c : Contact} (data : ContactSaveRequest)
      (userId : Uuid) (found : db.contacts.get? contactId=some c) (active : c.deletedAt=none)
      (free : NameFree env db data.name contactId) :
      Effect env db (none,savedTables now contactId (some c) data userId db)
  | deleted (now : Timestamp) {contactId : Uuid} {c : Contact} (userId : Uuid)
      (found : db.contacts.get? contactId=some c) (active : c.deletedAt=none) :
      Effect env db (none,addLog [deletionEntry env now contactId userId]
        (putContact contactId (softDelete now c userId) db))

section Calls
variable {env : Environment} {now : Timestamp} {contactId userId : Uuid} {db : Tables}
  {s : Session Tables}

lemma nameKey_savedContact (existing : Option Contact) (data : ContactSaveRequest)
    (hactive : ∀ c, existing=some c → c.deletedAt=none) :
    nameKey env (savedContact now existing data.columns userId)=some (env.lower data.name) := by
  have hdeleted : (savedContact now existing data.columns userId).deletedAt=none := by
    cases existing with
    | none => rfl
    | some c => exact hactive c rfl
  rw [nameKey,hdeleted]
  change (data.text .name).map env.lower=_
  rw [data.name_given.1]
  rfl

/-- A save with a free name keeps the names apart. -/
lemma uniqueNames_put (db : Tables) (now : Timestamp) (userId : Uuid) (existing : Option Contact)
    {data : ContactSaveRequest}
    (hunique : uniqueNames env db=true) (hfree : NameFree env db data.name contactId)
    (hactive : ∀ c, existing=some c → c.deletedAt=none) :
    uniqueNames env (putContact contactId (savedContact now existing data.columns userId) db)=true := by
  apply Dict.uniqueOn_set hunique
  intro x hx id c hc hcx
  rw [nameKey_savedContact existing data hactive] at hx
  exact hfree id c hc (hcx.trans hx.symm)

/-- With unique names a session is only ever refused by another constraint. -/
lemma exec_flushSession (h : uniqueNames env s.current=true) :
    exec (flushSession env) s=(if env.accepts s.current then .ok ⟨⟩ else .error .integrity,s) := by
  rw [flushSession,exec_bind,exec_flush,h]
  exact exec_flush _ _ _

lemma exec_commitSession (h : uniqueNames env s.current=true) :
    exec (commitSession env) s=
      if env.accepts s.current then (.ok ⟨⟩,{s with committed := s.current})
      else (.error .integrity,s) := by
  rw [commitSession,exec_bind,exec_flush,h]
  change exec (commit env.accepts ContactError.integrity) s=_
  rw [commit,exec_bind,exec_flush]
  cases env.accepts s.current <;> rfl

/-- A save commits as a whole, or raises and has committed nothing. -/
lemma exec_applyContactInput (existing : Option Contact) (data : ContactSaveRequest)
    (hunique : uniqueNames env
      (putContact contactId (savedContact now existing data.columns userId) s.current)=true) :
    exec (applyContactInput env now contactId existing data userId) s=
      let put := putContact contactId (savedContact now existing data.columns userId) s.current
      let saved := savedTables now contactId existing data userId s.current
      if env.accepts put=true then
        if env.accepts saved=true then
          (.ok (ContactField.all.filterMap
            (changeOf (existing.getD (newContact now)).columns data.columns)),⟨saved,saved⟩)
        else (.error .integrity,⟨s.committed,saved⟩)
      else (.error .integrity,⟨s.committed,put⟩) := by
  simp only [applyContactInput,saveFields_eq,exec_write_bind]
  rw [exec_bind,exec_flushSession hunique]
  by_cases hflush : env.accepts
      (putContact contactId (savedContact now existing data.columns userId) s.current)=true
  · simp only [hflush,if_true,exec_write_bind]
    rw [exec_bind,exec_commitSession hunique]
    cases hcommit : env.accepts (savedTables now contactId existing data userId s.current) with
    | true =>
      dsimp only [savedTables] at hcommit ⊢
      rw [hcommit]
      rfl
    | false =>
      dsimp only [savedTables] at hcommit ⊢
      rw [hcommit]
      rfl
  · simp only [hflush]
    rfl

lemma modelValidate_ne_nameIndex {body : ContactInput} : modelValidate env body ≠ .error .nameIndex := by
  unfold modelValidate
  dsimp only
  split
  · simp
  · split_ifs <;> simp

lemma validateContactUniqueness_ok {name : PyText} {excludeId : Option Uuid} {u : Unit}
    (h : validateContactUniqueness env db name excludeId=.ok u) :
    ∀ id c, db.contacts.get? id=some c → nameKey env c=some (env.lower name) → excludeId=some id := by
  intro id c hc hname
  have hnone := guardError_eq_ok_iff.mp h
  rw [Dict.find?,List.find?_eq_none] at hnone
  have hentry := hnone (id,c) ((Dict.get?_eq_some_iff _ _ _).mp hc)
  simpa [hname] using hentry

lemma validateContactUniqueness_error {name : PyText} {excludeId : Option Uuid} {e : ContactError}
    (h : validateContactUniqueness env db name excludeId=.error e) : e ≠ .nameIndex := by
  unfold validateContactUniqueness guardError at h
  dsimp only at h
  split_ifs at h
  cases h
  simp

lemma getContactOr404_ok {c : Contact} (h : getContactOr404 db contactId=.ok c) :
    db.contacts.get? contactId=some c ∧ c.deletedAt=none := by
  unfold getContactOr404 at h
  split at h
  · rename_i c' hc'
    split_ifs at h with hdeleted
    cases h
    exact ⟨hc',by simpa using hdeleted⟩
  · cases h

lemma getContactOr404_error {e : ContactError} (h : getContactOr404 db contactId=.error e) :
    e ≠ .nameIndex := by
  unfold getContactOr404 at h
  split at h
  · split_ifs at h
    cases h
    simp
  · cases h
    simp

lemma answer_of_ok {α : Type} {x : Saving α} {a : α} {s' : Session Tables}
    (h : exec x ⟨db,db⟩=(.ok a,s')) : runCall.answer (run x db)=(none,s'.committed) := by
  rw [run,h]
  rfl

lemma answer_of_error {α : Type} {x : Saving α} {e : ContactError} {s' : Session Tables}
    (h : exec x ⟨db,db⟩=(.error e,s')) : runCall.answer (run x db)=(some e,s'.committed) := by
  rw [run,h]
  rfl

lemma createContact_effect (hunique : uniqueNames env db=true) (body : ContactInput) :
    Effect env db (runCall.answer (run (createContact env now body userId) db)) := by
  cases hdata : modelValidate env body with
  | error e =>
    have hexec : exec (createContact env now body userId) ⟨db,db⟩=(.error e,⟨db,db⟩) := by
      rw [createContact,exec_bind,exec_check,hdata]
    rw [answer_of_error hexec]
    exact .refused fun heq => modelValidate_ne_nameIndex (heq ▸ hdata)
  | ok data =>
    cases hname : validateContactUniqueness env db data.name none with
    | error e =>
      have hexec : exec (createContact env now body userId) ⟨db,db⟩=(.error e,⟨db,db⟩) := by
        rw [createContact,exec_bind,exec_check,hdata]
        dsimp only
        rw [exec_bind,exec_check,hname]
      rw [answer_of_error hexec]
      exact .refused (validateContactUniqueness_error hname)
    | ok u =>
      have hfree : NameFree env db data.name db.nextUuid := by
        intro id c hc hkey
        cases validateContactUniqueness_ok hname id c hc hkey
      let fresh : Tables := {db with nextUuid := db.nextUuid+1}
      have hput := uniqueNames_put fresh now userId none hunique hfree fun c hc => by cases hc
      have hexec : exec (createContact env now body userId) ⟨db,db⟩=
          match exec (applyContactInput env now db.nextUuid none data userId) ⟨db,fresh⟩ with
          | (.ok _,s) => (.ok db.nextUuid,s)
          | (.error e,s) => (.error e,s) := by
        have hid : exec newId (⟨db,db⟩ : Session Tables)=(.ok db.nextUuid,⟨db,fresh⟩) := rfl
        rw [createContact,exec_bind,exec_check,hdata]
        dsimp only
        rw [exec_bind,exec_check,hname]
        dsimp only
        rw [exec_bind,hid]
        dsimp only
        rw [exec_bind]
        cases exec (applyContactInput env now db.nextUuid none data userId) ⟨db,fresh⟩ with
        | mk r s => cases r <;> rfl
      rw [exec_applyContactInput none data hput] at hexec
      dsimp only at hexec
      split_ifs at hexec
      · rw [answer_of_ok hexec]
        exact .created now data userId hfree
      · rw [answer_of_error hexec]
        exact .refused (by simp)
      · rw [answer_of_error hexec]
        exact .refused (by simp)

lemma updateContact_effect (hunique : uniqueNames env db=true) (body : ContactInput) :
    Effect env db (runCall.answer (run (updateContact env now contactId body userId) db)) := by
  cases hdata : modelValidate env body with
  | error e =>
    have hexec : exec (updateContact env now contactId body userId) ⟨db,db⟩=(.error e,⟨db,db⟩) := by
      rw [updateContact,exec_bind,exec_check,hdata]
    rw [answer_of_error hexec]
    exact .refused fun heq => modelValidate_ne_nameIndex (heq ▸ hdata)
  | ok data =>
    cases hc : getContactOr404 db contactId with
    | error e =>
      have hexec : exec (updateContact env now contactId body userId) ⟨db,db⟩=
          (.error e,⟨db,db⟩) := by
        rw [updateContact,exec_bind,exec_check,hdata]
        dsimp only
        rw [exec_bind,exec_check,hc]
      rw [answer_of_error hexec]
      exact .refused (getContactOr404_error hc)
    | ok c =>
      cases hname : validateContactUniqueness env db data.name (some contactId) with
      | error e =>
        have hexec : exec (updateContact env now contactId body userId) ⟨db,db⟩=
            (.error e,⟨db,db⟩) := by
          rw [updateContact,exec_bind,exec_check,hdata]
          dsimp only
          rw [exec_bind,exec_check,hc]
          dsimp only
          rw [exec_bind,exec_check,hname]
        rw [answer_of_error hexec]
        exact .refused (validateContactUniqueness_error hname)
      | ok u =>
        obtain ⟨hfound,hactive⟩ := getContactOr404_ok hc
        have hfree : NameFree env db data.name contactId := by
          intro id c' hc' hkey
          exact (Option.some.inj (validateContactUniqueness_ok hname id c' hc' hkey)).symm
        have hput := uniqueNames_put db now userId (some c) hunique hfree
          fun c' hc' => Option.some.inj hc' ▸ hactive
        have hexec : exec (updateContact env now contactId body userId) ⟨db,db⟩=
            exec (applyContactInput env now contactId (some c) data userId) ⟨db,db⟩ := by
          rw [updateContact,exec_bind,exec_check,hdata]
          dsimp only
          rw [exec_bind,exec_check,hc]
          dsimp only
          rw [exec_bind,exec_check,hname]
        rw [exec_applyContactInput (some c) data hput] at hexec
        dsimp only at hexec
        split_ifs at hexec
        · rw [answer_of_ok hexec]
          exact .updated now data userId hfound hactive hfree
        · rw [answer_of_error hexec]
          exact .refused (by simp)
        · rw [answer_of_error hexec]
          exact .refused (by simp)

lemma deleteContact_effect (hunique : uniqueNames env db=true) :
    Effect env db (runCall.answer (run (deleteContact env now contactId userId) db)) := by
  cases hc : getContactOr404 db contactId with
  | error e =>
    have hexec : exec (deleteContact env now contactId userId) ⟨db,db⟩=(.error e,⟨db,db⟩) := by
      rw [deleteContact,exec_bind,exec_check,hc]
    rw [answer_of_error hexec]
    exact .refused (getContactOr404_error hc)
  | ok c =>
    obtain ⟨hfound,hactive⟩ := getContactOr404_ok hc
    let after := addLog [deletionEntry env now contactId userId]
      (putContact contactId (softDelete now c userId) db)
    have hput : uniqueNames env after=true := Dict.uniqueOn_set_of_none hunique rfl
    have hexec : exec (deleteContact env now contactId userId) ⟨db,db⟩=
        exec (commitSession env) ⟨db,after⟩ := by
      rw [deleteContact,exec_bind,exec_check,hc]
      rfl
    rw [exec_commitSession hput] at hexec
    split_ifs at hexec
    · rw [answer_of_ok hexec]
      exact .deleted now userId hfound hactive
    · rw [answer_of_error hexec]
      exact .refused (by simp)

/-- Every call has one of the effects. -/
theorem runCall_effect (hunique : uniqueNames env db=true) (call : Call) :
    Effect env db (runCall env db call) := by
  cases call with
  | create now body userId => exact createContact_effect hunique body
  | update now contactId body userId => exact updateContact_effect hunique body
  | delete now contactId userId => exact deleteContact_effect hunique

end Calls

/-! ### One call -/

section Steps
variable {env : Environment} {db : Tables} {r : Option ContactError × Tables}

/-- A save carries the trace of a contact on. -/
lemma Traced.save {now : Timestamp} {contactId userId : Uuid} (existing : Option Contact)
    (rows : List ContactsLog) {data : ContactSaveRequest} (action : ChangeLogAction)
    (hfields : ∀ f, ∃ v, follow f.name none rows=fieldValueText v ∧
      Equivalent (.value v) (.value ((existing.getD (newContact now)).columns.get f)))
    (hactive : ∀ e ∈ rows, e.action ≠ .delete) (haction : action ≠ .delete)
    (hexisting : ∀ c, existing=some c → c.deletedAt=none) :
    Traced env contactId (rows ++ persistChangeLog contactId (ContactField.all.filterMap
      (changeOf (existing.getD (newContact now)).columns data.columns)) action userId now)
      (savedContact now existing data.columns userId) where
  fields f := by
    obtain ⟨v,hv,hequiv⟩ := hfields f
    rw [follow_append,follow_persistChangeLog _ _ (by decide),hv]
    change ∃ w, _ ∧ Equivalent (.value w) (.value (data.columns.get f))
    by_cases hdiffer : valuesDiffer ((existing.getD (newContact now)).columns.get f)
        (data.columns.get f)=true
    · exact ⟨data.columns.get f,if_pos ⟨f.mem_all,hdiffer⟩,.same _⟩
    · refine ⟨v,if_neg fun h => hdiffer h.2,hequiv.trans ?_⟩
      exact not_not.mp (mt valuesDiffer_iff.mpr hdiffer)
  active _ e he := by
    obtain he | he := List.mem_append.mp he
    · exact hactive e he
    · rw [(mem_persistChangeLog he).2]
      exact haction
  deleted t ht := by
    have hnone : (savedContact now existing data.columns userId).deletedAt=none := by
      cases existing with
      | none => rfl
      | some c => exact hexisting c rfl
    rw [hnone] at ht
    cases ht

/-- A contact that a call does not write keeps its trace. -/
lemma Traced.of_entries {id : Uuid} {c : Contact} {rows rows' : List ContactsLog}
    (h : Traced env id rows c) (heq : rows'=rows) : Traced env id rows' c := heq ▸ h

lemma savedTables_log_ne {now : Timestamp} {contactId userId : Uuid} {existing : Option Contact}
    {data : ContactSaveRequest} {id : Uuid} (hid : id ≠ contactId) :
    entriesOf id (savedTables now contactId existing data userId db).log=entriesOf id db.log := by
  apply entriesOf_append_of_ne
  intro e he
  rw [(mem_persistChangeLog he).1]
  exact Ne.symm hid

lemma Sound.created (h : Sound env db) (now : Timestamp) (data : ContactSaveRequest) (userId : Uuid)
    (hfree : NameFree env db data.name db.nextUuid) :
    Sound env (savedTables now db.nextUuid none data userId {db with nextUuid := db.nextUuid+1}) where
  names := uniqueNames_put {db with nextUuid := db.nextUuid+1} now userId none
    h.names hfree fun c hc => by cases hc
  used id c hc := by
    change (db.contacts.set _ _).get? id=some c at hc
    rw [Dict.get?_set] at hc
    split_ifs at hc with hid
    · exact hid ▸ Nat.lt_succ_self _
    · exact Nat.lt_succ_of_lt (h.used id c hc)
  logged e he := by
    obtain he | he := List.mem_append.mp he
    · exact Nat.lt_succ_of_lt (h.logged e he)
    · exact (mem_persistChangeLog he).1 ▸ Nat.lt_succ_self _
  traced id c hc := by
    change (db.contacts.set _ _).get? id=some c at hc
    rw [Dict.get?_set] at hc
    split_ifs at hc with hid
    · cases hc
      subst hid
      refine (Traced.save none [] .create ?_ ?_ ?_ ?_).of_entries ?_
      · intro f
        refine ⟨.none,rfl,?_⟩
        cases f <;> exact .same _
      · simp
      · simp
      · intro c hc
        cases hc
      · refine (entriesOf_append_of_eq fun e he => (mem_persistChangeLog he).1).trans ?_
        change entriesOf db.nextUuid db.log ++ _=_
        rw [h.entriesOf_fresh]
        rfl
    · exact (h.traced id c hc).of_entries (savedTables_log_ne hid)

lemma Sound.updated (h : Sound env db) (now : Timestamp) {contactId : Uuid} {c : Contact}
    (data : ContactSaveRequest) (userId : Uuid) (hfound : db.contacts.get? contactId=some c)
    (hactive : c.deletedAt=none) (hfree : NameFree env db data.name contactId) :
    Sound env (savedTables now contactId (some c) data userId db) where
  names := uniqueNames_put db now userId (some c) h.names hfree
    fun c' hc' => Option.some.inj hc' ▸ hactive
  used id c' hc' := by
    change (db.contacts.set _ _).get? id=some c' at hc'
    rw [Dict.get?_set] at hc'
    split_ifs at hc' with hid
    · rw [hid]
      exact h.used contactId c hfound
    · exact h.used id c' hc'
  logged e he := by
    obtain he | he := List.mem_append.mp he
    · exact h.logged e he
    · rw [(mem_persistChangeLog he).1]
      exact h.used contactId c hfound
  traced id c' hc' := by
    change (db.contacts.set _ _).get? id=some c' at hc'
    rw [Dict.get?_set] at hc'
    split_ifs at hc' with hid
    · cases hc'
      subst hid
      have htraced := h.traced id c hfound
      refine (Traced.save (some c) _ .update htraced.fields (htraced.active hactive) (by simp)
        ?_).of_entries ?_
      · intro c' hc'
        exact Option.some.inj hc' ▸ hactive
      · exact entriesOf_append_of_eq fun e he => (mem_persistChangeLog he).1
    · exact (h.traced id c' hc').of_entries (savedTables_log_ne hid)

lemma Sound.deleted (h : Sound env db) (now : Timestamp) {contactId : Uuid} {c : Contact}
    (userId : Uuid) (hfound : db.contacts.get? contactId=some c) (hactive : c.deletedAt=none) :
    Sound env (addLog [deletionEntry env now contactId userId]
      (putContact contactId (softDelete now c userId) db)) where
  names := Dict.uniqueOn_set_of_none h.names rfl
  used id c' hc' := by
    change (db.contacts.set _ _).get? id=some c' at hc'
    rw [Dict.get?_set] at hc'
    split_ifs at hc' with hid
    · rw [hid]
      exact h.used contactId c hfound
    · exact h.used id c' hc'
  logged e he := by
    obtain he | he := List.mem_append.mp he
    · exact h.logged e he
    · rw [List.mem_singleton.mp he]
      exact h.used _ c hfound
  traced id c' hc' := by
    change (db.contacts.set _ _).get? id=some c' at hc'
    rw [Dict.get?_set] at hc'
    have hown : ∀ e ∈ [deletionEntry env now contactId userId], e.contactId=contactId := by
      intro e he
      rw [List.mem_singleton.mp he]
      rfl
    split_ifs at hc' with hid
    · cases hc'
      subst hid
      have htraced := h.traced id c hfound
      refine Traced.of_entries ?_ (entriesOf_append_of_eq hown)
      constructor
      · intro f
        obtain ⟨v,hv,hequiv⟩ := htraced.fields f
        refine ⟨v,?_,hequiv⟩
        change follow f.name none (entriesOf id db.log ++ _)=_
        rw [follow_append,hv]
        exact if_neg (Ne.symm f.name_ne_deleted_at)
      · intro hnone
        cases hnone
      · intro t ht
        cases ht
        exact ⟨_,userId,rfl,htraced.active hactive⟩
    · refine (h.traced id c' hc').of_entries (entriesOf_append_of_ne ?_)
      intro e he
      rw [hown e he]
      exact Ne.symm hid

lemma Sound.effect (h : Sound env db) (heffect : Effect env db r) : Sound env r.2 := by
  cases heffect with
  | refused _ => exact h
  | created now data userId free => exact h.created now data userId free
  | updated now data userId found active free => exact h.updated now data userId found active free
  | deleted now userId found active => exact h.deleted now userId found active

/-- A deleted contact stays as it was, with its log. -/
lemma Effect.deleted_kept (h : Effect env db r) (hdb : Sound env db) {id : Uuid} {c : Contact}
    (hc : db.contacts.get? id=some c) (hdeleted : c.deletedAt.isSome) :
    r.2.contacts.get? id=some c ∧ entriesOf id r.2.log=entriesOf id db.log := by
  have hne : ∀ {contactId : Uuid} {c' : Contact}, db.contacts.get? contactId=some c' →
      c'.deletedAt=none → id ≠ contactId := by
    intro contactId c' hc' hactive heq
    subst heq
    rw [Option.some.inj (hc.symm.trans hc'),hactive] at hdeleted
    cases hdeleted
  cases h with
  | refused _ => exact ⟨hc,rfl⟩
  | created now data userId free =>
    have hid : id ≠ db.nextUuid := (hdb.used id c hc).ne
    exact ⟨(Dict.get?_set_of_ne _ hid _).trans hc,savedTables_log_ne hid⟩
  | updated now data userId found active free =>
    have hid := hne found active
    exact ⟨(Dict.get?_set_of_ne _ hid _).trans hc,savedTables_log_ne hid⟩
  | deleted now userId found active =>
    have hid := hne found active
    refine ⟨(Dict.get?_set_of_ne _ hid _).trans hc,entriesOf_append_of_ne ?_⟩
    intro e he
    rw [List.mem_singleton.mp he]
    exact Ne.symm hid

end Steps

/-! ### Runs -/

lemma sound_runCalls {env : Environment} {db : Tables} (h : Sound env db) (calls : List Call) :
    Sound env (runCalls env db calls) := by
  induction calls generalizing db with
  | nil => exact h
  | cons call calls ih => exact ih (h.effect (runCall_effect h.names call))

lemma runCalls_deleted_kept {env : Environment} {db : Tables} (h : Sound env db) {id : Uuid}
    {c : Contact} (hc : db.contacts.get? id=some c) (hdeleted : c.deletedAt.isSome)
    (calls : List Call) :
    (runCalls env db calls).contacts.get? id=some c ∧
      entriesOf id (runCalls env db calls).log=entriesOf id db.log := by
  induction calls generalizing db with
  | nil => exact ⟨hc,rfl⟩
  | cons call calls ih =>
    have heffect := runCall_effect h.names call
    obtain ⟨hc',hlog⟩ := heffect.deleted_kept h hc hdeleted
    obtain ⟨hc'',hlog'⟩ := ih (h.effect heffect) hc'
    exact ⟨hc'',hlog'.trans hlog⟩

/-- After any run of calls the active names differ, and the log of every contact leads to its fields
and ends with its deletion. No call is stopped by the index on the names, and what follows leaves a
deleted contact and its log alone. -/
theorem contact_histories (env : Environment) (nextUuid : Uuid) (calls : List Call) :
    let db := runCalls env (emptyTables nextUuid) calls
    Sound env db ∧ (∀ call, (runCall env db call).1 ≠ some .nameIndex) ∧
    ∀ id c, db.contacts.get? id=some c → c.deletedAt.isSome → ∀ later,
      (runCalls env db later).contacts.get? id=some c ∧
        entriesOf id (runCalls env db later).log=entriesOf id db.log := by
  intro db
  have hempty : Sound env (emptyTables nextUuid) := by
    constructor
    · rfl
    · intro id c hc
      cases hc
    · intro e he
      cases he
    · intro id c hc
      cases hc
  have hdb : Sound env db := sound_runCalls hempty calls
  refine ⟨hdb,?_,?_⟩
  · intro call hcall
    have heffect := runCall_effect hdb.names call
    generalize runCall env db call=r at hcall heffect
    cases heffect with
    | refused hne => exact hne (Option.some.inj hcall)
    | created => cases hcall
    | updated => cases hcall
    | deleted => cases hcall
  · intro id c hc hdeleted later
    exact runCalls_deleted_kept hdb hc hdeleted later

end VbApi.Contacts
