import VbApi.Members.Calls

/-! The rules that tie a member's account to the status: every save restores them, and no other call
breaks them. -/
namespace VbApi.Members
open VbApi.Foundations
open VbApi.Standesdb (Uuid)

lemma Columns.departed_iff {c : Columns} :
    c.departed=true ↔ c.flag .entlassen=true ∨ c.flag .verstorben=true := by
  simp [departed]

structure StatusRules (c : Columns) : Prop where
  departed : c.flag .entlassen=true ∨ c.flag .verstorben=true →
    c.flag .authLocked=true ∧ c.zustellungen=some .deaktiviert ∧ c.flag .chroniclemail=false
  without_email : hasNoEmail c=true → c.flag .authLocked=true
  not_dismissed : c.flag .entlassen=false →
    c.date .entlassungsdatum=none ∧ c.accuracy .entlassungsdatum=some 0
  not_dead : c.flag .verstorben=false → c.date .sterbedatum=none ∧ c.text .grabadresse=none

/-- Every member's record follows the rules. -/
def FollowStatusRules (db : Database) : Prop :=
  ∀ id m, db.members.get? id=some m → StatusRules m.columns

section Normalise
variable (c : Columns)

@[simp] lemma setFlagIf_apply (condition : Bool) (f g : FlagField) (value : Bool)
    (flag : FlagField → Bool) :
    setFlagIf condition f value flag g=if condition ∧ g=f then value else flag g := by
  cases condition <;> simp [setFlagIf,Function.update_apply]

@[simp] lemma normalise_text (f : TextField) :
    (normalise c).text f=if f=.grabadresse ∧ c.flag .verstorben=false then none else c.text f := by
  simp only [normalise,clearDeath,clearDismissal,clearDate,lockWithoutEmail,lockDeparted,
    setFlagIf_apply]
  cases c.flag .verstorben <;> simp [Function.update_apply]

@[simp] lemma normalise_flag (f : FlagField) :
    (normalise c).flag f=
      if f=.authLocked then c.departed || hasNoEmail c || c.flag .authLocked
      else if f=.chroniclemail then c.flag .chroniclemail && !c.departed
      else c.flag f := by
  have hemail : hasNoEmail (lockDeparted c)=hasNoEmail c := rfl
  simp only [normalise,clearDeath,clearDismissal,clearDate,lockWithoutEmail,hemail]
  simp only [lockDeparted,setFlagIf_apply]
  cases f <;> cases c.departed <;> cases hasNoEmail c <;> simp

@[simp] lemma normalise_date (f : DateField) :
    (normalise c).date f=
      if (f=.entlassungsdatum ∧ c.flag .entlassen=false) ∨ (f=.sterbedatum ∧ c.flag .verstorben=false)
      then none else c.date f := by
  simp only [normalise,clearDeath,clearDismissal,clearDate,lockWithoutEmail,lockDeparted,
    setFlagIf_apply]
  cases c.flag .entlassen <;> cases c.flag .verstorben <;> cases f <;> simp

@[simp] lemma normalise_accuracy (f : DateField) :
    (normalise c).accuracy f=
      if (f=.entlassungsdatum ∧ c.flag .entlassen=false) ∨ (f=.sterbedatum ∧ c.flag .verstorben=false)
      then some 0 else c.accuracy f := by
  simp only [normalise,clearDeath,clearDismissal,clearDate,lockWithoutEmail,lockDeparted,
    setFlagIf_apply]
  cases c.flag .entlassen <;> cases c.flag .verstorben <;> cases f <;> simp

@[simp] lemma normalise_parentId : (normalise c).parentId=c.parentId := rfl

@[simp] lemma normalise_zustellungen :
    (normalise c).zustellungen=if c.departed then some .deaktiviert else c.zustellungen := rfl

/-- A normalised input follows the rules. -/
theorem statusRules_normalise : StatusRules (normalise c) where
  departed h := by
    have hdeparted : c.departed=true := Columns.departed_iff.mpr (by simpa using h)
    simp [hdeparted]
  without_email h := by
    have hemail : hasNoEmail c=true := by simpa [hasNoEmail] using h
    simp [hemail]
  not_dismissed h := by
    have hentlassen : c.flag .entlassen=false := by simpa using h
    simp [hentlassen]
  not_dead h := by
    have hverstorben : c.flag .verstorben=false := by simpa using h
    simp [hverstorben]

end Normalise

/-- The subscription of a member who may sign in is free. -/
lemma StatusRules.toggle {c : Columns} (h : StatusRules c) (hunlocked : c.flag .authLocked=false) :
    StatusRules {c with
      flag := Function.update c.flag .chroniclemail (!c.flag .chroniclemail)} where
  departed hdeparted := by
    have hlocked := (h.departed hdeparted).1
    rw [hunlocked] at hlocked
    cases hlocked
  without_email hemail := h.without_email hemail
  not_dismissed hentlassen := h.not_dismissed hentlassen
  not_dead hverstorben := h.not_dead hverstorben

lemma FollowStatusRules.put {db : Database} (h : FollowStatusRules db) {memberId : Uuid} {m : Member}
    (hm : StatusRules m.columns) : FollowStatusRules (putMember memberId m db) := by
  intro id m' hm'
  by_cases hid : id=memberId
  · subst hid
    rw [putMember,Dict.get?_set_self,Option.some.injEq] at hm'
    rw [← hm']
    exact hm
  · rw [putMember,Dict.get?_set_of_ne _ hid] at hm'
    exact h id m' hm'

/-- Every call keeps the rules. -/
theorem FollowStatusRules.effect {db db' : Database} (h : FollowStatusRules db)
    (heffect : Effect db db') : FollowStatusRules db' := by
  cases heffect with
  | requests => exact h
  | saved moment userId changeRequests saves later used =>
    exact h.put (statusRules_normalise _)
  | toggled moment found unlocked => exact h.put ((h _ _ found).toggle unlocked)
  | passwordReset moment passwordHash found =>
    have hm := h _ _ found
    exact h.put hm

/-- From members that follow the rules any run of calls leads to members that follow them. -/
theorem followStatusRules_runCalls (env : Environment) (db : Database) (calls : List Call)
    (h : FollowStatusRules db) : FollowStatusRules (runCalls env db calls) :=
  runCalls_preserves (fun _ _ => FollowStatusRules.effect) env h calls

/-- Somebody from outside the tables who may save members. -/
def registrar : Actor := ⟨9,{newMember ⟨0,.minDate⟩ with
  columns := {Columns.default with text := fun f => if f=.orgId then some (text "vbw") else none}
  memberRoles := [⟨text "standesfuehrer",.minDate,none⟩]}⟩

/-- A member with an address, who may sign in unless a flag says otherwise. -/
def fellowWith (flag : FlagField → Bool) : MemberInput where
  columns := {Columns.default with
    text := fun f => if f=.orgId then some (text "vbw") else if f=.nachname then some (text "Muster")
      else if f=.email then some (text "m@example.org") else none
    flag := flag}
  rolesHistory := []
  badges := []
  keys := []

/-- A new member subscribes to the chronicle, and is dismissed. -/
def subscriberCalls : List Call :=
  [.createMember ⟨5,.minDate⟩ (fellowWith fun _ => false) registrar,
    .toggleChroniclemail ⟨6,.minDate⟩ 1,
    .updateMember ⟨7,.minDate⟩ 1 (fellowWith fun f => f=.entlassen || f=.chroniclemail) registrar]

theorem followStatusRules_runCalls_toggle :
    let db := emptyDatabase [⟨text "standesfuehrer",some (text "chc"),none⟩] [] [] [] 1
    ((runCalls plainEnvironment db (subscriberCalls.take 2)).members.get? 1).map
      (fun m => m.columns.flag .chroniclemail)=some true ∧
    ((runCalls plainEnvironment db subscriberCalls).members.get? 1).map
      (fun m => (m.columns.flag .chroniclemail,m.columns.flag .authLocked))=some (false,true) ∧
    FollowStatusRules (runCalls plainEnvironment db subscriberCalls) := by
  intro db
  refine ⟨by decide,by decide,followStatusRules_runCalls _ _ _ ?_⟩
  intro id m hm
  cases hm

end VbApi.Members
