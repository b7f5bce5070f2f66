import VbApi.Foundations.DecimalText
import VbApi.Foundations.IsoOrder
import VbApi.Members.ChronicleWeek

/-! The daily job of the birthday mails selects the members whose birthday is tomorrow. -/
namespace VbApi.Members
open VbApi.Foundations
open VbApi.Standesdb (Uuid)

/-! ### The selection -/

/-- `int(text)` of a field of a date. -/
def intOfDigits (s : PyText) : Except DateError ℕ :=
  if s=[] then .error .valueError
  else
    match Date.takeDigits s.length 0 s with
    | some (n,_) => .ok n
    | none => .error .valueError

/-- Month and day, read from `str(d)`. -/
def parseMonthDay (d : Date) : Except DateError (Option (ℕ × ℕ)) :=
  match d.isoformat.splitOnP (· = codePoint '-') with
  | _::month::day::_ => do return some (← intOfDigits month,← intOfDigits day)
  | _ => .ok none

/-- The filter of the query; a column without a value meets no comparison. -/
def birthdayRecipient (m : Member) : Bool :=
  m.columns.text .orgId=some (text "vbw") &&
    !m.columns.flag .entlassen && !m.columns.flag .verstorben &&
    (match m.columns.accuracy .geburtsdatum with
    | some accuracy => 3 ≤ accuracy
    | none => false) &&
    (match m.columns.zustellungen with
    | some preference => preference ≠ .deaktiviert
    | none => false) &&
    (match m.columns.text .email with
    | some email => email ≠ []
    | none => false) &&
    (match m.columns.text .couleurname with
    | some couleurname => couleurname ≠ []
    | none => false)

def hasBirthday (tomorrow : Date) (m : Member) : Except DateError Bool :=
  match m.columns.date .geburtsdatum with
  | none => .ok false
  | some d => do return (← parseMonthDay d)=some (tomorrow.month,tomorrow.day)

/-- The comprehension over the rows. -/
def keepBirthdays (tomorrow : Date) : List (Uuid × Member) → Except DateError (List (Uuid × Member))
  | [] => .ok []
  | m::members => do
    let keep ← hasBirthday tomorrow m.2
    let rest ← keepBirthdays tomorrow members
    return if keep then m::rest else rest

/-- A run of the job: the rows that it finds, in the order of its query. -/
structure BirthdayRun where
  members : Dict Uuid Member
  today : Date
  order : OrderBy fun _ : Uuid × Member => ()

def birthdayMembers (run : BirthdayRun) : Except DateError (List (Uuid × Member)) := do
  let tomorrow ← run.today.addDays (1 : ℕ)
  keepBirthdays tomorrow (run.order.pick (run.members.entries.filter fun m => birthdayRecipient m.2))

/-- The run selects the member. -/
def Selects (run : BirthdayRun) (memberId : Uuid) : Prop :=
  ∃ selected m, birthdayMembers run=.ok selected ∧ (memberId,m) ∈ selected

section Selection
variable {d tomorrow : Date} {run : BirthdayRun} {memberId : Uuid} {m : Member}

lemma intOfDigits_padded {w n : ℕ} (h : n < 10^(w+1)) : intOfDigits (padded (w+1) n)=.ok n := by
  have hlength := length_padded h
  have hne : padded (w+1) n ≠ [] := List.ne_nil_of_length_pos (by omega)
  have hread := Date.takeDigits_padded w n 0 h []
  rw [List.append_nil] at hread
  rw [intOfDigits,if_neg hne,hlength,hread]
  simp

lemma parseMonthDay_eq (d : Date) : parseMonthDay d=.ok (some (d.month,d.day)) := by
  have hdash : decide (codePoint '-'=codePoint '-')=true := decide_eq_true rfl
  have hno : ∀ width n, ∀ c ∈ padded width n, decide (c=codePoint '-')=false :=
    fun width n c hc => decide_eq_false (ne_of_mem_padded (by decide) hc)
  have hsplit : d.isoformat.splitOnP (· = codePoint '-')=
      [padded 4 d.year,padded 2 d.month,padded 2 d.day] := by
    have hiso : d.isoformat=padded 4 d.year ++ codePoint '-'::
        (padded 2 d.month ++ codePoint '-'::padded 2 d.day) := by
      simp only [Date.isoformat,List.append_assoc]
      rfl
    rw [hiso,List.splitOnP_append_cons_of_forall_mem (hno 4 d.year) _ hdash,
      List.splitOnP_append_cons_of_forall_mem (hno 2 d.month) _ hdash,
      List.splitOnP_eq_singleton (hno 2 d.day)]
  rw [parseMonthDay,hsplit]
  simp only [intOfDigits_padded d.month_lt,intOfDigits_padded d.day_lt,ok_bind,pure_eq_ok]

/-- The job compares month and day. -/
lemma hasBirthday_eq (tomorrow : Date) (m : Member) : ∃ keep, hasBirthday tomorrow m=.ok keep ∧
    (keep=true ↔ ∃ value, m.columns.date .geburtsdatum=some value ∧ value.month=tomorrow.month ∧
      value.day=tomorrow.day) := by
  rw [hasBirthday]
  cases hvalue : m.columns.date .geburtsdatum with
  | none => exact ⟨false,rfl,by simp⟩
  | some value =>
    simp only [parseMonthDay_eq,ok_bind,pure_eq_ok]
    exact ⟨_,rfl,by simp⟩

lemma keepBirthdays_eq (tomorrow : Date) (members : List (Uuid × Member)) :
    ∃ selected, keepBirthdays tomorrow members=.ok selected ∧ ∀ m, m ∈ selected ↔
      m ∈ members ∧ ∃ value, m.2.columns.date .geburtsdatum=some value ∧ value.month=tomorrow.month ∧
        value.day=tomorrow.day := by
  induction members with
  | nil => exact ⟨[],rfl,by simp⟩
  | cons first members ih =>
    obtain ⟨rest,hrest,hmem⟩ := ih
    obtain ⟨keep,hkeep,hbirthday⟩ := hasBirthday_eq tomorrow first.2
    refine ⟨if keep then first::rest else rest,by rw [keepBirthdays,hkeep,hrest]; rfl,?_⟩
    intro m
    cases keep with
    | true =>
      have hfirst := hbirthday.mp rfl
      rw [if_pos rfl,List.mem_cons,List.mem_cons,hmem]
      constructor
      · rintro (rfl | ⟨hin,hvalue⟩)
        · exact ⟨.inl rfl,hfirst⟩
        · exact ⟨.inr hin,hvalue⟩
      · rintro ⟨rfl | hin,hvalue⟩
        · exact .inl rfl
        · exact .inr ⟨hin,hvalue⟩
    | false =>
      have hfirst : ¬ ∃ value, first.2.columns.date .geburtsdatum=some value ∧
          value.month=tomorrow.month ∧ value.day=tomorrow.day :=
        fun h => Bool.false_ne_true (hbirthday.mpr h)
      rw [if_neg Bool.false_ne_true,List.mem_cons,hmem]
      constructor
      · rintro ⟨hin,hvalue⟩
        exact ⟨.inr hin,hvalue⟩
      · rintro ⟨rfl | hin,hvalue⟩
        · exact absurd hvalue hfirst
        · exact ⟨hin,hvalue⟩

lemma selects_iff {value : Date} (htomorrow : run.today.addDays (1 : ℕ)=.ok tomorrow)
    (hrow : run.members.get? memberId=some m) (hrecipient : birthdayRecipient m=true)
    (hvalue : m.columns.date .geburtsdatum=some value) :
    Selects run memberId ↔ value.month=tomorrow.month ∧ value.day=tomorrow.day := by
  obtain ⟨selected,hselected,hmem⟩ := keepBirthdays_eq tomorrow
    (run.order.pick (run.members.entries.filter fun m => birthdayRecipient m.2))
  have hrun : birthdayMembers run=.ok selected := by
    rw [birthdayMembers,htomorrow,ok_bind,hselected]
  have hrows : ∀ m', (memberId,m') ∈ run.order.pick (run.members.entries.filter fun m =>
      birthdayRecipient m.2) ↔ m'=m := by
    intro m'
    rw [(run.order.pick_perm _).mem_iff,List.mem_filter,← Dict.get?_eq_some_iff,hrow,
      Option.some.injEq]
    constructor
    · rintro ⟨rfl,-⟩
      rfl
    · rintro rfl
      exact ⟨rfl,hrecipient⟩
  constructor
  · rintro ⟨selected',m',hrun',hin⟩
    rw [hrun,Except.ok.injEq] at hrun'
    subst hrun'
    obtain ⟨hrow',value',hvalue',hday⟩ := (hmem _).mp hin
    rw [(hrows m').mp hrow',hvalue,Option.some.injEq] at hvalue'
    rw [hvalue']
    exact hday
  · intro hday
    exact ⟨selected,m,hrun,(hmem _).mpr ⟨(hrows m).mpr rfl,value,hvalue,hday⟩⟩

end Selection

/-! ### A year of runs -/

/-- A run on every day. -/
structure DailyRuns where
  run : Date → BirthdayRun
  today : ∀ day, (run day).today=day

/-- The run of the day before selects the member for this day. -/
def Greets (runs : DailyRuns) (memberId : Uuid) (day : Date) : Prop :=
  ∃ today, today.addDays (1 : ℕ)=.ok day ∧ Selects (runs.run today) memberId

/-- In the runs for the days of a year the member has this birthday and receives mails. -/
def EligibleIn (runs : DailyRuns) (memberId : Uuid) (value : Date) (y : ℕ) : Prop :=
  ∀ today day, today.addDays (1 : ℕ)=.ok day → day.year=y →
    ∃ m, (runs.run today).members.get? memberId=some m ∧ birthdayRecipient m=true ∧
      m.columns.date .geburtsdatum=some value

/-- Of the days of the year the member is greeted on one: the one that the chronicle names. -/
def BirthdayLaw (runs : DailyRuns) (memberId : Uuid) (value : Date) (y : ℕ) : Prop :=
  ∃ anniversary shifted,
    safeAnniversaryDate y value.month value.day=.ok (some (anniversary,shifted)) ∧
    anniversary.year=y ∧ ∀ day, day.year=y → (Greets runs memberId day ↔ day=anniversary)

section Year
variable {runs : DailyRuns} {memberId : Uuid} {value day : Date} {y : ℕ}

/-- Every day but the first one has a day before it. -/
lemma exists_dayBefore (h : 1 < day.year) : ∃ today : Date, today.addDays (1 : ℕ)=.ok day := by
  have hbounds := day.toOrdinal_year_bounds.1
  have hmono := Date.daysBeforeYear_mono (show 2 ≤ day.year from h)
  have hsecond : Date.daysBeforeYear 2=365 := by decide
  have hfirst : Date.minDate.toOrdinal=1 := by decide
  have hlast : day.toOrdinal ≤ Date.maxDate.toOrdinal := by
    have hyear := day.toOrdinal_year_bounds.2
    have hend := Date.daysBeforeYear_mono (show day.year+1 ≤ 10000 by have := day.year_le; omega)
    have hmax : Date.daysBeforeYear 10000=Date.maxDate.toOrdinal := by decide
    omega
  obtain ⟨today,htoday⟩ := Date.addDays_isOk (d := Date.minDate) (n := day.toOrdinal-2) (by omega)
  have hcount := Date.addDays_toOrdinal htoday
  obtain ⟨next,hnext⟩ := Date.addDays_isOk (d := today) (n := 1) (by omega)
  have hsame : next=day := by
    apply Date.toOrdinal_injective
    rw [Date.addDays_toOrdinal hnext]
    omega
  exact ⟨today,hsame ▸ hnext⟩

lemma greets_iff (hpos : 1 < y) (heligible : EligibleIn runs memberId value y) (hday : day.year=y) :
    Greets runs memberId day ↔ value.month=day.month ∧ value.day=day.day := by
  have hselects : ∀ today, today.addDays (1 : ℕ)=.ok day →
      (Selects (runs.run today) memberId ↔ value.month=day.month ∧ value.day=day.day) := by
    intro today htoday
    obtain ⟨m,hrow,hrecipient,hvalue⟩ := heligible today day htoday hday
    rw [← runs.today today] at htoday
    exact selects_iff htoday hrow hrecipient hvalue
  constructor
  · rintro ⟨today,htoday,hselected⟩
    exact (hselects today htoday).mp hselected
  · intro hsame
    obtain ⟨today,htoday⟩ := @exists_dayBefore day (by omega)
    exact ⟨today,htoday,(hselects today htoday).mpr hsame⟩

/-- A member born on a leap day is not greeted in a common year. -/
lemma birthday_missed (hpos : 1 < y) (hle : y ≤ 9999) (heligible : EligibleIn runs memberId value y)
    (hleapDay : value.month=2 ∧ value.day=29 ∧ isLeapYear y=false) :
    ¬ BirthdayLaw runs memberId value y := by
  rintro ⟨anniversary,shifted,hdate,hyear,hlaw⟩
  have hgreets := (hlaw anniversary hyear).mpr rfl
  rw [greets_iff hpos heligible hyear] at hgreets
  obtain ⟨d,shifted',hdate',-,-,hd⟩ := safeAnniversaryDate_spec value (show 1 ≤ y by omega) hle
  rw [hdate] at hdate'
  cases hdate'
  rw [if_pos hleapDay] at hd
  omega

/-- The job greets a member on the day of the chronicle except for leap days in common years. -/
theorem birthdayLaw_iff (hyear : value.year < y) (hle : y ≤ 9999)
    (heligible : EligibleIn runs memberId value y) :
    BirthdayLaw runs memberId value y ↔
      ¬ (value.month=2 ∧ value.day=29 ∧ isLeapYear y=false) := by
  have hpos : 1 < y := lt_of_le_of_lt value.year_pos hyear
  refine ⟨fun hlaw hleapDay => birthday_missed hpos hle heligible hleapDay hlaw,fun hregular => ?_⟩
  obtain ⟨d,shifted,hdate,hdyear,hmonth,hd⟩ := safeAnniversaryDate_spec value hpos.le hle
  rw [if_neg hregular] at hd
  refine ⟨d,shifted,hdate,hdyear,?_⟩
  intro day hday
  rw [greets_iff hpos heligible hday]
  constructor
  · rintro ⟨hm,hdday⟩
    exact Date.ext (hday.trans hdyear.symm) (hm.symm.trans hmonth.symm) (hdday.symm.trans hd.1.symm)
  · rintro rfl
    exact ⟨hmonth.symm,hd.1.symm⟩

end Year

/-! ### Born on a leap day -/

def leapDayMember : Member where
  columns := {Columns.default with
    text := fun f =>
      if f=.orgId then some (text "vbw") else if f=.email then some (text "m@example.org")
      else if f=.couleurname then some (text "Hagen") else none
    date := fun f => if f=.geburtsdatum then some (Date.of 1996 2 29) else none
    accuracy := fun _ => some 3
    zustellungen := some .adressePrivat}
  emailVerifiedAt := none
  authPassword := none
  modifiedAt := none
  modifiedBy := none
  updatedAt := none
  other := ⟨none,none,none,none,none,none,none,none,0⟩
  memberRoles := []
  memberBadges := []
  memberKeys := []

def leapDayRun (today : Date) : BirthdayRun := ⟨Dict.ofPairs [(1,leapDayMember)],today,.stable _⟩

def leapDayRuns : DailyRuns := ⟨leapDayRun,fun _ => rfl⟩

lemma leapDayMember_recipient : birthdayRecipient leapDayMember=true := by decide

lemma leapDayRuns_eligible (y : ℕ) : EligibleIn leapDayRuns 1 (Date.of 1996 2 29) y :=
  fun _ _ _ _ => ⟨leapDayMember,rfl,leapDayMember_recipient,rfl⟩

/-- In 2024 the member is greeted on 29 February. -/
theorem birthdayLaw_leapYear : BirthdayLaw leapDayRuns 1 (Date.of 1996 2 29) 2024 :=
  (birthdayLaw_iff (by decide) (by decide) (leapDayRuns_eligible 2024)).mpr (by decide)

theorem leapDay_notGreeted : ¬ BirthdayLaw leapDayRuns 1 (Date.of 1996 2 29) 2023 :=
  birthday_missed (by decide) (by decide) (leapDayRuns_eligible 2023) (by decide)

end VbApi.Members
