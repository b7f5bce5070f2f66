import VbApi.Foundations.DecimalText
import VbApi.Members.ChronicleWeek

/-! Over a series of weekly runs the chronicle names every anniversary once. -/
namespace VbApi.Members
open VbApi.Foundations
open VbApi.Standesdb (Uuid)

/-! ### The lists of a run -/

def AnniversaryResult.entries (result : AnniversaryResult) (org : PyText) (status : AnniversaryStatus)
    (f : AnniversaryField) : List AnniversaryEntry :=
  ((result.getD org .empty).getD status .empty).getD f []

lemma AnniversaryResult.entries_add (result : AnniversaryResult) (org org' : PyText)
    (status status' : AnniversaryStatus) (f f' : AnniversaryField) (entry : AnniversaryEntry) :
    (result.add org status f entry).entries org' status' f'=result.entries org' status' f' ++
      if org'=org ∧ status'=status ∧ f'=f then [entry] else [] := by
  simp only [AnniversaryResult.entries,AnniversaryResult.add,Dict.getD_set]
  by_cases horg : org'=org
  · subst horg
    by_cases hstatus : status'=status
    · subst hstatus
      by_cases hf : f'=f
      · simp [hf,Dict.getD_set]
      · simp [hf,Dict.getD_set]
    · simp [hstatus,Dict.getD_set]
  · simp [horg]

/-- The result in the order in which the mail shows it. -/
def sortEntries (result : AnniversaryResult) : AnniversaryResult :=
  result.mapValues fun org => org.mapValues fun status => status.mapValues (sortBy (·.daysTo))

lemma sortEntries_perm (result : AnniversaryResult) (org : PyText) (status : AnniversaryStatus)
    (f : AnniversaryField) :
    ((sortEntries result).entries org status f).Perm (result.entries org status f) := by
  have h : (sortEntries result).entries org status f=
      sortBy (·.daysTo) (result.entries org status f) := by
    have hnil : sortBy (fun e : AnniversaryEntry => e.daysTo) []=[] :=
      List.perm_nil.mp (sortBy_perm _ _)
    let sortFields (d : Dict AnniversaryField (List AnniversaryEntry)) := d.mapValues (sortBy (·.daysTo))
    have horg := Dict.getD_mapValues result (fun d => d.mapValues sortFields) org .empty
    have hstatus := Dict.getD_mapValues (result.getD org .empty) sortFields status .empty
    have hf := Dict.getD_mapValues ((result.getD org .empty).getD status .empty)
      (sortBy (·.daysTo)) f []
    rw [hnil] at hf
    exact (congrArg (fun d => (Dict.getD d status Dict.empty).getD f []) horg).trans
      ((congrArg (fun d => Dict.getD d f []) hstatus).trans hf)
  rw [h]
  exact sortBy_perm _ _

section Run
variable {given weekStart weekEnd : Date} {org : PyText} {status : AnniversaryStatus}

/-- What a member adds to one list. -/
def contribution (given : Date) (window : Date × Date) (org : PyText) (status : AnniversaryStatus)
    (f : AnniversaryField) (m : Uuid × Member) : Option AnniversaryEntry :=
  if chronicleOrg m.2=org ∧ chronicleStatus m.2=status then
    match memberEntry f given window m.2 with
    | .ok entry => entry
    | .error _ => none
  else none

lemma memberEntry_isOk (hlength : weekEnd.toOrdinal=weekStart.toOrdinal+6) (f : AnniversaryField)
    (given : Date) (m : Member) : ∃ entry, memberEntry f given (weekStart,weekEnd) m=.ok entry := by
  rw [memberEntry]
  cases hvalue : m.columns.date f.column with
  | none => exact ⟨none,rfl⟩
  | some value =>
    obtain ⟨r,hr,-,-⟩ := @anniversaryInWindow_spec value _ _ hlength
    simp only [hr,ok_bind]
    cases r with
    | none => exact ⟨none,rfl⟩
    | some c => exact ⟨_,rfl⟩

/-- One round of the loop over the members. -/
def AnniversaryResult.addFound (result : AnniversaryResult) (f : AnniversaryField) (m : Member) :
    Option AnniversaryEntry → AnniversaryResult
  | none => result
  | some entry => result.add (chronicleOrg m) (chronicleStatus m) f entry

lemma collect_entries (hlength : weekEnd.toOrdinal=weekStart.toOrdinal+6) (f : AnniversaryField)
    (members : List (Uuid × Member)) (result : AnniversaryResult) :
    ∃ result', collectFieldAnniversaries f given (weekStart,weekEnd) members result=.ok result' ∧
      ∀ org status f', result'.entries org status f'=result.entries org status f' ++
        if f'=f then members.filterMap (contribution given (weekStart,weekEnd) org status f) else [] := by
  induction members generalizing result with
  | nil => exact ⟨result,rfl,fun org status f' => by simp⟩
  | cons m members ih =>
    obtain ⟨entry,hentry⟩ := memberEntry_isOk hlength f given m.2
    have hround : collectFieldAnniversaries f given (weekStart,weekEnd) (m::members) result=
        collectFieldAnniversaries f given (weekStart,weekEnd) members (result.addFound f m.2 entry) := by
      rw [collectFieldAnniversaries,List.foldlM_cons,hentry]
      cases entry <;> rfl
    obtain ⟨result',hresult',hlists⟩ := ih (result.addFound f m.2 entry)
    refine ⟨result',hround.trans hresult',?_⟩
    intro org status f'
    rw [hlists]
    cases entry with
    | none =>
      have hnone : contribution given (weekStart,weekEnd) org status f m=none := by
        simp [contribution,hentry]
      rw [List.filterMap_cons_none hnone,AnniversaryResult.addFound]
    | some entry =>
      rw [AnniversaryResult.addFound,AnniversaryResult.entries_add]
      by_cases hplace : chronicleOrg m.2=org ∧ chronicleStatus m.2=status
      · have hsome : contribution given (weekStart,weekEnd) org status f m=some entry := by
          simp [contribution,hentry,hplace]
        obtain ⟨rfl,rfl⟩ := hplace
        rw [List.filterMap_cons_some hsome]
        by_cases hf : f'=f <;> simp [hf]
      · have hnone : contribution given (weekStart,weekEnd) org status f m=none := if_neg hplace
        have hother : ¬ (org=chronicleOrg m.2 ∧ status=chronicleStatus m.2 ∧ f'=f) :=
          fun h => hplace ⟨h.1.symm,h.2.1.symm⟩
        rw [List.filterMap_cons_none hnone,if_neg hother,List.append_nil]

lemma run_entries (hlength : weekEnd.toOrdinal=weekStart.toOrdinal+6) (run : ChronicleRun)
    {fields : List AnniversaryField} (hfields : fields.Nodup) (result : AnniversaryResult) :
    ∃ result', fields.foldlM (fun result f => collectFieldAnniversaries f given (weekStart,weekEnd)
        (selectedMembers run f) result) result=.ok result' ∧
      ∀ org status f, result'.entries org status f=result.entries org status f ++
        if f ∈ fields then (selectedMembers run f).filterMap
          (contribution given (weekStart,weekEnd) org status f) else [] := by
  induction fields generalizing result with
  | nil => exact ⟨result,rfl,fun org status f => by simp⟩
  | cons field fields ih =>
    obtain ⟨hfresh,hfields⟩ := List.nodup_cons.mp hfields
    obtain ⟨first,hfirst,hlists⟩ := @collect_entries given _ _ hlength field
      (selectedMembers run field) result
    obtain ⟨last,hlast,hrest⟩ := ih hfields first
    refine ⟨last,by rw [List.foldlM_cons,hfirst]; exact hlast,?_⟩
    intro org status f
    rw [hrest,hlists]
    by_cases hf : f=field
    · subst hf
      simp [hfresh]
    · simp [hf]

/-- Each list holds what the selected members add to it. -/
theorem computeAnniversaries_entries (run : ChronicleRun)
    (hwindow : weekWindow run.given=.ok (weekStart,weekEnd)) :
    ∃ result, computeAnniversaries run=.ok result ∧ ∀ org status f,
      (result.entries org status f).Perm (run.members.entries.filterMap fun m =>
        if selected f m.2 then contribution run.given (weekStart,weekEnd) org status f m else none) := by
  have hlength := (weekWindow_toOrdinal hwindow).2
  obtain ⟨result,hresult,hlists⟩ := @run_entries run.given _ _ hlength run _
    (show anniversaryFields.Nodup by decide) .empty
  refine ⟨sortEntries result,?_,?_⟩
  · rw [computeAnniversaries,hwindow,ok_bind,hresult]
    rfl
  · intro org status f
    have hmem : f ∈ anniversaryFields := by cases f <;> decide
    apply (sortEntries_perm result org status f).trans
    rw [hlists,if_pos hmem]
    change (List.filterMap _ (selectedMembers run f)).Perm _
    rw [← List.filterMap_filter]
    exact ((run.orders f).pick_perm _).filterMap _

end Run

/-! ### Whether a run names a member -/

/-- The rows without one member. -/
def ChronicleRun.without (run : ChronicleRun) (memberId : Uuid) : ChronicleRun :=
  { run with members := run.members.erase memberId }

/-- The entry stands in its list for this member: without the row of the member it is missing there,
and nothing else is. -/
def Lists (run : ChronicleRun) (memberId : Uuid) (f : AnniversaryField) (entry : AnniversaryEntry) : Prop :=
  ∃ m result rest, run.members.get? memberId=some m ∧ computeAnniversaries run=.ok result ∧
    computeAnniversaries (run.without memberId)=.ok rest ∧
    (result.entries (chronicleOrg m) (chronicleStatus m) f).Perm
      (entry::rest.entries (chronicleOrg m) (chronicleStatus m) f)

section Lists
variable {run : ChronicleRun} {memberId : Uuid} {m : Member} {f : AnniversaryField}
  {entry : AnniversaryEntry} {window : Date × Date}

lemma lists_iff (hwindow : weekWindow run.given=.ok window) (hrow : run.members.get? memberId=some m) :
    Lists run memberId f entry ↔ selected f m=true ∧ memberEntry f run.given window m=.ok (some entry) := by
  obtain ⟨result,hresult,hlists⟩ := computeAnniversaries_entries run hwindow
  obtain ⟨rest,hrest,hothers⟩ := computeAnniversaries_entries (run.without memberId) hwindow
  obtain ⟨own,hown⟩ := memberEntry_isOk (weekWindow_toOrdinal hwindow).2 f run.given m
  have hsplit : (result.entries (chronicleOrg m) (chronicleStatus m) f).Perm
      ((if selected f m then own else none).toList ++
        rest.entries (chronicleOrg m) (chronicleStatus m) f) := by
    apply (hlists _ _ _).trans
    apply ((Dict.entries_perm_erase hrow).filterMap _).trans
    have hmember : (if selected f m then contribution run.given window (chronicleOrg m)
        (chronicleStatus m) f (memberId,m) else none)=if selected f m then own else none := by
      simp [contribution,hown]
    have hrows := (hothers (chronicleOrg m) (chronicleStatus m) f).symm.append_left
      (if selected f m then own else none).toList
    rw [List.filterMap_cons,hmember]
    cases hcase : (if selected f m then own else none) with
    | none =>
      rw [hcase] at hrows
      exact hrows
    | some e =>
      rw [hcase] at hrows
      exact hrows
  have hlisted : Lists run memberId f entry ↔ (if selected f m then own else none)=some entry := by
    constructor
    · rintro ⟨m',result',rest',hrow',hresult',hrest',hperm⟩
      rw [hrow,Option.some.injEq] at hrow'
      subst hrow'
      rw [hresult,Except.ok.injEq] at hresult'
      rw [hrest,Except.ok.injEq] at hrest'
      subst hresult' hrest'
      have hsame : ((if selected f m then own else none).toList ++ _).Perm ([entry] ++ _) :=
        hsplit.symm.trans hperm
      have hone := List.perm_singleton.mp ((List.perm_append_right_iff _).mp hsame)
      exact Option.toList_eq_singleton_iff.mp hone
    · intro hentry
      rw [hentry] at hsplit
      exact ⟨m,result,rest,hrow,hresult,hrest,hsplit⟩
  rw [hlisted,hown,Except.ok.injEq]
  by_cases hselected : selected f m=true <;> simp [hselected]

end Lists

/-! ### Series of runs -/

lemma padded_toDigits (n : ℕ) : padded 1 n=(Nat.toDigits 10 n).map codePoint := by
  have hpos : 0 < (Nat.toDigits 10 n).length := Nat.length_toDigits_pos
  have hnone : 1-((Nat.toDigits 10 n).map codePoint).length=0 := by
    rw [List.length_map]
    omega
  rw [padded,hnone]
  rfl

/-- A date can be read back from its text. -/
lemma formatDateDe_injective : Function.Injective formatDateDe := by
  intro a b h
  have hchars : ∀ d : Date, formatDateDe d=((Nat.toDigits 10 d.day ++ '.' :: ' ' :: Nat.toDigits 10 d.month ++
      [ '.']) ++ ' ' :: Nat.toDigits 10 d.year).map codePoint := by
    intro d
    simp only [formatDateDe,padded_toDigits,List.map_append,List.map_cons,List.append_assoc]
    rfl
  rw [hchars,hchars] at h
  obtain ⟨hfront,hyear⟩ := append_mark_toDigits_inj (by decide)
    (List.map_injective_iff.mpr codePoint_injective h)
  have hfront := List.append_cancel_right hfront
  rw [← List.singleton_append,← List.singleton_append (x := '.') (l := ' ' :: Nat.toDigits 10 b.month),
    ← List.append_assoc,← List.append_assoc] at hfront
  obtain ⟨hday,hmonth⟩ := append_mark_toDigits_inj (by decide) hfront
  exact Date.ext hyear hmonth (toDigits_inj (List.append_cancel_right hday))

/-- Runs a week apart. -/
structure WeeklyRuns where
  count : ℕ
  run : ℕ → ChronicleRun
  weekly : ∀ i, i+1 < count → (run i).given.addDays (7 : ℕ)=.ok (run (i+1)).given

/-- Every day of the year lies in the week of some run. -/
def WeeklyRuns.Covers (runs : WeeklyRuns) (y : ℕ) : Prop :=
  ∀ d : Date, d.year=y → ∃ i < runs.count, ∃ weekStart weekEnd,
    weekWindow (runs.run i).given=.ok (weekStart,weekEnd) ∧ weekStart ≤ d ∧ d ≤ weekEnd

/-- The member is in the chronicle with an event of this date. -/
structure Eligible (f : AnniversaryField) (value : Date) (m : Member) : Prop where
  date : m.columns.date f.column=some value
  accuracy : ∃ accuracy, m.columns.accuracy f.column=some accuracy ∧ 3 ≤ accuracy
  notEntlassen : m.columns.flag .entlassen=false

lemma Eligible.selected {f : AnniversaryField} {value : Date} {m : Member} (h : Eligible f value m) :
    selected f m=true := by
  obtain ⟨accuracy,haccuracy,hle⟩ := h.accuracy
  simp [Members.selected,h.date,haccuracy,hle,h.notEntlassen]

/-- A run reports the anniversary of a year. -/
structure Reports (run : ChronicleRun) (memberId : Uuid) (f : AnniversaryField) (value anniversary : Date)
    (shifted : Bool) (y : ℕ) (entry : AnniversaryEntry) : Prop where
  listed : Lists run memberId f entry
  date : entry.date=formatDateDe anniversary
  years : entry.years=y-value.year
  daysTo : entry.daysTo=anniversary.toOrdinal-run.given.toOrdinal
  note : entry.leapDayNote=if shifted then some leapDayText else none

section Series
variable {runs : WeeklyRuns} {memberId : Uuid} {f : AnniversaryField} {value : Date} {y : ℕ}

lemma given_toOrdinal (runs : WeeklyRuns) {i : ℕ} (hi : i < runs.count) :
    (runs.run i).given.toOrdinal=(runs.run 0).given.toOrdinal+7*i := by
  induction i with
  | zero => rfl
  | succ i ih =>
    rw [Date.addDays_toOrdinal (runs.weekly i hi),ih (by omega)]
    omega

/-- No day lies in the weeks of two runs. -/
lemma window_unique {i j : ℕ} (hi : i < runs.count) (hj : j < runs.count) {s e s' e' d : Date}
    (h : weekWindow (runs.run i).given=.ok (s,e)) (h' : weekWindow (runs.run j).given=.ok (s',e'))
    (hs : s ≤ d) (he : d ≤ e) (hs' : s' ≤ d) (he' : d ≤ e') : i=j := by
  have hcount := weekWindow_toOrdinal h
  have hcount' := weekWindow_toOrdinal h'
  rw [given_toOrdinal runs hi] at hcount
  rw [given_toOrdinal runs hj] at hcount'
  rw [← Date.toOrdinal_le_iff] at hs he hs' he'
  omega

/-- What a run lists for a member is the anniversary that lies in its week. -/
lemma lists_anniversary {run : ChronicleRun} {m : Member} {entry : AnniversaryEntry}
    (hrow : run.members.get? memberId=some m) (heligible : Eligible f value m)
    (h : Lists run memberId f entry) :
    ∃ s e d shifted, weekWindow run.given=.ok (s,e) ∧ s ≤ d ∧ d ≤ e ∧
      safeAnniversaryDate d.year value.month value.day=.ok (some (d,shifted)) ∧
      entry=newEntry m run.given value d shifted := by
  have hanswer : ∃ window, weekWindow run.given=.ok window := by
    obtain ⟨-,result,-,-,hresult,-⟩ := id h
    obtain ⟨window,hwindow,-⟩ := bind_eq_ok_iff.mp hresult
    exact ⟨window,hwindow⟩
  obtain ⟨⟨s,e⟩,hwindow⟩ := hanswer
  obtain ⟨r,hr,hfound,-⟩ := @anniversaryInWindow_spec value _ _ (weekWindow_toOrdinal hwindow).2
  have hentry := ((lists_iff hwindow hrow).mp h).2
  rw [memberEntry,heligible.date] at hentry
  simp only [hr,ok_bind] at hentry
  cases r with
  | none => cases hentry
  | some c =>
    cases hentry
    have hhit := hfound c rfl
    exact ⟨s,e,c.1,c.2,hwindow,hhit.lower,hhit.upper,hhit.date,rfl⟩

/-- Over runs a week apart that cover a year, exactly one run reports the anniversary of that year. -/
theorem chronicle_once (hyear : value.year < y) (hle : y ≤ 9999) (hcovers : runs.Covers y)
    (heligible : ∀ i < runs.count, ∃ m, (runs.run i).members.get? memberId=some m ∧ Eligible f value m) :
    ∃ anniversary shifted,
      safeAnniversaryDate y value.month value.day=.ok (some (anniversary,shifted)) ∧
      ∃ i < runs.count, ∃ entry, Reports (runs.run i) memberId f value anniversary shifted y entry ∧
        ∀ j < runs.count, ∀ entry', Lists (runs.run j) memberId f entry' →
          entry'.date=formatDateDe anniversary ∨ entry'.years=y-value.year → j=i ∧ entry'=entry := by
  have hpos : 1 ≤ y := value.year_pos.trans hyear.le
  obtain ⟨d,shifted,hdate,hdyear,-,-⟩ := safeAnniversaryDate_spec value hpos hle
  obtain ⟨i,hi,s,e,hwindow,hs,he⟩ := hcovers d hdyear
  obtain ⟨m,hrow,hm⟩ := heligible i hi
  obtain ⟨r,hr,-,hcomplete⟩ := @anniversaryInWindow_spec value _ _ (weekWindow_toOrdinal hwindow).2
  have hfound := hcomplete y (d,shifted) hpos hle hdate hs he
  have hentry : memberEntry f (runs.run i).given (s,e) m=
      .ok (some (newEntry m (runs.run i).given value d shifted)) := by
    rw [memberEntry,hm.date]
    simp only [hr,ok_bind,hfound]
    rfl
  have hlists := (lists_iff hwindow hrow).mpr ⟨hm.selected,hentry⟩
  refine ⟨d,shifted,hdate,i,hi,_,⟨hlists,rfl,by simp [newEntry,hdyear],rfl,rfl⟩,?_⟩
  intro j hj entry' hlists' hsame
  obtain ⟨m',hrow',hm'⟩ := heligible j hj
  obtain ⟨s',e',d',shifted',hwindow',hs',he',hdate',rfl⟩ := lists_anniversary hrow' hm' hlists'
  have hd : d'=d := by
    rcases hsame with hsame | hsame
    · exact formatDateDe_injective hsame
    · have hyear' : d'.year=y := by
        simp only [newEntry] at hsame
        omega
      rw [hyear',hdate] at hdate'
      cases hdate'
      rfl
  subst hd
  have hij := window_unique hi hj hwindow hwindow' hs he hs' he'
  subst hij
  refine ⟨rfl,?_⟩
  rw [hrow,Option.some.injEq] at hrow'
  subst hrow'
  rw [hdyear,hdate] at hdate'
  cases hdate'
  rfl

end Series

/-! ### A series through a common year -/

section Weekly
variable (members : Dict Uuid Member) (start : Date) (count : ℕ)

def weeklyRun (i : ℕ) : ChronicleRun where
  members := members
  given := ((start.addDays (7*i : ℕ)).toOption).getD start
  orders _ := .stable _

lemma weeklyRun_given {i : ℕ} (h : start.toOrdinal+7*i ≤ Date.maxDate.toOrdinal) :
    start.addDays (7*i : ℕ)=.ok (weeklyRun members start i).given := by
  obtain ⟨d,hd⟩ := Date.addDays_isOk h
  rw [weeklyRun,hd]
  rfl

lemma weeklyRun_next (h : start.toOrdinal+7*count ≤ Date.maxDate.toOrdinal) (i : ℕ) (hi : i+1 < count) :
    (weeklyRun members start i).given.addDays (7 : ℕ)=.ok (weeklyRun members start (i+1)).given := by
  have hgiven := weeklyRun_given members start (i := i) (by omega)
  have hnext := weeklyRun_given members start (i := i+1) (by omega)
  change Date.iterDays Date.succDay (7*i) start=_ at hgiven
  change Date.iterDays Date.succDay (7*(i+1)) start=_ at hnext
  rw [Nat.mul_add,Nat.mul_one,Date.iterDays_add,hgiven] at hnext
  exact hnext

def weeklyRuns (h : start.toOrdinal+7*count ≤ Date.maxDate.toOrdinal) : WeeklyRuns where
  count := count
  run := weeklyRun members start
  weekly := weeklyRun_next members start count h

variable {members start count}

/-- From the Monday of the first run on, every day is in some week. -/
lemma weeklyRuns_covers (h : start.toOrdinal+7*count ≤ Date.maxDate.toOrdinal) {y : ℕ}
    (hend : start.toOrdinal+7*count+12 ≤ Date.maxDate.toOrdinal)
    (hfirst : start.toOrdinal+(7-(start.toOrdinal+6)%7)%7 ≤ Date.daysBeforeYear y+1)
    (hlast : Date.daysBeforeYear (y+1) < start.toOrdinal+(7-(start.toOrdinal+6)%7)%7+7*count) :
    (weeklyRuns members start count h).Covers y := by
  intro d hyear
  have hbounds := d.toOrdinal_year_bounds
  rw [hyear] at hbounds
  let i := (d.toOrdinal-(start.toOrdinal+(7-(start.toOrdinal+6)%7)%7))/7
  have hi : i < count := by omega
  have hgiven := Date.addDays_toOrdinal (weeklyRun_given members start (i := i) (by omega))
  obtain ⟨⟨s,e⟩,hwindow⟩ := @weekWindow_isOk (weeklyRun members start i).given (by omega)
  obtain ⟨hs,he⟩ := weekWindow_toOrdinal hwindow
  refine ⟨i,hi,s,e,hwindow,?_,?_⟩
  · rw [← Date.toOrdinal_le_iff]
    omega
  · rw [← Date.toOrdinal_le_iff]
    omega

end Weekly

/-- Born on a leap day. -/
def leapling : Member where
  columns := {Columns.default with
    date := fun f => if f=.geburtsdatum then some (Date.of 1996 2 29) else none
    accuracy := fun _ => some 3}
  emailVerifiedAt := none
  authPassword := none
  modifiedAt := none
  modifiedBy := none
  updatedAt := none
  other := ⟨none,none,none,none,none,none,none,none,0⟩
  memberRoles := []
  memberBadges := []
  memberKeys := []

lemma leapling_eligible : Eligible .geburtsdatum (Date.of 1996 2 29) leapling :=
  ⟨rfl,⟨3,rfl,le_rfl⟩,rfl⟩

lemma tuesdays_end : (Date.of 2022 12 20).toOrdinal+7*54 ≤ Date.maxDate.toOrdinal := by decide

lemma tuesdays_fit : (Date.of 2022 12 20).toOrdinal+7*54+12 ≤ Date.maxDate.toOrdinal := by decide

/-- Tuesdays from December 2022 on. -/
def tuesdayRuns : WeeklyRuns :=
  weeklyRuns (Dict.ofPairs [(1,leapling)]) (Date.of 2022 12 20) 54 tuesdays_end

lemma tuesdayRuns_covers : tuesdayRuns.Covers 2023 :=
  weeklyRuns_covers _ tuesdays_fit (by decide) (by decide)

theorem chronicle_once_leapling : ∃ anniversary shifted,
    safeAnniversaryDate 2023 2 29=.ok (some (anniversary,shifted)) ∧
    ∃ i < tuesdayRuns.count, ∃ entry,
      Reports (tuesdayRuns.run i) 1 .geburtsdatum (Date.of 1996 2 29) anniversary shifted 2023 entry ∧
      ∀ j < tuesdayRuns.count, ∀ entry', Lists (tuesdayRuns.run j) 1 .geburtsdatum entry' →
        entry'.date=formatDateDe anniversary ∨ entry'.years=2023-(1996 : ℕ) → j=i ∧ entry'=entry :=
  @chronicle_once _ _ _ (Date.of 1996 2 29) _ (by decide) (by decide) tuesdayRuns_covers
    fun _ _ => ⟨leapling,rfl,leapling_eligible⟩

end VbApi.Members
