import VbApi.Foundations.IsoOrder
import VbApi.Foundations.Machine
import VbApi.P4x.FeeMonths

/-! The configuration of the fee: an admin adds steps from the current month on, and deletes those that
are not protected. -/
namespace VbApi.P4x
open VbApi.Foundations

/-- A fee step with the column that the balances do not read. -/
structure FeeRow extends P4xFee where
  isProtected : Bool

/-- A validated request. -/
structure FeeCreateRequest where
  year : ℕ
  month : ℕ
  fee : Cents
  year_bounds : 2015 ≤ year ∧ year ≤ 2100
  month_bounds : 1 ≤ month ∧ month ≤ 12
  fee_bounds : 1000 ≤ fee ∧ fee ≤ 20000

lemma one_le_daysInMonth (year month : ℕ) : 1 ≤ daysInMonth year month :=
  le_trans (by decide) (daysInMonth_ge year month)

lemma FeeCreateRequest.year_valid (data : FeeCreateRequest) : 1 ≤ data.year ∧ data.year ≤ 9999 := by
  have := data.year_bounds
  omega

/-- `date(year, month, 1)`. -/
def FeeCreateRequest.start (data : FeeCreateRequest) : Date where
  year := data.year
  month := data.month
  day := 1
  year_pos := data.year_valid.1
  year_le := data.year_valid.2
  month_pos := data.month_bounds.1
  month_le := data.month_bounds.2
  day_pos := Nat.one_pos
  day_le := one_le_daysInMonth _ _

def FeeCreateRequest.row (data : FeeCreateRequest) : FeeRow := ⟨⟨data.start,data.fee⟩,false⟩

inductive FeeError
  | refused (detail : PyText)
  | date (e : DateError)

def startInThePast : FeeError :=
  .refused (text "Startmonat muss aktueller Monat sein oder in der Zukunft liegen.")

def startTaken : FeeError := .refused (text "Startmonat muss eindeutig sein.")

def feeMissing : FeeError := .refused (text "Eintrag nicht gefunden oder geschützt.")

section Operations
variable (rows : List FeeRow)

def createFee (today : Date) (data : FeeCreateRequest) : Except FeeError (List FeeRow) :=
  if data.start < today.firstOfMonth then .error startInThePast
  else if ∃ r ∈ rows, r.start=data.start then .error startTaken
  else .ok (rows ++ [data.row])

/-- The row is found by its start and deleted by its key, which is the start. -/
def deleteFee (startStr : PyText) : Except FeeError (List FeeRow) :=
  match Date.fromIsoformat (startStr.take 10) with
  | .error e => .error (.date e)
  | .ok start =>
    if ∃ r ∈ rows, r.start=start ∧ r.isProtected=false then .ok (rows.filter fun r => r.start ≠ start)
    else .error feeMissing

end Operations

inductive FeeOp
  | createFee (today : Date) (data : FeeCreateRequest)
  | deleteFee (startStr : PyText)

def FeeOp.perform (rows : List FeeRow) : FeeOp → Except FeeError (List FeeRow)
  | .createFee today data => P4x.createFee rows today data
  | .deleteFee startStr => P4x.deleteFee rows startStr

/-- A refused request changes nothing. -/
def feeMachine : Machine (List FeeRow) FeeOp where
  step rows op := some (match op.perform rows with
    | .ok rows' => rows'
    | .error _ => rows)

/-- The finance tables with the configured steps. -/
def Store.withFees (s : Store) (rows : List FeeRow) : Store :=
  { s with fees := rows.map (·.toP4xFee) }

/-! ### The fee of a month -/

/-- The starts are the key, and what the table checks. -/
structure FeeRowsValid (rows : List FeeRow) : Prop where
  distinct : (rows.map (·.start)).Nodup
  first_of_month : ∀ r ∈ rows, r.start.day=1
  nonneg : ∀ r ∈ rows, 0 ≤ r.fee

section Lookup
variable {s : Store} {rows : List FeeRow}

lemma distinct_withFees (h : FeeRowsValid rows) : ((s.withFees rows).fees.map (·.start)).Nodup := by
  change ((rows.map (·.toP4xFee)).map _).Nodup
  rw [List.map_map]
  exact h.distinct

/-- The step in force in a month. -/
def Latest (rows : List FeeRow) (month : Date) (r : FeeRow) : Prop :=
  r ∈ rows ∧ r.start ≤ month ∧ ∀ g ∈ rows, g.start ≤ month → g.start ≤ r.start

lemma feeForMonth_latest (h : FeeRowsValid rows) {date : Date} {r : FeeRow}
    (hr : Latest rows date.firstOfMonth r) : feeForMonth (s.withFees rows) date=r.fee := by
  obtain ⟨hmem,hstart,hlatest⟩ := hr
  refine (feeInForce _ (distinct_withFees h) date).latest r.toP4xFee
    (List.mem_map_of_mem hmem) hstart ?_
  intro g hg hle
  obtain ⟨g',hg',rfl⟩ := List.mem_map.mp hg
  exact hlatest g' hg' hle

lemma feeForMonth_before (h : FeeRowsValid rows) {date : Date}
    (hafter : ∀ r ∈ rows, date.firstOfMonth < r.start) : feeForMonth (s.withFees rows) date=0 := by
  refine (feeInForce _ (distinct_withFees h) date).before ?_
  intro g hg
  obtain ⟨g',hg',rfl⟩ := List.mem_map.mp hg
  exact hafter g' hg'

lemma latest_or_before (rows : List FeeRow) (month : Date) :
    (∃ r, Latest rows month r) ∨ ∀ r ∈ rows, month < r.start := by
  induction rows with
  | nil => exact .inr nofun
  | cons r rows ih =>
    by_cases hr : r.start ≤ month
    · obtain ⟨g,hg,hgm,hlatest⟩ | hafter := ih
      · obtain hle | hle := le_total r.start g.start
        · refine .inl ⟨g,List.mem_cons_of_mem r hg,hgm,?_⟩
          intro f hf hfm
          obtain rfl | hf := List.mem_cons.mp hf
          · exact hle
          · exact hlatest f hf hfm
        · refine .inl ⟨r,List.mem_cons_self,hr,?_⟩
          intro f hf hfm
          obtain rfl | hf := List.mem_cons.mp hf
          · exact le_rfl
          · exact (hlatest f hf hfm).trans hle
      · refine .inl ⟨r,List.mem_cons_self,hr,?_⟩
        intro f hf hfm
        obtain rfl | hf := List.mem_cons.mp hf
        · exact le_rfl
        · exact absurd hfm (not_le.mpr (hafter f hf))
    · obtain ⟨g,hg,hgm,hlatest⟩ | hafter := ih
      · refine .inl ⟨g,List.mem_cons_of_mem r hg,hgm,?_⟩
        intro f hf hfm
        obtain rfl | hf := List.mem_cons.mp hf
        · exact absurd hfm hr
        · exact hlatest f hf hfm
      · refine .inr ?_
        intro f hf
        obtain rfl | hf := List.mem_cons.mp hf
        · exact not_le.mp hr
        · exact hafter f hf

/-- Configurations that have the same steps up to a month have the same fee in it. -/
lemma feeForMonth_congr {rows' : List FeeRow} (h : FeeRowsValid rows) (h' : FeeRowsValid rows')
    {date : Date} (hsame : ∀ r, r.start ≤ date.firstOfMonth → (r ∈ rows' ↔ r ∈ rows)) :
    feeForMonth (s.withFees rows') date=feeForMonth (s.withFees rows) date := by
  obtain ⟨r,hr,hle,hlatest⟩ | hafter := latest_or_before rows date.firstOfMonth
  · have hr' : Latest rows' date.firstOfMonth r := by
      refine ⟨(hsame r hle).mpr hr,hle,?_⟩
      intro g hg hgm
      exact hlatest g ((hsame g hgm).mp hg) hgm
    rw [feeForMonth_latest h ⟨hr,hle,hlatest⟩,feeForMonth_latest h' hr']
  · have hafter' : ∀ r ∈ rows', date.firstOfMonth < r.start := by
      intro r hr
      by_contra hle
      exact hle (hafter r ((hsame r (not_lt.mp hle)).mp hr))
    rw [feeForMonth_before h hafter,feeForMonth_before h' hafter']

end Lookup

/-! ### One request -/

section Requests
variable {s : Store} {rows rows' : List FeeRow} {today : Date} {data : FeeCreateRequest}

lemma createFee_eq_ok_iff : createFee rows today data=.ok rows' ↔
    today.firstOfMonth ≤ data.start ∧ (∀ r ∈ rows, r.start ≠ data.start) ∧
      rows'=rows ++ [data.row] := by
  unfold createFee
  split_ifs with hpast htaken
  · simp [not_le.mpr hpast]
  · simpa using fun _ => fun hnone => absurd hnone (by simpa using htaken)
  · simp only [Except.ok.injEq,eq_comm]
    exact ⟨fun h => ⟨not_lt.mp hpast,by simpa using htaken,h⟩,fun h => h.2.2⟩

lemma deleteFee_eq_ok_iff {startStr : PyText} : deleteFee rows startStr=.ok rows' ↔
    ∃ start, Date.fromIsoformat (startStr.take 10)=.ok start ∧
      (∃ r ∈ rows, r.start=start ∧ r.isProtected=false) ∧
      rows'=rows.filter fun r => r.start ≠ start := by
  unfold deleteFee
  cases hstart : Date.fromIsoformat (startStr.take 10) with
  | error e => simp
  | ok start =>
    dsimp only
    constructor
    · intro h
      split_ifs at h with hfound
      exact ⟨start,rfl,hfound,(Except.ok.inj h).symm⟩
    · rintro ⟨start',hsame,hfound,hrows⟩
      cases hsame
      rw [if_pos hfound,hrows]

lemma createFee_valid (h : FeeRowsValid rows) (hcreate : createFee rows today data=.ok rows') :
    FeeRowsValid rows' := by
  obtain ⟨-,hnew,rfl⟩ := createFee_eq_ok_iff.mp hcreate
  constructor
  · rw [List.map_append,List.nodup_append]
    refine ⟨h.distinct,List.nodup_singleton _,?_⟩
    intro a ha b hb heq
    obtain ⟨r,hr,rfl⟩ := List.mem_map.mp ha
    rw [List.mem_singleton.mp hb] at heq
    exact hnew r hr heq
  · intro r hr
    obtain hr | hr := List.mem_append.mp hr
    · exact h.first_of_month r hr
    · rw [List.mem_singleton.mp hr]
      rfl
  · intro r hr
    obtain hr | hr := List.mem_append.mp hr
    · exact h.nonneg r hr
    · rw [List.mem_singleton.mp hr]
      exact le_trans (by decide) data.fee_bounds.1

lemma deleteFee_valid {startStr : PyText} (h : FeeRowsValid rows)
    (hdelete : deleteFee rows startStr=.ok rows') : FeeRowsValid rows' := by
  obtain ⟨start,-,-,rfl⟩ := deleteFee_eq_ok_iff.mp hdelete
  exact ⟨h.distinct.sublist (List.filter_sublist.map _),
    fun r hr => h.first_of_month r (List.mem_of_mem_filter hr),
    fun r hr => h.nonneg r (List.mem_of_mem_filter hr)⟩

/-- The new step is in force from its start to the next one, and no other month is changed. -/
lemma feeForMonth_create (h : FeeRowsValid rows) (hcreate : createFee rows today data=.ok rows')
    (date : Date) : feeForMonth (s.withFees rows') date=
      if data.start ≤ date.firstOfMonth ∧ ∀ g ∈ rows, g.start ≤ date.firstOfMonth → g.start < data.start
      then data.fee else feeForMonth (s.withFees rows) date := by
  have h' := createFee_valid h hcreate
  obtain ⟨-,hnew,rfl⟩ := createFee_eq_ok_iff.mp hcreate
  have hmem : ∀ r, r ∈ rows ++ [data.row] ↔ r ∈ rows ∨ r=data.row := by simp
  split_ifs with hforce
  · obtain ⟨hstart,hlater⟩ := hforce
    have hlatest : Latest (rows ++ [data.row]) date.firstOfMonth data.row := by
      refine ⟨(hmem _).mpr (.inr rfl),hstart,?_⟩
      intro g hg hle
      obtain hg | rfl := (hmem g).mp hg
      · exact (hlater g hg hle).le
      · exact le_rfl
    exact feeForMonth_latest h' hlatest
  · by_cases hstart : data.start ≤ date.firstOfMonth
    · -- a step after the new one has started already
      obtain ⟨g,hg,hgm,hge⟩ : ∃ g ∈ rows, g.start ≤ date.firstOfMonth ∧ data.start ≤ g.start := by
        by_contra hnone
        push Not at hnone
        exact hforce ⟨hstart,hnone⟩
      obtain ⟨r,hr,hrm,hlatest⟩ | hafter := latest_or_before rows date.firstOfMonth
      · have hlatest' : Latest (rows ++ [data.row]) date.firstOfMonth r := by
          refine ⟨(hmem r).mpr (.inl hr),hrm,?_⟩
          intro f hf hfm
          obtain hf | rfl := (hmem f).mp hf
          · exact hlatest f hf hfm
          · exact hge.trans (hlatest g hg hgm)
        rw [feeForMonth_latest h' hlatest',feeForMonth_latest h ⟨hr,hrm,hlatest⟩]
      · exact absurd hgm (not_le.mpr (hafter g hg))
    · refine feeForMonth_congr h h' ?_
      intro r hr
      rw [hmem]
      refine or_iff_left ?_
      intro heq
      rw [heq] at hr
      exact hstart hr

/-- Deleting the step that was just added, by the start that is shown, takes it back. -/
lemma deleteFee_created (hcreate : createFee rows today data=.ok rows') :
    deleteFee rows' data.start.isoformat=.ok rows := by
  obtain ⟨-,hnew,rfl⟩ := createFee_eq_ok_iff.mp hcreate
  have htake : data.start.isoformat.take 10=data.start.isoformat :=
    List.take_of_length_le (by rw [Date.length_isoformat])
  refine deleteFee_eq_ok_iff.mpr ⟨data.start,by rw [htake,Date.fromIsoformat_isoformat],?_,?_⟩
  · exact ⟨data.row,List.mem_append_right _ (List.mem_singleton_self _),rfl,rfl⟩
  · have hold : (rows.filter fun r => r.start ≠ data.start)=rows := by
      rw [List.filter_eq_self]
      exact fun r hr => decide_eq_true (hnew r hr)
    have hrow : ([data.row].filter fun r => r.start ≠ data.start)=[] := by
      rw [List.filter_eq_nil_iff]
      intro r hr
      rw [List.mem_singleton.mp hr]
      simp [FeeCreateRequest.row]
    rw [List.filter_append,hold,hrow,List.append_nil]

/-- Protected steps are neither deleted nor added. -/
lemma perform_protected {op : FeeOp} (h : FeeRowsValid rows) (hop : op.perform rows=.ok rows')
    {r : FeeRow} (hr : r.isProtected=true) : r ∈ rows' ↔ r ∈ rows := by
  cases op with
  | createFee today data =>
    obtain ⟨-,-,rfl⟩ := createFee_eq_ok_iff.mp hop
    rw [List.mem_append,List.mem_singleton]
    refine or_iff_left ?_
    intro heq
    rw [heq] at hr
    cases hr
  | deleteFee startStr =>
    obtain ⟨start,-,⟨f,hf,hstart,hopen⟩,rfl⟩ := deleteFee_eq_ok_iff.mp hop
    rw [List.mem_filter,and_iff_left_iff_imp]
    intro hmem
    refine decide_eq_true ?_
    intro heq
    have hsame : r=f := List.inj_on_of_nodup_map h.distinct hmem hf (heq.trans hstart.symm)
    rw [hsame,hopen] at hr
    cases hr

lemma perform_valid {op : FeeOp} (h : FeeRowsValid rows) (hop : op.perform rows=.ok rows') :
    FeeRowsValid rows' := by
  cases op with
  | createFee today data => exact createFee_valid h hop
  | deleteFee startStr => exact deleteFee_valid h hop

end Requests

/-! ### Every configuration -/

section Runs
variable {rows₀ rows rows' : List FeeRow} {ok : List FeeRow → FeeOp → Prop} {op : FeeOp}

lemma feeMachine_step (h : feeMachine.step rows op=some rows') :
    rows'=rows ∨ op.perform rows=.ok rows' := by
  cases h
  cases hop : op.perform rows with
  | error e => exact .inl rfl
  | ok rows' => exact .inr rfl

lemma feeMachine_step_of_ok (hop : op.perform rows=.ok rows') :
    feeMachine.step rows op=some rows' := by
  simp only [feeMachine,hop]

lemma reaches_valid (h : feeMachine.Reaches ok rows₀ rows) (h₀ : FeeRowsValid rows₀) :
    FeeRowsValid rows := by
  refine h.invariant h₀ ?_
  intro v op v' hv _ hstep
  obtain rfl | hop := feeMachine_step hstep
  · exact hv
  · exact perform_valid hv hop

/-- In every configuration that is reached the steps have different starts, each the first of a month,
so the bisection of the balances and the query of a month agree; the protected steps are the first ones.
A step is added exactly when its month is not past and not taken. It changes the fee from its start to
the next step only, and deleting it brings the configuration back. -/
theorem fee_configuration (h₀ : FeeRowsValid rows₀)
    (h : feeMachine.Reaches Machine.Any rows₀ rows) :
    FeeRowsValid rows ∧
    (∀ r : FeeRow, r.isProtected=true → (r ∈ rows ↔ r ∈ rows₀)) ∧
    (∀ s date, feeAt (feeStepFunction (Store.withFees s rows)).1 (feeStepFunction (s.withFees rows)).2
      date=feeForMonth (s.withFees rows) date) ∧
    (∀ today data, (∃ rows', createFee rows today data=.ok rows') ↔
      today.firstOfMonth ≤ data.start ∧ ∀ r ∈ rows, r.start ≠ data.start) ∧
    (∀ today data rows', createFee rows today data=.ok rows' →
      deleteFee rows' data.start.isoformat=.ok rows ∧
      ∀ s date, feeForMonth (Store.withFees s rows') date=
        if data.start ≤ date.firstOfMonth ∧
          ∀ g ∈ rows, g.start ≤ date.firstOfMonth → g.start < data.start
        then data.fee else feeForMonth (s.withFees rows) date) := by
  have hvalid := reaches_valid h h₀
  refine ⟨hvalid,?_,?_,?_,?_⟩
  · intro r hr
    refine h.relates (I := FeeRowsValid) (R := fun a b => (r ∈ b ↔ r ∈ a)) h₀ ?_ (fun _ => Iff.rfl)
      (fun _ _ _ hab hbc => hbc.trans hab) ?_
    · intro v op v' hv _ hstep
      obtain rfl | hop := feeMachine_step hstep
      · exact hv
      · exact perform_valid hv hop
    · intro v op v' hv _ hstep
      obtain rfl | hop := feeMachine_step hstep
      · exact Iff.rfl
      · exact perform_protected hv hop hr
  · exact fun s date => feeAt_eq_feeForMonth _ (distinct_withFees hvalid) date
  · intro today data
    simp only [createFee_eq_ok_iff]
    exact ⟨fun ⟨_,hpast,hnew,_⟩ => ⟨hpast,hnew⟩,fun ⟨hpast,hnew⟩ => ⟨_,hpast,hnew,rfl⟩⟩
  · intro today data rows' hcreate
    exact ⟨deleteFee_created hcreate,fun s => feeForMonth_create hvalid hcreate⟩

/-- The step of the first fee, which nobody deletes. -/
def firstFee : FeeRow := ⟨⟨Date.of 2015 1 1,1500⟩,true⟩

def juneFee : FeeCreateRequest :=
  ⟨2024,6,2000,by decide,by decide,by decide⟩

lemma firstFee_valid : FeeRowsValid [firstFee] where
  distinct := List.nodup_singleton _
  first_of_month r hr := by
    rw [List.mem_singleton.mp hr]
    rfl
  nonneg r hr := by
    rw [List.mem_singleton.mp hr]
    decide

lemma create_juneFee : (FeeOp.createFee (Date.of 2024 5 10) juneFee).perform [firstFee]=
    .ok [firstFee,juneFee.row] := by
  refine createFee_eq_ok_iff.mpr ⟨by decide,?_,rfl⟩
  intro r hr
  rw [List.mem_singleton.mp hr]
  decide

/-- The fee of June is added in May, once. -/
theorem fee_configuration_june : firstFee ∈ [firstFee,juneFee.row] ∧
    ¬ ∃ rows', createFee [firstFee,juneFee.row] (Date.of 2024 5 10) juneFee=.ok rows' := by
  have hreach : feeMachine.Reaches Machine.Any [firstFee] [firstFee,juneFee.row] :=
    .next .refl trivial (feeMachine_step_of_ok create_juneFee)
  have hlaw := fee_configuration firstFee_valid hreach
  refine ⟨(hlaw.2.1 firstFee rfl).mpr (List.mem_singleton_self _),?_⟩
  rw [hlaw.2.2.2.1 (Date.of 2024 5 10) juneFee]
  rintro ⟨-,hnew⟩
  exact hnew juneFee.row (List.mem_cons_of_mem _ (List.mem_singleton_self _)) rfl

/-- A step that is added from a month on, or a deletion of one that starts from it on. -/
def FeeOp.From (month : Date) : FeeOp → Prop
  | .createFee today _ => month ≤ today.firstOfMonth
  | .deleteFee startStr => ∀ start, Date.fromIsoformat (startStr.take 10)=.ok start → month ≤ start

/-- The steps before a month. -/
def SameBefore (month : Date) (rows rows' : List FeeRow) : Prop :=
  ∀ r : FeeRow, r.start < month → (r ∈ rows' ↔ r ∈ rows)

lemma perform_sameBefore {month : Date} (hfrom : op.From month) (hop : op.perform rows=.ok rows') :
    SameBefore month rows rows' := by
  intro r hr
  cases op with
  | createFee today data =>
    obtain ⟨hpast,-,rfl⟩ := createFee_eq_ok_iff.mp hop
    rw [List.mem_append,List.mem_singleton]
    refine or_iff_left ?_
    intro heq
    rw [heq] at hr
    exact absurd (hfrom.trans hpast) (not_le.mpr hr)
  | deleteFee startStr =>
    obtain ⟨start,hstart,-,rfl⟩ := deleteFee_eq_ok_iff.mp hop
    rw [List.mem_filter,and_iff_left_iff_imp]
    intro _
    refine decide_eq_true ?_
    intro heq
    exact absurd (heq ▸ hfrom start hstart) (not_le.mpr hr)

/-- While steps are added in a month or later, and none that began before it is deleted, the fees of
the earlier months stay as they are, and so does what is owed for any range of them. -/
theorem past_fees_kept {month : Date} (h₀ : FeeRowsValid rows₀)
    (h : feeMachine.Reaches (fun _ op => op.From month) rows₀ rows) (s : Store) :
    (∀ date : Date, date.firstOfMonth < month →
      feeForMonth (s.withFees rows) date=feeForMonth (s.withFees rows₀) date) ∧
    ∀ a e : Date, a.day=1 → e < month →
      sumFeesForPeriod (feeStepFunction (s.withFees rows)).1 (feeStepFunction (s.withFees rows)).2 a
        (countMonths a e)=
      sumFeesForPeriod (feeStepFunction (s.withFees rows₀)).1 (feeStepFunction (s.withFees rows₀)).2 a
        (countMonths a e) := by
  have hvalid := reaches_valid h h₀
  have hsame : SameBefore month rows₀ rows := by
    refine h.relates (I := fun _ => True) (R := SameBefore month) trivial (fun _ _ _ _ _ _ => trivial)
      (fun _ _ _ => Iff.rfl) (fun _ _ _ hab hbc r hr => (hbc r hr).trans (hab r hr)) ?_
    intro v op v' _ hfrom hstep
    obtain rfl | hop := feeMachine_step hstep
    · exact fun _ _ => Iff.rfl
    · exact perform_sameBefore hfrom hop
  have hfees : ∀ date : Date, date.firstOfMonth < month →
      feeForMonth (s.withFees rows) date=feeForMonth (s.withFees rows₀) date :=
    fun date hdate => feeForMonth_congr h₀ hvalid fun r hr => hsame r (hr.trans_lt hdate)
  refine ⟨hfees,?_⟩
  intro a e ha he
  have hmonths : (rangeMonths a e).map (feeAt (feeStepFunction (s.withFees rows)).1
      (feeStepFunction (s.withFees rows)).2)=(rangeMonths a e).map
        (feeAt (feeStepFunction (s.withFees rows₀)).1 (feeStepFunction (s.withFees rows₀)).2) := by
    apply List.map_congr_left
    intro date hdate
    obtain ⟨-,-,hle⟩ := (mem_rangeMonths ha date).mp hdate
    rw [feeAt_eq_feeForMonth _ (distinct_withFees hvalid),feeAt_eq_feeForMonth _ (distinct_withFees h₀)]
    exact hfees date ((date.firstOfMonth_le.trans hle).trans_lt he)
  simp only [sumFeesForPeriod,monthsFrom_countMonths]
  exact congrArg (fun xs : List Cents => Except.ok xs.sum) hmonths

theorem past_fees_kept_june :
    let s : Store := ⟨[],[],[],[],[],[],[],[],[],0⟩
    feeForMonth (s.withFees [firstFee,juneFee.row]) (Date.of 2024 4 30)=
      feeForMonth (s.withFees [firstFee]) (Date.of 2024 4 30) := by
  intro s
  have hreach : feeMachine.Reaches (fun _ op => op.From (Date.of 2024 5 1)) [firstFee]
      [firstFee,juneFee.row] :=
    .next .refl (show Date.of 2024 5 1 ≤ _ by decide) (feeMachine_step_of_ok create_juneFee)
  exact (past_fees_kept firstFee_valid hreach s).1 (Date.of 2024 4 30) (by decide)

end Runs
end VbApi.P4x
