import VbApi.P4x.GeorgeJson

/-! The two readings of a bank date: the parser reads the first ten characters, the hash reads the text
again with its clock time and offset. They agree on the day; the rest is read by the hash alone. -/
namespace VbApi.P4x
open VbApi.Foundations Date

/-! ### What the pattern matches -/

lemma takeDecimals_spec {n : ℕ} {s a r : PyText} (h : takeDecimals n s=some (a,r)) :
    s=a ++ r ∧ a.length=n ∧ ∀ c ∈ a, (digit? c).isSome := by
  induction n generalizing s a with
  | zero =>
    cases h
    exact ⟨rfl,rfl,by simp⟩
  | succ n ih =>
    cases s with
    | nil => cases h
    | cons c s =>
      rw [takeDecimals] at h
      split_ifs at h with hc
      obtain ⟨⟨b,r'⟩,hb,heq⟩ := Option.map_eq_some_iff.mp h
      cases heq
      obtain ⟨rfl,hlen,hdigits⟩ := ih hb
      refine ⟨rfl,by simp [hlen],?_⟩
      intro d hd
      cases hd with
      | head => exact hc
      | tail _ hd => exact hdigits d hd

lemma takeChar_spec {c : Char} {s r : PyText} (h : takeChar c s=some r) : s=codePoint c::r := by
  cases s with
  | nil => cases h
  | cons d s =>
    rw [takeChar] at h
    split_ifs at h with hd
    cases h
    rw [hd]

/-- Three numbers with separators, the last two of two digits. -/
structure TripleOf (width : ℕ) (separator : Char) (t a b c : PyText) : Prop where
  eq : t=a ++ codePoint separator::(b ++ codePoint separator::c)
  lengths : a.length=width ∧ b.length=2 ∧ c.length=2
  digits : ∀ d ∈ a ++ b ++ c, (digit? d).isSome

lemma takeTriple_spec {width : ℕ} {separator : Char} {s t r : PyText}
    (h : takeTriple width separator s=some (t,r)) :
    s=t ++ r ∧ ∃ a b c, TripleOf width separator t a b c := by
  simp only [takeTriple,Option.bind_eq_bind,Option.bind_eq_some_iff] at h
  obtain ⟨⟨a,s₁⟩,ha,s₂,hsep₁,⟨b,s₃⟩,hb,s₄,hsep₂,⟨c,s₅⟩,hc,heq⟩ := h
  cases heq
  obtain ⟨rfl,hlena,hdiga⟩ := takeDecimals_spec ha
  obtain rfl := takeChar_spec hsep₁
  obtain ⟨rfl,hlenb,hdigb⟩ := takeDecimals_spec hb
  obtain rfl := takeChar_spec hsep₂
  obtain ⟨rfl,hlenc,hdigc⟩ := takeDecimals_spec hc
  refine ⟨by simp,a,b,c,by simp,⟨hlena,hlenb,hlenc⟩,?_⟩
  intro d hd
  simp only [List.mem_append] at hd
  obtain (hd | hd) | hd := hd
  · exact hdiga d hd
  · exact hdigb d hd
  · exact hdigc d hd

lemma carbonMatch_date {s : PyText} {m : CarbonMatch} (h : carbonMatch s=some m) :
    ∃ r, takeTriple 4 '-' s=some (m.date,r) := by
  simp only [carbonMatch,Option.bind_eq_bind,Option.bind_eq_some_iff] at h
  obtain ⟨⟨date,s₁⟩,hdate,_,_,_,_,hrest⟩ := h
  split at hrest
  · simp only [Option.bind_some,Option.bind_eq_some_iff] at hrest
    obtain ⟨_,_,_,_,heq⟩ := hrest
    cases heq
    exact ⟨s₁,hdate⟩
  · simp only [Option.bind_some,Option.bind_eq_some_iff] at hrest
    obtain ⟨_,_,_,_,heq⟩ := hrest
    cases heq
    exact ⟨s₁,hdate⟩
  · cases hrest

/-- The numbers of a triple of ASCII digits. -/
lemma TripleOf.asciiTriple {width : ℕ} {separator : Char} {t a b c : PyText}
    (h : TripleOf width separator t a b c) (hsep : digit? (codePoint separator)=none)
    (hascii : ∀ d ∈ a ++ b ++ c, (asciiDigit? d).isSome) :
    asciiTriple t=some (decimalValue a,decimalValue b,decimalValue c) := by
  have hnone : asciiDigit? (codePoint separator)=none := by
    cases hd : asciiDigit? (codePoint separator) with
    | none => rfl
    | some v =>
      rw [digit?_of_ascii hd] at hsep
      cases hsep
  have hkeep : ∀ d ∈ a ++ b ++ c, ((asciiDigit? d).isNone && (digit? d).isNone)=false := by
    intro d hd
    obtain ⟨v,hv⟩ := Option.isSome_iff_exists.mp (hascii d hd)
    simp [hv]
  have ha : ∀ d ∈ a, ((asciiDigit? d).isNone && (digit? d).isNone)=false :=
    fun d hd => hkeep d (by simp [hd])
  have hb : ∀ d ∈ b, ((asciiDigit? d).isNone && (digit? d).isNone)=false :=
    fun d hd => hkeep d (by simp [hd])
  have hc : ∀ d ∈ c, ((asciiDigit? d).isNone && (digit? d).isNone)=false :=
    fun d hd => hkeep d (by simp [hd])
  have hcut : ((asciiDigit? (codePoint separator)).isNone &&
      (digit? (codePoint separator)).isNone)=true := by
    simp [hnone,hsep]
  have hsplit : t.splitOnP (fun c => (asciiDigit? c).isNone && (digit? c).isNone)=[a,b,c] := by
    rw [h.eq,List.splitOnP_append_cons_of_forall_mem ha _ hcut,
      List.splitOnP_append_cons_of_forall_mem hb _ hcut,List.splitOnP_eq_singleton hc]
  have hall : (a ++ b ++ c).all (fun d => (asciiDigit? d).isSome)=true := by
    rw [List.all_eq_true]
    exact hascii
  rw [P4x.asciiTriple,hsplit]
  simp only [hall,if_true]

/-! ### The day that the parser reads -/

/-- `parse_digits` reads exactly ASCII digits, with their value. -/
lemma takeDigits_append {n acc v : ℕ} {a r s : PyText} (hlen : a.length=n)
    (h : takeDigits n acc (a ++ r)=some (v,s)) :
    s=r ∧ (∀ c ∈ a, (asciiDigit? c).isSome) ∧
      v=a.foldl (fun n c => n*10+(digit? c).getD 0) acc := by
  induction a generalizing n acc with
  | nil =>
    subst hlen
    cases h
    exact ⟨rfl,by simp,rfl⟩
  | cons c a ih =>
    subst hlen
    rw [List.length_cons,List.cons_append,takeDigits] at h
    obtain ⟨d,hd,h⟩ := Option.bind_eq_some_iff.mp h
    obtain ⟨rfl,hascii,hv⟩ := ih rfl h
    refine ⟨rfl,?_,?_⟩
    · intro e he
      cases he with
      | head => simp [hd]
      | tail _ he => exact hascii e he
    · rw [hv,List.foldl_cons,digit?_of_ascii hd]
      rfl

/-- `date.fromisoformat` on a text with dashes reads its three numbers. -/
lemma TripleOf.asciiTriple_of_fromIsoformat {t a b c : PyText} {d : Date}
    (h : TripleOf 4 '-' t a b c) (hparsed : fromIsoformat t=.ok d) :
    P4x.asciiTriple t=some (d.year,d.month,d.day) := by
  obtain ⟨hlena,hlenb,hlenc⟩ := h.lengths
  have hweek : (b ++ codePoint '-'::c).head? ≠ some (codePoint 'W') := by
    cases b with
    | nil => cases hlenb
    | cons e b =>
      intro hhead
      have hdigit := h.digits e (by simp)
      rw [Option.some.inj hhead] at hdigit
      revert hdigit
      decide
  rw [fromIsoformat,h.eq] at hparsed
  dsimp only at hparsed
  split_ifs at hparsed
  cases hyear : takeDigits 4 0 (a ++ codePoint '-'::(b ++ codePoint '-'::c)) with
  | none =>
    rw [hyear] at hparsed
    cases hparsed
  | some y =>
    obtain ⟨year,s₁⟩ := y
    obtain ⟨rfl,hasciia,hvaluea⟩ := takeDigits_append hlena hyear
    rw [hyear] at hparsed
    simp only [List.head?_cons,if_true,List.tail_cons,if_neg hweek] at hparsed
    cases hmonth : takeDigits 2 0 (b ++ codePoint '-'::c) with
    | none =>
      rw [hmonth] at hparsed
      cases hparsed
    | some y =>
      obtain ⟨month,s₂⟩ := y
      obtain ⟨rfl,hasciib,hvalueb⟩ := takeDigits_append hlenb hmonth
      rw [hmonth] at hparsed
      simp only [takeDash,decide_true,if_true,Option.bind_some] at hparsed
      cases hday : takeDigits 2 0 c with
      | none =>
        rw [hday] at hparsed
        cases hparsed
      | some y =>
        obtain ⟨day,s₃⟩ := y
        rw [hday] at hparsed
        rw [← List.append_nil c] at hday
        obtain ⟨-,hasciic,hvaluec⟩ := takeDigits_append hlenc hday
        obtain ⟨hy,hm,hd⟩ := ofParts_eq_ok hparsed
        rw [h.asciiTriple (by decide),hy,hm,hd,hvaluea,hvalueb,hvaluec]
        · rfl
        · intro e he
          simp only [List.mem_append] at he
          obtain (he | he) | he := he
          · exact hasciia e he
          · exact hasciib e he
          · exact hasciic e he

/-- What the parser accepts at the start of a matched text is the matched day. -/
theorem asciiTriple_of_parsed {s : PyText} {d : Date} {m : CarbonMatch}
    (hparsed : fromIsoformat (s.take 10)=.ok d) (hmatch : carbonMatch s=some m) :
    asciiTriple m.date=some (d.year,d.month,d.day) := by
  obtain ⟨r,htriple⟩ := carbonMatch_date hmatch
  obtain ⟨hs,a,b,c,hparts⟩ := takeTriple_spec htriple
  have hlen : m.date.length=10 := by
    simp [hparts.eq,hparts.lengths]
  have htake : s.take 10=m.date := by
    rw [hs,List.take_append_of_le_length hlen.ge,List.take_of_length_le hlen.le]
  rw [htake] at hparsed
  exact hparts.asciiTriple_of_fromIsoformat hparsed

/-! ### The clock time and the offset -/

/-- The offset east of UTC, in seconds. -/
def CarbonMatch.offset (m : CarbonMatch) : ℤ :=
  if m.negative then -((m.hours*60+m.minutes : ℕ)*60) else (m.hours*60+m.minutes : ℕ)*60

/-- A clock time; 24:00:00 ends the day. -/
def ClockTime (hour minute second : ℕ) : Prop :=
  hour < 24 ∧ minute < 60 ∧ second < 60 ∨ hour=24 ∧ minute=0 ∧ second=0

/-- A matched time on a day: a clock time in ASCII digits, an offset below a day, and a moment that
lies in the calendar also in UTC. -/
def MatchFits (d : Date) (m : CarbonMatch) : Prop :=
  m.hours*60+m.minutes < 1440 ∧ ∃ hour minute second, asciiTriple m.time=some (hour,minute,second) ∧
    ClockTime hour minute second ∧
    (d=minDate → m.offset ≤ (hour*3600+minute*60+second : ℕ)) ∧
    (d=maxDate → hour < 24 ∧ (hour*3600+minute*60+second : ℕ)-m.offset < 86400)

/-- A text that does not match the pattern has no time to read. -/
def TimeFits (d : Date) (s : PyText) : Prop := ∀ m, carbonMatch (strip s)=some m → MatchFits d m

lemma CarbonMatch.offset_bounds {m : CarbonMatch} (h : m.hours*60+m.minutes < 1440) :
    -86400 < m.offset ∧ m.offset < 86400 := by
  rw [CarbonMatch.offset]
  split_ifs <;> omega

/-- The conversion stays in the calendar. -/
lemma toUtc_isOk_iff {moment : Moment} {offset : ℤ} :
    (∃ utc, toUtc moment offset=.ok utc) ↔ (moment.date=minDate → offset ≤ moment.second) ∧
      (moment.date=maxDate → moment.second-offset < 86400) := by
  have hpred := predDay_isOk_iff moment.date
  have hsucc := succDay_isOk_iff moment.date
  rw [toUtc]
  split_ifs with hneg hover
  · cases hday : moment.date.predDay with
    | ok e =>
      rw [hday] at hpred
      have hne := hpred.mp ⟨e,rfl⟩
      simp only [ok_bind,pure_eq_ok,Except.ok.injEq,exists_eq',true_iff]
      exact ⟨fun heq => absurd heq hne,fun _ => by omega⟩
    | error err =>
      rw [hday] at hpred
      have heq : moment.date=minDate := by
        by_contra hne
        obtain ⟨e,he⟩ := hpred.mpr hne
        cases he
      simp only [error_bind,reduceCtorEq,exists_false,false_iff]
      intro h
      have hle := h.1 heq
      omega
  · cases hday : moment.date.succDay with
    | ok e =>
      rw [hday] at hsucc
      have hne := hsucc.mp ⟨e,rfl⟩
      simp only [ok_bind,pure_eq_ok,Except.ok.injEq,exists_eq',true_iff]
      exact ⟨fun _ => by omega,fun heq => absurd heq hne⟩
    | error err =>
      rw [hday] at hsucc
      have heq : moment.date=maxDate := by
        by_contra hne
        obtain ⟨e,he⟩ := hsucc.mpr hne
        cases he
      simp only [error_bind,reduceCtorEq,exists_false,false_iff]
      intro h
      have hlt := h.2 heq
      omega
  · simp only [pure_eq_ok,Except.ok.injEq,exists_eq',true_iff]
    exact ⟨fun _ => by omega,fun _ => by omega⟩

/-- Reading the clock time; 24:00:00 needs a next day. -/
lemma readMoment_isOk_iff {d : Date} {date time : PyText} {hour minute second : ℕ}
    (hdate : asciiTriple date=some (d.year,d.month,d.day))
    (htime : asciiTriple time=some (hour,minute,second)) (moment : Moment) :
    readMoment date time=.ok moment ↔
      (hour < 24 ∧ minute < 60 ∧ second < 60 ∧ moment=⟨d,hour*3600+minute*60+second⟩) ∨
      (hour=24 ∧ minute=0 ∧ second=0 ∧ ∃ next, d.succDay=.ok next ∧ moment=⟨next,0⟩) := by
  rw [readMoment,hdate,htime]
  simp only [ofParts_ok,ok_bind]
  split_ifs with hend hclock
  · obtain ⟨rfl,rfl,rfl⟩ := hend
    cases d.succDay <;> simp [eq_comm]
  · have hne : ¬ (hour=24 ∧ minute=0 ∧ second=0 ∧ ∃ next, d.succDay=.ok next ∧ moment=⟨next,0⟩) :=
      fun h => hend ⟨h.1,h.2.1,h.2.2.1⟩
    simp only [hne,or_false,pure_eq_ok,Except.ok.injEq]
    constructor
    · intro h
      exact ⟨hclock.1,hclock.2.1,hclock.2.2,h.symm⟩
    · intro h
      exact h.2.2.2.symm
  · simp only [false_iff,not_or,not_and]
    constructor
    · intro h₁ h₂ h₃
      exact absurd ⟨h₁,h₂,h₃⟩ hclock
    · intro h₁ h₂ h₃
      exact absurd ⟨h₁,h₂,h₃⟩ hend

lemma dateToCarbonJson_isOk_iff_moment {b : Date} {s : PyText} {m : CarbonMatch}
    (hmatch : carbonMatch (strip s)=some m) :
    (∃ t, dateToCarbonJson b s=.ok t) ↔ m.hours*60+m.minutes < 1440 ∧
      ∃ moment, readMoment m.date m.time=.ok moment ∧ ∃ utc, toUtc moment m.offset=.ok utc := by
  rw [dateToCarbonJson,hmatch]
  simp only [bind_eq_ok_iff]
  constructor
  · intro h
    obtain ⟨t,moment,hmoment,h⟩ := h
    by_cases hoffset : 1440 ≤ m.hours*60+m.minutes
    · rw [if_pos hoffset] at h
      cases h
    · rw [if_neg hoffset] at h
      obtain ⟨utc,hutc,-⟩ := bind_eq_ok_iff.mp h
      exact ⟨not_le.mp hoffset,moment,hmoment,utc,hutc⟩
  · intro h
    obtain ⟨hoffset,moment,hmoment,utc,hutc⟩ := h
    refine ⟨utc.carbon,moment,hmoment,?_⟩
    rw [if_neg (not_le.mpr hoffset)]
    exact bind_eq_ok_iff.mpr ⟨utc,hutc,rfl⟩

lemma dateToCarbonJson_of_match {b d : Date} {s : PyText} {m : CarbonMatch}
    (hmatch : carbonMatch (strip s)=some m) (hdate : asciiTriple m.date=some (d.year,d.month,d.day)) :
    (∃ t, dateToCarbonJson b s=.ok t) ↔ MatchFits d m := by
  rw [dateToCarbonJson_isOk_iff_moment hmatch,MatchFits]
  apply and_congr_right
  intro hoffset
  have hbounds := CarbonMatch.offset_bounds hoffset
  cases htime : asciiTriple m.time with
  | none =>
    have hread : ∀ moment, readMoment m.date m.time ≠ .ok moment := by
      intro moment h
      rw [readMoment,hdate,htime] at h
      cases h
    simp [hread]
  | some clock =>
    obtain ⟨hour,minute,second⟩ := clock
    simp only [readMoment_isOk_iff hdate htime,Option.some.injEq,Prod.mk.injEq]
    constructor
    · intro h
      obtain ⟨moment,⟨hh,hm,hs,rfl⟩ | ⟨rfl,rfl,rfl,next,hnext,rfl⟩,hutc⟩ := h
      · rw [toUtc_isOk_iff] at hutc
        exact ⟨hour,minute,second,⟨rfl,rfl,rfl⟩,.inl ⟨hh,hm,hs⟩,hutc.1,fun hd => ⟨hh,hutc.2 hd⟩⟩
      · have hne := (succDay_isOk_iff d).mp ⟨next,hnext⟩
        refine ⟨24,0,0,⟨rfl,rfl,rfl⟩,.inr ⟨rfl,rfl,rfl⟩,fun _ => ?_,fun hd => absurd hd hne⟩
        push_cast
        omega
    · intro h
      obtain ⟨hour',minute',second',⟨rfl,rfl,rfl⟩,hclock,hmin,hmax⟩ := h
      obtain ⟨hh,hm,hs⟩ | ⟨rfl,rfl,rfl⟩ := hclock
      · refine ⟨_,.inl ⟨hh,hm,hs,rfl⟩,?_⟩
        rw [toUtc_isOk_iff]
        exact ⟨hmin,fun hd => (hmax hd).2⟩
      · have hne : d ≠ maxDate := fun hd => absurd (hmax hd).1 (lt_irrefl _)
        obtain ⟨next,hnext⟩ := (succDay_isOk_iff d).mpr hne
        refine ⟨_,.inr ⟨rfl,rfl,rfl,next,hnext,rfl⟩,?_⟩
        rw [toUtc_isOk_iff]
        refine ⟨fun hfirst => absurd hfirst (succDay_ne_minDate hnext),fun _ => ?_⟩
        push_cast
        omega

/-- The hash can read a text whose day is known exactly when its time fits. -/
theorem dateToCarbonJson_isOk_iff {b d : Date} {s : PyText}
    (hparsed : fromIsoformat ((strip s).take 10)=.ok d) :
    (∃ t, dateToCarbonJson b s=.ok t) ↔ TimeFits d s := by
  cases hmatch : carbonMatch (strip s) with
  | none =>
    have hfits : TimeFits d s := by
      intro m hm
      rw [hmatch] at hm
      cases hm
    rw [dateToCarbonJson,hmatch]
    exact ⟨fun _ => hfits,fun _ => ⟨_,rfl⟩⟩
  | some m =>
    rw [dateToCarbonJson_of_match hmatch (asciiTriple_of_parsed hparsed hmatch)]
    constructor
    · intro h m' hm'
      rw [hmatch,Option.some.injEq] at hm'
      exact hm' ▸ h
    · exact fun h => h m hmatch

end VbApi.P4x
