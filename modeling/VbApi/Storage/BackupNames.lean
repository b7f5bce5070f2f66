import VbApi.Foundations.IsoOrder
import VbApi.Foundations.ZoneRules
import VbApi.Storage.Backups

/-! The names that backups get: the local time in them is the one that is read back. -/
namespace VbApi.Storage
open VbApi.Foundations

/-- `APP_ENVIRONMENT`. -/
inductive AppEnvironment
  | development
  | test
  | qa
  | production
  deriving DecidableEq, Repr

def AppEnvironment.name : AppEnvironment → PyText
  | .development => text "development"
  | .test => text "test"
  | .qa => text "qa"
  | .production => text "production"

/-- `strftime("%Y-%m-%d_%H-%M-%S")`. -/
def strftime (clock : BackupTime) : PyText :=
  let date := (ofLex clock).1
  let second := (ofLex clock).2
  padded 4 date.year ++ text "-" ++ padded 2 date.month ++ text "-" ++ padded 2 date.day ++ text "_" ++
    padded 2 (second/3600) ++ text "-" ++ padded 2 (second/60%60) ++ text "-" ++ padded 2 (second%60)

/-- `backup_name` of `run_backup`. -/
def backupName (environment : AppEnvironment) (clock : BackupTime) (manual : Bool) : PyText :=
  environment.name ++ text "-" ++ strftime clock ++ (if manual then text "-manual" else []) ++
    text ".dump"

/-! ### Reading the fields -/

lemma upTo_append {mark : Char} {s : PyText} (h : ∀ c ∈ s, c ≠ codePoint mark) (rest : PyText) :
    upTo mark (s ++ codePoint mark::rest)=some (s,rest) := by
  have hall : ∀ c ∈ s, decide (c ≠ codePoint mark)=true := fun c hc => decide_eq_true (h c hc)
  have hmark : decide (codePoint mark ≠ codePoint mark)=false := decide_eq_false (not_not.mpr rfl)
  have hdrop : (s ++ codePoint mark::rest).dropWhile (· ≠ codePoint mark)=codePoint mark::rest := by
    rw [List.dropWhile_append_of_pos hall,List.dropWhile_cons_of_neg (by rw [hmark]; simp)]
  have htake : (s ++ codePoint mark::rest).takeWhile (· ≠ codePoint mark)=s := by
    rw [List.takeWhile_append_of_pos hall,List.takeWhile_cons_of_neg (by rw [hmark]; simp),
      List.append_nil]
  rw [upTo,hdrop,htake]

lemma yearField_padded {y : ℕ} (h : y < 10^(3+1)) : yearField (padded 4 y)=some y := by
  have hdigit : ∀ n, n < 10 → digit? (digitPoint n)=some n :=
    fun n hn => digit?_of_ascii (asciiDigit?_digitPoint hn)
  rw [padded_succ,padded_succ,padded_succ,padded_one (by omega)]
  simp only [List.cons_append,List.nil_append,yearField,hdigit _ (Nat.mod_lt _ (by norm_num : 0 < 10)),
    hdigit _ (by omega : y/10/10/10 < 10)]
  simp only [Option.pure_def,Option.bind_eq_bind,Option.bind_some,Option.some.injEq]
  omega

lemma monthField_padded {m : ℕ} (hpos : 1 ≤ m) (hle : m ≤ 12) : monthField (padded 2 m)=some m := by
  have hall : ∀ i : Fin 13, 1 ≤ i.val → monthField (padded 2 i.val)=some i.val := by decide +kernel
  exact hall ⟨m,by omega⟩ hpos

lemma dayField_padded {d : ℕ} (hpos : 1 ≤ d) (hle : d ≤ 31) : dayField (padded 2 d)=some d := by
  have hall : ∀ i : Fin 32, 1 ≤ i.val → dayField (padded 2 i.val)=some i.val := by decide +kernel
  exact hall ⟨d,by omega⟩ hpos

lemma hourField_padded {h : ℕ} (hlt : h < 24) : hourField (padded 2 h)=some h := by
  have hall : ∀ i : Fin 24, hourField (padded 2 i.val)=some i.val := by decide +kernel
  exact hall ⟨h,hlt⟩

lemma minuteField_padded {m : ℕ} (hlt : m < 60) : minuteField (padded 2 m)=some m := by
  have hall : ∀ i : Fin 60, minuteField (padded 2 i.val)=some i.val := by decide +kernel
  exact hall ⟨m,hlt⟩

lemma secondField_padded {s : ℕ} (hlt : s < 60) : secondField (padded 2 s)=some s := by
  have hall : ∀ i : Fin 60, secondField (padded 2 i.val)=some i.val := by decide +kernel
  exact hall ⟨s,hlt⟩

section Clock
variable {clock : BackupTime}

lemma length_strftime (h : (ofLex clock).2 < 86400) : (strftime clock).length=timestampLength := by
  have hhour : (ofLex clock).2/3600 < 10^(1+1) := by omega
  have hminute : (ofLex clock).2/60%60 < 10^(1+1) := by omega
  have hsecond : (ofLex clock).2%60 < 10^(1+1) := by omega
  simp only [strftime,List.length_append,length_padded (ofLex clock).1.year_lt,
    length_padded (ofLex clock).1.month_lt,length_padded (ofLex clock).1.day_lt,length_padded hhour,
    length_padded hminute,length_padded hsecond]
  rfl

/-- The text of a local time is read back as this time. -/
theorem strptime_strftime (h : (ofLex clock).2 < 86400) : strptime (strftime clock)=some clock := by
  obtain ⟨⟨date,second⟩,rfl⟩ := toLex.surjective clock
  rw [ofLex_toLex] at h
  have hshape : strftime (toLex (date,second))=padded 4 date.year ++ codePoint '-'::(padded 2 date.month ++
      codePoint '-'::(padded 2 date.day ++ codePoint '_'::(padded 2 (second/3600) ++
        codePoint '-'::(padded 2 (second/60%60) ++ codePoint '-'::padded 2 (second%60))))) := by
    simp only [strftime,ofLex_toLex,List.append_assoc]
    rfl
  have hno : ∀ width n, ∀ c ∈ padded width n, c ≠ codePoint '-' :=
    fun width n c hc => ne_of_mem_padded (by decide) hc
  have hno' : ∀ c ∈ padded 2 date.day, c ≠ codePoint '_' :=
    fun c hc => ne_of_mem_padded (by decide) hc
  have htotal : second/3600*3600+second/60%60*60+second%60=second := by omega
  simp only [strptime,hshape,upTo_append (hno _ _),upTo_append hno',Option.bind_eq_bind,
    Option.bind_some,yearField_padded date.year_lt,monthField_padded date.month_pos date.month_le,
    dayField_padded date.day_pos date.day_le_31,Date.ofParts_ok,Except.toOption,
    hourField_padded (by omega : second/3600 < 24),minuteField_padded (by omega : second/60%60 < 60),
    secondField_padded (by omega : second%60 < 60),htotal]
  exact if_pos (by omega)

lemma padded_append_lt {w m n : ℕ} {s t : PyText} (hn : n < 10^(w+1)) (h : m < n ∨ m=n ∧ s < t) :
    padded (w+1) m ++ s < padded (w+1) n ++ t := by
  rcases h with hlt | ⟨rfl,hst⟩
  · exact append_lt_append (padded_lt hlt hn) (by rw [length_padded (hlt.trans hn),length_padded hn]) _ _
  · exact append_lt_append_left _ hst

/-- The texts of local times sort as the times do. -/
theorem strftime_lt {clock' : BackupTime} (h : clock < clock') (hclock' : (ofLex clock').2 < 86400) :
    strftime clock < strftime clock' := by
  obtain ⟨⟨date,second⟩,rfl⟩ := toLex.surjective clock
  obtain ⟨⟨date',second'⟩,rfl⟩ := toLex.surjective clock'
  rw [ofLex_toLex] at hclock'
  have hiso : ∀ (d : Date) s, strftime (toLex (d,s))=d.isoformat ++ (text "_" ++ (padded 2 (s/3600) ++
      (text "-" ++ (padded 2 (s/60%60) ++ (text "-" ++ padded 2 (s%60)))))) := by
    intro d s
    simp only [strftime,Date.isoformat,ofLex_toLex,List.append_assoc]
  rw [hiso,hiso]
  rcases Prod.Lex.toLex_lt_toLex.mp h with hdate | ⟨heq,hsecond⟩
  · have hlength : date.isoformat.length=date'.isoformat.length := by
      rw [Date.length_isoformat,Date.length_isoformat]
    exact append_lt_append (Date.isoformat_lt hdate) hlength _ _
  · dsimp only at heq hsecond
    have hparts : second/3600 < second'/3600 ∨ second/3600=second'/3600 ∧
        (second/60%60 < second'/60%60 ∨ second/60%60=second'/60%60 ∧
          second%60 < second'%60) := by omega
    rw [heq]
    refine append_lt_append_left _ (append_lt_append_left _ ?_)
    refine padded_append_lt (by omega) (hparts.imp_right fun h => ⟨h.1,?_⟩)
    refine append_lt_append_left _ ?_
    refine padded_append_lt (by omega) (h.2.imp_right fun h => ⟨h.1,?_⟩)
    exact append_lt_append_left _ (padded_lt h.2 (by omega))

lemma AppEnvironment.name_no_dash (environment : AppEnvironment) :
    ∀ c ∈ environment.name, c ≠ codePoint '-' := by
  have hall : environment.name.all (fun c => c ≠ codePoint '-')=true := by
    cases environment <;> decide
  intro c hc
  exact of_decide_eq_true (List.all_eq_true.mp hall c hc)

lemma take_dump (s : PyText) : (s ++ text ".dump").take ((s ++ text ".dump").length-5)=s := by
  have hdump : (text ".dump").length=5 := rfl
  rw [List.length_append,hdump,Nat.add_sub_cancel,List.take_left' rfl]

lemma parseBackupTimestamp_backupName (h : (ofLex clock).2 < 86400) (environment : AppEnvironment)
    (manual : Bool) : parseBackupTimestamp (backupName environment clock manual)=some clock := by
  have hstamp := strptime_strftime h
  have hlength := length_strftime h
  have hsuffix : text ".dump" <:+ backupName environment clock manual := List.suffix_append _ _
  rw [parseBackupTimestamp,if_pos hsuffix]
  unfold backupName
  generalize strftime clock=stamp at hstamp hlength
  have hstem : environment.name ++ text "-" ++ stamp ++ (if manual then text "-manual" else [])=
      environment.name ++ codePoint '-'::(stamp ++ if manual then text "-manual" else []) := by
    simp only [List.append_assoc]
    rfl
  dsimp only
  rw [take_dump,hstem,upTo_append environment.name_no_dash,Option.bind_some,← hlength,
    List.take_left' rfl,hstamp]

end Clock

/-- The key of a backup. -/
def s3Key (path : PyText) (environment : AppEnvironment) (clock : BackupTime) (manual : Bool) :
    ObjectKey :=
  backupPrefix path ++ backupName environment clock manual

theorem backupTime_s3Key {clock : BackupTime} (h : (ofLex clock).2 < 86400) (path : PyText)
    (environment : AppEnvironment) (manual : Bool) :
    backupTime path (s3Key path environment clock manual)=some clock := by
  have hstart : removePrefix (backupPrefix path) (s3Key path environment clock manual)=
      backupName environment clock manual := by
    rw [s3Key,removePrefix,if_pos (List.prefix_append _ _),List.drop_left' rfl]
  rw [backupTime,hstart,parseBackupTimestamp_backupName h]

end VbApi.Storage
