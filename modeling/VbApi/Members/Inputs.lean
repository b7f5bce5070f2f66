import VbApi.Members.Records
import VbApi.Foundations.Results

/-! What the save of a member takes in, and the validation of `MemberSaveRequest` and of its
self-service part. -/
namespace VbApi.Members
open VbApi.Foundations
open VbApi.Standesdb (Uuid SelfServiceField)

structure RoleHistoryEntry where
  id : RoleId
  label : Option PyText
  startdate : Date
  enddate : Option Date

/-- `BadgeEntry` and `KeyEntry`. -/
structure PresentationEntry where
  id : Uuid
  presentationdate : Option Date
  presentationdateAccuracy : ℤ

/-- The values from which `MemberSaveRequest` is validated. -/
structure MemberInput where
  columns : Columns
  rolesHistory : List RoleHistoryEntry
  badges : List PresentationEntry
  keys : List PresentationEntry

/-- A validated input. Its organisation, its accuracies and its delivery preference are never null. -/
structure MemberSaveRequest extends MemberInput where
  org_given : columns.text .orgId ≠ none
  accuracy_range : ∀ f, ∃ n, columns.accuracy f=some n ∧ 0 ≤ n ∧ n ≤ 3
  zustellungen_given : columns.zustellungen ≠ none

/-- What a refused operation raises. -/
inductive SaveError
  /-- `HTTPException` -/
  | http (status : ℕ) (detail : List PyText)
  /-- `ValidationError` with the fields at fault; none when the record as a whole is. -/
  | validation (fields : List Field)
  /-- `IntegrityError` of a flush -/
  | integrity
  /-- a reference that leads nowhere -/
  | attribute
  deriving DecidableEq

/-- The settings, the database's `lower` and its constraints and triggers, and `EmailStr`: the address
in its normal form. -/
structure Environment where
  systemAdminEmails : List PyText
  devSuperuserId : Option Uuid
  lower : PyText → PyText
  validateEmail : PyText → Option PyText
  accepts : Database → Bool

/-- The characters with the property White_Space, which `str_strip_whitespace` removes. -/
def isWhiteSpace (c : CodePoint) : Bool :=
  (9 ≤ c.val && c.val ≤ 13) || c.val=32 || c.val=0x85 || c.val=0xA0 || c.val=0x1680 ||
  (0x2000 ≤ c.val && c.val ≤ 0x200A) || c.val=0x2028 || c.val=0x2029 || c.val=0x202F ||
  c.val=0x205F || c.val=0x3000

/-- Remove leading and trailing white space. -/
def stripWhitespace (s : PyText) : PyText :=
  ((s.dropWhile isWhiteSpace).reverse.dropWhile isWhiteSpace).reverse

/-- `PHONE_REGEX.fullmatch`: an optional plus sign, then digits, blanks, slashes and dashes. -/
def isPhone (s : PyText) : Bool :=
  let rest := if s.head?=some (codePoint '+') then s.tail else s
  rest ≠ [] && rest.all fun c =>
    (48 ≤ c.val && c.val ≤ 57) || c=codePoint ' ' || c=codePoint '/' || c=codePoint '-'

/-- `re.IGNORECASE` also takes the long s for an s. -/
def isLetterIgnoringCase (letter : Char) (c : CodePoint) : Bool :=
  c=codePoint letter || c=codePoint letter.toUpper || (letter = 's' && c.val=0x17F)

/-- `^https?://`, ignoring case. -/
def isUrl (s : PyText) : Bool :=
  let http : List (CodePoint → Bool) := ['h','t','t','p'].map isLetterIgnoringCase
  let slashes : List (CodePoint → Bool) := [':','/','/'].map fun c => (· = codePoint c)
  let startsWith (pattern : List (CodePoint → Bool)) : Bool :=
    pattern.length ≤ s.length && (pattern.zip s).all fun p => p.1 p.2
  startsWith (http ++ slashes) || startsWith (http ++ [isLetterIgnoringCase 's'] ++ slashes)

/-- How many characters a text may have. -/
def TextField.maxLength : TextField → Option ℕ
  | .vortitel | .nachtitel => some 32
  | .vorname | .nachname | .nachnameGeburt | .couleurname | .arbeitgeber | .taetigkeit => some 64
  | .adressePrivatPlz | .adresseBerufPlz => some 8
  | .adressePrivatOrt | .adressePrivatLand | .adresseBerufOrt | .adresseBerufLand => some 32
  | .rufnummerMobil | .rufnummerPrivat | .rufnummerBeruf => some 32
  | .adressePrivatAnschrift | .adresseBerufAnschrift | .grabadresse => some 128
  | .email | .url | .mkvOgvUrl => some 128
  | .mitgliedschaften | .verbandchargen | .anmerkungen => some 5000
  | .orgId | .stateId => none

/-- The pattern of a text that is not empty. -/
def TextField.pattern : TextField → PyText → Bool
  | .rufnummerMobil | .rufnummerPrivat | .rufnummerBeruf => isPhone
  | .url | .mkvOgvUrl => isUrl
  | _ => fun _ => true

def TextField.accepts (f : TextField) (s : PyText) : Bool :=
  (f.maxLength.all fun n => s.length ≤ n) && (s=[] || f.pattern s)

/-- The value that the validators of a text field give back. -/
def cleanText (env : Environment) (f : TextField) : Option PyText → Option (Option PyText)
  | none => some none
  | some s =>
    let read := if f=.email then env.validateEmail (stripWhitespace s) else some (stripWhitespace s)
    match read with
    | some t => if f.accepts t then some (some t) else none
    | none => none

/-- The fields at fault. -/
def invalidFields (env : Environment) (c : Columns) : List Field :=
  Field.all.filter fun
    | .text f => (f=.orgId && c.text f=none) || cleanText env f (c.text f)=none
    | .accuracy f => !((c.accuracy f).any fun n => 0 ≤ n && n ≤ 3)
    | .zustellungen => c.zustellungen=none
    | _ => false

/-- The columns as the validators give them back. -/
def cleanColumns (env : Environment) (c : Columns) : Columns :=
  {c with text := fun f => (cleanText env f (c.text f)).getD none}

/-- `_require_nachname_or_couleurname`. -/
def hasName (nachname couleurname : Option PyText) : Bool :=
  nachname.any (· ≠ []) || couleurname.any (· ≠ [])

lemma invalidFields_eq_nil {env : Environment} {c : Columns} (h : invalidFields env c=[]) :
    (∀ f, ∃ v, cleanText env f (c.text f)=some v) ∧ c.text .orgId ≠ none ∧
      (∀ f, ∃ n, c.accuracy f=some n ∧ 0 ≤ n ∧ n ≤ 3) ∧ c.zustellungen ≠ none := by
  have hall : ∀ f : Field, f ∉ invalidFields env c := by simp [h]
  simp only [invalidFields,List.mem_filter,Field.mem_all,true_and] at hall
  refine ⟨?_,?_,?_,?_⟩
  · intro f
    have hf := hall (.text f)
    cases hclean : cleanText env f (c.text f) with
    | none => simp [hclean] at hf
    | some v => exact ⟨v,rfl⟩
  · have hf := hall (.text .orgId)
    intro hnone
    simp [hnone] at hf
  · intro f
    have hf := hall (.accuracy f)
    cases hn : c.accuracy f with
    | none => simp [hn] at hf
    | some n => exact ⟨n,rfl,by simpa [hn] using hf⟩
  · have hf := hall .zustellungen
    simpa using hf

lemma cleanText_ne_none {env : Environment} {f : TextField} {v w : Option PyText}
    (h : cleanText env f v=some w) (hv : v ≠ none) : w ≠ none := by
  cases v with
  | none => exact absurd rfl hv
  | some s =>
    simp only [cleanText] at h
    split at h
    · split at h
      · rintro rfl
        cases h
      · cases h
    · cases h

/-- `MemberSaveRequest.model_validate`. -/
def modelValidate (env : Environment) (input : MemberInput) : Except SaveError MemberSaveRequest :=
  if h : invalidFields env input.columns=[] then
    let columns := cleanColumns env input.columns
    if hasName (columns.text .nachname) (columns.text .couleurname) then
      .ok {
        toMemberInput := {input with columns := columns}
        org_given := by
          obtain ⟨hclean,horg,-,-⟩ := invalidFields_eq_nil h
          obtain ⟨v,hv⟩ := hclean .orgId
          simpa [columns,cleanColumns,hv] using cleanText_ne_none hv horg
        accuracy_range := (invalidFields_eq_nil h).2.2.1
        zustellungen_given := (invalidFields_eq_nil h).2.2.2 }
    else .error (.validation [])
  else .error (.validation (invalidFields env input.columns))

/-- What validation gives back. -/
lemma modelValidate_eq_ok {env : Environment} {input : MemberInput} {data : MemberSaveRequest}
    (h : modelValidate env input=.ok data) :
    data.toMemberInput={input with columns := cleanColumns env input.columns} := by
  unfold modelValidate at h
  dsimp only at h
  split_ifs at h
  injection h with h
  rw [← h]

lemma invalidFields_of_modelValidate {env : Environment} {input : MemberInput}
    {data : MemberSaveRequest} (h : modelValidate env input=.ok data) :
    invalidFields env input.columns=[] := by
  unfold modelValidate at h
  split_ifs at h with hvalid
  exact hvalid

/-- The field of a member's own request as a field of the record. -/
def selfServiceColumn : SelfServiceField → Field
  | .vortitel => .text .vortitel
  | .vorname => .text .vorname
  | .nachname => .text .nachname
  | .nachnameGeburt => .text .nachnameGeburt
  | .nachtitel => .text .nachtitel
  | .couleurname => .text .couleurname
  | .email => .text .email
  | .url => .text .url
  | .mkvOgvUrl => .text .mkvOgvUrl
  | .rufnummerMobil => .text .rufnummerMobil
  | .rufnummerPrivat => .text .rufnummerPrivat
  | .rufnummerBeruf => .text .rufnummerBeruf
  | .zustellungen => .zustellungen
  | .adressePrivatAnschrift => .text .adressePrivatAnschrift
  | .adressePrivatPlz => .text .adressePrivatPlz
  | .adressePrivatOrt => .text .adressePrivatOrt
  | .adressePrivatLand => .text .adressePrivatLand
  | .adresseBerufAnschrift => .text .adresseBerufAnschrift
  | .adresseBerufPlz => .text .adresseBerufPlz
  | .adresseBerufOrt => .text .adresseBerufOrt
  | .adresseBerufLand => .text .adresseBerufLand
  | .arbeitgeber => .text .arbeitgeber
  | .taetigkeit => .text .taetigkeit
  | .mitgliedschaften => .text .mitgliedschaften
  | .verbandchargen => .text .verbandchargen

/-- The fields in the order in which `MemberSelfServiceSaveRequest` declares them. -/
def selfServiceFields : List SelfServiceField :=
  [.vortitel,.vorname,.nachname,.nachnameGeburt,.nachtitel,.couleurname,.email,.url,.mkvOgvUrl,
    .rufnummerMobil,.rufnummerPrivat,.rufnummerBeruf,.zustellungen,
    .adressePrivatAnschrift,.adressePrivatPlz,.adressePrivatOrt,.adressePrivatLand,
    .adresseBerufAnschrift,.adresseBerufPlz,.adresseBerufOrt,.adresseBerufLand,.arbeitgeber,
    .taetigkeit,.mitgliedschaften,.verbandchargen]

lemma mem_selfServiceFields (g : SelfServiceField) : g ∈ selfServiceFields := by
  cases g <;> decide

lemma selfServiceColumn_injective : Function.Injective selfServiceColumn := by
  intro g g' h
  cases g <;> cases g' <;> first | rfl | cases h

/-- The field of a member's own request that a field of the record is, if it is one. -/
def selfService? (f : Field) : Option SelfServiceField :=
  selfServiceFields.find? fun g => selfServiceColumn g=f

lemma selfService?_eq_some_iff {f : Field} {g : SelfServiceField} :
    selfService? f=some g ↔ selfServiceColumn g=f := by
  constructor
  · intro h
    simpa using List.find?_some h
  · intro h
    cases hfind : selfService? f with
    | none =>
      have hnot := List.find?_eq_none.mp hfind g (mem_selfServiceFields g)
      simp [h] at hnot
    | some g' =>
      have hcolumn : selfServiceColumn g'=f := by simpa using List.find?_some hfind
      rw [selfServiceColumn_injective (hcolumn.trans h.symm)]

/-- The delivery preference with this value. -/
def deliveryPreference? (s : PyText) : Option MemberDeliveryPreference :=
  [.deaktiviert,.adressePrivat,.adresseBeruf].find? fun p => p.value=s

/-- The value that the validators of a self-service field give back. -/
def cleanProposed (env : Environment) (g : SelfServiceField) (v : Option PyText) :
    Option (Option PyText) :=
  match selfServiceColumn g with
  | .text f => cleanText env f v
  | _ => (v.bind deliveryPreference?).map fun p => some p.value

/-- `MemberSelfServiceSaveRequest.model_validate`. -/
def selfServiceValidate (env : Environment) (body : SelfServiceField → Option PyText) :
    Except SaveError (SelfServiceField → Option PyText) := do
  let invalid := selfServiceFields.filter fun g => cleanProposed env g (body g)=none
  if invalid ≠ [] then throw (.validation (invalid.map selfServiceColumn))
  let proposed := fun g => (cleanProposed env g (body g)).getD none
  if !hasName (proposed .nachname) (proposed .couleurname) then throw (.validation [])
  return proposed

end VbApi.Members
