import VbApi.Foundations.JsonText
import VbApi.Members.ChangeLog
import VbApi.Members.Operations

/-! The texts of a change log entry: the name of the field, and its two values serialised. -/
namespace VbApi.Members
open VbApi.Foundations

/-! ### The names of the fields -/

def TextField.name : TextField → PyText
  | .vortitel => text "vortitel"
  | .vorname => text "vorname"
  | .nachname => text "nachname"
  | .nachnameGeburt => text "nachname_geburt"
  | .nachtitel => text "nachtitel"
  | .couleurname => text "couleurname"
  | .orgId => text "org_id"
  | .stateId => text "state_id"
  | .grabadresse => text "grabadresse"
  | .email => text "email"
  | .url => text "url"
  | .mkvOgvUrl => text "mkv_ogv_url"
  | .rufnummerMobil => text "rufnummer_mobil"
  | .rufnummerPrivat => text "rufnummer_privat"
  | .rufnummerBeruf => text "rufnummer_beruf"
  | .adressePrivatAnschrift => text "adresse_privat_anschrift"
  | .adressePrivatPlz => text "adresse_privat_plz"
  | .adressePrivatOrt => text "adresse_privat_ort"
  | .adressePrivatLand => text "adresse_privat_land"
  | .adresseBerufAnschrift => text "adresse_beruf_anschrift"
  | .adresseBerufPlz => text "adresse_beruf_plz"
  | .adresseBerufOrt => text "adresse_beruf_ort"
  | .adresseBerufLand => text "adresse_beruf_land"
  | .arbeitgeber => text "arbeitgeber"
  | .taetigkeit => text "taetigkeit"
  | .mitgliedschaften => text "mitgliedschaften"
  | .verbandchargen => text "verbandchargen"
  | .anmerkungen => text "anmerkungen"

def FlagField.name : FlagField → PyText
  | .gruender => text "gruender"
  | .entlassen => text "entlassen"
  | .verstorben => text "verstorben"
  | .chroniclemail => text "chroniclemail"
  | .authLocked => text "auth_locked"

def DateField.name : DateField → PyText
  | .geburtsdatum => text "geburtsdatum"
  | .aufnahmedatum => text "aufnahmedatum"
  | .branderdatum => text "branderdatum"
  | .burschungsdatum => text "burschungsdatum"
  | .philistrierungsdatum => text "philistrierungsdatum"
  | .entlassungsdatum => text "entlassungsdatum"
  | .sterbedatum => text "sterbedatum"

def fieldName : Field → PyText
  | .text f => f.name
  | .flag f => f.name
  | .date f => f.name
  | .accuracy f => f.name ++ text "_accuracy"
  | .parentId => text "parent_id"
  | .zustellungen => text "zustellungen"

def LogKey.name : LogKey → PyText
  | .field f => fieldName f
  | .badges => text "badges"
  | .keys => text "keys"
  | .rolesHistory => text "roles_history"

def LogKey.all : List LogKey := Field.all.map .field ++ [.badges,.keys,.rolesHistory]

lemma LogKey.mem_all (key : LogKey) : key ∈ all := by
  cases key with
  | field f => exact List.mem_append_left _ (List.mem_map_of_mem f.mem_all)
  | badges => decide
  | keys => decide
  | rolesHistory => decide

lemma LogKey.name_injective : Function.Injective name := by
  have hnames : (all.map name).Nodup := by decide +kernel
  intro a b h
  exact List.inj_on_of_nodup_map hnames a.mem_all b.mem_all h

/-- No field of a save is one of the technical columns. -/
lemma LogKey.name_notMem_excluded (key : LogKey) : key.name ∉ changelogExcludedKeys := by
  have hall : ∀ k ∈ all, k.name ∉ changelogExcludedKeys := by decide +kernel
  exact hall key key.mem_all

/-! ### The values -/

/-- `str` of an integer. -/
def intText (n : ℤ) : PyText :=
  if n < 0 then text "-" ++ padded 1 n.natAbs else padded 1 n.natAbs

/-- A character of a JSON string with `ensure_ascii=False`. -/
def escapeJson (c : CodePoint) : PyText :=
  match shortEscapes.lookup c.val with
  | some e => [codePoint '\\',codePoint e]
  | none =>
    if c.val < 32 then
      let digits := (Nat.toDigits 16 c.val).map codePoint
      text "\\u" ++ List.replicate (4-digits.length) (codePoint '0') ++ digits
    else [c]

def jsonString (s : PyText) : PyText := [codePoint '"'] ++ s.flatMap escapeJson ++ [codePoint '"']

def jsonOptional : Option PyText → PyText
  | none => text "null"
  | some s => jsonString s

def jsonObject (entries : List (PyText × PyText)) : PyText :=
  [codePoint '\x7b'] ++ join (text ", ") (entries.map fun e => jsonString e.1 ++ text ": " ++ e.2) ++
    [codePoint '\x7d']

def jsonArray (items : List PyText) : PyText := text "[" ++ join (text ", ") items ++ text "]"

/-- An entry of `_sync_badges` and `_sync_keys`. -/
def Presentation.json (p : Presentation) : PyText :=
  jsonObject [(text "id",jsonString (uuidText p.id)),
    (text "presentationdate",jsonOptional (p.presentationdate.map Date.isoformat)),
    (text "presentationdate_accuracy",intText (p.presentationdateAccuracy.getD 0))]

/-- An entry of `_sync_roles`. -/
def RoleEntry.json (e : RoleEntry) : PyText :=
  jsonObject [(text "id",jsonString e.roleId),(text "startdate",jsonString e.startdate.isoformat),
    (text "enddate",jsonOptional (e.enddate.map Date.isoformat))]

/-- `str(val)`, and nothing for `None`. -/
def fieldValueText : FieldValue → Option PyText
  | .none => none
  | .bool true => some (text "True")
  | .bool false => some (text "False")
  | .int n => some (intText n)
  | .text s => some s
  | .date d => some d.isoformat
  | .uuid id => some (uuidText id)

def serializeLogValue : LogValue → Option PyText
  | .value v => fieldValueText v
  | .presentations ps => some (jsonArray (ps.map Presentation.json))
  | .roles rs => some (jsonArray (rs.map RoleEntry.json))

/-- The key and the texts of a row of `members_logs`. -/
structure LogTexts where
  key : PyText
  old : Option PyText
  new : Option PyText
  deriving DecidableEq

/-- The loop of `_persist_change_log`. -/
def persistChangeLog (diff : Diff) : List LogTexts :=
  (diff.filter fun e => e.1.name ∉ changelogExcludedKeys).map fun (key,change) =>
    ⟨key.name,serializeLogValue change.old,serializeLogValue change.new⟩

def MembersLog.texts (e : MembersLog) : LogTexts :=
  ⟨e.key.name,serializeLogValue e.change.old,serializeLogValue e.change.new⟩

/-- The entries of a save stand in the table with these texts. -/
lemma texts_changeLogOf {memberId userId : VbApi.Standesdb.Uuid} {action : ChangeLogAction}
    {now : VbApi.Standesdb.Timestamp} (diff : Diff) :
    (changeLogOf memberId diff action userId now).map MembersLog.texts=persistChangeLog diff := by
  have hall : (diff.filter fun e => e.1.name ∉ changelogExcludedKeys)=diff :=
    List.filter_eq_self.mpr fun e _ => decide_eq_true e.1.name_notMem_excluded
  rw [persistChangeLog,hall,changeLogOf,List.map_map]
  rfl

example : serializeLogValue (.presentations [⟨10,none,some 2⟩])=
    some (text "[\x7b\"id\": \"00000000-0000-0000-0000-00000000000a\", \"presentationdate\": null, \"presentationdate_accuracy\": 2\x7d]") := by
  decide +kernel

end VbApi.Members
