import VbApi.Foundations.LowerCase

/-! Secrets in logged payloads: they are masked at every depth before a request is stored. -/
namespace VbApi.Activity
open VbApi.Foundations

/-- A payload; a float is known by its text. -/
inductive JsonValue
  | null
  | bool (b : Bool)
  | int (n : ℤ)
  | float (repr : PyText)
  | str (s : PyText)
  | list (items : List JsonValue)
  | dict (entries : List (PyText × JsonValue))

def redactKeys : List PyText :=
  [text "password",text "password_confirmation",text "current_password",text "new_password",
    text "access_token",text "refresh_token",text "token",text "secret",text "authorization",
    text "credential"]

def redactedValue : JsonValue := .str (text "***")

def signedUrlMarker : PyText := text "x-amz-signature="

section Redact
variable (data : LowerData)

/-- The value under the key is a secret, whatever the case of the key's letters. -/
def SecretKey (key : PyText) : Prop := lower data key ∈ redactKeys

instance (key : PyText) : Decidable (SecretKey data key) := inferInstanceAs (Decidable (_ ∈ _))

mutual
def redact : JsonValue → JsonValue
  | .dict entries => .dict (redactEntries entries)
  | .list items => .list (redactItems items)
  | .str s => if signedUrlMarker <:+: lower data s then redactedValue else .str s
  | .null => .null
  | .bool b => .bool b
  | .int n => .int n
  | .float repr => .float repr

def redactEntries : List (PyText × JsonValue) → List (PyText × JsonValue)
  | [] => []
  | (key,item)::entries =>
    (key,if SecretKey data key then redactedValue else redact item)::redactEntries entries

def redactItems : List JsonValue → List JsonValue
  | [] => []
  | item::items => redact item::redactItems items
end

/-! ### What a payload holds where -/

inductive PathStep
  | item (index : ℕ)
  | key (name : PyText)

/-- The value at a path. -/
def JsonValue.at? : JsonValue → List PathStep → Option JsonValue
  | v,[] => some v
  | .list items,.item i::path => (items[i]?).bind fun v => v.at? path
  | .dict entries,.key k::path => (entries.find? fun e => e.1=k).bind fun e => e.2.at? path
  | _,_::_ => none

/-- A value without the values in it: its kind and what it shows by itself. -/
inductive Node
  | null
  | bool (b : Bool)
  | int (n : ℤ)
  | float (repr : PyText)
  | str (s : PyText)
  | list (length : ℕ)
  | dict (keys : List PyText)

def JsonValue.node : JsonValue → Node
  | .null => .null
  | .bool b => .bool b
  | .int n => .int n
  | .float repr => .float repr
  | .str s => .str s
  | .list items => .list items.length
  | .dict entries => .dict (entries.map Prod.fst)

/-- No key on the path has a secret value. -/
def OpenPath (path : List PathStep) : Prop := ∀ k, .key k ∈ path → ¬ SecretKey data k

/-- The text carries a presigned URL's signature, in letters of any case. -/
def HasSignature (s : PyText) : Prop := ∃ m, m.map lowerLetter=signedUrlMarker ∧ m <:+: s

/-- The payloads differ only in values under secret keys and in texts with a signature. -/
inductive SameButSecrets : JsonValue → JsonValue → Prop
  | same (v) : SameButSecrets v v
  | signed {s s'} : HasSignature s → HasSignature s' → SameButSecrets (.str s) (.str s')
  | list {xs ys : List JsonValue} (hlen : xs.length=ys.length) :
    (∀ i (h : i < xs.length) (h' : i < ys.length), SameButSecrets xs[i] ys[i]) →
      SameButSecrets (.list xs) (.list ys)
  | dict {xs ys : List (PyText × JsonValue)} (hlen : xs.length=ys.length) :
    (∀ i (h : i < xs.length) (h' : i < ys.length), xs[i].1=ys[i].1) →
    (∀ i (h : i < xs.length) (h' : i < ys.length), ¬ SecretKey data xs[i].1 →
      SameButSecrets xs[i].2 ys[i].2) →
      SameButSecrets (.dict xs) (.dict ys)

/-- Masking tells nothing about the secrets, leaves everything else as it is, and is done at once. -/
structure RedactLaw : Prop where
  noninterference : ∀ v w, SameButSecrets data v w → redact data v=redact data w
  kept : ∀ v path u, OpenPath data path → v.at? path=some u → (∀ s, u=.str s → ¬ HasSignature s) →
    ∃ u', (redact data v).at? path=some u' ∧ u'.node=u.node
  signed_masked : ∀ v path s, OpenPath data path → v.at? path=some (.str s) → HasSignature s →
    (redact data v).at? path=some redactedValue
  secret_masked : ∀ v path key, OpenPath data path → SecretKey data key →
    (redact data v).at? (path ++ [.key key])=(v.at? (path ++ [.key key])).map fun _ => redactedValue
  nothing_added : ∀ v path u', OpenPath data path → (redact data v).at? path=some u' →
    (v.at? path).isSome
  idempotent : ∀ v, redact data (redact data v)=redact data v
  any_case : ∀ key : PyText, key.map lowerLetter ∈ redactKeys → SecretKey data key

end Redact

/-! ### One level of a payload -/

section Level
variable {data : LowerData}

def redactEntry (data : LowerData) (e : PyText × JsonValue) : PyText × JsonValue :=
  (e.1,if SecretKey data e.1 then redactedValue else redact data e.2)

lemma redactEntries_eq (entries : List (PyText × JsonValue)) :
    redactEntries data entries=entries.map (redactEntry data) := by
  induction entries with
  | nil => rfl
  | cons e entries ih => rw [redactEntries,ih]; rfl

lemma redactItems_eq (items : List JsonValue) : redactItems data items=items.map (redact data) := by
  induction items with
  | nil => rfl
  | cons v items ih => rw [redactItems,ih]; rfl

lemma redact_dict (entries : List (PyText × JsonValue)) :
    redact data (.dict entries)=.dict (entries.map (redactEntry data)) := by
  rw [redact,redactEntries_eq]

lemma redact_list (items : List JsonValue) : redact data (.list items)=.list (items.map (redact data)) := by
  rw [redact,redactItems_eq]

/-- Induction over the depth of a payload. -/
theorem JsonValue.induct {P : JsonValue → Prop} (null : P .null) (bool : ∀ b, P (.bool b))
    (int : ∀ n, P (.int n)) (float : ∀ r, P (.float r)) (str : ∀ s, P (.str s))
    (list : ∀ items : List JsonValue, (∀ v ∈ items, P v) → P (.list items))
    (dict : ∀ entries : List (PyText × JsonValue), (∀ e ∈ entries, P e.2) → P (.dict entries))
    (v : JsonValue) : P v := by
  induction hsize : sizeOf v using Nat.strong_induction_on generalizing v with
  | _ size ih =>
    subst hsize
    cases v with
    | null => exact null
    | bool b => exact bool b
    | int n => exact int n
    | float r => exact float r
    | str s => exact str s
    | list items =>
      apply list
      intro w hw
      have hsmaller := List.sizeOf_lt_of_mem hw
      exact ih (sizeOf w) (by rw [JsonValue.list.sizeOf_spec]; omega) w rfl
    | dict entries =>
      apply dict
      intro e he
      have hsmaller := List.sizeOf_lt_of_mem he
      have hvalue : sizeOf e=1+sizeOf e.1+sizeOf e.2 := rfl
      exact ih (sizeOf e.2) (by rw [JsonValue.dict.sizeOf_spec]; omega) e.2 rfl

end Level

/-! ### Texts with a signature -/

section Texts
variable {data : LowerData} {s : PyText}

lemma signedUrlMarker_searchable : Searchable signedUrlMarker where
  ascii x hx := by
    have hall : signedUrlMarker.all (fun x => x.val < 128)=true := by decide
    exact of_decide_eq_true (List.all_eq_true.mp hall x hx)
  no_k := by decide
  last := by decide

lemma signedUrlMarker_ne_nil : signedUrlMarker ≠ [] := by decide

lemma hasSignature_iff (h : UnicodeLower data) : signedUrlMarker <:+: lower data s ↔ HasSignature s :=
  h.infix_lower_iff signedUrlMarker_searchable signedUrlMarker_ne_nil

lemma redact_signed (h : UnicodeLower data) (hs : HasSignature s) :
    redact data (.str s)=redactedValue := by
  rw [redact,if_pos ((hasSignature_iff h).mpr hs)]

lemma redact_plain (h : UnicodeLower data) (hs : ¬ HasSignature s) : redact data (.str s)=.str s := by
  rw [redact,if_neg ((hasSignature_iff h).not.mpr hs)]

lemma not_hasSignature_mask : ¬ HasSignature (text "***") := by
  intro h
  obtain ⟨m,hm,hinside⟩ := h
  have hlength := congrArg List.length hm
  rw [List.length_map] at hlength
  have hle := hinside.length_le
  rw [hlength] at hle
  exact absurd hle (by decide)

/-- A redacted key in letters of any case is a secret key. -/
lemma secretKey_of_letters {key : PyText} (h : key.map lowerLetter ∈ redactKeys) :
    SecretKey data key := by
  have hascii : ∀ c ∈ key, c.val < 128 := by
    have hall : redactKeys.all (fun k => k.all fun c => c.val < 128)=true := by decide
    intro c hc
    have hkey := List.all_eq_true.mp hall _ h
    exact lowerLetter_ascii (of_decide_eq_true (List.all_eq_true.mp hkey _ (List.mem_map_of_mem hc)))
  have hlower : lower data key=key.map lowerLetter := by
    have happend : lowerFrom data [] (key ++ [])=key.map lowerLetter ++ lowerFrom data ([] ++ key) [] :=
      lowerFrom_ascii hascii []
    rw [List.append_nil,lowerFrom,List.append_nil] at happend
    exact happend
  rw [SecretKey,hlower]
  exact h

lemma redact_redactedValue (h : UnicodeLower data) : redact data redactedValue=redactedValue :=
  redact_plain h not_hasSignature_mask

end Texts

/-! ### The whole payload -/

section Payload
variable {data : LowerData} {v w u : JsonValue} {path : List PathStep}

theorem redact_congr (h : UnicodeLower data) (hvw : SameButSecrets data v w) :
    redact data v=redact data w := by
  induction hvw with
  | same v => rfl
  | signed hs hs' => rw [redact_signed h hs,redact_signed h hs']
  | list hlen _ ih =>
    rw [redact_list,redact_list]
    congr 1
    refine List.ext_getElem (by rw [List.length_map,List.length_map,hlen]) ?_
    intro i hi hi'
    rw [List.getElem_map,List.getElem_map]
    rw [List.length_map] at hi hi'
    exact ih i hi hi'
  | @dict xs ys hlen hkeys _ ih =>
    rw [redact_dict,redact_dict]
    congr 1
    refine List.ext_getElem (by rw [List.length_map,List.length_map,hlen]) ?_
    intro i hi hi'
    rw [List.getElem_map,List.getElem_map]
    rw [List.length_map] at hi hi'
    rw [redactEntry,redactEntry,← hkeys i hi hi']
    by_cases hsecret : SecretKey data xs[i].1
    · rw [if_pos hsecret,if_pos hsecret]
    · rw [if_neg hsecret,if_neg hsecret,ih i hi hi' hsecret]

theorem redact_redact (h : UnicodeLower data) (v : JsonValue) :
    redact data (redact data v)=redact data v := by
  induction v using JsonValue.induct with
  | null => rfl
  | bool b => rfl
  | int n => rfl
  | float r => rfl
  | str s =>
    by_cases hs : HasSignature s
    · rw [redact_signed h hs,redact_redactedValue h]
    · rw [redact_plain h hs,redact_plain h hs]
  | list items ih =>
    rw [redact_list,redact_list,List.map_map]
    congr 1
    exact List.map_congr_left ih
  | dict entries ih =>
    rw [redact_dict,redact_dict,List.map_map]
    congr 1
    apply List.map_congr_left
    intro e he
    rw [Function.comp_apply,redactEntry,redactEntry]
    dsimp only
    by_cases hsecret : SecretKey data e.1
    · rw [if_pos hsecret,if_pos hsecret]
    · rw [if_neg hsecret,if_neg hsecret,ih e he]

lemma node_redact (h : UnicodeLower data) (hu : ∀ s, u=.str s → ¬ HasSignature s) :
    (redact data u).node=u.node := by
  cases u with
  | null => rfl
  | bool b => rfl
  | int n => rfl
  | float r => rfl
  | str s => rw [redact_plain h (hu s rfl)]
  | list items => rw [redact_list,JsonValue.node,JsonValue.node,List.length_map]
  | dict entries =>
    rw [redact_dict,JsonValue.node,JsonValue.node,List.map_map]
    rfl

lemma at?_append (v : JsonValue) (path rest : List PathStep) :
    v.at? (path ++ rest)=(v.at? path).bind fun u => u.at? rest := by
  induction path generalizing v with
  | nil => rfl
  | cons step path ih =>
    cases step with
    | item i =>
      cases v with
      | list items =>
        rw [List.cons_append,JsonValue.at?,JsonValue.at?]
        cases items[i]? with
        | none => rfl
        | some w => exact ih w
      | _ => rfl
    | key k =>
      cases v with
      | dict entries =>
        rw [List.cons_append,JsonValue.at?,JsonValue.at?]
        cases entries.find? fun e => e.1=k with
        | none => rfl
        | some e => exact ih e.2
      | _ => rfl

lemma find_redactEntry (entries : List (PyText × JsonValue)) (k : PyText) :
    ((entries.map (redactEntry data)).find? fun e => e.1=k)=
      (entries.find? fun e => e.1=k).map (redactEntry data) := by
  rw [List.find?_map]
  rfl

lemma at?_redact_str (s : PyText) (step : PathStep) (path : List PathStep) :
    (redact data (.str s)).at? (step::path)=none := by
  rw [redact]
  split_ifs <;> cases step <;> rfl

/-- On an open path stands what the masking makes of the value there. -/
lemma redact_at (hopen : OpenPath data path) :
    (redact data v).at? path=(v.at? path).map (redact data) := by
  induction path generalizing v with
  | nil => rfl
  | cons step path ih =>
    have hrest : OpenPath data path := fun k hk => hopen k (List.mem_cons_of_mem step hk)
    cases step with
    | item i =>
      cases v with
      | list items =>
        rw [redact_list,JsonValue.at?,JsonValue.at?,List.getElem?_map]
        cases items[i]? with
        | none => rfl
        | some w => exact ih hrest
      | str s => exact at?_redact_str s _ path
      | _ => rfl
    | key k =>
      cases v with
      | dict entries =>
        rw [redact_dict,JsonValue.at?,JsonValue.at?,find_redactEntry]
        cases hfind : entries.find? fun e => e.1=k with
        | none => rfl
        | some e =>
          have hfound := List.find?_some hfind
          have hkey : e.1=k := of_decide_eq_true hfound
          have hplain : ¬ SecretKey data e.1 := hkey ▸ hopen k List.mem_cons_self
          rw [Option.map_some,Option.bind_some,Option.bind_some,redactEntry,if_neg hplain]
          exact ih hrest
      | str s => exact at?_redact_str s _ path
      | _ => rfl

lemma redact_at_secret {key : PyText} (hsecret : SecretKey data key) :
    (redact data v).at? [.key key]=(v.at? [.key key]).map fun _ => redactedValue := by
  cases v with
  | dict entries =>
    rw [redact_dict,JsonValue.at?,JsonValue.at?,find_redactEntry]
    cases hfind : entries.find? fun e => e.1=key with
    | none => rfl
    | some e =>
      have hfound := List.find?_some hfind
      have hkey : e.1=key := of_decide_eq_true hfound
      have hsecret' : SecretKey data e.1 := hkey ▸ hsecret
      rw [Option.map_some,Option.bind_some,Option.bind_some,redactEntry,if_pos hsecret']
      rfl
  | str s => exact at?_redact_str s _ []
  | _ => rfl

end Payload

theorem redact_law {data : LowerData} (h : UnicodeLower data) : RedactLaw data where
  noninterference v w hvw := redact_congr h hvw
  kept v path u hopen hat hplain := by
    refine ⟨redact data u,?_,node_redact h hplain⟩
    rw [redact_at hopen,hat,Option.map_some]
  signed_masked v path s hopen hat hs := by
    rw [redact_at hopen,hat,Option.map_some,redact_signed h hs]
  secret_masked v path key hopen hsecret := by
    rw [at?_append,at?_append,redact_at hopen]
    cases v.at? path with
    | none => rfl
    | some u => exact redact_at_secret hsecret
  nothing_added v path u' hopen hat := by
    rw [redact_at hopen] at hat
    obtain ⟨u,hu,-⟩ := Option.map_eq_some_iff.mp hat
    rw [hu]
    rfl
  idempotent v := redact_redact h v
  any_case key hkey := secretKey_of_letters hkey

/-- Lower case with the two exceptions of the Unicode data and no others. -/
def exceptionsOnly : LowerData := fun _ c _ =>
  if c.val=0x212A then text "k"
  else if c.val=0x130 then [codePoint 'i',codePoint (Char.ofNat 0x307)]
  else [c]

lemma exceptionsOnly_unicode : UnicodeLower exceptionsOnly where
  kelvin _ _ := rfl
  dotted _ _ := rfl
  others before c after hc hkelvin hdotted := by
    have hkelvin' : c.val ≠ 0x212A := fun hval => hkelvin (Fin.ext hval)
    have hdotted' : c.val ≠ 0x130 := fun hval => hdotted (Fin.ext hval)
    have hsame : exceptionsOnly before c after=[c] := by
      rw [exceptionsOnly,if_neg hkelvin',if_neg hdotted']
    rw [hsame]
    exact ⟨List.cons_ne_nil _ _,fun x hx => (List.mem_singleton.mp hx).symm ▸ hc⟩

theorem redact_law_exceptionsOnly : RedactLaw exceptionsOnly := redact_law exceptionsOnly_unicode

end VbApi.Activity
