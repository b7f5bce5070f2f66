import VbApi.Foundations.PyText

/-! The compact ASCII JSON text of a list of strings, with escaped slashes, and the reader that takes
the strings back from it: one code unit at a time, one string at a time. -/
namespace VbApi.Foundations

section Code
variable {α β : Type*}

/-- Read words until none follows; the words, and what is left. -/
def readWords (read : List β → Option (α × List β)) : ℕ → List β → List α × List β
  | 0,x => ([],x)
  | n+1,x =>
    match read x with
    | none => ([],x)
    | some (a,r) =>
      let (as,r) := readWords read n r
      (a::as,r)

variable {code : α → List β} {read : List β → Option (α × List β)} {stop : β}
  (hread : ∀ a x, read (code a ++ x)=some (a,x)) (hstop : ∀ x, read (stop::x)=none)
include hread hstop

lemma length_le_flatMap (s : List α) : s.length ≤ (s.flatMap code).length := by
  have hne : ∀ a, 1 ≤ (code a).length := by
    intro a
    by_contra h
    have hnil : code a=[] := List.length_eq_zero_iff.mp (by omega)
    have := hread a [stop]
    rw [hnil,List.nil_append,hstop] at this
    contradiction
  induction s with
  | nil => exact Nat.zero_le _
  | cons a s ih =>
    have := hne a
    simp only [List.length_cons,List.flatMap_cons,List.length_append]
    omega

/-- A sequence written with a code that a reader takes back word by word, and closed by a
symbol that no word starts with, is read back together with what follows. -/
theorem readWords_flatMap (s : List α) {n : ℕ} (hn : s.length ≤ n) (x : List β) :
    readWords read n (s.flatMap code ++ stop::x)=(s,stop::x) := by
  induction s generalizing n with
  | nil => cases n <;> simp [readWords,hstop]
  | cons a s ih =>
    obtain ⟨n,rfl⟩ : ∃ m, n=m+1 := ⟨n-1,by rw [List.length_cons] at hn; omega⟩
    rw [List.length_cons] at hn
    simp [readWords,hread,ih (Nat.le_of_succ_le_succ hn)]

end Code

abbrev CodeUnit := Fin 65536

/-- The UTF-16 code units of a code point; a lone surrogate stands for itself. -/
def utf16 (c : CodePoint) : List CodeUnit :=
  if h : c.val < 65536 then [⟨c.val,h⟩]
  else [⟨0xD800+(c.val-65536)/1024,by omega⟩,⟨0xDC00+(c.val-65536)%1024,by omega⟩]

def hexDigit (n : Fin 16) : Char :=
  if n.val < 10 then Char.ofNat (48+n.val) else Char.ofNat (87+n.val)

def hexValue? (c : Char) : Option (Fin 16) :=
  (List.finRange 16).find? fun n => hexDigit n=c

lemma hexValue?_hexDigit (n : Fin 16) : hexValue? (hexDigit n)=some n := by
  revert n
  decide

def hex4 (u : CodeUnit) : List Char :=
  [hexDigit ⟨u.val/4096,by omega⟩,hexDigit ⟨u.val/256%16,by omega⟩,
   hexDigit ⟨u.val/16%16,by omega⟩,hexDigit ⟨u.val%16,by omega⟩]

/-- The two-character escapes of `json.dumps`. -/
def shortEscapes : List (ℕ × Char) :=
  [(34,'"'),(92,'\\'),(10,'n'),(13,'r'),(9,'t'),(12,'f'),(8,'b')]

/-- `json.dumps` with `ensure_ascii` on one code unit. -/
def escapeUnit (u : CodeUnit) : List Char :=
  match shortEscapes.lookup u.val with
  | some c => ['\\',c]
  | none => if 32 ≤ u.val ∧ u.val ≤ 126 then [Char.ofNat u.val] else '\\':: 'u'::hex4 u

def dumpsString (s : PyText) : List Char :=
  '"'::((s.flatMap utf16).flatMap escapeUnit ++ ['"'])

def dumpsItems : List PyText → List Char
  | [] => []
  | [s] => dumpsString s
  | s::t::r => dumpsString s ++ ','::dumpsItems (t::r)

/-- `json.dumps(obj, ensure_ascii=True, separators=(",", ":"))` of a list of strings. -/
def dumpsList (xs : List PyText) : List Char := '['::(dumpsItems xs ++ [']'])

/-- `s.replace("/", "\\/")`. -/
def escapeSlashes (s : List Char) : List Char :=
  s.flatMap fun c => if c = '/' then ['\\','/'] else [c]

/-- One code unit as it stands in the text with escaped slashes. -/
def slashUnit (u : CodeUnit) : List Char := escapeSlashes (escapeUnit u)

def readHex4 : List Char → Option (CodeUnit × List Char)
  | a::b::c::d::r =>
    match hexValue? a,hexValue? b,hexValue? c,hexValue? d with
    | some a,some b,some c,some d =>
      some (⟨a.val*4096+b.val*256+c.val*16+d.val,by omega⟩,r)
    | _,_,_,_ => none
  | _ => none

/-- What a JSON reader makes of the characters after a backslash. -/
def readEscape : List Char → Option (CodeUnit × List Char)
  | [] => none
  | c::r =>
    if c = 'u' then readHex4 r
    else if c = '/' then some (47,r)
    else (shortEscapes.find? fun e => e.2=c).map fun e => (Fin.ofNat 65536 e.1,r)

/-- Take one code unit from the inside of a JSON string; a quote ends it. -/
def readUnit : List Char → Option (CodeUnit × List Char)
  | [] => none
  | c::r =>
    if c = '"' then none
    else if c = '\\' then readEscape r
    else if h : c.toNat < 65536 then some (⟨c.toNat,h⟩,r) else none

lemma readHex4_hex4 (u : CodeUnit) (x : List Char) : readHex4 (hex4 u ++ x)=some (u,x) := by
  simp only [hex4,List.cons_append,List.nil_append,readHex4,hexValue?_hexDigit]
  congr 3
  omega

lemma escapeSlashes_append (s t : List Char) :
    escapeSlashes (s ++ t)=escapeSlashes s ++ escapeSlashes t := List.flatMap_append

lemma escapeSlashes_of_notMem {s : List Char} (h : '/' ∉ s) : escapeSlashes s=s := by
  induction s with
  | nil => rfl
  | cons c s ih =>
    simp only [List.mem_cons,not_or] at h
    have hc : c ≠ '/' := fun he => h.1 he.symm
    simpa [escapeSlashes,hc] using ih h.2

lemma hexDigit_ne_slash (n : Fin 16) : hexDigit n ≠ '/' := by
  revert n
  decide

lemma ofNat_eq_iff {n : ℕ} (h : n ≤ 126) (c : Char) : Char.ofNat n=c ↔ n=c.toNat := by
  have hn := toNat_ofNat_ascii h
  constructor
  · rintro rfl
    exact hn.symm
  · intro hc
    exact Char.toNat_inj.mp (hn.trans hc)

lemma readUnit_slashUnit (u : CodeUnit) (x : List Char) : readUnit (slashUnit u ++ x)=some (u,x) := by
  unfold slashUnit escapeUnit
  split
  · rename_i c hc
    have hmem : (u.val,c) ∈ shortEscapes := by
      have := List.lookup_eq_some_iff.mp hc
      grind
    simp only [shortEscapes,List.mem_cons,Prod.mk.injEq,List.not_mem_nil,or_false] at hmem
    have hu : Fin.ofNat 65536 u.val=u := Fin.ofNat_val_eq_self u
    rcases hmem with ⟨hv,rfl⟩ | ⟨hv,rfl⟩ | ⟨hv,rfl⟩ | ⟨hv,rfl⟩ | ⟨hv,rfl⟩ | ⟨hv,rfl⟩ | ⟨hv,rfl⟩ <;>
      rw [hv] at hu <;> simp [escapeSlashes,readUnit,readEscape,shortEscapes,← hu]
  · rename_i hnone
    by_cases hp : 32 ≤ u.val ∧ u.val ≤ 126
    · rw [if_pos hp]
      have hn := toNat_ofNat_ascii hp.2
      by_cases hs : u.val=47
      · have hu : u=47 := Fin.ext hs
        subst hu
        rfl
      · have h₁ : Char.ofNat u.val ≠ '/' := fun h => hs ((ofNat_eq_iff hp.2 _).mp h)
        have h₂ : Char.ofNat u.val ≠ '"' := by
          intro h
          have := (ofNat_eq_iff hp.2 _).mp h
          rw [this] at hnone
          contradiction
        have h₃ : Char.ofNat u.val ≠ '\\' := by
          intro h
          have := (ofNat_eq_iff hp.2 _).mp h
          rw [this] at hnone
          contradiction
        simp [escapeSlashes,h₁,readUnit,h₂,h₃,hn]
    · rw [if_neg hp,escapeSlashes_of_notMem]
      · simpa [readUnit,readEscape] using readHex4_hex4 u x
      · simp [hex4,Ne.symm (hexDigit_ne_slash _)]

lemma readUnit_quote (x : List Char) : readUnit ('"'::x)=none := by
  simp [readUnit]

lemma utf16_low (c : CodePoint) (h : c.val < 65536) : utf16 c=[⟨c.val,h⟩] := by
  rw [utf16,dif_pos h]

/-- The code point that a code unit is on its own. -/
def unitPoint (u : CodeUnit) : CodePoint := ⟨u.val,by omega⟩

/-- The code point of a surrogate pair. -/
def pairPoint (u v : CodeUnit) : CodePoint := ⟨65536+u.val%1024*1024+v.val%1024,by omega⟩

/-- The code points of a sequence of code units; a lone surrogate stands for itself. -/
def decodeUtf16 : List CodeUnit → PyText
  | [] => []
  | [u] => [unitPoint u]
  | u::v::r =>
    if isHighSurrogate (unitPoint u) ∧ isLowSurrogate (unitPoint v) then
      pairPoint u v::decodeUtf16 r
    else unitPoint u::decodeUtf16 (v::r)

lemma decodeUtf16_cons {u : CodeUnit} {r : List CodeUnit}
    (h : ∀ v ∈ r.head?, ¬ (isHighSurrogate (unitPoint u)=true ∧ isLowSurrogate (unitPoint v)=true)) :
    decodeUtf16 (u::r)=unitPoint u::decodeUtf16 r := by
  cases r with
  | nil => rfl
  | cons v r => rw [decodeUtf16,if_neg (h v rfl)]

lemma isHighSurrogate_iff (c : CodePoint) :
    isHighSurrogate c=true ↔ 0xD800 ≤ c.val ∧ c.val < 0xDC00 := by
  simp [isHighSurrogate]

lemma isLowSurrogate_iff (c : CodePoint) :
    isLowSurrogate c=true ↔ 0xDC00 ≤ c.val ∧ c.val < 0xE000 := by
  simp [isLowSurrogate]

lemma utf16_high (c : CodePoint) (h : ¬ c.val < 65536) :
    ∃ u v, utf16 c=[u,v] ∧ isHighSurrogate (unitPoint u)=true ∧
      isLowSurrogate (unitPoint v)=true ∧ pairPoint u v=c := by
  have hc := c.isLt
  refine ⟨⟨0xD800+(c.val-65536)/1024,by omega⟩,⟨0xDC00+(c.val-65536)%1024,by omega⟩,
    by rw [utf16,dif_neg h],?_,?_,?_⟩
  · rw [isHighSurrogate_iff]
    simp only [unitPoint]
    omega
  · rw [isLowSurrogate_iff]
    simp only [unitPoint]
    omega
  · apply Fin.ext
    simp only [pairPoint]
    omega

/-- Only the code unit of a low surrogate itself starts a code point and is a low surrogate. -/
lemma isLowSurrogate_of_head (d : CodePoint) {v : CodeUnit} (hv : v ∈ (utf16 d).head?)
    (h : isLowSurrogate (unitPoint v)=true) : isLowSurrogate d=true := by
  by_cases hd : d.val < 65536
  · rw [utf16_low d hd] at hv
    cases hv
    exact h
  · obtain ⟨u,w,huw,hhigh,-,-⟩ := utf16_high d hd
    rw [huw,List.head?_cons,Option.mem_some_iff] at hv
    subst hv
    rw [isHighSurrogate_iff] at hhigh
    rw [isLowSurrogate_iff] at h
    omega

/-- A text in which every surrogate pair is merged is read back from its code units. -/
theorem decodeUtf16_flatMap {s : PyText} (hs : Merged s) : decodeUtf16 (s.flatMap utf16)=s := by
  have hne : ∀ c, utf16 c ≠ [] := by
    intro c
    unfold utf16
    split <;> simp
  induction s with
  | nil => rfl
  | cons c s ih =>
    rw [List.flatMap_cons]
    by_cases hc : c.val < 65536
    · rw [utf16_low c hc,List.singleton_append,decodeUtf16_cons,ih hs.tail]
      · rfl
      · -- a low surrogate that follows would be the next code point itself
        rintro v hv ⟨hhigh,hlow⟩
        cases s with
        | nil => simp at hv
        | cons d s =>
          rw [List.flatMap_cons,List.head?_append_of_ne_nil _ (hne d)] at hv
          exact hs.1 ⟨hhigh,isLowSurrogate_of_head d hv hlow⟩
    · obtain ⟨u,v,huv,hhigh,hlow,hpair⟩ := utf16_high c hc
      rw [huv,List.cons_append,List.cons_append,List.nil_append,decodeUtf16,
        if_pos ⟨hhigh,hlow⟩,hpair,ih hs.tail]

lemma escapeSlashes_dumpsString (s : PyText) :
    escapeSlashes (dumpsString s) = '"'::((s.flatMap utf16).flatMap slashUnit ++ ['"']) := by
  have h : ∀ us : List CodeUnit, escapeSlashes (us.flatMap escapeUnit)=us.flatMap slashUnit := by
    intro us
    induction us with
    | nil => rfl
    | cons u us ih => rw [List.flatMap_cons,escapeSlashes_append,ih,List.flatMap_cons,slashUnit]
  rw [dumpsString,← List.singleton_append,escapeSlashes_append,escapeSlashes_append,h]
  rfl

def isJsonSpace (c : Char) : Bool := c = ' ' || c = '\t' || c = '\n' || c = '\r'

def skipSpace (s : List Char) : List Char := s.dropWhile isJsonSpace

/-- Read one string, and what follows it. -/
def readString : List Char → Option (PyText × List Char)
  | [] => none
  | c::r =>
    if c = '"' then
      match readWords readUnit r.length r with
      | (units,c::r) => if c = '"' then some (decodeUtf16 units,r) else none
      | (_,[]) => none
    else none

/-- Read the items of a list that is not empty, up to its closing bracket. -/
def readItems : ℕ → List Char → Option (List PyText × List Char)
  | 0,_ => none
  | n+1,s =>
    match readString (skipSpace s) with
    | none => none
    | some (item,r) =>
      match skipSpace r with
      | [] => none
      | c::r =>
        if c = ']' then some ([item],r)
        else if c = ',' then (readItems n r).map fun x => (item::x.1,x.2)
        else none

/-- `json.loads` of the text of a list of strings. -/
def loadsList (s : List Char) : Option (List PyText) :=
  match skipSpace s with
  | [] => none
  | c::r =>
    if c = '[' then
      match (if (skipSpace r).head?=some ']' then some ([],(skipSpace r).tail)
        else readItems r.length r) with
      | some (items,rest) => if skipSpace rest=[] then some items else none
      | none => none
    else none

lemma skipSpace_cons {c : Char} (h : isJsonSpace c=false) (s : List Char) :
    skipSpace (c::s)=c::s := by
  rw [skipSpace,List.dropWhile_cons_of_neg (by simp [h])]

/-- A string of the text is read back together with what follows it. -/
theorem readString_dumpsString {s : PyText} (hs : Merged s) (x : List Char) :
    readString (escapeSlashes (dumpsString s) ++ x)=some (s,x) := by
  rw [escapeSlashes_dumpsString]
  simp only [List.cons_append,List.append_assoc,List.nil_append,readString,if_true]
  rw [readWords_flatMap readUnit_slashUnit readUnit_quote]
  · simp [decodeUtf16_flatMap hs]
  · have := length_le_flatMap readUnit_slashUnit readUnit_quote (s.flatMap utf16)
    rw [List.length_append]
    omega

lemma skipSpace_dumpsString (s : PyText) (x : List Char) :
    skipSpace (escapeSlashes (dumpsString s) ++ x)=escapeSlashes (dumpsString s) ++ x := by
  rw [escapeSlashes_dumpsString,List.cons_append,skipSpace_cons (by decide)]

lemma length_le_dumpsItems (xs : List PyText) :
    xs.length ≤ (escapeSlashes (dumpsItems xs)).length := by
  have hstring : ∀ s, 2 ≤ (escapeSlashes (dumpsString s)).length := by
    intro s
    simp only [escapeSlashes_dumpsString,List.length_cons,List.length_append]
    omega
  have hcomma : ∀ l, escapeSlashes (','::l) = ','::escapeSlashes l := fun _ => rfl
  fun_induction dumpsItems xs with
  | case1 => exact Nat.zero_le _
  | case2 s => exact le_trans (by simp) (hstring s)
  | case3 s t r ih =>
    have := hstring s
    simp only [escapeSlashes_append,hcomma,List.length_append,List.length_cons] at this ih ⊢
    omega

/-- The items of a list are read back up to the closing bracket. -/
lemma readItems_dumpsItems {xs : List PyText} (hxs : ∀ s ∈ xs, Merged s) (hne : xs ≠ []) {n : ℕ}
    (hn : xs.length ≤ n) :
    readItems n (escapeSlashes (dumpsItems xs) ++ [']'])=some (xs,[]) := by
  have hcomma : ∀ l, escapeSlashes (','::l) = ','::escapeSlashes l := fun _ => rfl
  fun_induction dumpsItems xs generalizing n with
  | case1 => contradiction
  | case2 s =>
    obtain ⟨n,rfl⟩ : ∃ m, n=m+1 := ⟨n-1,by rw [List.length_singleton] at hn; omega⟩
    rw [readItems,skipSpace_dumpsString,readString_dumpsString (hxs s List.mem_cons_self)]
    simp [skipSpace_cons (c := ']') (by decide)]
  | case3 s t r ih =>
    obtain ⟨n,rfl⟩ : ∃ m, n=m+1 := ⟨n-1,by rw [List.length_cons] at hn; omega⟩
    rw [List.length_cons] at hn
    rw [readItems,escapeSlashes_append,List.append_assoc,skipSpace_dumpsString,
      readString_dumpsString (hxs s List.mem_cons_self),hcomma,List.cons_append]
    simp [skipSpace_cons (c := ',') (by decide),
      ih (fun u hu => hxs u (List.mem_cons_of_mem _ hu)) (by simp) (Nat.le_of_succ_le_succ hn)]

/-- The list of strings is read back from its text, escaped slashes or not. -/
theorem loadsList_dumpsList {xs : List PyText} (hxs : ∀ s ∈ xs, Merged s) :
    loadsList (escapeSlashes (dumpsList xs))=some xs := by
  have hopen : escapeSlashes (dumpsList xs) = '['::(escapeSlashes (dumpsItems xs) ++ [']']) := by
    rw [dumpsList,← List.singleton_append,escapeSlashes_append,escapeSlashes_append]
    rfl
  rw [hopen,loadsList,skipSpace_cons (by decide)]
  simp only [if_true]
  cases xs with
  | nil => rfl
  | cons s xs =>
    have hquote : (skipSpace (escapeSlashes (dumpsItems (s::xs)) ++ [']'])).head?=some '"' := by
      obtain ⟨rest,hrest⟩ : ∃ rest, dumpsItems (s::xs)=dumpsString s ++ rest := by
        cases xs with
        | nil => exact ⟨[],by rw [dumpsItems,List.append_nil]⟩
        | cons t xs => exact ⟨_,rfl⟩
      rw [hrest,escapeSlashes_append,List.append_assoc,skipSpace_dumpsString,
        escapeSlashes_dumpsString]
      rfl
    have hfuel := length_le_dumpsItems (s::xs)
    rw [hquote,if_neg (by decide),readItems_dumpsItems hxs (by simp)
      (by rw [List.length_append]; omega)]
    rfl

/-- The text of a list of strings determines the strings. -/
theorem dumpsList_inj {xs ys : List PyText} (hx : ∀ s ∈ xs, Merged s) (hy : ∀ s ∈ ys, Merged s)
    (h : escapeSlashes (dumpsList xs)=escapeSlashes (dumpsList ys)) : xs=ys := by
  have hread := congrArg loadsList h
  rwa [loadsList_dumpsList hx,loadsList_dumpsList hy,Option.some.injEq] at hread

end VbApi.Foundations
