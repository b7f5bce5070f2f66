import Mathlib.Tactic

/-! Python strings as lists of code points, lone surrogates included, with the operations of
`str` and `re` that read a character's class. -/
namespace VbApi.Foundations

abbrev CodePoint := Fin 1114112
abbrev PyText := List CodePoint

instance : LawfulBEq (Option PyText) := inferInstance

instance decidableMemTexts (s : PyText) (xs : List PyText) : Decidable (s ∈ xs) := inferInstance

def codePoint (c : Char) : CodePoint :=
  ⟨c.toNat,by
    have h : c.toNat < 55296 ∨ 57343 < c.toNat ∧ c.toNat < 1114112 := c.valid
    omega⟩

lemma toNat_ofNat_ascii {n : ℕ} (h : n ≤ 126) : (Char.ofNat n).toNat=n := by
  have hall : ∀ m : Fin 127, (Char.ofNat m.val).toNat=m.val := by decide
  exact hall ⟨n,by omega⟩

/-- A string literal of the source. -/
def text (s : String) : PyText := s.toList.map codePoint

def isHighSurrogate (c : CodePoint) : Bool := 0xD800 ≤ c.val && c.val < 0xDC00
def isLowSurrogate (c : CodePoint) : Bool := 0xDC00 ≤ c.val && c.val < 0xE000

/-- `str.isspace` of one character. -/
def isSpace (c : CodePoint) : Bool :=
  (9 ≤ c.val && c.val ≤ 13) || (28 ≤ c.val && c.val ≤ 32) || c.val=0x85 || c.val=0xA0 ||
  c.val=0x1680 || (0x2000 ≤ c.val && c.val ≤ 0x200A) || c.val=0x2028 || c.val=0x2029 ||
  c.val=0x202F || c.val=0x205F || c.val=0x3000

/-- The digit zero of every block of decimal digits (general category Nd, Unicode 16). -/
def decimalZeros : List ℕ :=
  [0x30,0x660,0x6F0,0x7C0,0x966,0x9E6,0xA66,0xAE6,0xB66,0xBE6,0xC66,0xCE6,0xD66,0xDE6,0xE50,
   0xED0,0xF20,0x1040,0x1090,0x17E0,0x1810,0x1946,0x19D0,0x1A80,0x1A90,0x1B50,0x1BB0,0x1C40,
   0x1C50,0xA620,0xA8D0,0xA900,0xA9D0,0xA9F0,0xAA50,0xABF0,0xFF10,0x104A0,0x10D30,0x10D40,
   0x11066,0x110F0,0x11136,0x111D0,0x112F0,0x11450,0x114D0,0x11650,0x116C0,0x116D0,0x116DA,
   0x11730,0x118E0,0x11950,0x11BF0,0x11C50,0x11D50,0x11DA0,0x11F50,0x16130,0x16A60,0x16AC0,
   0x16B50,0x16D70,0x1CCF0,0x1D7CE,0x1D7D8,0x1D7E2,0x1D7EC,0x1D7F6,0x1E140,0x1E2F0,0x1E4F0,
   0x1E5F1,0x1E950,0x1FBF0]

/-- The value of a character that `\d` matches. -/
def digit? (c : CodePoint) : Option ℕ :=
  (decimalZeros.find? fun z => z ≤ c.val && c.val < z+10).map fun z => c.val-z

def asciiDigit? (c : CodePoint) : Option ℕ :=
  if 48 ≤ c.val ∧ c.val ≤ 57 then some (c.val-48) else none

lemma digit?_of_ascii {c : CodePoint} {v : ℕ} (h : asciiDigit? c=some v) : digit? c=some v := by
  rw [asciiDigit?] at h
  split_ifs at h with hc
  cases h
  have hzero : (decimalZeros.find? fun z => z ≤ c.val && c.val < z+10)=some 0x30 := by
    rw [decimalZeros,List.find?_cons_of_pos]
    simp only [Bool.and_eq_true,decide_eq_true_eq]
    omega
  rw [digit?,hzero]
  rfl

def strip (s : PyText) : PyText :=
  ((s.dropWhile isSpace).reverse.dropWhile isSpace).reverse

/-- `str.split()`: the words between runs of blanks. -/
def splitWords (s : PyText) : List PyText :=
  (s.splitOnP isSpace).filter (fun w => w ≠ [])

/-- `sep.join(words)`. -/
def join (sep : PyText) (words : List PyText) : PyText := sep.intercalate words

/-- `str.upper()` on the characters that have an ASCII case. -/
def upperAscii (s : PyText) : PyText :=
  s.map fun c => if h : 97 ≤ c.val ∧ c.val ≤ 122 then ⟨c.val-32,by omega⟩ else c

/-- What a PostgreSQL text column can hold: no NUL and no lone surrogate. -/
def Storable (s : PyText) : Prop :=
  ∀ c ∈ s, c.val ≠ 0 ∧ isHighSurrogate c=false ∧ isLowSurrogate c=false

-- over the characters of the text, not over all code points
instance (s : PyText) : Decidable (Storable s) := List.decidableBAll _ s

/-- No surrogate pair stands unmerged: what `json.loads` and the encoding of a stored text yield. -/
def Merged : PyText → Prop
  | c::d::s => ¬ (isHighSurrogate c=true ∧ isLowSurrogate d=true) ∧ Merged (d::s)
  | _ => True

instance instDecidableMerged : (s : PyText) → Decidable (Merged s)
  | [] => isTrue trivial
  | [_] => isTrue trivial
  | c::d::s =>
    have := instDecidableMerged (d::s)
    inferInstanceAs (Decidable (¬ (isHighSurrogate c=true ∧ isLowSurrogate d=true) ∧ Merged (d::s)))

lemma Merged.tail {c : CodePoint} {s : PyText} (h : Merged (c::s)) : Merged s := by
  cases s with
  | nil => trivial
  | cons d s => exact h.2

lemma Merged.of_append_left {s t : PyText} (h : Merged (s ++ t)) : Merged s := by
  induction s with
  | nil => trivial
  | cons c s ih =>
    cases s with
    | nil => trivial
    | cons d s => exact ⟨h.1,ih h.2⟩

lemma Merged.of_append_right {s t : PyText} (h : Merged (s ++ t)) : Merged t := by
  induction s with
  | nil => exact h
  | cons c s ih => exact ih (Merged.tail h)

/-- A text without blanks is kept. -/
lemma strip_eq_self {s : PyText} (h : ∀ c ∈ s, isSpace c=false) : strip s=s := by
  have hkeep : ∀ r : PyText, (∀ c ∈ r, isSpace c=false) → r.dropWhile isSpace=r := by
    intro r hr
    cases r with
    | nil => rfl
    | cons c r => rw [List.dropWhile_cons_of_neg (by simp [hr c List.mem_cons_self])]
  rw [strip,hkeep s h,hkeep s.reverse fun c hc => h c (List.mem_reverse.mp hc),List.reverse_reverse]

lemma strip_infix (s : PyText) : ∃ a b, s=a ++ strip s ++ b := by
  obtain ⟨a,ha⟩ := List.dropWhile_suffix isSpace (l := s)
  obtain ⟨b,hb⟩ := List.dropWhile_suffix isSpace (l := (s.dropWhile isSpace).reverse)
  refine ⟨a,b.reverse,?_⟩
  rw [strip,List.append_assoc,← List.reverse_append,hb,List.reverse_reverse,ha]

lemma Merged.strip {s : PyText} (h : Merged s) : Merged (strip s) := by
  obtain ⟨a,b,hs⟩ := strip_infix s
  rw [hs] at h
  exact Merged.of_append_right (Merged.of_append_left h)

/-- A Python text without an unmerged surrogate pair. -/
structure JsonText where
  codes : PyText
  merged : Merged codes
  deriving DecidableEq

def JsonText.strip (s : JsonText) : JsonText := ⟨Foundations.strip s.codes,s.merged.strip⟩

example : splitWords (text " at61  1904 ") = [text "at61",text "1904"] := by decide

end VbApi.Foundations
