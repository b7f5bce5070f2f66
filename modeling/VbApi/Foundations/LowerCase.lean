import VbApi.Foundations.PyText

/-! Lower case as `str.lower` has it. The letters A to Z are lowered by themselves; what the Unicode data
say of the other characters, whose lower case may depend on the text around them, is a parameter. -/
namespace VbApi.Foundations

def lowerLetter (c : CodePoint) : CodePoint :=
  if 65 ≤ c.val ∧ c.val ≤ 90 then codePoint (Char.ofNat (c.val+32)) else c

lemma lowerLetter_val {c : CodePoint} (h : 65 ≤ c.val ∧ c.val ≤ 90) : (lowerLetter c).val=c.val+32 := by
  rw [lowerLetter,if_pos h]
  exact toNat_ofNat_ascii (by omega)

lemma lowerLetter_other {c : CodePoint} (h : ¬ (65 ≤ c.val ∧ c.val ≤ 90)) : lowerLetter c=c := if_neg h

/-- The lower case of a character between two texts. -/
abbrev LowerData := PyText → CodePoint → PyText → PyText

section Lower
variable (data : LowerData)

def lowerFrom : PyText → PyText → PyText
  | _,[] => []
  | before,c::after =>
    (if c.val < 128 then [lowerLetter c] else data before c after) ++ lowerFrom (before ++ [c]) after

/-- `s.lower()`. -/
def lower (s : PyText) : PyText := lowerFrom data [] s

/-- What the Unicode data say: of the characters beyond ASCII only the Kelvin sign and the dotted capital
I have a lower case with ASCII letters, and no lower case is empty. -/
structure UnicodeLower : Prop where
  kelvin : ∀ before after, data before 0x212A after=text "k"
  dotted : ∀ before after, data before 0x130 after=[codePoint 'i',0x307]
  others : ∀ before c after, 128 ≤ c.val → c ≠ 0x212A → c ≠ 0x130 →
    data before c after ≠ [] ∧ ∀ x ∈ data before c after, 128 ≤ x.val

end Lower

/-- An ASCII text that no part of a character's lower case can be read as a piece of. -/
structure Searchable (p : PyText) : Prop where
  ascii : ∀ x ∈ p, x.val < 128
  no_k : codePoint 'k' ∉ p
  last : p.getLast? ≠ some (codePoint 'i')

lemma Searchable.tail {x : CodePoint} {p : PyText} (h : Searchable (x::p)) : Searchable p where
  ascii y hy := h.ascii y (List.mem_cons_of_mem x hy)
  no_k hk := h.no_k (List.mem_cons_of_mem x hk)
  last := by
    cases p with
    | nil => simp
    | cons y p =>
      have hlast := h.last
      rw [List.getLast?_cons_cons] at hlast
      exact hlast

/-- A text found in `piece ++ rest` starts in the piece or lies in the rest. -/
lemma infix_append_cases {α : Type*} {p piece rest : List α} (h : p <:+: piece ++ rest) :
    p <:+: rest ∨ ∃ a b, piece=a ++ b ∧ b ≠ [] ∧ p <+: b ++ rest := by
  induction piece with
  | nil => exact .inl h
  | cons x piece ih =>
    rw [List.cons_append,List.infix_cons_iff] at h
    rcases h with hstart | hinside
    · exact .inr ⟨[],x::piece,rfl,by simp,hstart⟩
    · rcases ih hinside with hrest | ⟨a,b,rfl,hne,hstart⟩
      · exact .inl hrest
      · exact .inr ⟨x::a,b,rfl,hne,hstart⟩

section Search
variable {data : LowerData} {p s before : PyText}

lemma lowerLetter_ascii {c : CodePoint} (h : (lowerLetter c).val < 128) : c.val < 128 := by
  unfold lowerLetter at h
  split_ifs at h with hletter
  · omega
  · exact h

lemma lowerFrom_ascii {m : PyText} (h : ∀ c ∈ m, c.val < 128) (rest : PyText) :
    lowerFrom data before (m ++ rest)=m.map lowerLetter ++ lowerFrom data (before ++ m) rest := by
  induction m generalizing before with
  | nil => simp
  | cons c m ih =>
    rw [List.cons_append,lowerFrom,if_pos (h c List.mem_cons_self),
      ih fun d hd => h d (List.mem_cons_of_mem c hd)]
    simp

lemma exists_lowerFrom_append (a rest : PyText) :
    ∃ x, lowerFrom data before (a ++ rest)=x ++ lowerFrom data (before ++ a) rest := by
  induction a generalizing before with
  | nil => exact ⟨[],by simp⟩
  | cons c a ih =>
    obtain ⟨x,hx⟩ := @ih (before ++ [c])
    rw [List.append_assoc,List.singleton_append] at hx
    rw [List.cons_append,lowerFrom,hx]
    exact ⟨_,(List.append_assoc _ x _).symm⟩

lemma UnicodeLower.cases (h : UnicodeLower data) {c : CodePoint} (hc : 128 ≤ c.val)
    (before after : PyText) :
    data before c after=text "k" ∨ data before c after=[codePoint 'i',0x307] ∨
      data before c after ≠ [] ∧ ∀ x ∈ data before c after, 128 ≤ x.val := by
  by_cases hkelvin : c=0x212A
  · rw [hkelvin]
    exact .inl (h.kelvin before after)
  · by_cases hdotted : c=0x130
    · rw [hdotted]
      exact .inr (.inl (h.dotted before after))
    · exact .inr (.inr (h.others before c after hc hkelvin hdotted))

/-- A searchable text at the start of a lower case comes from the letters at the start of the text. -/
lemma UnicodeLower.exists_prefix (h : UnicodeLower data) (hp : Searchable p)
    (hstart : p <+: lowerFrom data before s) : ∃ m, m.map lowerLetter=p ∧ m <+: s := by
  induction p generalizing s before with
  | nil => exact ⟨[],rfl,List.nil_prefix⟩
  | cons x p ih =>
    have hx := hp.ascii x List.mem_cons_self
    cases s with
    | nil =>
      rw [lowerFrom,List.prefix_nil] at hstart
      cases hstart
    | cons c after =>
      rw [lowerFrom] at hstart
      split_ifs at hstart with hc
      · obtain ⟨rfl,hrest⟩ := List.cons_prefix_cons.mp hstart
        obtain ⟨m,hm,hstart⟩ := ih hp.tail hrest
        exact ⟨c::m,by rw [List.map_cons,hm],List.cons_prefix_cons.mpr ⟨rfl,hstart⟩⟩
      · rcases h.cases (not_lt.mp hc) before after with hk | hi | ⟨hne,hother⟩
        · rw [hk] at hstart
          obtain ⟨rfl,-⟩ := List.cons_prefix_cons.mp hstart
          exact absurd List.mem_cons_self hp.no_k
        · rw [hi] at hstart
          obtain ⟨rfl,hrest⟩ := List.cons_prefix_cons.mp hstart
          cases p with
          | nil => exact absurd rfl hp.last
          | cons y p =>
            obtain ⟨rfl,-⟩ := List.cons_prefix_cons.mp hrest
            exact absurd (hp.tail.ascii _ List.mem_cons_self) (by decide)
        · obtain ⟨z,zs,hpiece⟩ := List.exists_cons_of_ne_nil hne
          rw [hpiece] at hstart hother
          obtain ⟨rfl,-⟩ := List.cons_prefix_cons.mp hstart
          exact absurd hx (not_lt.mpr (hother x List.mem_cons_self))

/-- A searchable text does not start within the lower case of a character. -/
lemma UnicodeLower.no_start_inside (h : UnicodeLower data) (hp : Searchable p) (hne : p ≠ [])
    {c : CodePoint} {a b after rest : PyText} (ha : a ≠ []) (hb : b ≠ [])
    (hpiece : (if c.val < 128 then [lowerLetter c] else data before c after)=a ++ b) :
    ¬ p <+: b ++ rest := by
  intro hstart
  obtain ⟨x,p,rfl⟩ := List.exists_cons_of_ne_nil hne
  obtain ⟨z,b,rfl⟩ := List.exists_cons_of_ne_nil hb
  obtain ⟨y,a,rfl⟩ := List.exists_cons_of_ne_nil ha
  obtain ⟨rfl,-⟩ := List.cons_prefix_cons.mp hstart
  have hx := hp.ascii x List.mem_cons_self
  split_ifs at hpiece with hc
  · simp at hpiece
  · rcases h.cases (not_lt.mp hc) before after with hk | hi | ⟨-,hother⟩
    · have hone : (text "k").length=1 := rfl
      rw [hk] at hpiece
      have hlength := congrArg List.length hpiece
      simp only [hone,List.length_append,List.length_cons] at hlength
      omega
    · rw [hi] at hpiece
      obtain ⟨-,hrest⟩ := List.cons_eq_cons.mp hpiece
      have hmem : x ∈ [(0x307 : CodePoint)] := hrest ▸ List.mem_append_right a List.mem_cons_self
      rw [List.mem_singleton.mp hmem] at hx
      exact absurd hx (by decide)
    · rw [hpiece] at hother
      have hmem : x ∈ y::a ++ x::b := List.mem_append_right _ List.mem_cons_self
      exact absurd hx (not_lt.mpr (hother x hmem))

lemma UnicodeLower.exists_infix (h : UnicodeLower data) (hp : Searchable p) (hne : p ≠ [])
    (hinside : p <:+: lowerFrom data before s) : ∃ m, m.map lowerLetter=p ∧ m <:+: s := by
  induction s generalizing before with
  | nil =>
    rw [lowerFrom,List.infix_nil] at hinside
    exact absurd hinside hne
  | cons c after ih =>
    have hwhole : lowerFrom data before (c::after)=
        (if c.val < 128 then [lowerLetter c] else data before c after) ++
          lowerFrom data (before ++ [c]) after := rfl
    rw [hwhole] at hinside
    rcases infix_append_cases hinside with hrest | ⟨a,b,hpiece,hb,hstart⟩
    · obtain ⟨m,hm,hlater⟩ := ih hrest
      exact ⟨m,hm,List.infix_cons hlater⟩
    · by_cases ha : a=[]
      · rw [ha,List.nil_append] at hpiece
        rw [← hpiece,← hwhole] at hstart
        obtain ⟨m,hm,hbegins⟩ := h.exists_prefix hp hstart
        exact ⟨m,hm,hbegins.isInfix⟩
      · exact absurd hstart (h.no_start_inside hp hne ha hb hpiece)

/-- A text is found in the lower case exactly where a text that only differs in the case of letters from
A to Z stands. -/
theorem UnicodeLower.infix_lower_iff (h : UnicodeLower data) (hp : Searchable p) (hne : p ≠ []) :
    p <:+: lower data s ↔ ∃ m, m.map lowerLetter=p ∧ m <:+: s := by
  constructor
  · exact h.exists_infix hp hne
  · intro hm
    obtain ⟨m,rfl,a,b,rfl⟩ := hm
    have hascii : ∀ c ∈ m, c.val < 128 :=
      fun c hc => lowerLetter_ascii (hp.ascii _ (List.mem_map_of_mem hc))
    have hexists : ∃ x, lowerFrom data [] (a ++ (m ++ b))=x ++ lowerFrom data ([] ++ a) (m ++ b) :=
      exists_lowerFrom_append a (m ++ b)
    obtain ⟨x,hx⟩ := hexists
    rw [lower,List.append_assoc,hx,lowerFrom_ascii hascii]
    exact ⟨x,_,List.append_assoc _ _ _⟩

end Search

end VbApi.Foundations
