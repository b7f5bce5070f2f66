import VbApi.Foundations.DecimalText

/-! Text search queries as a database prints them: lexemes in quotes, operators between blanks, and
parentheses where the order of the operators asks for them. The reader takes such a text one
character at a time. -/
namespace VbApi.Foundations

/-- The largest distance of a phrase operator. -/
def maxDistance : ℕ := 16384

inductive TsQuery (α : Type*)
  | lexeme (a : α)
  | not (q : TsQuery α)
  | and (l r : TsQuery α)
  | or (l r : TsQuery α)
  | phrase (distance : Fin (maxDistance+1)) (l r : TsQuery α)

namespace TsQuery
variable {α : Type*}

def lexemes : TsQuery α → List α
  | .lexeme a => [a]
  | .not q => q.lexemes
  | .and l r | .or l r | .phrase _ l r => l.lexemes ++ r.lexemes

def parenthesised (needed : Bool) (s : PyText) : PyText :=
  if needed then text "( " ++ s ++ text " )" else s

def phraseMark (distance : ℕ) : PyText :=
  if distance=1 then text " <-> " else text " <" ++ padded 1 distance ++ text "> "

/-- The text of a query below an operator of some priority, to its right where that matters. -/
def printBelow (leaf : α → PyText) : TsQuery α → ℕ → Bool → PyText
  | .lexeme a,_,_ => leaf a
  | .not q,priority,_ => parenthesised (4 < priority) (text "!" ++ q.printBelow leaf 4 false)
  | .and l r,priority,_ => parenthesised (2 < priority)
      (l.printBelow leaf 2 false ++ text " & " ++ r.printBelow leaf 2 false)
  | .or l r,priority,_ => parenthesised (1 < priority)
      (l.printBelow leaf 1 false ++ text " | " ++ r.printBelow leaf 1 false)
  | .phrase distance l r,priority,right => parenthesised (3 < priority || right)
      (l.printBelow leaf 3 false ++ phraseMark distance ++ r.printBelow leaf 3 true)

def print (leaf : α → PyText) (q : TsQuery α) : PyText := q.printBelow leaf 0 false

lemma printBelow_congr {f g : α → PyText} (q : TsQuery α) (h : ∀ a ∈ q.lexemes, f a=g a)
    (priority : ℕ) (right : Bool) : q.printBelow f priority right=q.printBelow g priority right := by
  induction q generalizing priority right with
  | lexeme a => exact h a (List.mem_singleton_self a)
  | not q ih => rw [printBelow,printBelow,ih h]
  | and l r ihl ihr | or l r ihl ihr | phrase distance l r ihl ihr =>
    rw [printBelow,printBelow,ihl fun a ha => h a (List.mem_append_left _ ha),
      ihr fun a ha => h a (List.mem_append_right _ ha)]

/-- What is not in the lexemes has one length, whatever they are printed as. -/
lemma length_printBelow (q : TsQuery α) (priority : ℕ) (right : Bool) : ∃ n, ∀ leaf : α → PyText,
    (q.printBelow leaf priority right).length=n+(q.lexemes.map fun a => (leaf a).length).sum := by
  have hparen : ∀ needed, ∃ n, ∀ s, (parenthesised needed s).length=n+s.length := by
    intro needed
    cases needed with
    | false => exact ⟨0,fun s => (Nat.zero_add _).symm⟩
    | true => exact ⟨4,fun s => by simp [parenthesised,text]; omega⟩
  have hbinary : ∀ needed mark, ∃ n, ∀ s t,
      (parenthesised needed (s ++ mark ++ t)).length=n+s.length+t.length := by
    intro needed mark
    obtain ⟨n,hn⟩ := hparen needed
    exact ⟨n+mark.length,fun s t => by rw [hn,List.length_append,List.length_append]; omega⟩
  induction q generalizing priority right with
  | lexeme a => exact ⟨0,fun leaf => by simp [printBelow,lexemes]⟩
  | not q ih =>
    obtain ⟨n,hn⟩ := ih 4 false
    obtain ⟨k,hk⟩ := hparen (4 < priority)
    refine ⟨k+1+n,fun leaf => ?_⟩
    rw [printBelow,hk,List.length_append,hn,lexemes]
    change k+(1+_)=_
    omega
  | and l r ihl ihr =>
    obtain ⟨m,hm⟩ := ihl 2 false
    obtain ⟨n,hn⟩ := ihr 2 false
    obtain ⟨k,hk⟩ := hbinary (2 < priority) (text " & ")
    refine ⟨k+m+n,fun leaf => ?_⟩
    rw [printBelow,hk,hm,hn,lexemes,List.map_append,List.sum_append]
    omega
  | or l r ihl ihr =>
    obtain ⟨m,hm⟩ := ihl 1 false
    obtain ⟨n,hn⟩ := ihr 1 false
    obtain ⟨k,hk⟩ := hbinary (1 < priority) (text " | ")
    refine ⟨k+m+n,fun leaf => ?_⟩
    rw [printBelow,hk,hm,hn,lexemes,List.map_append,List.sum_append]
    omega
  | phrase distance l r ihl ihr =>
    obtain ⟨m,hm⟩ := ihl 3 false
    obtain ⟨n,hn⟩ := ihr 3 true
    obtain ⟨k,hk⟩ := hbinary (3 < priority || right) (phraseMark distance)
    refine ⟨k+m+n,fun leaf => ?_⟩
    rw [printBelow,hk,hm,hn,lexemes,List.map_append,List.sum_append]
    omega

/-- Longer lexemes make a longer text. -/
theorem length_eq_of_print_eq {f g : α → PyText} {q : TsQuery α} (h : q.print f=q.print g)
    (hle : ∀ a ∈ q.lexemes, (g a).length ≤ (f a).length) :
    ∀ a ∈ q.lexemes, (f a).length=(g a).length := by
  obtain ⟨n,hn⟩ := length_printBelow q 0 false
  have hsum := congrArg List.length h
  rw [print,print,hn,hn] at hsum
  intro a ha
  by_contra hne
  have := List.sum_lt_sum _ _ hle ⟨a,ha,lt_of_le_of_ne (hle a ha) (Ne.symm hne)⟩
  omega

end TsQuery

abbrev quote : CodePoint := codePoint '\''

/-- A lexeme in quotes; a quote or a backslash inside is doubled. -/
def quoteLexeme (w : PyText) : PyText :=
  quote::(w.flatMap fun c => if c=quote ∨ c=codePoint '\\' then [c,c] else [c]) ++ [quote]

/-- A lexeme that stands for all words it is the front of. -/
def prefixMark : PyText := text ":*"

/-! ### Reading -/

/-- What the reader of a query is in the middle of. -/
inductive TsMode
  | operand (first : Bool)
  /-- In a lexeme, with nothing or something of it read. -/
  | quoted (empty : Bool)
  | escaped
  /-- After a quote in a lexeme: its end, or the first of a pair. -/
  | closing (empty : Bool)
  | flags
  | operator
  | less
  | dash
  | digits (distance : ℕ)
  deriving DecidableEq

def isBlank (c : CodePoint) : Bool := (9 ≤ c.val && c.val ≤ 13) || c.val=32

def isFlag (c : CodePoint) : Bool :=
  c=codePoint '*' || (65 ≤ c.val && c.val ≤ 68) || (97 ≤ c.val && c.val ≤ 100)

/-- After an operand: an operator, a closing parenthesis, or the end. -/
def operatorStep (depth : ℕ) (c : CodePoint) : Option (TsMode × ℕ) :=
  if c=codePoint '&' ∨ c=codePoint '|' then some (.operand false,depth)
  else if c=codePoint '<' then some (.less,depth)
  else if c=codePoint ')' then if depth=0 then none else some (.operator,depth-1)
  else if isBlank c then some (.operator,depth)
  else none

/-- One character, at a depth of parentheses; a syntax error is `none`. Lexemes without quotes are
not read. -/
def tsStep : TsMode × ℕ → CodePoint → Option (TsMode × ℕ)
  | (.operand first,depth),c =>
    if c=codePoint '!' then some (.operand false,depth)
    else if c=codePoint '(' then some (.operand false,depth+1)
    else if c=quote then some (.quoted true,depth)
    else if isBlank c then some (.operand first,depth)
    else none
  | (.quoted empty,depth),c =>
    if c=quote then some (.closing empty,depth)
    else if c=codePoint '\\' then some (.escaped,depth)
    else some (.quoted false,depth)
  | (.escaped,depth),_ => some (.quoted false,depth)
  | (.closing empty,depth),c =>
    if c=quote then some (.quoted false,depth)
    else if empty then none
    else if c=codePoint ':' then some (.flags,depth)
    else operatorStep depth c
  | (.flags,depth),c => if isFlag c then some (.flags,depth) else operatorStep depth c
  | (.operator,depth),c => operatorStep depth c
  | (.less,depth),c =>
    if c=codePoint '-' then some (.dash,depth)
    else (asciiDigit? c).map fun v => (.digits v,depth)
  | (.dash,depth),c => if c=codePoint '>' then some (.operand false,depth) else none
  | (.digits distance,depth),c =>
    if c=codePoint '>' then if distance ≤ maxDistance then some (.operand false,depth) else none
    else (asciiDigit? c).map fun v => (.digits (distance*10+v),depth)

/-- Where a text may end. -/
def TsMode.ends : TsMode → Bool
  | .operand first => first
  | .closing empty => !empty
  | .flags | .operator => true
  | _ => false

/-- The text is a query. -/
def readsTsQuery (s : PyText) : Bool :=
  (s.foldlM tsStep (.operand true,0)).any fun (mode,depth) => mode.ends && depth=0

/-- An operand was read last. -/
def TsMode.AfterOperand (m : TsMode) : Prop := m=.closing false ∨ m=.flags ∨ m=.operator

lemma TsMode.AfterOperand.blank {m : TsMode} (h : m.AfterOperand) (depth : ℕ) :
    tsStep (m,depth) (codePoint ' ')=some (.operator,depth) := by
  rcases h with rfl | rfl | rfl
  · rfl
  · rfl
  · rfl

lemma TsMode.AfterOperand.ends {m : TsMode} (h : m.AfterOperand) : m.ends=true := by
  rcases h with rfl | rfl | rfl
  · rfl
  · rfl
  · rfl

/-- The text is read as one operand, wherever one is expected. -/
def ReadsOperand (s : PyText) : Prop :=
  ∀ first depth, ∃ m : TsMode, m.AfterOperand ∧ s.foldlM tsStep (.operand first,depth)=some (m,depth)

/-- The text is read as an operator between two operands. -/
def ReadsOperator (s : PyText) : Prop :=
  ∀ m : TsMode, m.AfterOperand → ∀ depth, s.foldlM tsStep (m,depth)=some (.operand false,depth)

lemma ReadsOperand.reads {s : PyText} (h : ReadsOperand s) : readsTsQuery s=true := by
  obtain ⟨m,hm,hs⟩ := h true 0
  rw [readsTsQuery,hs]
  simp [hm.ends]

lemma ReadsOperand.parenthesised {s : PyText} (h : ReadsOperand s) (needed : Bool) :
    ReadsOperand (TsQuery.parenthesised needed s) := by
  cases needed with
  | false => exact h
  | true =>
    intro first depth
    obtain ⟨m,hm,hs⟩ := h false (depth+1)
    refine ⟨.operator,Or.inr (Or.inr rfl),?_⟩
    have hopen : (text "( ").foldlM tsStep (.operand first,depth)=
        some (.operand false,depth+1) := rfl
    have hclose : (text " )").foldlM tsStep (m,depth+1)=some (.operator,depth) := by
      change (tsStep (m,depth+1) (codePoint ' ') >>= fun st => [codePoint ')'].foldlM tsStep st)=_
      rw [hm.blank]
      rfl
    simp only [TsQuery.parenthesised,if_true,List.foldlM_append,hopen,hs,hclose,
      Option.bind_eq_bind,Option.bind_some]

lemma ReadsOperand.not {s : PyText} (h : ReadsOperand s) : ReadsOperand (text "!" ++ s) := by
  intro first depth
  obtain ⟨m,hm,hs⟩ := h false depth
  have hnot : (text "!").foldlM tsStep (.operand first,depth)=some (.operand false,depth) := rfl
  refine ⟨m,hm,?_⟩
  rw [List.foldlM_append,hnot]
  exact hs

lemma ReadsOperand.binary {l mark r : PyText} (hl : ReadsOperand l) (hmark : ReadsOperator mark)
    (hr : ReadsOperand r) : ReadsOperand (l ++ mark ++ r) := by
  intro first depth
  obtain ⟨m,hm,hrun⟩ := hl first depth
  obtain ⟨m',hm',hrun'⟩ := hr false depth
  refine ⟨m',hm',?_⟩
  simp only [List.foldlM_append,hrun,hmark m hm depth,hrun',Option.bind_eq_bind,Option.bind_some]

lemma readsOperator_of_blank {s : PyText}
    (h : ∀ depth, s.foldlM tsStep (.operator,depth)=some (.operand false,depth)) :
    ReadsOperator (codePoint ' '::s) := by
  intro m hm depth
  rw [List.foldlM_cons,hm.blank]
  exact h depth

lemma foldlM_digits (cs : List Char) (hcs : ∀ c ∈ cs, c.isDigit=true) (n depth : ℕ) :
    (cs.map codePoint).foldlM tsStep (.digits n,depth)=
      some (.digits (Nat.ofDigitChars 10 cs n),depth) := by
  induction cs generalizing n with
  | nil => rfl
  | cons c cs ih =>
    have hc := hcs c List.mem_cons_self
    have hstep : tsStep (.digits n,depth) (codePoint c)=some (.digits (n*10+(c.toNat-48)),depth) := by
      rw [tsStep,if_neg (codePoint_ne_of_isDigit hc (by decide)),asciiDigit?_codePoint hc]
      rfl
    rw [List.map_cons,List.foldlM_cons,hstep,Nat.ofDigitChars_cons,Nat.mul_comm 10 n]
    exact ih (fun d hd => hcs d (List.mem_cons_of_mem c hd)) _

lemma readsOperator_phraseMark (distance : Fin (maxDistance+1)) :
    ReadsOperator (TsQuery.phraseMark distance) := by
  unfold TsQuery.phraseMark
  split_ifs with hone
  · exact readsOperator_of_blank fun _ => rfl
  · apply readsOperator_of_blank
    intro depth
    have hless : tsStep (.operator,depth) (codePoint '<')=some (.less,depth) := rfl
    have hclose : ∀ n ≤ maxDistance, (text "> ").foldlM tsStep (.digits n,depth)=
        some (.operand false,depth) := by
      intro n hn
      change (tsStep (.digits n,depth) (codePoint '>') >>= fun st => [codePoint ' '].foldlM tsStep st)=_
      rw [tsStep,if_pos rfl,if_pos hn]
      rfl
    have hpos : 0 < (paddedChars 1 distance.val).length := by
      simp only [paddedChars,List.length_append,List.length_replicate]
      omega
    obtain ⟨c,cs,hcs⟩ := List.exists_cons_of_length_pos hpos
    have hdigits : ∀ d ∈ c::cs, d.isDigit=true := by
      intro d hd
      rw [← hcs] at hd
      exact isDigit_of_mem_paddedChars hd
    have hfirst : tsStep (.less,depth) (codePoint c)=some (.digits (c.toNat-48),depth) := by
      have hc := hdigits c List.mem_cons_self
      rw [tsStep,if_neg (codePoint_ne_of_isDigit hc (by decide)),asciiDigit?_codePoint hc]
      rfl
    have hvalue : Nat.ofDigitChars 10 cs (c.toNat-48)=distance.val := by
      have h := ofDigitChars_paddedChars 1 distance.val
      rw [hcs,Nat.ofDigitChars_cons] at h
      simpa using h
    have hnumber : (padded 1 distance.val).foldlM tsStep (.less,depth)=
        some (.digits distance.val,depth) := by
      rw [padded_eq_map,hcs,List.map_cons,List.foldlM_cons,hfirst]
      change (cs.map codePoint).foldlM tsStep (.digits (c.toNat-48),depth)=_
      rw [foldlM_digits cs (fun d hd => hdigits d (List.mem_cons_of_mem c hd)),hvalue]
    change (codePoint '<'::(padded 1 distance.val ++ text "> ")).foldlM tsStep (.operator,depth)=_
    rw [List.foldlM_cons,hless]
    change (padded 1 distance.val ++ text "> ").foldlM tsStep (.less,depth)=_
    rw [List.foldlM_append,hnumber]
    exact hclose _ (Nat.lt_succ_iff.mp distance.isLt)

/-- A printed query is read when its lexemes are. -/
theorem readsOperand_printBelow {α : Type*} {leaf : α → PyText} (q : TsQuery α)
    (hleaf : ∀ a ∈ q.lexemes, ReadsOperand (leaf a)) (priority : ℕ) (right : Bool) :
    ReadsOperand (q.printBelow leaf priority right) := by
  induction q generalizing priority right with
  | lexeme a => exact hleaf a (List.mem_singleton_self a)
  | not q ih => exact (ih hleaf _ _).not.parenthesised _
  | and l r ihl ihr =>
    have hl := ihl (fun a ha => hleaf a (List.mem_append_left _ ha)) 2 false
    have hr := ihr (fun a ha => hleaf a (List.mem_append_right _ ha)) 2 false
    exact (hl.binary (readsOperator_of_blank fun _ => rfl) hr).parenthesised _
  | or l r ihl ihr =>
    have hl := ihl (fun a ha => hleaf a (List.mem_append_left _ ha)) 1 false
    have hr := ihr (fun a ha => hleaf a (List.mem_append_right _ ha)) 1 false
    exact (hl.binary (readsOperator_of_blank fun _ => rfl) hr).parenthesised _
  | phrase distance l r ihl ihr =>
    have hl := ihl (fun a ha => hleaf a (List.mem_append_left _ ha)) 3 false
    have hr := ihr (fun a ha => hleaf a (List.mem_append_right _ ha)) 3 true
    exact (hl.binary (readsOperator_phraseMark distance) hr).parenthesised _

/-- A quoted lexeme is read, and one with the mark of a prefix too. -/
lemma readsOperand_quoteLexeme {w : PyText} (hw : w ≠ []) :
    ReadsOperand (quoteLexeme w) ∧ ReadsOperand (quoteLexeme w ++ prefixMark) := by
  have hinside : ∀ (s : PyText) (empty : Bool) (depth : ℕ),
      (s.flatMap fun c => if c=quote ∨ c=codePoint '\\' then [c,c] else [c]).foldlM tsStep
        (.quoted empty,depth)=some (.quoted (empty && s.isEmpty),depth) := by
    intro s
    induction s with
    | nil => simp
    | cons c s ih =>
      intro empty depth
      have hstep : (if c=quote ∨ c=codePoint '\\' then [c,c] else [c]).foldlM tsStep
          (.quoted empty,depth)=some (.quoted false,depth) := by
        by_cases hquote : c=quote
        · subst hquote
          rfl
        · by_cases hslash : c=codePoint '\\'
          · subst hslash
            rfl
          · rw [if_neg (by tauto)]
            change (tsStep (.quoted empty,depth) c >>= fun st => some st)=_
            rw [tsStep,if_neg hquote,if_neg hslash]
            rfl
      rw [List.flatMap_cons,List.foldlM_append,hstep]
      change List.foldlM tsStep (.quoted false,depth) _=_
      rw [ih]
      simp
  have hrun : ∀ first depth, (quoteLexeme w).foldlM tsStep (.operand first,depth)=
      some (.closing false,depth) := by
    intro first depth
    have hopen : tsStep (.operand first,depth) quote=some (.quoted true,depth) := rfl
    have hw' : w.isEmpty=false := by simpa using hw
    rw [quoteLexeme,List.cons_append,List.foldlM_cons,hopen]
    change List.foldlM tsStep (.quoted true,depth) _=_
    rw [List.foldlM_append,hinside,hw']
    rfl
  constructor
  · exact fun first depth => ⟨_,Or.inl rfl,hrun first depth⟩
  · intro first depth
    refine ⟨.flags,Or.inr (Or.inl rfl),?_⟩
    rw [List.foldlM_append,hrun]
    rfl

end VbApi.Foundations
