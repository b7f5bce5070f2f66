import VbApi.Foundations.TsQuery

/-! The prefix query that every search runs on. A regular expression marks what stands in quotes in
the printed query; the quotes inside a lexeme are doubled there. -/
namespace VbApi.Search
open VbApi.Foundations

/-- A lexeme is never empty. -/
abbrev Lexeme := {w : PyText // w ≠ []}

section Source
variable (isWord : CodePoint → Bool) (websearch : PyText → Option (TsQuery Lexeme))

/-- `regexp_replace(s, r"'(\w+)'", r"'\1':*", "g")`, one character after the other: since the last
quote there were only these word characters, or there is no quote to start from. -/
def markWords : Option PyText → PyText → PyText
  | none,[] => []
  | some w,[] => quote::w
  | none,c::s => if c=quote then markWords (some []) s else c::markWords none s
  | some w,c::s =>
    if isWord c then markWords (some (w ++ [c])) s
    else if c=quote then
      if w=[] then quote::markWords (some []) s
      else quote::w ++ quote::prefixMark ++ markWords none s
    else quote::w ++ c::markWords none s

/-- `cast(func.websearch_to_tsquery("german", query), Text)`; a query without lexemes is empty. -/
def safeQueryText (query : PyText) : PyText :=
  (websearch query).elim [] fun q => q.print fun w => quoteLexeme w.val

def buildPrefixTsqueryText (query : PyText) : PyText :=
  markWords isWord none (safeQueryText websearch query)

end Source

/-- What `\w` does not match. -/
structure WordClass (isWord : CodePoint → Bool) : Prop where
  quote : isWord quote=false
  backslash : isWord (codePoint '\\')=false
  blank : isWord (codePoint ' ')=false

section Lexemes
variable (isWord : CodePoint → Bool)

def isWordText (w : PyText) : Bool := w ≠ [] && w.all isWord

/-- The lexeme with the mark of a prefix if it is made of word characters. -/
def prefixLexeme (w : Lexeme) : PyText :=
  quoteLexeme w.val ++ if isWordText isWord w.val then prefixMark else []

/-- What stands between the quotes of a lexeme, and between them and its ends, is no word. -/
def NoQuotedWord (w : Lexeme) : Prop :=
  quote ∈ w.val → ∀ part ∈ w.val.splitOn quote, isWordText isWord part=false

instance (w : Lexeme) : Decidable (NoQuotedWord isWord w) := inferInstanceAs (Decidable (_ → _))

/-- Nothing for nothing, and otherwise a query: the parsed one with the words marked. -/
def PrefixLaw (websearch : PyText → Option (TsQuery Lexeme)) (query : PyText) : Prop :=
  match websearch query with
  | none => buildPrefixTsqueryText isWord websearch query=[]
  | some q => buildPrefixTsqueryText isWord websearch query=q.print (prefixLexeme isWord) ∧
      readsTsQuery (buildPrefixTsqueryText isWord websearch query)=true

def doubleSlashes (s : PyText) : PyText :=
  s.flatMap fun c => if c=codePoint '\\' then [c,c] else [c]

/-- A part of a lexeme as it is printed: the two quotes of a pair belong to two parts. -/
def quotePart (p : PyText) : PyText := quote::doubleSlashes p ++ [quote]

def markPart (p : PyText) : PyText := quotePart p ++ if isWordText isWord p then prefixMark else []

/-- What becomes of a lexeme. -/
def markedLexeme (w : Lexeme) : PyText := (w.val.splitOn quote).flatMap (markPart isWord)

end Lexemes

lemma quoteLexeme_eq (w : PyText) : quoteLexeme w=(w.splitOn quote).flatMap quotePart := by
  have hfront : ∀ front : PyText, quote::doubleSlashes front ++
      (w.flatMap fun c => if c=quote ∨ c=codePoint '\\' then [c,c] else [c]) ++ [quote]=
      ((w.splitOn quote).modifyHead (front ++ ·)).flatMap quotePart := by
    induction w with
    | nil => simp [quotePart]
    | cons c w ih =>
      intro front
      rw [List.splitOn_cons_eq_if_modifyHead]
      by_cases hc : c=quote
      · have h := ih []
        have hid : (w.splitOn quote).modifyHead (fun p => [] ++ p)=w.splitOn quote := by
          cases w.splitOn quote <;> rfl
        rw [hid] at h
        subst hc
        simp only [beq_self_eq_true,if_true,List.modifyHead_cons,List.append_nil,List.flatMap_cons,
          ← h,quotePart]
        simp [doubleSlashes]
      · have h := ih (front ++ [c])
        have hbeq : (c==quote)=false := beq_eq_false_iff_ne.mpr hc
        have hcomp : ((w.splitOn quote).modifyHead (List.cons c)).modifyHead (front ++ ·)=
            (w.splitOn quote).modifyHead ((front ++ [c]) ++ ·) := by
          cases w.splitOn quote <;> simp
        rw [hbeq,if_neg Bool.false_ne_true,hcomp,← h]
        simp [doubleSlashes,hc]
  have h := hfront []
  have hid : (w.splitOn quote).modifyHead (fun p => [] ++ p)=w.splitOn quote := by
    cases w.splitOn quote <;> rfl
  rw [hid] at h
  exact h

lemma quote_notMem_parts {w p : PyText} (h : p ∈ w.splitOn quote) : quote ∉ p := by
  induction w generalizing p with
  | nil =>
    rw [List.splitOn_nil,List.mem_singleton] at h
    simp [h]
  | cons c w ih =>
    rw [List.splitOn_cons_eq_if_modifyHead] at h
    by_cases hc : c=quote
    · rw [if_pos (by simpa using hc),List.mem_cons] at h
      rcases h with rfl | h
      · simp
      · exact ih h
    · rw [if_neg (by simpa using hc)] at h
      cases hsplit : w.splitOn quote with
      | nil => exact absurd hsplit (List.splitOn_ne_nil _ _)
      | cons q qs =>
        rw [hsplit,List.modifyHead_cons,List.mem_cons] at h
        rcases h with rfl | h
        · have := ih (hsplit ▸ List.mem_cons_self)
          simp [Ne.symm hc,this]
        · exact ih (hsplit ▸ List.mem_cons_of_mem q h)

/-! ### What the regular expression marks -/

/-- No word character comes first. -/
def Guarded (isWord : CodePoint → Bool) (rest : PyText) : Prop := ∀ c ∈ rest.head?, isWord c=false

section Marking
variable {isWord : CodePoint → Bool} (h : WordClass isWord)
include h

omit h in
lemma markWords_plain {s : PyText} (hs : quote ∉ s) (rest : PyText) :
    markWords isWord none (s ++ rest)=s ++ markWords isWord none rest := by
  induction s with
  | nil => rfl
  | cons c s ih =>
    simp only [List.mem_cons,not_or] at hs
    rw [List.cons_append,markWords,if_neg (Ne.symm hs.1),ih hs.2,List.cons_append]

omit h in
/-- An open quote that no word follows is passed over. -/
lemma markWords_open {rest : PyText} (hrest : Guarded isWord rest) :
    markWords isWord (some []) rest=quote::markWords isWord none rest := by
  cases rest with
  | nil => rfl
  | cons c rest =>
    have hc := hrest c rfl
    by_cases hquote : c=quote
    · subst hquote
      simp [markWords,hc]
    · simp [markWords,hc,hquote]

/-- After a quote and some word characters, up to the next quote. -/
lemma markWords_part {p w rest : PyText} (hp : quote ∉ p) (hw : w.all isWord=true)
    (hrest : Guarded isWord rest) :
    markWords isWord (some w) (doubleSlashes p ++ quote::rest)=
      quote::w ++ doubleSlashes p ++ quote::(if isWordText isWord (w ++ p) then prefixMark else []) ++
        markWords isWord none rest := by
  induction p generalizing w with
  | nil =>
    change markWords isWord (some w) (quote::rest)=_
    rw [markWords,h.quote,if_neg Bool.false_ne_true,if_pos rfl]
    by_cases hempty : w=[]
    · subst hempty
      rw [if_pos rfl,markWords_open hrest]
      rfl
    · have hword : isWordText isWord (w ++ [])=true := by simp [isWordText,hempty,hw]
      rw [if_neg hempty,hword]
      simp [doubleSlashes]
  | cons c p ih =>
    simp only [List.mem_cons,not_or] at hp
    by_cases hc : isWord c=true
    · have hslash : c ≠ codePoint '\\' := by
        rintro rfl
        rw [h.backslash] at hc
        contradiction
      have hcons : doubleSlashes (c::p)=c::doubleSlashes p := by simp [doubleSlashes,hslash]
      rw [hcons,List.cons_append,markWords,if_pos hc,ih hp.2 (by simp [hw,hc])]
      simp
    · have hword : isWordText isWord (w ++ c::p)=false := by simp [isWordText,hc]
      have hplain : quote ∉ doubleSlashes (c::p) := by
        intro hmem
        obtain ⟨d,hd,hquote⟩ := List.mem_flatMap.mp hmem
        have : d=quote := by
          split_ifs at hquote with hslash
          · simpa using (show quote=d by simpa using hquote).symm
          · simpa using (show quote=d by simpa using hquote).symm
        rw [this] at hd
        exact (List.mem_cons.mp hd).elim hp.1 hp.2
      obtain ⟨s,hs⟩ : ∃ s, doubleSlashes (c::p)=c::s := by
        by_cases hslash : c=codePoint '\\'
        · exact ⟨c::doubleSlashes p,by simp [doubleSlashes,hslash]⟩
        · exact ⟨doubleSlashes p,by simp [doubleSlashes,hslash]⟩
      rw [hs] at hplain
      simp only [List.mem_cons,not_or] at hplain
      have hquote : markWords isWord none (quote::rest)=quote::markWords isWord none rest := by
        rw [markWords,if_pos rfl,markWords_open hrest]
      rw [hword,hs,List.cons_append,markWords,if_neg hc,if_neg (Ne.symm hplain.1),
        markWords_plain hplain.2,hquote]
      simp

lemma markWords_parts {ps : List PyText} (hps : ∀ p ∈ ps, quote ∉ p) {rest : PyText}
    (hrest : Guarded isWord rest) :
    markWords isWord none (ps.flatMap quotePart ++ rest)=
      ps.flatMap (markPart isWord) ++ markWords isWord none rest := by
  induction ps with
  | nil => rfl
  | cons p ps ih =>
    have hguard : Guarded isWord (ps.flatMap quotePart ++ rest) := by
      cases ps with
      | nil => exact hrest
      | cons q ps =>
        intro c hc
        cases hc
        exact h.quote
    have hpart := markWords_part h (w := []) (hps p List.mem_cons_self) rfl hguard
    have hstart : markWords isWord none (quote::(doubleSlashes p ++ quote::(ps.flatMap quotePart ++ rest)))=
        markWords isWord (some []) (doubleSlashes p ++ quote::(ps.flatMap quotePart ++ rest)) := by
      rw [markWords,if_pos rfl]
    have hsplit : (p::ps).flatMap quotePart ++ rest=
        quote::(doubleSlashes p ++ quote::(ps.flatMap quotePart ++ rest)) := by
      simp [quotePart]
    rw [hsplit,hstart,hpart,ih fun q hq => hps q (List.mem_cons_of_mem p hq)]
    simp [markPart,quotePart]

lemma markWords_lexeme (w : Lexeme) {rest : PyText} (hrest : Guarded isWord rest) :
    markWords isWord none (quoteLexeme w.val ++ rest)=
      markedLexeme isWord w ++ markWords isWord none rest := by
  rw [quoteLexeme_eq]
  exact markWords_parts h (fun p hp => quote_notMem_parts hp) hrest

lemma guarded_blank (s : PyText) : Guarded isWord (codePoint ' '::s) := by
  intro c hc
  cases hc
  exact h.blank

/-- Around the lexemes of a query there are blanks, so each is marked on its own. -/
lemma markWords_printBelow (q : TsQuery Lexeme) (priority : ℕ) (right : Bool) {rest : PyText}
    (hrest : Guarded isWord rest) :
    markWords isWord none (q.printBelow (fun w => quoteLexeme w.val) priority right ++ rest)=
      q.printBelow (markedLexeme isWord) priority right ++ markWords isWord none rest := by
  have hparen : ∀ {needed : Bool} {s s' rest : PyText}, Guarded isWord rest →
      (∀ {rest : PyText}, Guarded isWord rest →
        markWords isWord none (s ++ rest)=s' ++ markWords isWord none rest) →
      markWords isWord none (TsQuery.parenthesised needed s ++ rest)=
        TsQuery.parenthesised needed s' ++ markWords isWord none rest := by
    intro needed s s' rest hrest hs
    cases needed with
    | false => exact hs hrest
    | true =>
      have hclose : Guarded isWord (text " )" ++ rest) := guarded_blank h _
      simp only [TsQuery.parenthesised,if_true,List.append_assoc]
      rw [markWords_plain (by decide),hs hclose,markWords_plain (by decide)]
  have hbinary : ∀ {mark l l' r r' : PyText}, quote ∉ mark → (∀ s, Guarded isWord (mark ++ s)) →
      (∀ {rest : PyText}, Guarded isWord rest →
        markWords isWord none (l ++ rest)=l' ++ markWords isWord none rest) →
      (∀ {rest : PyText}, Guarded isWord rest →
        markWords isWord none (r ++ rest)=r' ++ markWords isWord none rest) →
      ∀ {rest : PyText}, Guarded isWord rest → markWords isWord none (l ++ mark ++ r ++ rest)=
        l' ++ mark ++ r' ++ markWords isWord none rest := by
    intro mark l l' r r' hmark hguard hl hr rest hrest
    simp only [List.append_assoc]
    rw [hl (hguard _),markWords_plain hmark,hr hrest]
  induction q generalizing priority right rest with
  | lexeme w => exact markWords_lexeme h w hrest
  | not q ih =>
    apply hparen hrest
    intro rest hrest
    rw [List.append_assoc,markWords_plain (by decide),ih _ _ hrest,List.append_assoc]
  | and l r ihl ihr =>
    apply hparen hrest
    exact hbinary (by decide) (fun s => guarded_blank h _) (ihl _ _) (ihr _ _)
  | or l r ihl ihr =>
    apply hparen hrest
    exact hbinary (by decide) (fun s => guarded_blank h _) (ihl _ _) (ihr _ _)
  | phrase distance l r ihl ihr =>
    apply hparen hrest
    refine hbinary ?_ (fun s => ?_) (ihl _ _) (ihr _ _)
    · rw [TsQuery.phraseMark]
      split_ifs with hone
      · decide
      · simp only [List.mem_append,padded_eq_map,List.mem_map,not_or,not_exists,not_and]
        refine ⟨⟨by decide,?_⟩,by decide⟩
        intro c hc
        exact codePoint_ne_of_isDigit (isDigit_of_mem_paddedChars hc) (by decide)
    · rw [TsQuery.phraseMark]
      split_ifs with hone
      · exact guarded_blank h _
      · exact guarded_blank h _

theorem buildPrefixTsqueryText_eq {websearch : PyText → Option (TsQuery Lexeme)} {query : PyText}
    {q : TsQuery Lexeme} (hq : websearch query=some q) :
    buildPrefixTsqueryText isWord websearch query=q.print (markedLexeme isWord) := by
  have hrest : Guarded isWord [] := fun c hc => by contradiction
  have hprint := markWords_printBelow h q 0 false hrest
  rw [buildPrefixTsqueryText,safeQueryText,hq]
  simpa [TsQuery.print,markWords] using hprint

/-! ### Which lexemes are left as they should be -/

lemma prefixLexeme_of_quote {w : Lexeme} (hw : quote ∈ w.val) :
    prefixLexeme isWord w=quoteLexeme w.val := by
  have hword : isWordText isWord w.val=false := by
    simp only [isWordText,Bool.and_eq_false_iff,List.all_eq_false]
    exact Or.inr ⟨quote,hw,by simp [h.quote]⟩
  rw [prefixLexeme,hword]
  simp

lemma markedLexeme_of_noQuotedWord {w : Lexeme} (hw : NoQuotedWord isWord w) :
    markedLexeme isWord w=prefixLexeme isWord w := by
  by_cases hquote : quote ∈ w.val
  · have hparts : ∀ ps : List PyText, (∀ p ∈ ps, isWordText isWord p=false) →
        ps.flatMap (markPart isWord)=ps.flatMap quotePart := by
      intro ps hps
      induction ps with
      | nil => rfl
      | cons p ps ih =>
        rw [List.flatMap_cons,List.flatMap_cons,ih fun q hq => hps q (List.mem_cons_of_mem p hq),
          markPart,hps p List.mem_cons_self]
        simp
    rw [prefixLexeme_of_quote h hquote,quoteLexeme_eq,markedLexeme,hparts _ (hw hquote)]
  · rw [markedLexeme,prefixLexeme,quoteLexeme_eq,List.splitOn_eq_singleton hquote]
    simp [markPart]

omit h in
lemma length_quoteLexeme_le (w : Lexeme) :
    (quoteLexeme w.val).length ≤ (markedLexeme isWord w).length := by
  rw [quoteLexeme_eq,markedLexeme,List.length_flatMap,List.length_flatMap]
  apply List.sum_le_sum
  intro p _
  simp [markPart]

lemma length_prefixLexeme_le (w : Lexeme) :
    (prefixLexeme isWord w).length ≤ (markedLexeme isWord w).length := by
  by_cases hquote : quote ∈ w.val
  · rw [prefixLexeme_of_quote h hquote]
    exact length_quoteLexeme_le w
  · rw [markedLexeme_of_noQuotedWord h fun hmem => absurd hmem hquote]

/-- A word between the quotes makes a lexeme longer than it should be. -/
lemma noQuotedWord_of_length {w : Lexeme}
    (hlen : (markedLexeme isWord w).length=(prefixLexeme isWord w).length) :
    NoQuotedWord isWord w := by
  intro hquote part hpart
  by_contra hword
  rw [prefixLexeme_of_quote h hquote,quoteLexeme_eq,markedLexeme,List.length_flatMap,
    List.length_flatMap] at hlen
  have hlt := List.sum_lt_sum (l := w.val.splitOn quote) (fun p => (quotePart p).length)
    (fun p => (markPart isWord p).length) (fun p _ => by simp [markPart])
    ⟨part,hpart,by simp [markPart,hword,prefixMark,text]⟩
  exact hlt.ne hlen.symm

/-- The prefix query is what it should be exactly when no lexeme has a word next to one of its
quotes. -/
theorem prefixLaw_iff (websearch : PyText → Option (TsQuery Lexeme)) (query : PyText) :
    PrefixLaw isWord websearch query ↔
      ∀ q ∈ websearch query, ∀ w ∈ q.lexemes, NoQuotedWord isWord w := by
  rw [PrefixLaw]
  cases hq : websearch query with
  | none => simp [buildPrefixTsqueryText,safeQueryText,hq,markWords]
  | some q =>
    have hbuild := buildPrefixTsqueryText_eq h hq
    simp only [Option.mem_def,Option.some.injEq,forall_eq',hbuild]
    constructor
    · rintro ⟨htext,-⟩ w hw
      exact noQuotedWord_of_length h (TsQuery.length_eq_of_print_eq htext
        (fun v _ => length_prefixLexeme_le h v) w hw)
    · intro hall
      have htext : q.print (markedLexeme isWord)=q.print (prefixLexeme isWord) :=
        q.printBelow_congr (fun w hw => markedLexeme_of_noQuotedWord h (hall w hw)) 0 false
      refine ⟨htext,?_⟩
      rw [htext]
      apply ReadsOperand.reads
      apply readsOperand_printBelow
      intro w _
      rw [prefixLexeme]
      split_ifs with hword
      · exact (readsOperand_quoteLexeme w.property).2
      · simpa using (readsOperand_quoteLexeme w.property).1

end Marking

/-- The word characters of an ASCII text. -/
def asciiWord (c : CodePoint) : Bool :=
  (48 ≤ c.val && c.val ≤ 57) || (65 ≤ c.val && c.val ≤ 90) || c=codePoint '_' ||
    (97 ≤ c.val && c.val ≤ 122)

lemma asciiWord_wordClass : WordClass asciiWord := ⟨by decide,by decide,by decide⟩

/-- "Kassa example.com/a.b'-c": the quote of the address has no word next to it. -/
def kassaAddress : TsQuery Lexeme :=
  .and (.lexeme ⟨text "kassa",by simp [text]⟩)
    (.phrase 1 (.lexeme ⟨text "example.com/a.b'-c",by simp [text]⟩)
      (.phrase 1 (.lexeme ⟨text "example.com",by simp [text]⟩)
        (.lexeme ⟨text "/a.b'-c",by simp [text]⟩)))

theorem prefixLaw_kassaAddress :
    PrefixLaw asciiWord (fun _ => some kassaAddress) (text "Kassa example.com/a.b'-c") := by
  refine (prefixLaw_iff asciiWord_wordClass (fun _ => some kassaAddress) _).mpr ?_
  intro q hq w hw
  cases hq
  simp only [kassaAddress,TsQuery.lexemes,List.mem_append,List.mem_singleton] at hw
  rcases hw with rfl | rfl | rfl | rfl <;> decide

/-- "example.com/x'a'y": the address, its host and its path. -/
def quotedAddress : TsQuery Lexeme :=
  .phrase 1 (.lexeme ⟨text "example.com/x'a'y",by simp [text]⟩)
    (.phrase 1 (.lexeme ⟨text "example.com",by simp [text]⟩)
      (.lexeme ⟨text "/x'a'y",by simp [text]⟩))

/-- The quotes of an address are taken for those of lexemes, and the text is no query any more. -/
theorem address_not_read :
    ¬ PrefixLaw asciiWord (fun _ => some quotedAddress) (text "example.com/x'a'y") ∧
      readsTsQuery (buildPrefixTsqueryText asciiWord (fun _ => some quotedAddress)
        (text "example.com/x'a'y"))=false := by
  have hread : readsTsQuery (buildPrefixTsqueryText asciiWord (fun _ => some quotedAddress)
      (text "example.com/x'a'y"))=false := by decide +kernel
  exact ⟨fun hlaw => by rw [PrefixLaw,hread] at hlaw; exact absurd hlaw.2 Bool.false_ne_true,hread⟩

end VbApi.Search
