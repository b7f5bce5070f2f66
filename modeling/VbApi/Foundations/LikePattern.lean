import VbApi.Foundations.PyText

/-! The SQL `LIKE` match with the backslash as escape character, and patterns made of user text. -/
namespace VbApi.Foundations

/-- The first character passes the test, and the rest matches. -/
def matchHead (test : CodePoint → Bool) (rest : PyText → Bool) : PyText → Bool
  | [] => false
  | c::t => test c && rest t

/-- `%` stands for any text, `_` for one character, and a backslash takes the next pattern
character literally. A pattern that ends in a lone backslash matches nothing. -/
def likeMatch : PyText → PyText → Bool
  | [] => fun t => t.isEmpty
  | p::ps =>
    if p=codePoint '%' then fun t => t.tails.any (likeMatch ps)
    else if p=codePoint '_' then matchHead (fun _ => true) (likeMatch ps)
    else if p=codePoint '\\' then
      match ps with
      | [] => fun _ => false
      | q::qs => matchHead (fun c => q=c) (likeMatch qs)
    else matchHead (fun c => p=c) (likeMatch ps)

/-- `text ILIKE pattern ESCAPE '\'`: both sides are lower-cased by the database first. -/
def ilikeMatch (lower : PyText → PyText) (pattern t : PyText) : Bool :=
  likeMatch (lower pattern) (lower t)

/-- The wildcards and the escape character of a pattern. -/
def isWildcard (c : CodePoint) : Bool :=
  c=codePoint '\\' || c=codePoint '%' || c=codePoint '_'

/-- Put the escape character in front of every `c`. -/
def escapeChar (c : CodePoint) (term : PyText) : PyText :=
  term.flatMap fun d => if d=c then [codePoint '\\',d] else [d]

/-- Escape the `LIKE` wildcards of user input. -/
def escapeLike (term : PyText) : PyText :=
  escapeChar (codePoint '_') (escapeChar (codePoint '%') (escapeChar (codePoint '\\') term))

@[simp] lemma escapeLike_nil : escapeLike []=[] := rfl

lemma escapeChar_append (c : CodePoint) (a b : PyText) :
    escapeChar c (a ++ b)=escapeChar c a ++ escapeChar c b := List.flatMap_append

lemma escapeLike_append (a b : PyText) : escapeLike (a ++ b)=escapeLike a ++ escapeLike b := by
  simp only [escapeLike,escapeChar_append]

/-- The later replacements leave the escape characters of the earlier ones alone. -/
lemma escapeLike_cons (c : CodePoint) (term : PyText) : escapeLike (c::term)=
    (if isWildcard c then [codePoint '\\',c] else [c]) ++ escapeLike term := by
  have hone : escapeLike [c]=if isWildcard c then [codePoint '\\',c] else [c] := by
    by_cases hbackslash : c=codePoint '\\'
    · subst hbackslash
      decide
    by_cases hpercent : c=codePoint '%'
    · subst hpercent
      decide
    by_cases hunderscore : c=codePoint '_'
    · subst hunderscore
      decide
    simp [escapeLike,escapeChar,isWildcard,hbackslash,hpercent,hunderscore]
  rw [← hone,← escapeLike_append,List.singleton_append]

lemma likeMatch_literal {p : CodePoint} (hp : isWildcard p=false) (ps : PyText) :
    likeMatch (p::ps)=matchHead (fun c => p=c) (likeMatch ps) := by
  simp only [isWildcard,Bool.or_eq_false_iff,decide_eq_false_iff_not] at hp
  rw [likeMatch.eq_def]
  simp [hp.1.1,hp.1.2,hp.2]

lemma likeMatch_escaped (q : CodePoint) (qs : PyText) :
    likeMatch (codePoint '\\'::q::qs)=matchHead (fun c => q=c) (likeMatch qs) := by
  have hpercent : codePoint '\\' ≠ codePoint '%' := by decide
  have hunderscore : codePoint '\\' ≠ codePoint '_' := by decide
  rw [likeMatch.eq_def]
  simp [hpercent,hunderscore]

/-- Escaped text in front of a pattern stands for itself. -/
lemma likeMatch_escapeLike_append (term pattern t : PyText) :
    likeMatch (escapeLike term ++ pattern) t=true ↔
      ∃ rest, t=term ++ rest ∧ likeMatch pattern rest=true := by
  induction term generalizing t with
  | nil => simp
  | cons c term ih =>
    have hstep : likeMatch (escapeLike (c::term) ++ pattern)=
        matchHead (fun d => c=d) (likeMatch (escapeLike term ++ pattern)) := by
      rw [escapeLike_cons]
      split_ifs with hc
      · exact likeMatch_escaped c _
      · exact likeMatch_literal (by simpa using hc) _
    rw [hstep]
    cases t with
    | nil => simp [matchHead]
    | cons d t =>
      simp only [matchHead,Bool.and_eq_true,decide_eq_true_eq,ih,List.cons_append,List.cons.injEq]
      constructor
      · rintro ⟨rfl,rest,rfl,hrest⟩
        exact ⟨rest,⟨rfl,rfl⟩,hrest⟩
      · rintro ⟨rest,⟨rfl,rfl⟩,hrest⟩
        exact ⟨rfl,rest,rfl,hrest⟩

lemma likeMatch_percent (pattern t : PyText) :
    likeMatch (codePoint '%'::pattern) t=true ↔ ∃ s, s <:+ t ∧ likeMatch pattern s=true := by
  rw [likeMatch.eq_def]
  simp [List.any_eq_true]

lemma likeMatch_any (t : PyText) : likeMatch [codePoint '%'] t=true := by
  rw [likeMatch_percent]
  exact ⟨[],List.nil_suffix,rfl⟩

theorem likeMatch_equals (term t : PyText) : likeMatch (escapeLike term) t=true ↔ t=term := by
  have h := likeMatch_escapeLike_append term [] t
  rw [List.append_nil] at h
  rw [h]
  simp [likeMatch]

theorem likeMatch_starts (term t : PyText) :
    likeMatch (escapeLike term ++ [codePoint '%']) t=true ↔ term <+: t := by
  rw [likeMatch_escapeLike_append]
  simp only [likeMatch_any,and_true]
  exact ⟨fun ⟨rest,h⟩ => ⟨rest,h.symm⟩,fun ⟨rest,h⟩ => ⟨rest,h.symm⟩⟩

theorem likeMatch_contains (term t : PyText) :
    likeMatch (codePoint '%'::(escapeLike term ++ [codePoint '%'])) t=true ↔ term <:+: t := by
  rw [likeMatch_percent]
  simp only [likeMatch_starts]
  constructor
  · rintro ⟨s,hs,hterm⟩
    exact hterm.isInfix.trans hs.isInfix
  · rintro ⟨before,after,rfl⟩
    exact ⟨term ++ after,⟨before,by simp⟩,List.prefix_append _ _⟩

example : likeMatch (text "%a\\%_") (text "bca%d")=true := by decide

/-- How a database lower-cases a text: no wildcard is a letter. One stays where it is and parts what
is before it from what is after it, and none comes from another character. -/
structure KeepsWildcards (lower : PyText → PyText) : Prop where
  nil : lower []=[]
  parts : ∀ a c b, isWildcard c=true → lower (a ++ c::b)=lower a ++ c::lower b
  plain : ∀ a, (∀ c ∈ a, isWildcard c=false) → ∀ c ∈ lower a, isWildcard c=false

lemma escapeLike_plain {a : PyText} (h : ∀ c ∈ a, isWildcard c=false) : escapeLike a=a := by
  induction a with
  | nil => rfl
  | cons c a ih =>
    have hc := h c List.mem_cons_self
    rw [escapeLike_cons,hc,ih fun d hd => h d (List.mem_cons_of_mem c hd)]
    rfl

lemma keepsWildcards_map {f : CodePoint → CodePoint} (h : ∀ c, isWildcard c=true → f c=c)
    (hplain : ∀ c, isWildcard c=false → isWildcard (f c)=false) : KeepsWildcards (List.map f) where
  nil := rfl
  parts a c b hc := by rw [List.map_append,List.map_cons,h c hc]
  plain a ha c hc := by
    obtain ⟨d,hd,rfl⟩ := List.mem_map.mp hc
    exact hplain d (ha d hd)

section Ilike
variable {lower : PyText → PyText} (h : KeepsWildcards lower)
include h

/-- Lower-casing an escaped text is escaping the lower-cased one. -/
lemma lower_escapeLike_append {a : PyText} (ha : ∀ c ∈ a, isWildcard c=false) (term : PyText) :
    lower (a ++ escapeLike term)=escapeLike (lower (a ++ term)) := by
  induction term generalizing a with
  | nil =>
    rw [escapeLike_nil,List.append_nil,escapeLike_plain (h.plain a ha)]
  | cons c term ih =>
    by_cases hc : isWildcard c=true
    · have hcons : escapeLike (c::term)=codePoint '\\'::c::escapeLike term := by
        rw [escapeLike_cons,hc]
        rfl
      have hesc : escapeLike (c::lower term)=codePoint '\\'::c::escapeLike (lower term) := by
        rw [escapeLike_cons,hc]
        rfl
      have hrest : lower (c::escapeLike term)=c::lower (escapeLike term) := by
        simpa [h.nil] using h.parts [] c (escapeLike term) hc
      have hterm : lower (escapeLike term)=escapeLike (lower term) := by
        simpa using ih (a := []) (by simp)
      rw [hcons,h.parts a _ _ (by decide),hrest,hterm,h.parts a c term hc,escapeLike_append,
        escapeLike_plain (h.plain a ha),hesc]
    · have hplain : ∀ d ∈ a ++ [c], isWildcard d=false := by
        intro d hd
        rcases List.mem_append.mp hd with hd | hd
        · exact ha d hd
        · rw [List.mem_singleton.mp hd]
          simpa using hc
      have hcons : escapeLike (c::term)=c::escapeLike term := by
        rw [escapeLike_cons]
        simp [hc]
      have := ih hplain
      rw [List.append_assoc,List.append_assoc] at this
      rw [hcons]
      exact this

lemma lower_escapeLike (term : PyText) : lower (escapeLike term)=escapeLike (lower term) :=
  lower_escapeLike_append h (a := []) (by simp) term

lemma lower_escapeLike_percent (term : PyText) :
    lower (escapeLike term ++ [codePoint '%'])=escapeLike (lower term) ++ [codePoint '%'] := by
  rw [h.parts _ _ _ (by decide),lower_escapeLike h,h.nil]

theorem ilikeMatch_equals (term t : PyText) :
    ilikeMatch lower (escapeLike term) t=true ↔ lower t=lower term := by
  rw [ilikeMatch,lower_escapeLike h,likeMatch_equals]

theorem ilikeMatch_starts (term t : PyText) :
    ilikeMatch lower (escapeLike term ++ [codePoint '%']) t=true ↔ lower term <+: lower t := by
  rw [ilikeMatch,lower_escapeLike_percent h,likeMatch_starts]

theorem ilikeMatch_contains (term t : PyText) :
    ilikeMatch lower (codePoint '%'::(escapeLike term ++ [codePoint '%'])) t=true ↔
      lower term <:+: lower t := by
  have hpercent : lower (codePoint '%'::(escapeLike term ++ [codePoint '%']))=
      codePoint '%'::lower (escapeLike term ++ [codePoint '%']) := by
    simpa [h.nil] using h.parts [] (codePoint '%') (escapeLike term ++ [codePoint '%']) (by decide)
  rw [ilikeMatch,hpercent,lower_escapeLike_percent h,likeMatch_contains]

end Ilike

end VbApi.Foundations
