import Mathlib.Tactic

/-! Lists of entries with quoted texts in them: a text is escaped to be quoted, a quoted text is read back
up to its closing quote, and a list is split at the separators outside of quoted texts. -/
namespace VbApi.Foundations
variable {α : Type*} [DecidableEq α] (quote escape separator : α)

/-- Put the escape character before quotes and escape characters. -/
def escapeQuoted (s : List α) : List α := s.flatMap fun c => if c=quote ∨ c=escape then [escape,c] else [c]

/-- The text up to the first quote that is not escaped, and what follows it; an escaped character stands
for itself. -/
def readQuoted : (escaped : Bool) → List α → Option (List α × List α)
  | _,[] => none
  | true,c::s => (readQuoted false s).map fun r => (c::r.1,r.2)
  | false,c::s =>
    if c=quote then some ([],s)
    else if c=escape then readQuoted true s
    else (readQuoted false s).map fun r => (c::r.1,r.2)

/-- Where a reader of a list stands. -/
inductive QuoteState
  | plain
  | quoted
  | escaped
  deriving DecidableEq

def QuoteState.next : QuoteState → α → QuoteState
  | .plain,c => if c=quote then .quoted else .plain
  | .quoted,c => if c=quote then .plain else if c=escape then .escaped else .quoted
  | .escaped,_ => .quoted

/-- Put a text before the first of the parts. -/
def growHead (s : List α) : List (List α) → List (List α)
  | [] => [s]
  | part::parts => (s ++ part)::parts

/-- The parts between the separators that stand outside of quoted texts. -/
def splitOutside : QuoteState → List α → List (List α)
  | _,[] => [[]]
  | state,c::s =>
    if state=.plain ∧ c=separator then []::splitOutside .plain s
    else growHead [c] (splitOutside (state.next quote escape c) s)

/-- A text without a separator outside of quotes; it leads from one state to another. -/
def Seals (state : QuoteState) (s : List α) (after : QuoteState) : Prop :=
  ∀ rest, splitOutside quote escape separator state (s ++ rest)=
    growHead s (splitOutside quote escape separator after rest)

variable {quote escape separator} {state mid after : QuoteState} {s t : List α}

omit [DecidableEq α] in
lemma growHead_append (parts : List (List α)) : growHead (s ++ t) parts=growHead s (growHead t parts) := by
  cases parts with
  | nil => rfl
  | cons part parts => rw [growHead,growHead,growHead,List.append_assoc]

lemma splitOutside_ne_nil (state : QuoteState) (s : List α) :
    splitOutside quote escape separator state s ≠ [] := by
  cases s with
  | nil => simp [splitOutside]
  | cons c s =>
    rw [splitOutside]
    split_ifs
    · simp
    · cases splitOutside quote escape separator (state.next quote escape c) s <;> simp [growHead]

lemma Seals.nil : Seals quote escape separator state [] state := by
  intro rest
  have hne : splitOutside quote escape separator state rest ≠ [] := splitOutside_ne_nil state rest
  obtain ⟨part,parts,h⟩ := List.exists_cons_of_ne_nil hne
  rw [List.nil_append,h]
  rfl

lemma Seals.append (hs : Seals quote escape separator state s mid)
    (ht : Seals quote escape separator mid t after) : Seals quote escape separator state (s ++ t) after := by
  intro rest
  rw [List.append_assoc,hs,ht,growHead_append]

lemma Seals.single {c : α} (h : ¬ (state=.plain ∧ c=separator))
    (hnext : state.next quote escape c=after) : Seals quote escape separator state [c] after := by
  intro rest
  rw [List.singleton_append,splitOutside,if_neg h,hnext]

lemma seals_plain (h : ∀ c ∈ s, c ≠ quote ∧ c ≠ separator) : Seals quote escape separator .plain s .plain := by
  induction s with
  | nil => exact .nil
  | cons c s ih =>
    obtain ⟨hquote,hsep⟩ := h c List.mem_cons_self
    have hone : Seals quote escape separator .plain [c] .plain :=
      Seals.single (by simp [hsep]) (if_neg hquote)
    exact hone.append (ih fun d hd => h d (List.mem_cons_of_mem c hd))

/-- The escaped text stays within the quotes. -/
lemma seals_escapeQuoted (hne : quote ≠ escape) (s : List α) :
    Seals quote escape separator .quoted (escapeQuoted quote escape s) .quoted := by
  induction s with
  | nil => exact .nil
  | cons c s ih =>
    have hquoted : ∀ d, ¬ (QuoteState.quoted=.plain ∧ d=separator) := by simp
    rw [escapeQuoted,List.flatMap_cons]
    split_ifs with hc
    · have hescape : Seals quote escape separator .quoted [escape] .escaped :=
        Seals.single (hquoted _) (by rw [QuoteState.next,if_neg hne.symm,if_pos rfl])
      have hchar : Seals quote escape separator .escaped [c] .quoted := Seals.single (by simp) rfl
      exact (hescape.append hchar).append ih
    · obtain ⟨hquote,hescape⟩ := not_or.mp hc
      have hchar : Seals quote escape separator .quoted [c] .quoted :=
        Seals.single (hquoted _) (by rw [QuoteState.next,if_neg hquote,if_neg hescape])
      exact hchar.append ih

/-- A quoted text and its quotes. -/
lemma seals_quoted (hne : quote ≠ escape) (hsep : quote ≠ separator) (s : List α) :
    Seals quote escape separator .plain (quote::(escapeQuoted quote escape s ++ [quote])) .plain := by
  have hopen : Seals quote escape separator .plain [quote] .quoted :=
    Seals.single (by simp [hsep]) (if_pos rfl)
  have hclose : Seals quote escape separator .quoted [quote] .plain :=
    Seals.single (by simp) (if_pos rfl)
  exact hopen.append ((seals_escapeQuoted hne s).append hclose)

/-- What was escaped is read back. -/
theorem readQuoted_escapeQuoted (hne : quote ≠ escape) (s rest : List α) :
    readQuoted quote escape false (escapeQuoted quote escape s ++ quote::rest)=some (s,rest) := by
  induction s with
  | nil => exact if_pos rfl
  | cons c s ih =>
    rw [escapeQuoted,List.flatMap_cons]
    split_ifs with hc
    · rw [List.cons_append,List.cons_append,readQuoted,if_neg hne.symm,if_pos rfl]
      change (readQuoted quote escape false (escapeQuoted quote escape s ++ quote::rest)).map _=_
      rw [ih]
      rfl
    · obtain ⟨hquote,hescape⟩ := not_or.mp hc
      rw [List.cons_append,List.cons_append,readQuoted,if_neg hquote,if_neg hescape]
      change (readQuoted quote escape false (escapeQuoted quote escape s ++ quote::rest)).map _=_
      rw [ih]
      rfl

/-- A list of parts that are sealed is split into these parts. -/
theorem splitOutside_separated {part : List α} {parts : List (List α)}
    (h : ∀ p ∈ part::parts, Seals quote escape separator .plain p .plain) :
    splitOutside quote escape separator .plain (part ++ parts.flatMap (separator::·))=part::parts := by
  induction parts generalizing part with
  | nil =>
    rw [List.flatMap_nil,h part List.mem_cons_self]
    simp [splitOutside,growHead]
  | cons next parts ih =>
    have hrest := ih fun p hp => h p (List.mem_cons_of_mem part hp)
    rw [List.flatMap_cons,List.cons_append,h part List.mem_cons_self,splitOutside,if_pos ⟨rfl,rfl⟩,hrest]
    simp [growHead]

end VbApi.Foundations
