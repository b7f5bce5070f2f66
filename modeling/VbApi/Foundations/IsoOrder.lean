import VbApi.Foundations.DecimalText
import Mathlib.Data.List.Lex

/-! The ISO 8601 text of a date: it is read back, and it sorts as the date does. -/
namespace VbApi.Foundations

/-- Texts of one length compare by their first difference, whatever follows. -/
lemma append_lt_append {α : Type*} [LinearOrder α] {x y : List α} (h : x < y)
    (hlen : x.length=y.length) (s t : List α) : x ++ s < y ++ t := by
  induction x generalizing y with
  | nil =>
    cases y with
    | nil => exact absurd h (lt_irrefl _)
    | cons b y => simp at hlen
  | cons a x ih =>
    cases y with
    | nil => simp at hlen
    | cons b y =>
      simp only [List.length_cons,Nat.add_right_cancel_iff] at hlen
      rw [List.cons_append,List.cons_append,List.cons_lt_cons_iff]
      rcases List.cons_lt_cons_iff.mp h with hab | ⟨rfl,hxy⟩
      · exact Or.inl hab
      · exact Or.inr ⟨rfl,ih hxy hlen⟩

lemma append_lt_append_left {α : Type*} [LinearOrder α] (x : List α) {s t : List α} (h : s < t) :
    x ++ s < x ++ t := by
  induction x with
  | nil => exact h
  | cons a x ih => exact List.cons_lt_cons_iff.mpr (Or.inr ⟨rfl,ih⟩)

def digitPoint (k : ℕ) : CodePoint := codePoint (Nat.digitChar k)

lemma digitPoint_lt {k l : ℕ} (h : k < l) (hl : l < 10) : digitPoint k < digitPoint l := by
  have hall : ∀ i j : Fin 10, i < j → digitPoint i.val < digitPoint j.val := by decide
  exact hall ⟨k,h.trans hl⟩ ⟨l,hl⟩ h

lemma asciiDigit?_digitPoint {k : ℕ} (h : k < 10) : asciiDigit? (digitPoint k)=some k := by
  have hall : ∀ i : Fin 10, asciiDigit? (digitPoint i.val)=some i.val := by decide
  exact hall ⟨k,h⟩

lemma padded_one {n : ℕ} (h : n < 10) : padded 1 n=[digitPoint n] := by
  simp [padded,Nat.toDigits_of_lt_base h,digitPoint]

lemma padded_succ (w n : ℕ) : padded (w+2) n=padded (w+1) (n/10) ++ [digitPoint (n%10)] := by
  by_cases h : n < 10
  · have hrep : List.replicate (w+1) (codePoint '0')=
        List.replicate w (codePoint '0') ++ [codePoint '0'] := List.replicate_succ'
    simp [padded,Nat.toDigits_of_lt_base h,Nat.div_eq_of_lt h,Nat.mod_eq_of_lt h,digitPoint,hrep]
  · have hdigits := Nat.toDigits_of_base_le (b := 10) (n := n) (by decide) (by omega)
    simp [padded,hdigits,digitPoint]

lemma length_padded {w n : ℕ} (h : n < 10^(w+1)) : (padded (w+1) n).length=w+1 := by
  rw [padded_eq_map,List.length_map,length_paddedChars (Nat.succ_pos w) h]

/-- Numbers of one width sort as their digits do. -/
theorem padded_lt {w m n : ℕ} (h : m < n) (hn : n < 10^(w+1)) :
    padded (w+1) m < padded (w+1) n := by
  induction w generalizing m n with
  | zero =>
    have hn : n < 10 := by simpa using hn
    rw [padded_one hn,padded_one (h.trans hn)]
    exact List.cons_lt_cons_iff.mpr (Or.inl (digitPoint_lt h hn))
  | succ w ih =>
    have hquot : n/10 < 10^(w+1) := Nat.div_lt_of_lt_mul (by rw [← pow_succ']; exact hn)
    rw [padded_succ,padded_succ]
    by_cases hlt : m/10 < n/10
    · refine append_lt_append (ih hlt hquot) ?_ _ _
      rw [length_padded (hlt.trans hquot),length_padded hquot]
    · have heq : m/10=n/10 := by omega
      rw [heq]
      exact append_lt_append_left _ (List.cons_lt_cons_iff.mpr
        (Or.inl (digitPoint_lt (by omega) (by omega))))

namespace Date

lemma takeDigits_add (i j acc : ℕ) (s : PyText) :
    takeDigits (i+j) acc s=(takeDigits i acc s).bind fun x => takeDigits j x.1 x.2 := by
  induction i generalizing acc s with
  | zero => rw [Nat.zero_add]; rfl
  | succ i ih =>
    rw [Nat.succ_add]
    cases s with
    | nil => rfl
    | cons c s =>
      rw [takeDigits,takeDigits]
      cases asciiDigit? c with
      | none => rfl
      | some v => exact ih _ s

lemma takeDigits_padded (w n acc : ℕ) (h : n < 10^(w+1)) (s : PyText) :
    takeDigits (w+1) acc (padded (w+1) n ++ s)=some (acc*10^(w+1)+n,s) := by
  induction w generalizing n s with
  | zero =>
    have h : n < 10 := by simpa using h
    rw [padded_one h,List.singleton_append,takeDigits,asciiDigit?_digitPoint h]
    simp [takeDigits]
  | succ w ih =>
    have hquot : n/10 < 10^(w+1) := Nat.div_lt_of_lt_mul (by rw [← pow_succ']; exact h)
    rw [padded_succ,List.append_assoc,List.singleton_append,takeDigits_add,ih _ hquot,
      Option.bind_some,takeDigits,asciiDigit?_digitPoint (Nat.mod_lt _ (by decide)),
      Option.bind_some,takeDigits,pow_succ 10 (w+1)]
    congr 2
    have := Nat.div_add_mod n 10
    have hassoc := Nat.mul_assoc acc (10^(w+1)) 10
    rw [← hassoc,Nat.add_mul,Nat.add_assoc]
    omega

lemma year_lt (d : Date) : d.year < 10^(3+1) := by have := d.year_le; omega
lemma month_lt (d : Date) : d.month < 10^(1+1) := by have := d.month_le; omega
lemma day_lt (d : Date) : d.day < 10^(1+1) := by have := d.day_le_31; omega

lemma length_isoformat (d : Date) : d.isoformat.length=10 := by
  simp only [isoformat,List.length_append,length_padded d.year_lt,length_padded d.month_lt,
    length_padded d.day_lt]
  rfl

lemma sum_utf8Size {s : PyText} (h : IsAscii s) : (s.map utf8Size).sum=s.length := by
  induction s with
  | nil => rfl
  | cons c s ih =>
    have hc : utf8Size c=1 := if_pos (h c List.mem_cons_self)
    rw [List.map_cons,List.sum_cons,ih fun e he => h e (List.mem_cons_of_mem _ he),hc,
      List.length_cons,Nat.add_comm]

lemma no_surrogate {s : PyText} (h : IsAscii s) :
    (s.any fun c => isHighSurrogate c || isLowSurrogate c)=false := by
  rw [List.any_eq_false]
  intro c hc
  have := h c hc
  simp only [isHighSurrogate,isLowSurrogate,Bool.or_eq_true,Bool.and_eq_true,decide_eq_true_eq]
  omega

/-- The text of a date is read back. -/
theorem fromIsoformat_isoformat (d : Date) : fromIsoformat d.isoformat=.ok d := by
  have hascii := isAscii_isoformat d
  have hdash : text "-"=[codePoint '-'] := rfl
  have hweek : (padded (1+1) d.month ++ (text "-" ++ padded (1+1) d.day)).head? ≠
      some (codePoint 'W') := by
    rw [padded_succ,padded_one (by have := d.month_le; omega)]
    intro h
    have := asciiDigit?_digitPoint (k := d.month/10) (by have := d.month_le; omega)
    rw [Option.some.inj h] at this
    contradiction
  have hshape : d.isoformat=padded (3+1) d.year ++
      (codePoint '-'::(padded (1+1) d.month ++ (text "-" ++ padded (1+1) d.day))) := by
    simp [isoformat,hdash]
  unfold fromIsoformat
  simp only [no_surrogate hascii,sum_utf8Size hascii,length_isoformat]
  rw [if_neg (by decide),if_neg (by decide),hshape,takeDigits_padded 3 _ _ d.year_lt]
  simp only [List.head?_cons,List.tail_cons,if_true]
  rw [if_neg hweek,takeDigits_padded 1 _ _ d.month_lt]
  have hday := takeDigits_padded 1 d.day 0 d.day_lt []
  rw [List.append_nil] at hday
  simp only [hdash,takeDash,List.singleton_append,if_true,decide_true,Option.bind_some,hday]
  simpa using ofParts_ok d

/-- The texts of two dates sort as the dates do. -/
theorem isoformat_lt {a b : Date} (h : a < b) : a.isoformat < b.isoformat := by
  have hparts : a.year < b.year ∨ a.year=b.year ∧
      (a.month < b.month ∨ a.month=b.month ∧ a.day < b.day) := by
    rw [lt_iff_key,key,key,monthIndex,monthIndex] at h
    have ha := a.day_le_31
    have hb := b.day_le_31
    have ha₁ := a.month_pos
    have hb₁ := b.month_pos
    have ha₂ := a.month_le
    have hb₂ := b.month_le
    have := a.day_pos
    have := b.day_pos
    omega
  simp only [isoformat,List.append_assoc]
  rcases hparts with hyear | ⟨hyear,hmonth | ⟨hmonth,hday⟩⟩
  · exact append_lt_append (padded_lt hyear b.year_lt)
      (by rw [length_padded a.year_lt,length_padded b.year_lt]) _ _
  · rw [hyear]
    refine append_lt_append_left _ (append_lt_append_left _ ?_)
    exact append_lt_append (padded_lt hmonth b.month_lt)
      (by rw [length_padded a.month_lt,length_padded b.month_lt]) _ _
  · rw [hyear,hmonth]
    refine append_lt_append_left _ (append_lt_append_left _ (append_lt_append_left _
      (append_lt_append_left _ ?_)))
    exact padded_lt hday b.day_lt

lemma isoformat_strictMono : StrictMono isoformat := fun _ _ h => isoformat_lt h

lemma isoformat_injective : Function.Injective isoformat := isoformat_strictMono.injective

lemma isoformat_le_iff {a b : Date} : a.isoformat ≤ b.isoformat ↔ a ≤ b := isoformat_strictMono.le_iff_le

end Date
end VbApi.Foundations
