import VbApi.P4x.ImportErrors
import Mathlib.Data.List.TakeWhile

/-! Which accepted amounts fit the column of the transactions: the bound of the parser is checked
before the amount is rounded to two decimals. -/
namespace VbApi.P4x
open VbApi.Foundations

/-- The least amount that rounds to ten thousand millions, which the column cannot hold. -/
def roundingBound : ℚ := 9999999999995/1000

/-- The exact quotients below this one are below `roundingBound` in the digits of the context. -/
def quotientBound : ℚ := roundingBound-1/(2*10^18)

section Rounding
variable {x : ℚ}

lemma roundToContext_lt_roundingBound (hpos : 0 ≤ x) (haccept : roundToContext x < 10^10) :
    roundToContext x < roundingBound ↔ x < quotientBound := by
  have hsmall : (10 : ℚ)^(9 : ℤ) < quotientBound := by norm_num [quotientBound,roundingBound]
  have hbelow : quotientBound < roundingBound := by norm_num [quotientBound]
  rcases lt_or_ge x (10^(9 : ℤ)) with hlt | hge
  · refine iff_of_true ?_ (hlt.trans hsmall)
    exact ((roundToContext_le hpos hlt).trans_lt hsmall).trans hbelow
  · rcases lt_or_ge x (10^(9+1 : ℤ)) with hhi | hlarge
    · have hscale : (0 : ℚ) < 10^(27-9 : ℤ) := zpow_pos (by norm_num) _
      have hmark : roundingBound*10^(27-9 : ℤ)=((9999999999995*10^15 : ℤ) : ℚ) := by
        norm_num [roundingBound]
      have heven : (9999999999995*10^15 : ℤ)%2=0 := by norm_num
      have hquotient : quotientBound*10^(27-9 : ℤ)=((9999999999995*10^15 : ℤ) : ℚ)-1/2 := by
        norm_num [quotientBound,roundingBound]
      rw [roundToContext_decade hge hhi,div_lt_iff₀ hscale,hmark,Int.cast_lt,
        roundHalfEven_lt_iff heven,← hquotient,mul_lt_mul_iff_left₀ hscale]
    · have hle := le_roundToContext hlarge
      norm_num at hle haccept
      exact absurd hle (not_le.mpr haccept)

/-- The cents of an amount fit exactly when it does not round up to the bound of the parser. -/
lemma cents_fit_iff (x : ℚ) :
    roundHalfEven (x*100) < 10^12 ↔ x < roundingBound := by
  rw [roundHalfEven_lt_iff (by norm_num)]
  norm_num [roundingBound]
  constructor <;> intro h <;> linarith

end Rounding

section Accepted
variable (reprOf : JsonValue → JsonText)

/-- What an accepted amount was read from, and when its cents fit. -/
lemma parseAmount_fits_iff {value precision : JsonValue} {a : AmountText}
    (h : parseAmount reprOf value precision=.ok a) :
    ∃ d exponent, decimalOfText (stripped reprOf value)=some d ∧
      intOfText (stripped reprOf precision)=some exponent ∧ 0 ≤ exponent ∧ exponent ≤ maxPrecision ∧
      (InNumericRange a.value ↔ |d.value|/10^exponent < quotientBound) := by
  unfold parseAmount at h
  cases hexponent : intOfText (stripped reprOf precision) with
  | none =>
    rw [hexponent] at h
    cases h
  | some exponent =>
    rw [hexponent] at h
    dsimp only at h
    split_ifs at h with hrange
    cases hvalue : decimalOfText (stripped reprOf value) with
    | none =>
      rw [hvalue] at h
      cases h
    | some d =>
      rw [hvalue] at h
      dsimp only at h
      split_ifs at h with hbound
      cases h
      refine ⟨d,exponent,rfl,rfl,hrange.1,hrange.2,?_⟩
      have hscale : (0 : ℚ) < 10^exponent := zpow_pos (by norm_num) _
      have habs : |d.value/10^exponent|=|d.value|/10^exponent := by
        rw [abs_div,abs_of_pos hscale]
      have hquotient : 0 ≤ |d.value|/10^exponent := div_nonneg (abs_nonneg _) hscale.le
      rw [abs_roundToContext,habs,maxAbsoluteAmount,not_le] at hbound
      rw [abs_roundToContext,habs,← roundToContext_lt_roundingBound hquotient hbound,
        ← cents_fit_iff]
      have hcents : 0 ≤ roundHalfEven (roundToContext (|d.value|/10^exponent)*100) := by
        apply le_roundHalfEven
        rw [Int.cast_zero]
        exact mul_nonneg (roundToContext_nonneg hquotient) (by norm_num)
      obtain ⟨cents,hcents⟩ := Int.eq_ofNat_of_zero_le hcents
      rw [hcents,Int.toNat_natCast,InNumericRange,AmountText.value]
      split_ifs
      · rw [abs_neg,Nat.abs_cast]
      · rw [Nat.abs_cast]

end Accepted

section Integers
variable (reprOf : JsonValue → JsonText)

/-- The digits of a number as text. -/
def Digits (s : PyText) : Prop := ∃ cs : List Char, s=cs.map codePoint ∧ ∀ c ∈ cs, c.isDigit=true

lemma digits_padded (width n : ℕ) : Digits (padded width n) :=
  ⟨_,padded_eq_map width n,fun _ hc => isDigit_of_mem_paddedChars hc⟩

lemma padded_ne_nil (n : ℕ) : padded 1 n ≠ [] := by
  intro h
  have hlength := congrArg List.length h
  simp only [padded_eq_map,List.length_map,paddedChars,List.length_append,List.length_replicate,
    List.length_nil] at hlength
  omega

namespace Digits
variable {s : PyText}

lemma range (h : Digits s) {c : CodePoint} (hc : c ∈ s) : 48 ≤ c.val ∧ c.val ≤ 57 := by
  obtain ⟨cs,rfl,hdigit⟩ := h
  obtain ⟨d,hd,rfl⟩ := List.mem_map.mp hc
  change 48 ≤ d.toNat ∧ d.toNat ≤ 57
  simpa using Char.isDigit_iff_toNat.mp (hdigit d hd)

lemma isDigit (h : Digits s) {c : CodePoint} (hc : c ∈ s) : P4x.isDigit c=true := by
  obtain ⟨cs,rfl,hdigit⟩ := h
  obtain ⟨d,hd,rfl⟩ := List.mem_map.mp hc
  rw [P4x.isDigit,digit?_of_ascii (asciiDigit?_codePoint (hdigit d hd))]
  rfl

/-- No digit is another mark. -/
lemma ne_codePoint (h : Digits s) {c : CodePoint} (hc : c ∈ s) {mark : Char}
    (hmark : mark.toNat < 48 ∨ 57 < mark.toNat) : c ≠ codePoint mark := by
  rintro rfl
  have hrange := h.range hc
  change 48 ≤ mark.toNat ∧ mark.toNat ≤ 57 at hrange
  omega

lemma decimalValue_padded (width n : ℕ) : decimalValue (padded width n)=n := by
  have hfold : ∀ (cs : List Char) (acc : ℕ), (∀ c ∈ cs, c.isDigit=true) →
      (cs.map codePoint).foldl (fun n c => n*10+(digit? c).getD 0) acc=
        Nat.ofDigitChars 10 cs acc := by
    intro cs
    induction cs with
    | nil => intro acc _; rfl
    | cons c cs ih =>
      intro acc hcs
      have hc := digit?_of_ascii (asciiDigit?_codePoint (hcs c List.mem_cons_self))
      rw [List.map_cons,List.foldl_cons,hc,ih _ fun d hd => hcs d (List.mem_cons_of_mem _ hd),
        Nat.ofDigitChars_cons,Nat.mul_comm]
      rfl
  rw [decimalValue,padded_eq_map,hfold _ _ fun c hc => isDigit_of_mem_paddedChars hc,
    ofDigitChars_paddedChars]

lemma splitSign (h : Digits s) : P4x.splitSign s=(false,s) := by
  cases s with
  | nil => rfl
  | cons c s =>
    rw [P4x.splitSign,if_neg (h.ne_codePoint List.mem_cons_self (by decide)),
      if_neg (h.ne_codePoint List.mem_cons_self (by decide))]

end Digits

/-- The text of an integer is its sign and its digits. -/
lemma stripped_int (n : ℤ) : stripped reprOf (.int n)=
    (if n < 0 then text "-" else []) ++ padded 1 n.natAbs := by
  change strip ((if n < 0 then text "-" else []) ++ padded 1 n.natAbs)=_
  apply strip_eq_self
  intro c hc
  rcases List.mem_append.mp hc with hc | hc
  · split_ifs at hc
    · rw [List.mem_singleton.mp hc]
      decide
    · cases hc
  · have hrange := (digits_padded 1 n.natAbs).range hc
    simp only [isSpace,Bool.or_eq_false_iff,Bool.and_eq_false_iff,decide_eq_false_iff_not]
    omega

lemma splitSign_int (n : ℤ) : splitSign ((if n < 0 then text "-" else []) ++ padded 1 n.natAbs)=
    (decide (n < 0),padded 1 n.natAbs) := by
  split_ifs with hneg
  · rw [decide_eq_true hneg]
    rfl
  · rw [decide_eq_false hneg]
    exact (digits_padded 1 n.natAbs).splitSign

/-- `int(str(n))`, unless the text is too long. -/
lemma intOfText_int {n e : ℤ} (h : intOfText (stripped reprOf (.int n))=some e) : e=n := by
  rw [stripped_int,intOfText,splitSign_int] at h
  dsimp only at h
  have hdigits := digits_padded 1 n.natAbs
  have hfilter : (padded 1 n.natAbs).filter (· ≠ codePoint '_')=padded 1 n.natAbs := by
    rw [List.filter_eq_self]
    intro c hc
    exact decide_eq_true (hdigits.ne_codePoint hc (by decide))
  rw [hfilter] at h
  split_ifs at h with _ hneg
  · cases h
    rw [Digits.decimalValue_padded]
    have := of_decide_eq_true hneg
    omega
  · cases h
    rw [Digits.decimalValue_padded]
    have := of_decide_eq_false (Bool.eq_false_iff.mpr hneg)
    omega

/-- `Decimal(str(n))`, unless `n` is too large. -/
lemma decimalOfText_int {n : ℤ} {d : DecimalNumber}
    (h : decimalOfText (stripped reprOf (.int n))=some d) : d=⟨decide (n < 0),n.natAbs,0⟩ := by
  have hdigits := digits_padded 1 n.natAbs
  have hfilter : ((if n < 0 then text "-" else []) ++ padded 1 n.natAbs).filter
      (· ≠ codePoint '_')=(if n < 0 then text "-" else []) ++ padded 1 n.natAbs := by
    rw [List.filter_eq_self]
    intro c hc
    rcases List.mem_append.mp hc with hc | hc
    · split_ifs at hc
      · rw [List.mem_singleton.mp hc]
        decide
      · cases hc
    · exact decide_eq_true (hdigits.ne_codePoint hc (by decide))
  have htake : (padded 1 n.natAbs).takeWhile isDigit=padded 1 n.natAbs :=
    List.takeWhile_eq_self_iff.mpr fun c hc => hdigits.isDigit hc
  have hdrop : (padded 1 n.natAbs).dropWhile isDigit=[] :=
    List.dropWhile_eq_nil_iff.mpr fun c hc => hdigits.isDigit hc
  rw [stripped_int,decimalOfText,hfilter,splitSign_int] at h
  simp only [htake,hdrop,List.append_nil,padded_ne_nil,if_false,exponentOfText,
    Digits.decimalValue_padded,List.length_nil,Nat.cast_zero,sub_zero,Option.bind_eq_bind,
    Option.bind_some] at h
  split_ifs at h
  cases h
  rfl

lemma abs_value_int (n : ℤ) : |(⟨decide (n < 0),n.natAbs,0⟩ : DecimalNumber).value|=|(n : ℚ)| := by
  have habs : ((n.natAbs : ℕ) : ℚ)=|(n : ℚ)| := by rw [Nat.cast_natAbs,Int.cast_abs]
  unfold DecimalNumber.value
  split_ifs <;> simp [habs]

/-- A quotient of integers with at most nine decimals is not rounded by the context. -/
lemma quotient_lt_iff {n exponent : ℤ} (hlo : 0 ≤ exponent) (hhi : exponent ≤ maxPrecision) :
    |(n : ℚ)|/10^exponent < quotientBound ↔ |n| * 1000 < 9999999999995*10^exponent.toNat := by
  obtain ⟨k,rfl⟩ := Int.eq_ofNat_of_zero_le hlo
  have hk : k ≤ 9 := by
    rw [maxPrecision] at hhi
    omega
  have hscale : (0 : ℚ) < 10^k := pow_pos (by norm_num) k
  have hsmall : (10 : ℚ)^k ≤ 10^9 := pow_le_pow_right₀ (by norm_num) hk
  rw [zpow_natCast,div_lt_iff₀ hscale,Int.toNat_natCast]
  constructor
  · intro h
    have hlt : |(n : ℚ)| * 1000 < 9999999999995*10^k := by
      have hbound : quotientBound*10^k < roundingBound*10^k :=
        mul_lt_mul_of_pos_right (by norm_num [quotientBound]) hscale
      rw [roundingBound] at hbound
      linarith
    exact_mod_cast hlt
  · intro h
    have hle : |n| * 1000+1 ≤ 9999999999995*10^k := h
    have hle : |(n : ℚ)| * 1000+1 ≤ 9999999999995*10^k := by exact_mod_cast hle
    rw [quotientBound,roundingBound,sub_mul]
    linarith

/-- An accepted pair of integers: the cents fit exactly when the exact quotient is below the bound. -/
lemma parseAmount_int_fits_iff {value precision : ℤ} {a : AmountText}
    (h : parseAmount reprOf (.int value) (.int precision)=.ok a) :
    InNumericRange a.value ↔ |value| * 1000 < 9999999999995*10^precision.toNat := by
  obtain ⟨d,exponent,hd,hexponent,hlo,hhi,hfits⟩ := parseAmount_fits_iff reprOf h
  obtain rfl := intOfText_int reprOf hexponent
  obtain rfl := decimalOfText_int reprOf hd
  rw [hfits,abs_value_int,quotient_lt_iff hlo hhi]

end Integers

section Entries
variable (reprOf : JsonValue → JsonText) (dumps : JsonValue → String)

/-- The amount of an entry: its value and its precision. -/
def AmountObject (struct value precision : JsonValue) : Prop :=
  field struct ["amount","value"]=.ok value ∧ field struct ["amount","precision"]=.ok precision

lemma get?_set_of_ne {node value : JsonValue} {key other : String} (h : text other ≠ text key) :
    (node.set key value).get? other=node.get? other := by
  cases node with
  | dict entries =>
    simp only [JsonValue.set,JsonValue.get?]
    induction entries with
    | nil => rfl
    | cons e entries ih =>
      rw [List.map_cons,List.find?_cons,List.find?_cons]
      by_cases hkey : e.1.codes=text key
      · have hother : decide (e.1.codes=text other)=false :=
          decide_eq_false fun heq => h (heq.symm.trans hkey)
        rw [if_pos hkey]
        simp only [hother]
        exact ih
      · rw [if_neg hkey]
        cases decide (e.1.codes=text other) with
        | true => rfl
        | false => exact ih
  | null => rfl
  | bool b => rfl
  | int n => rfl
  | float r => rfl
  | str s => rfl
  | list items => rfl

/-- A missing counter account leaves the amount as it is. -/
lemma field_amount_withPartnerAccount (struct account : JsonValue) (key : String) :
    field (withPartnerAccount struct account) ["amount",key]=field struct ["amount",key] := by
  have hget : (withPartnerAccount struct account).get? "amount"=struct.get? "amount" := by
    unfold withPartnerAccount
    split_ifs
    · rfl
    · exact get?_set_of_ne (by decide)
  simp only [field,List.foldlM_cons,child,hget]

/-- The amount of a parsed entry is the parsed amount. -/
lemma parseEntry_amount {struct value precision : JsonValue} {entry : ParsedTransactionEntry}
    (hamount : AmountObject struct value precision)
    (h : parseEntry reprOf dumps struct=.ok entry) :
    ∃ a, parseAmount reprOf value precision=.ok a ∧ entry.payload.amount=some a := by
  simp only [parseEntry,bind_eq_ok_iff,field_amount_withPartnerAccount] at h
  obtain ⟨-,-,booking,-,valuation,-,account,-,iban,-,-,-,value',hvalue,precision',hprecision,a,ha,-,-,
    hentry⟩ := h
  cases hentry
  obtain rfl := Except.ok.inj (hamount.1.symm.trans hvalue)
  obtain rfl := Except.ok.inj (hamount.2.symm.trans hprecision)
  exact ⟨a,ha,rfl⟩

/-- The stored amount of an accepted pair, and of the entry it stands in, fits the column exactly when
the quotient is below 9999999999.995; from there on it is rounded up to ten thousand millions. -/
theorem acceptedAmount_fits_iff (value precision : ℤ) :
    (∀ a, parseAmount reprOf (.int value) (.int precision)=.ok a →
      (InNumericRange a.value ↔ |value| * 1000 < 9999999999995*10^precision.toNat)) ∧
    ∀ struct entry, AmountObject struct (.int value) (.int precision) →
      parseEntry reprOf dumps struct=.ok entry → ∃ a, entry.payload.amount=some a ∧
        (InNumericRange a.value ↔ |value| * 1000 < 9999999999995*10^precision.toNat) := by
  refine ⟨fun a => parseAmount_int_fits_iff reprOf,?_⟩
  intro struct entry hamount hentry
  obtain ⟨a,ha,hpayload⟩ := parseEntry_amount reprOf dumps hamount hentry
  exact ⟨a,hpayload,parseAmount_int_fits_iff reprOf ha⟩

end Entries

theorem bankEntry_amount_fits : ∃ a, a.value=2500 ∧ InNumericRange a.value ∧
    ∃ entry, parseEntry noRepr (fun _ => "{}") (bankEntry midnight)=.ok entry ∧
      entry.payload.amount=some a := by
  have hentry : parseEntry noRepr (fun _ => "{}") (bankEntry midnight)=
      .ok ⟨(bankImportEntry midnight "{}").payload,"{}"⟩ :=
    parseEntry_bankEntry (by decide +kernel)
  obtain ⟨a,ha,hfits⟩ := (acceptedAmount_fits_iff noRepr (fun _ => "{}") 2500 2).2
    (bankEntry midnight) _ ⟨rfl,rfl⟩ hentry
  obtain rfl := Option.some.inj ha
  exact ⟨_,rfl,hfits.mpr (by decide),_,hentry,ha⟩

/-- 9999999999.995 is below the bound of the parser and is written as 10000000000.00. -/
theorem accepted_amount_too_large :
    parseAmount noRepr (.int 9999999999995) (.int 3)=.ok ⟨false,10^12⟩ ∧
      ¬ InNumericRange (⟨false,10^12⟩ : AmountText).value := by
  refine ⟨?_,by decide⟩
  have hprecision : intOfText (stripped noRepr (.int 3))=some 3 := by decide +kernel
  have hvalue : decimalOfText (stripped noRepr (.int 9999999999995))=
      some ⟨false,9999999999995,0⟩ := by decide +kernel
  have hquotient : (⟨false,9999999999995,0⟩ : DecimalNumber).value/10^(3 : ℤ)=roundingBound := by
    norm_num [DecimalNumber.value,roundingBound]
  have hround : roundToContext roundingBound=roundingBound := by
    have hmark : roundingBound*10^(27-9 : ℤ)=((9999999999995*10^15 : ℤ) : ℚ) := by
      norm_num [roundingBound]
    rw [roundToContext_decade (k := 9) (by norm_num [roundingBound])
      (by norm_num [roundingBound]),hmark,roundHalfEven_intCast,← hmark]
    exact mul_div_cancel_right₀ _ (by norm_num)
  have hsmall : ¬ maxAbsoluteAmount ≤ |roundingBound| := by
    norm_num [maxAbsoluteAmount,roundingBound,abs_of_pos]
  have hcents : roundHalfEven (|roundingBound| * 100)=10^12 := by
    apply le_antisymm
    · apply roundHalfEven_le
      norm_num [roundingBound,abs_of_pos]
    · rw [← not_lt,cents_fit_iff]
      norm_num [roundingBound,abs_of_pos]
  rw [parseAmount,hprecision,hvalue]
  simp only [maxPrecision,Int.reduceLE,and_self,not_true_eq_false,if_false,hquotient,hround,hsmall,
    hcents]
  rfl

end VbApi.P4x
