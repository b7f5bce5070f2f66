import VbApi.Foundations.IsoDate

/-! Numbers written in decimal: what can be read back from their digits, and that such texts are
plain ASCII. -/
namespace VbApi.Foundations

/-- The characters of `padded`. -/
def paddedChars (width n : ℕ) : List Char :=
  List.replicate (width-(Nat.toDigits 10 n).length) '0' ++ Nat.toDigits 10 n

lemma padded_eq_map (width n : ℕ) : padded width n=(paddedChars width n).map codePoint := by
  simp [padded,paddedChars]

lemma isDigit_of_mem_toDigits {n : ℕ} {c : Char} (h : c ∈ Nat.toDigits 10 n) : c.isDigit=true :=
  Nat.isDigit_of_mem_toDigits (by decide) (by decide) h

lemma isDigit_of_mem_paddedChars {width n : ℕ} {c : Char} (h : c ∈ paddedChars width n) :
    c.isDigit=true := by
  rcases List.mem_append.mp h with h | h
  · rw [List.eq_of_mem_replicate h]
    decide
  · exact isDigit_of_mem_toDigits h

lemma codePoint_injective : Function.Injective codePoint := by
  intro c d h
  have hval : c.toNat=d.toNat := Fin.mk.inj h
  exact Char.toNat_inj.mp hval

lemma asciiDigit?_codePoint {c : Char} (h : c.isDigit=true) :
    asciiDigit? (codePoint c)=some (c.toNat-48) := by
  have hrange := Char.isDigit_iff_toNat.mp h
  have hval : (codePoint c).val=c.toNat := rfl
  rw [asciiDigit?,hval,if_pos]
  simpa using hrange

lemma codePoint_ne_of_isDigit {c mark : Char} (hc : c.isDigit=true) (hmark : mark.isDigit=false) :
    codePoint c ≠ codePoint mark := by
  intro heq
  have hval : (codePoint c).val=(codePoint mark).val := by rw [heq]
  change c.toNat=mark.toNat at hval
  have hrange := Char.isDigit_iff_toNat.mp hc
  rw [hval] at hrange
  rw [Char.isDigit_iff_toNat.mpr hrange] at hmark
  contradiction

@[simp] lemma ofDigitChars_paddedChars (width n : ℕ) :
    Nat.ofDigitChars 10 (paddedChars width n) 0=n := by
  simp [paddedChars,Nat.ofDigitChars_append]

lemma length_paddedChars {width n : ℕ} (hwidth : 0 < width) (h : n < 10^width) :
    (paddedChars width n).length=width := by
  have hlen := Nat.toDigits_length 10 n width hwidth h
  simp only [paddedChars,List.length_append,List.length_replicate]
  omega

/-- Among the digits there is no other mark. -/
lemma ne_of_mem_padded {width n : ℕ} {c : CodePoint} {mark : Char} (hmark : mark.isDigit=false)
    (h : c ∈ padded width n) : c ≠ codePoint mark := by
  rw [padded_eq_map] at h
  obtain ⟨digit,hdigit,rfl⟩ := List.mem_map.mp h
  exact codePoint_ne_of_isDigit (isDigit_of_mem_paddedChars hdigit) hmark

/-- Distinct numbers have distinct digits. -/
theorem toDigits_inj {m n : ℕ} (h : Nat.toDigits 10 m=Nat.toDigits 10 n) : m=n := by
  have hread := congrArg (fun cs => Nat.ofDigitChars 10 cs 0) h
  simpa using hread

/-- A number after a mark that is no digit can be split off again. -/
theorem append_mark_toDigits_inj {mark : Char} (hmark : mark.isDigit=false) {s t : List Char}
    {m n : ℕ} (h : s ++ mark::Nat.toDigits 10 m=t ++ mark::Nat.toDigits 10 n) : s=t ∧ m=n := by
  -- the shorter front cannot end before the longer one: the mark would stand among the digits
  have tail : ∀ {a : List Char} {i j : ℕ},
      mark::Nat.toDigits 10 i=a ++ mark::Nat.toDigits 10 j → a=[] ∧ i=j := by
    intro a i j he
    cases a with
    | nil => exact ⟨rfl,toDigits_inj (List.cons.inj he).2⟩
    | cons c a =>
      have hmem : mark ∈ Nat.toDigits 10 i := by
        rw [(List.cons.inj he).2]
        simp
      rw [isDigit_of_mem_toDigits hmem] at hmark
      contradiction
  rcases List.append_eq_append_iff.mp h with ⟨a,rfl,ha⟩ | ⟨a,rfl,ha⟩
  · obtain ⟨rfl,rfl⟩ := tail ha
    simp
  · obtain ⟨rfl,rfl⟩ := tail ha
    simp

/-- Texts of plain ASCII characters. -/
def IsAscii (s : PyText) : Prop := ∀ c ∈ s, c.val < 128

instance (s : PyText) : Decidable (IsAscii s) := List.decidableBAll _ s

lemma IsAscii.append {s t : PyText} (hs : IsAscii s) (ht : IsAscii t) : IsAscii (s ++ t) := by
  intro c hc
  rcases List.mem_append.mp hc with hc | hc
  · exact hs c hc
  · exact ht c hc

lemma isAscii_padded (width n : ℕ) : IsAscii (padded width n) := by
  intro c hc
  rw [padded_eq_map] at hc
  obtain ⟨d,hd,rfl⟩ := List.mem_map.mp hc
  have hdigit := isDigit_of_mem_paddedChars hd
  have hle : d.toNat ≤ 57 := (Char.isDigit_iff_toNat.mp hdigit).2
  change d.toNat < 128
  omega

/-- ASCII has no surrogates. -/
lemma IsAscii.merged {s : PyText} (h : IsAscii s) : Merged s := by
  induction s with
  | nil => trivial
  | cons c s ih =>
    have hs : IsAscii s := fun d hd => h d (List.mem_cons_of_mem _ hd)
    cases s with
    | nil => trivial
    | cons d s =>
      refine ⟨?_,ih hs⟩
      have hc := h c List.mem_cons_self
      simp only [isHighSurrogate,Bool.and_eq_true,decide_eq_true_eq]
      omega

lemma isAscii_isoformat (d : Date) : IsAscii d.isoformat :=
  ((((isAscii_padded _ _).append (by decide)).append (isAscii_padded _ _)).append (by decide)).append
    (isAscii_padded _ _)

end VbApi.Foundations
