import Mathlib.Tactic

/-! The clock of a time zone: the changes of its offset from UTC, what the clock reads at a moment,
and the moment that a reading stands for. A repeated reading stands for its first pass, a skipped one
is taken with the offset before the change, as `datetime` has it for `fold=0`. Moments and readings are
counted in one unit. -/
namespace VbApi.Foundations

/-- The clock has a new offset from a moment on. -/
structure ClockChange where
  moment : ℤ
  offset : ℤ
  deriving DecidableEq

namespace ClockChange

/-- The offset at a moment: that of the last change before it. -/
def offsetAt : ℤ → List ClockChange → ℤ → ℤ
  | o,[],_ => o
  | o,c::cs,t => if t < c.moment then o else offsetAt c.offset cs t

/-- The offset that belongs to a reading: a change counts once it has moved the clock past it. -/
def offsetFor : ℤ → List ClockChange → ℤ → ℤ
  | o,[],_ => o
  | o,c::cs,w => if w < c.moment+max o c.offset then o else offsetFor c.offset cs w

/-- What one change skips or repeats lies before what the next one does. -/
def Separated : ℤ → List ClockChange → Prop
  | _,[] => True
  | _,[_] => True
  | o,c::c'::cs =>
    c.moment+max o c.offset ≤ c'.moment+min c.offset c'.offset ∧ Separated c.offset (c'::cs)

/-- No change skips or repeats a span around the reading `w`. -/
def Passes (w : ℤ) : ℤ → List ClockChange → Prop
  | _,[] => True
  | o,c::cs => ¬ (c.moment+min o c.offset < w ∧ w < c.moment+max o c.offset) ∧ Passes w c.offset cs

variable {o t w : ℤ} {c : ClockChange} {cs : List ClockChange}

lemma Separated.tail (h : Separated o (c::cs)) : Separated c.offset cs := by
  cases cs with
  | nil => trivial
  | cons c' cs => exact h.2

lemma offsetAt_of_all {P : ℤ → Prop} (ho : P o) (hcs : ∀ c ∈ cs, P c.offset) :
    P (offsetAt o cs t) := by
  induction cs generalizing o with
  | nil => exact ho
  | cons c cs ih =>
    rw [offsetAt]
    split_ifs
    · exact ho
    · exact ih (hcs c List.mem_cons_self) fun c' hc' => hcs c' (List.mem_cons_of_mem _ hc')

lemma offsetFor_of_all {P : ℤ → Prop} (ho : P o) (hcs : ∀ c ∈ cs, P c.offset) :
    P (offsetFor o cs w) := by
  induction cs generalizing o with
  | nil => exact ho
  | cons c cs ih =>
    rw [offsetFor]
    split_ifs
    · exact ho
    · exact ih (hcs c List.mem_cons_self) fun c' hc' => hcs c' (List.mem_cons_of_mem _ hc')

/-- From a change on the clock never reads less than right after it. -/
lemma reading_ge (h : Separated o (c::cs)) (ht : c.moment ≤ t) :
    c.moment+c.offset ≤ t+offsetAt c.offset cs t := by
  induction cs generalizing o c with
  | nil =>
    rw [offsetAt]
    omega
  | cons c' cs ih =>
    have hnext := h.1
    rw [offsetAt]
    split_ifs with hbefore
    · omega
    · have hlater := ih h.tail (not_lt.mp hbefore)
      omega

/-- A reading from a change on stands for a moment from the change on. -/
lemma moment_ge (h : Separated o (c::cs)) (hw : c.moment+c.offset ≤ w) :
    c.moment ≤ w-offsetFor c.offset cs w := by
  induction cs generalizing o c with
  | nil =>
    rw [offsetFor]
    omega
  | cons c' cs ih =>
    have hnext := h.1
    rw [offsetFor]
    split_ifs with hbefore
    · omega
    · have hlater := ih h.tail (by omega)
      omega

/-- The moment of a reading is the first one with it. -/
lemma firstPass (h : Separated o cs) : t+offsetAt o cs t-offsetFor o cs (t+offsetAt o cs t) ≤ t ∧
    offsetAt o cs (t+offsetAt o cs t-offsetFor o cs (t+offsetAt o cs t))=
      offsetFor o cs (t+offsetAt o cs t) := by
  induction cs generalizing o with
  | nil => simp [offsetAt,offsetFor]
  | cons c cs ih =>
    by_cases hbefore : t < c.moment
    · have hat : offsetAt o (c::cs) t=o := if_pos hbefore
      have hfor : offsetFor o (c::cs) (t+o)=o := if_pos (by omega)
      rw [hat,hfor,add_sub_cancel_right]
      exact ⟨le_rfl,hat⟩
    · have hat : offsetAt o (c::cs) t=offsetAt c.offset cs t := if_neg hbefore
      have hge := reading_ge h (not_lt.mp hbefore)
      rw [hat]
      by_cases hrepeated : t+offsetAt c.offset cs t < c.moment+max o c.offset
      · -- the second pass of a repeated span: the reading stands for a moment before the change
        have hfor : offsetFor o (c::cs) (t+offsetAt c.offset cs t)=o := if_pos hrepeated
        rw [hfor]
        exact ⟨by omega,if_pos (by omega)⟩
      · have hfor : offsetFor o (c::cs) (t+offsetAt c.offset cs t)=
            offsetFor c.offset cs (t+offsetAt c.offset cs t) := if_neg hrepeated
        obtain ⟨hle,hreads⟩ := ih h.tail
        have hmoment := moment_ge h hge
        rw [hfor]
        exact ⟨hle,(if_neg (not_lt.mpr hmoment)).trans hreads⟩

/-- The clock passes a reading that no change skips or repeats at one moment. -/
lemma le_reading_iff (h : Separated o cs) (hw : Passes w o cs) :
    w ≤ t+offsetAt o cs t ↔ w-offsetFor o cs w ≤ t := by
  induction cs generalizing o with
  | nil =>
    rw [offsetAt,offsetFor]
    omega
  | cons c cs ih =>
    obtain ⟨hc,hrest⟩ := hw
    rw [offsetAt,offsetFor]
    split_ifs with hbefore hearly hearly
    · omega
    · have hmoment := moment_ge h (w := w) (by omega)
      omega
    · have hge := reading_ge h (not_lt.mp hbefore)
      omega
    · exact ih h.tail hrest

/-- A moment with the first pass of its reading has a later reading than every moment before it. -/
lemma reading_lt {s : ℤ} (h : Separated o cs) (hst : s < t)
    (ht : t+offsetAt o cs t-offsetFor o cs (t+offsetAt o cs t)=t) :
    s+offsetAt o cs s < t+offsetAt o cs t := by
  induction cs generalizing o with
  | nil =>
    rw [offsetAt,offsetAt]
    omega
  | cons c cs ih =>
    by_cases hbefore : t < c.moment
    · have hat : offsetAt o (c::cs) t=o := if_pos hbefore
      have hat' : offsetAt o (c::cs) s=o := if_pos (hst.trans hbefore)
      rw [hat,hat']
      omega
    · have hat : offsetAt o (c::cs) t=offsetAt c.offset cs t := if_neg hbefore
      have hge := reading_ge h (not_lt.mp hbefore)
      rw [hat] at ht ⊢
      have hpast : ¬ t+offsetAt c.offset cs t < c.moment+max o c.offset := by
        intro hrepeated
        have hfor : offsetFor o (c::cs) (t+offsetAt c.offset cs t)=o := if_pos hrepeated
        rw [hfor] at ht
        omega
      by_cases hs : s < c.moment
      · have hat' : offsetAt o (c::cs) s=o := if_pos hs
        rw [hat']
        omega
      · have hat' : offsetAt o (c::cs) s=offsetAt c.offset cs s := if_neg hs
        have hfor : offsetFor o (c::cs) (t+offsetAt c.offset cs t)=
            offsetFor c.offset cs (t+offsetAt c.offset cs t) := if_neg hpast
        rw [hat']
        rw [hfor] at ht
        exact ih h.tail ht

end ClockChange

/-- The rules of a time zone. -/
structure ZoneRules where
  /-- The offset before the first change. -/
  standard : ℤ
  changes : List ClockChange
  separated : ClockChange.Separated standard changes

namespace ZoneRules
variable (zone : ZoneRules)

/-- What the clock reads at a moment. -/
def reading (t : ℤ) : ℤ := t+ClockChange.offsetAt zone.standard zone.changes t

/-- The moment that a reading stands for. -/
def momentOf (w : ℤ) : ℤ := w-ClockChange.offsetFor zone.standard zone.changes w

/-- At this moment the clock shows its reading for the first time. -/
def FirstPass (t : ℤ) : Prop := zone.momentOf (zone.reading t)=t

instance (t : ℤ) : Decidable (zone.FirstPass t) := inferInstanceAs (Decidable (_=_))

variable {zone} {s t w : ℤ}

lemma momentOf_reading_le : zone.momentOf (zone.reading t) ≤ t :=
  (ClockChange.firstPass zone.separated).1

@[simp] lemma reading_momentOf_reading :
    zone.reading (zone.momentOf (zone.reading t))=zone.reading t := by
  have hreads : ClockChange.offsetAt zone.standard zone.changes (zone.momentOf (zone.reading t))=
      ClockChange.offsetFor zone.standard zone.changes (zone.reading t) :=
    (ClockChange.firstPass zone.separated).2
  rw [reading,hreads,momentOf,sub_add_cancel]

theorem reading_lt_of_firstPass (hst : s < t) (ht : zone.FirstPass t) :
    zone.reading s < zone.reading t :=
  ClockChange.reading_lt zone.separated hst ht

/-- The clock reads at least `w` from the moment on that `w` stands for. -/
theorem le_reading_iff (hw : ClockChange.Passes w zone.standard zone.changes) :
    w ≤ zone.reading t ↔ zone.momentOf w ≤ t :=
  ClockChange.le_reading_iff zone.separated hw

end ZoneRules
end VbApi.Foundations
