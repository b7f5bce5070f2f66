import Mathlib.Tactic

/-! Programs that receive messages from a client and send messages to it, the channels they run over,
and the rules for what a run keeps and for two channels that answer alike. -/
namespace VbApi.Foundations

/-- The next step may depend on what a call returns or raises. -/
inductive ChannelProgram (ι ο ε : Type)
  | done
  | raise (e : ε)
  | receive (next : Except ε ι → ChannelProgram ι ο ε)
  | send (m : ο) (next : Except ε Unit → ChannelProgram ι ο ε)

structure Channel (σ ι ο ε : Type) where
  receive : σ → Except ε ι × σ
  send : ο → σ → Except ε Unit × σ

/-- What a program got from its channel, or gave to it. -/
inductive Passed (ι ο : Type)
  | received (m : ι)
  | sent (m : ο)

namespace Channel
variable {σ τ ι ο ε : Type}

def run (c : Channel σ ι ο ε) : ChannelProgram ι ο ε → σ → Except ε Unit × σ
  | .done,s => (.ok (),s)
  | .raise e,s => (.error e,s)
  | .receive next,s => run c (next (c.receive s).1) (c.receive s).2
  | .send m next,s => run c (next (c.send m s).1) (c.send m s).2

/-- The channel, with notes of what passes. -/
def noted (c : Channel σ ι ο ε) : Channel (σ × List (Passed ι ο)) ι ο ε where
  receive x := match c.receive x.1 with
    | (.ok m,s) => (.ok m,(s,x.2 ++ [.received m]))
    | (.error e,s) => (.error e,(s,x.2))
  send m x := ((c.send m x.1).1,((c.send m x.1).2,x.2 ++ [.sent m]))

/-- What both calls keep, a run keeps. -/
theorem run_invariant {c : Channel σ ι ο ε} {I : σ → Prop} (hreceive : ∀ s, I s → I (c.receive s).2)
    (hsend : ∀ m s, I s → I (c.send m s).2) (p : ChannelProgram ι ο ε) {s : σ} (hs : I s) :
    I (c.run p s).2 := by
  induction p generalizing s with
  | done => exact hs
  | raise e => exact hs
  | receive next ih => exact ih _ (hreceive s hs)
  | send m next ih => exact ih _ (hsend m s hs)

/-- What holds at the end of a run held all along, if no call brings it about. -/
theorem holds_before_run {c : Channel σ ι ο ε} {P : σ → Prop}
    (hreceive : ∀ s, P (c.receive s).2 → P s) (hsend : ∀ m s, P (c.send m s).2 → P s)
    (p : ChannelProgram ι ο ε) {s : σ} (h : P (c.run p s).2) : P s := by
  induction p generalizing s with
  | done => exact h
  | raise e => exact h
  | receive next ih => exact hreceive s (ih _ h)
  | send m next ih => exact hsend m s (ih _ h)

/-- Channels that answer alike in related states give related runs, as long as `P` holds of the first
one. -/
theorem run_simulates_while {c : Channel σ ι ο ε} {d : Channel τ ι ο ε} {R : σ → τ → Prop}
    {P : σ → Prop} (hbefore : ∀ s, P (c.receive s).2 → P s) (hbefore' : ∀ m s, P (c.send m s).2 → P s)
    (hreceive : ∀ s t, R s t → P (c.receive s).2 →
      (d.receive t).1=(c.receive s).1 ∧ R (c.receive s).2 (d.receive t).2)
    (hsend : ∀ m s t, R s t → P (c.send m s).2 →
      (d.send m t).1=(c.send m s).1 ∧ R (c.send m s).2 (d.send m t).2)
    (p : ChannelProgram ι ο ε) {s : σ} {t : τ} (h : R s t) (hend : P (c.run p s).2) :
    (d.run p t).1=(c.run p s).1 ∧ R (c.run p s).2 (d.run p t).2 := by
  induction p generalizing s t with
  | done => exact ⟨rfl,h⟩
  | raise e => exact ⟨rfl,h⟩
  | receive next ih =>
    have hstep : P (c.receive s).2 := holds_before_run hbefore hbefore' _ hend
    obtain ⟨hanswer,hrel⟩ := hreceive s t h hstep
    simp only [run,hanswer]
    exact ih _ hrel hend
  | send m next ih =>
    have hstep : P (c.send m s).2 := holds_before_run hbefore hbefore' _ hend
    obtain ⟨hanswer,hrel⟩ := hsend m s t h hstep
    simp only [run,hanswer]
    exact ih _ hrel hend

theorem run_simulates {c : Channel σ ι ο ε} {d : Channel τ ι ο ε} {R : σ → τ → Prop}
    (hreceive : ∀ s t, R s t →
      (d.receive t).1=(c.receive s).1 ∧ R (c.receive s).2 (d.receive t).2)
    (hsend : ∀ m s t, R s t →
      (d.send m t).1=(c.send m s).1 ∧ R (c.send m s).2 (d.send m t).2)
    (p : ChannelProgram ι ο ε) {s : σ} {t : τ} (h : R s t) :
    (d.run p t).1=(c.run p s).1 ∧ R (c.run p s).2 (d.run p t).2 :=
  run_simulates_while (P := fun _ => True) (fun _ _ => trivial) (fun _ _ _ => trivial)
    (fun s t hst _ => hreceive s t hst) (fun m s t hst _ => hsend m s t hst) p h trivial

section Noted
variable (c : Channel σ ι ο ε)

lemma noted_receive_ok {x : σ × List (Passed ι ο)} {m : ι} {s : σ} (h : c.receive x.1=(.ok m,s)) :
    c.noted.receive x=(.ok m,(s,x.2 ++ [.received m])) := by
  simp only [noted,h]

lemma noted_receive_error {x : σ × List (Passed ι ο)} {e : ε} {s : σ}
    (h : c.receive x.1=(.error e,s)) : c.noted.receive x=(.error e,(s,x.2)) := by
  simp only [noted,h]

lemma noted_receive_client (x : σ × List (Passed ι ο)) :
    (c.noted.receive x).1=(c.receive x.1).1 ∧ (c.noted.receive x).2.1=(c.receive x.1).2 := by
  rcases h : c.receive x.1 with ⟨e | m,s⟩
  · rw [noted_receive_error c h]
    exact ⟨rfl,rfl⟩
  · rw [noted_receive_ok c h]
    exact ⟨rfl,rfl⟩

lemma noted_receive_notes (x : σ × List (Passed ι ο)) :
    ∃ more, (c.noted.receive x).2.2=x.2 ++ more := by
  rcases h : c.receive x.1 with ⟨e | m,s⟩
  · exact ⟨[],by rw [noted_receive_error c h,List.append_nil]⟩
  · exact ⟨[.received m],by rw [noted_receive_ok c h]⟩

/-- Taking notes does not change a run. -/
theorem noted_run (p : ChannelProgram ι ο ε) (s : σ) (notes : List (Passed ι ο)) :
    (c.noted.run p (s,notes)).1=(c.run p s).1 ∧ (c.noted.run p (s,notes)).2.1=(c.run p s).2 := by
  refine run_simulates (R := fun s (x : σ × List (Passed ι ο)) => x.1=s) ?_ ?_ p rfl
  · intro s x hx
    subst hx
    exact noted_receive_client c x
  · intro m s x hx
    subst hx
    exact ⟨rfl,rfl⟩

end Noted
end Channel
end VbApi.Foundations
