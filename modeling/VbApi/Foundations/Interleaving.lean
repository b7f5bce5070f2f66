import VbApi.Foundations.Machine

/-! Clients that take atomic steps on a shared state in any order. Each client has its own program
counter; an invariant is one part about the shared state and one part for every client. -/
namespace VbApi.Foundations

abbrev ClientId := ℕ

/-- A shared state, and where every client stands. -/
structure World (σ π : Type*) where
  shared : σ
  clients : ClientId → π

/-- The program of every client: a step from the shared state and its place, with an input. -/
abbrev Program (σ π ι : Type*) := ClientId → σ → π → ι → Option (σ × π)

namespace Program
variable {σ π ι : Type*} (P : Program σ π ι)

/-- Any client may take the next step. -/
def interleave : Machine (World σ π) (ClientId × ι) where
  step w a := (P a.1 w.shared (w.clients a.1) a.2).map fun r => ⟨r.1,Function.update w.clients a.1 r.2⟩

variable {P}

lemma interleave_step_eq_some {w w' : World σ π} {c : ClientId} {i : ι} :
    P.interleave.step w (c,i)=some w' ↔ ∃ s p, P c w.shared (w.clients c) i=some (s,p) ∧
      w'=⟨s,Function.update w.clients c p⟩ := by
  simp only [interleave,Option.map_eq_some_iff]
  constructor
  · rintro ⟨⟨s,p⟩,h,rfl⟩
    exact ⟨s,p,h,rfl⟩
  · rintro ⟨s,p,h,rfl⟩
    exact ⟨(s,p),h,rfl⟩

/-- A shared part and a part for every client. -/
structure Holds (G : σ → Prop) (L : ClientId → σ → π → Prop) (w : World σ π) : Prop where
  shared : G w.shared
  clients : ∀ c, L c w.shared (w.clients c)

variable {G : σ → Prop} {L : ClientId → σ → π → Prop} {ok : World σ π → ClientId × ι → Prop}

/-- One step keeps the invariant: the client that takes it re-establishes its own part, and does
not disturb the others. -/
theorem Holds.of_step {w w' : World σ π} {c : ClientId} {i : ι}
    (hstep : P.interleave.step w (c,i)=some w')
    (hown : ∀ s p, P c w.shared (w.clients c) i=some (s,p) → G s ∧ L c s p)
    (hother : ∀ s p c', P c w.shared (w.clients c) i=some (s,p) → c' ≠ c → L c' s (w.clients c')) :
    Holds G L w' := by
  obtain ⟨s,p,hp,rfl⟩ := interleave_step_eq_some.mp hstep
  refine ⟨(hown s p hp).1,?_⟩
  intro c'
  change L c' s (Function.update w.clients c p c')
  by_cases hc : c'=c
  · subst hc
    rw [Function.update_self]
    exact (hown s p hp).2
  · rw [Function.update_of_ne hc]
    exact hother s p c' hp hc

/-- The rule for runs. -/
theorem Holds.of_reaches {w₀ w : World σ π} (hrun : P.interleave.Reaches ok w₀ w)
    (h₀ : Holds G L w₀)
    (hown : ∀ w c i s p, Holds G L w → ok w (c,i) → P c w.shared (w.clients c) i=some (s,p) →
      G s ∧ L c s p)
    (hother : ∀ w c i s p c', Holds G L w → ok w (c,i) → P c w.shared (w.clients c) i=some (s,p) →
      c' ≠ c → L c' s (w.clients c')) : Holds G L w := by
  refine hrun.invariant h₀ ?_
  rintro w ⟨c,i⟩ w' hw hok hstep
  exact .of_step hstep (fun s p => hown w c i s p hw hok) (fun s p c' => hother w c i s p c' hw hok)

end Program
end VbApi.Foundations
