import Mathlib
import Ockam.Lib.StateMonad

/-! Hoare triples over `EStateM` (`Std.Do`) for programs whose failures keep their state: a
triple with pure assertions read back as a statement about the run, the rule of `focus` (the
weakest precondition of a computation on one component of the state), and the invariant rule of
a loop that catches each step's error and goes on. -/

namespace EStateM

open Std.Do

set_option mvcgen.warning false

variable {ε σ τ α β : Type}

theorem triple_iff (x : EStateM ε σ α) (P : σ → Prop) (Q : α → σ → Prop) (E : ε → σ → Prop) :
    ⦃fun s => ⌜P s⌝⦄ x ⦃post⟨fun a s => ⌜Q a s⌝, fun e s => ⌜E e s⌝⟩⦄ ↔
      ∀ s, P s → match x s with
        | .ok a s' => Q a s'
        | .error e s' => E e s' := by
  constructor
  · intro h s hs
    have := h s hs
    simp only [wp, PredTrans.apply, EStateM.run] at this
    split at this <;> simp_all
  · intro h s hs
    have := h s hs
    simp only [wp, PredTrans.apply, EStateM.run]
    split <;> simp_all

theorem focus_spec {get : σ → τ} {set : σ → τ → σ} {Q : PostCond α (.except ε (.arg σ .pure))}
    (x : EStateM ε τ α) :
    Triple (focus get set x)
      (fun s => wp⟦x⟧ (fun a t => Q.1 a (set s t), fun e t => Q.2.1 e (set s t), ()) (get s)) Q := by
  intro s hs
  simp only [wp, PredTrans.apply, EStateM.run, focus] at hs ⊢
  split at hs <;> simp_all

theorem focus_keeps {get : σ → τ} {set : σ → τ → σ} (x : EStateM ε τ α) {F : σ → Prop}
    (hF : ∀ s t, F s → F (set s t)) :
    ⦃fun s => ⌜F s⌝⦄ focus get set x ⦃post⟨fun _ s => ⌜F s⌝, fun _ s => ⌜F s⌝⟩⦄ := by
  rw [triple_iff]
  intro s hs
  rcases hx : x (get s) with ⟨a, t⟩ | ⟨e, t⟩ <;> simp only [focus, hx] <;> exact hF _ _ hs

theorem mapM_attempt_invariant {I : σ → Prop} (f : α → EStateM ε σ β)
    (hf : ∀ a, ⦃fun s => ⌜I s⌝⦄ f a ⦃post⟨fun _ s => ⌜I s⌝, fun _ s => ⌜I s⌝⟩⦄) :
    ∀ (xs : List α) s, I s → ∃ rs s', xs.mapM (fun a => (f a).attempt) s = .ok rs s' ∧ I s' := by
  intro xs s hs
  have step : ∀ (t : Unit) a s, I s → ∃ r s', (f a).attempt s = .ok r s' ∧ I s' := by
    intro _ a s hs
    have hrun := (triple_iff (f a) I (fun _ => I) (fun _ => I)).mp (hf a) s hs
    rcases hx : f a s with ⟨b, s'⟩ | ⟨e, s'⟩ <;> rw [hx] at hrun <;> simp [hx, hrun]
  exact mapM_simulation (R := fun _ => I) (fun _ _ => ()) _ step xs () s hs

end EStateM
