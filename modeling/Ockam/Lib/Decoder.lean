import Mathlib.Data.List.Forall2

/-! Decoders that fail with an error: a decoder reads a prefix of its input and gives its value
and the rest. A value `Reads` back from a word when the decoder takes exactly that word off every
input that starts with it; a decoder `Ensures` a property of every value it returns. -/

/-- A decoder over symbols `σ` with values in `α` and errors in `ε`. -/
def Decoder (ε σ α : Type) : Type := List σ → Except ε (α × List σ)

namespace Decoder

variable {ε σ α β : Type}

instance : Monad (Decoder ε σ) where
  pure a s := .ok (a, s)
  bind p f s :=
    match p s with
    | .ok (a, s') => f a s'
    | .error e => .error e

def fail (e : ε) : Decoder ε σ α := fun _ => .error e

section Laws

variable {p : Decoder ε σ α} {f : α → Decoder ε σ β} {s s' : List σ} {a : α}

@[simp] lemma pure_apply (a : α) (s : List σ) : (pure a : Decoder ε σ α) s = .ok (a, s) := rfl

@[simp] lemma fail_apply (e : ε) (s : List σ) : (fail e : Decoder ε σ α) s = .error e := rfl

lemma bind_apply (p : Decoder ε σ α) (f : α → Decoder ε σ β) (s : List σ) :
    (p >>= f) s = match p s with
      | .ok (a, s') => f a s'
      | .error e => .error e := rfl

lemma bind_of_ok (h : p s = .ok (a, s')) : (p >>= f) s = f a s' := by
  rw [bind_apply, h]

lemma bind_eq_ok {b : β} {s'' : List σ} :
    (p >>= f) s = .ok (b, s'') ↔ ∃ a s', p s = .ok (a, s') ∧ f a s' = .ok (b, s'') := by
  rw [bind_apply]
  constructor
  · intro h
    match hp : p s, h with
    | .ok (a, s'), h => exact ⟨a, s', rfl, h⟩
  · rintro ⟨a, s', hp, hf⟩
    rw [hp]
    exact hf

end Laws

/-- `p` takes exactly `w` off every input that starts with it, and gives `a`. -/
def Reads (p : Decoder ε σ α) (a : α) (w : List σ) : Prop :=
  ∀ rest, p (w ++ rest) = .ok (a, rest)

namespace Reads

variable {p : Decoder ε σ α} {f : α → Decoder ε σ β} {a : α} {b : β} {w w' : List σ}

lemma pure (a : α) : Reads (Pure.pure a : Decoder ε σ α) a [] := fun _ => rfl

lemma bind (hp : Reads p a w) (hf : Reads (f a) b w') : Reads (p >>= f) b (w ++ w') := by
  intro rest
  rw [List.append_assoc, bind_of_ok (hp _), hf]

lemma map (hp : Reads p a w) (g : α → β) :
    Reads (p >>= fun x => Pure.pure (g x)) (g a) w := by
  simpa using hp.bind (f := fun x => Pure.pure (g x)) (Reads.pure (g a))

lemma apply_self (hp : Reads p a w) : p w = .ok (a, []) := by
  simpa using hp []

end Reads

/-- Every run of `p` that succeeds gives a value with property `P`. -/
def Ensures (p : Decoder ε σ α) (P : α → Prop) : Prop :=
  ∀ ⦃s a s'⦄, p s = .ok (a, s') → P a

namespace Ensures

variable {p : Decoder ε σ α} {f : α → Decoder ε σ β} {P : α → Prop} {Q : β → Prop}

lemma pure {a : α} (h : P a) : Ensures (Pure.pure a : Decoder ε σ α) P := by
  intro s a' s' hs
  cases hs
  exact h

lemma fail (e : ε) : Ensures (Decoder.fail e : Decoder ε σ α) P := by
  intro s a s' hs
  cases hs

lemma mono {P' : α → Prop} (hp : Ensures p P) (h : ∀ a, P a → P' a) : Ensures p P' :=
  fun _ _ _ hs => h _ (hp hs)

lemma bind (hf : ∀ a, Ensures (f a) Q) : Ensures (p >>= f) Q := by
  intro s b s'' hs
  obtain ⟨a, s', -, hfa⟩ := bind_eq_ok.mp hs
  exact hf a hfa

lemma bind_of (hp : Ensures p P) (hf : ∀ a, P a → Ensures (f a) Q) : Ensures (p >>= f) Q := by
  intro s b s'' hs
  obtain ⟨a, s', hpa, hfa⟩ := bind_eq_ok.mp hs
  exact hf a (hp hpa) hfa

lemma first {Q : α → β → Prop} (hf : ∀ a, Ensures (f a) (Q a)) {s s'' : List σ} {b : β}
    (h : (p >>= f) s = .ok (b, s'')) : ∃ a s', p s = .ok (a, s') ∧ Q a b := by
  obtain ⟨a, s', hpa, hfa⟩ := bind_eq_ok.mp h
  exact ⟨a, s', hpa, hf a hfa⟩

end Ensures

end Decoder
