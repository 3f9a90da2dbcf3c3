import Mathlib

/-! Stateful computations that keep their state on failure (`EStateM`), as a method taking
`&mut self` keeps every update it made before a `?` returns early, and the lifting of such a
computation to one component of a larger state. -/

namespace EStateM

variable {ε σ τ α β : Type}

def focus (get : σ → τ) (set : σ → τ → σ) (x : EStateM ε τ α) : EStateM ε σ α := fun s =>
  match x (get s) with
  | .ok a t => .ok a (set s t)
  | .error e t => .error e (set s t)

def ofExcept (x : Except ε α) : EStateM ε σ α :=
  match x with
  | .ok a => pure a
  | .error e => throw e

def attempt (x : EStateM ε σ α) : EStateM ε σ (Except ε α) := fun s =>
  match x s with
  | .ok a s' => .ok (.ok a) s'
  | .error e s' => .ok (.error e) s'

/-- The state a run ends in, whether it failed or not. -/
def Result.state : Result ε σ α → σ
  | .ok _ s => s
  | .error _ s => s

@[simp] lemma Result.state_ok (a : α) (s : σ) : (Result.ok a s : Result ε σ α).state = s := rfl

@[simp] lemma Result.state_error (e : ε) (s : σ) : (Result.error e s : Result ε σ α).state = s := rfl

def Result.toExcept : Result ε σ α → Except ε α
  | .ok a _ => .ok a
  | .error e _ => .error e

@[simp] lemma bind_apply (x : EStateM ε σ α) (f : α → EStateM ε σ β) (s : σ) :
    (x >>= f) s = match x s with
      | .ok a s' => f a s'
      | .error e s' => .error e s' := rfl

@[simp] lemma map_apply (f : α → β) (x : EStateM ε σ α) (s : σ) :
    (f <$> x) s = match x s with
      | .ok a s' => .ok (f a) s'
      | .error e s' => .error e s' := rfl

@[simp] lemma pure_apply (a : α) (s : σ) : (pure a : EStateM ε σ α) s = .ok a s := rfl

@[simp] lemma throw_apply (e : ε) (s : σ) : (throw e : EStateM ε σ α) s = .error e s := rfl

@[simp] lemma get_apply (s : σ) : (get : EStateM ε σ σ) s = .ok s s := rfl

@[simp] lemma set_apply (s s' : σ) : (set s' : EStateM ε σ PUnit) s = .ok ⟨⟩ s' := rfl

@[simp] lemma modify_apply (f : σ → σ) (s : σ) :
    (modify f : EStateM ε σ PUnit) s = .ok ⟨⟩ (f s) := rfl

@[simp] lemma modifyGet_apply (f : σ → α × σ) (s : σ) :
    (modifyGet f : EStateM ε σ α) s = .ok (f s).1 (f s).2 := rfl

@[simp] lemma focus_apply (get : σ → τ) (set : σ → τ → σ) (x : EStateM ε τ α) (s : σ) :
    focus get set x s = match x (get s) with
      | .ok a t => .ok a (set s t)
      | .error e t => .error e (set s t) := rfl

@[simp] lemma ofExcept_ok (a : α) (s : σ) : (ofExcept (.ok a) : EStateM ε σ α) s = .ok a s := rfl

@[simp] lemma ofExcept_error (e : ε) (s : σ) :
    (ofExcept (.error e) : EStateM ε σ α) s = .error e s := rfl

@[simp] lemma attempt_apply (x : EStateM ε σ α) (s : σ) :
    attempt x s = match x s with
      | .ok a s' => .ok (.ok a) s'
      | .error e s' => .ok (.error e) s' := rfl

/-! A loop `xs.mapM f` that never fails simulates a fold: a relation between abstract and
concrete states that every step keeps holds after the whole loop. -/

theorem mapM_simulation {R : τ → σ → Prop} (step : τ → α → τ) (f : α → EStateM ε σ β)
    (hf : ∀ t a s, R t s → ∃ b s', f a s = .ok b s' ∧ R (step t a) s') :
    ∀ (xs : List α) t s, R t s → ∃ bs s', xs.mapM f s = .ok bs s' ∧ R (xs.foldl step t) s' := by
  intro xs
  induction xs with
  | nil => intro t s h; exact ⟨[], s, rfl, h⟩
  | cons a as ih =>
    intro t s h
    obtain ⟨b, s₁, hb, h₁⟩ := hf t a s h
    obtain ⟨bs, s₂, hbs, h₂⟩ := ih (step t a) s₁ h₁
    refine ⟨b :: bs, s₂, ?_, h₂⟩
    simp [List.mapM_cons, hb, hbs]

/-! A computation that keeps an invariant `I` and moves the state along a preorder `R`, whether
it fails or not, and the rules that build such a fact from its parts. -/

section Keeps

variable (I : σ → Prop) (R : σ → σ → Prop)

def Keeps (x : EStateM ε σ α) (s : σ) : Prop := I s → I (x s).state ∧ R s (x s).state

variable {I R}

lemma keeps_of_state (hR : ∀ s, R s s) {x : EStateM ε σ α} {s : σ} (h : (x s).state = s) :
    Keeps I R x s := by
  intro hs
  rw [h]
  exact ⟨hs, hR s⟩

lemma keeps_ofExcept (hR : ∀ s, R s s) (e : Except ε α) (s : σ) :
    Keeps I R (ofExcept e) s :=
  keeps_of_state hR (by cases e <;> rfl)

lemma keeps_bind (hR : ∀ s₁ s₂ s₃, R s₁ s₂ → R s₂ s₃ → R s₁ s₃) {x : EStateM ε σ α}
    {f : α → EStateM ε σ β} {s : σ} (hx : Keeps I R x s)
    (hf : ∀ a s', I s → x s = .ok a s' → Keeps I R (f a) s') : Keeps I R (x >>= f) s := by
  intro hs
  obtain ⟨hs', hr⟩ := hx hs
  rw [bind_apply]
  cases h : x s with
  | ok a s' =>
    rw [h] at hs' hr
    obtain ⟨h₁, h₂⟩ := hf a s' hs h hs'
    exact ⟨h₁, hR _ _ _ hr h₂⟩
  | error e s' =>
    rw [h] at hs' hr
    exact ⟨hs', hr⟩

lemma state_discard (x : EStateM ε σ α) (s : σ) : (discard x s).state = (x s).state := by
  cases h : x s <;> simp [discard, Functor.mapConst, EStateM.map, h, Result.state]

lemma keeps_discard {x : EStateM ε σ α} {s : σ} (hx : Keeps I R x s) : Keeps I R (discard x) s := by
  intro hs
  rw [state_discard]
  exact hx hs

end Keeps

end EStateM

namespace Except

variable {ε α : Type}

theorem bind_eq_ok_iff {β : Type} (x : Except ε α) (f : α → Except ε β) (b : β) :
    x >>= f = .ok b ↔ ∃ a, x = .ok a ∧ f a = .ok b := by
  cases x <;> simp [bind, Except.bind]

theorem bind_eq_error_iff {β : Type} (x : Except ε α) (f : α → Except ε β) (e : ε) :
    x >>= f = .error e ↔ x = .error e ∨ ∃ a, x = .ok a ∧ f a = .error e := by
  cases x <;> simp [bind, Except.bind]

theorem mapM_eq_ok {β : Type} {f : α → Except ε β} {g : α → β} :
    ∀ {xs : List α}, (∀ x ∈ xs, f x = .ok (g x)) → xs.mapM f = .ok (xs.map g)
  | [], _ => rfl
  | x :: xs, h => by
    have hxs : xs.mapM f = .ok (xs.map g) := mapM_eq_ok fun y hy => h y (List.mem_cons_of_mem _ hy)
    simp [List.mapM_cons, h x List.mem_cons_self, hxs, bind, Except.bind, pure, Except.pure]

theorem forM_eq_ok_iff (f : α → Except ε PUnit) :
    ∀ xs : List α, xs.forM f = .ok ⟨⟩ ↔ ∀ x ∈ xs, f x = .ok ⟨⟩
  | [] => by simp [List.forM]; rfl
  | x :: xs => by
    simp only [List.forM]
    cases hx : f x with
    | error e => simp [bind, Except.bind, hx]
    | ok u =>
      simp only [bind, Except.bind, hx, List.mem_cons, forall_eq_or_imp, true_and]
      exact forM_eq_ok_iff f xs

end Except
