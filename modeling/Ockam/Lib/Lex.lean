import Mathlib

/-! Lexicographic comparison under a comparison that can fail or find two elements unordered.
`andThen r k` is the comparison `r`, or `k` when `r` finds the two sides equal; comparing two lists
chains the comparisons of their elements with it, and stops with `eq` when one list ends. A strict
order on the parts of a chained comparison is one on the whole, and so on lists. -/

namespace Ockam.Lib

lemma compare_trans_of_ne_eq {β : Type} [Ord β] [Std.TransOrd β] {o : Ordering} (ho : o ≠ .eq)
    {a b c : β} (h₁ : compare a b = o) (h₂ : compare b c = o) : compare a c = o := by
  cases o with
  | eq => exact absurd rfl ho
  | lt => exact Std.TransCmp.lt_trans h₁ h₂
  | gt => exact Std.TransCmp.gt_trans h₁ h₂

section AndThen

variable {ε : Type} {r k k' : Except ε (Option Ordering)} {o : Option Ordering}

def andThen (r k : Except ε (Option Ordering)) : Except ε (Option Ordering) :=
  match r with
  | .ok (some .eq) => k
  | r => r

@[simp] lemma andThen_eq : andThen (.ok (some .eq)) k = k := rfl

@[simp] lemma andThen_error (e : ε) : andThen (.error e) k = .error e := rfl

lemma andThen_of_ne (ho : o ≠ some .eq) : andThen (.ok o) k = .ok o := by
  rcases o with _ | _ | _ | _
  · rfl
  · rfl
  · exact absurd rfl ho
  · rfl

lemma andThen_ok (o : Option Ordering) (k : Except ε (Option Ordering)) :
    andThen (.ok o) k = if o = some .eq then k else .ok o := by
  split_ifs with ho
  · rw [ho, andThen_eq]
  · exact andThen_of_ne ho

lemma andThen_assoc : andThen (andThen r k) k' = andThen r (andThen k k') := by
  rcases r with e | o
  · rfl
  · by_cases ho : o = some .eq
    · rw [ho, andThen_eq, andThen_eq]
    · rw [andThen_of_ne ho, andThen_of_ne ho, andThen_of_ne ho]

lemma andThen_inv (h : andThen r k = .ok o) :
    (r = .ok (some .eq) ∧ k = .ok o) ∨ (r = .ok o ∧ o ≠ some .eq) := by
  rcases r with e | o'
  · cases h
  · by_cases ho : o' = some .eq
    · subst ho
      exact .inl ⟨rfl, h⟩
    · rw [andThen_of_ne ho] at h
      cases h
      exact .inr ⟨rfl, ho⟩

lemma andThen_map {ε' : Type} (f : Option Ordering → Option Ordering) (g : ε → ε')
    (hf : ∀ o, f o = some .eq ↔ o = some .eq) :
    andThen ((r.map f).mapError g) ((k.map f).mapError g) = ((andThen r k).map f).mapError g := by
  rcases r with e | o
  · rfl
  · by_cases ho : o = some .eq
    · subst ho
      have hfeq : f (some .eq) = some .eq := (hf _).mpr rfl
      simp only [Except.map, Except.mapError, hfeq, andThen_eq]
    · have hfo : f o ≠ some .eq := fun h => ho ((hf o).mp h)
      simp only [Except.map, Except.mapError]
      rw [andThen_of_ne hfo, andThen_of_ne ho]

lemma andThen_trans {o : Ordering} (ho : o ≠ .eq) {r₁ r₂ r₃ k₁ k₂ k₃ : Except ε (Option Ordering)}
    (heq : r₁ = .ok (some .eq) → r₂ = .ok (some .eq) → r₃ = .ok (some .eq))
    (hleft : r₁ = .ok (some .eq) → r₂ = .ok (some o) → r₃ = .ok (some o))
    (hright : r₁ = .ok (some o) → r₂ = .ok (some .eq) → r₃ = .ok (some o))
    (htrans : r₁ = .ok (some o) → r₂ = .ok (some o) → r₃ = .ok (some o))
    (hk : k₁ = .ok (some o) → k₂ = .ok (some o) → k₃ = .ok (some o))
    (h₁ : andThen r₁ k₁ = .ok (some o)) (h₂ : andThen r₂ k₂ = .ok (some o)) :
    andThen r₃ k₃ = .ok (some o) := by
  have hne : some o ≠ some .eq := fun h => ho (Option.some.inj h)
  rcases andThen_inv h₁ with ⟨hr₁, hk₁⟩ | ⟨hr₁, -⟩ <;>
    rcases andThen_inv h₂ with ⟨hr₂, hk₂⟩ | ⟨hr₂, -⟩
  · -- both first comparisons equal: the second ones decide
    rw [heq hr₁ hr₂, andThen_eq]
    exact hk hk₁ hk₂
  · rw [hleft hr₁ hr₂, andThen_of_ne hne]
  · rw [hright hr₁ hr₂, andThen_of_ne hne]
  · rw [htrans hr₁ hr₂, andThen_of_ne hne]

end AndThen

variable {α ε : Type} (cmp : α → α → Except ε (Option Ordering))

def lex : List α → List α → Except ε (Option Ordering)
  | x :: xs, y :: ys => andThen (cmp x y) (lex xs ys)
  | _, _ => .ok (some .eq)

variable {cmp} {xs ys : List α}

@[simp] lemma lex_nil_left : lex cmp [] ys = .ok (some .eq) := by
  cases ys <;> rfl

@[simp] lemma lex_nil_right : lex cmp xs [] = .ok (some .eq) := by
  cases xs <;> rfl

@[simp] lemma lex_cons_cons (x y : α) :
    lex cmp (x :: xs) (y :: ys) = andThen (cmp x y) (lex cmp xs ys) := rfl

variable (cmp) in
theorem lex_trans {o : Ordering} (ho : o ≠ .eq) (heq : ∀ x y, cmp x y = .ok (some .eq) → x = y) :
    ∀ {xs ys zs : List α},
      (∀ x ∈ xs, ∀ y ∈ ys, ∀ z ∈ zs,
        cmp x y = .ok (some o) → cmp y z = .ok (some o) → cmp x z = .ok (some o)) →
      lex cmp xs ys = .ok (some o) → lex cmp ys zs = .ok (some o) → lex cmp xs zs = .ok (some o)
  | [], _, _, _, h₁, _ | _ :: _, [], _, _, h₁, _ => by simp [Ne.symm ho] at h₁
  | _ :: _, _ :: _, [], _, _, h₂ => by simp [Ne.symm ho] at h₂
  | x :: xs, y :: ys, z :: zs, htrans, h₁, h₂ => by
    rw [lex_cons_cons] at h₁ h₂ ⊢
    -- an element equal to another is that element
    refine andThen_trans ho (fun hxy hyz => ?_) (fun hxy hyz => ?_) (fun hxy hyz => ?_)
      (htrans x (.head _) y (.head _) z (.head _))
      (lex_trans ho heq fun x hx y hy z hz => htrans x (.tail _ hx) y (.tail _ hy) z (.tail _ hz))
      h₁ h₂
    · rwa [heq x y hxy]
    · rwa [heq x y hxy]
    · rwa [← heq y z hyz]

end Ockam.Lib
