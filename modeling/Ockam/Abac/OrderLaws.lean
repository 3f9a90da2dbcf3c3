import Ockam.Abac.Order

/-! The laws `compare` and `equals` keep, for every pair of expressions, NaN included. Both loops
take the same steps (`compareLoop_cons`, `equalsLoop_cons`), so they stop at the same pair, with
`Equal` exactly where `equals` finds `true` and with the same type mismatch. The swapped stack
gives the swapped results. `Equal` is equality. A comparison is the heads' comparison, then the
lexicographic comparison of the elements, which makes `Less` and `Greater` transitive. -/

namespace Ockam.Abac

open Ockam.Lib

namespace Expr

variable {a b c : Expr}

/-- The results of the two loops on one stack agree: `Equal` where `equals` finds `true`, and the
same error. -/
def Agree : Except EvalError (Option Ordering) → Except EvalError Bool → Prop
  | .ok o, .ok t => (o = some .eq ↔ t = true)
  | .error e, .error e' => e = e'
  | _, _ => False

namespace Agree

variable {r : Except EvalError (Option Ordering)} {t : Except EvalError Bool}

lemma eq_iff (h : Agree r t) : r = .ok (some .eq) ↔ t = .ok true := by
  rcases r with e | o <;> rcases t with e' | b
  · simp
  · cases h
  · cases h
  · simp only [Except.ok.injEq]
    exact h

lemma error_iff (h : Agree r t) (e : EvalError) : r = .error e ↔ t = .error e := by
  rcases r with e₁ | o <;> rcases t with e₂ | b
  · have he : e₁ = e₂ := h
    simp [he]
  · cases h
  · cases h
  · simp

end Agree

theorem agree_loops (ctrl : List (Expr × Expr)) :
    ∀ r, (ctrl = [] → r = some .eq) → Agree (compareLoop r ctrl) (equalsLoop ctrl) := by
  induction ctrl using pairs_induction with
  | nil =>
    intro r hr
    rw [hr rfl]
    simp [compareLoop, equalsLoop, Agree]
  | cons a b ctrl ih =>
    intro r _
    rw [compareLoop_cons, equalsLoop_cons]
    cases headCmp a b with
    | error e => exact rfl
    | ok o =>
      by_cases ho : o = some .eq
      · subst ho
        simpa [Except.bind] using ih (some .eq) fun _ => rfl
      · simp [andThen_of_ne ho, ho, Agree, Except.bind]

theorem compareLoop_swap (ctrl : List (Expr × Expr)) : ∀ r,
    compareLoop (r.map Ordering.swap) (ctrl.map Prod.swap) =
      ((compareLoop r ctrl).map (Option.map Ordering.swap)).mapError EvalError.swap := by
  induction ctrl using pairs_induction with
  | nil =>
    intro r
    simp [compareLoop, Except.map, Except.mapError]
  | cons a b ctrl ih =>
    intro r
    have hrest := ih (some .eq)
    rw [List.map_append, List.zip_swap] at hrest
    rw [List.map_cons, Prod.swap_prod_mk, compareLoop_cons, compareLoop_cons, headCmp_swap]
    rw [← andThen_map _ _ (by simp), ← hrest]
    rfl

theorem equalsLoop_swap (ctrl : List (Expr × Expr)) :
    equalsLoop (ctrl.map Prod.swap) = (equalsLoop ctrl).mapError EvalError.swap := by
  induction ctrl using pairs_induction with
  | nil => simp [equalsLoop, Except.mapError]
  | cons a b ctrl ih =>
    rw [List.map_append, List.zip_swap] at ih
    rw [List.map_cons, Prod.swap_prod_mk, equalsLoop_cons, equalsLoop_cons, headCmp_swap]
    cases headCmp a b with
    | error e => rfl
    | ok o =>
      by_cases ho : o = some .eq
      · subst ho
        simpa [Except.map, Except.mapError, Except.bind] using ih
      · simp [Except.map, Except.mapError, Except.bind, ho]

theorem eq_of_compareLoop (ctrl : List (Expr × Expr)) :
    ∀ r, compareLoop r ctrl = .ok (some .eq) → ∀ p ∈ ctrl, p.1 = p.2 := by
  induction ctrl using pairs_induction with
  | nil =>
    intro r _ p hp
    cases hp
  | cons a b ctrl ih =>
    intro r h p hp
    rw [compareLoop_cons] at h
    rcases andThen_inv h with ⟨hab, hrest⟩ | ⟨-, hne⟩
    · have hpairs := ih (some .eq) hrest
      rcases List.mem_cons.mp hp with rfl | hp
      · exact eq_of_head_eq (Head.eq_of_cmp (headCmp_eq_ok.mp hab))
          fun q hq => hpairs q (List.mem_append_left _ hq)
      · exact hpairs p (List.mem_append_right _ hp)
    · exact absurd rfl hne

lemma eq_of_compare (h : a.compare b = .ok (some .eq)) : a = b :=
  eq_of_compareLoop [(a, b)] none h (a, b) (.head _)

lemma compareLoop_append (ctrl ctrl' : List (Expr × Expr)) :
    compareLoop (some .eq) (ctrl ++ ctrl') =
      andThen (compareLoop (some .eq) ctrl) (compareLoop (some .eq) ctrl') := by
  induction ctrl using pairs_induction with
  | nil => simp [compareLoop]
  | cons a b ctrl ih =>
    rw [List.cons_append, compareLoop_cons, compareLoop_cons, ← List.append_assoc, ih,
      andThen_assoc]

lemma compare_eq_andThen (a b : Expr) :
    a.compare b = andThen (headCmp a b) (compareLoop (some .eq) (a.children.zip b.children)) := by
  rw [compare, compareLoop_cons, List.append_nil]

lemma compareLoop_zip : ∀ xs ys : List Expr,
    compareLoop (some .eq) (xs.zip ys) = lex Expr.compare xs ys
  | [], _ | _ :: _, [] => by simp [compareLoop]
  | x :: xs, y :: ys => by
    rw [List.zip_cons_cons, lex_cons_cons, compareLoop_cons, compareLoop_append, ← andThen_assoc,
      ← compare_eq_andThen, compareLoop_zip xs ys]

theorem compare_eq_lex (a b : Expr) :
    a.compare b = andThen (headCmp a b) (lex Expr.compare a.children b.children) := by
  rw [compare_eq_andThen, compareLoop_zip]

lemma agree_compare_equals (a b : Expr) : Agree (a.compare b) (a.equals b) :=
  agree_loops [(a, b)] none (by simp)

lemma compare_swap (a b : Expr) :
    b.compare a = ((a.compare b).map (Option.map Ordering.swap)).mapError EvalError.swap :=
  compareLoop_swap [(a, b)] none

lemma equals_swap (a b : Expr) : b.equals a = (a.equals b).mapError EvalError.swap :=
  equalsLoop_swap [(a, b)]

lemma compare_lt_iff_gt : a.compare b = .ok (some .lt) ↔ b.compare a = .ok (some .gt) := by
  rw [compare_swap a b]
  -- the swapped result is `Greater` exactly where the result is `Less`
  rcases a.compare b with e | _ | o
  · simp [Except.map, Except.mapError]
  · simp [Except.map, Except.mapError]
  · cases o <;> simp [Except.map, Except.mapError]

lemma equals_comm (t : Bool) : a.equals b = .ok t ↔ b.equals a = .ok t := by
  rw [equals_swap a b]
  cases a.equals b <;> simp [Except.mapError]

lemma eq_of_equals (h : a.equals b = .ok true) : a = b :=
  eq_of_compare ((agree_compare_equals a b).eq_iff.mpr h)

lemma compare_seq (xs ys : List Expr) :
    (seq xs).compare (seq ys) = if xs.length = ys.length then lex Expr.compare xs ys
      else .ok (some (Ord.compare xs.length ys.length)) := by
  rw [compare_eq_lex]
  simp [headCmp, head, children, Head.cmp, andThen_ok]

lemma compare_list (xs ys : List Expr) :
    (list xs).compare (list ys) = if xs.length = ys.length then lex Expr.compare xs ys
      else .ok (some (Ord.compare xs.length ys.length)) := by
  rw [compare_eq_lex]
  simp [headCmp, head, children, Head.cmp, andThen_ok]

section Trans

variable {o : Ordering}

lemma headCmp_left (hab : headCmp a b = .ok (some .eq)) {o' : Option Ordering}
    (h : headCmp b c = .ok o') : headCmp a c = .ok o' := by
  rw [headCmp_eq_ok, Head.eq_of_cmp (headCmp_eq_ok.mp hab)]
  exact headCmp_eq_ok.mp h

lemma headCmp_right (hbc : headCmp b c = .ok (some .eq)) {o' : Option Ordering}
    (h : headCmp a b = .ok o') : headCmp a c = .ok o' := by
  rw [headCmp_eq_ok, ← Head.eq_of_cmp (headCmp_eq_ok.mp hbc)]
  exact headCmp_eq_ok.mp h

lemma headCmp_trans (ho : o ≠ .eq) (hab : headCmp a b = .ok (some o))
    (hbc : headCmp b c = .ok (some o)) : headCmp a c = .ok (some o) :=
  headCmp_eq_ok.mpr (Head.cmp_trans ho (headCmp_eq_ok.mp hab) (headCmp_eq_ok.mp hbc))

theorem compare_trans (ho : o ≠ .eq) (a b c : Expr) (h₁ : a.compare b = .ok (some o))
    (h₂ : b.compare c = .ok (some o)) : a.compare c = .ok (some o) := by
  rw [compare_eq_lex] at h₁ h₂ ⊢
  exact andThen_trans ho (fun hab hbc => headCmp_left hab hbc) (fun hab hbc => headCmp_left hab hbc)
    (fun hab hbc => headCmp_right hbc hab) (headCmp_trans ho)
    (lex_trans _ ho (fun x y => eq_of_compare)
      fun x hx y _ z _ => compare_trans ho x y z)
    h₁ h₂
termination_by a.size
decreasing_by exact size_lt_of_mem_children hx

end Trans

/-- `compare` is a strict order consistent with `equals`, on every expression: NaN only keeps an
expression from being `Equal` to itself. Sequences and lists compare by length, then
lexicographically. -/
theorem compare_consistent_with_equals (a b c : Expr) :
    (a.compare b = .ok (some .lt) ↔ b.compare a = .ok (some .gt)) ∧
      (a.compare b = .ok (some .eq) ↔ a.equals b = .ok true) ∧
      (∀ t, a.equals b = .ok t ↔ b.equals a = .ok t) ∧
      (a.equals b = .ok true → b.equals c = .ok true → a.equals c = .ok true) ∧
      (a.compare b = .ok (some .lt) → b.compare c = .ok (some .lt) →
        a.compare c = .ok (some .lt)) ∧
      (a.compare b = .ok (some .gt) → b.compare c = .ok (some .gt) →
        a.compare c = .ok (some .gt)) ∧
      (∀ x y, a.compare b = .error (.typeMismatch x y) ↔ a.equals b = .error (.typeMismatch x y)) ∧
      ∀ xs ys : List Expr,
        (seq xs).compare (seq ys) = (if xs.length = ys.length then lex Expr.compare xs ys
          else .ok (some (Ord.compare xs.length ys.length))) ∧
        (list xs).compare (list ys) = (if xs.length = ys.length then lex Expr.compare xs ys
          else .ok (some (Ord.compare xs.length ys.length))) := by
  have hagree := agree_compare_equals a b
  refine ⟨compare_lt_iff_gt, hagree.eq_iff, fun t => equals_comm t, ?_,
    compare_trans (by decide) a b c, compare_trans (by decide) a b c,
    fun x y => hagree.error_iff _, fun xs ys => ⟨compare_seq xs ys, compare_list xs ys⟩⟩
  -- `equals` finds `true` between equal expressions only
  intro hab hbc
  rwa [eq_of_equals hab]

end Expr

end Ockam.Abac
