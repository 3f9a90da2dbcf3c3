import Mathlib

/-! ABAC expressions (`expr.rs`) and the two comparisons they carry, `Expr::equals` and
`Expr::compare`, each a loop over a work stack of pairs still to compare. An `f64` is seen as
`==` and `partial_cmp` see it: NaN, an infinity, or a finite value. -/

namespace Ockam.Abac

inductive F64 where
  | nan
  | negInf
  | fin (q : ℚ)
  | posInf
  deriving DecidableEq, Repr

namespace F64

/-- `f64::partial_cmp`: `None` when either side is NaN. -/
def partialCmp : F64 → F64 → Option Ordering
  | nan, _ => none
  | _, nan => none
  | negInf, negInf => some .eq
  | negInf, _ => some .lt
  | _, negInf => some .gt
  | posInf, posInf => some .eq
  | posInf, _ => some .gt
  | _, posInf => some .lt
  | fin a, fin b => some (compare a b)

/-- `f64::ne`: true for NaN against anything. -/
def ne (a b : F64) : Bool := a.partialCmp b != some .eq

end F64

inductive Expr where
  | str (s : String)
  | int (i : ℤ)
  | float (x : F64)
  | bool (b : Bool)
  | ident (s : String)
  | seq (xs : List Expr)
  | list (xs : List Expr)
  deriving Repr

inductive EvalError where
  | unbound (id : String)
  | unknown (id : String)
  | invalidType (e : Expr) (msg : String)
  | typeMismatch (a b : Expr)
  | malformed (msg : String)
  deriving Repr

namespace Expr

mutual
def size : Expr → ℕ
  | seq xs => sizes xs + 1
  | list xs => sizes xs + 1
  | _ => 1
def sizes : List Expr → ℕ
  | [] => 0
  | x :: xs => x.size + sizes xs
end

/-- The size of a work stack of pairs. -/
def pairsSize (ctrl : List (Expr × Expr)) : ℕ := (ctrl.map fun p => p.1.size + p.2.size).sum

lemma pairsSize_zip : ∀ (as bs : List Expr), pairsSize (as.zip bs) ≤ sizes as + sizes bs
  | [], _ => by simp [pairsSize]
  | _ :: _, [] => by simp [pairsSize]
  | a :: as, b :: bs => by
    have := pairsSize_zip as bs
    simp only [pairsSize, List.zip_cons_cons, List.map_cons, List.sum_cons, sizes] at this ⊢
    omega

lemma pairsSize_cons (p : Expr × Expr) (ctrl : List (Expr × Expr)) :
    pairsSize (p :: ctrl) = p.1.size + p.2.size + pairsSize ctrl := by
  simp [pairsSize]

lemma pairsSize_zip_append (as bs : List Expr) (ctrl : List (Expr × Expr)) :
    pairsSize (as.zip bs ++ ctrl) < (seq as).size + (seq bs).size + pairsSize ctrl := by
  have h := pairsSize_zip as bs
  have happ : pairsSize (as.zip bs ++ ctrl) = pairsSize (as.zip bs) + pairsSize ctrl := by
    simp [pairsSize]
  simp only [happ, size]
  omega

lemma size_pos (e : Expr) : 0 < e.size := by
  cases e <;> simp [size]

lemma pairsSize_lt_cons (p : Expr × Expr) (ctrl : List (Expr × Expr)) :
    pairsSize ctrl < pairsSize (p :: ctrl) := by
  have := size_pos p.1
  rw [pairsSize_cons]
  omega

lemma pairsSize_lt_seq (as bs : List Expr) (ctrl : List (Expr × Expr)) :
    pairsSize (as.zip bs ++ ctrl) < pairsSize ((seq as, seq bs) :: ctrl) := by
  rw [pairsSize_cons]
  exact pairsSize_zip_append as bs ctrl

/-- `Expr::equals`: the next pair on top; the first pair that differs gives `false`, the first
pair of two kinds gives a type mismatch. A sequence pushes its pairs in order. -/
def equalsLoop : List (Expr × Expr) → Except EvalError Bool
  | [] => .ok true
  | (str a, str b) :: ctrl => if a ≠ b then .ok false else equalsLoop ctrl
  | (bool a, bool b) :: ctrl => if a ≠ b then .ok false else equalsLoop ctrl
  | (ident a, ident b) :: ctrl => if a ≠ b then .ok false else equalsLoop ctrl
  | (int a, int b) :: ctrl => if a ≠ b then .ok false else equalsLoop ctrl
  | (float a, float b) :: ctrl => if a.ne b then .ok false else equalsLoop ctrl
  | (seq a, seq b) :: ctrl =>
    if a.length ≠ b.length then .ok false else equalsLoop (a.zip b ++ ctrl)
  | (list a, list b) :: ctrl =>
    if a.length ≠ b.length then .ok false else equalsLoop (a.zip b ++ ctrl)
  | (a, b) :: _ => .error (.typeMismatch a b)
termination_by ctrl => pairsSize ctrl
decreasing_by
  all_goals first
    | exact pairsSize_lt_cons _ _
    | exact pairsSize_lt_seq _ _ _

def equals (a b : Expr) : Except EvalError Bool := equalsLoop [(a, b)]

/-- `Expr::compare`: `result` holds the last comparison made; the loop stops at the first one
that is not `Equal`. -/
def compareLoop : Option Ordering → List (Expr × Expr) → Except EvalError (Option Ordering)
  | result, [] => .ok result
  | _, (str a, str b) :: ctrl =>
    if some (compare a b) ≠ some .eq then .ok (some (compare a b)) else compareLoop (some (compare a b)) ctrl
  | _, (bool a, bool b) :: ctrl =>
    if some (compare a b) ≠ some .eq then .ok (some (compare a b)) else compareLoop (some (compare a b)) ctrl
  | _, (ident a, ident b) :: ctrl =>
    if some (compare a b) ≠ some .eq then .ok (some (compare a b)) else compareLoop (some (compare a b)) ctrl
  | _, (int a, int b) :: ctrl =>
    if some (compare a b) ≠ some .eq then .ok (some (compare a b)) else compareLoop (some (compare a b)) ctrl
  | _, (float a, float b) :: ctrl =>
    if a.partialCmp b ≠ some .eq then .ok (a.partialCmp b) else compareLoop (a.partialCmp b) ctrl
  | _, (seq a, seq b) :: ctrl =>
    if some (compare a.length b.length) = some .eq then compareLoop (some .eq) (a.zip b ++ ctrl)
    else .ok (some (compare a.length b.length))
  | _, (list a, list b) :: ctrl =>
    if some (compare a.length b.length) = some .eq then compareLoop (some .eq) (a.zip b ++ ctrl)
    else .ok (some (compare a.length b.length))
  | _, (a, b) :: _ => .error (.typeMismatch a b)
termination_by _ ctrl => pairsSize ctrl
decreasing_by
  all_goals first
    | exact pairsSize_lt_cons _ _
    | exact pairsSize_lt_seq _ _ _

def compare (a b : Expr) : Except EvalError (Option Ordering) := compareLoop none [(a, b)]

end Expr

end Ockam.Abac
