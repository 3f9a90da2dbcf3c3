import Ockam.Abac.Expr
import Ockam.Lib.Lex

/-! The order `Expr::compare` and `Expr::equals` define. Each step of the two loops compares the
`Head` of each side and, on `Equal`, pushes the pairs of elements. The loops agree with each other,
`Equal` is equality, and `compare` is the length first and then the elements (`Ockam.Lib.lex`). -/

namespace Ockam.Abac

open Ockam.Lib

namespace F64

variable {a b c : F64}

attribute [local simp] partialCmp in
lemma partialCmp_swap (a b : F64) : b.partialCmp a = (a.partialCmp b).map Ordering.swap := by
  cases a <;> cases b <;> simp
  case fin.fin p q => exact Std.OrientedOrd.eq_swap

lemma eq_of_partialCmp (h : a.partialCmp b = some .eq) : a = b := by
  cases a <;> cases b <;> simp_all [partialCmp]

lemma partialCmp_trans {o : Ordering} (ho : o ≠ .eq) (h₁ : a.partialCmp b = some o)
    (h₂ : b.partialCmp c = some o) : a.partialCmp c = some o := by
  cases a <;> cases b <;> cases c <;>
    simp only [partialCmp, Option.some.injEq, reduceCtorEq] at h₁ h₂ ⊢
  -- three finite values: the order of `ℚ`
  case fin.fin.fin => exact compare_trans_of_ne_eq ho h₁ h₂
  -- an infinity on one side: the comparisons are constants
  all_goals cases o <;> simp_all

end F64

/-- What a step of the loops compares of an expression before its elements. -/
inductive Head where
  | str (s : String)
  | int (i : ℤ)
  | float (x : F64)
  | bool (b : Bool)
  | ident (s : String)
  | seq (n : ℕ)
  | list (n : ℕ)

namespace Head

/-- `none` when the kinds differ, the type mismatch of both loops. -/
def cmp : Head → Head → Option (Option Ordering)
  | str a, str b => some (some (compare a b))
  | int a, int b => some (some (compare a b))
  | float a, float b => some (a.partialCmp b)
  | bool a, bool b => some (some (compare a b))
  | ident a, ident b => some (some (compare a b))
  | seq m, seq n => some (some (compare m n))
  | list m, list n => some (some (compare m n))
  | _, _ => none

variable {x y z : Head}

attribute [local simp] cmp in
lemma cmp_swap (x y : Head) : y.cmp x = (x.cmp y).map (Option.map Ordering.swap) := by
  cases x <;> cases y <;> simp
  case float.float a b => exact F64.partialCmp_swap a b
  all_goals exact Std.OrientedOrd.eq_swap

lemma eq_of_cmp (h : x.cmp y = some (some .eq)) : x = y := by
  cases x <;> cases y <;> simp only [cmp, reduceCtorEq, Option.some.injEq] at h
  case float.float a b => rw [F64.eq_of_partialCmp h]
  all_goals rw [compare_eq_iff_eq.mp h]

lemma cmp_trans {o : Ordering} (ho : o ≠ .eq) (h₁ : x.cmp y = some (some o))
    (h₂ : y.cmp z = some (some o)) : x.cmp z = some (some o) := by
  cases x <;> cases y <;> simp only [cmp, reduceCtorEq, Option.some.injEq] at h₁ <;>
    cases z <;> simp only [cmp, reduceCtorEq, Option.some.injEq] at h₂ ⊢
  case float.float.float => exact F64.partialCmp_trans ho h₁ h₂
  all_goals exact compare_trans_of_ne_eq ho h₁ h₂

end Head

namespace EvalError

/-- The error of the run on the swapped stack: a type mismatch names its sides the other way. -/
def swap : EvalError → EvalError
  | typeMismatch a b => typeMismatch b a
  | e => e

end EvalError

namespace Expr

def head : Expr → Head
  | str s => .str s
  | int i => .int i
  | float x => .float x
  | bool b => .bool b
  | ident s => .ident s
  | seq xs => .seq xs.length
  | list xs => .list xs.length

def children : Expr → List Expr
  | seq xs | list xs => xs
  | _ => []

variable {a b c : Expr}

lemma eq_of_mem_zip : ∀ {xs ys : List Expr}, xs.length = ys.length →
    (∀ p ∈ xs.zip ys, p.1 = p.2) → xs = ys
  | [], [], _, _ => rfl
  | x :: xs, y :: ys, hlen, h => by
    rw [List.zip_cons_cons] at h
    have hxy : x = y := h (x, y) (.head _)
    rw [hxy, eq_of_mem_zip (by simpa using hlen) fun p hp => h p (.tail _ hp)]

lemma eq_of_head_eq (h : a.head = b.head) (hc : ∀ p ∈ a.children.zip b.children, p.1 = p.2) :
    a = b := by
  cases a <;> cases b <;> simp only [head, Head.str.injEq, Head.int.injEq,
    Head.float.injEq, Head.bool.injEq, Head.ident.injEq, Head.seq.injEq, Head.list.injEq,
    reduceCtorEq] at h ⊢
  case seq.seq xs ys | list.list xs ys => rw [eq_of_mem_zip h hc]
  all_goals rw [h]

attribute [local simp] children in
lemma sizes_children_lt (a : Expr) : sizes a.children < a.size := by
  cases a <;> simp [size, sizes]

lemma pairsSize_append (ctrl ctrl' : List (Expr × Expr)) :
    pairsSize (ctrl ++ ctrl') = pairsSize ctrl + pairsSize ctrl' := by
  simp [pairsSize]

lemma pairsSize_children_lt (a b : Expr) (ctrl : List (Expr × Expr)) :
    pairsSize (a.children.zip b.children ++ ctrl) < pairsSize ((a, b) :: ctrl) := by
  have hzip := pairsSize_zip a.children b.children
  have ha := sizes_children_lt a
  have hb := sizes_children_lt b
  rw [pairsSize_append, pairsSize_cons]
  dsimp only
  omega

lemma size_le_sizes {x : Expr} : ∀ {xs : List Expr}, x ∈ xs → x.size ≤ sizes xs
  | y :: ys, hx => by
    simp only [sizes]
    rcases List.mem_cons.mp hx with rfl | hx
    · omega
    · have := size_le_sizes hx
      omega

lemma size_lt_of_mem_children {x : Expr} (hx : x ∈ a.children) : x.size < a.size := by
  have hle := size_le_sizes hx
  have := sizes_children_lt a
  omega

theorem pairs_induction {motive : List (Expr × Expr) → Prop} (nil : motive [])
    (cons : ∀ a b ctrl, motive (a.children.zip b.children ++ ctrl) → motive ((a, b) :: ctrl)) :
    ∀ ctrl, motive ctrl
  | [] => nil
  | (a, b) :: ctrl => cons a b ctrl (pairs_induction nil cons (a.children.zip b.children ++ ctrl))
termination_by ctrl => pairsSize ctrl
decreasing_by exact pairsSize_children_lt a b ctrl

/-- The comparison of the heads, with the error both loops report for two kinds. -/
def headCmp (a b : Expr) : Except EvalError (Option Ordering) :=
  match a.head.cmp b.head with
  | none => .error (.typeMismatch a b)
  | some o => .ok o

lemma headCmp_eq_ok {o : Option Ordering} : headCmp a b = .ok o ↔ a.head.cmp b.head = some o := by
  unfold headCmp
  cases a.head.cmp b.head <;> simp

lemma headCmp_swap (a b : Expr) :
    headCmp b a = ((headCmp a b).map (Option.map Ordering.swap)).mapError EvalError.swap := by
  unfold headCmp
  rw [Head.cmp_swap]
  cases a.head.cmp b.head <;> rfl

attribute [local simp] compareLoop head in
lemma compareLoop_cons (r : Option Ordering) (a b : Expr) (ctrl : List (Expr × Expr)) :
    compareLoop r ((a, b) :: ctrl) =
      andThen (headCmp a b) (compareLoop (some .eq) (a.children.zip b.children ++ ctrl)) := by
  cases a <;> cases b <;> simp [headCmp, children, Head.cmp, andThen_ok]
  -- on `Equal` the source goes on with the comparison it made, which is `Equal`
  case float.float x y =>
    split_ifs with h
    · rw [h]
    · rfl
  all_goals
    split_ifs with h
    · rw [compare_eq_iff_eq.mpr h]
    · rfl

attribute [local simp] equalsLoop in
lemma equalsLoop_cons (a b : Expr) (ctrl : List (Expr × Expr)) :
    equalsLoop ((a, b) :: ctrl) =
      (headCmp a b).bind fun o =>
        if o = some .eq then equalsLoop (a.children.zip b.children ++ ctrl) else .ok false := by
  cases a <;> cases b <;> simp [headCmp, head, children, Head.cmp, F64.ne, Except.bind]

end Expr

end Ockam.Abac
