import Mathlib.Algebra.Order.Ring.Rat

/-! Erlang terms and the standard order of terms that `==`, `!=`, `<` and `>` follow:
`number < atom < reference < fun < port < pid < tuple < map < nil < list < bitstring`. Numbers
compare by value, atoms and binaries by their bytes, tuples by size then elements, lists element by
element. References, funs, ports, pids, maps and improper lists are not modelled. -/

namespace Erlang

inductive Term where
  | int (n : ℤ)
  | float (x : ℚ)
  | atom (name : List Char)
  | tuple (elems : List Term)
  | list (elems : List Term)
  | binary (text : List Char)

/-- Lexicographic comparison, a proper prefix first. -/
def compareLex {α : Type} (cmp : α → α → Ordering) : List α → List α → Ordering
  | [], [] => .eq
  | [], _ :: _ => .lt
  | _ :: _, [] => .gt
  | x :: xs, y :: ys =>
    match cmp x y with
    | .eq => compareLex cmp xs ys
    | result => result

/-- Text compares character by character. -/
def compareText (a b : List Char) : Ordering :=
  compareLex (fun x y : Char => Ord.compare x.toNat y.toNat) a b

namespace Term

/-- The rank of a term's kind in the order of terms. -/
def rank : Term → ℕ
  | int _ | float _ => 0
  | atom _ => 1
  | tuple _ => 6
  | list _ => 8
  | binary _ => 10

mutual
/-- The standard order of terms. -/
def compare : Term → Term → Ordering
  | int a, int b => Ord.compare a b
  | int a, float y => Ord.compare (a : ℚ) y
  | float x, int b => Ord.compare x (b : ℚ)
  | float x, float y => Ord.compare x y
  | atom a, atom b => compareText a b
  | tuple xs, tuple ys =>
    match Ord.compare xs.length ys.length with
    | .eq => compareList xs ys
    | result => result
  | list xs, list ys => compareList xs ys
  | binary a, binary b => compareText a b
  | s, t => Ord.compare s.rank t.rank

def compareList : List Term → List Term → Ordering
  | [], [] => .eq
  | [], _ :: _ => .lt
  | _ :: _, [] => .gt
  | x :: xs, y :: ys =>
    match compare x y with
    | .eq => compareList xs ys
    | result => result
end

mutual
/-- Exact equality `=:=`: an integer is never exactly equal to a float. -/
def exactEq : Term → Term → Bool
  | int a, int b => decide (a = b)
  | float x, float y => decide (x = y)
  | atom a, atom b => decide (a = b)
  | tuple xs, tuple ys => exactEqList xs ys
  | list xs, list ys => exactEqList xs ys
  | binary a, binary b => decide (a = b)
  | _, _ => false

def exactEqList : List Term → List Term → Bool
  | [], [] => true
  | x :: xs, y :: ys => exactEq x y && exactEqList xs ys
  | _, _ => false
end

mutual
theorem exactEq_iff : ∀ {s t : Term}, exactEq s t = true ↔ s = t
  | int a, int b | float a, float b | atom a, atom b | binary a, binary b => by simp [exactEq]
  | tuple xs, tuple ys | list xs, list ys => by simp [exactEq, exactEqList_iff]
  | int _, float _ | int _, atom _ | int _, tuple _ | int _, list _ | int _, binary _
  | float _, int _ | float _, atom _ | float _, tuple _ | float _, list _ | float _, binary _
  | atom _, int _ | atom _, float _ | atom _, tuple _ | atom _, list _ | atom _, binary _
  | tuple _, int _ | tuple _, float _ | tuple _, atom _ | tuple _, list _ | tuple _, binary _
  | list _, int _ | list _, float _ | list _, atom _ | list _, tuple _ | list _, binary _
  | binary _, int _ | binary _, float _ | binary _, atom _ | binary _, tuple _
  | binary _, list _ => by simp [exactEq]

theorem exactEqList_iff : ∀ {xs ys : List Term}, exactEqList xs ys = true ↔ xs = ys
  | [], [] => by simp [exactEqList]
  | x :: xs, y :: ys => by simp [exactEqList, exactEq_iff, exactEqList_iff]
  | [], _ :: _ | _ :: _, [] => by simp [exactEqList]
end

instance : DecidableEq Term := fun _ _ => decidable_of_iff _ exactEq_iff

lemma compare_of_rank_gt {s t : Term} (h : t.rank < s.rank) : compare s t = .gt := by
  cases s <;> cases t <;> simp_all [rank, compare, Nat.compare_eq_gt]

/-- Elixir's `==`: equal in the order of terms, so `1 == 1.0`. -/
def eq (s t : Term) : Bool := compare s t == .eq

def lt (s t : Term) : Bool := compare s t == .lt

def gt (s t : Term) : Bool := compare s t == .gt

end Term

end Erlang
