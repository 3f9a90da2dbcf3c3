import Ockam.Abac.Expr

/-! `impl Display for Expr` (`expr.rs`): a loop over a control stack of expressions still to show,
of closing brackets and of the spaces between elements. A list or a sequence writes its opening
bracket and pushes its elements over its closing bracket, with a `Whitespace` between two. The
writes are kept one by one: the lexer reads them back. Rust's `{:?}` of a string and of a finite
`f64` are given as `Formats`; writing to a `String` does not fail. -/

namespace Ockam.Abac.Display

structure Formats where
  /-- `{s:?}`: the string quoted, with Rust's escapes. -/
  str : String → String
  /-- `{x:?}` of a finite `f64`. -/
  float : ℚ → String

/-- The control stack. `Show` is `showExpr`, `show` being a keyword of Lean. -/
inductive Op where
  | showExpr (e : Expr)
  | listEnd
  | seqEnd
  | whitespace

/-- What `Show` of a scalar writes; a list or a sequence writes its brackets instead. -/
def scalarText (fmt : Formats) : Expr → String
  | .str s => fmt.str s
  | .int i => toString i
  | .float .nan => "nan"
  | .float .negInf => "-inf"
  | .float .posInf => "+inf"
  | .float (.fin q) => fmt.float q
  | .bool b => toString b
  | .ident v => v
  | .seq _ | .list _ => ""

/-- `for e in es.iter().rev()`: each element is pushed, and a `Whitespace` over it while `n > 1`. -/
def pushElems : List Expr → ℕ → List Op → List Op
  | [], _, ctrl => ctrl
  | e :: rev, n, ctrl =>
    pushElems rev (n - 1) (if n > 1 then .whitespace :: .showExpr e :: ctrl else .showExpr e :: ctrl)

/-- The elements of a list or a sequence on the stack, the first on top. -/
def elemOps (es : List Expr) : List Op := (es.map .showExpr).intersperse .whitespace

lemma elemOps_concat (e : Expr) : ∀ {xs : List Expr}, xs ≠ [] →
    elemOps (xs ++ [e]) = elemOps xs ++ [.whitespace, .showExpr e]
  | [x], _ => rfl
  | x :: y :: zs, _ => by
    have ih := @elemOps_concat e (y :: zs) (List.cons_ne_nil _ _)
    simp only [elemOps, List.map_cons, List.map_append, List.cons_append] at ih ⊢
    rw [List.intersperse_cons_cons, List.intersperse_cons_cons, ih]
    simp

lemma pushElems_eq : ∀ (rev : List Expr) (ctrl : List Op),
    pushElems rev rev.length ctrl = elemOps rev.reverse ++ ctrl
  | [], _ => rfl
  | e :: rev, ctrl => by
    rw [pushElems, List.length_cons, Nat.add_sub_cancel, pushElems_eq rev, List.reverse_cons]
    rcases rev with _ | ⟨x, rev⟩
    · simp [elemOps]
    · rw [if_pos (by simp), elemOps_concat e (by simp)]
      simp

namespace Op

/-- An expression counts for its size three times over, less one: the spaces between the
elements of a list are paid for by the elements. -/
def weight : Op → ℕ
  | .showExpr e => 3 * e.size - 1
  | _ => 1

attribute [local simp] weight in
lemma weight_pos : ∀ op : Op, 0 < op.weight
  | .showExpr e => by
    have := Expr.size_pos e
    simp
    omega
  | .listEnd | .seqEnd | .whitespace => Nat.one_pos

end Op

def weight (ctrl : List Op) : ℕ := (ctrl.map Op.weight).sum

@[simp] lemma weight_nil : weight [] = 0 := rfl

@[simp] lemma weight_cons (op : Op) (ctrl : List Op) : weight (op :: ctrl) = op.weight + weight ctrl := by
  simp [weight]

@[simp] lemma weight_append (ctrl ctrl' : List Op) : weight (ctrl ++ ctrl') = weight ctrl + weight ctrl' := by
  simp [weight]

lemma weight_elemOps : ∀ es : List Expr, weight (elemOps es) ≤ 3 * Expr.sizes es
  | [] => by simp [elemOps]
  | [e] => by
    simp [elemOps, Op.weight, Expr.sizes]
  | e :: f :: rest => by
    have ih := weight_elemOps (f :: rest)
    have hpos := Expr.size_pos e
    simp only [elemOps, List.map_cons] at ih ⊢
    rw [List.intersperse_cons_cons, weight_cons, weight_cons]
    simp only [Op.weight, Expr.sizes] at ih ⊢
    omega

lemma weight_pushElems_lt (es : List Expr) (close : Op) (hclose : close.weight = 1)
    (ctrl : List Op) :
    weight (pushElems es.reverse es.length (close :: ctrl)) < 3 * (Expr.sizes es + 1) - 1 + weight ctrl := by
  have h := weight_elemOps es
  rw [← List.length_reverse, pushElems_eq, List.reverse_reverse, weight_append, weight_cons, hclose]
  omega

/-- `while let Some(e) = ctrl.pop()`: the texts written, in order. -/
def writes (fmt : Formats) : List Op → List String
  | [] => []
  | .showExpr (.list es) :: ctrl =>
    "(" :: writes fmt (pushElems es.reverse es.length (.listEnd :: ctrl))
  | .showExpr (.seq es) :: ctrl =>
    "[" :: writes fmt (pushElems es.reverse es.length (.seqEnd :: ctrl))
  | .showExpr e :: ctrl => scalarText fmt e :: writes fmt ctrl
  | .listEnd :: ctrl => ")" :: writes fmt ctrl
  | .seqEnd :: ctrl => "]" :: writes fmt ctrl
  | .whitespace :: ctrl => " " :: writes fmt ctrl
termination_by ctrl => weight ctrl
decreasing_by
  all_goals simp only [weight_cons, List.unattach_reverse, List.unattach_attach]
  · simp only [Op.weight, Expr.size]
    exact weight_pushElems_lt es .listEnd rfl ctrl
  · simp only [Op.weight, Expr.size]
    exact weight_pushElems_lt es .seqEnd rfl ctrl
  all_goals exact Nat.lt_add_of_pos_left (Op.weight_pos _)

def display (fmt : Formats) (e : Expr) : String := String.join (writes fmt [.showExpr e])

section Writes

variable (fmt : Formats)

attribute [local simp] writes

lemma pushElems_append (es : List Expr) (ctrl ctrl' : List Op) :
    pushElems es.reverse es.length (ctrl ++ ctrl') = pushElems es.reverse es.length ctrl ++ ctrl' := by
  rw [← List.length_reverse, pushElems_eq, pushElems_eq, List.append_assoc]

lemma writes_append (ctrl ctrl' : List Op) :
    writes fmt (ctrl ++ ctrl') = writes fmt ctrl ++ writes fmt ctrl' := by
  fun_induction writes fmt ctrl with
  | case1 => simp
  | case2 es ctrl ih =>
    simp only [List.unattach_reverse, List.unattach_attach] at ih
    rw [List.cons_append, writes, ← List.cons_append (a := Op.listEnd), pushElems_append, ih,
      List.cons_append]
  | case3 es ctrl ih =>
    simp only [List.unattach_reverse, List.unattach_attach] at ih
    rw [List.cons_append, writes, ← List.cons_append (a := Op.seqEnd), pushElems_append, ih,
      List.cons_append]
  | case4 e ctrl hl hs ih =>
    rw [List.cons_append, writes, ih, List.cons_append]
    exacts [hl, hs]
  | case5 ctrl ih => rw [List.cons_append, writes, ih, List.cons_append]
  | case6 ctrl ih => rw [List.cons_append, writes, ih, List.cons_append]
  | case7 ctrl ih => rw [List.cons_append, writes, ih, List.cons_append]

lemma writes_whitespace (ctrl : List Op) : writes fmt (.whitespace :: ctrl) = " " :: writes fmt ctrl := by
  rw [writes]

lemma writes_showExpr (e : Expr) (ctrl : List Op) :
    writes fmt (.showExpr e :: ctrl) = writes fmt [.showExpr e] ++ writes fmt ctrl := by
  rw [← writes_append, List.singleton_append]

lemma writes_list (es : List Expr) :
    writes fmt [.showExpr (.list es)] = "(" :: writes fmt (elemOps es) ++ [")"] := by
  rw [writes, ← List.length_reverse, pushElems_eq, List.reverse_reverse, writes_append]
  simp

lemma writes_seq (es : List Expr) :
    writes fmt [.showExpr (.seq es)] = "[" :: writes fmt (elemOps es) ++ ["]"] := by
  rw [writes, ← List.length_reverse, pushElems_eq, List.reverse_reverse, writes_append]
  simp

lemma writes_scalar {e : Expr} (hl : ∀ es, e ≠ .list es) (hs : ∀ es, e ≠ .seq es) :
    writes fmt [.showExpr e] = [scalarText fmt e] := by
  rw [writes]
  · simp
  exacts [hl, hs]

lemma writes_elemOps_singleton (e : Expr) : writes fmt (elemOps [e]) = writes fmt [.showExpr e] := rfl

lemma writes_elemOps_cons_cons (e f : Expr) (rest : List Expr) :
    writes fmt (elemOps (e :: f :: rest)) =
      writes fmt [.showExpr e] ++ " " :: writes fmt (elemOps (f :: rest)) := by
  rw [elemOps, List.map_cons, List.map_cons, List.intersperse_cons_cons, writes_showExpr,
    writes_whitespace, ← List.map_cons, elemOps]

end Writes

end Ockam.Abac.Display
