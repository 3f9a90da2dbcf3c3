import Ockam.Abac.Eval

/-! The evaluator the loop of `eval` runs, by structural recursion: `evalCore env L` with `L`
the lookup of an identifier. The loop computes it: from `Eval(e)` on top of the control stack it
reaches the stack below with the value of `e` pushed, or stops with its error. -/

namespace Ockam.Abac

mutual
def evalCore (env : Env) (L : String → Except EvalError Expr) : Expr → Except EvalError Expr
  | .ident id => L id
  | .list [] => .ok unit
  | .list (.ident op :: xs) =>
    if op = "and" then evalAnd env L xs
    else if op = "or" then evalOr env L xs
    else if op = "not" then evalNot env L xs
    else if op = "if" then evalIf env L xs
    else if op = "<" then
      if xs.length < 2 then .error (.malformed "'<' requires at least two arguments")
      else evalList env L xs >>= fun vs => .bool <$> chain lessThan vs
    else if op = ">" then
      if xs.length < 2 then .error (.malformed "'>' requires at least two arguments")
      else evalList env L xs >>= fun vs => .bool <$> chain greaterThan vs
    else if op = "=" then
      if xs.length < 2 then .error (.malformed "'=' requires at least two arguments")
      else evalList env L xs >>= fun vs => .bool <$> chain Expr.equals vs
    else if op = "!=" then evalList env L xs >>= fun vs => (fun b => .bool !b) <$> chain Expr.equals vs
    else if op = "member?" then evalMember env L xs
    else if op = "exists?" then .bool <$> existsCheck env xs
    else .error (.unknown op)
  | .list (other :: _) => .error (.invalidType other "expected (op ...)")
  | .seq xs => .seq <$> evalList env L xs
  | e => .ok e
def evalNot (env : Env) (L : String → Except EvalError Expr) : List Expr → Except EvalError Expr
  | [x] => evalCore env L x >>= fun
    | .bool b => .ok (.bool !b)
    | v => .error (.invalidType v "'not' expects boolean arguments")
  | _ => .error (.malformed "'not' requires one argument")
/-- `if` evaluates the test, then only the branch it chooses. -/
def evalIf (env : Env) (L : String → Except EvalError Expr) : List Expr → Except EvalError Expr
  | [c, t, f] => evalCore env L c >>= fun
    | .bool true => evalCore env L t
    | .bool false => evalCore env L f
    | v => .error (.invalidType v "'if' expects test to evaluate to bool")
  | _ => .error (.malformed "'if' requires three arguments")
def evalMember (env : Env) (L : String → Except EvalError Expr) : List Expr → Except EvalError Expr
  | [x, s] => evalCore env L x >>= fun y => evalCore env L s >>= fun
    | .seq ys => .bool <$> memberLoop y ys
    | other => .error (.invalidType other "'member?' expects sequence as second argument")
  | _ => .error (.malformed "'member?' requires two arguments")
def evalList (env : Env) (L : String → Except EvalError Expr) : List Expr → Except EvalError (List Expr)
  | [] => .ok []
  | x :: xs => do
    let v ← evalCore env L x
    let vs ← evalList env L xs
    .ok (v :: vs)
/-- `and` stops at the first `false`; its last argument is the result, unchecked. -/
def evalAnd (env : Env) (L : String → Except EvalError Expr) : List Expr → Except EvalError Expr
  | [] => .ok (.bool true)
  | [x] => evalCore env L x
  | x :: xs => do
    match ← evalCore env L x with
    | .bool true => evalAnd env L xs
    | .bool false => .ok (.bool false)
    | v => .error (.invalidType v "'and' expects boolean arguments")
def evalOr (env : Env) (L : String → Except EvalError Expr) : List Expr → Except EvalError Expr
  | [] => .ok (.bool false)
  | [x] => evalCore env L x
  | x :: xs => do
    match ← evalCore env L x with
    | .bool false => evalOr env L xs
    | .bool true => .ok (.bool true)
    | v => .error (.invalidType v "'or' expects boolean arguments")
end

section Machine

variable (env : Env)

/-- The next turn of the loop, while the control stack is not empty. -/
def next : Config → Option (Except Fault Config)
  | ⟨[], _⟩ => none
  | ⟨op :: ctrl, args⟩ => some (step env op ctrl args)

def Step (c c' : Config) : Prop := next env c = some (.ok c')

lemma next_cons (op : Op) (ctrl : List Op) (args : List Expr) :
    next env ⟨op :: ctrl, args⟩ = some (step env op ctrl args) := rfl

/-- From `c` the loop reaches the control stack `K` with `push a` on the argument stack, or a
turn that fails with the error. -/
def Yields {α : Type} (c : Config) (K : List Op) (push : α → List Expr) :
    Except EvalError α → Prop
  | .ok a => Relation.ReflTransGen (Step env) c ⟨K, push a⟩
  | .error e => ∃ c', Relation.ReflTransGen (Step env) c c' ∧ next env c' = some (.error (.error e))

variable {env}
variable {α β : Type} {c c' : Config} {K K' : List Op} {push : α → List Expr}
  {push' : β → List Expr}

lemma yields_bind {r : Except EvalError α} {f : α → Except EvalError β}
    (h : Yields env c K push r) (hf : ∀ a, r = .ok a → Yields env ⟨K, push a⟩ K' push' (f a)) :
    Yields env c K' push' (r >>= f) := by
  cases r with
  | error e => exact h
  | ok a =>
    have h2 := hf a rfl
    simp only [bind, Except.bind]
    cases hfa : f a with
    | error e =>
      rw [hfa] at h2
      obtain ⟨c'', hr, hn⟩ := h2
      exact ⟨c'', h.trans hr, hn⟩
    | ok b =>
      rw [hfa] at h2
      exact h.trans h2

lemma yields_map {r : Except EvalError α} {g : α → β} (h : Yields env c K (push' ∘ g) r) :
    Yields env c K push' (g <$> r) := by
  cases r with
  | error e => exact h
  | ok a => exact h

lemma yields_head {d : Config} (h : Step env c d) {r : Except EvalError α} (h' : Yields env d K push r) :
    Yields env c K push r := by
  cases r with
  | error e =>
    obtain ⟨c'', hr, hn⟩ := h'
    exact ⟨c'', .head h hr, hn⟩
  | ok a => exact .head h h'

lemma yields_fail {e : EvalError} (h : next env c = some (.error (.error e))) :
    Yields env c K push (.error e) :=
  ⟨c, .refl, h⟩

lemma yields_done {a : α} (h : c = ⟨K, push a⟩) : Yields env c K push (.ok a) := by
  subst h
  exact .refl

lemma yields_of_next {r : Except EvalError α}
    (h : next env c = some (match r with | .ok a => .ok ⟨K, push a⟩ | .error e => .error (.error e))) :
    Yields env c K push r := by
  cases r with
  | error e => exact yields_fail h
  | ok a => exact .single h

end Machine

section Simulation

variable {env : Env} {L : String → Except EvalError Expr}

mutual
/-- Every identifier of the expression satisfies `P`; an operator's name counts. -/
def IdentsIn (P : String → Prop) : Expr → Prop
  | .ident id => P id
  | .seq xs => IdentsInList P xs
  | .list xs => IdentsInList P xs
  | _ => True
def IdentsInList (P : String → Prop) : List Expr → Prop
  | [] => True
  | x :: xs => IdentsIn P x ∧ IdentsInList P xs
end

variable (env L) in
/-- The loop computes `L id` from `Eval(Ident(id))`. -/
def LookupYields (id : String) : Prop :=
  ∀ K A, Yields env ⟨.eval (.ident id) :: K, A⟩ K (· :: A) (L id)

/-- The control stack `and` and `or` leave: the first argument, the operator with the number
of arguments after it, those arguments. -/
def opCtrl (op : ℕ → Op) : List Expr → List Op → List Op
  | [], K => K
  | x :: rest, K => .eval x :: op rest.length :: rest.map .eval ++ K

lemma evalList_length : ∀ {xs vs : List Expr}, evalList env L xs = .ok vs → vs.length = xs.length
  | [], vs, h => by simp [evalList] at h; simp [← h]
  | x :: xs, vs, h => by
    simp only [evalList, bind, Except.bind] at h
    cases hx : evalCore env L x with
    | error e => simp [hx] at h
    | ok v =>
      cases hxs : evalList env L xs with
      | error e => simp [hx, hxs] at h
      | ok ws =>
        simp only [hx, hxs, Except.ok.injEq] at h
        simp [← h, evalList_length hxs]

lemma popN_append {α : Type} : ∀ (xs K : List α), popN xs.length (xs ++ K) = .ok K
  | [], K => rfl
  | x :: xs, K => by simp [popN, pop, bind, Except.bind, popN_append xs K]

lemma popN_evals (y : Expr) (rest : List Expr) (K : List Op) :
    popN (rest.length + 1) (Op.eval y :: (rest.map Op.eval ++ K)) = .ok K := by
  simpa using popN_append ((y :: rest).map Op.eval) K

lemma evalPredicate_reverse (vs A : List Expr) (f : Expr → Expr → Except EvalError Bool) :
    evalPredicate vs.length (vs.reverse ++ A) f =
      match chain f vs with
      | .ok b => .ok (.bool b :: A)
      | .error e => .error (.error e) := by
  have hlen : ¬ (vs.reverse ++ A).length < vs.length := by simp
  simp only [evalPredicate, hlen, if_false]
  have htake : (vs.reverse ++ A).take vs.length = vs.reverse :=
    List.take_left' (List.length_reverse)
  have hdrop : (vs.reverse ++ A).drop vs.length = A := List.drop_left' (List.length_reverse)
  cases hc : chain f vs with
  | ok b => simp only [htake, hdrop, List.reverse_reverse, hc]
  | error e => simp only [htake, List.reverse_reverse, hc]

lemma step_seq (vs A : List Expr) (K : List Op) :
    step env (.seq vs.length) K (vs.reverse ++ A) = .ok ⟨K, .seq vs :: A⟩ := by
  have hlen : ¬ (vs.reverse ++ A).length < vs.length := by simp
  simp only [step, hlen, if_false]
  rw [List.take_left' List.length_reverse, List.drop_left' List.length_reverse, List.reverse_reverse]

lemma yields_trans {r : Except EvalError α} (h : Yields env c K push r)
    (hf : ∀ a, r = .ok a → Relation.ReflTransGen (Step env) ⟨K, push a⟩ ⟨K', push' a⟩) :
    Yields env c K' push' r := by
  cases r with
  | error e => exact h
  | ok a => exact h.trans (hf a rfl)

lemma yields_chain {xs : List Expr} {f : Expr → Expr → Except EvalError Bool} {op : ℕ → Op}
    (hop : ∀ K args, step env (op xs.length) K args = do .ok ⟨K, ← evalPredicate xs.length args f⟩)
    (hxs : ∀ K A, Yields env ⟨xs.map .eval ++ K, A⟩ K (fun vs => vs.reverse ++ A) (evalList env L xs))
    (K : List Op) (A : List Expr) :
    Yields env ⟨xs.map .eval ++ op xs.length :: K, A⟩ K (· :: A)
      (evalList env L xs >>= fun vs => .bool <$> chain f vs) := by
  refine yields_bind (hxs (op xs.length :: K) A) fun vs hvs => yields_of_next ?_
  have hn := evalList_length hvs
  simp only [next]
  rw [hop, ← hn, evalPredicate_reverse]
  cases chain f vs <;> rfl

lemma yields_ne {xs : List Expr}
    (hxs : ∀ K A, Yields env ⟨xs.map .eval ++ K, A⟩ K (fun vs => vs.reverse ++ A) (evalList env L xs))
    (K : List Op) (A : List Expr) :
    Yields env ⟨xs.map .eval ++ .eq xs.length :: .not :: K, A⟩ K (· :: A)
      (evalList env L xs >>= fun vs => (fun b => .bool !b) <$> chain Expr.equals vs) := by
  refine yields_bind (hxs (.eq xs.length :: .not :: K) A) fun vs hvs => ?_
  have hn := evalList_length hvs
  cases hc : chain Expr.equals vs with
  | error e =>
    refine yields_fail ?_
    simp only [next_cons, step, ← hn, evalPredicate_reverse, hc]
    rfl
  | ok b =>
    refine yields_head (d := ⟨.not :: K, .bool b :: A⟩) ?_ (yields_of_next rfl)
    simp only [Step, next, step, ← hn, evalPredicate_reverse, hc]
    rfl

lemma identsInList_of_mem {P : String → Prop} : ∀ {xs : List Expr} {x : Expr},
    IdentsInList P xs → x ∈ xs → IdentsIn P x
  | _ :: _, _, h, .head _ => h.1
  | _ :: _, _, h, .tail _ hx => identsInList_of_mem h.2 hx

mutual
theorem evalCore_yields : ∀ (e : Expr), IdentsIn (LookupYields env L) e → ∀ K A,
    Yields env ⟨.eval e :: K, A⟩ K (· :: A) (evalCore env L e)
  | .ident id, h, K, A => h K A
  | .str _, _, _, _ => yields_of_next rfl
  | .int _, _, _, _ => yields_of_next rfl
  | .float _, _, _, _ => yields_of_next rfl
  | .bool _, _, _, _ => yields_of_next rfl
  | .seq xs, h, K, A => by
    -- the values of the elements, then `Seq(n)` gathers them
    refine yields_head (d := ⟨xs.map .eval ++ .seq xs.length :: K, A⟩) (by exact rfl) ?_
    refine yields_map (yields_trans (evalList_yields xs h (.seq xs.length :: K) A) fun vs hvs => ?_)
    have hn := evalList_length hvs
    refine .single ?_
    simp only [Step, next, ← hn, step_seq]
    rfl
  | .list [], _, _, _ => yields_of_next rfl
  | .list (.ident op :: xs), h, K, A => by
    have hxs : IdentsInList (LookupYields env L) xs := h.2
    have hargs := fun K A => evalList_yields xs hxs K A
    by_cases hand : op = "and"
    · subst hand
      cases xs with
      | nil => exact yields_of_next rfl
      | cons x rest =>
        refine yields_head (d := ⟨opCtrl .and (x :: rest) K, A⟩) (by simp [Step, next_cons, step, evalOp, opCtrl]) ?_
        simpa [evalCore] using evalAnd_yields (x :: rest) (List.cons_ne_nil _ _) hxs K A
    by_cases hor : op = "or"
    · subst hor
      cases xs with
      | nil => exact yields_of_next rfl
      | cons x rest =>
        refine yields_head (d := ⟨opCtrl .or (x :: rest) K, A⟩) (by simp [Step, next_cons, step, evalOp, opCtrl]) ?_
        simpa [evalCore] using evalOr_yields (x :: rest) (List.cons_ne_nil _ _) hxs K A
    by_cases hnot : op = "not"
    · subst hnot
      simpa [evalCore] using evalNot_yields xs hxs K A
    by_cases hif : op = "if"
    · subst hif
      simpa [evalCore] using evalIf_yields xs hxs K A
    by_cases hlt : op = "<"
    · subst hlt
      by_cases hn : xs.length < 2
      · exact yields_of_next (by simp [next_cons, step, evalOp, evalCore, hn])
      · refine yields_head (d := ⟨xs.map .eval ++ .lt xs.length :: K, A⟩)
          (by simp [Step, next_cons, step, evalOp, hn]) ?_
        simpa [evalCore, hn] using yields_chain (fun _ _ => rfl) hargs K A
    by_cases hgt : op = ">"
    · subst hgt
      by_cases hn : xs.length < 2
      · exact yields_of_next (by simp [next_cons, step, evalOp, evalCore, hn])
      · refine yields_head (d := ⟨xs.map .eval ++ .gt xs.length :: K, A⟩)
          (by simp [Step, next_cons, step, evalOp, hn]) ?_
        simpa [evalCore, hn] using yields_chain (fun _ _ => rfl) hargs K A
    by_cases heq : op = "="
    · subst heq
      by_cases hn : xs.length < 2
      · exact yields_of_next (by simp [next_cons, step, evalOp, evalCore, hn])
      · refine yields_head (d := ⟨xs.map .eval ++ .eq xs.length :: K, A⟩)
          (by simp [Step, next_cons, step, evalOp, hn]) ?_
        simpa [evalCore, hn] using yields_chain (fun _ _ => rfl) hargs K A
    by_cases hne : op = "!="
    · subst hne
      refine yields_head (d := ⟨xs.map .eval ++ .eq xs.length :: .not :: K, A⟩)
        (by simp [Step, next_cons, step, evalOp]) ?_
      simpa [evalCore] using yields_ne hargs K A
    by_cases hmem : op = "member?"
    · subst hmem
      simpa [evalCore] using evalMember_yields xs hxs K A
    by_cases hex : op = "exists?"
    · subst hex
      refine yields_of_next ?_
      simp only [next_cons, step, evalOp, evalCore]
      cases existsCheck env xs <;> simp [Functor.map, Except.map]
    -- an operator the evaluator does not know
    exact yields_of_next (by simp [next_cons, step, evalOp, evalCore, hand, hor, hnot, hif, hlt, hgt,
      heq, hne, hmem, hex])
  | .list (.str _ :: _), _, _, _ => yields_of_next rfl
  | .list (.int _ :: _), _, _, _ => yields_of_next rfl
  | .list (.float _ :: _), _, _, _ => yields_of_next rfl
  | .list (.bool _ :: _), _, _, _ => yields_of_next rfl
  | .list (.seq _ :: _), _, _, _ => yields_of_next rfl
  | .list (.list _ :: _), _, _, _ => yields_of_next rfl
termination_by structural e _ _ _ => e

theorem evalList_yields : ∀ (xs : List Expr), IdentsInList (LookupYields env L) xs → ∀ K A,
    Yields env ⟨xs.map .eval ++ K, A⟩ K (fun vs => vs.reverse ++ A) (evalList env L xs)
  | [], _, _, _ => yields_done rfl
  | x :: xs, h, K, A => by
    simp only [evalList, List.map_cons, List.cons_append]
    refine yields_bind (evalCore_yields x h.1 (xs.map .eval ++ K) A) fun v _ => ?_
    refine yields_bind (evalList_yields xs h.2 K (v :: A)) fun vs _ => yields_done ?_
    simp
termination_by structural xs _ _ _ => xs

theorem evalNot_yields : ∀ (xs : List Expr), IdentsInList (LookupYields env L) xs → ∀ K A,
    Yields env ⟨.eval (.list (.ident "not" :: xs)) :: K, A⟩ K (· :: A) (evalNot env L xs)
  | [x], h, K, A => by
    refine yields_head (d := ⟨.eval x :: .not :: K, A⟩) (by simp [Step, next_cons, step, evalOp]) ?_
    refine yields_bind (evalCore_yields x h.1 (.not :: K) A) fun v _ => ?_
    cases v <;> exact yields_of_next rfl
  | [], _, _, _ => yields_of_next (by simp [next_cons, step, evalOp, evalNot])
  | _ :: _ :: _, _, _, _ => yields_of_next (by simp [next_cons, step, evalOp, evalNot])
termination_by structural xs _ _ _ => xs

theorem evalIf_yields : ∀ (xs : List Expr), IdentsInList (LookupYields env L) xs → ∀ K A,
    Yields env ⟨.eval (.list (.ident "if" :: xs)) :: K, A⟩ K (· :: A) (evalIf env L xs)
  | [c, t, f], h, K, A => by
    refine yields_head (d := ⟨.eval c :: .if_ :: .eval t :: .eval f :: K, A⟩)
      (by simp [Step, next_cons, step, evalOp]) ?_
    refine yields_bind (evalCore_yields c h.1 _ A) fun v _ => ?_
    -- the test chooses the branch left on the control stack
    match v with
    | .bool true => exact yields_head (by exact rfl) (evalCore_yields t h.2.1 K A)
    | .bool false => exact yields_head (by exact rfl) (evalCore_yields f h.2.2.1 K A)
    | .str _ | .int _ | .float _ | .ident _ | .seq _ | .list _ => exact yields_of_next rfl
  | [], _, _, _ | [_], _, _, _ | [_, _], _, _, _ | _ :: _ :: _ :: _ :: _, _, _, _ =>
    yields_of_next (by simp [next_cons, step, evalOp, evalIf])
termination_by structural xs _ _ _ => xs

theorem evalMember_yields : ∀ (xs : List Expr), IdentsInList (LookupYields env L) xs → ∀ K A,
    Yields env ⟨.eval (.list (.ident "member?" :: xs)) :: K, A⟩ K (· :: A) (evalMember env L xs)
  | [x, y], h, K, A => by
    refine yields_head (d := ⟨.eval x :: .eval y :: .member :: K, A⟩)
      (by simp [Step, next_cons, step, evalOp]) ?_
    refine yields_bind (evalCore_yields x h.1 _ A) fun u _ => ?_
    refine yields_bind (evalCore_yields y h.2.1 _ (u :: A)) fun s _ => ?_
    match s with
    | .seq ys =>
      cases hm : memberLoop u ys <;>
        exact yields_of_next (by simp [next_cons, step, pop, bind, Except.bind, hm, Functor.map, Except.map])
    | .str _ | .int _ | .float _ | .bool _ | .ident _ | .list _ => exact yields_of_next rfl
  | [], _, _, _ | [_], _, _, _ | _ :: _ :: _ :: _, _, _, _ =>
    yields_of_next (by simp [next_cons, step, evalOp, evalMember])
termination_by structural xs _ _ _ => xs

theorem evalAnd_yields : ∀ (xs : List Expr), xs ≠ [] → IdentsInList (LookupYields env L) xs →
    ∀ K A, Yields env ⟨opCtrl .and xs K, A⟩ K (· :: A) (evalAnd env L xs)
  | [x], _, h, K, A => by
    simp only [evalAnd]
    exact yields_trans (evalCore_yields x h.1 (.and 0 :: K) A) fun v _ => .single rfl
  | x :: y :: rest, _, h, K, A => by
    simp only [evalAnd]
    refine yields_bind (evalCore_yields x h.1 _ A) fun v _ => ?_
    match v with
    | .bool true => exact yields_head (by exact rfl) (evalAnd_yields (y :: rest) (List.cons_ne_nil _ _) h.2 K A)
    | .bool false =>
      refine yields_of_next ?_
      simp [next_cons, step, pop, bind, Except.bind, popN_evals y rest K]
    | .str _ | .int _ | .float _ | .ident _ | .seq _ | .list _ => exact yields_of_next rfl
  | [], hne, _, _, _ => absurd rfl hne
termination_by structural xs _ _ _ _ => xs

theorem evalOr_yields : ∀ (xs : List Expr), xs ≠ [] → IdentsInList (LookupYields env L) xs →
    ∀ K A, Yields env ⟨opCtrl .or xs K, A⟩ K (· :: A) (evalOr env L xs)
  | [x], _, h, K, A => by
    simp only [evalOr]
    exact yields_trans (evalCore_yields x h.1 (.or 0 :: K) A) fun v _ => .single rfl
  | x :: y :: rest, _, h, K, A => by
    simp only [evalOr]
    refine yields_bind (evalCore_yields x h.1 _ A) fun v _ => ?_
    match v with
    | .bool false => exact yields_head (by exact rfl) (evalOr_yields (y :: rest) (List.cons_ne_nil _ _) h.2 K A)
    | .bool true =>
      refine yields_of_next ?_
      simp [next_cons, step, pop, bind, Except.bind, popN_evals y rest K]
    | .str _ | .int _ | .float _ | .ident _ | .seq _ | .list _ => exact yields_of_next rfl
  | [], hne, _, _, _ => absurd rfl hne
termination_by structural xs _ _ _ _ => xs

end

end Simulation

section Refinement

variable {env : Env}

mutual
lemma identsIn_mono {P Q : String → Prop} (hPQ : ∀ id, P id → Q id) :
    ∀ e : Expr, IdentsIn P e → IdentsIn Q e
  | .ident id, h => hPQ id h
  | .seq xs, h => identsInList_mono hPQ xs h
  | .list xs, h => identsInList_mono hPQ xs h
  | .str _, _ | .int _, _ | .float _, _ | .bool _, _ => trivial
lemma identsInList_mono {P Q : String → Prop} (hPQ : ∀ id, P id → Q id) :
    ∀ xs : List Expr, IdentsInList P xs → IdentsInList Q xs
  | [], _ => trivial
  | x :: xs, h => ⟨identsIn_mono hPQ x h.1, identsInList_mono hPQ xs h.2⟩
end

mutual
lemma identsIn_of_forall {P : String → Prop} (hP : ∀ id, P id) : ∀ e : Expr, IdentsIn P e
  | .ident id => hP id
  | .seq xs => identsInList_of_forall hP xs
  | .list xs => identsInList_of_forall hP xs
  | .str _ | .int _ | .float _ | .bool _ => trivial
lemma identsInList_of_forall {P : String → Prop} (hP : ∀ id, P id) : ∀ xs : List Expr, IdentsInList P xs
  | [] => trivial
  | x :: xs => ⟨identsIn_of_forall hP x, identsInList_of_forall hP xs⟩
end

variable (env) in
/-- The lookup `Eval(Ident(id))` makes: the bound value, evaluated in turn; a bound value has no
identifier left to look up. -/
def lookupRef (id : String) : Except EvalError Expr :=
  match env id with
  | some v => evalCore env (fun id => .error (.unbound id)) v
  | none => .error (.unbound id)

variable (env) in
def evalRef (e : Expr) : Except EvalError Expr := evalCore env (lookupRef env) e

/-- The bound values contain no identifier, so that a lookup cannot look up again. -/
def ClosedEnv (env : Env) : Prop := ∀ id v, env id = some v → IdentsIn (fun _ => False) v

lemma lookupRef_yields (henv : ClosedEnv env) (id : String) : LookupYields env (lookupRef env) id := by
  intro K A
  cases hv : env id with
  | none =>
    simp only [lookupRef, hv]
    exact yields_fail (by simp [next_cons, step, hv])
  | some v =>
    have hfree : IdentsIn (LookupYields env fun id => .error (.unbound id)) v :=
      identsIn_mono (fun _ h => h.elim) v (henv id v hv)
    refine yields_head (d := ⟨.eval v :: K, A⟩) (by simp [Step, next_cons, step, hv]) ?_
    simpa [lookupRef, hv] using evalCore_yields v hfree K A

lemma run_of_reach {c c' : Config} (h : Relation.ReflTransGen (Step env) c c') :
    ∃ k, ∀ fuel, run env (fuel + k) c = run env fuel c' := by
  induction h using Relation.ReflTransGen.head_induction_on with
  | refl => exact ⟨0, fun _ => rfl⟩
  | @head c₁ c₂ hstep _ ih =>
    obtain ⟨k, hk⟩ := ih
    refine ⟨k + 1, fun fuel => ?_⟩
    obtain ⟨ctrl, args⟩ := c₁
    cases ctrl with
    | nil => simp [Step, next] at hstep
    | cons op ctrl =>
      simp only [Step, next_cons, Option.some.injEq] at hstep
      rw [← Nat.add_assoc]
      simp only [run, hstep, hk]

lemma run_of_next_error {c : Config} {f : Fault} (h : next env c = some (.error f)) (fuel : ℕ) :
    run env (fuel + 1) c = some (.error f) := by
  obtain ⟨ctrl, args⟩ := c
  cases ctrl with
  | nil => simp [next] at h
  | cons op ctrl =>
    simp only [next_cons, Option.some.injEq] at h
    simp only [run, h]

lemma eval_eq_evalRef (henv : ClosedEnv env) (e : Expr) :
    ∃ fuel, ∀ n, eval env (fuel + n) e =
      some (match evalRef env e with
        | .ok v => .ok v
        | .error err => .error (.error err)) := by
  have hy := evalCore_yields e (identsIn_of_forall (lookupRef_yields henv) e) [] []
  unfold evalRef
  cases hr : evalCore env (lookupRef env) e with
  | ok v =>
    rw [hr] at hy
    obtain ⟨k, hk⟩ := run_of_reach hy
    refine ⟨k + 1, fun n => ?_⟩
    rw [eval, show k + 1 + n = n + 1 + k by omega, hk]
    rfl
  | error err =>
    rw [hr] at hy
    obtain ⟨c', hreach, hfail⟩ := hy
    obtain ⟨k, hk⟩ := run_of_reach hreach
    refine ⟨k + 1, fun n => ?_⟩
    rw [eval, show k + 1 + n = n + 1 + k by omega, hk, run_of_next_error hfail]

lemma eval_of_evalRef (henv : ClosedEnv env) {e v : Expr} (h : evalRef env e = .ok v) :
    ∃ fuel, eval env fuel e = some (.ok v) := by
  obtain ⟨fuel, hfuel⟩ := eval_eq_evalRef henv e
  exact ⟨fuel, by simpa [h] using hfuel 0⟩

/-- `eval` computes the evaluator: with enough turns it returns the value of `e` or its error,
never a panic, and a value is the one value left on the argument stack. -/
theorem eval_refines (henv : ClosedEnv env) (e : Expr) :
    (∃ fuel, ∀ n, eval env (fuel + n) e =
      some (match evalRef env e with
        | .ok v => .ok v
        | .error err => .error (.error err))) ∧
    ∀ v, evalRef env e = .ok v → Relation.ReflTransGen (Step env) ⟨[.eval e], []⟩ ⟨[], [v]⟩ := by
  refine ⟨eval_eq_evalRef henv e, fun v hv => ?_⟩
  have hy := evalCore_yields e (identsIn_of_forall (lookupRef_yields henv) e) [] []
  unfold evalRef at hv
  rw [hv] at hy
  exact hy

lemma closedEnv_empty : ClosedEnv (fun _ => none) := fun _ _ h => by cases h

theorem eval_refines_and_one : ClosedEnv (fun _ => none) ∧
    ((∃ fuel, ∀ n, eval (fun _ => none) (fuel + n) (.list [.ident "and", .int 1]) =
      some (match evalRef (fun _ => none) (.list [.ident "and", .int 1]) with
        | .ok v => .ok v
        | .error err => .error (.error err))) ∧
    ∀ v, evalRef (fun _ => none) (.list [.ident "and", .int 1]) = .ok v →
      Relation.ReflTransGen (Step fun _ => none) ⟨[.eval (.list [.ident "and", .int 1])], []⟩ ⟨[], [v]⟩) :=
  ⟨closedEnv_empty, eval_refines closedEnv_empty _⟩

/-! Where the evaluator leaves the checks of the other operators out. -/

section Unchecked

variable {L : String → Except EvalError Expr}

lemma evalAnd_append_singleton (x : Expr) :
    ∀ xs : List Expr, (∀ y ∈ xs, evalCore env L y = .ok (.bool true)) →
      evalAnd env L (xs ++ [x]) = evalCore env L x
  | [], _ => by simp [evalAnd]
  | y :: ys, h => by
    have hy := h y List.mem_cons_self
    have ih := evalAnd_append_singleton x ys fun z hz => h z (List.mem_cons_of_mem y hz)
    simp [evalAnd, hy, ih, bind, Except.bind]

lemma evalOr_append_singleton (x : Expr) :
    ∀ xs : List Expr, (∀ y ∈ xs, evalCore env L y = .ok (.bool false)) →
      evalOr env L (xs ++ [x]) = evalCore env L x
  | [], _ => by simp [evalOr]
  | y :: ys, h => by
    have hy := h y List.mem_cons_self
    have ih := evalOr_append_singleton x ys fun z hz => h z (List.mem_cons_of_mem y hz)
    simp [evalOr, hy, ih, bind, Except.bind]

lemma evalList_of_forall :
    ∀ xs : List Expr, (∀ y ∈ xs, ∃ v, evalCore env L y = .ok v) → ∃ vs, evalList env L xs = .ok vs
  | [], _ => ⟨[], by simp [evalList]⟩
  | y :: ys, h => by
    obtain ⟨v, hv⟩ := h y List.mem_cons_self
    obtain ⟨vs, hvs⟩ := evalList_of_forall ys fun z hz => h z (List.mem_cons_of_mem y hz)
    exact ⟨v :: vs, by simp [evalList, hv, hvs, bind, Except.bind]⟩

lemma chain_of_length_lt {f : Expr → Expr → Except EvalError Bool} {vs : List Expr}
    (h : vs.length < 2) : chain f vs = .ok true := by
  match vs, h with
  | [], _ => rfl
  | [_], _ => rfl

lemma evalCore_ne_of_length_lt {xs : List Expr} (hlen : xs.length < 2)
    (h : ∀ y ∈ xs, ∃ v, evalCore env L y = .ok v) :
    evalCore env L (.list (.ident "!=" :: xs)) = .ok (.bool false) := by
  obtain ⟨vs, hvs⟩ := evalList_of_forall xs h
  have hc : chain Expr.equals vs = .ok true := chain_of_length_lt (evalList_length hvs ▸ hlen)
  simp [evalCore, hvs, hc, bind, Except.bind]

lemma evalCore_eq_of_length_lt {xs : List Expr} (hlen : xs.length < 2) :
    evalCore env L (.list (.ident "=" :: xs)) =
      .error (.malformed "'=' requires at least two arguments") := by
  simp [evalCore, hlen]

end Unchecked

/-- The last argument of `and` (after `true`s) and of `or` (after `false`s) is the result
unchecked, whatever its type; and `!=` with fewer than two arguments is `false` where `=` is
malformed. -/
theorem eval_unchecked_last_and_ne_arity (henv : ClosedEnv env) :
    (∀ (xs : List Expr) (x v : Expr), (∀ y ∈ xs, evalRef env y = .ok (.bool true)) →
      evalRef env x = .ok v → ∃ fuel, eval env fuel (.list (.ident "and" :: (xs ++ [x]))) = some (.ok v)) ∧
    (∀ (xs : List Expr) (x v : Expr), (∀ y ∈ xs, evalRef env y = .ok (.bool false)) →
      evalRef env x = .ok v → ∃ fuel, eval env fuel (.list (.ident "or" :: (xs ++ [x]))) = some (.ok v)) ∧
    ∀ xs : List Expr, xs.length < 2 → (∀ y ∈ xs, ∃ v, evalRef env y = .ok v) →
      (∃ fuel, eval env fuel (.list (.ident "!=" :: xs)) = some (.ok (.bool false))) ∧
      ∃ fuel, eval env fuel (.list (.ident "=" :: xs)) =
        some (.error (.error (.malformed "'=' requires at least two arguments"))) := by
  refine ⟨fun xs x v hxs hx => eval_of_evalRef henv ?_, fun xs x v hxs hx => eval_of_evalRef henv ?_,
    fun xs hlen h => ⟨eval_of_evalRef henv ?_, ?_⟩⟩
  · rw [evalRef] at hx ⊢
    simp [evalCore, evalAnd_append_singleton x xs hxs, hx]
  · rw [evalRef] at hx ⊢
    simp [evalCore, evalOr_append_singleton x xs hxs, hx]
  · exact evalCore_ne_of_length_lt hlen h
  · obtain ⟨fuel, hfuel⟩ := eval_eq_evalRef henv (.list (.ident "=" :: xs))
    refine ⟨fuel, ?_⟩
    simpa [evalRef, evalCore_eq_of_length_lt hlen] using hfuel 0

/-- `(and 1)` is `1`, and `(!= 1)` is `false` while `(= 1)` is malformed. -/
theorem eval_unchecked_last_and_ne_arity_one :
    ClosedEnv (fun _ => none) ∧
      (∃ fuel, eval (fun _ => none) fuel (.list [.ident "and", .int 1]) = some (.ok (.int 1))) ∧
      (∃ fuel, eval (fun _ => none) fuel (.list [.ident "!=", .int 1]) = some (.ok (.bool false))) ∧
      ∃ fuel, eval (fun _ => none) fuel (.list [.ident "=", .int 1]) =
        some (.error (.error (.malformed "'=' requires at least two arguments"))) := by
  have h := eval_unchecked_last_and_ne_arity closedEnv_empty
  have hone : evalRef (fun _ => none) (.int 1) = .ok (.int 1) := by simp [evalRef, evalCore]
  have hne := h.2.2 [.int 1] (by simp) (by simp [hone])
  exact ⟨closedEnv_empty, h.1 [] (.int 1) (.int 1) (by simp) hone, hne.1, hne.2⟩

end Refinement

end Ockam.Abac
