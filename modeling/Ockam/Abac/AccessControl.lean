import Ockam.Abac.Eval
import Ockam.MultiAddr.Text

/-! `AbacAccessControl::is_identity_authorized` (`attribute_access_control.rs`): the policy is
evaluated with the identity's UTF-8 attributes bound as `subject.<key>` and `subject.identifier`
last; only `Bool(true)` grants. Presence is asked of the key itself, not of `subject.<key>`. -/

namespace Ockam.Abac

open Ockam.Multiaddr (fromUtf8 utf8Bytes fromUtf8_utf8Bytes)

namespace Env

def contains (env : Env) (k : String) : Bool := (env k).isSome

def put (env : Env) (k : String) (v : Expr) : Env := Function.update env k (some v)

@[simp] lemma put_apply_self (env : Env) (k : String) (v : Expr) : env.put k v k = some v := by
  simp [put]

lemma put_apply_of_ne (env : Env) {k k' : String} (h : k' ≠ k) (v : Expr) : env.put k v k' = env k' := by
  simp [put, h]

end Env

/-- The loop over the identity's attributes. A key or a value that is not UTF-8 is skipped. -/
def putAttributes : Env → List (Bytes × Bytes) → Env
  | environment, [] => environment
  | environment, (key, value) :: attrs =>
    match fromUtf8 key, fromUtf8 value with
    | some key, some s =>
      let key := String.ofList key
      putAttributes
        (if environment.contains key then environment
          else environment.put ("subject." ++ key) (.str (String.ofList s)))
        attrs
    | _, _ => putAttributes environment attrs

/-- The environment the policy is evaluated in; `attrs` is what `get_attributes` returns. -/
def authorizationEnv (environment : Env) (attrs : Option (List (Bytes × Bytes))) (id : String) : Env :=
  let environment :=
    match attrs with
    | some attrs => putAttributes environment attrs
    | none => environment
  environment.put "subject.identifier" (.str id)

/-- `is_identity_authorized`, with the evaluation loop given `fuel` turns: `Ok(Bool(b))` is `b`,
and every other value or error is `false`. -/
def isIdentityAuthorized (fuel : ℕ) (environment : Env) (expression : Expr)
    (attrs : Option (List (Bytes × Bytes))) (id : String) : Option Bool :=
  (eval (authorizationEnv environment attrs id) fuel expression).map fun r =>
    match r with
    | .ok (.bool b) => b
    | _ => false

lemma isIdentityAuthorized_eq_true (fuel : ℕ) (environment : Env) (expression : Expr)
    (attrs : Option (List (Bytes × Bytes))) (id : String) :
    isIdentityAuthorized fuel environment expression attrs id = some true ↔
      eval (authorizationEnv environment attrs id) fuel expression = some (.ok (.bool true)) := by
  unfold isIdentityAuthorized
  rcases eval (authorizationEnv environment attrs id) fuel expression with _ | _ | v
  · simp
  · simp
  · cases v <;> simp

lemma putAttributes_single (environment : Env) (k v : String) :
    putAttributes environment [(utf8Bytes k.toList, utf8Bytes v.toList)] =
      if environment.contains k then environment else environment.put ("subject." ++ k) (.str v) := by
  simp [putAttributes, fromUtf8_utf8Bytes]

/-- A configured `subject.<key>` whose key itself is not bound: an attribute of that key replaces
the configured value in the environment the policy is evaluated in. -/
theorem attribute_overrides_configured (environment : Env) {k v : String} {e : Expr}
    (hconf : environment ("subject." ++ k) = some e) (hraw : environment k = none)
    (hid : "subject." ++ k ≠ "subject.identifier") (hv : e ≠ .str v) (id : String) :
    authorizationEnv environment (some [(utf8Bytes k.toList, utf8Bytes v.toList)]) id ("subject." ++ k) =
        some (.str v) ∧
      authorizationEnv environment (some [(utf8Bytes k.toList, utf8Bytes v.toList)]) id ("subject." ++ k) ≠
        environment ("subject." ++ k) := by
  have hnot : environment.contains k = false := by simp [Env.contains, hraw]
  have henv : authorizationEnv environment (some [(utf8Bytes k.toList, utf8Bytes v.toList)]) id
      ("subject." ++ k) = some (.str v) := by
    simp only [authorizationEnv, putAttributes_single, hnot, Bool.false_eq_true, if_false]
    rw [Env.put_apply_of_ne _ hid, Env.put_apply_self]
  refine ⟨henv, ?_⟩
  rw [henv, hconf]
  exact fun h => hv (Option.some.inj h).symm

/-- `subject.role` configured as `"admin"`, and an identity whose attribute `role` is `"guest"`: the
policy `(= subject.role "admin")` denies it, where the configured binding would grant it. -/
theorem attribute_overrides_configured_role :
    let environment : Env := fun k => if k = "subject.role" then some (.str "admin") else none
    let policy : Expr := .list [.ident "=", .ident "subject.role", .str "admin"]
    (authorizationEnv environment (some [(utf8Bytes "role".toList, utf8Bytes "guest".toList)]) "I1"
          ("subject." ++ "role") = some (.str "guest") ∧
        authorizationEnv environment (some [(utf8Bytes "role".toList, utf8Bytes "guest".toList)]) "I1"
          ("subject." ++ "role") ≠ environment ("subject." ++ "role")) ∧
      isIdentityAuthorized 20 environment policy
          (some [(utf8Bytes "role".toList, utf8Bytes "guest".toList)]) "I1" = some false ∧
      isIdentityAuthorized 20 environment policy none "I1" = some true :=
  ⟨attribute_overrides_configured _ rfl rfl (by decide) (by simp) "I1", by decide +kernel,
    by decide +kernel⟩

end Ockam.Abac
