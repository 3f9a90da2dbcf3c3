import Ockam.AttributeRule.RoundTrip

/-! `Ockam.ABAC.Authorization.generate_request` and `Ockam.ABAC.PolicyCheck`: the request a worker
builds from a message, with its attributes normalized (numbers dropped), and the check of a request
against policies. `match_rule?` compares in the order of terms, so on such a request a rule
`(> k n)` holds wherever `k` is present; `typedMatch` compares values of one kind only. -/

namespace Ockam.ABAC

open Erlang

/-- The value `normalize_attributes` keeps of an attribute. -/
def normalizeValue : Term → Option Term
  | .binary binary => some (.binary binary)
  | .atom atom => some (.binary atom)
  | .list (.binary binary :: rest) => some (.list (.binary binary :: rest))
  | _ => none

/-- `normalize_attributes`, of an attribute map given as its entries; `Map.new` keeps the last
value of a key. -/
def normalizeAttributes (attributes : List (List Char × Term)) : Attributes := fun name =>
  ((attributes.filterMap fun (key, val) => (normalizeValue val).map (key, ·)).reverse.find?
    (·.1 == name)).map Prod.snd

/-- `generate_request`, given the attribute maps before they are normalized: the action's (the
local metadata of the message, with `to` and `from`), the resource's (the worker's attributes,
with its addresses) and the subject's (the stored attributes of the identity, with
`identity_id`). -/
def generateRequest (action resource subject : List (List Char × Term)) : Request where
  actionAttributes := normalizeAttributes action
  resourceAttributes := normalizeAttributes resource
  subjectAttributes := normalizeAttributes subject

structure ActionId where
  resource : List Char
  action : List Char

structure Policy where
  actionId : ActionId
  attributeRule : Rule

section Policies

-- `ActionId.match_action_id?`, which matches regular expressions: not modelled
variable (matchActionId : ActionId → ActionId → Bool)

/-- `Policy.match_policy?`; `none` is a call that raises. -/
def matchPolicy (policy : Policy) (actionId : ActionId) (request : Request) : Option Bool :=
  if matchActionId policy.actionId actionId then matchRule policy.attributeRule request
  else some false

/-- `Enum.any?` over the policies, which stops at the first that matches. -/
def anyPolicy (actionId : ActionId) (request : Request) : List Policy → Option Bool
  | [] => some false
  | policy :: policies =>
    match matchPolicy matchActionId policy actionId request with
    | some true => some true
    | some false => anyPolicy actionId request policies
    | none => none

/-- `PolicyCheck.match_policies` of a list of policies: `:ok`, or the mismatch with the policies;
`none` is a call that raises. -/
def matchPolicies (actionId : ActionId) (request : Request) (policies : List Policy) :
    Option (Except (List Policy) Unit) :=
  (anyPolicy matchActionId actionId request policies).map fun ok =>
    if ok then .ok () else .error policies

end Policies

/-! The typed reading of a rule. -/

/-- The kinds of values the typed reading compares. -/
inductive Kind where
  | number
  | binary
  | boolean
  deriving DecidableEq

def kindOf : Term → Option Kind
  | .int _ | .float _ => some .number
  | .binary _ => some .binary
  | .atom a => if a = "true".toList ∨ a = "false".toList then some .boolean else none
  | _ => none

/-- An operand of a rule: a key stands for its attribute, a literal for itself. -/
def operand (request : Request) (t : Term) : Option Term :=
  if isKey t then fetchAttribute request t else some t

/-- `op` between values of one kind: numbers by value, binaries byte by byte, booleans as atoms. -/
def typedCompare (op : Op) (x y : Term) : Bool :=
  match kindOf x, kindOf y with
  | some k, some k' => k == k' && (compare op x y).getD false
  | _, _ => false

mutual
/-- A rule read so that a comparison holds of two present operands of one kind only, and a
membership of a present element in a list. -/
def typedMatch (request : Request) : Rule → Bool
  | .bool b => b
  | .exists_ key => (fetchAttribute request key).isSome
  | .op .member element list =>
    match operand request element, operand request list with
    | some x, some (.list elems) => elems.contains x
    | _, _ => false
  | .op op one other =>
    match operand request one, operand request other with
    | some x, some y => typedCompare op x y
    | _, _ => false
  | .not rule => !typedMatch request rule
  | .and rules => typedAll request rules
  | .or rules => typedAny request rules
  | .if_ condition trueRule falseRule =>
    if typedMatch request condition then typedMatch request trueRule
    else typedMatch request falseRule

def typedAll (request : Request) : List Rule → Bool
  | [] => true
  | rule :: rules => typedMatch request rule && typedAll request rules

def typedAny (request : Request) : List Rule → Bool
  | [] => false
  | rule :: rules => typedMatch request rule || typedAny request rules
end

section Requests

/-- What `normalize_attributes` keeps: a binary, or a list that starts with a binary. -/
def Normalized (v : Term) : Prop := (∃ b, v = .binary b) ∨ ∃ b rest, v = .list (.binary b :: rest)

lemma normalizeValue_normalized {val v : Term} (h : normalizeValue val = some v) : Normalized v := by
  unfold normalizeValue at h
  split at h <;> simp only [Option.some.injEq, reduceCtorEq] at h <;> subst h
  · exact .inl ⟨_, rfl⟩
  · exact .inl ⟨_, rfl⟩
  · exact .inr ⟨_, _, rfl⟩

lemma normalizeAttributes_normalized {attributes : List (List Char × Term)} {name : List Char}
    {v : Term} (h : normalizeAttributes attributes name = some v) : Normalized v := by
  simp only [normalizeAttributes, Option.map_eq_some_iff] at h
  obtain ⟨⟨key, v'⟩, hfind, rfl⟩ := h
  have hmem := List.mem_of_find?_eq_some hfind
  rw [List.mem_reverse, List.mem_filterMap] at hmem
  obtain ⟨⟨k, val⟩, -, hval⟩ := hmem
  simp only [Option.map_eq_some_iff, Prod.mk.injEq] at hval
  obtain ⟨w, hw, -, rfl⟩ := hval
  exact normalizeValue_normalized hw

lemma fetchAttribute_generateRequest {action resource subject : List (List Char × Term)}
    {key v : Term} (h : fetchAttribute (generateRequest action resource subject) key = some v) :
    Normalized v := by
  unfold fetchAttribute at h
  split at h
  · split_ifs at h <;> exact normalizeAttributes_normalized h
  · cases h

lemma compare_int_of_normalized {v : Term} (hv : Normalized v) (n : ℤ) :
    Term.compare v (.int n) = .gt := by
  apply Term.compare_of_rank_gt
  rcases hv with ⟨b, rfl⟩ | ⟨b, rest, rfl⟩ <;> simp [Term.rank]

end Requests

section Matching

variable {request : Request} {key v : Term}

lemma matchRule_filter_value {op : Op} (hop : op.isFilter = true) (hk : isKey key = true)
    {value : Term} (hvalue : isValue value = true) (hv : fetchAttribute request key = some v) :
    matchRule (.op op key value) request = compare op v value := by
  simp [matchRule, doMatchRule, matchOp, hop, hk, hvalue, hv]

lemma compare_isSome {op : Op} (hop : op.isFilter = true) (x y : Term) :
    (compare op x y).isSome = true := by
  cases op <;> simp_all [compare, Op.isFilter]

lemma memberElement_isSome (request : Request) (h : isKey v = true ∨ isValue v = true) :
    (memberElement request v).isSome = true := by
  unfold memberElement
  split_ifs with hk hval
  · rfl
  · rfl
  · exact absurd (h.resolve_left hk) hval

lemma memberList_isSome (request : Request)
    (h : isKey v = true ∨ ∃ list, v = .list list ∧ list.all isValue = true) :
    (memberList request v).isSome = true := by
  rcases h with h | ⟨list, rfl, -⟩
  · simp [memberList, h]
  · simp [memberList, isKey]

lemma matchOp_isSome {op : Op} {one other : Term} (hv : validateOp op one other = .ok ()) :
    (matchOp request op one other).isSome = true := by
  unfold matchOp
  split_ifs with h1 h2 h3
  · have hop : op.isFilter = true := by
      simp only [Bool.and_eq_true] at h1
      exact h1.1.1
    split <;> simp [compare_isSome hop]
  · have hop : op.isFilter = true := by
      simp only [Bool.and_eq_true] at h2
      exact h2.1.1
    split <;> simp [compare_isSome hop]
  · -- `member`: both of its calls take the operands of a valid rule
    rcases validateOp_eq_ok hv with ⟨hop, -, -⟩ | ⟨-, hone, hother⟩
    · subst h3
      simp [Op.isFilter] at hop
    · obtain ⟨e, he⟩ := Option.isSome_iff_exists.mp (memberElement_isSome request hone)
      obtain ⟨l, hl⟩ := Option.isSome_iff_exists.mp (memberList_isSome request hother)
      rw [he]
      rcases e with _ | e
      · rfl
      · rw [hl]
        rcases l with _ | l <;> rfl
  · rfl

mutual
theorem doMatchRule_isSome : ∀ (rule : Rule), validate rule = .ok () →
    (doMatchRule request rule).isSome = true
  | .bool _, _ => rfl
  | .op _ _ _, hv => matchOp_isSome hv
  | .exists_ _, _ => rfl
  | .and rules, hv => by
    obtain ⟨_, _, _, -, hall⟩ := validate_and_eq_ok hv
    exact matchAll_isSome rules hall
  | .or rules, hv => by
    obtain ⟨_, _, _, -, hall⟩ := validate_or_eq_ok hv
    exact matchAny_isSome rules hall
  | .not rule, hv => by
    simpa [doMatchRule] using doMatchRule_isSome rule hv
  | .if_ condition trueRule falseRule, hv => by
    obtain ⟨h1, h2, h3⟩ := validate_if_eq_ok hv
    obtain ⟨b, hb⟩ := Option.isSome_iff_exists.mp (doMatchRule_isSome condition h1)
    cases b
    · simpa [doMatchRule, hb] using doMatchRule_isSome falseRule h3
    · simpa [doMatchRule, hb] using doMatchRule_isSome trueRule h2
termination_by structural rule => rule

theorem matchAll_isSome : ∀ (rules : List Rule), (∀ r ∈ rules, validate r = .ok ()) →
    (matchAll request rules).isSome = true
  | [], _ => rfl
  | rule :: rules, hv => by
    obtain ⟨b, hb⟩ := Option.isSome_iff_exists.mp (doMatchRule_isSome rule (hv rule (by simp)))
    cases b
    · simp [matchAll, hb]
    · simpa [matchAll, hb] using matchAll_isSome rules fun r h => hv r (by simp [h])
termination_by structural rules => rules

theorem matchAny_isSome : ∀ (rules : List Rule), (∀ r ∈ rules, validate r = .ok ()) →
    (matchAny request rules).isSome = true
  | [], _ => rfl
  | rule :: rules, hv => by
    obtain ⟨b, hb⟩ := Option.isSome_iff_exists.mp (doMatchRule_isSome rule (hv rule (by simp)))
    cases b
    · simpa [matchAny, hb] using matchAny_isSome rules fun r h => hv r (by simp [h])
    · simp [matchAny, hb]
termination_by structural rules => rules
end

end Matching

section Policies

variable (matchActionId : ActionId → ActionId → Bool) {actionId : ActionId} {request : Request}

lemma matchPolicy_isSome (actionId : ActionId) (request : Request) {policy : Policy}
    (hv : validate policy.attributeRule = .ok ()) :
    (matchPolicy matchActionId policy actionId request).isSome = true := by
  unfold matchPolicy
  split_ifs
  · exact doMatchRule_isSome _ hv
  · rfl

lemma anyPolicy_eq_true_iff : ∀ (policies : List Policy),
    (∀ p ∈ policies, validate p.attributeRule = .ok ()) →
      (anyPolicy matchActionId actionId request policies = some true ↔
        ∃ p ∈ policies, matchPolicy matchActionId p actionId request = some true)
  | [], _ => by simp [anyPolicy]
  | policy :: policies, hv => by
    obtain ⟨b, hb⟩ := Option.isSome_iff_exists.mp
      (matchPolicy_isSome matchActionId actionId request (hv policy (by simp)))
    have ih := anyPolicy_eq_true_iff policies fun p h => hv p (by simp [h])
    cases b <;> simp [anyPolicy, hb, ih]

theorem matchPolicies_eq_ok_iff {policies : List Policy}
    (hv : ∀ p ∈ policies, validate p.attributeRule = .ok ()) :
    matchPolicies matchActionId actionId request policies = some (.ok ()) ↔
      ∃ p ∈ policies, matchActionId p.actionId actionId = true ∧
        matchRule p.attributeRule request = some true := by
  have hmatch : ∀ p : Policy, matchPolicy matchActionId p actionId request = some true ↔
      matchActionId p.actionId actionId = true ∧ matchRule p.attributeRule request = some true := by
    intro p
    unfold matchPolicy
    split_ifs with h <;> simp [h]
  rw [← exists_congr fun p => and_congr_right fun _ => hmatch p,
    ← anyPolicy_eq_true_iff matchActionId policies hv]
  unfold matchPolicies
  cases anyPolicy matchActionId actionId request policies with
  | none => simp
  | some b => cases b <;> simp

end Policies

/-- On a request of `generate_request`, a rule `(> k n)` holds wherever `k` is present and
`(< k n)` nowhere, since every attribute of such a request is above every number in the order of
terms; the typed reading of `(> k n)` does not hold there. -/
theorem matchRule_int_generateRequest (action resource subject : List (List Char × Term))
    (key : Term) (hk : isKey key = true) (hr : readable key = true) (n : ℤ)
    (hn : n < -9 ∨ -1 < n)
    (hpresent : (fetchAttribute (generateRequest action resource subject) key).isSome = true) :
    (∃ text, parse text = .ok (.op .gt key (.int n))) ∧
      matchRule (.op .gt key (.int n)) (generateRequest action resource subject) = some true ∧
      matchRule (.op .lt key (.int n)) (generateRequest action resource subject) = some false ∧
      typedMatch (generateRequest action resource subject) (.op .gt key (.int n)) = false := by
  obtain ⟨v, hv⟩ := Option.isSome_iff_exists.mp hpresent
  have hnorm := fetchAttribute_generateRequest hv
  have hcmp := compare_int_of_normalized hnorm n
  refine ⟨parse_filter_int rfl hk hr hn, ?_, ?_, ?_⟩
  · rw [matchRule_filter_value rfl hk rfl hv]
    simp [compare, Term.gt, hcmp]
  · rw [matchRule_filter_value rfl hk rfl hv]
    simp [compare, Term.lt, hcmp]
  · have hone : operand (generateRequest action resource subject) key = some v := by
      simp [operand, hk, hv]
    have hother : operand (generateRequest action resource subject) (.int n) = some (.int n) := rfl
    rcases hnorm with ⟨b, rfl⟩ | ⟨b, rest, rfl⟩ <;>
      simp [typedMatch, hone, hother, typedCompare, kindOf]

/-- `(> subject.level 5)` on a subject whose `level` is the binary `"1"`. -/
theorem matchRule_int_generateRequest_level :
    (isKey (.tuple [.atom "subject".toList, .binary "level".toList]) = true ∧
      readable (.tuple [.atom "subject".toList, .binary "level".toList]) = true ∧
      ((5 : ℤ) < -9 ∨ -1 < (5 : ℤ)) ∧
      (fetchAttribute (generateRequest [] [] [("level".toList, .binary "1".toList)])
        (.tuple [.atom "subject".toList, .binary "level".toList])).isSome = true) ∧
    (∃ text, parse text = .ok (.op .gt (.tuple [.atom "subject".toList, .binary "level".toList])
      (.int 5))) ∧
    matchRule (.op .gt (.tuple [.atom "subject".toList, .binary "level".toList]) (.int 5))
      (generateRequest [] [] [("level".toList, .binary "1".toList)]) = some true ∧
    matchRule (.op .lt (.tuple [.atom "subject".toList, .binary "level".toList]) (.int 5))
      (generateRequest [] [] [("level".toList, .binary "1".toList)]) = some false ∧
    typedMatch (generateRequest [] [] [("level".toList, .binary "1".toList)])
      (.op .gt (.tuple [.atom "subject".toList, .binary "level".toList]) (.int 5)) = false :=
  ⟨⟨by decide, by decide, by decide, by decide⟩,
    matchRule_int_generateRequest [] [] [("level".toList, .binary "1".toList)] _ (by decide)
      (by decide) 5 (by decide) (by decide)⟩

end Ockam.ABAC
