import Ockam.Lib.ErlangTerm

/-! `Ockam.ABAC.AttributeRule` of the Elixir implementation (`attribute_rules.ex`): the rules,
their validation by `new`, and `match_rule?` against a request. A rule's literals and the
attributes of a request are Erlang terms; a key `{type, name}` is the tuple of an atom `resource`,
`action` or `subject` and a binary. Comparisons are Erlang's comparison operators, which follow the
order of terms. -/

namespace Ockam.ABAC

open Erlang

def isKey : Term → Bool
  | .tuple [.atom type, .binary _] =>
    type = "resource".toList || type = "action".toList || type = "subject".toList
  | _ => false

/-- `is_value`: a binary, a boolean or a number. -/
def isValue : Term → Bool
  | .binary _ | .int _ | .float _ => true
  | .atom a => a = "true".toList || a = "false".toList
  | _ => false

/-- The operations of the rules `{op, one, other}`. -/
inductive Op where
  | eq
  | neq
  | gt
  | lt
  | member
  deriving DecidableEq, Repr

def Op.isFilter : Op → Bool
  | .member => false
  | _ => true

/-- `rule()`. -/
inductive Rule where
  | bool (b : Bool)
  | op (op : Op) (one other : Term)
  | exists_ (key : Term)
  | and (rules : List Rule)
  | or (rules : List Rule)
  | not (rule : Rule)
  | if_ (condition trueRule falseRule : Rule)

inductive RuleError where
  | cannotParseRule (string : List Char)
  | invalidRule (rule : Rule)
  | invalidListElements (rule : Rule)
  | internalRulesInvalid (errors : List RuleError)
  /-- `{:invalid_rule, _}` of what the grammar returns when it does not read the whole string,
  or reads a comment: not a rule. -/
  | invalidParse

def validateList (list : List Term) (rule : Rule) : Except RuleError Unit :=
  if list.all isValue then .ok () else .error (.invalidListElements rule)

/-- `validate_inner_rules`, given what `validate` says of each inner rule. -/
def validateInnerRules (results : List (Except RuleError Unit)) : Except RuleError Unit :=
  match results.filterMap fun r => match r with | .ok () => none | .error e => some e with
  | [] => .ok ()
  | errors => .error (.internalRulesInvalid errors)

/-- The clauses of `validate` for `{op, one, other}`: a filter of a key by a key or a value, then
`member` of a key or a value in a key, then in a literal list. -/
def validateOp (op : Op) (one other : Term) : Except RuleError Unit :=
  if op.isFilter && isKey one && (isKey other || isValue other) then .ok ()
  else if op = .member && isKey other && (isKey one || isValue one) then .ok ()
  else
    match op, other with
    | .member, .list list =>
      if isKey one || isValue one then validateList list (.op op one other)
      else .error (.invalidRule (.op op one other))
    | _, _ => .error (.invalidRule (.op op one other))

mutual
def validate : Rule → Except RuleError Unit
  | .bool _ => .ok ()
  | .op op one other => validateOp op one other
  | .exists_ key => if isKey key then .ok () else .error (.invalidRule (.exists_ key))
  -- `and` and `or` take two rules or more
  | .and rules =>
    match rules with
    | _ :: _ :: _ => validateInnerRules (validateAll rules)
    | _ => .error (.invalidRule (.and rules))
  | .or rules =>
    match rules with
    | _ :: _ :: _ => validateInnerRules (validateAll rules)
    | _ => .error (.invalidRule (.or rules))
  | .not rule => validate rule
  | .if_ condition trueRule falseRule =>
    validateInnerRules [validate condition, validate trueRule, validate falseRule]

def validateAll : List Rule → List (Except RuleError Unit)
  | [] => []
  | rule :: rules => validate rule :: validateAll rules
end

lemma validateAll_eq_map (rules : List Rule) : validateAll rules = rules.map validate := by
  induction rules with
  | nil => rfl
  | cons rule rules ih => simp [validateAll, ih]

lemma validateInnerRules_eq_ok {results : List (Except RuleError Unit)} :
    validateInnerRules results = .ok () ↔ ∀ result ∈ results, result = .ok () := by
  have herror : ∀ result : Except RuleError Unit,
      (match result with | .ok () => none | .error e => some e) = none ↔ result = .ok () := by
    intro result
    cases result <;> simp
  have hnil : validateInnerRules results = .ok () ↔
      results.filterMap (fun r => match r with | .ok () => none | .error e => some e) = [] := by
    unfold validateInnerRules
    split
    · rename_i hempty
      simp [hempty]
    · rename_i errors hne
      simp only [reduceCtorEq, false_iff]
      exact hne
  rw [hnil, List.filterMap_eq_nil_iff]
  simp only [herror]

lemma validateOp_eq_ok {op : Op} {one other : Term} (h : validateOp op one other = .ok ()) :
    (op.isFilter = true ∧ isKey one = true ∧ (isKey other = true ∨ isValue other = true)) ∨
      (op = .member ∧ (isKey one = true ∨ isValue one = true) ∧
        (isKey other = true ∨ ∃ list, other = .list list ∧ list.all isValue = true)) := by
  unfold validateOp at h
  split_ifs at h with h1 h2 h3
  · left
    simpa [and_assoc] using h1
  · right
    simp only [Bool.and_eq_true, decide_eq_true_eq, Bool.or_eq_true] at h2
    exact ⟨h2.1.1, h2.2, .inl h2.1.2⟩
  · -- a literal list after `member`
    split at h
    · rename_i list
      unfold validateList at h
      split_ifs at h with h4
      exact .inr ⟨rfl, by simpa using h3, .inr ⟨list, rfl, h4⟩⟩
    · cases h
  · split at h <;> cases h

lemma validate_of_validateAll {rules : List Rule}
    (h : validateInnerRules (validateAll rules) = .ok ()) : ∀ r ∈ rules, validate r = .ok () := by
  rw [validateInnerRules_eq_ok, validateAll_eq_map] at h
  simpa using h

section Validate

attribute [local simp] validate

lemma validate_and_eq_ok {rules : List Rule} (h : validate (.and rules) = .ok ()) :
    ∃ rule rule' rest, rules = rule :: rule' :: rest ∧ ∀ r ∈ rules, validate r = .ok () := by
  match rules, h with
  | rule :: rule' :: rest, h =>
    rw [validate] at h
    exact ⟨rule, rule', rest, rfl, validate_of_validateAll h⟩
  | [], h | [_], h => simp at h

lemma validate_or_eq_ok {rules : List Rule} (h : validate (.or rules) = .ok ()) :
    ∃ rule rule' rest, rules = rule :: rule' :: rest ∧ ∀ r ∈ rules, validate r = .ok () := by
  match rules, h with
  | rule :: rule' :: rest, h =>
    rw [validate] at h
    exact ⟨rule, rule', rest, rfl, validate_of_validateAll h⟩
  | [], h | [_], h => simp at h

lemma validate_if_eq_ok {condition trueRule falseRule : Rule}
    (h : validate (.if_ condition trueRule falseRule) = .ok ()) :
    validate condition = .ok () ∧ validate trueRule = .ok () ∧ validate falseRule = .ok () := by
  rw [validate, validateInnerRules_eq_ok] at h
  simpa using h

end Validate

/-- `new`: the rule, once it validates. -/
def new (ruleDef : Rule) : Except RuleError Rule := do
  validate ruleDef
  pure ruleDef

/-- An attribute map of a `Request`. -/
abbrev Attributes := List Char → Option Term

/-- The attribute maps of `Request`; its `action_id` is not read by `match_rule?`. -/
structure Request where
  actionAttributes : Attributes
  resourceAttributes : Attributes
  subjectAttributes : Attributes

/-- `fetch_attribute`, called on keys only: `:error` is `none`. -/
def fetchAttribute (request : Request) : Term → Option Term
  | .tuple [.atom type, .binary name] =>
    if type = "resource".toList then request.resourceAttributes name
    else if type = "action".toList then request.actionAttributes name
    else if type = "subject".toList then request.subjectAttributes name
    else none
  | _ => none

/-- `compare`, which has no clause for `member`: `none` is a call that raises. -/
def compare : Op → Term → Term → Option Bool
  | .eq, val1, val2 => some (Term.eq val1 val2)
  | .neq, val1, val2 => some !(Term.eq val1 val2)
  | .gt, val1, val2 => some (Term.gt val1 val2)
  | .lt, val1, val2 => some (Term.lt val1 val2)
  | .member, _, _ => none

/-- `member_element`: `none` where no clause takes the element, and the call raises. -/
def memberElement (request : Request) (element : Term) : Option (Option Term) :=
  if isKey element then some (fetchAttribute request element)
  else if isValue element then some (some element)
  else none

/-- `member_list`: an attribute holding a list, or a literal list. -/
def memberList (request : Request) (list : Term) : Option (Option (List Term)) :=
  if isKey list then
    some (match fetchAttribute request list with
      | some (.list elems) => some elems
      | _ => none)
  else
    match list with
    | .list elems => some (some elems)
    | _ => none

/-- The clauses of `do_match_rule?` for `{op, one, other}`; `none` is a call that raises. -/
def matchOp (request : Request) (op : Op) (one other : Term) : Option Bool :=
  if op.isFilter && isKey one && isValue other then
    match fetchAttribute request one with
    | some attributeValue => compare op attributeValue other
    | none => some false
  else if op.isFilter && isKey one && isKey other then
    match fetchAttribute request one, fetchAttribute request other with
    | some val1, some val2 => compare op val1 val2
    | _, _ => some false
  else if op = .member then
    -- `with` stops at the first `:error`, before `member_list` is called
    match memberElement request one with
    | none => none
    | some none => some false
    | some (some element) =>
      match memberList request other with
      | none => none
      | some none => some false
      | some (some list) => some (list.contains element)
  else some false

mutual
/-- `do_match_rule?`; `none` is a call that raises. -/
def doMatchRule (request : Request) : Rule → Option Bool
  | .op op one other => matchOp request op one other
  | .exists_ key => some (isKey key && (fetchAttribute request key).isSome)
  | .not rule => (doMatchRule request rule).map (!·)
  | .and rules => matchAll request rules
  | .or rules => matchAny request rules
  | .if_ condition trueRule falseRule =>
    match doMatchRule request condition with
    | some true => doMatchRule request trueRule
    | some false => doMatchRule request falseRule
    | none => none
  | .bool b => some b

/-- `Enum.all?`, which stops at the first rule that does not match. -/
def matchAll (request : Request) : List Rule → Option Bool
  | [] => some true
  | rule :: rules =>
    match doMatchRule request rule with
    | some true => matchAll request rules
    | some false => some false
    | none => none

/-- `Enum.any?`, which stops at the first rule that matches. -/
def matchAny (request : Request) : List Rule → Option Bool
  | [] => some false
  | rule :: rules =>
    match doMatchRule request rule with
    | some true => some true
    | some false => matchAny request rules
    | none => none
end

/-- `match_rule?`. -/
def matchRule (rule : Rule) (request : Request) : Option Bool := doMatchRule request rule

end Ockam.ABAC
