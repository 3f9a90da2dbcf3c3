import Ockam.AttributeRule.Grammar

/-! `Ockam.ABAC.AttributeRule.Formatter` (`attribute_rules/formatter.ex`): a rule as the text
`AttributeRule.format` gives it. Numbers are written by `to_string`: an integer as its decimal
numeral, a float by `floatToString`, which is not modelled. Strings are written between quotes as
they are, without escapes. -/

namespace Ockam.ABAC

open Erlang

namespace Formatter

def formatOp : Op → List Char
  | .eq => "=".toList
  | .neq => "!=".toList
  | .gt => ">".toList
  | .lt => "<".toList
  | .member => "member?".toList

@[simp] lemma formatOp_eq : formatOp .eq = ['='] := rfl
@[simp] lemma formatOp_neq : formatOp .neq = ['!', '='] := rfl
@[simp] lemma formatOp_gt : formatOp .gt = ['>'] := rfl
@[simp] lemma formatOp_lt : formatOp .lt = ['<'] := rfl
@[simp] lemma formatOp_member : formatOp .member = "member?".toList := rfl

/-- `Enum.map_join(_, " ", _)` of texts already formatted. -/
def joinSpace (parts : List (List Char)) : List Char := [' '].intercalate parts

@[simp] lemma joinSpace_nil : joinSpace [] = [] := rfl

@[simp] lemma joinSpace_singleton (text : List Char) : joinSpace [text] = text := by
  simp [joinSpace]

lemma joinSpace_cons_cons (text text' : List Char) (texts : List (List Char)) :
    joinSpace (text :: text' :: texts) = text ++ ' ' :: joinSpace (text' :: texts) := by
  simp [joinSpace, List.intercalate_cons_cons]

lemma joinSpace_cons (text : List Char) (texts : List (List Char)) :
    ∃ tail, joinSpace (text :: texts) = text ++ tail := by
  cases texts with
  | nil => exact ⟨[], by simp⟩
  | cons text' texts => exact ⟨_, joinSpace_cons_cons text text' texts⟩

lemma length_le_joinSpace : ∀ {texts : List (List Char)}, ∀ text ∈ texts,
    text.length ≤ (joinSpace texts).length
  | [text], _, h => by simp_all
  | text :: text' :: texts, t, h => by
    rw [joinSpace_cons_cons]
    rcases List.mem_cons.mp h with rfl | h
    · simp
    · have := length_le_joinSpace t h
      simp only [List.length_append, List.length_cons]
      omega

variable (floatToString : ℚ → List Char)

mutual
/-- `format_arg`: `none` where no clause takes the argument, and the call raises. -/
def formatArg : Term → Option (List Char)
  | .tuple [.atom type, .binary name] =>
    if isKey (.tuple [.atom type, .binary name]) then some (type ++ '.' :: name) else none
  | .int n => some (Decimal.ofInt n)
  | .float x => some (floatToString x)
  | .binary str => some ('"' :: str ++ ['"'])
  | .atom a => if a = "true".toList || a = "false".toList then some a else none
  | .list elems => (formatArgs elems).map fun parts => '[' :: joinSpace parts ++ [']']
  | .tuple _ => none

def formatArgs : List Term → Option (List (List Char))
  | [] => some []
  | t :: ts => do
    let part ← formatArg t
    let parts ← formatArgs ts
    pure (part :: parts)
end

mutual
def format : Rule → Option (List Char)
  | .bool b => some (if b then "true".toList else "false".toList)
  | .op op one other => do
    let one ← formatArg floatToString one
    let other ← formatArg floatToString other
    pure ('(' :: formatOp op ++ ' ' :: one ++ ' ' :: other ++ [')'])
  | .exists_ key => do
    let key ← formatArg floatToString key
    pure ("(exists? ".toList ++ key ++ [')'])
  | .and rules => (formatAll rules).map fun parts => "(and ".toList ++ joinSpace parts ++ [')']
  | .or rules => (formatAll rules).map fun parts => "(or ".toList ++ joinSpace parts ++ [')']
  | .not rule => (format rule).map fun text => "(not ".toList ++ text ++ [')']
  | .if_ condition trueRule falseRule => do
    let condition ← format condition
    let trueRule ← format trueRule
    let falseRule ← format falseRule
    pure ("(if ".toList ++ condition ++ ' ' :: trueRule ++ ' ' :: falseRule ++ [')'])

def formatAll : List Rule → Option (List (List Char))
  | [] => some []
  | rule :: rules => do
    let text ← format rule
    let texts ← formatAll rules
    pure (text :: texts)
end

lemma formatArgs_eq_some : ∀ {terms : List Term} {parts : List (List Char)},
    formatArgs floatToString terms = some parts ↔
      List.Forall₂ (fun t part => formatArg floatToString t = some part) terms parts
  | [], parts => by cases parts <;> simp [formatArgs]
  | t :: ts, parts => by
    cases parts with
    | nil => simp [formatArgs, Option.bind_eq_some_iff]
    | cons part parts =>
      simp [formatArgs, Option.bind_eq_some_iff, formatArgs_eq_some]

lemma formatAll_eq_some : ∀ {rules : List Rule} {texts : List (List Char)},
    formatAll floatToString rules = some texts ↔
      List.Forall₂ (fun r text => format floatToString r = some text) rules texts
  | [], texts => by cases texts <;> simp [formatAll]
  | r :: rs, texts => by
    cases texts with
    | nil => simp [formatAll, Option.bind_eq_some_iff]
    | cons text texts =>
      simp [formatAll, Option.bind_eq_some_iff, formatAll_eq_some]

end Formatter

def format (floatToString : ℚ → List Char) (rule : Rule) : Option (List Char) :=
  Formatter.format floatToString rule

end Ockam.ABAC
