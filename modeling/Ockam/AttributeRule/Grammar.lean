import Ockam.AttributeRule.Rule
import Ockam.Lib.Peg
import Ockam.Lib.Decimal

/-! The grammar `priv/attribute_rule_grammar.peg` that `AttributeRule.parse` runs, as parsing
expressions over the characters of the string, each with the value its action builds. The
recursion of `rule` through the logical rules is given fuel; every nested rule is read after a
`(`, so the length of the string is enough. -/

namespace Ockam.ABAC

open Erlang Peg

namespace Grammar

def eol : Peg Char (List Char) := lit ['\r', '\n'] <|> lit ['\n'] <|> lit ['\r']

def space : Peg Char (List Char) := lit [' '] <|> lit ['\t'] <|> eol

/-- `space*`. -/
def spaces : Peg Char (List (List Char)) := star space

def open_ : Peg Char Unit := do
  let _ ← lit ['(']
  let _ ← spaces
  pure ()

def close : Peg Char Unit := do
  let _ ← lit [')']
  let _ ← spaces
  pure ()

def listOpen : Peg Char Unit := do
  let _ ← lit ['[']
  let _ ← spaces
  pure ()

def listClose : Peg Char Unit := do
  let _ ← lit [']']
  let _ ← spaces
  pure ()

def filter : Peg Char Op := do
  let f ← lit ['='] <|> lit ['<'] <|> lit ['>'] <|> lit ['!', '=']
  let _ ← spaces
  pure (if f = ['='] then .eq else if f = ['!', '='] then .neq else if f = ['>'] then .gt else .lt)

def type : Peg Char (List Char) :=
  lit "action".toList <|> lit "subject".toList <|> lit "resource".toList

/-- `[a-z0-9_]`. -/
def nameChar (c : Char) : Bool := ('a' ≤ c && c ≤ 'z') || c.isDigit || c == '_'

def name : Peg Char (List Char) := plus (satisfy nameChar)

def attribute_ : Peg Char Term := do
  let type ← type
  let _ ← lit ['.']
  let name ← name
  let _ ← spaces
  pure (.tuple [.atom type, .binary name])

/-- A character of a string: an escape is kept as it is written. -/
def stringChar : Peg Char (List Char) := do
  let _ ← notAhead (lit ['"'])
  lit ['\\', '\\'] <|> lit ['\\', '"'] <|> (do let c ← any; pure [c])

def string : Peg Char Term := do
  let _ ← lit ['"']
  let chars ← star stringChar
  let _ ← lit ['"']
  pure (.binary chars.flatten)

def true_ : Peg Char Bool := do
  let _ ← lit "true".toList
  let _ ← spaces
  pure true

def false_ : Peg Char Bool := do
  let _ ← lit "false".toList
  let _ ← spaces
  pure false

def boolean : Peg Char Bool := true_ <|> false_

/-- The atom `true` or `false`. -/
def boolAtom (b : Bool) : Term := .atom (if b then "true".toList else "false".toList)

def digit : Peg Char Char := satisfy Char.isDigit

def nonZeroDigit : Peg Char Char := satisfy fun c => '1' ≤ c && c ≤ '9'

/-- `int <- '-'? (non_zero_digit digit+) / digit`: the sequence binds tighter than the choice, so
a minus sign is read only before two digits or more. -/
def int : Peg Char (List Char) :=
  (do
    let sign ← opt (lit ['-'])
    let d ← nonZeroDigit
    let ds ← plus digit
    pure (sign.getD [] ++ d :: ds)) <|>
  (do
    let d ← digit
    pure [d])

def frac : Peg Char (List Char) := do
  let _ ← lit ['.']
  let ds ← plus digit
  pure ('.' :: ds)

def e : Peg Char (List Char) := do
  let c ← satisfy fun c => c == 'e' || c == 'E'
  let sign ← opt (lit ['+'] <|> lit ['-'])
  pure (c :: sign.getD [])

def exp : Peg Char (List Char) := do
  let marker ← e
  let ds ← plus digit
  pure (marker ++ ds)

/-- `list_to_float` of a literal `-?d+.d+([eE][+-]?d+)?`, as the rational it denotes; its
rounding to a double is not modelled. -/
def listToFloat (text : List Char) : ℚ :=
  let sign : ℚ := if text.head? = some '-' then -1 else 1
  let digits := if text.head? = some '-' then text.tail else text
  let intPart := digits.takeWhile (· != '.')
  let afterDot := (digits.dropWhile (· != '.')).drop 1
  let fracPart := afterDot.takeWhile Char.isDigit
  let expPart := (afterDot.dropWhile Char.isDigit).drop 1
  let expValue : ℤ := Decimal.toInt (if expPart.head? = some '+' then expPart.tail else expPart)
  sign * ((Decimal.ofDigits intPart : ℚ) + (Decimal.ofDigits fracPart : ℚ) / 10 ^ fracPart.length) *
    10 ^ expValue

/-- `number <- int frac? exp?`: an integer when neither part is there, a float otherwise. -/
def number : Peg Char Term := do
  let i ← int
  let f ← opt frac
  let x ← opt exp
  pure (match f, x with
    | none, none => .int (Decimal.toInt i)
    | some f, none => .float (listToFloat (i ++ f))
    | none, some x => .float (listToFloat (i ++ ['.', '0'] ++ x))
    | some f, some x => .float (listToFloat (i ++ f ++ x)))

def value : Peg Char Term := do
  let v ← string <|> (do let b ← boolean; pure (boolAtom b)) <|> number
  let _ ← spaces
  pure v

def valueList : Peg Char Term := do
  let _ ← listOpen
  let values ← star value
  let _ ← listClose
  pure (.list values)

def filterRule : Peg Char Rule := do
  let _ ← open_
  let filter ← filter
  let attr ← attribute_
  let comp ← attribute_ <|> value
  let _ ← close
  pure (.op filter attr comp)

def memberRule : Peg Char Rule := do
  let _ ← open_
  let _ ← lit "member?".toList <|> lit "in".toList
  let _ ← spaces
  let attr ← attribute_ <|> value
  let list ← attribute_ <|> valueList
  let _ ← close
  pure (.op .member attr list)

def existsRule : Peg Char Rule := do
  let _ ← open_
  let _ ← lit "exists?".toList
  let _ ← spaces
  let attr ← attribute_
  let _ ← close
  pure (.exists_ attr)

def and_ : Peg Char (List Rule → Rule) := do
  let _ ← lit "and".toList
  let _ ← spaces
  pure .and

def or_ : Peg Char (List Rule → Rule) := do
  let _ ← lit "or".toList
  let _ ← spaces
  pure .or

def logicalOp : Peg Char (List Rule → Rule) := and_ <|> or_

section Logical

-- the rule the logical rules read their arguments with
variable (rule : Peg Char Rule)

/-- `and` and `or` with two rules or more. -/
def combinationRule : Peg Char Rule := do
  let _ ← open_
  let comb ← logicalOp
  let r ← rule
  let rs ← plus rule
  let _ ← close
  pure (comb (r :: rs))

def notRule : Peg Char Rule := do
  let _ ← open_
  let _ ← lit "not".toList
  let _ ← spaces
  let r ← rule
  let _ ← close
  pure (.not r)

def ifRule : Peg Char Rule := do
  let _ ← open_
  let _ ← lit "if".toList
  let _ ← spaces
  let condRule ← rule
  let trueRule ← rule
  let falseRule ← rule
  let _ ← close
  pure (.if_ condRule trueRule falseRule)

def logicalRule : Peg Char Rule := combinationRule rule <|> notRule rule <|> ifRule rule

end Logical

def rule : ℕ → Peg Char Rule
  | 0 => fail
  | fuel + 1 => do
    let _ ← spaces
    let r ← filterRule <|> memberRule <|> existsRule <|> logicalRule (rule fuel) <|>
      (do let b ← boolean; pure (.bool b))
    let _ ← spaces
    pure r

def comment : Peg Char Unit := do
  let _ ← lit [';', ';']
  let _ ← star any
  pure ()

/-- What `expression` reads: a rule, or a comment. -/
inductive Parsed where
  | rule (r : Rule)
  | comment

def expression (fuel : ℕ) : Peg Char Parsed :=
  (do let r ← rule fuel; pure (.rule r)) <|> (do comment; pure .comment)

end Grammar

/-- `AttributeRule.parse`: the grammar has to read the whole string, and `new` validates the rule.
Where it reads less, or a comment, `new` is given what is not a rule. -/
def parse (string : List Char) : Except RuleError Rule :=
  match Grammar.expression (string.length + 1) string with
  | none => .error (.cannotParseRule string)
  | some (.rule r, []) => new r
  | some _ => .error .invalidParse

end Ockam.ABAC
