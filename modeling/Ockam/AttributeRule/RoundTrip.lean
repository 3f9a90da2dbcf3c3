import Ockam.AttributeRule.Formatter
import Mathlib.Data.List.Forall2

/-! `AttributeRule.format` read back by `AttributeRule.parse`. Each production of the grammar is
read on the text the formatter writes for its value, followed by anything the formatter puts after
it (`Delim`): it gives the value back and stops after the spaces that follow. The text of a
negative integer of one digit is where this fails: `int` reads a minus sign only before two digits
or more. -/

namespace Ockam.ABAC

open Erlang Peg Formatter

/-- A literal that the formatter writes so that the grammar reads it back: a key whose name is of
`[a-z0-9_]+`, a string with no quote and no backslash, an integer that is not a negative digit, or
a boolean. A float is not one: the text `to_string` gives it is not modelled. -/
def readable : Term → Bool
  | .tuple [.atom _, .binary name] => !name.isEmpty && name.all Grammar.nameChar
  | .int n => decide (n < -9 ∨ -1 < n)
  | .float _ => false
  | .binary text => text.all fun c => c != '"' && c != '\\'
  | _ => true

/-- An argument of `{op, one, other}` or of `exists?`: a literal list is one of readable literals. -/
def argReadable : Term → Bool
  | .list elems => elems.all readable
  | t => readable t

mutual
/-- A rule all of whose arguments are `argReadable`. -/
def Rule.readable : Rule → Bool
  | .bool _ => true
  | .op _ one other => argReadable one && argReadable other
  | .exists_ key => argReadable key
  | .and rules => Rule.allReadable rules
  | .or rules => Rule.allReadable rules
  | .not rule => rule.readable
  | .if_ condition trueRule falseRule =>
    condition.readable && trueRule.readable && falseRule.readable

def Rule.allReadable : List Rule → Bool
  | [] => true
  | rule :: rules => rule.readable && Rule.allReadable rules
end

namespace Grammar

/-- What is left once `spaces` has read. -/
def skipSpaces (s : List Char) : List Char := (starList space s).2

/-- A character that begins no `space`. -/
def Solid (c : Char) : Prop := c ≠ ' ' ∧ c ≠ '\t' ∧ c ≠ '\n' ∧ c ≠ '\r'

/-- What the formatter puts after a token: nothing, a space, or a closing bracket. -/
def Delim (rest : List Char) : Prop := ∀ c ∈ rest.head?, c = ' ' ∨ c = ')' ∨ c = ']'

section Spaces

variable {c : Char} {s : List Char}

lemma space_progress : Progress space :=
  (lit_progress (by simp)).orElse <| (lit_progress (by simp)).orElse <|
    (lit_progress (by simp)).orElse <| (lit_progress (by simp)).orElse (lit_progress (by simp))

lemma space_of_solid (h : Solid c) : space (c :: s) = none := by
  obtain ⟨h1, h2, h3, h4⟩ := h
  simp [space, eol, orElse_apply, lit, Ne.symm h1, Ne.symm h2, Ne.symm h3, Ne.symm h4]

@[simp] lemma spaces_apply (s : List Char) :
    spaces s = some ((starList space s).1, skipSpaces s) := rfl

@[simp] lemma skipSpaces_nil : skipSpaces [] = [] := rfl

lemma skipSpaces_of_solid (h : Solid c) : skipSpaces (c :: s) = c :: s := by
  simp [skipSpaces, starList_of_none (space_of_solid h)]

lemma skipSpaces_solid_append {w : List Char} (hw : ∃ c cs, w = c :: cs ∧ Solid c)
    (s : List Char) : skipSpaces (w ++ s) = w ++ s := by
  obtain ⟨c, cs, rfl, hc⟩ := hw
  exact skipSpaces_of_solid hc

@[simp] lemma skipSpaces_space_cons : skipSpaces (' ' :: s) = skipSpaces s := by
  have h : space (' ' :: s) = some ([' '], s) := by simp [space, orElse_apply, lit]
  simp [skipSpaces, starList_of_some h (by simp)]

@[simp] lemma skipSpaces_skipSpaces : skipSpaces (skipSpaces s) = skipSpaces s := by
  unfold skipSpaces
  rw [starList_starList space_progress s]

lemma spaces_bind {β : Type} (k : List (List Char) → Peg Char β) (s : List Char) :
    (spaces >>= k) s = k (starList space s).1 (skipSpaces s) :=
  bind_of_some (spaces_apply s)

end Spaces

section Tokens

variable {c : Char} {s rest : List Char}

lemma nameChar_of_delim (h : Delim rest) : ∀ c ∈ rest.head?, nameChar c = false := by
  intro c hc
  rcases h c hc with rfl | rfl | rfl <;> rfl

lemma isDigit_of_delim (h : Delim rest) : ∀ c ∈ rest.head?, c.isDigit = false := by
  intro c hc
  rcases h c hc with rfl | rfl | rfl <;> rfl

lemma eq_of_isKey {t : Term} (h : isKey t = true) :
    ∃ type name, t = .tuple [.atom type, .binary name] := by
  unfold isKey at h
  split at h
  · exact ⟨_, _, rfl⟩
  · simp at h

lemma type_of_isKey {type name : List Char} (h : isKey (.tuple [.atom type, .binary name]) = true)
    (s : List Char) : Grammar.type (type ++ s) = some (type, s) := by
  simp only [isKey, Bool.or_eq_true, decide_eq_true_eq] at h
  rcases h with (rfl | rfl) | rfl <;> simp [Grammar.type, orElse_apply, lit]

lemma attribute_append {type name : List Char}
    (hk : isKey (.tuple [.atom type, .binary name]) = true) (hn : name ≠ [])
    (hc : ∀ c ∈ name, nameChar c = true) (hrest : Delim rest) :
    attribute_ (type ++ '.' :: (name ++ rest)) =
      some (.tuple [.atom type, .binary name], skipSpaces rest) := by
  simp [attribute_, bind_apply, type_of_isKey hk, lit, Grammar.name,
    plus_satisfy_append (nameChar_of_delim hrest) hn hc]

lemma stringChar_of_plain (h1 : c ≠ '"') (h2 : c ≠ '\\') : stringChar (c :: s) = some ([c], s) := by
  simp [stringChar, bind_apply, orElse_apply, notAhead, lit, Ne.symm h1, Ne.symm h2]

lemma stringChar_quote : stringChar ('"' :: s) = none := by
  simp [stringChar, bind_apply, notAhead, lit]

lemma starList_stringChar :
    ∀ {text : List Char}, (∀ c ∈ text, c ≠ '"' ∧ c ≠ '\\') →
      starList stringChar (text ++ '"' :: s) = (text.map fun c => [c], '"' :: s)
  | [], _ => starList_of_none stringChar_quote
  | c :: text, h => by
    have hc := h c (by simp)
    rw [List.cons_append, starList_of_some (stringChar_of_plain hc.1 hc.2) (by simp),
      starList_stringChar (fun x hx => h x (by simp [hx]))]
    simp

lemma string_append {text : List Char} (h : ∀ c ∈ text, c ≠ '"' ∧ c ≠ '\\') :
    string ('"' :: (text ++ '"' :: s)) = some (.binary text, s) := by
  simp [string, bind_apply, lit, starList_stringChar h, ← List.flatMap_def]

end Tokens

section Numbers

variable {c d : Char} {s rest : List Char}

lemma nonZeroDigit_of_isDigit (hd : d.isDigit = true) (h0 : d ≠ '0') :
    ('1' ≤ d && d ≤ '9') = true := by
  have hd' := Char.isDigit_iff_toNat.mp hd
  have h0' : d.toNat ≠ '0'.toNat := fun h => h0 (Char.toNat_inj.mp h)
  simp only [Bool.and_eq_true, decide_eq_true_eq, Char.le_def, UInt32.le_iff_toNat_le,
    Char.toNat_val]
  simp at hd' h0' ⊢
  omega

lemma frac_of_delim (h : Delim rest) : frac rest = none := by
  cases rest with
  | nil => simp [frac, bind_apply, lit]
  | cons c rest => rcases h c rfl with rfl | rfl | rfl <;> simp [frac, bind_apply, lit]

lemma exp_of_delim (h : Delim rest) : exp rest = none := by
  cases rest with
  | nil => simp [exp, e, bind_apply]
  | cons c rest => rcases h c rfl with rfl | rfl | rfl <;> simp [exp, e, bind_apply, satisfy_cons]

lemma ne_minus_of_isDigit (hd : d.isDigit = true) : d ≠ '-' := by
  rintro rfl
  exact absurd hd (by decide)

lemma int_long {sign : Option (List Char)} (hsign : sign = none ∨ sign = some ['-'])
    (hd : d.isDigit = true) (h0 : d ≠ '0') {ds : List Char} (hne : ds ≠ [])
    (hds : ∀ c ∈ ds, c.isDigit = true) (hrest : Delim rest) :
    int (sign.getD [] ++ d :: (ds ++ rest)) = some (sign.getD [] ++ d :: ds, rest) := by
  have hnz := nonZeroDigit_of_isDigit hd h0
  have hminus := ne_minus_of_isDigit hd
  have hplus := plus_satisfy_append (isDigit_of_delim hrest) hne hds
  rcases hsign with rfl | rfl
  · simp [int, bind_apply, orElse_apply, opt, lit, nonZeroDigit, satisfy_cons, hnz,
      Ne.symm hminus, digit, hplus]
  · simp [int, bind_apply, orElse_apply, opt, lit, nonZeroDigit, satisfy_cons, hnz, digit, hplus]

lemma int_short (hd : d.isDigit = true) (hrest : Delim rest) : int (d :: rest) = some ([d], rest) := by
  have hminus := ne_minus_of_isDigit hd
  have hplus := plus_satisfy_of_head (isDigit_of_delim hrest)
  cases hnz : ('1' ≤ d && d ≤ '9') with
  | true => simp [int, bind_apply, orElse_apply, opt, lit, nonZeroDigit, satisfy_cons, hnz,
      Ne.symm hminus, digit, hplus, hd]
  | false => simp [int, bind_apply, orElse_apply, opt, lit, nonZeroDigit, satisfy_cons, hnz,
      Ne.symm hminus, digit, hd]

lemma int_ofInt {n : ℤ} (hn : n < -9 ∨ -1 < n) (hrest : Delim rest) :
    int (Decimal.ofInt n ++ rest) = some (Decimal.ofInt n, rest) := by
  by_cases hsmall : n.natAbs < 10
  · -- one digit, and so not negative
    have htext : Decimal.ofInt n = [Decimal.digitChar n.natAbs] := by
      rw [Decimal.ofInt, if_neg (by omega), Decimal.toDigits_of_lt hsmall]
    rw [htext]
    exact int_short (Decimal.isDigit_digitChar hsmall) hrest
  · obtain ⟨d, ds, hdig, hd, h0, hne, hds⟩ := Decimal.toDigits_of_le (m := n.natAbs) (by omega)
    have htext : Decimal.ofInt n = (if n < 0 then some ['-'] else none).getD [] ++ d :: ds := by
      unfold Decimal.ofInt
      split_ifs <;> simp [hdig]
    rw [htext, List.append_assoc, List.cons_append]
    exact int_long (by split_ifs <;> simp) hd h0 hne hds hrest

lemma number_ofInt {n : ℤ} (hn : n < -9 ∨ -1 < n) (hrest : Delim rest) :
    number (Decimal.ofInt n ++ rest) = some (.int n, rest) := by
  simp [number, bind_apply, int_ofInt hn hrest, opt, frac_of_delim hrest, exp_of_delim hrest,
    Decimal.toInt_ofInt]

lemma int_minus_digit (hrest : Delim rest) : int ('-' :: d :: rest) = none := by
  have hplus := plus_satisfy_of_head (isDigit_of_delim hrest)
  have hm : Char.isDigit '-' = false := by decide
  cases hnz : ('1' ≤ d && d ≤ '9') with
  | true => simp [int, bind_apply, orElse_apply, opt, lit, nonZeroDigit, satisfy_cons, hnz, digit,
      hplus, hm]
  | false => simp [int, bind_apply, orElse_apply, opt, lit, nonZeroDigit, satisfy_cons, hnz, digit,
      hm]

end Numbers

section Alternatives

/-! What `rule` does, said once: it skips spaces, takes the first of its alternatives that reads,
and skips the spaces after it. Each of the alternatives but `boolean` opens with `(`. -/

variable {c : Char} {s s' : List Char} {m : ℕ} {r : Rule}

lemma open_apply (hs : skipSpaces s = s) : open_ ('(' :: s) = some ((), s) := by
  simp [open_, bind_apply, lit, hs]

lemma open_of_ne (hc : c ≠ '(') : open_ (c :: s) = none := by
  simp [open_, bind_apply, lit, Ne.symm hc]

lemma close_apply (s : List Char) : close (')' :: s) = some ((), skipSpaces s) := by
  simp [close, bind_apply, lit]

lemma rule_succ_eq (s : List Char) :
    rule (m + 1) s =
      ((filterRule <|> memberRule <|> existsRule <|> logicalRule (rule m) <|>
          (do let b ← boolean; pure (.bool b))) (skipSpaces s)).bind
        fun r => some (r.1, skipSpaces r.2) := by
  simp only [rule, bind_apply, spaces_apply, pure_apply, Option.bind_some]

lemma rule_succ_of_filterRule (hs : skipSpaces s = s) (h : filterRule s = some (r, s')) :
    rule (m + 1) s = some (r, skipSpaces s') := by
  simp [rule_succ_eq, hs, orElse_apply, h]

lemma rule_succ_of_memberRule (hs : skipSpaces s = s) (h1 : filterRule s = none)
    (h : memberRule s = some (r, s')) : rule (m + 1) s = some (r, skipSpaces s') := by
  simp [rule_succ_eq, hs, orElse_apply, h1, h]

lemma rule_succ_of_existsRule (hs : skipSpaces s = s) (h1 : filterRule s = none)
    (h2 : memberRule s = none) (h : existsRule s = some (r, s')) :
    rule (m + 1) s = some (r, skipSpaces s') := by
  simp [rule_succ_eq, hs, orElse_apply, h1, h2, h]

lemma rule_succ_of_logicalRule (hs : skipSpaces s = s) (h1 : filterRule s = none)
    (h2 : memberRule s = none) (h3 : existsRule s = none)
    (h : logicalRule (rule m) s = some (r, s')) : rule (m + 1) s = some (r, skipSpaces s') := by
  simp [rule_succ_eq, hs, orElse_apply, h1, h2, h3, h]

lemma rule_succ_of_boolean {b : Bool} (hs : skipSpaces s = s) (h1 : filterRule s = none)
    (h2 : memberRule s = none) (h3 : existsRule s = none) (h4 : logicalRule (rule m) s = none)
    (h : boolean s = some (b, s')) : rule (m + 1) s = some (.bool b, skipSpaces s') := by
  simp [rule_succ_eq, hs, orElse_apply, h1, h2, h3, h4, bind_apply, h]

lemma rule_succ_of_none (hs : skipSpaces s = s) (h1 : filterRule s = none)
    (h2 : memberRule s = none) (h3 : existsRule s = none) (h4 : logicalRule (rule m) s = none)
    (h5 : boolean s = none) : rule (m + 1) s = none := by
  simp [rule_succ_eq, hs, orElse_apply, h1, h2, h3, h4, bind_apply, h5]

end Alternatives

/-- `p` reads `v` back from `text` followed by anything the formatter puts after a token, and
`text` starts with a character that is not a space. -/
structure ReadsBack {α : Type} (p : Peg Char α) (v : α) (text : List Char) : Prop where
  head : ∃ c cs, text = c :: cs ∧ Solid c
  reads : ∀ rest, Delim rest → p (text ++ rest) = some (v, skipSpaces rest)

namespace ReadsBack

variable {α : Type} {p q : Peg Char α} {v : α} {text : List Char}

lemma skipSpaces_append (h : ReadsBack p v text) (rest : List Char) :
    skipSpaces (text ++ rest) = text ++ rest :=
  skipSpaces_solid_append h.head rest

lemma length_lt (h : ReadsBack p v text) (rest : List Char) :
    rest.length < (text ++ rest).length := by
  obtain ⟨c, cs, rfl, -⟩ := h.head
  simp

lemma read_space (h : ReadsBack p v text) {next : List Char} (hnext : skipSpaces next = next) :
    p (text ++ ' ' :: next) = some (v, next) := by
  rw [h.reads _ (by simp [Delim]), skipSpaces_space_cons, hnext]

lemma read_close (h : ReadsBack p v text) {c : Char} (hc : c = ')' ∨ c = ']') (rest : List Char) :
    p (text ++ c :: rest) = some (v, c :: rest) := by
  have hsolid : Solid c := by rcases hc with rfl | rfl <;> simp [Solid]
  rw [h.reads _ (by simp [Delim, hc]), skipSpaces_of_solid hsolid]

lemma orElse_left (h : ReadsBack p v text) : ReadsBack (p <|> q) v text :=
  ⟨h.head, fun rest hrest => orElse_of_some (h.reads rest hrest)⟩

lemma orElse_right (hp : ∀ rest, p (text ++ rest) = none) (h : ReadsBack q v text) :
    ReadsBack (p <|> q) v text :=
  ⟨h.head, fun rest hrest => by rw [orElse_of_none (hp rest), h.reads rest hrest]⟩

end ReadsBack

section Lists

variable {α : Type} {p : Peg Char α} {c : Char} {rest : List Char}

lemma joinSpace_skipSpaces {v : α} {vs : List α} {text : List Char} {texts : List (List Char)}
    (h : List.Forall₂ (ReadsBack p) (v :: vs) (text :: texts)) (rest : List Char) :
    skipSpaces (joinSpace (text :: texts) ++ rest) = joinSpace (text :: texts) ++ rest := by
  obtain ⟨tail, htail⟩ := joinSpace_cons text texts
  rw [htail, List.append_assoc, (List.forall₂_cons.mp h).1.skipSpaces_append]

lemma starList_joinSpace (hc : c = ')' ∨ c = ']') (hfail : p (c :: rest) = none) :
    ∀ {vs : List α} {texts : List (List Char)}, List.Forall₂ (ReadsBack p) vs texts →
      starList p (joinSpace texts ++ c :: rest) = (vs, c :: rest)
  | [], [], .nil => starList_of_none hfail
  | [_], [text], .cons h .nil => by
    rw [joinSpace_singleton, starList_of_some (h.read_close hc rest) (h.length_lt _),
      starList_of_none hfail]
  | _ :: _ :: _, text :: text' :: texts, .cons h (.cons h' hs) => by
    rw [joinSpace_cons_cons, List.append_assoc, List.cons_append,
      starList_of_some (h.read_space (joinSpace_skipSpaces (.cons h' hs) _)) (by simp; omega),
      starList_joinSpace hc hfail (.cons h' hs)]

lemma plus_joinSpace (hc : c = ')' ∨ c = ']') (hfail : p (c :: rest) = none) {v : α}
    {vs : List α} {text : List Char} {texts : List (List Char)}
    (h : List.Forall₂ (ReadsBack p) (v :: vs) (text :: texts)) :
    plus p (joinSpace (text :: texts) ++ c :: rest) = some (v :: vs, c :: rest) := by
  obtain ⟨hv, hvs⟩ := List.forall₂_cons.mp h
  cases hvs with
  | nil => rw [joinSpace_singleton, plus_of_some (hv.read_close hc rest), starList_of_none hfail]
  | cons h' hs =>
    rw [joinSpace_cons_cons, List.append_assoc, List.cons_append,
      plus_of_some (hv.read_space (joinSpace_skipSpaces (.cons h' hs) _)),
      starList_joinSpace hc hfail (.cons h' hs)]

end Lists

section Values

variable {f : ℚ → List Char} {c : Char} {s rest text : List Char} {t : Term}

lemma string_of_head (h : c ≠ '"') : string (c :: s) = none := by
  simp [string, bind_apply, lit, Ne.symm h]

lemma boolean_of_head (ht : c ≠ 't') (hf : c ≠ 'f') : boolean (c :: s) = none := by
  simp [boolean, true_, false_, orElse_apply, bind_apply, lit, Ne.symm ht, Ne.symm hf]

lemma attribute_of_head (ha : c ≠ 'a') (hs : c ≠ 's') (hr : c ≠ 'r') :
    attribute_ (c :: s) = none := by
  simp [attribute_, Grammar.type, bind_apply, orElse_apply, lit, Ne.symm ha, Ne.symm hs,
    Ne.symm hr]

lemma numeral_head (hc : c = '-' ∨ c.isDigit = true) :
    c ≠ '"' ∧ c ≠ 't' ∧ c ≠ 'f' ∧ c ≠ 'a' ∧ c ≠ 's' ∧ c ≠ 'r' ∧ Solid c := by
  rcases hc with rfl | hc
  · simp [Solid]
  · have hne : ∀ d : Char, d.isDigit = false → c ≠ d := fun d hd h => by simp_all
    exact ⟨hne _ (by decide), hne _ (by decide), hne _ (by decide), hne _ (by decide),
      hne _ (by decide), hne _ (by decide), hne _ (by decide), hne _ (by decide),
      hne _ (by decide), hne _ (by decide)⟩

lemma formatArg_value_head (hv : isValue t = true) (hr : readable t = true)
    (hf : formatArg f t = some text) :
    ∃ c cs, text = c :: cs ∧ c ≠ 'a' ∧ c ≠ 's' ∧ c ≠ 'r' ∧ Solid c := by
  cases t with
  | int n =>
    obtain ⟨c, cs, hcs, hc⟩ := Decimal.ofInt_eq_cons n
    obtain ⟨-, -, -, ha, hs, hr, hsolid⟩ := numeral_head hc
    simp only [formatArg, Option.some.injEq] at hf
    exact ⟨c, cs, hf ▸ hcs, ha, hs, hr, hsolid⟩
  | binary str =>
    simp only [formatArg, Option.some.injEq] at hf
    exact ⟨'"', _, hf.symm, by simp [Solid]⟩
  | atom a =>
    simp only [isValue, Bool.or_eq_true, decide_eq_true_eq] at hv
    rcases hv with rfl | rfl <;> simp [formatArg] at hf <;> exact ⟨_, _, hf.symm, by simp [Solid]⟩
  | float x => simp [readable] at hr
  | tuple _ | list _ => simp [isValue] at hv

lemma value_ofInt {n : ℤ} (hn : n < -9 ∨ -1 < n) (hrest : Delim rest) :
    value (Decimal.ofInt n ++ rest) = some (.int n, skipSpaces rest) := by
  have hnum := number_ofInt hn hrest
  obtain ⟨c, cs, hcs, hc⟩ := Decimal.ofInt_eq_cons n
  obtain ⟨hq, ht, hf, -⟩ := numeral_head hc
  rw [hcs, List.cons_append] at hnum ⊢
  simp [value, bind_apply, orElse_apply, string_of_head hq, boolean_of_head ht hf, hnum]

lemma value_string {str : List Char} (h : ∀ c ∈ str, c ≠ '"' ∧ c ≠ '\\') (rest : List Char) :
    value ('"' :: (str ++ '"' :: rest)) = some (.binary str, skipSpaces rest) := by
  simp [value, bind_apply, orElse_apply, string_append h]

lemma value_true (rest : List Char) :
    value ("true".toList ++ rest) = some (.atom "true".toList, skipSpaces rest) := by
  simp [value, bind_apply, orElse_apply, string, boolean, true_, lit, boolAtom]

lemma value_false (rest : List Char) :
    value ("false".toList ++ rest) = some (.atom "false".toList, skipSpaces rest) := by
  simp [value, bind_apply, orElse_apply, string, boolean, true_, false_, lit, boolAtom]

lemma readsBack_value (hv : isValue t = true) (hr : readable t = true)
    (hf : formatArg f t = some text) : ReadsBack value t text := by
  obtain ⟨c, cs, hcs, -, -, -, hsolid⟩ := formatArg_value_head hv hr hf
  refine ⟨⟨c, cs, hcs, hsolid⟩, fun rest hrest => ?_⟩
  cases t with
  | int n =>
    simp only [formatArg, Option.some.injEq] at hf
    subst hf
    exact value_ofInt (by simpa [readable] using hr) hrest
  | binary str =>
    simp only [formatArg, Option.some.injEq] at hf
    subst hf
    simp only [readable, List.all_eq_true, Bool.and_eq_true, bne_iff_ne, ne_eq] at hr
    simpa using value_string hr rest
  | atom a =>
    simp only [isValue, Bool.or_eq_true, decide_eq_true_eq] at hv
    rcases hv with rfl | rfl <;> simp [formatArg] at hf <;> subst hf
    · exact value_true rest
    · exact value_false rest
  | float x => simp [readable] at hr
  | tuple _ | list _ => simp [isValue] at hv

lemma readsBack_key (hk : isKey t = true) (hr : readable t = true)
    (hf : formatArg f t = some text) : ReadsBack attribute_ t text := by
  obtain ⟨type, name, rfl⟩ := eq_of_isKey hk
  simp only [formatArg, hk, if_true, Option.some.injEq] at hf
  subst hf
  simp only [readable, Bool.and_eq_true, Bool.not_eq_true', List.isEmpty_eq_false_iff,
    List.all_eq_true] at hr
  refine ⟨?_, fun rest hrest => by simpa using attribute_append hk hr.1 hr.2 hrest⟩
  have htype := hk
  simp only [isKey, Bool.or_eq_true, decide_eq_true_eq] at htype
  rcases htype with (rfl | rfl) | rfl
  · exact ⟨'r', "esource".toList ++ '.' :: name, by simp, by simp [Solid]⟩
  · exact ⟨'a', "ction".toList ++ '.' :: name, by simp, by simp [Solid]⟩
  · exact ⟨'s', "ubject".toList ++ '.' :: name, by simp, by simp [Solid]⟩

lemma readsBack_arg (h : isKey t = true ∨ isValue t = true) (hr : readable t = true)
    (hf : formatArg f t = some text) : ReadsBack (attribute_ <|> value) t text := by
  rcases h with hk | hv
  · exact (readsBack_key hk hr hf).orElse_left
  · obtain ⟨c, cs, rfl, ha, hs, hr', -⟩ := formatArg_value_head hv hr hf
    exact (readsBack_value hv hr hf).orElse_right fun rest => attribute_of_head ha hs hr'

lemma value_close_bracket : value (']' :: s) = none := by
  have hnum : number (']' :: s) = none := by
    simp [number, int, bind_apply, orElse_apply, opt, lit, nonZeroDigit, digit, satisfy_cons]
  simp [value, bind_apply, orElse_apply, string_of_head, boolean_of_head, hnum]

lemma readsBack_valueList {elems : List Term} {texts : List (List Char)}
    (h : List.Forall₂ (ReadsBack value) elems texts) :
    ReadsBack valueList (.list elems) ('[' :: joinSpace texts ++ [']']) := by
  refine ⟨⟨'[', _, rfl, by simp [Solid]⟩, fun rest hrest => ?_⟩
  have hskip : skipSpaces (joinSpace texts ++ ']' :: rest) = joinSpace texts ++ ']' :: rest := by
    cases h with
    | nil => exact skipSpaces_of_solid (by simp [Solid])
    | cons h hs => exact joinSpace_skipSpaces (.cons h hs) _
  have hstar := starList_joinSpace (Or.inr rfl) (value_close_bracket (s := rest)) h
  simp [valueList, listOpen, listClose, bind_apply, lit, hskip, hstar]

lemma readsBack_listArg (h : isKey t = true ∨ ∃ elems, t = .list elems ∧ elems.all isValue = true)
    (hr : argReadable t = true) (hf : formatArg f t = some text) :
    ReadsBack (attribute_ <|> valueList) t text := by
  rcases h with hk | ⟨elems, rfl, hvs⟩
  · obtain ⟨type, name, rfl⟩ := eq_of_isKey hk
    exact (readsBack_key hk (by simpa [argReadable] using hr) hf).orElse_left
  · simp only [formatArg, Option.map_eq_some_iff] at hf
    obtain ⟨parts, hparts, rfl⟩ := hf
    have hall : ∀ t ∈ elems, isValue t = true ∧ readable t = true := fun t ht =>
      ⟨List.all_eq_true.mp hvs t ht, List.all_eq_true.mp (by simpa [argReadable] using hr) t ht⟩
    have hread : List.Forall₂ (ReadsBack value) elems parts :=
      ((List.forall₂_and_left _ _).mpr ⟨hall, (formatArgs_eq_some f).mp hparts⟩).imp
        fun t _ h => readsBack_value h.1.1 h.1.2 h.2
    exact (readsBack_valueList hread).orElse_right fun rest => attribute_of_head
      (by decide) (by decide) (by decide)

end Values

section Failures

/-! Each alternative of `rule` that opens with `(` fails on what the formatter writes after the `(`
of another kind of rule, and all of them fail where there is no `(`. -/

variable {c : Char} {s : List Char} {q : Peg Char Rule}

lemma filterRule_of_head (hc : Solid c) (h : c ≠ '=' ∧ c ≠ '<' ∧ c ≠ '>' ∧ c ≠ '!') :
    filterRule ('(' :: c :: s) = none := by
  obtain ⟨h1, h2, h3, h4⟩ := h
  have hf : filter (c :: s) = none := by
    simp [filter, bind_apply, orElse_apply, lit, Ne.symm h1, Ne.symm h2, Ne.symm h3, Ne.symm h4]
  rw [filterRule, bind_of_some (open_apply (skipSpaces_of_solid hc)), bind_of_none hf]

lemma memberRule_of_mismatch (hc : Solid c) (hm : ¬ "member?".toList <+: c :: s)
    (hi : ¬ "in".toList <+: c :: s) : memberRule ('(' :: c :: s) = none := by
  have hk : (lit "member?".toList <|> lit "in".toList) (c :: s) = none := by
    rw [orElse_of_none (lit_of_mismatch hm), lit_of_mismatch hi]
  rw [memberRule, bind_of_some (open_apply (skipSpaces_of_solid hc)), bind_of_none hk]

lemma existsRule_of_mismatch (hc : Solid c) (he : ¬ "exists?".toList <+: c :: s) :
    existsRule ('(' :: c :: s) = none := by
  rw [existsRule, bind_of_some (open_apply (skipSpaces_of_solid hc)), bind_of_none (lit_of_mismatch he)]

lemma combinationRule_of_mismatch (hc : Solid c) (ha : ¬ "and".toList <+: c :: s)
    (ho : ¬ "or".toList <+: c :: s) : combinationRule q ('(' :: c :: s) = none := by
  have hand : and_ (c :: s) = none := by rw [and_, bind_of_none (lit_of_mismatch ha)]
  have hor : or_ (c :: s) = none := by rw [or_, bind_of_none (lit_of_mismatch ho)]
  have hop : logicalOp (c :: s) = none := by rw [logicalOp, orElse_of_none hand, hor]
  rw [combinationRule, bind_of_some (open_apply (skipSpaces_of_solid hc)), bind_of_none hop]

lemma notRule_of_mismatch (hc : Solid c) (hn : ¬ "not".toList <+: c :: s) :
    notRule q ('(' :: c :: s) = none := by
  rw [notRule, bind_of_some (open_apply (skipSpaces_of_solid hc)),
    bind_of_none (lit_of_mismatch hn)]

lemma logicalRule_of_mismatch (hc : Solid c) (ha : ¬ "and".toList <+: c :: s)
    (ho : ¬ "or".toList <+: c :: s) (hn : ¬ "not".toList <+: c :: s)
    (hi : ¬ "if".toList <+: c :: s) : logicalRule q ('(' :: c :: s) = none := by
  have hif : ifRule q ('(' :: c :: s) = none := by
    rw [ifRule, bind_of_some (open_apply (skipSpaces_of_solid hc)),
      bind_of_none (lit_of_mismatch hi)]
  rw [logicalRule, orElse_of_none (combinationRule_of_mismatch hc ha ho),
    orElse_of_none (notRule_of_mismatch hc hn), hif]

lemma parenRules_of_ne (hc : c ≠ '(') :
    filterRule (c :: s) = none ∧ memberRule (c :: s) = none ∧ existsRule (c :: s) = none ∧
      logicalRule q (c :: s) = none := by
  have hopen := open_of_ne (s := s) hc
  refine ⟨by rw [filterRule, bind_of_none hopen], by rw [memberRule, bind_of_none hopen],
    by rw [existsRule, bind_of_none hopen], ?_⟩
  rw [logicalRule, orElse_of_none (by rw [combinationRule, bind_of_none hopen]),
    orElse_of_none (by rw [notRule, bind_of_none hopen]), ifRule, bind_of_none hopen]

lemma rule_close (m : ℕ) (s : List Char) : rule m (')' :: s) = none := by
  cases m with
  | zero => rfl
  | succ m =>
    obtain ⟨h1, h2, h3, h4⟩ := parenRules_of_ne (c := ')') (q := rule m) (s := s) (by decide)
    exact rule_succ_of_none (skipSpaces_of_solid (by simp [Solid])) h1 h2 h3 h4
      (boolean_of_head (by decide) (by decide))

end Failures

section Reading

/-! Each alternative of `rule` reads the text the formatter writes for its kind of rule, given
that the parts of the rule are read back. -/

variable {q : Peg Char Rule} {rest t t1 t2 t3 : List Char} {one other : Term}

lemma filter_apply {op : Op} (hop : op.isFilter = true) {x : List Char} (hx : skipSpaces x = x) :
    filter (formatOp op ++ ' ' :: x) = some (op, x) := by
  cases op <;> simp [Op.isFilter] at hop <;> simp [filter, bind_apply, orElse_apply, lit, hx]

lemma formatOp_head (op : Op) : ∃ c cs, formatOp op = c :: cs ∧ Solid c := by
  cases op <;> simp [Solid]

lemma filterRule_reads {op : Op} (hop : op.isFilter = true) (hone : ReadsBack attribute_ one t1)
    (hother : ReadsBack (attribute_ <|> value) other t2) (rest : List Char) :
    filterRule ('(' :: (formatOp op ++ ' ' :: (t1 ++ ' ' :: (t2 ++ ')' :: rest)))) =
      some (.op op one other, skipSpaces rest) := by
  rw [filterRule, bind_of_some (open_apply (skipSpaces_solid_append (formatOp_head op) _)),
    bind_of_some (filter_apply hop (hone.skipSpaces_append _)),
    bind_of_some (hone.read_space (hother.skipSpaces_append _)),
    bind_of_some (hother.read_close (Or.inl rfl) rest), bind_of_some (close_apply rest)]
  rfl

lemma memberRule_reads (hone : ReadsBack (attribute_ <|> value) one t1)
    (hother : ReadsBack (attribute_ <|> valueList) other t2) (rest : List Char) :
    memberRule ('(' :: ("member?".toList ++ ' ' :: (t1 ++ ' ' :: (t2 ++ ')' :: rest)))) =
      some (.op .member one other, skipSpaces rest) := by
  have hword : (lit "member?".toList <|> lit "in".toList)
      ("member?".toList ++ ' ' :: (t1 ++ ' ' :: (t2 ++ ')' :: rest))) =
        some ("member?".toList, ' ' :: (t1 ++ ' ' :: (t2 ++ ')' :: rest))) :=
    orElse_of_some (lit_append _ _)
  have hhead : ∃ c cs, "member?".toList = c :: cs ∧ Solid c := formatOp_head .member
  rw [memberRule, bind_of_some (open_apply (skipSpaces_solid_append hhead _)),
    bind_of_some hword, spaces_bind, skipSpaces_space_cons, hone.skipSpaces_append,
    bind_of_some (hone.read_space (hother.skipSpaces_append _)),
    bind_of_some (hother.read_close (Or.inl rfl) rest), bind_of_some (close_apply rest)]
  rfl

lemma existsRule_reads (hkey : ReadsBack attribute_ one t) (rest : List Char) :
    existsRule ('(' :: ("exists?".toList ++ ' ' :: (t ++ ')' :: rest))) =
      some (.exists_ one, skipSpaces rest) := by
  have hword : ∃ c cs, "exists?".toList = c :: cs ∧ Solid c :=
    ⟨'e', "xists?".toList, by simp, by simp [Solid]⟩
  rw [existsRule, bind_of_some (open_apply (skipSpaces_solid_append hword _)),
    bind_of_some (lit_append _ _), spaces_bind, skipSpaces_space_cons, hkey.skipSpaces_append,
    bind_of_some (hkey.read_close (Or.inl rfl) rest), bind_of_some (close_apply rest)]
  rfl

lemma combinationRule_reads {comb : List Rule → Rule} {word : List Char}
    (hword : ∃ c cs, word = c :: cs ∧ Solid c)
    (hop : ∀ x, logicalOp (word ++ x) = some (comb, skipSpaces x)) {r r' : Rule}
    {rs : List Rule} {t' : List Char} {ts : List (List Char)}
    (h : List.Forall₂ (ReadsBack q) (r :: r' :: rs) (t :: t' :: ts))
    (hfail : q (')' :: rest) = none) :
    combinationRule q ('(' :: (word ++ ' ' :: (joinSpace (t :: t' :: ts) ++ ')' :: rest))) =
      some (comb (r :: r' :: rs), skipSpaces rest) := by
  obtain ⟨hr, hrs⟩ := List.forall₂_cons.mp h
  rw [combinationRule, bind_of_some (open_apply (skipSpaces_solid_append hword _)),
    bind_of_some (hop _), skipSpaces_space_cons, joinSpace_skipSpaces h, joinSpace_cons_cons,
    List.append_assoc, List.cons_append,
    bind_of_some (hr.read_space (joinSpace_skipSpaces hrs _)),
    bind_of_some (plus_joinSpace (Or.inl rfl) hfail hrs), bind_of_some (close_apply rest)]
  rfl

lemma logicalOp_and (x : List Char) : logicalOp ("and".toList ++ x) = some (.and, skipSpaces x) := by
  rw [logicalOp, orElse_of_some]
  rw [and_, bind_of_some (lit_append _ _), spaces_bind]
  rfl

lemma logicalOp_or (x : List Char) : logicalOp ("or".toList ++ x) = some (.or, skipSpaces x) := by
  have hand : and_ ("or".toList ++ x) = none := by
    rw [and_, bind_of_none (lit_of_mismatch (by simp))]
  rw [logicalOp, orElse_of_none hand, or_, bind_of_some (lit_append _ _), spaces_bind]
  rfl

lemma notRule_reads {r : Rule} (h : ReadsBack q r t) (rest : List Char) :
    notRule q ('(' :: ("not".toList ++ ' ' :: (t ++ ')' :: rest))) =
      some (.not r, skipSpaces rest) := by
  have hword : ∃ c cs, "not".toList = c :: cs ∧ Solid c :=
    ⟨'n', "ot".toList, by simp, by simp [Solid]⟩
  rw [notRule, bind_of_some (open_apply (skipSpaces_solid_append hword _)),
    bind_of_some (lit_append _ _), spaces_bind, skipSpaces_space_cons, h.skipSpaces_append,
    bind_of_some (h.read_close (Or.inl rfl) rest), bind_of_some (close_apply rest)]
  rfl

lemma ifRule_reads {r1 r2 r3 : Rule} (h1 : ReadsBack q r1 t1) (h2 : ReadsBack q r2 t2)
    (h3 : ReadsBack q r3 t3) (rest : List Char) :
    ifRule q ('(' :: ("if".toList ++ ' ' :: (t1 ++ ' ' :: (t2 ++ ' ' :: (t3 ++ ')' :: rest))))) =
      some (.if_ r1 r2 r3, skipSpaces rest) := by
  have hword : ∃ c cs, "if".toList = c :: cs ∧ Solid c := ⟨'i', "f".toList, by simp, by simp [Solid]⟩
  rw [ifRule, bind_of_some (open_apply (skipSpaces_solid_append hword _)),
    bind_of_some (lit_append _ _), spaces_bind, skipSpaces_space_cons, h1.skipSpaces_append,
    bind_of_some (h1.read_space (h2.skipSpaces_append _)),
    bind_of_some (h2.read_space (h3.skipSpaces_append _)),
    bind_of_some (h3.read_close (Or.inl rfl) rest), bind_of_some (close_apply rest)]
  rfl

lemma logicalRule_combination {comb : List Rule → Rule} {word : List Char}
    (hword : ∃ c cs, word = c :: cs ∧ Solid c)
    (hop : ∀ x, logicalOp (word ++ x) = some (comb, skipSpaces x)) {r r' : Rule}
    {rs : List Rule} {t' : List Char} {ts : List (List Char)}
    (h : List.Forall₂ (ReadsBack q) (r :: r' :: rs) (t :: t' :: ts))
    (hfail : q (')' :: rest) = none) :
    logicalRule q ('(' :: (word ++ ' ' :: (joinSpace (t :: t' :: ts) ++ ')' :: rest))) =
      some (comb (r :: r' :: rs), skipSpaces rest) :=
  orElse_of_some (combinationRule_reads hword hop h hfail)

lemma logicalRule_not {r : Rule} (h : ReadsBack q r t) (rest : List Char) :
    logicalRule q ('(' :: ("not".toList ++ ' ' :: (t ++ ')' :: rest))) =
      some (.not r, skipSpaces rest) := by
  have hcomb : combinationRule q ('(' :: ("not".toList ++ ' ' :: (t ++ ')' :: rest))) = none := by
    simp only [String.reduceToList, List.cons_append, List.nil_append]
    exact combinationRule_of_mismatch (by simp [Solid]) (by simp) (by simp)
  rw [logicalRule, orElse_of_none hcomb, orElse_of_some (notRule_reads h rest)]

lemma logicalRule_if {r1 r2 r3 : Rule} (h1 : ReadsBack q r1 t1) (h2 : ReadsBack q r2 t2)
    (h3 : ReadsBack q r3 t3) (rest : List Char) :
    logicalRule q ('(' :: ("if".toList ++ ' ' :: (t1 ++ ' ' :: (t2 ++ ' ' :: (t3 ++ ')' :: rest))))) =
      some (.if_ r1 r2 r3, skipSpaces rest) := by
  have htext : "if".toList ++ ' ' :: (t1 ++ ' ' :: (t2 ++ ' ' :: (t3 ++ ')' :: rest))) =
      'i' :: 'f' :: ' ' :: (t1 ++ ' ' :: (t2 ++ ' ' :: (t3 ++ ')' :: rest))) := by simp
  have hcomb : combinationRule q ('(' :: ("if".toList ++ ' ' :: (t1 ++ ' ' :: (t2 ++ ' ' ::
      (t3 ++ ')' :: rest))))) = none := by
    rw [htext]
    exact combinationRule_of_mismatch (by simp [Solid]) (by simp) (by simp)
  have hnot : notRule q ('(' :: ("if".toList ++ ' ' :: (t1 ++ ' ' :: (t2 ++ ' ' ::
      (t3 ++ ')' :: rest))))) = none := by
    rw [htext]
    exact notRule_of_mismatch (by simp [Solid]) (by simp)
  rw [logicalRule, orElse_of_none hcomb, orElse_of_none hnot, ifRule_reads h1 h2 h3 rest]

end Reading

section Rules

/-! `rule` reads back each kind of rule from the text the formatter writes for it, once its parts
are read back by `rule` with one round of fuel less. -/

variable {m : ℕ} {t t1 t2 t3 : List Char} {one other : Term}

lemma readsBack_rule_bool (b : Bool) :
    ReadsBack (rule (m + 1)) (.bool b) (if b then "true".toList else "false".toList) := by
  obtain ⟨c, cs, htext, hc, hparen⟩ : ∃ c cs,
      (if b then "true".toList else "false".toList) = c :: cs ∧ Solid c ∧ c ≠ '(' := by
    cases b <;> simp [Solid]
  refine ⟨⟨c, cs, htext, hc⟩, fun rest _ => ?_⟩
  have hb : boolean ((if b then "true".toList else "false".toList) ++ rest) =
      some (b, skipSpaces rest) := by
    cases b <;> simp [boolean, true_, false_, orElse_apply, bind_apply, lit]
  rw [htext, List.cons_append] at hb ⊢
  obtain ⟨h1, h2, h3, h4⟩ := parenRules_of_ne (q := rule m) (s := cs ++ rest) hparen
  rw [rule_succ_of_boolean (skipSpaces_of_solid hc) h1 h2 h3 h4 hb, skipSpaces_skipSpaces]

lemma readsBack_rule_filter {op : Op} (hop : op.isFilter = true)
    (hone : ReadsBack attribute_ one t1) (hother : ReadsBack (attribute_ <|> value) other t2) :
    ReadsBack (rule (m + 1)) (.op op one other)
      ('(' :: formatOp op ++ ' ' :: t1 ++ ' ' :: t2 ++ [')']) := by
  refine ⟨⟨'(', _, rfl, by simp [Solid]⟩, fun rest _ => ?_⟩
  simp only [List.cons_append, List.append_assoc, List.nil_append]
  rw [rule_succ_of_filterRule (skipSpaces_of_solid (by simp [Solid]))
    (filterRule_reads hop hone hother rest), skipSpaces_skipSpaces]

lemma readsBack_rule_member (hone : ReadsBack (attribute_ <|> value) one t1)
    (hother : ReadsBack (attribute_ <|> valueList) other t2) :
    ReadsBack (rule (m + 1)) (.op .member one other)
      ('(' :: formatOp .member ++ ' ' :: t1 ++ ' ' :: t2 ++ [')']) := by
  refine ⟨⟨'(', _, rfl, by simp [Solid]⟩, fun rest _ => ?_⟩
  have hread := memberRule_reads hone hother rest
  simp only [formatOp_member, String.reduceToList, List.cons_append, List.append_assoc,
    List.nil_append] at hread ⊢
  rw [rule_succ_of_memberRule (skipSpaces_of_solid (by simp [Solid]))
    (filterRule_of_head (by simp [Solid]) (by decide)) hread, skipSpaces_skipSpaces]

lemma readsBack_rule_exists (hkey : ReadsBack attribute_ one t) :
    ReadsBack (rule (m + 1)) (.exists_ one) ("(exists? ".toList ++ t ++ [')']) := by
  refine ⟨⟨'(', "exists? ".toList ++ t ++ [')'], by simp, by simp [Solid]⟩, fun rest _ => ?_⟩
  have hread := existsRule_reads hkey rest
  simp only [String.reduceToList, List.cons_append, List.append_assoc, List.nil_append]
    at hread ⊢
  rw [rule_succ_of_existsRule (skipSpaces_of_solid (by simp [Solid]))
    (filterRule_of_head (by simp [Solid]) (by decide))
    (memberRule_of_mismatch (by simp [Solid]) (by simp) (by simp)) hread, skipSpaces_skipSpaces]

lemma rule_succ_of_logical {c : Char} {s s' : List Char} {r : Rule} (hc : Solid c)
    (hf : c ≠ '=' ∧ c ≠ '<' ∧ c ≠ '>' ∧ c ≠ '!') (hm : ¬ "member?".toList <+: c :: s)
    (hi : ¬ "in".toList <+: c :: s) (he : ¬ "exists?".toList <+: c :: s)
    (h : logicalRule (rule m) ('(' :: c :: s) = some (r, s')) :
    rule (m + 1) ('(' :: c :: s) = some (r, skipSpaces s') :=
  rule_succ_of_logicalRule (skipSpaces_of_solid (by simp [Solid])) (filterRule_of_head hc hf)
    (memberRule_of_mismatch hc hm hi) (existsRule_of_mismatch hc he) h

lemma readsBack_rule_and {r r' : Rule} {rs : List Rule} {t' : List Char}
    {ts : List (List Char)} (h : List.Forall₂ (ReadsBack (rule m)) (r :: r' :: rs) (t :: t' :: ts)) :
    ReadsBack (rule (m + 1)) (.and (r :: r' :: rs))
      ("(and ".toList ++ joinSpace (t :: t' :: ts) ++ [')']) := by
  refine ⟨⟨'(', "and ".toList ++ joinSpace (t :: t' :: ts) ++ [')'], by simp, by simp [Solid]⟩,
    fun rest _ => ?_⟩
  have hread := logicalRule_combination ⟨'a', "nd".toList, by simp, by simp [Solid]⟩
    logicalOp_and h (rule_close m rest)
  simp only [String.reduceToList, List.cons_append, List.append_assoc, List.nil_append]
    at hread ⊢
  rw [rule_succ_of_logical (by simp [Solid]) (by decide) (by simp) (by simp) (by simp) hread,
    skipSpaces_skipSpaces]

lemma readsBack_rule_or {r r' : Rule} {rs : List Rule} {t' : List Char}
    {ts : List (List Char)} (h : List.Forall₂ (ReadsBack (rule m)) (r :: r' :: rs) (t :: t' :: ts)) :
    ReadsBack (rule (m + 1)) (.or (r :: r' :: rs))
      ("(or ".toList ++ joinSpace (t :: t' :: ts) ++ [')']) := by
  refine ⟨⟨'(', "or ".toList ++ joinSpace (t :: t' :: ts) ++ [')'], by simp, by simp [Solid]⟩,
    fun rest _ => ?_⟩
  have hread := logicalRule_combination ⟨'o', "r".toList, by simp, by simp [Solid]⟩
    logicalOp_or h (rule_close m rest)
  simp only [String.reduceToList, List.cons_append, List.append_assoc, List.nil_append]
    at hread ⊢
  rw [rule_succ_of_logical (by simp [Solid]) (by decide) (by simp) (by simp) (by simp) hread,
    skipSpaces_skipSpaces]

lemma readsBack_rule_not {r : Rule} (h : ReadsBack (rule m) r t) :
    ReadsBack (rule (m + 1)) (.not r) ("(not ".toList ++ t ++ [')']) := by
  refine ⟨⟨'(', "not ".toList ++ t ++ [')'], by simp, by simp [Solid]⟩, fun rest _ => ?_⟩
  have hread := logicalRule_not h rest
  simp only [String.reduceToList, List.cons_append, List.append_assoc, List.nil_append]
    at hread ⊢
  rw [rule_succ_of_logical (by simp [Solid]) (by decide) (by simp) (by simp) (by simp) hread,
    skipSpaces_skipSpaces]

lemma readsBack_rule_if {r1 r2 r3 : Rule} (h1 : ReadsBack (rule m) r1 t1)
    (h2 : ReadsBack (rule m) r2 t2) (h3 : ReadsBack (rule m) r3 t3) :
    ReadsBack (rule (m + 1)) (.if_ r1 r2 r3)
      ("(if ".toList ++ t1 ++ ' ' :: t2 ++ ' ' :: t3 ++ [')']) := by
  refine ⟨⟨'(', "if ".toList ++ t1 ++ ' ' :: t2 ++ ' ' :: t3 ++ [')'], by simp, by simp [Solid]⟩,
    fun rest _ => ?_⟩
  have hread := logicalRule_if h1 h2 h3 rest
  simp only [String.reduceToList, List.cons_append, List.append_assoc, List.nil_append]
    at hread ⊢
  rw [rule_succ_of_logical (by simp [Solid]) (by decide) (by simp) (by simp) (by simp) hread,
    skipSpaces_skipSpaces]

end Rules

section NegativeDigit

/-! The text of a filter by a negative integer of one digit. `filterRule` reads the key, and then
neither `attribute` nor `value` reads `-d`, so that no alternative of `rule` reads the text. -/

variable {op : Op} {one : Term} {t1 : List Char}

lemma filterRule_minus_digit (hop : op.isFilter = true) (hone : ReadsBack attribute_ one t1)
    (d : Char) (rest : List Char) :
    filterRule ('(' :: (formatOp op ++ ' ' :: (t1 ++ ' ' :: ('-' :: d :: ')' :: rest)))) = none := by
  have hnum : number ('-' :: d :: ')' :: rest) = none := by
    rw [number, bind_of_none (int_minus_digit (by simp [Delim]))]
  have hvalue : (attribute_ <|> value) ('-' :: d :: ')' :: rest) = none := by
    rw [orElse_of_none (attribute_of_head (by decide) (by decide) (by decide))]
    simp [value, bind_apply, orElse_apply, string_of_head, boolean_of_head, hnum]
  rw [filterRule, bind_of_some (open_apply (skipSpaces_solid_append (formatOp_head op) _)),
    bind_of_some (filter_apply hop (hone.skipSpaces_append _)),
    bind_of_some (hone.read_space (skipSpaces_of_solid (by simp [Solid]))), bind_of_none hvalue]

lemma otherRules_of_filter (hop : op.isFilter = true) (q : Peg Char Rule) (s : List Char) :
    memberRule ('(' :: (formatOp op ++ s)) = none ∧ existsRule ('(' :: (formatOp op ++ s)) = none ∧
      logicalRule q ('(' :: (formatOp op ++ s)) = none := by
  cases op <;> simp only [Op.isFilter, reduceCtorEq] at hop <;>
    simp only [formatOp_eq, formatOp_neq, formatOp_gt, formatOp_lt, List.cons_append,
      List.nil_append] <;>
    exact ⟨memberRule_of_mismatch (by simp [Solid]) (by simp) (by simp),
      existsRule_of_mismatch (by simp [Solid]) (by simp),
      logicalRule_of_mismatch (by simp [Solid]) (by simp) (by simp) (by simp) (by simp)⟩

end NegativeDigit

end Grammar

open Grammar

section RoundTrip

variable (f : ℚ → List Char)

lemma argReadable_eq {t : Term} (h : isKey t = true ∨ isValue t = true) :
    argReadable t = readable t := by
  cases t <;> simp_all [isKey, isValue, argReadable]

mutual
theorem readsBack_format : ∀ (r : Rule) {text : List Char}, validate r = .ok () →
    r.readable = true → Formatter.format f r = some text → ∀ n, text.length ≤ n →
      ReadsBack (rule n) r text
  | .bool b, text, _, _, hf, n, hn => by
    simp only [Formatter.format, Option.some.injEq] at hf
    subst hf
    obtain ⟨m, rfl⟩ : ∃ m, n = m + 1 := ⟨n - 1, by cases b <;> simp at hn <;> omega⟩
    exact readsBack_rule_bool b
  | .op op one other, text, hv, hr, hf, n, hn => by
    simp only [Formatter.format, Option.bind_eq_some_iff, bind, pure, Option.some.injEq] at hf
    obtain ⟨t1, ht1, t2, ht2, rfl⟩ := hf
    obtain ⟨m, rfl⟩ : ∃ m, n = m + 1 := ⟨n - 1, by simp at hn; omega⟩
    simp only [Rule.readable, Bool.and_eq_true] at hr
    rcases validateOp_eq_ok hv with ⟨hop, hk, hother⟩ | ⟨rfl, hone, hother⟩
    · exact readsBack_rule_filter hop (readsBack_key hk (argReadable_eq (.inl hk) ▸ hr.1) ht1)
        (readsBack_arg hother (argReadable_eq hother ▸ hr.2) ht2)
    · exact readsBack_rule_member (readsBack_arg hone (argReadable_eq hone ▸ hr.1) ht1)
        (readsBack_listArg hother hr.2 ht2)
  | .exists_ key, text, hv, hr, hf, n, hn => by
    simp only [Formatter.format, Option.bind_eq_some_iff, bind, pure, Option.some.injEq] at hf
    obtain ⟨t, ht, rfl⟩ := hf
    obtain ⟨m, rfl⟩ : ∃ m, n = m + 1 := ⟨n - 1, by simp at hn; omega⟩
    have hk : isKey key = true := by
      simp only [validate] at hv
      split_ifs at hv with hk
      exact hk
    simp only [Rule.readable] at hr
    exact readsBack_rule_exists (readsBack_key hk (argReadable_eq (.inl hk) ▸ hr) ht)
  | .and rules, text, hv, hr, hf, n, hn => by
    obtain ⟨r, r', rs, hrules, hvs⟩ := validate_and_eq_ok hv
    simp only [Formatter.format, Option.map_eq_some_iff] at hf
    obtain ⟨texts, htexts, rfl⟩ := hf
    obtain ⟨m, rfl⟩ : ∃ m, n = m + 1 := ⟨n - 1, by simp at hn; omega⟩
    -- each rule of the list is shorter than the whole
    have hparts := readsBacks_formatAll rules hvs hr htexts m fun t ht => by
      have := length_le_joinSpace t ht
      simp at hn
      omega
    subst hrules
    rcases hparts with _ | ⟨h1, _ | ⟨h2, hs⟩⟩
    exact readsBack_rule_and (.cons h1 (.cons h2 hs))
  | .or rules, text, hv, hr, hf, n, hn => by
    obtain ⟨r, r', rs, hrules, hvs⟩ := validate_or_eq_ok hv
    simp only [Formatter.format, Option.map_eq_some_iff] at hf
    obtain ⟨texts, htexts, rfl⟩ := hf
    obtain ⟨m, rfl⟩ : ∃ m, n = m + 1 := ⟨n - 1, by simp at hn; omega⟩
    have hparts := readsBacks_formatAll rules hvs hr htexts m fun t ht => by
      have := length_le_joinSpace t ht
      simp at hn
      omega
    subst hrules
    rcases hparts with _ | ⟨h1, _ | ⟨h2, hs⟩⟩
    exact readsBack_rule_or (.cons h1 (.cons h2 hs))
  | .not r, text, hv, hr, hf, n, hn => by
    simp only [Formatter.format, Option.map_eq_some_iff] at hf
    obtain ⟨t, ht, rfl⟩ := hf
    obtain ⟨m, rfl⟩ : ∃ m, n = m + 1 := ⟨n - 1, by simp at hn; omega⟩
    exact readsBack_rule_not (readsBack_format r (by simpa [validate] using hv) hr ht m
      (by simp at hn; omega))
  | .if_ r1 r2 r3, text, hv, hr, hf, n, hn => by
    simp only [Formatter.format, Option.bind_eq_some_iff, bind, pure, Option.some.injEq] at hf
    obtain ⟨t1, ht1, t2, ht2, t3, ht3, rfl⟩ := hf
    obtain ⟨m, rfl⟩ : ∃ m, n = m + 1 := ⟨n - 1, by simp at hn; omega⟩
    obtain ⟨hv1, hv2, hv3⟩ := validate_if_eq_ok hv
    simp only [Rule.readable, Bool.and_eq_true] at hr
    simp only [List.length_append, List.length_cons] at hn
    exact readsBack_rule_if (readsBack_format r1 hv1 hr.1.1 ht1 m (by omega))
      (readsBack_format r2 hv2 hr.1.2 ht2 m (by omega)) (readsBack_format r3 hv3 hr.2 ht3 m (by omega))
termination_by structural r _ _ _ _ _ _ => r

theorem readsBacks_formatAll : ∀ (rules : List Rule) {texts : List (List Char)},
    (∀ r ∈ rules, validate r = .ok ()) → Rule.allReadable rules = true →
      formatAll f rules = some texts → ∀ n, (∀ t ∈ texts, t.length ≤ n) →
        List.Forall₂ (ReadsBack (rule n)) rules texts
  | [], texts, _, _, hf, _, _ => by
    simp only [formatAll, Option.some.injEq] at hf
    subst hf
    exact .nil
  | r :: rs, texts, hv, hr, hf, n, hn => by
    simp only [formatAll, Option.bind_eq_some_iff, bind, pure, Option.some.injEq] at hf
    obtain ⟨t, ht, ts, hts, rfl⟩ := hf
    simp only [Rule.allReadable, Bool.and_eq_true] at hr
    exact .cons (readsBack_format r (hv r (by simp)) hr.1 ht n (hn t (by simp)))
      (readsBacks_formatAll rs (fun r' h => hv r' (by simp [h])) hr.2 hts n
        fun t' h => hn t' (by simp [h]))
termination_by structural rules _ _ _ _ _ _ => rules
end

theorem parse_format {r : Rule} {text : List Char} (hv : validate r = .ok ())
    (hr : r.readable = true) (hf : format f r = some text) : parse text = .ok r := by
  have hread := (readsBack_format f r hv hr hf (text.length + 1) (by omega)).reads [] (by simp [Delim])
  rw [List.append_nil, skipSpaces_nil] at hread
  have hexpr : expression (text.length + 1) text = some (.rule r, []) :=
    orElse_of_some (by rw [bind_of_some hread]; rfl)
  simp [parse, hexpr, new, hv, bind, Except.bind, pure, Except.pure]

lemma parse_filter_int {op : Op} (hop : op.isFilter = true) {key : Term} (hk : isKey key = true)
    (hr : readable key = true) {n : ℤ} (hn : n < -9 ∨ -1 < n) :
    ∃ text, parse text = .ok (.op op key (.int n)) := by
  obtain ⟨type, name, rfl⟩ := eq_of_isKey hk
  have hvalid : validate (.op op (.tuple [.atom type, .binary name]) (.int n)) = .ok () := by
    simp [validate, validateOp, hop, hk, isValue]
  have hreadable : (Rule.op op (.tuple [.atom type, .binary name]) (.int n)).readable = true := by
    simpa [Rule.readable, argReadable, readable, hn] using hr
  have hformat : format (fun _ => []) (.op op (.tuple [.atom type, .binary name]) (.int n)) =
      some ('(' :: formatOp op ++ ' ' :: (type ++ '.' :: name) ++ ' ' :: Decimal.ofInt n ++
        [')']) := by
    simp [format, Formatter.format, formatArg, hk, bind, pure]
  exact ⟨_, parse_format (fun _ => []) hvalid hreadable hformat⟩

/-- A filter of a key by a negative integer of one digit: `new` accepts the rule, but `parse` does
not read back the text `format` writes for it. -/
theorem parse_format_negative_digit (op : Op) (hop : op.isFilter = true) (key : Term)
    (hk : isKey key = true) (hr : readable key = true) (n : ℤ) (hn : -9 ≤ n ∧ n ≤ -1) :
    new (.op op key (.int n)) = .ok (.op op key (.int n)) ∧
      ∃ text, format f (.op op key (.int n)) = some text ∧
        parse text = .error (.cannotParseRule text) := by
  have hvalid : validate (.op op key (.int n)) = .ok () := by
    simp [validate, validateOp, hop, hk, isValue]
  obtain ⟨type, name, rfl⟩ := eq_of_isKey hk
  have hformat : formatArg f (.tuple [.atom type, .binary name]) = some (type ++ '.' :: name) := by
    simp [formatArg, hk]
  have hkey := readsBack_key hk hr hformat
  -- the numeral of `n` is a minus sign and one digit
  have hdigit : Decimal.ofInt n = ['-', Decimal.digitChar n.natAbs] := by
    rw [Decimal.ofInt, if_pos (by omega), Decimal.toDigits_of_lt (by omega)]
  refine ⟨by simp [new, hvalid, bind, Except.bind, pure, Except.pure],
    '(' :: formatOp op ++ ' ' :: (type ++ '.' :: name) ++ ' ' :: Decimal.ofInt n ++ [')'],
    by simp [format, Formatter.format, formatArg, hk, bind, pure], ?_⟩
  set text := '(' :: formatOp op ++ ' ' :: (type ++ '.' :: name) ++ ' ' :: Decimal.ofInt n ++ [')']
    with htext
  have htext' : text = '(' :: (formatOp op ++ ' ' :: ((type ++ '.' :: name) ++ ' ' ::
      ('-' :: Decimal.digitChar n.natAbs :: ')' :: []))) := by
    simp [htext, hdigit]
  have hrule : ∀ m, rule (m + 1) text = none := by
    intro m
    obtain ⟨h2, h3, h4⟩ := otherRules_of_filter hop (rule m) (' ' :: ((type ++ '.' :: name) ++
      ' ' :: ('-' :: Decimal.digitChar n.natAbs :: ')' :: [])))
    rw [htext']
    exact rule_succ_of_none (skipSpaces_of_solid (by simp [Solid]))
      (filterRule_minus_digit hop hkey _ []) h2 h3 h4 (boolean_of_head (by decide) (by decide))
  have hcomment : comment text = none := by
    rw [htext']
    simp [comment, bind_apply, lit]
  have hexpr : expression (text.length + 1) text = none := by
    rw [expression, orElse_of_none (bind_of_none (hrule text.length)), bind_of_none hcomment]
  simp [parse, hexpr]

/-- The rule `{:eq, {:subject, "level"}, -5}`, whose text is `(= subject.level -5)`. -/
theorem parse_format_negative_digit_level :
    (isKey (.tuple [.atom "subject".toList, .binary "level".toList]) = true ∧
      readable (.tuple [.atom "subject".toList, .binary "level".toList]) = true) ∧
    new (.op .eq (.tuple [.atom "subject".toList, .binary "level".toList]) (.int (-5))) =
        .ok (.op .eq (.tuple [.atom "subject".toList, .binary "level".toList]) (.int (-5))) ∧
      ∃ text, format (fun _ => []) (.op .eq (.tuple [.atom "subject".toList,
          .binary "level".toList]) (.int (-5))) = some text ∧
        parse text = .error (.cannotParseRule text) :=
  ⟨⟨by decide, by decide⟩, parse_format_negative_digit (fun _ => []) .eq rfl _ (by decide)
    (by decide) (-5) (by decide)⟩

end RoundTrip

end Ockam.ABAC
