import Ockam.Abac.Printer
import Ockam.Abac.Brackets

/-! `parse(&e.to_string())`: the lexer reads the printer's output one write at a time, and the parser
reads back what the printer wrote, bracket for bracket. An identifier whose text is a number to the
lexer (`nan`, `inf`) comes back as a float. -/

namespace Ockam.Abac.Display

open Ockam.Abac.Parser

/-- `inf` and `nan`, after an optional sign: the numbers of the WebAssembly text format that are
words. -/
def specialFloat (w : String) : Option FloatKind :=
  let (negative, rest) : Bool × List Char := match w.toList with
    | '+' :: cs => (false, cs)
    | '-' :: cs => (true, cs)
    | cs => (false, cs)
  if rest = ['i', 'n', 'f'] then some (.inf negative)
  else if rest = ['n', 'a', 'n'] then some .nan
  else none

/-- How `wast` reads a run of identifier characters: a number first (`literal` reads the integer
and float literals and `nan:0x…`), then an `$id`, a keyword from a lowercase letter, and a reserved
word otherwise. -/
def classify (literal : String → Option Token) (w : String) : Token :=
  match specialFloat w with
  | some k => .float k
  | none =>
    match literal w with
    | some t => t
    | none =>
      match w.toList with
      | '$' :: c :: cs => .id (String.ofList (c :: cs))
      | c :: _ => if 'a' ≤ c ∧ c ≤ 'z' then .keyword w else .reserved w
      | [] => .reserved w

/-- The token the lexer reads from one write of the printer. -/
def lexWrite (word : String → Token) (w : String) : Token :=
  if w = "(" then .lparen
  else if w = ")" then .rparen
  else if w = " " then .whitespace
  else if w = "[" then .reserved "["
  else if w = "]" then .reserved "]"
  else word w

def lexWrites (word : String → Token) (ws : List String) : List (Except Unit Token) :=
  ws.map fun w => .ok (lexWrite word w)

/-- `Lexer::new(&e.to_string())`. -/
def lexDisplay (word : String → Token) (fmt : Formats) (e : Expr) : List (Except Unit Token) :=
  lexWrites word (writes fmt [.showExpr e])

mutual
/-- Every scalar of the expression is read back as itself, and the elements of every sequence
pass the parser's check. -/
def ReadsBack (word : String → Token) (fmt : Formats) : Expr → Prop
  | .seq es => checkSeq es = .ok () ∧ ReadsBackList word fmt es
  | .list es => ReadsBackList word fmt es
  | e => tokenOps (lexWrite word (scalarText fmt e)) = .ok [.next, .value e]
def ReadsBackList (word : String → Token) (fmt : Formats) : List Expr → Prop
  | [] => True
  | e :: es => ReadsBack word fmt e ∧ ReadsBackList word fmt es
end

section RoundTrip

variable {word : String → Token} {fmt : Formats}

@[simp] lemma lexWrites_append (ws ws' : List String) :
    lexWrites word (ws ++ ws') = lexWrites word ws ++ lexWrites word ws' :=
  List.map_append

@[simp] lemma lexWrites_cons (w : String) (ws : List String) :
    lexWrites word (w :: ws) = .ok (lexWrite word w) :: lexWrites word ws := rfl

@[simp] lemma lexWrites_nil : lexWrites word [] = [] := rfl

section Punctuation

attribute [local simp] lexWrite tokenOps

lemma tokenOps_lparen : tokenOps (lexWrite word "(") = .ok [.next, .listStart] := by simp

lemma tokenOps_rparen : tokenOps (lexWrite word ")") = .ok [.listEnd] := by simp

lemma tokenOps_lbracket : tokenOps (lexWrite word "[") = .ok [.next, .seqStart] := by simp

lemma tokenOps_rbracket : tokenOps (lexWrite word "]") = .ok [.seqEnd] := by simp

lemma tokenOps_space : tokenOps (lexWrite word " ") = .ok [.next] := by simp

end Punctuation

lemma parseLoop_scalar {e : Expr} (hl : ∀ es, e ≠ .list es) (hs : ∀ es, e ≠ .seq es)
    (h : tokenOps (lexWrite word (scalarText fmt e)) = .ok [.next, .value e])
    (src : List (Except Unit Token)) (ctrl : List Parser.Op) (vals : List Expr) :
    parseLoop (lexWrites word (writes fmt [.showExpr e]) ++ src) (.next :: ctrl) vals =
      parseLoop src (.next :: .value e :: ctrl) vals := by
  rw [writes_scalar fmt hl hs, lexWrites_cons, lexWrites_nil, List.singleton_append,
    parseLoop_token src ctrl vals h]
  rfl

mutual
theorem parseLoop_writes : ∀ e : Expr, ReadsBack word fmt e →
    ∀ (src : List (Except Unit Token)) (ctrl : List Parser.Op) (vals : List Expr),
      parseLoop (lexWrites word (writes fmt [.showExpr e]) ++ src) (.next :: ctrl) vals =
        parseLoop src (.next :: .value e :: ctrl) vals
  | .list es, h, src, ctrl, vals => by
    -- `(`, the elements, `)`: the values of the elements are wrapped from the `ListStart` up
    have hclose := closeList_values_listStart es.reverse [] ctrl
    rw [List.nil_append] at hclose
    simp only [writes_list, lexWrites_cons, lexWrites_append, lexWrites_nil, List.cons_append,
      List.append_assoc]
    rw [parseLoop_token _ ctrl vals tokenOps_lparen]
    simp only [List.cons_append, List.nil_append]
    rw [parseLoop_elems es h _ _ vals, parseLoop_token src _ vals tokenOps_rparen,
      List.singleton_append,
      parseLoop_listEnd src _ vals hclose, List.reverse_reverse]
  | .seq es, h, src, ctrl, vals => by
    have hclose := closeSeq_values_seqStart es.reverse [] ctrl
    rw [List.nil_append] at hclose
    simp only [writes_seq, lexWrites_cons, lexWrites_append, lexWrites_nil, List.cons_append,
      List.append_assoc]
    rw [parseLoop_token _ ctrl vals tokenOps_lbracket]
    simp only [List.cons_append, List.nil_append]
    rw [parseLoop_elems es h.2 _ _ vals, parseLoop_token src _ vals tokenOps_rbracket,
      List.singleton_append,
      parseLoop_seqEnd src _ vals hclose (by rw [List.reverse_reverse, h.1]), List.reverse_reverse]
  | .str _, h, src, ctrl, vals | .int _, h, src, ctrl, vals | .float _, h, src, ctrl, vals
  | .bool _, h, src, ctrl, vals | .ident _, h, src, ctrl, vals =>
    parseLoop_scalar (by simp) (by simp) h src ctrl vals
theorem parseLoop_elems : ∀ es : List Expr, ReadsBackList word fmt es →
    ∀ (src : List (Except Unit Token)) (ctrl : List Parser.Op) (vals : List Expr),
      parseLoop (lexWrites word (writes fmt (elemOps es)) ++ src) (.next :: ctrl) vals =
        parseLoop src (.next :: (es.reverse.map Parser.Op.value ++ ctrl)) vals
  | [], _, src, ctrl, vals => by simp [elemOps, writes]
  | [e], h, src, ctrl, vals => by
    rw [writes_elemOps_singleton, parseLoop_writes e h.1]
    rfl
  | e :: f :: rest, h, src, ctrl, vals => by
    rw [writes_elemOps_cons_cons, lexWrites_append, lexWrites_cons, List.append_assoc,
      List.cons_append, parseLoop_writes e h.1, parseLoop_token _ _ vals tokenOps_space,
      List.singleton_append, parseLoop_elems (f :: rest) h.2]
    simp
end

theorem parse_display {e : Expr} (h : ReadsBack word fmt e) :
    parse (lexDisplay word fmt e) = .ok (some e) := by
  have hrun := parseLoop_writes e h [] [] []
  rw [List.append_nil] at hrun
  rw [parse, lexDisplay, hrun]
  simp [bind, Except.bind, pure, Except.pure]

lemma lexWrite_of_identPattern {s : String} (hs : identPattern s = true) : lexWrite word s = word s := by
  unfold lexWrite
  split_ifs with h₁ h₂ h₃ h₄ h₅
  all_goals first | rfl | (subst_vars; simp [identPattern] at hs)

/-- An identifier whose text the lexer reads as a float (`nan`, `inf`) is printed as it is and
parsed back as that float, which `equals` reports as a type mismatch against the identifier. -/
theorem display_parse_ident_float (fmt : Formats) {s : String} (hs : identPattern s = true)
    {k : FloatKind} {x : F64} (hword : word s = .float k)
    (hops : tokenOps (.float k) = .ok [.next, .value (.float x)]) :
    parse (lexDisplay word fmt (.ident s)) = .ok (some (.float x)) ∧
      (Expr.float x).equals (.ident s) = .error (.typeMismatch (.float x) (.ident s)) := by
  constructor
  · rw [parse, lexDisplay, writes_scalar fmt (by simp) (by simp), scalarText, lexWrites_cons,
      lexWrites_nil, lexWrite_of_identPattern hs, hword, parseLoop_token [] [] [] hops]
    simp [bind, Except.bind, pure, Except.pure]
  · simp [Expr.equals, Expr.equalsLoop]

end RoundTrip

/-- `Ident("nan")`, which `parse("$nan")` returns, under the lexer's reading of `nan`. -/
theorem display_parse_ident_nan :
    let fmt : Formats := ⟨fun s => s, fun _ => "0.0"⟩
    identPattern "nan" = true ∧
      parse (lexDisplay (classify fun _ => none) fmt (.ident "nan")) = .ok (some (.float .nan)) ∧
      (Expr.float .nan).equals (.ident "nan") = .error (.typeMismatch (.float .nan) (.ident "nan")) :=
  ⟨by decide, display_parse_ident_float _ (by decide) rfl rfl⟩

end Ockam.Abac.Display
