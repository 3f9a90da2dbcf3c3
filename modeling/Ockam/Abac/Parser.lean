import Ockam.Abac.Expr

/-! `ockam_abac::parse` (`parser.rs`): a loop over one control stack that holds the values read so
far, the open brackets, and the next step. The `wast` lexer is outside the model: `parse` reads the
tokens it yields, each with what the parser takes from it, and a lexer error as `.error ()`. A
closing bracket pops the stack up to its opening bracket, or to the bottom of the stack when there
is none. -/

namespace Ockam.Abac.Parser

inductive FloatKind where
  | inf (negative : Bool)
  | nan
  | nanVal
  /-- `f64::from_str` of the token's text; `none` when it fails. -/
  | normal (value : Option F64)

/-- The tokens of `wast::lexer::Lexer`, with the values the parser reads from them: an integer's
value as `from_str_radix` reads its sign, digits and radix, a string's decoded bytes. -/
inductive Token where
  | whitespace
  | lineComment
  | blockComment
  | integer (value : ℤ)
  | float (kind : FloatKind)
  | string (bytes : List UInt8)
  | lparen
  | rparen
  | keyword (text : String)
  | id (name : String)
  | reserved (text : String)

inductive ParseError where
  | utf8
  | int
  | float
  | other
  | message (msg : String)
  | typeMismatch (a b : Expr)
  /-- The panic of `unreachable!`. -/
  | unreachable (msg : String)

/-- `ident_pattern`, `^[a-zA-Z!$%&*/<=>?~_^][a-zA-Z0-9!$%&*/<=>?~_^.+-@]*$`. In the second class
`+-@` is the range from `+` to `@`. -/
def identPattern (s : String) : Bool :=
  match s.toList with
  | [] => false
  | c :: cs =>
    (c.isAlpha || "!$%&*/<=>?~_^".contains c) &&
      cs.all fun c => c.isAlphanum || "!$%&*/<=>?~_^.".contains c || ('+' ≤ c && c ≤ '@')

/-- The control stack's operations. -/
inductive Op where
  | next
  | value (e : Expr)
  | listStart
  | listEnd
  | seqStart
  | seqEnd

/-- What a token pushes on the control stack, the top first. -/
def tokenOps : Token → Except ParseError (List Op)
  | .whitespace | .lineComment | .blockComment => .ok [.next]
  | .integer x =>
    if -2 ^ 63 ≤ x ∧ x < 2 ^ 63 then .ok [.next, .value (.int x)] else .error .int
  | .float (.inf negative) => .ok [.next, .value (.float (if negative then .negInf else .posInf))]
  | .float .nan | .float .nanVal => .ok [.next, .value (.float .nan)]
  | .float (.normal (some x)) => .ok [.next, .value (.float x)]
  | .float (.normal none) => .error .float
  | .string bytes =>
    match String.fromUTF8? ⟨bytes.toArray⟩ with
    | some s => .ok [.next, .value (.str s)]
    | none => .error .utf8
  | .lparen => .ok [.next, .listStart]
  | .rparen => .ok [.listEnd]
  | .keyword text =>
    if text = "true" then .ok [.next, .value (.bool true)]
    else if text = "false" then .ok [.next, .value (.bool false)]
    else if identPattern text then .ok [.next, .value (.ident text)]
    else .error (.message ("invalid keyword token '" ++ text ++ "'"))
  | .id name => .ok [.next, .value (.ident name)]
  | .reserved text =>
    if text = "]" then .ok [.seqEnd]
    else if text = "[" then .ok [.next, .seqStart]
    else if identPattern text then .ok [.next, .value (.ident text)]
    else .error (.message ("invalid reserved token '" ++ text ++ "'"))

/-- The loop of `ListEnd`: values are popped up to the `ListStart`, or to the bottom. -/
def closeList : List Op → List Expr → Except ParseError (List Expr × List Op)
  | [], v => .ok (v, [])
  | .listStart :: ctrl, v => .ok (v, ctrl)
  | .value x :: ctrl, v => closeList ctrl (v ++ [x])
  | .listEnd :: _, _ => .error (.message "')' without matching '('")
  | .seqStart :: _, _ => .error (.message "'[' without matching ']'")
  | .seqEnd :: _, _ => .error (.message "']' without matching '['")
  | .next :: _, _ => .error (.unreachable "consecutive next operations are impossible")

/-- The loop of `SeqEnd`: values are popped up to the `SeqStart`, or to the bottom. -/
def closeSeq : List Op → List Expr → Except ParseError (List Expr × List Op)
  | [], v => .ok (v, [])
  | .seqStart :: ctrl, v => .ok (v, ctrl)
  | .value x :: ctrl, v => closeSeq ctrl (v ++ [x])
  | .listEnd :: _, _ => .error (.message "')' without matching '('")
  | .listStart :: _, _ => .error (.message "'(' without matching ')'")
  | .seqEnd :: _, _ => .error (.message "']' without matching '['")
  | .next :: _, _ => .error (.unreachable "consecutive next operations are impossible")

/-- The elements of a sequence are compared two by two, and a type mismatch is an error. -/
def checkSeq : List Expr → Except ParseError Unit
  | x :: y :: rest =>
    match x.equals y with
    | .error (.typeMismatch a b) => .error (.typeMismatch a b)
    | _ => checkSeq (y :: rest)
  | _ => .ok ()

namespace Op

/-- A closing bracket counts for the step that pops it and for the `Next` it leaves. -/
def weight : Op → ℕ
  | .listEnd | .seqEnd => 3
  | _ => 1

end Op

def weight (ctrl : List Op) : ℕ := (ctrl.map Op.weight).sum

@[simp] lemma weight_nil : weight [] = 0 := rfl

@[simp] lemma weight_cons (op : Op) (ctrl : List Op) : weight (op :: ctrl) = op.weight + weight ctrl := by
  simp [weight]

@[simp] lemma weight_append (ctrl ctrl' : List Op) : weight (ctrl ++ ctrl') = weight ctrl + weight ctrl' := by
  simp [weight]

lemma weight_tokenOps {t : Token} {ops : List Op} (h : tokenOps t = .ok ops) : weight ops ≤ 3 := by
  cases t with
  | integer x =>
    simp only [tokenOps] at h
    split_ifs at h
    cases h
    simp [Op.weight]
  | float kind =>
    rcases kind with negative | _ | _ | _ | x <;> simp only [tokenOps, Except.ok.injEq] at h <;>
      first | (subst h; simp [Op.weight]) | cases h
  | string bytes =>
    simp only [tokenOps] at h
    split at h
    · cases h
      simp [Op.weight]
    · cases h
  | keyword text | reserved text =>
    simp only [tokenOps] at h
    split_ifs at h <;> cases h <;> simp [Op.weight]
  | _ =>
    simp only [tokenOps, Except.ok.injEq] at h
    subst h
    simp [Op.weight]

lemma weight_closeList {ctrl ctrl' : List Op} {v v' : List Expr}
    (h : closeList ctrl v = .ok (v', ctrl')) : weight ctrl' ≤ weight ctrl := by
  induction ctrl generalizing v with
  | nil =>
    simp only [closeList, Except.ok.injEq, Prod.mk.injEq] at h
    simp [← h.2]
  | cons op ctrl ih =>
    cases op with
    | value x =>
      have := ih (v := v ++ [x]) h
      simp only [weight_cons]
      omega
    | listStart =>
      simp only [closeList, Except.ok.injEq, Prod.mk.injEq] at h
      simp only [weight_cons, ← h.2]
      omega
    | _ => cases h

lemma weight_closeSeq {ctrl ctrl' : List Op} {v v' : List Expr}
    (h : closeSeq ctrl v = .ok (v', ctrl')) : weight ctrl' ≤ weight ctrl := by
  induction ctrl generalizing v with
  | nil =>
    simp only [closeSeq, Except.ok.injEq, Prod.mk.injEq] at h
    simp [← h.2]
  | cons op ctrl ih =>
    cases op with
    | value x =>
      have := ih (v := v ++ [x]) h
      simp only [weight_cons]
      omega
    | seqStart =>
      simp only [closeSeq, Except.ok.injEq, Prod.mk.injEq] at h
      simp only [weight_cons, ← h.2]
      omega
    | _ => cases h

/-- `while let Some(e) = ctrl.pop()`: `vals` holds the values popped at the end, in the order they
are popped. -/
def parseLoop (src : List (Except Unit Token)) (ctrl : List Op) (vals : List Expr) :
    Except ParseError (List Expr) :=
  match ctrl with
  | [] => .ok vals
  | .next :: ctrl =>
    match src with
    | [] => parseLoop [] ctrl vals
    | .error () :: _ => .error .other
    | .ok t :: src =>
      match _h : tokenOps t with
      | .ok ops => parseLoop src (ops ++ ctrl) vals
      | .error e => .error e
  | .value x :: ctrl => parseLoop src ctrl (vals ++ [x])
  | .listEnd :: ctrl =>
    match _h : closeList ctrl [] with
    | .ok (v, ctrl) => parseLoop src (.next :: .value (.list v.reverse) :: ctrl) vals
    | .error e => .error e
  | .seqEnd :: ctrl =>
    match _h : closeSeq ctrl [] with
    | .ok (v, ctrl) =>
      match checkSeq v.reverse with
      | .ok () => parseLoop src (.next :: .value (.seq v.reverse) :: ctrl) vals
      | .error e => .error e
    | .error e => .error e
  | .listStart :: _ => .error (.message "unclosed '('")
  | .seqStart :: _ => .error (.message "unclosed '['")
termination_by 3 * src.length + weight ctrl
decreasing_by
  all_goals simp only [weight_cons, weight_append, List.length_cons, Op.weight]
  · omega
  · have := weight_tokenOps ‹_›
    omega
  · omega
  · have := weight_closeList ‹_›
    omega
  · have := weight_closeSeq ‹_›
    omega

section ParseLoop

variable (src : List (Except Unit Token)) (ctrl : List Op) (vals : List Expr)

@[simp] lemma parseLoop_nil : parseLoop src [] vals = .ok vals := by
  rw [parseLoop]

@[simp] lemma parseLoop_next_end : parseLoop [] (.next :: ctrl) vals = parseLoop [] ctrl vals := by
  rw [parseLoop]

@[simp] lemma parseLoop_value (x : Expr) :
    parseLoop src (.value x :: ctrl) vals = parseLoop src ctrl (vals ++ [x]) := by
  rw [parseLoop]

lemma parseLoop_token {t : Token} {ops : List Op} (h : tokenOps t = .ok ops) :
    parseLoop (.ok t :: src) (.next :: ctrl) vals = parseLoop src (ops ++ ctrl) vals := by
  rw [parseLoop]
  split
  · next ops' h' =>
    rw [h] at h'
    cases h'
    rfl
  · next e h' =>
    rw [h] at h'
    cases h'

lemma parseLoop_listEnd {v : List Expr} {ctrl' : List Op} (h : closeList ctrl [] = .ok (v, ctrl')) :
    parseLoop src (.listEnd :: ctrl) vals =
      parseLoop src (.next :: .value (.list v.reverse) :: ctrl') vals := by
  rw [parseLoop]
  split
  · next v' ctrl'' h' =>
    rw [h] at h'
    cases h'
    rfl
  · next e h' =>
    rw [h] at h'
    cases h'

lemma parseLoop_seqEnd {v : List Expr} {ctrl' : List Op} (h : closeSeq ctrl [] = .ok (v, ctrl'))
    (hcheck : checkSeq v.reverse = .ok ()) :
    parseLoop src (.seqEnd :: ctrl) vals =
      parseLoop src (.next :: .value (.seq v.reverse) :: ctrl') vals := by
  rw [parseLoop]
  split
  · next v' ctrl'' h' =>
    rw [h] at h'
    cases h'
    rw [hcheck]
  · next e h' =>
    rw [h] at h'
    cases h'

end ParseLoop

def parse (src : List (Except Unit Token)) : Except ParseError (Option Expr) := do
  match ← parseLoop src [.next] [] with
  | [] => pure none
  | [v] => pure (some v)
  | vals => pure (some (.list vals.reverse))

end Ockam.Abac.Parser
