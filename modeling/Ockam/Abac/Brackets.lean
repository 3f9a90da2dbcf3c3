import Ockam.Abac.Parser

/-! What `parse` does with a closing bracket that has no opening one. The loop of `ListEnd` (and of
`SeqEnd`) stops at its opening bracket or at the bottom of the control stack, and the second exit
is not an error: the values read so far are wrapped into one list (or sequence) and parsing goes
on. An unmatched `)` or `]` at the outermost level is thus read as if its opening bracket stood at
the start. -/

namespace Ockam.Abac.Parser

section Close

variable (vs v : List Expr) (ctrl : List Op)

lemma closeList_values : closeList (vs.map .value) v = .ok (v ++ vs, []) := by
  induction vs generalizing v with
  | nil => simp [closeList]
  | cons x vs ih =>
    rw [List.map_cons, closeList, ih]
    simp

lemma closeList_values_listStart :
    closeList (vs.map .value ++ .listStart :: ctrl) v = .ok (v ++ vs, ctrl) := by
  induction vs generalizing v with
  | nil => simp [closeList]
  | cons x vs ih =>
    rw [List.map_cons, List.cons_append, closeList, ih]
    simp

lemma closeSeq_values : closeSeq (vs.map .value) v = .ok (v ++ vs, []) := by
  induction vs generalizing v with
  | nil => simp [closeSeq]
  | cons x vs ih =>
    rw [List.map_cons, closeSeq, ih]
    simp

lemma closeSeq_values_seqStart :
    closeSeq (vs.map .value ++ .seqStart :: ctrl) v = .ok (v ++ vs, ctrl) := by
  induction vs generalizing v with
  | nil => simp [closeSeq]
  | cons x vs ih =>
    rw [List.map_cons, List.cons_append, closeSeq, ih]
    simp

end Close

section Loop

variable (src : List (Except Unit Token)) (vs vals : List Expr) (ctrl : List Op)

lemma parseLoop_rparen_of_values :
    parseLoop (.ok .rparen :: src) (.next :: vs.map .value) vals =
      parseLoop src [.next, .value (.list vs.reverse)] vals := by
  have hclose := closeList_values vs []
  rw [List.nil_append] at hclose
  rw [parseLoop_token src _ vals rfl, List.singleton_append, parseLoop_listEnd src _ vals hclose]

lemma parseLoop_lparen_rparen :
    parseLoop (.ok .lparen :: .ok .rparen :: src) (.next :: ctrl) vals =
      parseLoop src (.next :: .value (.list []) :: ctrl) vals := by
  have hclose := closeList_values_listStart [] [] ctrl
  rw [List.map_nil, List.nil_append, List.nil_append] at hclose
  rw [parseLoop_token _ _ vals rfl, List.cons_append, List.singleton_append,
    parseLoop_token src _ vals rfl, List.singleton_append, parseLoop_listEnd src _ vals hclose,
    List.reverse_nil]

lemma parseLoop_rbracket_of_values (hcheck : checkSeq vs.reverse = .ok ()) :
    parseLoop (.ok (.reserved "]") :: src) (.next :: vs.map .value) vals =
      parseLoop src [.next, .value (.seq vs.reverse)] vals := by
  have hclose := closeSeq_values vs []
  rw [List.nil_append] at hclose
  rw [parseLoop_token src _ vals rfl, List.singleton_append,
    parseLoop_seqEnd src _ vals hclose hcheck]

lemma parseLoop_lbracket_rbracket :
    parseLoop (.ok (.reserved "[") :: .ok (.reserved "]") :: src) (.next :: ctrl) vals =
      parseLoop src (.next :: .value (.seq []) :: ctrl) vals := by
  have hclose := closeSeq_values_seqStart [] [] ctrl
  rw [List.map_nil, List.nil_append, List.nil_append] at hclose
  rw [parseLoop_token _ _ vals rfl, List.cons_append, List.singleton_append,
    parseLoop_token src _ vals rfl, List.singleton_append,
    parseLoop_seqEnd src _ vals hclose rfl, List.reverse_nil]

end Loop

/-- An input that starts with an unmatched `)` or `]` is parsed as if it started with `()` or
`[]`, whatever follows; `)` alone is `Ok(Some(()))`. -/
theorem parse_accepts_unmatched_closer (src : List (Except Unit Token)) :
    parse (.ok .rparen :: src) = parse (.ok .lparen :: .ok .rparen :: src) ∧
      parse (.ok (.reserved "]") :: src) =
        parse (.ok (.reserved "[") :: .ok (.reserved "]") :: src) ∧
      parse [.ok .rparen] = .ok (some (.list [])) := by
  have hlist := parseLoop_rparen_of_values src [] []
  have hseq := parseLoop_rbracket_of_values src [] [] rfl
  rw [List.map_nil, List.reverse_nil] at hlist hseq
  refine ⟨?_, ?_, ?_⟩
  · rw [parse, parse, hlist, parseLoop_lparen_rparen]
  · rw [parse, parse, hseq, parseLoop_lbracket_rbracket]
  · have hend := parseLoop_rparen_of_values [] [] []
    rw [List.map_nil, List.reverse_nil] at hend
    simp [parse, hend, bind, Except.bind, pure, Except.pure]

example :
    parse [.ok (.keyword "a"), .ok .whitespace, .ok .rparen] = .ok (some (.list [.ident "a"])) := by
  have hwrap := parseLoop_rparen_of_values [] [.ident "a"] []
  rw [List.map_cons, List.map_nil, List.reverse_singleton] at hwrap
  have hpattern : identPattern "a" = true := by decide
  have hident : tokenOps (.keyword "a") = .ok [.next, .value (.ident "a")] := by
    simp [tokenOps, hpattern]
  rw [parse, parseLoop_token _ _ _ hident, List.append_nil, parseLoop_token _ _ _ rfl,
    List.singleton_append, hwrap]
  simp [bind, Except.bind, pure, Except.pure]

end Ockam.Abac.Parser
