import Ockam.MultiAddr.Basic

/-! A `MultiAddr` as the deque of its components (`Holds`), and the operations on it. -/

namespace Ockam.Multiaddr

variable {V : Varints}

lemma encodeValue_eq_append (x : ProtoValue) : ∃ pre, encodeValue V x = pre ++ x.2 := by
  unfold encodeValue
  split
  · exact ⟨_, rfl⟩
  · exact ⟨_, rfl⟩

lemma map_located (o : ℕ) (l : List ProtoValue) :
    (located V o l).map (fun (_, c, p) => ((c, p) : ProtoValue)) = l := by
  induction l generalizing o with
  | nil => rfl
  | cons v l ih => simp [located, ih]

lemma located_append_singleton (o : ℕ) (l : List ProtoValue) (x : ProtoValue) :
    located V o (l ++ [x]) =
      located V o l ++ [(o + (l.map (encodeValue V)).flatten.length, x.1, x.2)] := by
  induction l generalizing o with
  | nil => simp [located]
  | cons v l ih => simp [located, ih, Nat.add_assoc]

lemma utf8Bytes_of_fromUtf8 {bs : Bytes} {s : List Char} (h : fromUtf8 bs = some s) :
    utf8Bytes s = bs := by
  obtain ⟨arr, hd, rfl⟩ := Option.map_eq_some_iff.mp h
  have he := ByteArray.utf8Encode_get_utf8Decode? (b := ByteArray.mk bs.toArray)
    (h := by simp [hd])
  simp only [hd, Option.get_some] at he
  simp [utf8Bytes, he]

lemma codecWriteBytes_of_valid {x : ProtoValue} (hx : WellFormed x) (hv : isValidBytes x.1 x.2) :
    codecWriteBytes V x = .ok (encodeValue V x) := by
  obtain ⟨c, d⟩ := x
  rcases hx with ⟨rfl, hd⟩ | ⟨rfl, hd⟩ | ⟨rfl, hd⟩ | ⟨hc, hd⟩
  · simp [codecWriteBytes, encodeValue, hd, strCodes, StrProto.all, StrProto.code, ip4Code]
  · simp [codecWriteBytes, encodeValue, hd, strCodes, StrProto.all, StrProto.code, ip4Code, ip6Code]
  · simp [codecWriteBytes, encodeValue, hd, strCodes, StrProto.all, StrProto.code, ip4Code,
      ip6Code, tcpCode]
  · have h4 := ne_of_mem_strCodes hc
    obtain ⟨s, hs⟩ := Option.isSome_iff_exists.mp (by simpa [isValidBytes, h4, hc] using hv)
    simp [codecWriteBytes, encodeValue, h4, hc, hs, utf8Bytes_of_fromUtf8 hs, List.append_assoc]

namespace MultiAddr

/-- `m` holds the components `l`. -/
structure Holds (V : Varints) (m : MultiAddr) (l : List ProtoValue) : Prop where
  offset : m.off ≤ m.dat.length
  bytes : m.asRef = (l.map (encodeValue V)).flatten
  wellFormed : ∀ v ∈ l, WellFormed v

variable {m : MultiAddr} {l : List ProtoValue}

lemma holds_default : Holds V default [] := ⟨le_refl _, rfl, by simp⟩

theorem iter_of_holds (hV : V.Laws) (h : Holds V m l) : m.iter V = .ok l := by
  simp [iter, h.bytes, validItems_encode hV h.wellFormed, Except.map, map_located]

lemma Holds.dat_eq (h : Holds V m l) : m.dat = m.dat.take m.off ++ (l.map (encodeValue V)).flatten := by
  have h1 := h.bytes
  rw [asRef] at h1
  rw [← h1, List.take_append_drop]

lemma slice_value {dat rest : Bytes} {off : ℕ} {x : ProtoValue} (hoff : off ≤ dat.length)
    (hd : dat.drop off = encodeValue V x ++ rest) :
    (dat.take (off + (encodeValue V x).length)).drop (off + (encodeValue V x).length - x.2.length) = x.2 := by
  obtain ⟨pre, hpre⟩ := encodeValue_eq_append (V := V) x
  set A := dat.take off
  have hA : A.length = off := by simp [A, hoff]
  have hdat : dat = A ++ pre ++ x.2 ++ rest := by
    have := List.take_append_drop off dat
    rw [hd, hpre] at this
    simpa [A, List.append_assoc] using this.symm
  have htake : dat.take (off + (encodeValue V x).length) = A ++ pre ++ x.2 := by
    rw [hdat, List.take_left' (by simp [hpre, hA])]
  rw [htake, show off + (encodeValue V x).length - x.2.length = (A ++ pre).length by
    simp [hpre, hA]; omega, List.drop_left]

theorem pushBack_holds (h : Holds V m l) (p : Value) (hp : WellFormed (p.code, p.data)) :
    ∃ m', m.pushBack V p = .ok m' ∧ Holds V m' (l ++ [(p.code, p.data)]) := by
  refine ⟨{ m with dat := m.dat ++ p.writeBytes V }, by simp [pushBack, registered_of_wellFormed hp],
    ?_, ?_, ?_⟩
  · simp only [List.length_append]; have := h.offset; omega
  · have h1 := h.bytes
    simp only [asRef] at h1 ⊢
    simp [List.drop_append_of_le_length h.offset, h1, Value.writeBytes_eq]
  · intro v hv
    simp only [List.mem_append, List.mem_singleton] at hv
    rcases hv with hv | rfl
    · exact h.wellFormed v hv
    · exact hp

lemma Holds.cons_bytes {x : ProtoValue} (h : Holds V m (x :: l)) :
    m.dat.drop m.off = encodeValue V x ++ (l.map (encodeValue V)).flatten := by
  simpa [asRef] using h.bytes

lemma Holds.tail {x : ProtoValue} (h : Holds V m (x :: l)) :
    Holds V { m with off := m.off + (encodeValue V x).length } l where
  offset := by
    have := congrArg List.length h.cons_bytes
    have := h.offset
    simp only [List.length_drop, List.length_append] at *
    omega
  bytes := by simp [asRef, ← List.drop_drop, h.cons_bytes]
  wellFormed v hv := h.wellFormed v (by simp [hv])

lemma popFront_cons (hV : V.Laws) {x : ProtoValue} (h : Holds V m (x :: l)) :
    m.popFront V = .ok (some x, { m with off := m.off + (encodeValue V x).length }) := by
  have hx := h.wellFormed x (by simp)
  have hd : (m.dat.drop m.off).drop 0 = encodeValue V x ++ (l.map (encodeValue V)).flatten := by
    simpa using h.cons_bytes
  simp [popFront, BytesIter.withRegistry, next_encode hV hx hd, slice_value h.offset h.cons_bytes]

lemma popFront_nil (h : Holds V m []) : m.popFront V = .ok (none, m) := by
  have hd : m.dat.drop m.off = [] := by simpa [asRef] using h.bytes
  simp [popFront, BytesIter.withRegistry, BytesIter.next, hd]

theorem popFront_holds (hV : V.Laws) {x : ProtoValue} (h : Holds V m (x :: l)) :
    ∃ m', m.popFront V = .ok (some x, m') ∧ Holds V m' l :=
  ⟨_, popFront_cons hV h, h.tail⟩

theorem dropFirst_holds (hV : V.Laws) {x : ProtoValue} (h : Holds V m (x :: l)) :
    ∃ m', m.dropFirst V = .ok m' ∧ Holds V m' l := by
  have hx := h.wellFormed x (by simp)
  have hd : m.asRef.drop 0 = encodeValue V x ++ (l.map (encodeValue V)).flatten := by
    simpa using h.bytes
  exact ⟨_, by simp [dropFirst, BytesIter.withRegistry, next_encode hV hx hd], h.tail⟩

lemma Holds.snoc (hV : V.Laws) {x : ProtoValue} (h : Holds V m (l ++ [x])) :
    ∃ pre, m.dat = m.dat.take m.off ++ (l.map (encodeValue V)).flatten ++ pre ++ x.2 ∧
      m.len = (l.map (encodeValue V)).flatten.length + pre.length + x.2.length ∧
      validItems V (m.dat.drop m.off) =
        .ok (located V 0 l ++ [((l.map (encodeValue V)).flatten.length, x.1, x.2)]) := by
  obtain ⟨pre, hpre⟩ := encodeValue_eq_append (V := V) x
  refine ⟨pre, ?_, ?_, ?_⟩
  · have := h.dat_eq
    simpa [hpre, List.append_assoc] using this
  · have := congrArg List.length h.bytes
    simp only [List.map_append, List.map_cons, List.map_nil, List.flatten_append,
      List.flatten_cons, List.flatten_nil, List.append_nil, List.length_append, hpre] at this
    simp only [len]
    omega
  · have := validItems_encode hV h.wellFormed
    rw [← h.bytes, located_append_singleton, Nat.zero_add] at this
    exact this

theorem popBack_holds (hV : V.Laws) {x : ProtoValue} (h : Holds V m (l ++ [x])) :
    ∃ m', m.popBack V = .ok (some x, m') ∧ Holds V m' l := by
  obtain ⟨pre, hdat, hlen, hitems⟩ := h.snoc hV
  have hA : (m.dat.take m.off).length = m.off := by simp [h.offset]
  generalize m.dat.take m.off = A at hdat hA
  generalize hF : (l.map (encodeValue V)).flatten = F at hdat hlen hitems
  have hval : m.dat.drop (m.off + m.len - x.2.length) = x.2 := by
    rw [hlen, show m.off + (F.length + pre.length + x.2.length) - x.2.length =
      (A ++ F ++ pre).length by simp [hA]; omega, hdat, List.drop_left]
  have htake : (m.dat.take (m.off + m.len - x.2.length)).take (m.off + F.length) = A ++ F := by
    rw [List.take_take, min_eq_left (by rw [hlen]; omega),
      show m.off + F.length = (A ++ F).length by simp [hA], hdat, List.append_assoc (A ++ F),
      List.take_left]
  refine ⟨{ m with dat := A ++ F }, ?_, by simp [hA], by simp [asRef, hA, hF],
    fun v hv => h.wellFormed v (by simp [hv])⟩
  simp only [popBack, hitems, bind, Except.bind, List.getLast?_append, List.getLast?_singleton,
    Option.some_or, hval, htake, pure, Except.pure]

theorem dropLast_holds (hV : V.Laws) {x : ProtoValue} (h : Holds V m (l ++ [x])) :
    ∃ m', m.dropLast V = .ok m' ∧ Holds V m' l := by
  obtain ⟨pre, hdat, -, hitems⟩ := h.snoc hV
  have hA : (m.dat.take m.off).length = m.off := by simp [h.offset]
  generalize m.dat.take m.off = A at hdat hA
  generalize hF : (l.map (encodeValue V)).flatten = F at hdat hitems
  have htake : m.dat.take (m.off + F.length) = A ++ F := by
    rw [show m.off + F.length = (A ++ F).length by simp [hA], hdat, List.append_assoc (A ++ F),
      List.take_left]
  refine ⟨{ m with dat := A ++ F }, ?_, by simp [hA], by simp [asRef, hA, hF],
    fun v hv => h.wellFormed v (by simp [hv])⟩
  simp only [dropLast, asRef, hitems, bind, Except.bind, List.getLast?_append,
    List.getLast?_singleton, Option.some_or, htake, pure, Except.pure]

theorem clone_holds (h : Holds V m l) : Holds V m.clone l ∧ m.clone.off = 0 := by
  unfold clone
  split
  · exact ⟨⟨by simp, by simpa [asRef] using h.bytes, h.wellFormed⟩, rfl⟩
  · rename_i hoff
    exact ⟨h, by omega⟩

theorem pushFront_holds (h : Holds V m l) (hoff : m.off = 0) (p : Value)
    (hp : WellFormed (p.code, p.data)) :
    ∃ m', m.pushFront V p = .ok m' ∧ Holds V m' ((p.code, p.data) :: l) ∧ m'.off = 0 := by
  have h1 := h.bytes
  simp only [asRef, hoff, List.drop_zero] at h1
  refine ⟨{ m with dat := p.writeBytes V ++ m.dat }, by simp [pushFront, registered_of_wellFormed hp],
    ⟨by simp [hoff], by simp [asRef, hoff, h1, Value.writeBytes_eq], ?_⟩, hoff⟩
  intro v hv
  simp only [List.mem_cons] at hv
  rcases hv with rfl | hv
  · exact hp
  · exact h.wellFormed v hv

theorem pushBackValue_holds {x : ProtoValue} (h : Holds V m l) (hx : WellFormed x)
    (hv : isValidBytes x.1 x.2) :
    ∃ m', m.pushBackValue V x = .ok m' ∧ Holds V m' (l ++ [x]) := by
  have h1 := h.bytes
  simp only [asRef] at h1
  refine ⟨{ m with dat := m.dat ++ encodeValue V x }, ?_, ?_, ?_, ?_⟩
  · simp [pushBackValue, registered_of_wellFormed hx, codecWriteBytes_of_valid hx hv, bind,
      Except.bind, pure, Except.pure]
  · simp only [List.length_append]; have := h.offset; omega
  · simp [asRef, List.drop_append_of_le_length h.offset, h1]
  · intro v hv'
    simp only [List.mem_append, List.mem_singleton] at hv'
    rcases hv' with hv' | rfl
    · exact h.wellFormed v hv'
    · exact hx

/-- After `pop_front`, `push_front` writes the new component before the popped one, which is
still in the buffer, and leaves the offset: when the two encodings have one length, the buffer
after the offset is the popped component and the rest again, and the pushed one is lost. -/
theorem pushFront_after_popFront (hV : V.Laws) {x : ProtoValue} (h : Holds V m (x :: l))
    (p : Value) (hp : p.code ∈ registeredCodes)
    (hlen : (p.writeBytes V).length = (encodeValue V x).length) :
    ∃ m1 m2, m.popFront V = .ok (some x, m1) ∧ m1.pushFront V p = .ok m2 ∧
      m2.iter V = .ok (x :: l) := by
  refine ⟨_, { dat := p.writeBytes V ++ m.dat, off := m.off + (encodeValue V x).length },
    popFront_cons hV h, by simp [pushFront, hp], iter_of_holds hV ⟨?_, ?_, h.wellFormed⟩⟩
  · simp only [List.length_append]; have := h.offset; omega
  · rw [asRef, ← hlen, Nat.add_comm, ← List.drop_drop, List.drop_left]
    exact h.bytes

theorem pushFront_after_popFront_tcp :
    Varints.leb128.Laws ∧ ∃ m0 m1 m2,
      (default.pushBack .leb128 (.tcp 1) >>= pushBack .leb128 (.tcp 2)) = .ok m0 ∧
      m0.popFront .leb128 = .ok (some (tcpCode, [0, 1]), m1) ∧
      m1.pushFront .leb128 (.tcp 3) = .ok m2 ∧
      m2.iter .leb128 = .ok [(tcpCode, [0, 1]), (tcpCode, [0, 2])] := by
  have hwf : ∀ n : UInt16, WellFormed ((Value.tcp n).code, (Value.tcp n).data) := fun n =>
    .inr (.inr (.inl ⟨rfl, by simp [Value.data]⟩))
  obtain ⟨m, hm, h1⟩ := pushBack_holds (V := .leb128) holds_default (.tcp 1) (hwf 1)
  obtain ⟨m0, hm0, h2⟩ := pushBack_holds h1 (.tcp 2) (hwf 2)
  -- both encodings are the code's varint and two bytes of port
  have hlen : ((Value.tcp 3).writeBytes .leb128).length =
      (encodeValue .leb128 ((Value.tcp 1).code, (Value.tcp 1).data)).length := by
    simp [Value.writeBytes, encodeValue, Value.code, Value.data, strCodes, StrProto.all,
      StrProto.code, tcpCode]
  obtain ⟨m1, m2, hpop, hpush, hiter⟩ := pushFront_after_popFront Varints.leb128_laws h2 (.tcp 3)
    (by simp [Value.code, registeredCodes, tcpCode]) hlen
  exact ⟨Varints.leb128_laws, m0, m1, m2, by simp [hm, hm0, bind, Except.bind], hpop, hpush, hiter⟩

lemma popBack_nil (hV : V.Laws) (h : Holds V m []) : m.popBack V = .ok (none, m) := by
  have hd : m.dat.drop m.off = [] := by simpa [asRef] using h.bytes
  have := validItems_encode hV (l := []) (by simp)
  simp only [List.map_nil, List.flatten_nil, located] at this
  simp [popBack, hd, this, bind, Except.bind, pure, Except.pure]

lemma dropFirst_nil (h : Holds V m []) : m.dropFirst V = .ok m := by
  have hd : m.asRef = [] := by simpa using h.bytes
  simp [dropFirst, BytesIter.withRegistry, BytesIter.next, hd]

lemma dropLast_nil (hV : V.Laws) (h : Holds V m []) : m.dropLast V = .ok m := by
  have hd : m.asRef = [] := by simpa using h.bytes
  have := validItems_encode hV (l := []) (by simp)
  simp only [List.map_nil, List.flatten_nil, located] at this
  simp [dropLast, hd, this, bind, Except.bind, pure, Except.pure]

end MultiAddr

/-- The operations on a `MultiAddr` that change its components. -/
inductive Op where
  | pushBack (p : Value)
  | pushFront (p : Value)
  | popBack
  | popFront
  | dropFirst
  | dropLast
  | clone

namespace Op

open MultiAddr

def apply (V : Varints) : Op → MultiAddr → Except Fault MultiAddr
  | pushBack p, m => (m.pushBack V p).mapError .error
  | pushFront p, m => (m.pushFront V p).mapError .error
  | popBack, m => Prod.snd <$> m.popBack V
  | popFront, m => Prod.snd <$> m.popFront V
  | dropFirst, m => m.dropFirst V
  | dropLast, m => m.dropLast V
  | clone, m => .ok m.clone

/-- The operation on the `VecDeque` of components. -/
def onDeque : Op → List ProtoValue → List ProtoValue
  | pushBack p, l => l ++ [(p.code, p.data)]
  | pushFront p, l => (p.code, p.data) :: l
  | popBack, l => l.dropLast
  | popFront, l => l.tail
  | dropFirst, l => l.tail
  | dropLast, l => l.dropLast
  | clone, l => l

/-- An operation other than `push_front`, whose pushed value is well formed. -/
def Safe : Op → Prop
  | pushBack p => WellFormed (p.code, p.data)
  | pushFront _ => False
  | _ => True

variable {m : MultiAddr} {l : List ProtoValue}

theorem apply_holds (hV : V.Laws) {op : Op} (hop : op.Safe) (h : Holds V m l) :
    ∃ m', op.apply V m = .ok m' ∧ Holds V m' (op.onDeque l) := by
  cases op with
  | pushBack p =>
    obtain ⟨m', hm', h'⟩ := pushBack_holds h p hop
    exact ⟨m', by simp [apply, hm', Except.mapError], h'⟩
  | pushFront p => exact hop.elim
  | popBack =>
    rcases List.eq_nil_or_concat l with rfl | ⟨l, x, rfl⟩
    · exact ⟨m, by simp [apply, popBack_nil hV h, Functor.map, Except.map], h⟩
    · rw [List.concat_eq_append] at h ⊢
      obtain ⟨m', hm', h'⟩ := popBack_holds hV h
      exact ⟨m', by simp [apply, hm', Functor.map, Except.map], by simpa [onDeque] using h'⟩
  | popFront =>
    cases l with
    | nil => exact ⟨m, by simp [apply, popFront_nil h, Functor.map, Except.map], h⟩
    | cons x l =>
      obtain ⟨m', hm', h'⟩ := popFront_holds hV h
      exact ⟨m', by simp [apply, hm', Functor.map, Except.map], h'⟩
  | dropFirst =>
    cases l with
    | nil => exact ⟨m, dropFirst_nil h, h⟩
    | cons x l => exact dropFirst_holds hV h
  | dropLast =>
    rcases List.eq_nil_or_concat l with rfl | ⟨l, x, rfl⟩
    · exact ⟨m, dropLast_nil hV h, h⟩
    · rw [List.concat_eq_append] at h ⊢
      obtain ⟨m', hm', h'⟩ := dropLast_holds hV h
      exact ⟨m', hm', by simpa [onDeque] using h'⟩
  | clone => exact ⟨m.clone, rfl, (clone_holds h).1⟩

theorem run_holds (hV : V.Laws) : ∀ (ops : List Op), (∀ op ∈ ops, op.Safe) → Holds V m l →
    ∃ m', ops.foldlM (fun m op => op.apply V m) m = .ok m' ∧
      Holds V m' (ops.foldl (fun l op => op.onDeque l) l) := by
  intro ops
  induction ops generalizing m l with
  | nil => intro _ h; exact ⟨m, rfl, h⟩
  | cons op ops ih =>
    intro hops h
    obtain ⟨m1, hm1, h1⟩ := apply_holds hV (hops op (by simp)) h
    obtain ⟨m', hm', h'⟩ := ih (fun o ho => hops o (by simp [ho])) h1
    exact ⟨m', by simp [List.foldlM_cons, hm1, hm', bind, Except.bind], h'⟩

end Op

end Ockam.Multiaddr
