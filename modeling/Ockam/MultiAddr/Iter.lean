import Ockam.MultiAddr.Proto

/-! `BytesIter` and `ValidBytesIter` (`iter.rs`). -/

namespace Ockam.Multiaddr

variable (V : Varints)

structure BytesIter where
  bytes : Bytes
  offset : ℕ
  isErr : Bool

namespace BytesIter

/-- `BytesIter::with_registry` with the default registry. -/
def withRegistry (bytes : Bytes) : BytesIter := ⟨bytes, 0, false⟩

def next (it : BytesIter) : Option (Except Error (ℕ × Code × Bytes)) × BytesIter :=
  if it.bytes.length ≤ it.offset ∨ it.isErr then (none, it)
  else
    match V.decodeU32 (it.bytes.drop it.offset) with
    | .ok (code, bytes) =>
      if code ∈ registeredCodes then
        match splitBytes V code bytes with
        | .ok (val, rest) =>
          (some (.ok (it.offset, code, val)), { it with offset := it.bytes.length - rest.length })
        | .error e => (some (.error e), { it with isErr := true })
      else (some (.error (.unregistered code)), { it with isErr := true })
    | .error e => (some (.error (.varint e)), { it with isErr := true })

/-- The items of successive calls of `next` until it gives `None`, at most `fuel` of them. -/
def items : ℕ → BytesIter → List (Except Error (ℕ × Code × Bytes))
  | 0, _ => []
  | fuel + 1, it =>
    match it.next V with
    | (none, _) => []
    | (some x, it') => x :: items fuel it'

end BytesIter

/-- `ValidBytesIter` run to its end: the components with their offsets, or a panic at the first
error. -/
def validItems (bytes : Bytes) : Except Fault (List (ℕ × Code × Bytes)) :=
  ((BytesIter.withRegistry bytes).items V (bytes.length + 1)).mapM fun
    | .ok x => .ok x
    | .error _ => .error .panic

/-- The components of a list laid out from offset `o`. -/
def located (o : ℕ) : List ProtoValue → List (ℕ × Code × Bytes)
  | [] => []
  | v :: l => (o, v.1, v.2) :: located (o + (encodeValue V v).length) l

section Reading

variable {V} {v : ProtoValue}

lemma mem_registeredCodes_of_strCodes {c : Code} (h : c ∈ strCodes) : c ∈ registeredCodes := by
  simp only [registeredCodes, List.mem_cons]
  exact .inr (.inr (.inr h))

lemma code_lt_of_wellFormed (hv : WellFormed v) : v.1 < 2 ^ 32 := by
  rcases hv with ⟨h, -⟩ | ⟨h, -⟩ | ⟨h, -⟩ | ⟨h, -⟩
  · simp [h, ip4Code]
  · simp [h, ip6Code]
  · simp [h, tcpCode]
  · simp only [strCodes, StrProto.all, List.map_cons, List.map_nil, List.mem_cons,
      List.not_mem_nil, or_false] at h
    rcases h with h | h | h | h | h | h | h <;> simp [h, StrProto.code]

lemma registered_of_wellFormed (hv : WellFormed v) : v.1 ∈ registeredCodes := by
  rcases hv with ⟨h, -⟩ | ⟨h, -⟩ | ⟨h, -⟩ | ⟨h, -⟩
  · simp [h, registeredCodes]
  · simp [h, registeredCodes]
  · simp [h, registeredCodes]
  · exact mem_registeredCodes_of_strCodes h

lemma splitBytes_encode (hV : V.Laws) (hv : WellFormed v) (rest : Bytes) :
    splitBytes V v.1 ((encodeValue V v).drop (V.encodeU32 v.1).length ++ rest) = .ok (v.2, rest) := by
  obtain ⟨c, d⟩ := v
  rcases hv with ⟨rfl, hd⟩ | ⟨rfl, hd⟩ | ⟨rfl, hd⟩ | ⟨hc, hd⟩
  · simp [splitBytes, encodeValue, strCodes, StrProto.all, StrProto.code, ip4Code, hd]
  · simp [splitBytes, encodeValue, strCodes, StrProto.all, StrProto.code, ip4Code, ip6Code, hd]
  · -- the port: two bytes, so the length check on the rest passes
    have hd : d.length = 2 := hd
    have hlen : 1 < 2 + rest.length := by omega
    simp [splitBytes, encodeValue, strCodes, StrProto.all, StrProto.code, ip4Code, ip6Code,
      tcpCode, hd, hlen]
  · have h4 := ne_of_mem_strCodes hc
    simp [splitBytes, encodeValue, hc, h4, List.append_assoc, hV.decodeUsize_encodeUsize _ _ hd]

lemma encodeValue_eq_encodeU32_append (v : ProtoValue) :
    encodeValue V v = V.encodeU32 v.1 ++ (encodeValue V v).drop (V.encodeU32 v.1).length := by
  unfold encodeValue; split <;> simp [List.append_assoc]

lemma encodeValue_length_pos (hV : V.Laws) (v : ProtoValue) : 0 < (encodeValue V v).length := by
  unfold encodeValue
  split <;> simp [hV.encodeU32_ne_nil, List.length_pos_iff]

lemma next_encode (hV : V.Laws) (hv : WellFormed v) {bytes rest : Bytes} {o : ℕ}
    (hb : bytes.drop o = encodeValue V v ++ rest) :
    (BytesIter.mk bytes o false).next V =
      (some (.ok (o, v.1, v.2)), ⟨bytes, o + (encodeValue V v).length, false⟩) := by
  have hpos := encodeValue_length_pos hV v
  have hlen : bytes.length = o + (encodeValue V v).length + rest.length := by
    have h1 := congrArg List.length hb
    rw [List.length_drop, List.length_append] at h1
    omega
  have hb' : bytes.drop o =
      V.encodeU32 v.1 ++ ((encodeValue V v).drop (V.encodeU32 v.1).length ++ rest) := by
    rw [hb, ← List.append_assoc, ← encodeValue_eq_encodeU32_append]
  have hne : ¬ (bytes.length ≤ o ∨ false = true) := by
    simp only [Bool.false_eq_true, or_false, not_le]
    omega
  simp only [BytesIter.next, hne, if_false, hb', hV.decodeU32_encodeU32 _ _ (code_lt_of_wellFormed hv),
    registered_of_wellFormed hv, if_true, splitBytes_encode hV hv, Prod.mk.injEq, true_and]
  congr 1
  omega

lemma items_encode (hV : V.Laws) {bytes : Bytes} :
    ∀ (l : List ProtoValue) (o fuel : ℕ), (∀ v ∈ l, WellFormed v) →
      bytes.drop o = (l.map (encodeValue V)).flatten → l.length < fuel →
      BytesIter.items V fuel ⟨bytes, o, false⟩ = (located V o l).map .ok := by
  intro l
  induction l with
  | nil =>
    intro o fuel _ hb hf
    obtain ⟨fuel, rfl⟩ : ∃ f, fuel = f + 1 := ⟨fuel - 1, by simp at hf; omega⟩
    have : bytes.length ≤ o := by simpa using hb
    simp [BytesIter.items, BytesIter.next, this, located]
  | cons v l ih =>
    intro o fuel hwf hb hf
    obtain ⟨fuel, rfl⟩ : ∃ f, fuel = f + 1 := ⟨fuel - 1, by simp at hf; omega⟩
    have hv := hwf v (by simp)
    have hb1 : bytes.drop o = encodeValue V v ++ (l.map (encodeValue V)).flatten := by simpa using hb
    have hb2 : bytes.drop (o + (encodeValue V v).length) = (l.map (encodeValue V)).flatten := by
      rw [← List.drop_drop, hb1, List.drop_left]
    rw [BytesIter.items, next_encode hV hv hb1]
    simp only [located, List.map_cons, List.cons.injEq, true_and]
    exact ih _ fuel (fun w hw => hwf w (by simp [hw])) hb2 (by simp at hf; omega)

lemma length_le_flatten_encode (hV : V.Laws) (l : List ProtoValue) :
    l.length ≤ (l.map (encodeValue V)).flatten.length := by
  induction l with
  | nil => simp
  | cons v l ih =>
    have := encodeValue_length_pos hV v
    simp only [List.length_cons, List.map_cons, List.flatten_cons, List.length_append]
    omega

theorem validItems_encode (hV : V.Laws) {l : List ProtoValue} (hwf : ∀ v ∈ l, WellFormed v) :
    validItems V (l.map (encodeValue V)).flatten = .ok (located V 0 l) := by
  rw [validItems, BytesIter.withRegistry, items_encode hV l 0 _ hwf (by simp)
    (Nat.lt_succ_of_le (length_le_flatten_encode hV l))]
  generalize located V 0 l = xs
  induction xs with
  | nil => rfl
  | cons x xs ih => simp [List.mapM_cons, ih, bind, Except.bind, pure, Except.pure]

end Reading

end Ockam.Multiaddr
