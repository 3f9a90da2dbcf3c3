import Ockam.MultiAddr.Text

/-! What `try_from_bytes` accepts. `Parses b l` is the grammar its iterator reads: a `u32`
varint code of the registry, then the value `split_bytes` cuts, until the input ends.
`try_from_bytes` succeeds exactly on the inputs that parse into values `is_valid_bytes` accepts.
The encodings of well-formed components parse, but so do others: `decode::u32` drops the bits of
a fifth byte above 32, so a code can be written in a longer form that no encoder writes. -/

namespace Ockam.Multiaddr

inductive Parses (V : Varints) : Bytes → List ProtoValue → Prop
  | nil : Parses V [] []
  | cons {b r rest : Bytes} {c : Code} {v : Bytes} {l : List ProtoValue} :
      V.decodeU32 b = .ok (c, r) → c ∈ registeredCodes → splitBytes V c r = .ok (v, rest) →
      Parses V rest l → Parses V b ((c, v) :: l)

variable {V : Varints}

section Reading

variable {bytes : Bytes}

lemma splitBytes_eq_ok (hV : V.Laws) {c : Code} {b v r : Bytes} (h : splitBytes V c b = .ok (v, r)) :
    ∃ pre, b = pre ++ r := by
  unfold splitBytes at h
  split_ifs at h
  -- the fixed-size values
  · cases h; exact ⟨_, (List.take_append_drop 4 b).symm⟩
  · cases h; exact ⟨_, (List.take_append_drop 16 b).symm⟩
  · cases h; exact ⟨_, (List.take_append_drop 2 b).symm⟩
  -- a string value: the varint of its length, then its bytes
  · cases hd : V.decodeUsize b with
    | error e => simp [hd] at h
    | ok p =>
      obtain ⟨len, b'⟩ := p
      obtain ⟨pre, -, rfl⟩ := hV.decodeUsize_eq_ok hd
      simp only [hd] at h
      split_ifs at h
      cases h
      exact ⟨pre ++ b'.take len, by simp⟩

lemma items_isErr (fuel o : ℕ) : BytesIter.items V fuel ⟨bytes, o, true⟩ = [] := by
  cases fuel <;> simp [BytesIter.items, BytesIter.next]

lemma checkItem_eq_ok (item : Except Error (ℕ × Code × Bytes)) :
    MultiAddr.checkItem item = .ok () ↔
      ∃ o c v, item = .ok (o, c, v) ∧ c ∈ registeredCodes ∧ isValidBytes c v := by
  rcases item with e | ⟨o, c, v⟩
  · simp [MultiAddr.checkItem, bind, Except.bind]
  · by_cases hc : c ∈ registeredCodes <;> by_cases hv : isValidBytes c v <;>
      simp [MultiAddr.checkItem, hc, hv, bind, Except.bind, pure, Except.pure, throw, throwThe,
        MonadExceptOf.throw]

lemma not_parses_of_decode_error {b : Bytes} {e : Varint.Error} {l : List ProtoValue} (hb : b ≠ [])
    (hd : V.decodeU32 b = .error e) : ¬ Parses V b l := by
  rintro (_ | ⟨hd', -, -, -⟩)
  · exact hb rfl
  · rw [hd] at hd'; cases hd'

lemma parses_iff_of_decode (hV : V.Laws) {b r : Bytes} {c : Code} {l : List ProtoValue}
    (hd : V.decodeU32 b = .ok (c, r)) :
    Parses V b l ↔ c ∈ registeredCodes ∧
      ∃ v rest l', splitBytes V c r = .ok (v, rest) ∧ l = (c, v) :: l' ∧ Parses V rest l' := by
  constructor
  · rintro (_ | ⟨hd', hc, hs, hp⟩)
    · -- a read takes a byte, and there is none
      obtain ⟨pre, hpre, heq⟩ := hV.decodeU32_eq_ok hd
      exact absurd (List.append_eq_nil_iff.mp heq.symm).1 hpre
    · rw [hd] at hd'
      obtain ⟨rfl, rfl⟩ := Prod.mk.inj (Except.ok.inj hd')
      exact ⟨hc, _, _, _, hs, rfl, hp⟩
  · rintro ⟨hc, v, rest, l', hs, rfl, hp⟩
    exact .cons hd hc hs hp

lemma items_checked_iff (hV : V.Laws) : ∀ (fuel o : ℕ), bytes.length - o < fuel →
    ((∀ x ∈ BytesIter.items V fuel ⟨bytes, o, false⟩, MultiAddr.checkItem x = .ok ()) ↔
      ∃ l, Parses V (bytes.drop o) l ∧ ∀ x ∈ l, isValidBytes x.1 x.2) := by
  intro fuel
  induction fuel with
  | zero => intro o h; omega
  | succ fuel ih =>
    intro o hf
    by_cases hend : bytes.length ≤ o
    · -- the input is read to its end
      have hdrop : bytes.drop o = [] := List.drop_eq_nil_of_le hend
      simp only [BytesIter.items, BytesIter.next, hend, true_or, if_true, List.not_mem_nil,
        false_imp_iff, imp_true_iff, true_iff, hdrop]
      exact ⟨[], .nil, by simp⟩
    have hne : bytes.drop o ≠ [] := by simp; omega
    have hnext : ¬ (bytes.length ≤ o ∨ false = true) := by simpa using hend
    cases hd : V.decodeU32 (bytes.drop o) with
    | error e =>
      -- an error item, and the iterator stops
      simp only [BytesIter.items, BytesIter.next, hnext, if_false, hd, items_isErr,
        List.mem_singleton, forall_eq, checkItem_eq_ok]
      simp [not_parses_of_decode_error hne hd]
    | ok p =>
      obtain ⟨c, r⟩ := p
      by_cases hc : c ∈ registeredCodes
      · cases hs : splitBytes V c r with
        | error e =>
          simp only [BytesIter.items, BytesIter.next, hnext, if_false, hd, hc, if_true, hs,
            items_isErr, List.mem_singleton, forall_eq, checkItem_eq_ok]
          simp [parses_iff_of_decode hV hd, hs]
        | ok q =>
          obtain ⟨v, rest⟩ := q
          -- the component ends where `rest` starts, strictly inside what was left
          obtain ⟨pre, hpre, hdec⟩ := hV.decodeU32_eq_ok hd
          obtain ⟨pre', rfl⟩ := splitBytes_eq_ok hV hs
          have hsuf : bytes.drop o = (pre ++ pre') ++ rest := by rw [hdec, List.append_assoc]
          have hlen : rest.length < bytes.length - o := by
            have := congrArg List.length hsuf
            simp only [List.length_drop, List.length_append] at this
            have : pre.length ≠ 0 := by simpa using hpre
            omega
          have hrest : bytes.drop (bytes.length - rest.length) = rest := by
            have hs' : rest <:+ bytes := (List.suffix_append _ _).trans
              (hsuf ▸ List.drop_suffix o bytes)
            exact (List.suffix_iff_eq_drop.mp hs').symm
          have ih' := ih (bytes.length - rest.length) (by omega)
          rw [hrest] at ih'
          simp only [BytesIter.items, BytesIter.next, hnext, if_false, hd, hc, if_true, hs,
            List.forall_mem_cons]
          rw [ih', checkItem_eq_ok]
          simp only [parses_iff_of_decode hV hd]
          constructor
          · rintro ⟨⟨_, _, _, heq, -, hv⟩, l', hp, hl⟩
            cases heq
            exact ⟨(c, v) :: l', ⟨hc, v, rest, l', hs, rfl, hp⟩, List.forall_mem_cons.mpr ⟨hv, hl⟩⟩
          · rintro ⟨_, ⟨-, v', rest', l', hs', rfl, hp⟩, hl⟩
            rw [hs] at hs'
            cases hs'
            obtain ⟨hv, hl⟩ := List.forall_mem_cons.mp hl
            exact ⟨⟨o, c, v, rfl, hc, hv⟩, l', hp, hl⟩
      · simp only [BytesIter.items, BytesIter.next, hnext, if_false, hd, hc, if_false,
          items_isErr, List.mem_singleton, forall_eq, checkItem_eq_ok]
        simp [parses_iff_of_decode hV hd, hc]

end Reading

section Acceptance

theorem tryFromBytes_eq_ok_iff (hV : V.Laws) (b : Bytes) (m : MultiAddr) :
    MultiAddr.tryFromBytes V b = .ok m ↔
      m = ⟨b, 0⟩ ∧ ∃ l, Parses V b l ∧ ∀ x ∈ l, isValidBytes x.1 x.2 := by
  have hitems := @items_checked_iff V b hV (b.length + 1) 0 (by omega)
  rw [List.drop_zero, ← Except.forM_eq_ok_iff] at hitems
  rw [MultiAddr.tryFromBytes, BytesIter.withRegistry, ← hitems]
  cases h : (BytesIter.items V (b.length + 1) ⟨b, 0, false⟩).forM MultiAddr.checkItem with
  | error e => simp [bind, Except.bind]
  | ok u => simp [bind, Except.bind, pure, Except.pure, eq_comm]

lemma parses_encode (hV : V.Laws) : ∀ {l : List ProtoValue}, (∀ v ∈ l, WellFormed v) →
    Parses V (l.map (encodeValue V)).flatten l
  | [], _ => .nil
  | v :: l, hwf => by
    have hv := hwf v List.mem_cons_self
    have hb : (encodeValue V v :: l.map (encodeValue V)).flatten = V.encodeU32 v.1 ++
        ((encodeValue V v).drop (V.encodeU32 v.1).length ++ (l.map (encodeValue V)).flatten) := by
      rw [List.flatten_cons, ← List.append_assoc, ← encodeValue_eq_encodeU32_append]
    rw [List.map_cons, hb]
    exact .cons (hV.decodeU32_encodeU32 _ _ (code_lt_of_wellFormed hv)) (registered_of_wellFormed hv)
      (splitBytes_encode hV hv _) (parses_encode hV fun w hw => hwf w (List.mem_cons_of_mem v hw))

theorem tryFromBytes_encode (hV : V.Laws) {l : List ProtoValue}
    (hl : ∀ x ∈ l, WellFormed x ∧ isValidBytes x.1 x.2) :
    MultiAddr.tryFromBytes V (l.map (encodeValue V)).flatten = .ok ⟨(l.map (encodeValue V)).flatten, 0⟩ :=
  (tryFromBytes_eq_ok_iff hV _ _).mpr
    ⟨rfl, l, parses_encode hV fun x hx => (hl x hx).1, fun x hx => (hl x hx).2⟩

lemma isValidBytes_data (v : Value) : isValidBytes v.code v.data := by
  cases v with
  | str p s =>
    obtain ⟨h4, h6, ht⟩ := StrProto.code_ne p
    have hs : p.code ∈ strCodes := List.mem_map_of_mem (by cases p <;> decide)
    simp [isValidBytes, Value.code, Value.data, h4, h6, ht, hs, fromUtf8_utf8Bytes]
  | _ => simp [isValidBytes, Value.code]

theorem tryFromBytes_asRef (hV : V.Laws) {m : MultiAddr} {vs : List Value}
    (h : m.Holds V (vs.map Value.toProto)) :
    MultiAddr.tryFromBytes V m.asRef = .ok ⟨m.asRef, 0⟩ := by
  rw [h.bytes]
  exact tryFromBytes_encode hV fun x hx => by
    obtain ⟨v, -, rfl⟩ := List.mem_map.mp hx
    exact ⟨h.wellFormed _ hx, isValidBytes_data v⟩

end Acceptance

section RoundTrips

variable {T : StdText}

lemma holds_of_pushBacks : ∀ (vs : List Value) {m m' : MultiAddr} {l : List ProtoValue},
    m.Holds V l → (∀ v ∈ vs, WellFormed v.toProto) →
    vs.foldlM (fun m v => m.pushBack V v) m = .ok m' → m'.Holds V (l ++ vs.map Value.toProto)
  | [], m, m', l, h, _, hrun => by
    cases hrun
    simpa using h
  | v :: vs, m, m', l, h, hwf, hrun => by
    obtain ⟨m1, hm1, h1⟩ := MultiAddr.pushBack_holds h v (hwf v List.mem_cons_self)
    rw [List.foldlM_cons, hm1] at hrun
    have := holds_of_pushBacks vs h1 (fun w hw => hwf w (List.mem_cons_of_mem v hw)) hrun
    simpa [Value.toProto] using this

theorem multiAddr_round_trips (hT : T.Laws) (hV : V.Laws) :
    (∀ (vs : List Value) (m : MultiAddr), (∀ v ∈ vs, WellFormed v.toProto) →
      (∀ v ∈ vs, v.NoSlash) → vs.foldlM (fun m v => m.pushBack V v) MultiAddr.default = .ok m →
      (∃ t m', m.toString T V = .ok t ∧ tryFromStr T V t = .ok m' ∧ m'.asRef = m.asRef) ∧
      (∃ m', MultiAddr.tryFromBytes V m.asRef = .ok m' ∧ m'.asRef = m.asRef)) ∧
    (∀ (b : Bytes) (m : MultiAddr), MultiAddr.tryFromBytes V b = .ok m ↔
      m = ⟨b, 0⟩ ∧ ∃ l, Parses V b l ∧ ∀ x ∈ l, isValidBytes x.1 x.2) ∧
    (∀ l : List ProtoValue, (∀ x ∈ l, WellFormed x ∧ isValidBytes x.1 x.2) →
      MultiAddr.tryFromBytes V (l.map (encodeValue V)).flatten =
        .ok ⟨(l.map (encodeValue V)).flatten, 0⟩) := by
  refine ⟨?_, tryFromBytes_eq_ok_iff hV, fun l hl => tryFromBytes_encode hV hl⟩
  intro vs m hwf hv hrun
  have h : m.Holds V (vs.map Value.toProto) := by
    simpa using holds_of_pushBacks vs MultiAddr.holds_default hwf hrun
  obtain ⟨t, ht, hparse⟩ := tryFromStr_toString hT hV h hv
  exact ⟨⟨t, _, ht, hparse, List.drop_zero⟩, ⟨_, tryFromBytes_asRef hV h, List.drop_zero⟩⟩

/-- The text of a number in unary, a `StdText` with the laws. -/
def unaryText : StdText where
  showU16 n := List.replicate n.toNat 'a'
  readU16 s := if s.all (· = 'a') then some (UInt16.ofNat s.length) else none
  showIp4 a := List.replicate a 'a'
  readIp4 s := if h : s.all (· = 'a') ∧ s.length < 2 ^ 32 then some ⟨s.length, h.2⟩ else none
  showIp6 a := List.replicate a 'a'
  readIp6 s := if h : s.all (· = 'a') ∧ s.length < 2 ^ 128 then some ⟨s.length, h.2⟩ else none

lemma unaryText_laws : unaryText.Laws where
  readU16_showU16 n := by simp [unaryText]
  readIp4_showIp4 a := by simp [unaryText]
  readIp6_showIp6 a := by simp [unaryText]
  slash_showU16 n := by simp [unaryText, List.mem_replicate]
  slash_showIp4 a := by simp [unaryText, List.mem_replicate]
  slash_showIp6 a := by simp [unaryText, List.mem_replicate]

theorem multiAddr_round_trips_unary : unaryText.Laws ∧ Varints.leb128.Laws ∧
    (∀ (vs : List Value) (m : MultiAddr), (∀ v ∈ vs, WellFormed v.toProto) →
      (∀ v ∈ vs, v.NoSlash) → vs.foldlM (fun m v => m.pushBack .leb128 v) MultiAddr.default = .ok m →
      (∃ t m', m.toString unaryText .leb128 = .ok t ∧ tryFromStr unaryText .leb128 t = .ok m' ∧
        m'.asRef = m.asRef) ∧
      (∃ m', MultiAddr.tryFromBytes .leb128 m.asRef = .ok m' ∧ m'.asRef = m.asRef)) ∧
    (∀ (b : Bytes) (m : MultiAddr), MultiAddr.tryFromBytes .leb128 b = .ok m ↔
      m = ⟨b, 0⟩ ∧ ∃ l, Parses .leb128 b l ∧ ∀ x ∈ l, isValidBytes x.1 x.2) ∧
    (∀ l : List ProtoValue, (∀ x ∈ l, WellFormed x ∧ isValidBytes x.1 x.2) →
      MultiAddr.tryFromBytes .leb128 (l.map (encodeValue .leb128)).flatten =
        .ok ⟨(l.map (encodeValue .leb128)).flatten, 0⟩) :=
  ⟨unaryText_laws, Varints.leb128_laws, multiAddr_round_trips unaryText_laws Varints.leb128_laws⟩

lemma long_code_accepted (hV : V.Laws) (hC : V.CutsU32) :
    MultiAddr.tryFromBytes V [0x86, 0x80, 0x80, 0x80, 0x10, 0, 80] =
        .ok ⟨[0x86, 0x80, 0x80, 0x80, 0x10, 0, 80], 0⟩ ∧
      ∀ l : List ProtoValue, (∀ x ∈ l, WellFormed x) →
        (l.map (encodeValue V)).flatten ≠ [0x86, 0x80, 0x80, 0x80, 0x10, 0, 80] := by
  constructor
  · have hd : V.decodeU32 [0x86, 0x80, 0x80, 0x80, 0x10, 0, 80] = .ok (tcpCode, [0, 80]) := by
      rw [hC _ _ _ _ _ _ (by decide) (by decide) (by decide) (by decide) (by decide) (by decide)]
      rfl
    have hs : splitBytes V tcpCode [0, 80] = .ok ([0, 80], []) := by
      simp [splitBytes, tcpCode, ip4Code, ip6Code]
    have hp : Parses V [0x86, 0x80, 0x80, 0x80, 0x10, 0, 80] [(tcpCode, [0, 80])] :=
      .cons hd (by decide) hs .nil
    exact (tryFromBytes_eq_ok_iff hV _ _).mpr ⟨rfl, _, hp, by decide⟩
  · intro l hl heq
    cases l with
    | nil => simp at heq
    | cons x l =>
      -- the first byte of an encoding is the first byte of its code's varint
      have hhead := congrArg List.head? heq
      rw [List.map_cons, List.flatten_cons, encodeValue_eq_encodeU32_append, List.append_assoc,
        List.head?_append_of_ne_nil _ (hV.encodeU32_ne_nil _), hV.head?_encodeU32] at hhead
      have hall : ∀ c ∈ registeredCodes,
          (if c < 128 then UInt8.ofNat c else UInt8.ofNat (c % 128 + 128)) ≠ 0x86 := by decide
      exact hall _ (registered_of_wellFormed (hl x List.mem_cons_self)) (Option.some.inj hhead)

theorem tryFromBytes_long_code :
    MultiAddr.tryFromBytes .leb128 [0x86, 0x80, 0x80, 0x80, 0x10, 0, 80] =
        .ok ⟨[0x86, 0x80, 0x80, 0x80, 0x10, 0, 80], 0⟩ ∧
      ∀ l : List ProtoValue, (∀ x ∈ l, WellFormed x) →
        (l.map (encodeValue .leb128)).flatten ≠ [0x86, 0x80, 0x80, 0x80, 0x10, 0, 80] :=
  long_code_accepted Varints.leb128_laws Varints.leb128_cutsU32

end RoundTrips

end Ockam.Multiaddr
