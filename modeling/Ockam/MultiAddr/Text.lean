import Ockam.MultiAddr.Deque
import Ockam.Lib.StateMonad

/-! The text form of a `MultiAddr` (`Display`, `StrIter`, `StdCodec::split_str`,
`transcode_str`, `transcode_bytes`) and `try_from_bytes`, with their round trips. The text of a
`u16`, an `Ipv4Addr` and an `Ipv6Addr` comes from the Rust standard library and is taken as
given, with the laws that it reads back and has no `/`. -/

namespace Ockam.Multiaddr

open Ockam.Lib

/-- `Display` and `FromStr` of the standard types a protocol value holds. -/
structure StdText where
  showU16 : UInt16 → List Char
  readU16 : List Char → Option UInt16
  showIp4 : Fin (2 ^ 32) → List Char
  readIp4 : List Char → Option (Fin (2 ^ 32))
  showIp6 : Fin (2 ^ 128) → List Char
  readIp6 : List Char → Option (Fin (2 ^ 128))

structure StdText.Laws (T : StdText) : Prop where
  readU16_showU16 : ∀ n, T.readU16 (T.showU16 n) = some n
  readIp4_showIp4 : ∀ a, T.readIp4 (T.showIp4 a) = some a
  readIp6_showIp6 : ∀ a, T.readIp6 (T.showIp6 a) = some a
  slash_showU16 : ∀ n, '/' ∉ T.showU16 n
  slash_showIp4 : ∀ a, '/' ∉ T.showIp4 a
  slash_showIp6 : ∀ a, '/' ∉ T.showIp6 a

variable (T : StdText) (V : Varints)

def tcpPrefix : List Char := "tcp".toList
def ip4Prefix : List Char := "ip4".toList
def ip6Prefix : List Char := "ip6".toList

def registeredPrefixes : List (List Char) :=
  ip4Prefix :: ip6Prefix :: tcpPrefix :: StrProto.all.map StrProto.prefix_

def StrProto.ofCode (c : Code) : Option StrProto := StrProto.all.find? (·.code = c)

def StrProto.ofPrefix (p : List Char) : Option StrProto := StrProto.all.find? (·.prefix_ = p)

def splitOnce (c : Char) : List Char → Option (List Char × List Char)
  | [] => none
  | x :: xs => if x = c then some ([], xs) else (splitOnce c xs).map fun (a, b) => (x :: a, b)

/-- `StdCodec::split_str`: the value runs to the next `/`. -/
def splitStr (input : List Char) : List Char × List Char :=
  if '/' ∈ input then (input.take (input.idxOf '/'), input.drop (input.idxOf '/'))
  else (input, [])

/-- `StrIter::next`: the prefix and the value of the next component, and the text after it. -/
def strIterNext (string : List Char) : Option (Except Error (List Char × List Char)) × List Char :=
  if string.isEmpty then (none, string)
  else
    let (pre, value) := match splitOnce '/' string with
      | some ([], s) => match splitOnce '/' s with
        | some (p, r) => (p, r)
        | none => (s, [])
      | some (p, s) => (p, s)
      | none => (string, [])
    if pre ∈ registeredPrefixes then
      let (val, rest) := splitStr value
      (some (.ok (pre, val)), rest)
    else (some (.error (.unregisteredPrefix pre)), string)

/-- `StdCodec::transcode_str`: read the value for the prefix and write its bytes. -/
def transcodeStr (pre value : List Char) : Except Error Bytes :=
  if pre = ip4Prefix then
    match T.readIp4 value with
    | some a => .ok ((Value.ip4 a).writeBytes V)
    | none => .error .message
  else if pre = ip6Prefix then
    match T.readIp6 value with
    | some a => .ok ((Value.ip6 a).writeBytes V)
    | none => .error .message
  else if pre = tcpPrefix then
    match T.readU16 value with
    | some n => .ok ((Value.tcp n).writeBytes V)
    | none => .error .message
  else
    match StrProto.ofPrefix pre with
    | some p => .ok ((Value.str p value).writeBytes V)
    | none => .error (.unregisteredPrefix pre)

/-- `try_from_str`, over at most `fuel` components. -/
def tryFromStrGo : ℕ → List Char → Bytes → Except Error Bytes
  | 0, _, b => .ok b
  | fuel + 1, s, b =>
    match strIterNext s with
    | (none, _) => .ok b
    | (some (.error e), _) => .error e
    | (some (.ok (pre, value)), rest) => do
      -- `get_by_prefix(prefix).ok_or_else(..)?`, which `StrIter` has already checked
      if pre ∉ registeredPrefixes then throw (.unregisteredPrefix pre)
      let bs ← transcodeStr T V pre value
      tryFromStrGo fuel rest (b ++ bs)

def tryFromStr (input : List Char) : Except Error MultiAddr := do
  let b ← tryFromStrGo T V (input.length + 1) input []
  pure ⟨b, 0⟩

namespace Value

def toProto (v : Value) : ProtoValue := (v.code, v.data)

/-- The text of a value after its prefix. -/
def valueText : Value → List Char
  | tcp port => T.showU16 port
  | ip4 addr => T.showIp4 addr
  | ip6 addr => T.showIp6 addr
  | str _ s => s

def pre : Value → List Char
  | tcp _ => tcpPrefix
  | ip4 _ => ip4Prefix
  | ip6 _ => ip6Prefix
  | str p _ => p.prefix_

/-- `Protocol::write_str`: `/prefix/value`. -/
def writeStr (v : Value) : List Char := '/' :: v.pre ++ '/' :: v.valueText T

/-- A string value without `/`, which the text form cannot carry. -/
def NoSlash : Value → Prop
  | str _ s => '/' ∉ s
  | _ => True

end Value

/-- `StdCodec::transcode_bytes`: `read_bytes`, then `write_str`. `copy_from_slice` panics on a
fixed-size value of another length; a string that is not UTF-8 is an error of `read_bytes`,
which `Display` skips (`none`); `get_by_code(..).expect` panics on an unregistered code. -/
def transcodeBytes (code : Code) (value : Bytes) : Except Fault (Option (List Char)) :=
  if code = ip4Code then
    if h : value.length = 4 then
      .ok (some ((Value.ip4 ⟨BigEndian.decode value, (BigEndian.decode_lt value).trans_eq (by rw [h]; rfl)⟩).writeStr T))
    else .error .panic
  else if code = ip6Code then
    if h : value.length = 16 then
      .ok (some ((Value.ip6 ⟨BigEndian.decode value, (BigEndian.decode_lt value).trans_eq (by rw [h]; rfl)⟩).writeStr T))
    else .error .panic
  else if code = tcpCode then
    if value.length = 2 then .ok (some ((Value.tcp (UInt16.ofNat (BigEndian.decode value))).writeStr T))
    else .error .panic
  else
    match StrProto.ofCode code with
    | some p => .ok ((fromUtf8 value).map fun s => (Value.str p s).writeStr T)
    | none => .error .panic

namespace MultiAddr

/-- `to_string()`, through `Display`: each component of `iter()` in turn. -/
def toString (m : MultiAddr) : Except Fault (List Char) := do
  let ps ← m.iter V
  let texts ← ps.mapM fun (c, d) => transcodeBytes T c d
  pure (texts.map (·.getD [])).flatten

end MultiAddr

section Display

variable {T} {V}

lemma fromUtf8_utf8Bytes (s : List Char) : fromUtf8 (utf8Bytes s) = some s := by
  simp only [fromUtf8, utf8Bytes, String.toUTF8_eq_toByteArray, String.toByteArray_ofList]
  exact congrArg (Option.map Array.toList) List.utf8Decode?_utf8Encode

lemma StrProto.ofCode_code (p : StrProto) : StrProto.ofCode p.code = some p := by
  cases p <;> decide

lemma transcodeBytes_toProto (v : Value) :
    transcodeBytes T v.code v.data = .ok (some (v.writeStr T)) := by
  cases v with
  | tcp port =>
    have hd : BigEndian.decode (BigEndian.encode 2 port.toNat) = port.toNat :=
      BigEndian.decode_encode 2 _ port.toNat_lt
    simp [transcodeBytes, Value.code, Value.data, tcpCode, ip4Code, ip6Code, hd]
  | ip4 addr =>
    have hd : BigEndian.decode (BigEndian.encode 4 addr) = addr :=
      BigEndian.decode_encode 4 _ addr.isLt
    simp [transcodeBytes, Value.code, Value.data, ip4Code, hd]
  | ip6 addr =>
    have hd : BigEndian.decode (BigEndian.encode 16 addr) = addr :=
      BigEndian.decode_encode 16 _ addr.isLt
    simp [transcodeBytes, Value.code, Value.data, ip4Code, ip6Code, hd]
  | str p s =>
    obtain ⟨h4, h6, ht⟩ := StrProto.code_ne p
    simp [transcodeBytes, Value.code, Value.data, h4, h6, ht, StrProto.ofCode_code,
      fromUtf8_utf8Bytes]

lemma mapM_transcodeBytes (vs : List Value) :
    (vs.map Value.toProto).mapM (fun (c, d) => transcodeBytes T c d) =
      .ok (vs.map fun v => some (v.writeStr T)) := by
  induction vs with
  | nil => rfl
  | cons v vs ih =>
    simp [List.mapM_cons, Value.toProto, transcodeBytes_toProto, ih, bind, Except.bind, pure,
      Except.pure]

theorem toString_of_holds (hV : V.Laws) {m : MultiAddr} {vs : List Value}
    (h : m.Holds V (vs.map Value.toProto)) :
    m.toString T V = .ok (vs.map (Value.writeStr T)).flatten := by
  have hm := mapM_transcodeBytes (T := T) vs
  simp only [MultiAddr.toString, MultiAddr.iter_of_holds hV h, bind, Except.bind, hm, pure,
    Except.pure, List.map_map]
  rfl

end Display

section Parsing

variable {T} {V}

lemma splitOnce_append {c : Char} {p : List Char} (hp : c ∉ p) (r : List Char) :
    splitOnce c (p ++ c :: r) = some (p, r) := by
  induction p with
  | nil => simp [splitOnce]
  | cons x p ih =>
    have hx : x ≠ c := fun h => hp (h ▸ List.mem_cons_self)
    simp [splitOnce, hx, ih (fun h => hp (List.mem_cons_of_mem x h))]

/-- The text after a component is empty or starts the next one. -/
def StartsComponent (rest : List Char) : Prop := rest = [] ∨ ∃ r, rest = '/' :: r

lemma splitStr_append {v rest : List Char} (hv : '/' ∉ v) (hr : StartsComponent rest) :
    splitStr (v ++ rest) = (v, rest) := by
  rcases hr with rfl | ⟨r, rfl⟩
  · simp [splitStr, hv]
  · have hi : (v ++ '/' :: r).idxOf '/' = v.length := by
      simp [List.idxOf_append_of_notMem hv]
    simp [splitStr, hi]

lemma slash_not_mem_pre (v : Value) : '/' ∉ v.pre := by
  cases v with
  | tcp => show '/' ∉ tcpPrefix; decide
  | ip4 => show '/' ∉ ip4Prefix; decide
  | ip6 => show '/' ∉ ip6Prefix; decide
  | str p => show '/' ∉ p.prefix_; cases p <;> decide

lemma pre_mem_registeredPrefixes (v : Value) : v.pre ∈ registeredPrefixes := by
  cases v with
  | tcp => show tcpPrefix ∈ registeredPrefixes; decide
  | ip4 => show ip4Prefix ∈ registeredPrefixes; decide
  | ip6 => show ip6Prefix ∈ registeredPrefixes; decide
  | str p => show p.prefix_ ∈ registeredPrefixes; cases p <;> decide

lemma slash_not_mem_valueText (hT : T.Laws) {v : Value} (hv : v.NoSlash) : '/' ∉ v.valueText T := by
  cases v with
  | tcp port => exact hT.slash_showU16 port
  | ip4 addr => exact hT.slash_showIp4 addr
  | ip6 addr => exact hT.slash_showIp6 addr
  | str p s => exact hv

lemma strIterNext_writeStr (hT : T.Laws) {v : Value} (hv : v.NoSlash) {rest : List Char}
    (hr : StartsComponent rest) :
    strIterNext (v.writeStr T ++ rest) = (some (.ok (v.pre, v.valueText T)), rest) := by
  have hsplit : splitOnce '/' (v.pre ++ '/' :: (v.valueText T ++ rest)) =
      some (v.pre, v.valueText T ++ rest) := splitOnce_append (slash_not_mem_pre v) _
  simp [strIterNext, Value.writeStr, splitOnce, hsplit, pre_mem_registeredPrefixes,
    splitStr_append (slash_not_mem_valueText hT hv) hr]

lemma StrProto.ofPrefix_prefix (p : StrProto) : StrProto.ofPrefix p.prefix_ = some p := by
  cases p <;> decide

lemma StrProto.prefix_ne (p : StrProto) :
    p.prefix_ ≠ ip4Prefix ∧ p.prefix_ ≠ ip6Prefix ∧ p.prefix_ ≠ tcpPrefix := by
  cases p <;> decide

lemma transcodeStr_pre (hT : T.Laws) (v : Value) :
    transcodeStr T V v.pre (v.valueText T) = .ok (v.writeBytes V) := by
  cases v with
  | tcp port => simp [transcodeStr, Value.pre, Value.valueText, hT.readU16_showU16, tcpPrefix,
      ip4Prefix, ip6Prefix]
  | ip4 addr => simp [transcodeStr, Value.pre, Value.valueText, hT.readIp4_showIp4, ip4Prefix]
  | ip6 addr => simp [transcodeStr, Value.pre, Value.valueText, hT.readIp6_showIp6, ip4Prefix,
      ip6Prefix]
  | str p s =>
    obtain ⟨h4, h6, ht⟩ := StrProto.prefix_ne p
    simp [transcodeStr, Value.pre, Value.valueText, h4, h6, ht, StrProto.ofPrefix_prefix]

lemma startsComponent_flatten (vs : List Value) :
    StartsComponent (vs.map (Value.writeStr T)).flatten := by
  cases vs with
  | nil => exact .inl rfl
  | cons v vs => exact .inr ⟨v.pre ++ '/' :: (v.valueText T ++ (vs.map (Value.writeStr T)).flatten),
      by simp [Value.writeStr]⟩

lemma length_le_flatten_writeStr (vs : List Value) :
    vs.length ≤ (vs.map (Value.writeStr T)).flatten.length := by
  induction vs with
  | nil => simp
  | cons v vs ih =>
    have hv : 0 < (v.writeStr T).length := by simp [Value.writeStr]
    simp only [List.map_cons, List.flatten_cons, List.length_append, List.length_cons]
    omega

lemma tryFromStrGo_flatten (hT : T.Laws) :
    ∀ (vs : List Value) (b : Bytes) (fuel : ℕ), vs.length < fuel → (∀ v ∈ vs, v.NoSlash) →
      tryFromStrGo T V fuel (vs.map (Value.writeStr T)).flatten b =
        .ok (b ++ (vs.map (Value.writeBytes V)).flatten) := by
  intro vs
  induction vs with
  | nil =>
    intro b fuel hf _
    obtain ⟨fuel, rfl⟩ : ∃ f, fuel = f + 1 := ⟨fuel - 1, by simp at hf; omega⟩
    simp [tryFromStrGo, strIterNext]
  | cons v vs ih =>
    intro b fuel hf hv
    obtain ⟨fuel, rfl⟩ : ∃ f, fuel = f + 1 := ⟨fuel - 1, by simp at hf; omega⟩
    have hnext := strIterNext_writeStr hT (hv v List.mem_cons_self) (startsComponent_flatten (T := T) vs)
    have hrest := ih (b ++ v.writeBytes V) fuel (by simp at hf; omega)
      (fun w hw => hv w (List.mem_cons_of_mem v hw))
    simp [tryFromStrGo, hnext, pre_mem_registeredPrefixes, transcodeStr_pre hT, hrest, bind,
      Except.bind]

theorem tryFromStr_toString (hT : T.Laws) (hV : V.Laws) {m : MultiAddr} {vs : List Value}
    (h : m.Holds V (vs.map Value.toProto)) (hv : ∀ v ∈ vs, v.NoSlash) :
    ∃ t, m.toString T V = .ok t ∧ tryFromStr T V t = .ok ⟨m.asRef, 0⟩ := by
  have hbytes : m.asRef = (vs.map (Value.writeBytes V)).flatten := by
    simp [h.bytes, Value.toProto, Function.comp_def, ← Value.writeBytes_eq]
  refine ⟨_, toString_of_holds hV h, ?_⟩
  have hgo := tryFromStrGo_flatten (V := V) hT vs [] _ (Nat.lt_succ_of_le (length_le_flatten_writeStr (T := T) vs)) hv
  rw [tryFromStr, hgo, hbytes]
  rfl

end Parsing

end Ockam.Multiaddr
