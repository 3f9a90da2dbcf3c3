import Mathlib
import Ockam.Core.Error
import Ockam.Lib.BigEndian
import Ockam.Lib.Varint

/-! The protocols of `ockam_multiaddr` and the standard codec (`proto.rs`, `codec.rs`,
`registry.rs`). The varints of the `unsigned-varint` crate are a parameter (`Varints`). -/

namespace Ockam.Multiaddr

open Ockam.Lib

abbrev Code := ℕ

inductive Error where
  | unregistered (code : Code)
  | unregisteredPrefix (pre : List Char)
  | requiredBytes (code : Code) (n : ℕ)
  | invalidProto (code : Code)
  | varint (e : Varint.Error)
  | message
  deriving DecidableEq, Repr

/-- A Rust panic, here of `.expect("valid protocol")` and `copy_from_slice`. -/
inductive Fault where
  | panic
  | error (e : Error)
  deriving DecidableEq, Repr

/-- The protocols made by `gen_str_proto!`, whose value is a string. -/
inductive StrProto where
  | worker
  | dnsAddr
  | service
  | node
  | project
  | space
  | secure
  deriving DecidableEq, Repr

namespace StrProto

def code : StrProto → Code
  | worker => 102526
  | dnsAddr => 56
  | service => 62526
  | node => 72526
  | project => 82526
  | space => 92526
  | secure => 99526

def prefix_ : StrProto → List Char
  | worker => "worker".toList
  | dnsAddr => "dnsaddr".toList
  | service => "service".toList
  | node => "node".toList
  | project => "project".toList
  | space => "space".toList
  | secure => "secure".toList

def all : List StrProto := [worker, dnsAddr, service, node, project, space, secure]

end StrProto

def tcpCode : Code := 6
def ip4Code : Code := 4
def ip6Code : Code := 41

/-- The codes of the default registry. -/
def registeredCodes : List Code := ip4Code :: ip6Code :: tcpCode :: StrProto.all.map StrProto.code

def strCodes : List Code := StrProto.all.map StrProto.code

/-- `encode::u32`, `encode::usize`, `decode::u32` and `decode::usize` of `unsigned-varint`. -/
structure Varints where
  encodeU32 : ℕ → Bytes
  encodeUsize : ℕ → Bytes
  decodeU32 : Bytes → Except Varint.Error (ℕ × Bytes)
  decodeUsize : Bytes → Except Varint.Error (ℕ × Bytes)

/-- What the crate does that the proofs use: a value of the width reads back, a read takes at
least one byte, and `encode::u32` starts with the low seven bits, flagged when more follow. -/
structure Varints.Laws (V : Varints) : Prop where
  decodeU32_encodeU32 : ∀ n rest, n < 2 ^ 32 → V.decodeU32 (V.encodeU32 n ++ rest) = .ok (n, rest)
  decodeUsize_encodeUsize :
    ∀ n rest, n < 2 ^ 64 → V.decodeUsize (V.encodeUsize n ++ rest) = .ok (n, rest)
  decodeU32_eq_ok : ∀ {bs n rest}, V.decodeU32 bs = .ok (n, rest) → ∃ pre, pre ≠ [] ∧ bs = pre ++ rest
  decodeUsize_eq_ok :
    ∀ {bs n rest}, V.decodeUsize bs = .ok (n, rest) → ∃ pre, pre ≠ [] ∧ bs = pre ++ rest
  head?_encodeU32 : ∀ n, (V.encodeU32 n).head? =
    some (if n < 128 then UInt8.ofNat n else UInt8.ofNat (n % 128 + 128))

/-- `decode::u32` reads at most five bytes into a `u32`: of a fifth byte, the bits above `2 ^ 32`
are shifted out. -/
def Varints.CutsU32 (V : Varints) : Prop :=
  ∀ b0 b1 b2 b3 b4 : UInt8, ∀ rest, 128 ≤ b0.toNat → 128 ≤ b1.toNat → 128 ≤ b2.toNat →
    128 ≤ b3.toNat → b4.toNat < 128 → b4 ≠ 0 →
    V.decodeU32 (b0 :: b1 :: b2 :: b3 :: b4 :: rest) =
      .ok ((b0.toNat % 128 + b1.toNat % 128 * 2 ^ 7 + b2.toNat % 128 * 2 ^ 14 +
        b3.toNat % 128 * 2 ^ 21 + b4.toNat * 2 ^ 28) % 2 ^ 32, rest)

lemma Varints.Laws.encodeU32_ne_nil {V : Varints} (hV : V.Laws) (n : ℕ) : V.encodeU32 n ≠ [] := by
  intro h
  have := hV.head?_encodeU32 n
  rw [h] at this
  cases this

variable (V : Varints)

/-- `str::as_bytes` and `str::from_utf8`. -/
def utf8Bytes (s : List Char) : Bytes := (String.ofList s).toUTF8.data.toList
def fromUtf8 (bs : Bytes) : Option (List Char) := (ByteArray.mk bs.toArray).utf8Decode?.map Array.toList

/-- A typed protocol value, as the `Protocol` implementations hold it. -/
inductive Value where
  | tcp (port : UInt16)
  | ip4 (addr : Fin (2 ^ 32))
  | ip6 (addr : Fin (2 ^ 128))
  | str (p : StrProto) (s : List Char)
  deriving DecidableEq, Repr

namespace Value

def code : Value → Code
  | tcp _ => tcpCode
  | ip4 _ => ip4Code
  | ip6 _ => ip6Code
  | str p _ => p.code

/-- The value bytes, as `split_bytes` cuts them out of the encoding. -/
def data : Value → Bytes
  | tcp port => BigEndian.encode 2 port.toNat
  | ip4 addr => BigEndian.encode 4 addr
  | ip6 addr => BigEndian.encode 16 addr
  | str _ s => utf8Bytes s

def writeBytes : Value → Bytes
  | tcp port => V.encodeU32 tcpCode ++ BigEndian.encode 2 port.toNat
  | ip4 addr => V.encodeU32 ip4Code ++ BigEndian.encode 4 addr
  | ip6 addr => V.encodeU32 ip6Code ++ BigEndian.encode 16 addr
  | str p s => V.encodeU32 p.code ++ V.encodeUsize (utf8Bytes s).length ++ utf8Bytes s

end Value

/-- `ProtoValue`: a code and the value bytes. -/
abbrev ProtoValue := Code × Bytes

/-- `StdCodec::split_bytes`: the value of a component and the bytes after it. -/
def splitBytes (code : Code) (input : Bytes) : Except Error (Bytes × Bytes) :=
  if code = ip4Code then
    if input.length < 4 then .error (.requiredBytes ip4Code 4) else .ok (input.take 4, input.drop 4)
  else if code = ip6Code then
    if input.length < 16 then .error (.requiredBytes ip6Code 16) else .ok (input.take 16, input.drop 16)
  else if code = tcpCode then
    if input.length < 2 then .error (.requiredBytes tcpCode 2) else .ok (input.take 2, input.drop 2)
  else if code ∈ strCodes then
    match V.decodeUsize input with
    | .error e => .error (.varint e)
    | .ok (len, input) =>
      if input.length < len then .error (.requiredBytes code len) else .ok (input.take len, input.drop len)
  else .error (.unregistered code)

/-- `StdCodec::is_valid_bytes`: the fixed-size values always read, a string value must be
UTF-8. -/
def isValidBytes (code : Code) (value : Bytes) : Bool :=
  if code = ip4Code ∨ code = ip6Code ∨ code = tcpCode then true
  else if code ∈ strCodes then (fromUtf8 value).isSome
  else false

/-- `StdCodec::write_bytes`: read the typed value back from its bytes and write it;
`copy_from_slice` panics on a fixed-size value of another length. -/
def codecWriteBytes (v : ProtoValue) : Except Fault Bytes :=
  let (code, data) := v
  if code = ip4Code then
    if data.length = 4 then .ok (V.encodeU32 ip4Code ++ data) else .error .panic
  else if code = ip6Code then
    if data.length = 16 then .ok (V.encodeU32 ip6Code ++ data) else .error .panic
  else if code = tcpCode then
    if data.length = 2 then .ok (V.encodeU32 tcpCode ++ data) else .error .panic
  else if code ∈ strCodes then
    match fromUtf8 data with
    | some s => .ok (V.encodeU32 code ++ V.encodeUsize (utf8Bytes s).length ++ utf8Bytes s)
    | none => .error (.error .message)
  else .error (.error (.unregistered code))

/-- What a component is written as, from its code and value bytes. -/
def encodeValue (v : ProtoValue) : Bytes :=
  if v.1 ∈ strCodes then V.encodeU32 v.1 ++ V.encodeUsize v.2.length ++ v.2
  else V.encodeU32 v.1 ++ v.2

/-- A component that the iterator reads back from its encoding: a registered code, and a value
of the code's size, or of a length that a `usize` varint holds. -/
def WellFormed (v : ProtoValue) : Prop :=
  (v.1 = ip4Code ∧ v.2.length = 4) ∨ (v.1 = ip6Code ∧ v.2.length = 16) ∨
    (v.1 = tcpCode ∧ v.2.length = 2) ∨ (v.1 ∈ strCodes ∧ v.2.length < 2 ^ 64)

instance (v : ProtoValue) : Decidable (WellFormed v) :=
  inferInstanceAs (Decidable (_ ∨ _ ∨ _ ∨ _))

lemma StrProto.code_ne (p : StrProto) : p.code ≠ ip4Code ∧ p.code ≠ ip6Code ∧ p.code ≠ tcpCode := by
  cases p <;> decide

lemma ne_of_mem_strCodes {c : Code} (hc : c ∈ strCodes) : c ≠ ip4Code ∧ c ≠ ip6Code ∧ c ≠ tcpCode := by
  obtain ⟨p, -, rfl⟩ := List.mem_map.mp hc
  exact StrProto.code_ne p

lemma Value.writeBytes_eq (v : Value) : v.writeBytes V = encodeValue V (v.code, v.data) := by
  cases v with
  | str p s => cases p <;> simp [Value.writeBytes, encodeValue, Value.code, Value.data, strCodes,
      StrProto.all, StrProto.code]
  | _ => simp [Value.writeBytes, encodeValue, Value.code, Value.data, strCodes, StrProto.all,
      StrProto.code, tcpCode, ip4Code, ip6Code]

/-- LEB128 read into 32 and 64 bits from at most five and ten bytes: one implementation with the
laws, for the runs at fixed inputs. -/
def Varints.leb128 : Varints :=
  ⟨Varint.encode, Varint.encode, Varint.decode 32 4, Varint.decode 64 9⟩

lemma Varints.leb128_laws : Varints.leb128.Laws where
  decodeU32_encodeU32 n rest h :=
    Varint.decode_encode h (Varint.length_encode_le (lt_of_lt_of_le h (by decide))) rest
  decodeUsize_encodeUsize n rest h :=
    Varint.decode_encode h (Varint.length_encode_le (lt_of_lt_of_le h (by decide))) rest
  decodeU32_eq_ok h := Varint.decode_eq_ok h
  decodeUsize_eq_ok h := Varint.decode_eq_ok h
  head?_encodeU32 n := Varint.head?_encode n

lemma Varints.leb128_cutsU32 : Varints.leb128.CutsU32 := by
  intro b0 b1 b2 b3 b4 rest h0 h1 h2 h3 h4 hz
  have hz' : ¬ (b4 = 0 ∧ 0 < 4) := fun h => hz h.1
  simp only [Varints.leb128, Varint.decode, Varint.decodeFrom, if_neg (show ¬ b0.toNat < 128 by omega),
    if_neg (show ¬ b1.toNat < 128 by omega), if_neg (show ¬ b2.toNat < 128 by omega),
    if_neg (show ¬ b3.toNat < 128 by omega), if_pos h4, if_neg hz']
  -- the four low groups stay under `2 ^ 28`; the fifth is cut at `2 ^ 32`
  have hb0 := b0.toNat_lt
  have hb4 := b4.toNat_lt
  norm_num
  omega

end Ockam.Multiaddr
