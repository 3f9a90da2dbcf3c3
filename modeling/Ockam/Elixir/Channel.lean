import Ockam.Elixir.AeadAesGcm
import Ockam.Lib.Varint

/-! The established Elixir secure channel (`Ockam.SecureChannel.Channel`) receiving a message
from the other side: the payload is BARE-decoded as `:data`, decrypted, and the plaintext handed
on. A payload that does not decode or decrypt is logged and dropped. -/

namespace Ockam.Elixir

/-- `:bare.encode(_, :data)` and `:bare.decode(_, :data)`, which gives the value read and the
bytes after it. The `:bare` package is a parameter. -/
structure Bare where
  encodeData : Bytes → Bytes
  decodeData : Bytes → Option (Bytes × Bytes)

/-- The one law of `:bare` the proofs use: a `:data` value reads back from its encoding. -/
structure Bare.Laws (B : Bare) : Prop where
  decodeData_encodeData : ∀ data, data.length < 2 ^ 64 → B.decodeData (B.encodeData data) = some (data, [])

variable (B : Bare)

/-- `bare_decode_strict(data, :data)`: the decoded value, when nothing follows it. -/
def bareDecodeStrict (data : Bytes) : Except Reason Bytes :=
  match B.decodeData data with
  | some (result, []) => .ok result
  | _ => .error .invalidBareData

/-- The fields of `%Established{}` that the receiving path reads or writes. -/
structure Established where
  encryptSt : Encryptor
  decryptSt : Decryptor

/-- What the worker callback returns: `{:ok, state}`, `{:error, reason}` or `{:stop, reason, state}`. -/
inductive Reply where
  | ok (st : Established)
  | error
  | stop (st : Established)

variable (A : Aead) (handleDecryptedMessage : Bytes → Established → Except Exception Reply)

/-- `handle_inner_message_impl` in the established state; `Wire.decode` of the plaintext and
`handle_decrypted_message` are given as `handleDecryptedMessage`. -/
def handleInnerMessageImpl (payload : Bytes) (st : Established) : Except Exception Reply :=
  match bareDecodeStrict B payload with
  | .error _ => pure (.ok st)
  | .ok ciphertext => do
    match ← Decryptor.decrypt A [] ciphertext st.decryptSt with
    | .ok (plaintext, decryptSt) => handleDecryptedMessage plaintext { st with decryptSt }
    | .error _ => pure (.ok st)

variable {B}

lemma bareDecodeStrict_encodeData (hB : B.Laws) {data : Bytes} (h : data.length < 2 ^ 64) :
    bareDecodeStrict B (B.encodeData data) = .ok data := by
  simp [bareDecodeStrict, hB.decodeData_encodeData data h]

variable {A handleDecryptedMessage}

/-- A frame of fewer than eight bytes, sent as the channel sends its frames, is not returned from
but raised on, whatever the state of the channel. -/
theorem handleInnerMessageImpl_of_short_frame (hB : B.Laws) (st : Established) {frame : Bytes}
    (h : frame.length < 8) :
    handleInnerMessageImpl B A handleDecryptedMessage (B.encodeData frame) st =
      .error .functionClauseError := by
  simp [handleInnerMessageImpl, bareDecodeStrict_encodeData hB (by omega : frame.length < 2 ^ 64),
    Decryptor.decrypt_of_short _ h, bind, Except.bind]

/-- `:data` as BARE writes it, a LEB128 length and the bytes: one implementation with the law, for
the runs at fixed inputs. -/
def Bare.leb128 : Bare where
  encodeData data := Varint.encode data.length ++ data
  decodeData bs := match Varint.decode 64 9 bs with
    | .ok (len, rest) => if len ≤ rest.length then some (rest.take len, rest.drop len) else none
    | .error _ => none

lemma Bare.leb128_laws : Bare.leb128.Laws where
  decodeData_encodeData data h := by
    have hl : (Varint.encode data.length).length ≤ 9 + 1 :=
      Varint.length_encode_le (lt_of_lt_of_le h (Nat.pow_le_pow_right (by norm_num) (by norm_num)))
    simp [Bare.leb128, Varint.decode_encode h hl]

/-- An AEAD that keeps the plaintext and adds an empty tag, to run the channel. -/
def plainAead : Aead := ⟨fun _ _ p _ => (p, []), fun _ _ c _ _ => some c⟩

theorem handleInnerMessageImpl_empty_frame :
    Bare.leb128.encodeData [] = [0] ∧
    handleInnerMessageImpl .leb128 plainAead (fun _ st => pure (.ok st)) (Bare.leb128.encodeData [])
      ⟨Encryptor.new [] 0, Decryptor.new [] 0⟩ = .error .functionClauseError :=
  ⟨by simp [Bare.leb128, Varint.encode_of_lt],
    @handleInnerMessageImpl_of_short_frame _ plainAead (fun _ st => pure (.ok st)) Bare.leb128_laws _ []
      (by decide)⟩

end Ockam.Elixir
