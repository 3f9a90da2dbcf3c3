import Ockam.Handshake.Authentication

/-! Decoding handshake messages of arbitrary bytes: the only error a reader gives is the panic of a
slice past the end, so a message shorter than its first field panics in `decode_message1`,
`decode_message2` or `decode_message3`. -/

namespace Ockam.XX

open Ockam.Vault

section Readers

variable {message : Bytes} {e : Error}

lemma readStart_of_lt {n : ℕ} (h : message.length < n) :
    readStart n message = .error (.panic "range end out of bounds") := by
  simp [readStart, sliceTo, Nat.not_le.mpr h]

lemma readStart_eq_error {n : ℕ} (h : readStart n message = .error e) :
    e = .panic "range end out of bounds" := by
  by_cases hn : n ≤ message.length
  · simp [readStart, sliceTo, hn] at h
  · simp only [readStart, sliceTo, hn, if_false, Except.error.injEq] at h
    exact h.symm

lemma readEnd_eq_error {n : ℕ} (h : readEnd n message = .error e) :
    e = .panic "range start out of bounds" := by
  by_cases hn : n ≤ message.length
  · simp [readEnd, sliceFrom, hn] at h
  · simp only [readEnd, sliceFrom, hn, if_false, Except.error.injEq] at h
    exact h.symm

lemma readMiddle_eq_error {n l : ℕ} (h : readMiddle n l message = .error e) :
    e = .panic "range out of bounds" := by
  by_cases hn : n ≤ n + l ∧ n + l ≤ message.length
  · simp [readMiddle, sliceRange, hn] at h
  · simp only [readMiddle, sliceRange, hn, if_false, Except.error.injEq] at h
    exact h.symm

end Readers

namespace Handshake

variable {V : Type} (vault : VaultForSecureChannels V) (sha256 : Bytes → Bytes) (hs : Handshake V)
  {message : Bytes}

lemma not_exceeds_of_lt {n : ℕ} (h : message.length < n) (hn : n ≤ noiseMaxMessageSize) :
    ¬ message.length > noiseMaxMessageSize := by
  omega

lemma decodeMessage1_of_short (h : message.length < x25519PublicKeyLength) :
    decodeMessage1 sha256 message hs = .error (.panic "range end out of bounds") hs := by
  have hmax := not_exceeds_of_lt h (by decide)
  simp [decodeMessage1, hmax, readKey, readStart_of_lt h, EStateM.ofExcept]

lemma decodeMessage2_of_short (h : message.length < x25519PublicKeyLength) :
    decodeMessage2 vault sha256 message hs = .error (.panic "range end out of bounds") hs := by
  have hmax := not_exceeds_of_lt h (by decide)
  simp [decodeMessage2, hmax, readKey, readStart_of_lt h, EStateM.ofExcept]

lemma decodeMessage3_of_short (h : message.length < x25519PublicKeyLength + aesGcmTagsize) :
    decodeMessage3 vault sha256 message hs = .error (.panic "range end out of bounds") hs := by
  have hmax := not_exceeds_of_lt h (by decide)
  simp [decodeMessage3, hmax, readMessage3EncryptedKey, readStart_of_lt h, EStateM.ofExcept]

end Handshake

/-- A message shorter than the first field its decoder reads makes `decode_message1`,
`decode_message2` and `decode_message3` panic on the slice, for every handshake state: they
return no `Err(MessageLenMismatch)`. -/
theorem decode_short_message_panics {V : Type} (vault : VaultForSecureChannels V)
    (sha256 : Bytes → Bytes) (hs : Handshake V) (message : Bytes) :
    (message.length < x25519PublicKeyLength →
      Handshake.decodeMessage1 sha256 message hs = .error (.panic "range end out of bounds") hs ∧
        Handshake.decodeMessage2 vault sha256 message hs =
          .error (.panic "range end out of bounds") hs) ∧
      (message.length < x25519PublicKeyLength + aesGcmTagsize →
        Handshake.decodeMessage3 vault sha256 message hs =
          .error (.panic "range end out of bounds") hs) :=
  ⟨fun h => ⟨Handshake.decodeMessage1_of_short sha256 hs h,
      Handshake.decodeMessage2_of_short vault sha256 hs h⟩,
    fun h => Handshake.decodeMessage3_of_short vault sha256 hs h⟩

/-- The empty message, decoded by the handshake of a toy machine. -/
theorem decode_empty_message_panics :
    ([] : Bytes).length < x25519PublicKeyLength ∧
      Handshake.decodeMessage1 toyPrimitives.sha256 [] (toyMachine [1] [2]).handshake =
        .error (.panic "range end out of bounds") (toyMachine [1] [2]).handshake ∧
      Handshake.decodeMessage2 (softwareVault toyPrimitives) toyPrimitives.sha256 []
          (toyMachine [1] [2]).handshake =
        .error (.panic "range end out of bounds") (toyMachine [1] [2]).handshake :=
  ⟨by decide, (decode_short_message_panics (softwareVault toyPrimitives) toyPrimitives.sha256
    (toyMachine [1] [2]).handshake []).1 (by decide)⟩

namespace StateMachine

variable {V R : Type} (vault : VaultForSecureChannels V) (sha256 : Bytes → Bytes)
  (ver : Verifiers R)

lemma responderOnEvent_of_short_message1 {m : StateMachine V R} {message : Bytes}
    (hstatus : m.handshake.state.status = .waitingForMessage1)
    (h : message.length < x25519PublicKeyLength) :
    responderOnEvent vault sha256 ver (.receivedMessage message) m =
      .error (.panic "range end out of bounds") m := by
  simp [responderOnEvent, hstatus, liftHandshake, EStateM.focus,
    Handshake.decodeMessage1_of_short sha256 m.handshake h]

end StateMachine

/-! ### A failed decoding is not atomic

Each step of the handshake restores the `HandshakeState` when it fails (`decodeMessage2_spec`),
but not the vault: `Handshake::hkdf` deletes the old chaining key `ck` from the vault and only
later steps can fail. After an initiator receives a forged message 2 whose encrypted static key
does not decrypt, its state still refers to the deleted `ck`, and the genuine message 2 that it
would have accepted is then refused. -/

abbrev toyRun (role : Role) :=
  StateMachine.onEvent (softwareVault toyPrimitives) toyPrimitives.sha256 toyVerifiers role

def toyInitiator := toyMachine (List.replicate 32 1) (List.replicate 32 2)

def toyResponder := toyMachine (List.replicate 32 3) (List.replicate 32 4)

def sentMessage : Except Error Action → Bytes
  | .ok (.sendMessage message) => message
  | _ => []

/-- The initiator after sending message 1, waiting for message 2. -/
def initiatorStarted := (toyRun .initiator .start toyInitiator).state

/-- The responder's answer to the initiator's message 1. -/
def genuineMessage2 : Bytes :=
  sentMessage (toyRun .responder
    (.receivedMessage (sentMessage (toyRun .initiator .start toyInitiator).toExcept))
    (toyRun .responder .start toyResponder).state).toExcept

/-- A message 2 of 80 bytes whose encrypted key fails authentication. -/
def forgedMessage2 : Bytes := List.replicate 80 5

def afterForgedMessage2 := toyRun .initiator (.receivedMessage forgedMessage2) initiatorStarted

theorem forged_message2_deletes_ck :
    afterForgedMessage2.toExcept.isOk = false ∧
    afterForgedMessage2.state.handshake.state = initiatorStarted.handshake.state ∧
    initiatorStarted.handshake.state.ck = some ⟨0⟩ ∧
    (initiatorStarted.handshake.vault.ephemeralBufferSecrets ⟨0⟩).isSome ∧
    afterForgedMessage2.state.handshake.vault.ephemeralBufferSecrets ⟨0⟩ = none ∧
    (toyRun .initiator (.receivedMessage genuineMessage2) initiatorStarted).toExcept.isOk ∧
    (toyRun .initiator (.receivedMessage genuineMessage2)
      afterForgedMessage2.state).toExcept.isOk = false := by
  decide +kernel

end Ockam.XX
