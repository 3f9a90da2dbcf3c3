import Mathlib
import Ockam.Lib.Triple
import Ockam.Handshake.Noise

/-! What each step of the handshake keeps. Every step computes on a copy of the state and writes
it back at its end, so a failed step leaves the `HandshakeState` as it was (though not the
vault: see `Ockam.XX.Atomicity`); no step changes the status, and only the decoding of messages 2
and 3 sets the static key `rs` of the other party. The specifications are `Std.Do` triples, so
that `mvcgen` composes them. -/

namespace Ockam.XX.Handshake

open Std.Do Ockam.Vault HandshakeState

set_option mvcgen.warning false

variable {V : Type} (vault : VaultForSecureChannels V) (sha256 : Bytes → Bytes)

@[spec] theorem liftVault_spec {α : Type} (x : EStateM Error V α) (st0 : HandshakeState) :
    ⦃fun hs => ⌜hs.state = st0⌝⦄ (liftVault x : M V α)
      ⦃post⟨fun _ hs => ⌜hs.state = st0⌝, fun _ hs => ⌜hs.state = st0⌝⟩⦄ :=
  EStateM.focus_keeps x fun _ _ h => h

/-! The helpers work on a state passed to them and return the new one; they touch the stored
state only through the vault. -/

@[spec] theorem hkdf_spec (st st0 : HandshakeState) (d : SecretBufferHandle) :
    ⦃fun hs => ⌜hs.state = st0⌝⦄ hkdf vault st d
      ⦃post⟨fun st' hs => ⌜hs.state = st0 ∧ st'.status = st.status ∧ st'.rs = st.rs⌝,
        fun _ hs => ⌜hs.state = st0⌝⟩⦄ := by
  mvcgen [hkdf, EStateM.ofExcept]
  all_goals simp_all +zetaDelta [takeCk, map_expect_eq_ok]

@[spec] theorem computeFinalKeys_spec (st st0 : HandshakeState) :
    ⦃fun hs => ⌜hs.state = st0⌝⦄ computeFinalKeys vault st
      ⦃post⟨fun r hs => ⌜hs.state = st0 ∧ r.2.status = st.status ∧ r.2.rs = st.rs⌝,
        fun _ hs => ⌜hs.state = st0⌝⟩⦄ := by
  mvcgen [computeFinalKeys, EStateM.ofExcept]
  all_goals simp_all +zetaDelta [takeCk, takeK, map_expect_eq_ok]

@[spec] theorem hashAndDecrypt_spec (st st0 : HandshakeState) (c : Bytes) :
    ⦃fun hs => ⌜hs.state = st0⌝⦄ hashAndDecrypt vault sha256 st c
      ⦃post⟨fun r hs => ⌜hs.state = st0 ∧ r.2.status = st.status ∧ r.2.rs = st.rs⌝,
        fun _ hs => ⌜hs.state = st0⌝⟩⦄ := by
  mvcgen [hashAndDecrypt, EStateM.ofExcept]
  all_goals simp_all +zetaDelta [HandshakeState.mixHash]

@[spec] theorem encryptAndHash_spec (st st0 : HandshakeState) (p : Bytes) :
    ⦃fun hs => ⌜hs.state = st0⌝⦄ encryptAndHash vault sha256 st p
      ⦃post⟨fun r hs => ⌜hs.state = st0 ∧ r.2.status = st.status ∧ r.2.rs = st.rs⌝,
        fun _ hs => ⌜hs.state = st0⌝⟩⦄ := by
  mvcgen [encryptAndHash, EStateM.ofExcept]
  all_goals simp_all +zetaDelta [HandshakeState.mixHash]

/-! The steps the state machines call. -/

@[spec] theorem initializeHandshake_spec (st0 : HandshakeState) :
    ⦃fun hs => ⌜hs.state = st0⌝⦄ initializeHandshake vault sha256
      ⦃post⟨fun _ hs => ⌜hs.state.status = st0.status ∧ hs.state.rs = st0.rs⌝,
        fun _ hs => ⌜hs.state = st0⌝⟩⦄ := by
  mvcgen [initializeHandshake, importCkSecret, setState]
  all_goals simp_all +zetaDelta

@[spec] theorem encodeMessage1_spec (p : Bytes) (st0 : HandshakeState) :
    ⦃fun hs => ⌜hs.state = st0⌝⦄ encodeMessage1 vault sha256 p
      ⦃post⟨fun _ hs => ⌜hs.state.status = st0.status ∧ hs.state.rs = st0.rs⌝,
        fun _ hs => ⌜hs.state = st0⌝⟩⦄ := by
  mvcgen [encodeMessage1, EStateM.ofExcept, getPublicKey, setState]
  all_goals simp_all +zetaDelta [HandshakeState.mixHash]

@[spec] theorem decodeMessage1_spec (m : Bytes) (st0 : HandshakeState) :
    ⦃fun hs => ⌜hs.state = st0⌝⦄ (decodeMessage1 sha256 m : M V Bytes)
      ⦃post⟨fun _ hs => ⌜hs.state.status = st0.status ∧ hs.state.rs = st0.rs⌝,
        fun _ hs => ⌜hs.state = st0⌝⟩⦄ := by
  mvcgen [decodeMessage1, EStateM.ofExcept, setState]
  all_goals simp_all +zetaDelta [HandshakeState.mixHash]

@[spec] theorem encodeMessage2_spec (p : Bytes) (st0 : HandshakeState) :
    ⦃fun hs => ⌜hs.state = st0⌝⦄ encodeMessage2 vault sha256 p
      ⦃post⟨fun _ hs => ⌜hs.state.status = st0.status ∧ hs.state.rs = st0.rs⌝,
        fun _ hs => ⌜hs.state = st0⌝⟩⦄ := by
  mvcgen [encodeMessage2, EStateM.ofExcept, getPublicKey, dh, setState]
  all_goals simp_all +zetaDelta [HandshakeState.mixHash]

-- Decoding message 2 or 3 sets `rs`; the status stays.
@[spec] theorem decodeMessage2_spec (m : Bytes) (st0 : HandshakeState) :
    ⦃fun hs => ⌜hs.state = st0⌝⦄ decodeMessage2 vault sha256 m
      ⦃post⟨fun _ hs => ⌜hs.state.status = st0.status⌝, fun _ hs => ⌜hs.state = st0⌝⟩⦄ := by
  mvcgen [decodeMessage2, EStateM.ofExcept, dh, setState]
  all_goals simp_all +zetaDelta [HandshakeState.mixHash]

@[spec] theorem encodeMessage3_spec (p : Bytes) (st0 : HandshakeState) :
    ⦃fun hs => ⌜hs.state = st0⌝⦄ encodeMessage3 vault sha256 p
      ⦃post⟨fun _ hs => ⌜hs.state.status = st0.status ∧ hs.state.rs = st0.rs⌝,
        fun _ hs => ⌜hs.state = st0⌝⟩⦄ := by
  mvcgen [encodeMessage3, EStateM.ofExcept, getPublicKey, dh, setState]
  all_goals simp_all +zetaDelta

@[spec] theorem decodeMessage3_spec (m : Bytes) (st0 : HandshakeState) :
    ⦃fun hs => ⌜hs.state = st0⌝⦄ decodeMessage3 vault sha256 m
      ⦃post⟨fun _ hs => ⌜hs.state.status = st0.status⌝, fun _ hs => ⌜hs.state = st0⌝⟩⦄ := by
  mvcgen [decodeMessage3, EStateM.ofExcept, dh, setState]
  all_goals simp_all +zetaDelta

@[spec] theorem setFinalState_spec (role : Role) (st0 : HandshakeState) :
    ⦃fun hs => ⌜hs.state = st0⌝⦄ setFinalState vault role
      ⦃post⟨fun _ hs => ⌜hs.state.rs = st0.rs ∧ ∃ keys, hs.state.status = .ready keys⌝,
        fun _ hs => ⌜hs.state.rs = st0.rs ∧
          (hs.state = st0 ∨ ∃ keys, hs.state.status = .ready keys)⌝⟩⦄ := by
  mvcgen [setFinalState, deleteEphemeralKeys, EStateM.ofExcept, setState]
  all_goals simp_all +zetaDelta [takeE, map_expect_eq_ok]

end Ockam.XX.Handshake
