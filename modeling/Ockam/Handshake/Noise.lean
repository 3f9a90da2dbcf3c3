import Ockam.Lib.BigEndian
import Ockam.Handshake.State

/-! `Handshake`: the steps of Noise XX over a vault. Every step works on a copy of the
`HandshakeState` and writes it back only at its end, while its vault operations take effect as
they run. -/

namespace Ockam.XX

open Ockam.Vault Ockam.Lib

structure Handshake (V : Type) where
  vault : V
  protocolName : Bytes
  state : HandshakeState

/-- `b"Noise_XX_25519_AESGCM_SHA256\0\0\0\0"`. -/
def protocolName : Bytes :=
  [78, 111, 105, 115, 101, 95, 88, 88, 95, 50, 53, 53, 49, 57, 95, 65, 69, 83, 71, 67, 77, 95, 83,
    72, 65, 50, 53, 54, 0, 0, 0, 0]

/-- `Handshake::new`, with the ephemeral key that it generates in the vault given. -/
def Handshake.new {V : Type} (vault : V) (staticKey ephemeralKey : X25519SecretKeyHandle) :
    Handshake V :=
  ⟨vault, XX.protocolName, HandshakeState.new staticKey ephemeralKey⟩

/-! Reading the fields of a message: Rust slicing, which panics when the message is too short. -/

def readStart (n : ℕ) (message : Bytes) : Except Error Bytes := sliceTo message n

def readEnd (n : ℕ) (message : Bytes) : Except Error Bytes := sliceFrom message n

def readMiddle (n l : ℕ) (message : Bytes) : Except Error Bytes := sliceRange message n (n + l)

def readKey (message : Bytes) : Except Error Bytes := readStart x25519PublicKeyLength message

def readMessage1Payload (message : Bytes) : Except Error Bytes :=
  readEnd x25519PublicKeyLength message

def readMessage2EncryptedKey (message : Bytes) : Except Error Bytes :=
  readMiddle x25519PublicKeyLength (x25519PublicKeyLength + aesGcmTagsize) message

def readMessage2Payload (message : Bytes) : Except Error Bytes :=
  readEnd (2 * x25519PublicKeyLength + aesGcmTagsize) message

def readMessage3EncryptedKey (message : Bytes) : Except Error Bytes :=
  readStart (x25519PublicKeyLength + aesGcmTagsize) message

def readMessage3Payload (message : Bytes) : Except Error Bytes :=
  readEnd (x25519PublicKeyLength + aesGcmTagsize) message

/-- The 12-byte AES-GCM nonce of the handshake counter `n`. -/
def nonceOf (n : UInt64) : Bytes := List.replicate 4 0 ++ BigEndian.encode 8 n.toNat

namespace Handshake

variable {V : Type} (vault : VaultForSecureChannels V) (sha256 : Bytes → Bytes)

abbrev M (V : Type) := EStateM Error (Handshake V)

def liftVault {α : Type} (x : EStateM Error V α) : M V α :=
  x.focus (·.vault) fun hs v => { hs with vault := v }

def setState (state : HandshakeState) : M V Unit :=
  modify fun hs => { hs with state := state }

def importCkSecret (content : Bytes) : M V SecretBufferHandle :=
  liftVault (vault.importSecretBuffer content)

def getPublicKey (key : X25519SecretKeyHandle) : M V X25519PublicKey :=
  liftVault (vault.getX25519PublicKey key)

def dh (key : X25519SecretKeyHandle) (publicKey : X25519PublicKey) : M V SecretBufferHandle :=
  liftVault (vault.x25519Ecdh key publicKey)

/-- `ck, k = HKDF(ck, dh, 2)`, deleting `dh`, the old `ck` and the old `k` from the vault. -/
def hkdf (state : HandshakeState) (dh : SecretBufferHandle) : M V HandshakeState := do
  let hkdfOutput ← liftVault (vault.hkdf (← EStateM.ofExcept state.getCk) (some dh) .two)
  let _ ← liftVault (vault.deleteSecretBuffer dh)
  let [newCk, newK] := hkdfOutput | throw (.xx .internalVaultError)
  let newK ← liftVault (vault.convertSecretBufferToAeadKey newK)
  let (oldCk, state) ← EStateM.ofExcept state.takeCk
  let state := { state with ck := some newCk }
  let _ ← liftVault (vault.deleteSecretBuffer oldCk)
  let oldK := state.k
  let state := { state with k := some newK }
  if let some oldK := oldK then
    let _ ← liftVault (vault.deleteAeadSecretKey oldK)
  return { state with n := 0 }

def computeFinalKeys (state : HandshakeState) :
    M V ((AeadSecretKeyHandle × AeadSecretKeyHandle) × HandshakeState) := do
  let hkdfOutput ← liftVault (vault.hkdf (← EStateM.ofExcept state.getCk) none .two)
  let [k1, k2] := hkdfOutput | throw (.xx .internalVaultError)
  let k1 ← liftVault (vault.convertSecretBufferToAeadKey k1)
  let k2 ← liftVault (vault.convertSecretBufferToAeadKey k2)
  let (ck, state) ← EStateM.ofExcept state.takeCk
  let _ ← liftVault (vault.deleteSecretBuffer ck)
  let (k, state) ← EStateM.ofExcept state.takeK
  let _ ← liftVault (vault.deleteAeadSecretKey k)
  return ((k1, k2), state)

def hashAndDecrypt (state : HandshakeState) (c : Bytes) : M V (Bytes × HandshakeState) := do
  let result ← liftVault (vault.aeadDecrypt (← EStateM.ofExcept state.getK) c (nonceOf state.n) state.h)
  let state := state.mixHash sha256 c
  return (result, { state with n := state.n + 1 })

def encryptAndHash (state : HandshakeState) (p : Bytes) : M V (Bytes × HandshakeState) := do
  let result ← liftVault (vault.aeadEncrypt (← EStateM.ofExcept state.getK) p (nonceOf state.n) state.h)
  let state := state.mixHash sha256 result
  return (result, { state with n := state.n + 1 })

def deleteEphemeralKeys : M V Unit := do
  let (e, state) ← EStateM.ofExcept (← get).state.takeE
  setState state
  let _ ← liftVault (vault.deleteEphemeralX25519SecretKey e)

/-- `Handshake::initialize`, which the state machines call as `initialize_handshake`. -/
def initializeHandshake : M V Unit := do
  let self ← get
  let state := { self.state with h := self.protocolName, k := none }
  let state := { state with ck := some (← importCkSecret vault self.protocolName) }
  let state := { state with h := sha256 state.h }
  setState state

def encodeMessage1 (payload : Bytes) : M V Bytes := do
  let state := (← get).state
  let ePubKey ← getPublicKey vault (← EStateM.ofExcept state.getE)
  let state := state.mixHash sha256 ePubKey.key
  let message1 := ePubKey.key ++ payload
  let state := state.mixHash sha256 payload
  if message1.length > noiseMaxMessageSize then throw (.xx .exceededMaxMessageLen)
  setState state
  return message1

def decodeMessage1 (message1 : Bytes) : M V Bytes := do
  if message1.length > noiseMaxMessageSize then throw (.xx .exceededMaxMessageLen)
  let state := (← get).state
  let key ← EStateM.ofExcept (readKey message1)
  let state := state.mixHash sha256 key
  let state := { state with re := some ⟨key⟩ }
  let payload ← EStateM.ofExcept (readMessage1Payload message1)
  let state := state.mixHash sha256 payload
  setState state
  return payload

def encodeMessage2 (payload : Bytes) : M V Bytes := do
  let state := (← get).state
  let ePubKey ← getPublicKey vault (← EStateM.ofExcept state.getE)
  let state := state.mixHash sha256 ePubKey.key
  -- ck, k = HKDF(ck, DH(e, re), 2)
  let dhKey ← dh vault (← EStateM.ofExcept state.getE) (← EStateM.ofExcept state.getRe)
  let state ← hkdf vault state dhKey
  let sPubKey ← getPublicKey vault (← EStateM.ofExcept state.getS)
  let (c, state) ← encryptAndHash vault sha256 state sPubKey.key
  let message2 := ePubKey.key ++ c
  -- ck, k = HKDF(ck, DH(s, re), 2)
  let dhKey ← dh vault (← EStateM.ofExcept state.getS) (← EStateM.ofExcept state.getRe)
  let state ← hkdf vault state dhKey
  let (c, state) ← encryptAndHash vault sha256 state payload
  let message2 := message2 ++ c
  if message2.length > noiseMaxMessageSize then throw (.xx .exceededMaxMessageLen)
  setState state
  return message2

def decodeMessage2 (message2 : Bytes) : M V Bytes := do
  if message2.length > noiseMaxMessageSize then throw (.xx .exceededMaxMessageLen)
  let state := (← get).state
  let rePubKey ← EStateM.ofExcept (readKey message2)
  let state := { state with re := some ⟨rePubKey⟩ }
  let state := state.mixHash sha256 rePubKey
  -- ck, k = HKDF(ck, DH(e, re), 2)
  let dhKey ← dh vault (← EStateM.ofExcept state.getE) (← EStateM.ofExcept state.getRe)
  let state ← hkdf vault state dhKey
  let (rsPubKey, state) ←
    hashAndDecrypt vault sha256 state (← EStateM.ofExcept (readMessage2EncryptedKey message2))
  -- the conversion into `[u8; 32]`
  if rsPubKey.length ≠ x25519PublicKeyLength then throw (.xx .messageLenMismatch)
  let state := { state with rs := some ⟨rsPubKey⟩ }
  -- ck, k = HKDF(ck, DH(e, rs), 2)
  let dhKey ← dh vault (← EStateM.ofExcept state.getE) (← EStateM.ofExcept state.getRs)
  let state ← hkdf vault state dhKey
  let (payload, state) ←
    hashAndDecrypt vault sha256 state (← EStateM.ofExcept (readMessage2Payload message2))
  setState state
  return payload

def encodeMessage3 (payload : Bytes) : M V Bytes := do
  let state := (← get).state
  let sPubKey ← getPublicKey vault (← EStateM.ofExcept state.getS)
  let (c, state) ← encryptAndHash vault sha256 state sPubKey.key
  -- ck, k = HKDF(ck, DH(s, re), 2)
  let dhKey ← dh vault (← EStateM.ofExcept state.getS) (← EStateM.ofExcept state.getRe)
  let state ← hkdf vault state dhKey
  let (c', state) ← encryptAndHash vault sha256 state payload
  let message3 := c ++ c'
  if message3.length > noiseMaxMessageSize then throw (.xx .exceededMaxMessageLen)
  setState state
  return message3

def decodeMessage3 (message3 : Bytes) : M V Bytes := do
  if message3.length > noiseMaxMessageSize then throw (.xx .exceededMaxMessageLen)
  let state := (← get).state
  let (rsPubKey, state) ←
    hashAndDecrypt vault sha256 state (← EStateM.ofExcept (readMessage3EncryptedKey message3))
  if rsPubKey.length ≠ x25519PublicKeyLength then throw (.xx .messageLenMismatch)
  let state := { state with rs := some ⟨rsPubKey⟩ }
  -- ck, k = HKDF(ck, DH(e, rs), 2)
  let dhKey ← dh vault (← EStateM.ofExcept state.getE) (← EStateM.ofExcept state.getRs)
  let state ← hkdf vault state dhKey
  let (payload, state) ←
    hashAndDecrypt vault sha256 state (← EStateM.ofExcept (readMessage3Payload message3))
  setState state
  return payload

/-- `k1, k2 = HKDF(ck, zerolen, 2)`: the initiator encrypts with `k2`, the responder with `k1`.
The status is written back before the ephemeral key is deleted. -/
def setFinalState (role : Role) : M V Unit := do
  let state := (← get).state
  let ((k1, k2), state) ← computeFinalKeys vault state
  let (encryptionKey, decryptionKey) := if role.isInitiator then (k2, k1) else (k1, k2)
  setState { state with status := .ready ⟨encryptionKey, decryptionKey⟩ }
  deleteEphemeralKeys vault

def getHandshakeKeys (self : Handshake V) : Option HandshakeKeys :=
  match self.state.status with
  | .ready keys => some keys
  | _ => none

end Handshake

end Ockam.XX
