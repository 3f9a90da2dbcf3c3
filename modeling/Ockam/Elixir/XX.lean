import Ockam.Elixir.AeadAesGcm

/-! The Noise XX key establishment of the Elixir secure channel
(`KeyEstablishmentProtocol.XX.Protocol`, over `Ockam.SecureChannel.Crypto`). A `with` chain runs
in `M`: a returned `{:error, reason}` ends it in the inner error, and a raise (a binary pattern
that does not match, `:crypto` given `nil`) in the outer one. `:crypto` and `:hkdf` are
abstract. -/

namespace Ockam.Elixir

/-- What `Crypto` takes from `:crypto` and `:hkdf`. -/
structure Primitives where
  aead : Aead
  /-- `:crypto.hash(:sha256, value)` -/
  sha256 : Bytes → Bytes
  /-- `:hkdf.derive(:sha256, ikm, "", salt, 64)`, given the salt and then the key material -/
  hkdfDerive : Bytes → Bytes → Bytes
  /-- `:crypto.compute_key(:ecdh, peer_public, private, :x25519)` -/
  computeKey : Bytes → Bytes → Bytes
  /-- the public key that `:crypto.generate_key(:eddh, :x25519)` pairs with a private key -/
  publicKey : Bytes → Bytes

namespace Crypto

variable (P : Primitives)

/-- The 64 bytes of `:hkdf.derive` cut in two keys; the binary match raises on any other size. -/
def hkdf (salt ikm : Bytes) : Except Exception (Bytes × Bytes) :=
  let okm := P.hkdfDerive salt ikm
  if okm.length = 64 then pure (okm.take 32, okm.drop 32) else throw .matchError

def dh (peerPublic privateKey : Bytes) : Bytes := P.computeKey peerPublic privateKey

end Crypto

namespace XX

inductive Message where
  | message1
  | message2
  | message3
  deriving DecidableEq, Repr

/-- A key pair `%{public: _, private: _}`. -/
structure Keypair where
  publicKey : Bytes
  privateKey : Bytes
  deriving DecidableEq, Repr

inductive Error where
  | unexpectedStructure (msg : Message) (message : Bytes)
  | reason (r : Reason)
  | failedToEncode (msg : Message) (reason : Error)
  deriving DecidableEq, Repr

abbrev M := ExceptT Error (Except Exception)

@[simp] lemma liftM_ok {α : Type} (x : α) :
    (liftM (Except.ok x : Except Error α) : M α) = pure x :=
  rfl

@[simp] lemma liftM_pure {α : Type} (x : α) :
    (liftM (pure x : Except Exception α) : M α) = pure x :=
  rfl

/-- A call of `Crypto.aead_aes_gcm_decrypt` inside a `with`: its raise is raised, and its
`{:error, reason}` returned. -/
def ofCrypto {α : Type} (x : Except Exception (Except Reason α)) : M α :=
  ExceptT.mk (x.map (Except.mapError .reason))

/-- `%XX.Protocol{}` as `setup` leaves it. `n` is `nil` until the first `mix_key`, which sets it
together with `k`; it is read only with `k`, which `:crypto` refuses while `nil`, so `0` stands
for it. -/
structure Protocol where
  s : Keypair
  e : Keypair
  rs : Option Bytes
  re : Option Bytes
  ck : Bytes
  k : Option Bytes
  n : ℕ
  h : Bytes
  prologue : Bytes
  payloads : Message → Option Bytes
  pendingHandshake : List Message

/-- The options `setup` reads, each `none` where the keyword list lacks it. -/
structure Options where
  ephemeralKeypair : Option Keypair
  prologue : Option Bytes
  payloads : Option (Message → Option Bytes)

def defaultPrologue : Bytes := []

def defaultPayloads : Message → Option Bytes := fun _ => none

/-- `"Noise_XX_25519_AESGCM_SHA256"` padded with zero bytes to 32. -/
def zeroPaddedProtocolName : Bytes :=
  "Noise_XX_25519_AESGCM_SHA256".toUTF8.toList ++ List.replicate 4 0

/-- `get_e`: the key pair of the options, or the one `Crypto.generate_dh_keypair()` draws. -/
def getE (options : Options) (generated : Keypair) : Keypair :=
  options.ephemeralKeypair.getD generated

variable (P : Primitives)

/-- `mix_hash`, which always returns `{:ok, state}`. -/
def mixHash (state : Protocol) (value : Bytes) : Protocol :=
  { state with h := P.sha256 (state.h ++ value) }

def mixKey (state : Protocol) (inputKeyMaterial : Bytes) : Except Exception Protocol := do
  let (ck, k) ← Crypto.hkdf P state.ck inputKeyMaterial
  pure { state with n := 0, ck := ck, k := some k }

def encryptAndHash (state : Protocol) (plaintext : Bytes) : M (Protocol × Bytes) := do
  let some k := state.k | throwThe Exception .argumentError
  let ciphertextAndTag ←
    ofCrypto (pure (Crypto.aeadAesGcmEncrypt P.aead k state.n state.h plaintext))
  pure ({ mixHash P state ciphertextAndTag with n := state.n + 1 }, ciphertextAndTag)

def decryptAndHash (state : Protocol) (ciphertextAndTag : Bytes) : M (Protocol × Bytes) := do
  let plaintext ←
    ofCrypto (Crypto.aeadAesGcmDecrypt P.aead state.k state.n state.h ciphertextAndTag)
  pure ({ mixHash P state ciphertextAndTag with n := state.n + 1 }, plaintext)

/-- `setup(static_keypair, options)`, with the key pair `Crypto.generate_dh_keypair()` would
draw when the options carry none; the prologue defaults to `""`, the payloads to `%{}`. -/
def setup (staticKeypair : Keypair) (options : Options) (generated : Keypair) : Protocol :=
  let state : Protocol :=
    { s := staticKeypair, e := getE options generated, rs := none, re := none,
      ck := zeroPaddedProtocolName, k := none, n := 0, h := zeroPaddedProtocolName,
      prologue := [], payloads := defaultPayloads,
      pendingHandshake := [.message1, .message2, .message3] }
  let prologue := options.prologue.getD defaultPrologue
  { mixHash P state prologue with
    prologue := prologue, payloads := options.payloads.getD defaultPayloads }

@[simp] lemma setup_payloads (staticKeypair : Keypair) (options : Options) (generated : Keypair) :
    (setup P staticKeypair options generated).payloads = options.payloads.getD defaultPayloads :=
  rfl

@[simp] lemma setup_pendingHandshake (staticKeypair : Keypair) (options : Options)
    (generated : Keypair) :
    (setup P staticKeypair options generated).pendingHandshake =
      [.message1, .message2, .message3] :=
  rfl

/-- `parse_message1` and `parse_message3`: a field of `size` bytes and the rest. -/
def parseSplit (msg : Message) (size : ℕ) (message : Bytes) : Except Error (Bytes × Bytes) :=
  if size ≤ message.length then .ok (message.take size, message.drop size)
  else .error (.unexpectedStructure msg message)

def parseMessage1 (message : Bytes) : Except Error (Bytes × Bytes) :=
  parseSplit .message1 32 message

def parseMessage2 (message : Bytes) : Except Error (Bytes × Bytes × Bytes) :=
  if 80 ≤ message.length then .ok (message.take 32, (message.drop 32).take 48, message.drop 80)
  else .error (.unexpectedStructure .message2 message)

def parseMessage3 (message : Bytes) : Except Error (Bytes × Bytes) :=
  parseSplit .message3 48 message

/-- A missing payload is sent as `""`. A `nil` remote key makes `:crypto` raise. -/
def encode : Message → Protocol → M (Bytes × Protocol)
  | .message1, state => do
    let payload := (state.payloads .message1).getD []
    let st := mixHash P (mixHash P state state.e.publicKey) payload
    pure (state.e.publicKey ++ payload, st)
  | .message2, state => do
    let payload := (state.payloads .message2).getD []
    let st := mixHash P state state.e.publicKey
    let some re := state.re | throwThe Exception .argumentError
    let st ← mixKey P st (Crypto.dh P re state.e.privateKey)
    let (st, encryptedSAndTag) ← encryptAndHash P st state.s.publicKey
    let st ← mixKey P st (Crypto.dh P re state.s.privateKey)
    let (st, encryptedPayloadAndTag) ← encryptAndHash P st payload
    pure (state.e.publicKey ++ encryptedSAndTag ++ encryptedPayloadAndTag, st)
  | .message3, state => do
    let payload := (state.payloads .message3).getD []
    let (st, encryptedSAndTag) ← encryptAndHash P state state.s.publicKey
    let some re := state.re | throwThe Exception .argumentError
    let st ← mixKey P st (Crypto.dh P re state.s.privateKey)
    let (st, encryptedPayloadAndTag) ← encryptAndHash P st payload
    pure (encryptedSAndTag ++ encryptedPayloadAndTag, st)

def decode : Message → Protocol → Bytes → M (Bytes × Protocol)
  | .message1, state, message => do
    let (re, payload) ← parseMessage1 message
    let st := mixHash P (mixHash P state re) payload
    pure (payload, { st with re := some re })
  | .message2, state, message => do
    let (re, encryptedRsAndTag, encryptedPayloadAndTag) ← parseMessage2 message
    let st := mixHash P state re
    let st ← mixKey P st (Crypto.dh P re state.e.privateKey)
    let (st, rs) ← decryptAndHash P st encryptedRsAndTag
    let st ← mixKey P st (Crypto.dh P rs state.e.privateKey)
    let (st, payload) ← decryptAndHash P st encryptedPayloadAndTag
    pure (payload, { st with re := some re, rs := some rs })
  | .message3, state, message => do
    let (encryptedRsAndTag, encryptedPayloadAndTag) ← parseMessage3 message
    let (st, rs) ← decryptAndHash P state encryptedRsAndTag
    let st ← mixKey P st (Crypto.dh P rs state.e.privateKey)
    let (st, payload) ← decryptAndHash P st encryptedPayloadAndTag
    pure (payload, { st with rs := some rs })

inductive Next where
  | complete (k1 k2 h : Bytes) (rs : Option Bytes) (payloads : Message → Option Bytes)
  | «continue» (state : Protocol)

/-- With no message left the handshake is complete, with the two keys of `Crypto.hkdf(ck)`. -/
def next (state : Protocol) : Except Exception Next :=
  match state.pendingHandshake with
  | [] => do
    let (k1, k2) ← Crypto.hkdf P state.ck []
    pure (.complete k1 k2 state.h state.rs state.payloads)
  | _ :: _ => pure (.continue state)

/-- The `else` wraps the reason of a failed `encode` or `next`. -/
def outPayload (state : Protocol) : M (Bytes × Next) :=
  match state.pendingHandshake with
  | [] => throwThe Exception .functionClauseError
  | msg :: rest => ExceptT.adapt (Error.failedToEncode msg) do
    let (data, st) ← encode P msg state
    let nxt ← next P { st with pendingHandshake := rest }
    pure (data, nxt)

/-- The payload decoded is put into the payloads the state had before. -/
def inPayload (state : Protocol) (data : Bytes) : M Next :=
  match state.pendingHandshake with
  | [] => throwThe Exception .functionClauseError
  | msg :: rest => do
    let (payload, st) ← decode P msg state data
    next P { st with pendingHandshake := rest,
                     payloads := Function.update state.payloads msg (some payload) }

end XX

end Ockam.Elixir
