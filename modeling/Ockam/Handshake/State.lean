import Ockam.Vault.Types

/-! The variables of the Noise XX handshake (`HandshakeState`) and the status of a handshake. The
secrets behind `s`, `e`, `k` and `ck` live in the vault; the state only holds their handles. -/

namespace Ockam.XX

open Ockam.Vault

def sha256Size : ℕ := 32

def aesGcmTagsize : ℕ := 16

def noiseMaxMessageSize : ℕ := 65535

inductive Role where
  | initiator
  | responder
  deriving DecidableEq, Repr

def Role.isInitiator : Role → Bool
  | .initiator => true
  | .responder => false

structure HandshakeKeys where
  encryptionKey : AeadSecretKeyHandle
  decryptionKey : AeadSecretKeyHandle
  deriving DecidableEq, Repr

inductive Status where
  | initial
  | waitingForMessage1
  | waitingForMessage2
  | waitingForMessage3
  | ready (keys : HandshakeKeys)
  deriving DecidableEq, Repr

structure HandshakeState where
  s : Option X25519SecretKeyHandle
  e : Option X25519SecretKeyHandle
  k : Option AeadSecretKeyHandle
  re : Option X25519PublicKey
  rs : Option X25519PublicKey
  n : UInt64
  h : Bytes
  ck : Option SecretBufferHandle
  status : Status
  deriving DecidableEq, Repr

namespace HandshakeState

def new (s e : X25519SecretKeyHandle) : HandshakeState :=
  ⟨some s, some e, none, none, none, 0, List.replicate sha256Size 0, none, .initial⟩

/-- `h = SHA256(h || data)`; the hash function is the `sha2` crate's, a parameter here. -/
@[simps] def mixHash (sha256 : Bytes → Bytes) (self : HandshakeState) (data : Bytes) : HandshakeState :=
  { self with h := sha256 (self.h ++ data) }

/-! The accessors `s()`, `e()`, ... fail with the same message when the variable is unset; the
`take_*` methods also clear it. -/

def expect {α : Type} (o : Option α) (msg : String) : Except Error α :=
  match o with
  | some a => .ok a
  | none => .error (.message msg)

def getS (self : HandshakeState) : Except Error X25519SecretKeyHandle :=
  expect self.s "key id s should have been set"

def getE (self : HandshakeState) : Except Error X25519SecretKeyHandle :=
  expect self.e "key id e should have been set"

def getK (self : HandshakeState) : Except Error AeadSecretKeyHandle :=
  expect self.k "key id k should have been set"

def getCk (self : HandshakeState) : Except Error SecretBufferHandle :=
  expect self.ck "key id ck should have been set"

def getRe (self : HandshakeState) : Except Error X25519PublicKey :=
  expect self.re "public key id re should have been set"

def getRs (self : HandshakeState) : Except Error X25519PublicKey :=
  expect self.rs "public key id rs should have been set"

def takeE (self : HandshakeState) : Except Error (X25519SecretKeyHandle × HandshakeState) :=
  (·, { self with e := none }) <$> expect self.e "key id e should have been set"

def takeK (self : HandshakeState) : Except Error (AeadSecretKeyHandle × HandshakeState) :=
  (·, { self with k := none }) <$> expect self.k "key id k should have been set"

def takeCk (self : HandshakeState) : Except Error (SecretBufferHandle × HandshakeState) :=
  (·, { self with ck := none }) <$> expect self.ck "key id ck should have been set"

@[simp] lemma expect_some {α : Type} (a : α) (msg : String) : expect (some a) msg = .ok a := rfl

@[simp] lemma expect_none {α : Type} (msg : String) :
    expect (none : Option α) msg = .error (.message msg) := rfl

lemma expect_eq_ok {α : Type} {o : Option α} {msg : String} {a : α} :
    expect o msg = .ok a ↔ o = some a := by
  cases o <;> simp [expect]

lemma map_expect_eq_ok {α : Type} {o : Option α} {msg : String} {st : HandshakeState}
    {a : α × HandshakeState} : ((·, st) <$> expect o msg) = .ok a ↔ o = some a.1 ∧ a.2 = st := by
  obtain ⟨x, st'⟩ := a
  cases o <;> simp [expect, Functor.map, Except.map, eq_comm]

end HandshakeState

end Ockam.XX
