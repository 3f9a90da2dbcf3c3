import Ockam.Core.Error
import Ockam.Lib.StateMonad

/-! Handles to secrets and the `VaultForSecureChannels` trait: each operation acts on the
state of whichever vault implements it and may fail, keeping that state. -/

namespace Ockam.Vault

structure SecretBufferHandle where
  handle : ℕ
  deriving DecidableEq, Repr

structure AeadSecretKeyHandle where
  handle : ℕ
  deriving DecidableEq, Repr

structure X25519SecretKeyHandle where
  handle : Bytes
  deriving DecidableEq, Repr

structure X25519PublicKey where
  key : Bytes
  deriving DecidableEq, Repr

inductive HKDFNumberOfOutputs where
  | two
  | three
  deriving DecidableEq, Repr

def x25519PublicKeyLength : ℕ := 32

def aeadSecretLength : ℕ := 32

def aesNonceLength : ℕ := 12

structure VaultForSecureChannels (V : Type) where
  x25519Ecdh : X25519SecretKeyHandle → X25519PublicKey → EStateM Error V SecretBufferHandle
  hash : Bytes → EStateM Error V Bytes
  hkdf : SecretBufferHandle → Option SecretBufferHandle → HKDFNumberOfOutputs →
    EStateM Error V (List SecretBufferHandle)
  aeadEncrypt : AeadSecretKeyHandle → Bytes → Bytes → Bytes → EStateM Error V Bytes
  aeadDecrypt : AeadSecretKeyHandle → Bytes → Bytes → Bytes → EStateM Error V Bytes
  getX25519PublicKey : X25519SecretKeyHandle → EStateM Error V X25519PublicKey
  deleteEphemeralX25519SecretKey : X25519SecretKeyHandle → EStateM Error V Bool
  importSecretBuffer : Bytes → EStateM Error V SecretBufferHandle
  deleteSecretBuffer : SecretBufferHandle → EStateM Error V Bool
  convertSecretBufferToAeadKey : SecretBufferHandle → EStateM Error V AeadSecretKeyHandle
  deleteAeadSecretKey : AeadSecretKeyHandle → EStateM Error V Bool

end Ockam.Vault
