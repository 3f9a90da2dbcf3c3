import Mathlib

/-! Byte strings and the error values that the Rust crates turn into `ockam_core::Error`. -/

namespace Ockam

abbrev Bytes := List UInt8

inductive VaultError where
  | keyNotFound
  | invalidSecretLength
  | invalidHkdfOutputType
  | aeadAesGcmEncrypt
  | aeadAesGcmDecrypt
  | hkdfExpandError
  deriving DecidableEq, Repr

inductive IdentityError where
  | invalidKeyType
  | invalidKeyData
  | emptyIdentity
  | identityVerificationFailed
  | unknownIdentityVersion
  | secureChannelVerificationFailedIncorrectCredential
  | secureChannelVerificationFailedMissingTrustContext
  | secureChannelTrustCheckFailed
  | invalidNonce
  | nonceOverflow
  | consistencyError
  | wrongSecretKey
  deriving DecidableEq, Repr

inductive XXError where
  | internalVaultError
  | messageLenMismatch
  | exceededMaxMessageLen
  | invalidInternalState
  deriving DecidableEq, Repr

inductive Error where
  | vault (e : VaultError)
  | identity (e : IdentityError)
  | xx (e : XXError)
  | message (msg : String)
  | panic (msg : String)
  deriving DecidableEq, Repr

/-! Rust slicing of a byte string: `bs[start..stop]`, `bs[start..]` and `bs[..stop]` panic when
the range does not lie in the string. -/

def sliceRange (bs : Bytes) (start stop : ℕ) : Except Error Bytes :=
  if start ≤ stop ∧ stop ≤ bs.length then .ok ((bs.drop start).take (stop - start))
  else .error (.panic "range out of bounds")

def sliceFrom (bs : Bytes) (start : ℕ) : Except Error Bytes :=
  if start ≤ bs.length then .ok (bs.drop start) else .error (.panic "range start out of bounds")

def sliceTo (bs : Bytes) (stop : ℕ) : Except Error Bytes :=
  if stop ≤ bs.length then .ok (bs.take stop) else .error (.panic "range end out of bounds")

lemma sliceRange_of_le {bs : Bytes} {start stop : ℕ} (h : start ≤ stop) (h' : stop ≤ bs.length) :
    sliceRange bs start stop = .ok ((bs.drop start).take (stop - start)) := by
  simp [sliceRange, h, h']

lemma sliceFrom_of_le {bs : Bytes} {start : ℕ} (h : start ≤ bs.length) :
    sliceFrom bs start = .ok (bs.drop start) := by
  simp [sliceFrom, h]

lemma sliceTo_of_le {bs : Bytes} {stop : ℕ} (h : stop ≤ bs.length) :
    sliceTo bs stop = .ok (bs.take stop) := by
  simp [sliceTo, h]

end Ockam
