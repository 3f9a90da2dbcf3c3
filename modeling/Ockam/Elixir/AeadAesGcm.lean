import Mathlib
import Ockam.Core.Error
import Ockam.Lib.BigEndian

/-! The transport encryption of the Elixir secure channel (`Ockam.SecureChannel.Crypto` and
`EncryptedTransportProtocol.AeadAesGcm`). A call comes to a value or to an exception that it
raises: the outer `Except Exception` is the raise, the inner `Except Reason` the
`{:error, reason}` tuple the code returns. `:crypto` is an abstract AEAD. -/

namespace Ockam.Elixir

open Ockam.Lib

inductive Exception where
  /-- no clause of the function matches its arguments -/
  | functionClauseError
  /-- a `=` or binary pattern does not match -/
  | matchError
  /-- `:crypto` refuses an argument, such as a `nil` key -/
  | argumentError
  deriving DecidableEq, Repr

inductive Reason where
  | repeatedNonce
  | outOfWindow
  | aeadAesGcmDecryptError
  /-- `{:error, nil}` of `increment_nonce` -/
  | noReason
  | invalidBareData
  deriving DecidableEq, Repr

/-- `:crypto.crypto_one_time_aead(:aes_256_gcm, k, <<n::96>>, ...)`: encryption gives the
ciphertext and the tag, decryption the plaintext or `:error`. -/
structure Aead where
  encrypt : Bytes → ℕ → Bytes → Bytes → Bytes × Bytes
  decrypt : Bytes → ℕ → Bytes → Bytes → Bytes → Option Bytes

/-- `2 ^ 64 - 1`. -/
def maxNonce : ℕ := 2 ^ 64 - 1

variable (A : Aead)

namespace Crypto

def aeadAesGcmEncrypt (k : Bytes) (n : ℕ) (h plaintext : Bytes) : Except Reason Bytes :=
  let (a, b) := A.encrypt k n plaintext h
  .ok (a ++ b)

/-- The ciphertext is all but the last 16 bytes: on a shorter binary the size is negative and
the binary match raises. A `nil` key is refused by `:crypto`. -/
def aeadAesGcmDecrypt (k : Option Bytes) (n : ℕ) (h ciphertextAndTag : Bytes) :
    Except Exception (Except Reason Bytes) := do
  if ciphertextAndTag.length < 16 then throw .matchError
  let size := ciphertextAndTag.length - 16
  let some k := k | throw .argumentError
  match A.decrypt k n (ciphertextAndTag.take size) h (ciphertextAndTag.drop size) with
  | some plaintext => pure (.ok plaintext)
  | none => pure (.error .aeadAesGcmDecryptError)

end Crypto

def incrementNonce (n : ℕ) : Except Reason ℕ :=
  if n + 1 = maxNonce then .error .noReason else .ok (n + 1)

/-- The first 32 bytes of the encryption of 32 zero bytes under the nonce `2 ^ 64 - 1`. When the
`with` pattern does not match, `rekey` returns the encryption's own `{:ok, ciphertext}`. -/
def rekey (k : Bytes) : Except Reason Bytes := do
  let c ← Crypto.aeadAesGcmEncrypt A k maxNonce [] (List.replicate 32 0)
  if 32 ≤ c.length then pure (c.take 32) else pure c

structure Encryptor where
  k : Bytes
  nonce : ℕ
  rekeyEach : ℕ

namespace Encryptor

def new (k : Bytes) (nonce : ℕ) : Encryptor := ⟨k, nonce, 32⟩

def rotateIfNeeded (nextNonce : ℕ) (k : Bytes) (rekeyEach : ℕ) : Except Reason (Bytes × Bool) :=
  if nextNonce % rekeyEach = 0 then do
    let newK ← rekey A k
    pure (newK, true)
  else .ok (k, false)

/-- The frame is the nonce in eight big-endian bytes followed by the ciphertext and tag. -/
def encrypt (ad plaintext : Bytes) (st : Encryptor) : Except Reason (Bytes × Encryptor) := do
  let ciphertext ← Crypto.aeadAesGcmEncrypt A st.k st.nonce ad plaintext
  let nextNonce ← incrementNonce st.nonce
  let (nextK, _) ← rotateIfNeeded A nextNonce st.k st.rekeyEach
  pure (BigEndian.encode 8 st.nonce ++ ciphertext, { st with nonce := nextNonce, k := nextK })

end Encryptor

structure Decryptor where
  k : Bytes
  expectedNonce : ℕ
  rekeyEach : ℕ
  prevK : Option Bytes
  seen : Finset ℕ
  prevSeen : Finset ℕ

namespace Decryptor

def new (k : Bytes) (nonce : ℕ) : Decryptor := ⟨k, nonce, 32, none, ∅, ∅⟩

/-- `decrypt_from` for the key window of the nonce relative to the expected one: `0` the
current key, `-1` the previous one, `1` the next one, which it then moves to. -/
def decryptFrom (windowOffset : ℤ) (nonce : ℕ) (ad ciphertext : Bytes) (st : Decryptor) :
    Except Exception (Except Reason (Bytes × Decryptor)) :=
  if windowOffset = 0 then
    if nonce ∈ st.seen then pure (.error .repeatedNonce) else do
      let .ok nextNonce := incrementNonce nonce | throw .matchError
      match ← Crypto.aeadAesGcmDecrypt A (some st.k) nonce ad ciphertext with
      | .ok plaintext => pure (.ok (plaintext, { st with
          seen := insert nonce st.seen, expectedNonce := max st.expectedNonce nextNonce }))
      | .error reason => pure (.error reason)
  else if windowOffset = -1 then
    if nonce ∈ st.prevSeen then pure (.error .repeatedNonce) else do
      match ← Crypto.aeadAesGcmDecrypt A st.prevK nonce ad ciphertext with
      | .ok plaintext => pure (.ok (plaintext, { st with prevSeen := insert nonce st.prevSeen }))
      | .error reason => pure (.error reason)
  else if windowOffset = 1 then do
    let .ok nextNonce := incrementNonce nonce | throw .matchError
    let .ok newK := rekey A st.k | throw .matchError
    match ← Crypto.aeadAesGcmDecrypt A (some newK) nonce ad ciphertext with
    | .ok plaintext => pure (.ok (plaintext, { st with
        prevK := some st.k, k := newK, prevSeen := st.seen, seen := {nonce},
        expectedNonce := nextNonce }))
    | .error reason => pure (.error reason)
  else pure (.error .outOfWindow)

/-- The only clause matches `<<nonce::unsigned-big-integer-size(64), ciphertext::binary>>`. -/
def decrypt (ad frame : Bytes) (st : Decryptor) :
    Except Exception (Except Reason (Bytes × Decryptor)) :=
  if frame.length < 8 then throw .functionClauseError
  else
    let nonce := BigEndian.decode (frame.take 8)
    let ciphertext := frame.drop 8
    if (st.expectedNonce : ℤ) - st.rekeyEach ≤ nonce ∧ (nonce : ℤ) < st.expectedNonce + st.rekeyEach then
      let windowOffset := Int.tdiv nonce st.rekeyEach -
        Int.tdiv (max 0 ((st.expectedNonce : ℤ) - 1)) st.rekeyEach
      decryptFrom A windowOffset nonce ad ciphertext st
    else pure (.error .outOfWindow)

variable {A}

theorem decrypt_of_short {ad frame : Bytes} (st : Decryptor) (h : frame.length < 8) :
    decrypt A ad frame st = .error .functionClauseError := by
  simp [decrypt, h, throw, throwThe, MonadExceptOf.throw]

theorem decrypt_new_of_short_tag {ad frame : Bytes} (k : Bytes) (h8 : 8 ≤ frame.length)
    (h24 : frame.length < 24) (hn : BigEndian.decode (frame.take 8) < 32) :
    decrypt A ad frame (new k 0) = .error .matchError := by
  have hmax : BigEndian.decode (frame.take 8) + 1 ≠ maxNonce := by
    simp only [maxNonce]; omega
  have hoff : Int.tdiv (BigEndian.decode (frame.take 8) : ℤ) 32 = 0 :=
    Int.tdiv_eq_zero_of_lt (by omega) (by omega)
  simp [decrypt, new, decryptFrom, show ¬ frame.length < 8 by omega, hoff, incrementNonce, hmax,
    Crypto.aeadAesGcmDecrypt, show frame.length - 8 < 16 by omega,
    show (BigEndian.decode (frame.take 8) : ℤ) < 32 by exact_mod_cast hn, throw, throwThe,
    MonadExceptOf.throw, bind, Except.bind]

end Decryptor

end Ockam.Elixir
