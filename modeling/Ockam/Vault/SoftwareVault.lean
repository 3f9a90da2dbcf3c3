import Ockam.Vault.Types

/-! `SoftwareVaultForSecureChannels`: secrets kept in maps keyed by handles. Buffer and AEAD
handles are fresh random values (drawn here from a counter); an X25519 handle is the SHA-256
of the public key. The cryptographic primitives are parameters. -/

namespace Ockam.Vault

structure Primitives where
  aesGcmEncrypt : Bytes → Bytes → Bytes → Bytes → Bytes
  aesGcmDecrypt : Bytes → Bytes → Bytes → Bytes → Option Bytes
  sha256 : Bytes → Bytes
  hkdfSha256 : Bytes → Bytes → ℕ → Option Bytes
  x25519 : Bytes → Bytes → Bytes
  x25519PublicKey : Bytes → Bytes

/-- AES-256-GCM as an abstract AEAD: decryption succeeds exactly on the encryptions of a
plaintext under the same key, nonce and additional data, and the tag adds 16 bytes. -/
structure AeadLaws (P : Primitives) : Prop where
  decrypt_encrypt : ∀ k n a m, P.aesGcmDecrypt k n a (P.aesGcmEncrypt k n a m) = some m
  encrypt_of_decrypt : ∀ k n a c m, P.aesGcmDecrypt k n a c = some m → c = P.aesGcmEncrypt k n a m
  length_encrypt : ∀ k n a m, (P.aesGcmEncrypt k n a m).length = m.length + 16

/-- `<[u8]>::chunks(n)` for `0 < n`: the pieces of `n` bytes in order, the last one shorter. -/
def chunks {α : Type} (n : ℕ) (l : List α) : List (List α) :=
  go l.length l
where
  go : ℕ → List α → List (List α)
    | 0, _ => []
    | _ + 1, [] => []
    | fuel + 1, l@(_ :: _) => l.take n :: go fuel (l.drop n)

lemma chunks_go_nil {α : Type} (n fuel : ℕ) : chunks.go n fuel ([] : List α) = [] := by
  cases fuel <;> rfl

lemma chunks_go_cons {α : Type} {n fuel : ℕ} {l : List α} (hl : l ≠ []) :
    chunks.go n (fuel + 1) l = l.take n :: chunks.go n fuel (l.drop n) := by
  cases l with
  | nil => contradiction
  | cons x xs => rfl

lemma chunks_of_length_two_mul {α : Type} {n : ℕ} {l : List α} (hn : 0 < n)
    (hl : l.length = 2 * n) : chunks n l = [l.take n, l.drop n] := by
  have h1 : l ≠ [] := List.ne_nil_of_length_pos (by omega)
  have h2 : l.drop n ≠ [] := List.ne_nil_of_length_pos (by simp only [List.length_drop]; omega)
  have h3 : (l.drop n).drop n = [] := List.drop_of_length_le (by simp only [List.length_drop]; omega)
  have h4 : (l.drop n).take n = l.drop n := List.take_of_length_le (by simp only [List.length_drop]; omega)
  rw [chunks, hl, show 2 * n = (2 * n - 2) + 1 + 1 by omega, chunks_go_cons h1, chunks_go_cons h2,
    h3, chunks_go_nil, h4]

structure SoftwareVaultForSecureChannels where
  ephemeralBufferSecrets : SecretBufferHandle → Option Bytes
  ephemeralAeadSecrets : AeadSecretKeyHandle → Option Bytes
  ephemeralX25519Secrets : X25519SecretKeyHandle → Option Bytes
  staticX25519Secrets : X25519SecretKeyHandle → Option Bytes
  nextHandle : ℕ

namespace SoftwareVaultForSecureChannels

variable (P : Primitives)

abbrev M := EStateM Error SoftwareVaultForSecureChannels

def generateRandomHandle : M ℕ :=
  modifyGet fun v => (v.nextHandle, { v with nextHandle := v.nextHandle + 1 })

def importBufferSecretImpl (secret : Bytes) : M SecretBufferHandle := do
  let handle := SecretBufferHandle.mk (← generateRandomHandle)
  modify fun v => { v with ephemeralBufferSecrets := Function.update v.ephemeralBufferSecrets handle (some secret) }
  return handle

def computeHandleForPublicKey (publicKey : X25519PublicKey) : X25519SecretKeyHandle :=
  ⟨P.sha256 publicKey.key⟩

def computePublicKeyFromSecret (secret : Bytes) : X25519PublicKey :=
  ⟨P.x25519PublicKey secret⟩

def getX25519Secret (handle : X25519SecretKeyHandle) : M Bytes := do
  let v ← get
  match v.ephemeralX25519Secrets handle with
  | some secret => return secret
  | none =>
    match v.staticX25519Secrets handle with
    | some secret => return secret
    | none => throw (.vault .keyNotFound)

def getBufferSecret (handle : SecretBufferHandle) : M Bytes := do
  match (← get).ephemeralBufferSecrets handle with
  | some secret => return secret
  | none => throw (.vault .keyNotFound)

def getAeadSecret (handle : AeadSecretKeyHandle) : M Bytes := do
  match (← get).ephemeralAeadSecrets handle with
  | some secret => return secret
  | none => throw (.vault .keyNotFound)

def x25519Ecdh (secretKeyHandle : X25519SecretKeyHandle) (peerPublicKey : X25519PublicKey) :
    M SecretBufferHandle := do
  let storedSecret ← getX25519Secret secretKeyHandle
  importBufferSecretImpl (P.x25519 storedSecret peerPublicKey.key)

def hash (data : Bytes) : M Bytes :=
  return P.sha256 data

def outputWindowSize : ℕ := 32

def hkdf (salt : SecretBufferHandle) (inputKeyMaterial : Option SecretBufferHandle)
    (numberOfOutputs : HKDFNumberOfOutputs) : M (List SecretBufferHandle) := do
  let ikm ← match inputKeyMaterial with
    | some ikm => getBufferSecret ikm
    | none => pure []
  let salt ← getBufferSecret salt
  let (numberOfOutputs, okmLen) := match numberOfOutputs with
    | .two => (2, outputWindowSize * 2)
    | .three => (3, outputWindowSize * 3)
  let some okm := P.hkdfSha256 salt ikm okmLen | throw (.vault .hkdfExpandError)
  let chunks := chunks outputWindowSize okm
  if chunks.length ≠ numberOfOutputs then throw (.vault .hkdfExpandError)
  chunks.mapM importBufferSecretImpl

def aeadEncrypt (secretKeyHandle : AeadSecretKeyHandle) (plainText nonce aad : Bytes) :
    M Bytes := do
  let secret ← getAeadSecret secretKeyHandle
  if nonce.length ≠ aesNonceLength then throw (.vault .aeadAesGcmEncrypt)
  return P.aesGcmEncrypt secret nonce aad plainText

def aeadDecrypt (secretKeyHandle : AeadSecretKeyHandle) (cipherText nonce aad : Bytes) :
    M Bytes := do
  let secret ← getAeadSecret secretKeyHandle
  if nonce.length ≠ aesNonceLength then throw (.vault .aeadAesGcmEncrypt)
  match P.aesGcmDecrypt secret nonce aad cipherText with
  | some plainText => return plainText
  | none => throw (.vault .aeadAesGcmDecrypt)

def getX25519PublicKey (secretKeyHandle : X25519SecretKeyHandle) : M X25519PublicKey := do
  return computePublicKeyFromSecret P (← getX25519Secret secretKeyHandle)

def deleteEphemeralX25519SecretKey (secretKeyHandle : X25519SecretKeyHandle) : M Bool :=
  modifyGet fun v => ((v.ephemeralX25519Secrets secretKeyHandle).isSome,
    { v with ephemeralX25519Secrets := Function.update v.ephemeralX25519Secrets secretKeyHandle none })

def importSecretBuffer (buffer : Bytes) : M SecretBufferHandle :=
  importBufferSecretImpl buffer

def deleteSecretBuffer (secretBufferHandle : SecretBufferHandle) : M Bool :=
  modifyGet fun v => ((v.ephemeralBufferSecrets secretBufferHandle).isSome,
    { v with ephemeralBufferSecrets := Function.update v.ephemeralBufferSecrets secretBufferHandle none })

def convertSecretBufferToAeadKey (secretBufferHandle : SecretBufferHandle) :
    M AeadSecretKeyHandle := do
  let v ← get
  let some buffer := v.ephemeralBufferSecrets secretBufferHandle | throw (.vault .keyNotFound)
  set { v with ephemeralBufferSecrets := Function.update v.ephemeralBufferSecrets secretBufferHandle none }
  if buffer.length < aeadSecretLength then throw (.vault .invalidSecretLength)
  let handle := AeadSecretKeyHandle.mk (← generateRandomHandle)
  modify fun v => { v with
    ephemeralAeadSecrets := Function.update v.ephemeralAeadSecrets handle (some (buffer.take aeadSecretLength)) }
  return handle

def deleteAeadSecretKey (secretKeyHandle : AeadSecretKeyHandle) : M Bool :=
  modifyGet fun v => ((v.ephemeralAeadSecrets secretKeyHandle).isSome,
    { v with ephemeralAeadSecrets := Function.update v.ephemeralAeadSecrets secretKeyHandle none })

/-! Each operation on a vault holding the secrets it reads. -/

variable {P} (v : SoftwareVaultForSecureChannels)

lemma aeadEncrypt_apply {h : AeadSecretKeyHandle} {secret : Bytes}
    (hs : v.ephemeralAeadSecrets h = some secret) (plainText nonce aad : Bytes)
    (hn : nonce.length = aesNonceLength) :
    aeadEncrypt P h plainText nonce aad v = .ok (P.aesGcmEncrypt secret nonce aad plainText) v := by
  simp [aeadEncrypt, getAeadSecret, hs, hn]

lemma aeadDecrypt_apply {h : AeadSecretKeyHandle} {secret : Bytes}
    (hs : v.ephemeralAeadSecrets h = some secret) (cipherText nonce aad : Bytes)
    (hn : nonce.length = aesNonceLength) :
    aeadDecrypt P h cipherText nonce aad v =
      match P.aesGcmDecrypt secret nonce aad cipherText with
      | some plainText => .ok plainText v
      | none => .error (.vault .aeadAesGcmDecrypt) v := by
  simp only [aeadDecrypt, getAeadSecret, EStateM.bind_apply, EStateM.get_apply, hs,
    EStateM.pure_apply, hn, ne_eq, not_true_eq_false, if_false]
  cases P.aesGcmDecrypt secret nonce aad cipherText <;> rfl

lemma importSecretBuffer_apply (buffer : Bytes) :
    importSecretBuffer buffer v = .ok ⟨v.nextHandle⟩
      { v with
        ephemeralBufferSecrets := Function.update v.ephemeralBufferSecrets ⟨v.nextHandle⟩ (some buffer)
        nextHandle := v.nextHandle + 1 } := rfl

lemma convertSecretBufferToAeadKey_apply {h : SecretBufferHandle} {buffer : Bytes}
    (hb : v.ephemeralBufferSecrets h = some buffer) (hl : aeadSecretLength ≤ buffer.length) :
    convertSecretBufferToAeadKey h v = .ok ⟨v.nextHandle⟩
      { v with
        ephemeralBufferSecrets := Function.update v.ephemeralBufferSecrets h none
        ephemeralAeadSecrets := Function.update v.ephemeralAeadSecrets ⟨v.nextHandle⟩
          (some (buffer.take aeadSecretLength))
        nextHandle := v.nextHandle + 1 } := by
  simp [convertSecretBufferToAeadKey, hb, show ¬ buffer.length < aeadSecretLength by omega,
    generateRandomHandle]

lemma getBufferSecret_apply {h : SecretBufferHandle} {secret : Bytes}
    (hs : v.ephemeralBufferSecrets h = some secret) : getBufferSecret h v = .ok secret v := by
  simp [getBufferSecret, hs]

lemma getX25519Secret_apply {h : X25519SecretKeyHandle} {secret : Bytes}
    (hs : (v.ephemeralX25519Secrets h).or (v.staticX25519Secrets h) = some secret) :
    getX25519Secret h v = .ok secret v := by
  cases he : v.ephemeralX25519Secrets h <;> simp_all [getX25519Secret]

lemma getX25519PublicKey_apply {h : X25519SecretKeyHandle} {secret : Bytes}
    (hs : (v.ephemeralX25519Secrets h).or (v.staticX25519Secrets h) = some secret) :
    getX25519PublicKey P h v = .ok ⟨P.x25519PublicKey secret⟩ v := by
  simp [getX25519PublicKey, getX25519Secret_apply v hs, computePublicKeyFromSecret]

lemma x25519Ecdh_apply {h : X25519SecretKeyHandle} {secret : Bytes}
    (hs : (v.ephemeralX25519Secrets h).or (v.staticX25519Secrets h) = some secret)
    (peerPublicKey : X25519PublicKey) :
    x25519Ecdh P h peerPublicKey v = .ok ⟨v.nextHandle⟩
      { v with
        ephemeralBufferSecrets := Function.update v.ephemeralBufferSecrets ⟨v.nextHandle⟩
          (some (P.x25519 secret peerPublicKey.key))
        nextHandle := v.nextHandle + 1 } := by
  simp [x25519Ecdh, getX25519Secret_apply v hs, importBufferSecretImpl, generateRandomHandle]

lemma hkdf_apply {salt : SecretBufferHandle} {inputKeyMaterial : Option SecretBufferHandle}
    {s ikm okm : Bytes} (hs : v.ephemeralBufferSecrets salt = some s)
    (hi : inputKeyMaterial.elim (some []) v.ephemeralBufferSecrets = some ikm)
    (hokm : P.hkdfSha256 s ikm 64 = some okm) (hl : okm.length = 64) :
    hkdf P salt inputKeyMaterial .two v = .ok [⟨v.nextHandle⟩, ⟨v.nextHandle + 1⟩]
      { v with
        ephemeralBufferSecrets := Function.update (Function.update v.ephemeralBufferSecrets
          ⟨v.nextHandle⟩ (some (okm.take 32))) ⟨v.nextHandle + 1⟩ (some (okm.drop 32))
        nextHandle := v.nextHandle + 2 } := by
  have hc : chunks 32 okm = [okm.take 32, okm.drop 32] := chunks_of_length_two_mul (by decide) hl
  rcases inputKeyMaterial with _ | i
  · cases hi
    simp [hkdf, getBufferSecret_apply v hs, hokm, hc, outputWindowSize, importBufferSecretImpl,
      generateRandomHandle, List.mapM_cons]
  · simp [hkdf, getBufferSecret_apply v hi, getBufferSecret_apply v hs, hokm, hc,
      outputWindowSize, importBufferSecretImpl, generateRandomHandle, List.mapM_cons]

lemma deleteSecretBuffer_apply (h : SecretBufferHandle) :
    deleteSecretBuffer h v = .ok (v.ephemeralBufferSecrets h).isSome
      { v with ephemeralBufferSecrets := Function.update v.ephemeralBufferSecrets h none } := rfl

lemma deleteEphemeralX25519SecretKey_apply (h : X25519SecretKeyHandle) :
    deleteEphemeralX25519SecretKey h v = .ok (v.ephemeralX25519Secrets h).isSome
      { v with ephemeralX25519Secrets := Function.update v.ephemeralX25519Secrets h none } := rfl

lemma deleteAeadSecretKey_apply (h : AeadSecretKeyHandle) :
    deleteAeadSecretKey h v = .ok (v.ephemeralAeadSecrets h).isSome
      { v with ephemeralAeadSecrets := Function.update v.ephemeralAeadSecrets h none } := rfl

/-- `v'` keeps every AEAD secret whose handle `v` has drawn, and draws its handles after them. -/
structure Keeps (v v' : SoftwareVaultForSecureChannels) : Prop where
  secrets : ∀ h : AeadSecretKeyHandle, h.handle < v.nextHandle →
    v'.ephemeralAeadSecrets h = v.ephemeralAeadSecrets h
  counter : v.nextHandle ≤ v'.nextHandle

lemma Keeps.refl : Keeps v v := ⟨fun _ _ => rfl, Nat.le_refl _⟩

lemma Keeps.trans {v₀ v₁ v₂ : SoftwareVaultForSecureChannels} (h₀ : Keeps v₀ v₁)
    (h₁ : Keeps v₁ v₂) : Keeps v₀ v₂ :=
  ⟨fun h hh => (h₁.secrets h (Nat.lt_of_lt_of_le hh h₀.counter)).trans (h₀.secrets h hh),
    h₀.counter.trans h₁.counter⟩

lemma keeps_of_update {v' : SoftwareVaultForSecureChannels} {h : AeadSecretKeyHandle}
    {secret : Option Bytes} (hh : v.nextHandle ≤ h.handle)
    (hs : v'.ephemeralAeadSecrets = Function.update v.ephemeralAeadSecrets h secret)
    (hc : v.nextHandle ≤ v'.nextHandle) : Keeps v v' := by
  refine ⟨fun k hk => ?_, hc⟩
  rw [hs, Function.update_of_ne]
  rintro rfl
  omega

end SoftwareVaultForSecureChannels

@[simps]
def softwareVault (P : Primitives) : VaultForSecureChannels SoftwareVaultForSecureChannels where
  x25519Ecdh := SoftwareVaultForSecureChannels.x25519Ecdh P
  hash := SoftwareVaultForSecureChannels.hash P
  hkdf := SoftwareVaultForSecureChannels.hkdf P
  aeadEncrypt := SoftwareVaultForSecureChannels.aeadEncrypt P
  aeadDecrypt := SoftwareVaultForSecureChannels.aeadDecrypt P
  getX25519PublicKey := SoftwareVaultForSecureChannels.getX25519PublicKey P
  deleteEphemeralX25519SecretKey := SoftwareVaultForSecureChannels.deleteEphemeralX25519SecretKey
  importSecretBuffer := SoftwareVaultForSecureChannels.importSecretBuffer
  deleteSecretBuffer := SoftwareVaultForSecureChannels.deleteSecretBuffer
  convertSecretBufferToAeadKey := SoftwareVaultForSecureChannels.convertSecretBufferToAeadKey
  deleteAeadSecretKey := SoftwareVaultForSecureChannels.deleteAeadSecretKey

end Ockam.Vault
