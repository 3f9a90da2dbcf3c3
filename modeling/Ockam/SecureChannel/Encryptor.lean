import Ockam.Lib.BigEndian
import Ockam.Vault.SoftwareVault
import Ockam.SecureChannel.KeyTracker
import Ockam.SecureChannel.NonceTracker

/-! `Encryptor`: each payload is encrypted under the next nonce, and the key is renewed before
every nonce that is a positive multiple of `KEY_RENEWAL_INTERVAL`. -/

namespace Ockam.SecureChannel

open Ockam.Vault Ockam.Lib

structure Encryptor (V : Type) where
  key : AeadSecretKeyHandle
  nonce : UInt64
  vault : V

/-- The 8-byte big-endian nonce sent on the wire and the 12-byte AES-GCM nonce. -/
def convertNonceFromU64 (nonce : UInt64) : Bytes × Bytes :=
  let b := BigEndian.encode 8 nonce.toNat
  (b, List.replicate 4 0 ++ b)

def rekey {V : Type} (vault : VaultForSecureChannels V) (key : AeadSecretKeyHandle) :
    EStateM Error V AeadSecretKeyHandle := do
  let nonceBuffer := (convertNonceFromU64 u64Max).2
  let zeroes := List.replicate 32 (0 : UInt8)
  let newKeyBuffer ← vault.aeadEncrypt key zeroes nonceBuffer []
  let buffer ← vault.importSecretBuffer (← EStateM.ofExcept (sliceRange newKeyBuffer 0 32))
  vault.convertSecretBufferToAeadKey buffer

namespace Encryptor

variable {V : Type}

def new (key : AeadSecretKeyHandle) (nonce : UInt64) (vault : V) : Encryptor V :=
  ⟨key, nonce, vault⟩

def liftVault {α : Type} (x : EStateM Error V α) : EStateM Error (Encryptor V) α :=
  x.focus (·.vault) fun e v => { e with vault := v }

def encrypt (vault : VaultForSecureChannels V) (payload : Bytes) :
    EStateM Error (Encryptor V) Bytes := do
  let currentNonce := (← get).nonce
  if currentNonce = u64Max then throw (.identity .nonceOverflow)
  modify fun e => { e with nonce := e.nonce + 1 }
  if currentNonce > 0 ∧ currentNonce % keyRenewalInterval = 0 then
    let newKey ← liftVault (rekey vault (← get).key)
    let oldKey := (← get).key
    modify fun e => { e with key := newKey }
    let _ ← liftVault (vault.deleteAeadSecretKey oldKey)
  let (smallNonce, nonce) := convertNonceFromU64 currentNonce
  let cipherText ← liftVault (vault.aeadEncrypt (← get).key payload nonce [])
  return smallNonce ++ cipherText

def shutdown (vault : VaultForSecureChannels V) : EStateM Error (Encryptor V) Unit := do
  if !(← liftVault (vault.deleteAeadSecretKey (← get).key)) then
    throw (.message "the key id could not be deleted in the Encryptor shutdown")

end Encryptor

/-! The key schedule: key `j` is the first 32 bytes of the encryption of 32 zero bytes under
key `j - 1` with the nonce `u64::MAX`. -/

def rekeySecret (P : Primitives) (k : Bytes) : Bytes :=
  (P.aesGcmEncrypt k (convertNonceFromU64 u64Max).2 [] (List.replicate 32 0)).take 32

def keySecret (P : Primitives) (k0 : Bytes) : ℕ → Bytes
  | 0 => k0
  | j + 1 => rekeySecret P (keySecret P k0 j)

/-- The ciphertext the channel sends for payload `p` under nonce `n`. -/
def sealed (P : Primitives) (k0 : Bytes) (n : ℕ) (p : Bytes) : Bytes :=
  BigEndian.encode 8 n ++
    P.aesGcmEncrypt (keySecret P k0 (n / 32)) (List.replicate 4 0 ++ BigEndian.encode 8 n) [] p

lemma take_sealed (P : Primitives) (k0 : Bytes) (n : ℕ) (p : Bytes) :
    (sealed P k0 n p).take 8 = BigEndian.encode 8 n := by
  simp [sealed]

lemma drop_sealed (P : Primitives) (k0 : Bytes) (n : ℕ) (p : Bytes) :
    (sealed P k0 n p).drop 8 =
      P.aesGcmEncrypt (keySecret P k0 (n / 32)) (List.replicate 4 0 ++ BigEndian.encode 8 n) [] p := by
  simp [sealed]

abbrev SV := SoftwareVaultForSecureChannels

lemma length_nonceBuffer (n : UInt64) : (convertNonceFromU64 n).2.length = aesNonceLength := by
  simp [convertNonceFromU64, aesNonceLength]

lemma rekey_spec {P : Primitives} (hP : AeadLaws P) {v : SV} {h : AeadSecretKeyHandle} {k : Bytes}
    (hs : v.ephemeralAeadSecrets h = some k) :
    ∃ v', rekey (softwareVault P) h v = .ok ⟨v.nextHandle + 1⟩ v' ∧
      v'.nextHandle = v.nextHandle + 2 ∧
      v'.ephemeralAeadSecrets =
        Function.update v.ephemeralAeadSecrets ⟨v.nextHandle + 1⟩ (some (rekeySecret P k)) := by
  set c := P.aesGcmEncrypt k (convertNonceFromU64 u64Max).2 [] (List.replicate 32 0) with hc_def
  have hc : 32 ≤ c.length := by simp [c, hP.length_encrypt]
  have hrun : rekey (softwareVault P) h v = .ok ⟨v.nextHandle + 1⟩
      { v with
        ephemeralBufferSecrets := Function.update (Function.update v.ephemeralBufferSecrets
          ⟨v.nextHandle⟩ (some (c.take 32))) ⟨v.nextHandle⟩ none
        ephemeralAeadSecrets := Function.update v.ephemeralAeadSecrets ⟨v.nextHandle + 1⟩
          (some ((c.take 32).take aeadSecretLength))
        nextHandle := v.nextHandle + 2 } := by
    simp only [rekey, EStateM.bind_apply, softwareVault,
      SoftwareVaultForSecureChannels.aeadEncrypt_apply v hs _ _ _ (length_nonceBuffer _), ← hc_def,
      sliceRange_of_le (Nat.zero_le _) hc, List.drop_zero, Nat.sub_zero, EStateM.ofExcept_ok,
      SoftwareVaultForSecureChannels.importSecretBuffer_apply]
    rw [SoftwareVaultForSecureChannels.convertSecretBufferToAeadKey_apply _
      (Function.update_self _ _ _) (by simp [aeadSecretLength]; omega)]
  exact ⟨_, hrun, rfl, by simp [rekeySecret, c, aeadSecretLength, List.take_take]⟩


namespace Encryptor

/-- The encryptor holds key `(nonce - 1) / 32` of the schedule (key `0` before the first nonce),
under a handle drawn before the vault's counter. -/
structure Keyed (P : Primitives) (k0 : Bytes) (e : Encryptor SV) : Prop where
  secret : e.vault.ephemeralAeadSecrets e.key = some (keySecret P k0 ((e.nonce.toNat - 1) / 32))
  fresh : e.key.handle < e.vault.nextHandle

lemma rekeyDue_iff (n : UInt64) :
    (n > 0 ∧ n % keyRenewalInterval = 0) ↔ (0 < n.toNat ∧ n.toNat % 32 = 0) := by
  simp only [gt_iff_lt, UInt64.lt_iff_toNat_lt, ← UInt64.toNat_inj, UInt64.toNat_mod]
  rfl

variable {P : Primitives} {k0 : Bytes}

lemma encrypt_spec (hP : AeadLaws P) {e : Encryptor SV} (he : e.Keyed P k0) (hn : e.nonce ≠ u64Max)
    (payload : Bytes) :
    ∃ e', encrypt (softwareVault P) payload e = .ok (sealed P k0 e.nonce.toNat payload) e' ∧
      e'.nonce = e.nonce + 1 ∧ e'.Keyed P k0 := by
  set j := e.nonce.toNat with hj_def
  have hj : j + 1 < 2 ^ 64 := by
    have hne : j ≠ u64Max.toNat := fun h => hn (UInt64.toNat_inj.mp h)
    have := e.nonce.toNat_lt
    rw [toNat_u64Max] at hne
    omega
  have hsucc : (e.nonce + 1).toNat = j + 1 := by
    rw [UInt64.toNat_add, Nat.mod_eq_of_lt (by simpa using hj)]
    rfl
  simp only [encrypt, EStateM.bind_apply, EStateM.get_apply, hn, if_false, EStateM.modify_apply]
  by_cases hd : 0 < j ∧ j % 32 = 0
  · -- the nonce opens a new interval: the key is renewed and the old one deleted
    obtain ⟨v', hrk, hnext, hsec⟩ := rekey_spec hP he.secret
    have hkey : Function.update v'.ephemeralAeadSecrets e.key none ⟨e.vault.nextHandle + 1⟩ =
        some (keySecret P k0 (j / 32)) := by
      rw [Function.update_of_ne (by intro h; have := he.fresh; rw [← h] at this; dsimp only at this; omega),
        hsec, Function.update_self, show j / 32 = (j - 1) / 32 + 1 by omega]
      rfl
    rw [if_pos ((rekeyDue_iff _).2 hd)]
    simp only [EStateM.bind_apply, EStateM.get_apply, liftVault, EStateM.focus_apply, hrk,
      EStateM.modify_apply, softwareVault_deleteAeadSecretKey,
      SoftwareVaultForSecureChannels.deleteAeadSecretKey_apply, softwareVault_aeadEncrypt,
      SoftwareVaultForSecureChannels.aeadEncrypt_apply
        { v' with ephemeralAeadSecrets := Function.update v'.ephemeralAeadSecrets e.key none } hkey
        _ _ _ (length_nonceBuffer _)]
    refine ⟨_, rfl, rfl, ⟨?_, ?_⟩⟩
    · simpa only [hsucc, Nat.add_sub_cancel] using hkey
    · simp only [hnext]
      omega
  · -- the key of the current interval is kept
    rw [if_neg (fun h => hd ((rekeyDue_iff _).1 h))]
    have hkey : e.vault.ephemeralAeadSecrets e.key = some (keySecret P k0 (j / 32)) := by
      rw [he.secret, show (j - 1) / 32 = j / 32 by omega]
    simp only [EStateM.bind_apply, EStateM.get_apply, liftVault, EStateM.focus_apply,
      softwareVault_aeadEncrypt,
      SoftwareVaultForSecureChannels.aeadEncrypt_apply _ hkey _ _ _ (length_nonceBuffer _)]
    refine ⟨_, rfl, rfl, ⟨?_, he.fresh⟩⟩
    simpa only [hsucc, Nat.add_sub_cancel] using hkey

lemma encrypt_run (hP : AeadLaws P) :
    ∀ (ps : List Bytes) (e : Encryptor SV), e.Keyed P k0 → e.nonce.toNat + ps.length < 2 ^ 64 →
      ∃ e', ps.mapM (encrypt (softwareVault P)) e =
        .ok (ps.mapIdx fun i p => sealed P k0 (e.nonce.toNat + i) p) e' ∧ e'.Keyed P k0 := by
  intro ps
  induction ps with
  | nil => intro e he _; exact ⟨e, rfl, he⟩
  | cons p ps ih =>
    intro e he hlen
    have hn : e.nonce ≠ u64Max := by
      intro h
      rw [h, toNat_u64Max, List.length_cons] at hlen
      omega
    obtain ⟨e₁, h₁, hnonce, he₁⟩ := encrypt_spec hP he hn p
    have hsucc : e₁.nonce.toNat = e.nonce.toNat + 1 := by
      rw [hnonce, UInt64.toNat_add, Nat.mod_eq_of_lt (by simp at hlen ⊢; omega)]
      rfl
    obtain ⟨e₂, h₂, he₂⟩ := ih e₁ he₁ (by simp at hlen; omega)
    refine ⟨e₂, ?_, he₂⟩
    have hidx : (fun i q => sealed P k0 (e.nonce.toNat + 1 + i) q) =
        fun i q => sealed P k0 (e.nonce.toNat + (i + 1)) q := by
      funext i q
      rw [Nat.add_right_comm, Nat.add_assoc]
    simp only [List.mapM_cons, EStateM.bind_apply, h₁, h₂, hsucc, List.mapIdx_cons, Nat.add_zero,
      hidx]
    rfl

end Encryptor

end Ockam.SecureChannel
