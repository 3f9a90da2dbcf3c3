import Ockam.SecureChannel.Encryptor

/-! `Decryptor`: a message is checked against the replay window, decrypted under the key of its
nonce's interval, and only a successful decryption commits the new window and key. -/

namespace Ockam.SecureChannel

open Ockam.Vault Ockam.Lib
open NonceTracker (highest Acceptable)

structure Decryptor (V : Type) where
  vault : V
  keyTracker : KeyTracker
  nonceTracker : NonceTracker

namespace Decryptor

variable {V : Type}

def new (key : AeadSecretKeyHandle) (vault : V) : Decryptor V :=
  ⟨vault, KeyTracker.new key keyRenewalInterval, NonceTracker.new⟩

/-- `b.try_into()` into `[u8; 8]` fails unless `b` has exactly 8 bytes. -/
def convertNonceFromSmall (b : Bytes) : Except Error (UInt64 × Bytes) :=
  if b.length = 8 then
    let nonce := UInt64.ofNat (BigEndian.decode b)
    .ok (nonce, (convertNonceFromU64 nonce).2)
  else .error (.identity .invalidNonce)

def liftVault {α : Type} (x : EStateM Error V α) : EStateM Error (Decryptor V) α :=
  x.focus (·.vault) fun d v => { d with vault := v }

def liftKeyTracker {α : Type} (x : EStateM Error KeyTracker α) : EStateM Error (Decryptor V) α :=
  x.focus (·.keyTracker) fun d k => { d with keyTracker := k }

/-- The key of a nonce in `decrypt`: the key the tracker holds for its interval, or the current
key renewed once when the nonce lies in the next interval. -/
def keyFor (vault : VaultForSecureChannels V) (nonce : UInt64) :
    EStateM Error (Decryptor V) AeadSecretKeyHandle := do
  match ← EStateM.ofExcept ((← get).keyTracker.getKey nonce) with
  | some key => return key
  | none => liftVault (rekey vault (← get).keyTracker.currentKey)

/-- What a successful decryption commits: the new window, and the key of the message, deleting
the key two intervals back when the key was renewed. -/
def commit (vault : VaultForSecureChannels V) (nonceTracker : NonceTracker)
    (key : AeadSecretKeyHandle) : EStateM Error (Decryptor V) Unit := do
  modify fun d => { d with nonceTracker := nonceTracker }
  if let some keyToDelete ← liftKeyTracker (KeyTracker.updateKey key) then
    let _ ← liftVault (vault.deleteAeadSecretKey keyToDelete)

def decrypt (vault : VaultForSecureChannels V) (payload : Bytes) :
    EStateM Error (Decryptor V) Bytes := do
  if payload.length < 8 then throw (.identity .invalidNonce)
  let (nonce, nonceBuffer) ←
    EStateM.ofExcept (convertNonceFromSmall (← EStateM.ofExcept (sliceTo payload 8)))
  let nonceTracker ← EStateM.ofExcept ((← get).nonceTracker.mark nonce)
  let key ← keyFor vault nonce
  let cipherText ← EStateM.ofExcept (sliceFrom payload 8)
  let result ← liftVault (vault.aeadDecrypt key cipherText nonceBuffer []).attempt
  if result matches .ok _ then commit vault nonceTracker key
  EStateM.ofExcept result

def shutdown (vault : VaultForSecureChannels V) : EStateM Error (Decryptor V) Unit := do
  let self ← get
  let _ ← liftVault (vault.deleteAeadSecretKey self.keyTracker.currentKey)
  if let some previousKey := self.keyTracker.previousKey then
    let _ ← liftVault (vault.deleteAeadSecretKey previousKey)

/-! The decryptor on a software vault, after accepting the nonces `A`. -/

variable {P : Primitives} {k0 : Bytes} {A : Finset ℕ}

/-- The window tracks `A`, and the decryptor holds the key of interval `r = highest A / 32` as its
current key and, from the second interval on, the key of interval `r - 1` as its previous key. -/
structure Keyed (P : Primitives) (k0 : Bytes) (A : Finset ℕ) (d : Decryptor SV) : Prop where
  tracks : d.nonceTracker.Tracks A
  interval : d.keyTracker.renewalInterval = 32
  notMax : d.keyTracker.maxRekeysReached = false
  rekeys : d.keyTracker.numberOfRekeys.toNat = highest A / 32
  current : d.vault.ephemeralAeadSecrets d.keyTracker.currentKey =
    some (keySecret P k0 (highest A / 32))
  currentFresh : d.keyTracker.currentKey.handle < d.vault.nextHandle
  previous : d.keyTracker.previousKey = none ↔ highest A / 32 = 0
  previousKey : ∀ k, d.keyTracker.previousKey = some k →
    d.vault.ephemeralAeadSecrets k = some (keySecret P k0 (highest A / 32 - 1)) ∧
      k ≠ d.keyTracker.currentKey ∧ k.handle < d.vault.nextHandle

lemma new_keyed {g : AeadSecretKeyHandle} {w : SV} (hw : w.ephemeralAeadSecrets g = some k0)
    (hg : g.handle < w.nextHandle) : (new g w).Keyed P k0 ∅ where
  tracks := NonceTracker.new_tracks
  interval := rfl
  notMax := rfl
  rekeys := rfl
  current := hw
  currentFresh := hg
  previous := by simp [new, KeyTracker.new, highest]
  previousKey := by simp [new, KeyTracker.new]

namespace Keyed

variable {d : Decryptor SV} (hd : d.Keyed P k0 A)
include hd

lemma highest_lt : highest A < 2 ^ 64 := by
  rw [← hd.tracks.current]
  exact d.nonceTracker.currentNonce.toNat_lt

lemma rekeys_lt : d.keyTracker.numberOfRekeys.toNat * 32 < 2 ^ 64 := by
  have := hd.highest_lt
  rw [hd.rekeys]
  omega

lemma keeps {v : SV} (hv : SoftwareVaultForSecureChannels.Keeps d.vault v) :
    ({ d with vault := v } : Decryptor SV).Keyed P k0 A where
  tracks := hd.tracks
  interval := hd.interval
  notMax := hd.notMax
  rekeys := hd.rekeys
  current := by rw [← hd.current]; exact hv.secrets _ hd.currentFresh
  currentFresh := Nat.lt_of_lt_of_le hd.currentFresh hv.counter
  previous := hd.previous
  previousKey := fun k hk => by
    obtain ⟨hs, hne, hlt⟩ := hd.previousKey k hk
    exact ⟨by rw [← hs]; exact hv.secrets _ hlt, hne, Nat.lt_of_lt_of_le hlt hv.counter⟩

lemma window {t : NonceTracker} {A' : Finset ℕ} (ht : t.Tracks A')
    (hr : highest A' / 32 = highest A / 32) :
    ({ d with nonceTracker := t } : Decryptor SV).Keyed P k0 A' where
  tracks := ht
  interval := hd.interval
  notMax := hd.notMax
  rekeys := hr ▸ hd.rekeys
  current := hr ▸ hd.current
  currentFresh := hd.currentFresh
  previous := hr ▸ hd.previous
  previousKey := hr ▸ hd.previousKey

end Keyed

/-! One message: the header, the key of the nonce, and what a successful decryption commits. -/

lemma convertNonceFromSmall_take {b : Bytes} (hb : 8 ≤ b.length) :
    convertNonceFromSmall (b.take 8) =
      .ok (UInt64.ofNat (BigEndian.decode (b.take 8)), List.replicate 4 0 ++ b.take 8) := by
  have hlen : (b.take 8).length = 8 := by simp [hb]
  have hlt : BigEndian.decode (b.take 8) < 2 ^ 64 := by
    have := BigEndian.decode_lt (b.take 8)
    rwa [hlen] at this
  have hnat : (UInt64.ofNat (BigEndian.decode (b.take 8))).toNat = BigEndian.decode (b.take 8) := by
    rw [UInt64.toNat_ofNat', Nat.mod_eq_of_lt hlt]
  have hcode := BigEndian.encode_decode (b.take 8)
  rw [hlen] at hcode
  simp only [convertNonceFromSmall, hlen, if_true, convertNonceFromU64, hnat, hcode]

lemma toNat_headerNonce (b : Bytes) :
    (UInt64.ofNat (BigEndian.decode (b.take 8))).toNat = BigEndian.decode (b.take 8) := by
  have := BigEndian.decode_lt (b.take 8)
  have hle : 256 ^ (b.take 8).length ≤ 2 ^ 64 :=
    calc 256 ^ (b.take 8).length ≤ 256 ^ 8 := Nat.pow_le_pow_right (by omega) (by simp)
      _ = 2 ^ 64 := rfl
  rw [UInt64.toNat_ofNat', Nat.mod_eq_of_lt (Nat.lt_of_lt_of_le this hle)]

section Generic

variable {V : Type} (vault : VaultForSecureChannels V) {d : Decryptor V}

lemma decrypt_of_short {b : Bytes} (hb : b.length < 8) :
    decrypt vault b d = .error (.identity .invalidNonce) d := by
  simp [decrypt, hb]

lemma decrypt_of_not_acceptable (ht : d.nonceTracker.Tracks A) {b : Bytes} (hb : 8 ≤ b.length)
    (ha : ¬ Acceptable A (BigEndian.decode (b.take 8))) :
    decrypt vault b d = .error (.identity .invalidNonce) d := by
  rw [← toNat_headerNonce] at ha
  simp [decrypt, show ¬ b.length < 8 by omega, sliceTo_of_le hb, convertNonceFromSmall_take hb,
    NonceTracker.mark_of_not_acceptable ht ha]

lemma keyFor_of_getKey {n : UInt64} {key : AeadSecretKeyHandle}
    (h : d.keyTracker.getKey n = .ok (some key)) : keyFor vault n d = .ok key d := by
  simp [keyFor, h]

lemma keyFor_of_getKey_none {n : UInt64} (h : d.keyTracker.getKey n = .ok none) :
    keyFor vault n d = liftVault (rekey vault d.keyTracker.currentKey) d := by
  simp [keyFor, h]

lemma commit_of_known {t : NonceTracker} {key : AeadSecretKeyHandle}
    (h : key = d.keyTracker.currentKey ∨ some key = d.keyTracker.previousKey) :
    commit vault t key d = .ok () { d with nonceTracker := t } := by
  simp [commit, liftKeyTracker, KeyTracker.updateKey_of_known h]

end Generic

variable {d : Decryptor SV}

lemma commit_of_renewed (hd : d.Keyed P k0 A) {t : NonceTracker} {A' : Finset ℕ}
    (ht : t.Tracks A') (hr : highest A' / 32 = highest A / 32 + 1) {key : AeadSecretKeyHandle}
    (hs : d.vault.ephemeralAeadSecrets key = some (keySecret P k0 (highest A' / 32)))
    (hfresh : key.handle < d.vault.nextHandle) (hc : key ≠ d.keyTracker.currentKey)
    (hp : ∀ k, d.keyTracker.previousKey = some k → k ≠ key) :
    ∃ d', commit (softwareVault P) t key d = .ok () d' ∧ d'.Keyed P k0 A' := by
  have hlt : highest A' < 2 ^ 64 := ht.current ▸ t.currentNonce.toNat_lt
  have hroom : d.keyTracker.numberOfRekeys.toNat * 32 + 64 ≤ 2 ^ 64 := by
    rw [hd.rekeys]
    omega
  have hup := KeyTracker.updateKey_of_new hc (fun h => hp key h.symm rfl) hd.interval hroom
  have hrekeys : (d.keyTracker.numberOfRekeys + 1).toNat = highest A' / 32 := by
    rw [UInt64.toNat_add, hd.rekeys, UInt64.toNat_one, Nat.mod_eq_of_lt (by omega)]
    omega
  -- the decryptor after the commit, over any vault that keeps the new and the current key
  have hkeyed : ∀ v : SV, v.nextHandle = d.vault.nextHandle →
      v.ephemeralAeadSecrets key = d.vault.ephemeralAeadSecrets key →
      v.ephemeralAeadSecrets d.keyTracker.currentKey =
        d.vault.ephemeralAeadSecrets d.keyTracker.currentKey →
      ({ vault := v, nonceTracker := t, keyTracker :=
          { d.keyTracker with
            previousKey := some d.keyTracker.currentKey
            currentKey := key
            numberOfRekeys := d.keyTracker.numberOfRekeys + 1 } } : Decryptor SV).Keyed P k0 A' := by
    intro v hn hk hcur
    exact {
      tracks := ht
      interval := hd.interval
      notMax := hd.notMax
      rekeys := hrekeys
      current := hk.trans hs
      currentFresh := hn ▸ hfresh
      previous := by simp only [reduceCtorEq, false_iff]; omega
      previousKey := by
        rintro k ⟨⟩
        refine ⟨?_, hc.symm, hn ▸ hd.currentFresh⟩
        rw [hcur, hd.current, hr, Nat.add_sub_cancel] }
  cases hprev : d.keyTracker.previousKey with
  | none =>
    refine ⟨_, ?_, hkeyed d.vault rfl rfl rfl⟩
    simp [commit, liftKeyTracker, hup, hprev]
  | some k =>
    have hk := (hd.previousKey k hprev).2.1
    let v : SV :=
      { d.vault with ephemeralAeadSecrets := Function.update d.vault.ephemeralAeadSecrets k none }
    refine ⟨_, ?_, hkeyed v rfl (Function.update_of_ne (hp k hprev).symm _ _)
      (Function.update_of_ne hk.symm _ _)⟩
    simp only [commit, liftKeyTracker, liftVault, EStateM.bind_apply, EStateM.modify_apply,
      EStateM.focus_apply, hup, hprev, softwareVault_deleteAeadSecretKey,
      SoftwareVaultForSecureChannels.deleteAeadSecretKey_apply]
    rfl

lemma keyFor_of_next (hP : AeadLaws P) (hd : d.Keyed P k0 A) {n : UInt64}
    (hnext : n.toNat / 32 = highest A / 32 + 1) :
    ∃ v, keyFor (softwareVault P) n d = .ok ⟨d.vault.nextHandle + 1⟩ { d with vault := v } ∧
      v.nextHandle = d.vault.nextHandle + 2 ∧ SoftwareVaultForSecureChannels.Keeps d.vault v ∧
      v.ephemeralAeadSecrets ⟨d.vault.nextHandle + 1⟩ = some (keySecret P k0 (n.toNat / 32)) := by
  obtain ⟨v, hrk, hnextH, hsec⟩ := rekey_spec hP hd.current
  have hget := KeyTracker.getKey_next hd.interval hd.notMax hd.rekeys_lt
    (n := n) (by rw [hd.rekeys]; exact hnext)
  refine ⟨v, ?_, hnextH,
    SoftwareVaultForSecureChannels.keeps_of_update _ (Nat.le_succ _) hsec (by omega), ?_⟩
  · simp [keyFor_of_getKey_none _ hget, liftVault, hrk]
  · rw [hsec, Function.update_self, hnext]
    rfl

lemma keyFor_spec (hP : AeadLaws P) (hd : d.Keyed P k0 A) {n : UInt64}
    (ha : Acceptable A n.toNat) :
    ∃ key v, keyFor (softwareVault P) n d = .ok key { d with vault := v } ∧
      SoftwareVaultForSecureChannels.Keeps d.vault v ∧
      v.ephemeralAeadSecrets key = some (keySecret P k0 (n.toNat / 32)) ∧
      ∀ t : NonceTracker, t.Tracks (insert n.toNat A) →
        ∃ d', commit (softwareVault P) t key { d with vault := v } = .ok () d' ∧
          d'.Keyed P k0 (insert n.toNat A) := by
  obtain ⟨-, hup, hlow⟩ := ha
  have hins := NonceTracker.highest_insert A n.toNat
  have hM := hd.rekeys
  -- an acceptable nonce lies in the interval before, at or after the highest accepted nonce's
  rcases (show n.toNat / 32 + 1 = highest A / 32 ∨ n.toNat / 32 = highest A / 32 ∨
      n.toNat / 32 = highest A / 32 + 1 by omega) with hprev | hcur | hnext
  · obtain ⟨k, hk⟩ : ∃ k, d.keyTracker.previousKey = some k := by
      cases h : d.keyTracker.previousKey with
      | none => exact absurd (hd.previous.mp h) (by omega)
      | some k => exact ⟨k, rfl⟩
    have hget : d.keyTracker.getKey n = .ok (some k) := by
      rw [KeyTracker.getKey_previous hd.interval hd.notMax hd.rekeys_lt (by rw [hM]; exact hprev),
        hk]
    refine ⟨k, d.vault, keyFor_of_getKey _ hget, .refl _, ?_, fun t ht =>
      ⟨_, commit_of_known _ (Or.inr hk.symm), hd.window ht ?_⟩⟩
    · rw [(hd.previousKey k hk).1, ← hprev, Nat.add_sub_cancel]
    · rw [hins, max_eq_right (by omega)]
  · have hget := KeyTracker.getKey_current hd.interval hd.notMax hd.rekeys_lt
      (n := n) (by rw [hM]; exact hcur)
    refine ⟨_, d.vault, keyFor_of_getKey _ hget, .refl _, ?_, fun t ht =>
      ⟨_, commit_of_known _ (Or.inl rfl), hd.window ht ?_⟩⟩
    · rw [hd.current, hcur]
    · rw [hins]
      rcases le_total n.toNat (highest A) with h | h
      · rw [max_eq_right h]
      · rw [max_eq_left h, hcur]
  · -- the nonce opens the next interval: the current key is renewed
    obtain ⟨v, hkf, hnextH, hkeeps, hkey⟩ := keyFor_of_next hP hd hnext
    have hhigh : highest (insert n.toNat A) = n.toNat := by
      rw [hins, max_eq_left (by omega)]
    refine ⟨_, v, hkf, hkeeps, hkey, fun t ht => ?_⟩
    · have hfresh := hd.currentFresh
      refine commit_of_renewed (hd.keeps hkeeps) ht (by rw [hhigh]; exact hnext)
        (by rw [hhigh]; exact hkey) (by simp [hnextH]) ?_ ?_
      · intro h
        rw [← h] at hfresh
        dsimp only at hfresh
        omega
      · intro k hk h
        have := (hd.previousKey k hk).2.2
        rw [h] at this
        dsimp only at this
        omega

lemma decrypt_apply {b : Bytes} (hb : 8 ≤ b.length) {t : NonceTracker}
    (hmark : d.nonceTracker.mark (UInt64.ofNat (BigEndian.decode (b.take 8))) = .ok t)
    {key : AeadSecretKeyHandle} {d₁ : Decryptor SV}
    (hkey : keyFor (softwareVault P) (UInt64.ofNat (BigEndian.decode (b.take 8))) d = .ok key d₁)
    {secret : Bytes} (hs : d₁.vault.ephemeralAeadSecrets key = some secret) :
    decrypt (softwareVault P) b d =
      match P.aesGcmDecrypt secret (List.replicate 4 0 ++ b.take 8) [] (b.drop 8) with
      | some p => match commit (softwareVault P) t key d₁ with
        | .ok _ d₂ => .ok p d₂
        | .error e d₂ => .error e d₂
      | none => .error (.vault .aeadAesGcmDecrypt) d₁ := by
  simp only [decrypt, show ¬ b.length < 8 by omega, if_false, EStateM.bind_apply,
    sliceTo_of_le hb, EStateM.ofExcept_ok, convertNonceFromSmall_take hb, EStateM.get_apply, hmark,
    hkey, sliceFrom_of_le hb, liftVault, EStateM.focus_apply, EStateM.attempt_apply,
    softwareVault_aeadDecrypt, SoftwareVaultForSecureChannels.aeadDecrypt_apply _ hs (b.drop 8)
      (List.replicate 4 0 ++ b.take 8) [] (by simp [aesNonceLength, hb])]
  cases P.aesGcmDecrypt secret (List.replicate 4 0 ++ b.take 8) [] (b.drop 8) with
  | none => rfl
  | some p =>
    have hd₁ : (⟨d₁.vault, d₁.keyTracker, d₁.nonceTracker⟩ : Decryptor SV) = d₁ := rfl
    simp only [if_true, EStateM.bind_apply, hd₁]
    cases commit (softwareVault P) t key d₁ <;> rfl

theorem decrypt_of_acceptable (hP : AeadLaws P) (hd : d.Keyed P k0 A) {b : Bytes}
    (hb : 8 ≤ b.length) (ha : Acceptable A (BigEndian.decode (b.take 8))) :
    (∀ p, P.aesGcmDecrypt (keySecret P k0 (BigEndian.decode (b.take 8) / 32))
        (List.replicate 4 0 ++ b.take 8) [] (b.drop 8) = some p →
      ∃ d', decrypt (softwareVault P) b d = .ok p d' ∧
        d'.Keyed P k0 (insert (BigEndian.decode (b.take 8)) A)) ∧
    (P.aesGcmDecrypt (keySecret P k0 (BigEndian.decode (b.take 8) / 32))
        (List.replicate 4 0 ++ b.take 8) [] (b.drop 8) = none →
      ∃ d', decrypt (softwareVault P) b d = .error (.vault .aeadAesGcmDecrypt) d' ∧
        d'.keyTracker = d.keyTracker ∧ d'.nonceTracker = d.nonceTracker ∧ d'.Keyed P k0 A) := by
  rw [← toNat_headerNonce] at ha ⊢
  obtain ⟨t, hmark, ht⟩ := NonceTracker.mark_of_acceptable hd.tracks ha
  obtain ⟨key, v, hkey, hkeeps, hsec, hcommit⟩ := keyFor_spec hP hd ha
  have hrun := decrypt_apply hb hmark hkey hsec
  refine ⟨fun p hp => ?_, fun hp =>
    ⟨{ d with vault := v }, by rw [hrun, hp], rfl, rfl, hd.keeps hkeeps⟩⟩
  obtain ⟨d', hc, hd'⟩ := hcommit t ht
  exact ⟨d', by rw [hrun, hp]; simp only [hc], hd'⟩

end Decryptor

end Ockam.SecureChannel
