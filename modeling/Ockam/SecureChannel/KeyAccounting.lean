import Ockam.SecureChannel.Channel

/-! Which keys a decryptor leaves in the vault. `decrypt` renews the key for a nonce of the next
interval before the message authenticates; a message that fails leaves the renewed key in the vault,
held by neither tracker, and the same bytes sent again leave one more key each time. -/

namespace Ockam.SecureChannel.Decryptor

open Ockam.Vault Ockam.Lib
open NonceTracker (highest Acceptable)

variable {P : Primitives} {k0 : Bytes} {A : Finset ℕ} {d : Decryptor SV}

lemma decrypt_of_next_forged (hP : AeadLaws P) (hd : d.Keyed P k0 A) {b : Bytes} (hb : 8 ≤ b.length)
    (ha : Acceptable A (BigEndian.decode (b.take 8)))
    (hnext : BigEndian.decode (b.take 8) / 32 = highest A / 32 + 1)
    (hfail : P.aesGcmDecrypt (keySecret P k0 (highest A / 32 + 1)) (List.replicate 4 0 ++ b.take 8)
      [] (b.drop 8) = none) :
    ∃ v, decrypt (softwareVault P) b d = .error (.vault .aeadAesGcmDecrypt) { d with vault := v } ∧
      v.nextHandle = d.vault.nextHandle + 2 ∧ SoftwareVaultForSecureChannels.Keeps d.vault v ∧
      v.ephemeralAeadSecrets ⟨d.vault.nextHandle + 1⟩ =
        some (keySecret P k0 (highest A / 32 + 1)) := by
  rw [← toNat_headerNonce] at ha hnext
  obtain ⟨t, hmark, -⟩ := NonceTracker.mark_of_acceptable hd.tracks ha
  obtain ⟨v, hkf, hn, hkeeps, hkey⟩ := keyFor_of_next hP hd hnext
  rw [hnext] at hkey
  refine ⟨v, ?_, hn, hkeeps, hkey⟩
  rw [decrypt_apply hb hmark hkf hkey, hfail]

section Forged

variable (hP : AeadLaws P) {b : Bytes} (hb : 8 ≤ b.length)
  (ha : Acceptable A (BigEndian.decode (b.take 8)))
  (hnext : BigEndian.decode (b.take 8) / 32 = highest A / 32 + 1)
  (hfail : P.aesGcmDecrypt (keySecret P k0 (highest A / 32 + 1)) (List.replicate 4 0 ++ b.take 8)
    [] (b.drop 8) = none)
include hP hb ha hnext hfail

lemma mapM_replicate_forged (m : ℕ) (hd : d.Keyed P k0 A) :
    ∃ rs d', (List.replicate m b).mapM (fun b => (decrypt (softwareVault P) b).attempt) d =
        .ok rs d' ∧
      d'.keyTracker = d.keyTracker ∧ d'.nonceTracker = d.nonceTracker ∧
      SoftwareVaultForSecureChannels.Keeps d.vault d'.vault ∧
      ∀ i < m, d'.vault.ephemeralAeadSecrets ⟨d.vault.nextHandle + 2 * i + 1⟩ =
        some (keySecret P k0 (highest A / 32 + 1)) := by
  induction m generalizing d with
  | zero => exact ⟨[], d, rfl, rfl, rfl, .refl _, fun i hi => absurd hi (by omega)⟩
  | succ m ih =>
    obtain ⟨v, hdec, hn, hkeeps, hkey⟩ := decrypt_of_next_forged hP hd hb ha hnext hfail
    obtain ⟨rs, d', hmap, hkt, hnt, hkeeps', hkeys⟩ := ih (hd.keeps hkeeps)
    refine ⟨.error (.vault .aeadAesGcmDecrypt) :: rs, d', ?_, hkt, hnt, hkeeps.trans hkeeps',
      fun i hi => ?_⟩
    · rw [List.replicate_succ, List.mapM_cons]
      simp only [EStateM.bind_apply, EStateM.attempt_apply, hdec, hmap]
      rfl
    · -- the key of the first call, then those of the rest of the run
      rcases i with _ | i
      · rw [← hkey]
        exact hkeeps'.secrets _ (by dsimp only; omega)
      · have := hkeys i (by omega)
        dsimp only at this
        rw [hn] at this
        rw [← this]
        congr 2
        omega

end Forged

/-- The decryptor worker fed the same forged message of the next interval `j` times: every call
fails and leaves the trackers as they were, and the vault then holds `j` renewed keys, under the
handles `next_handle + 2 i + 1`, none of them the current or the previous key. -/
theorem repeated_forgery_leaves_keys (hP : AeadLaws P) (hd : d.Keyed P k0 A) {b : Bytes}
    (hb : 8 ≤ b.length) (ha : Acceptable A (BigEndian.decode (b.take 8)))
    (hnext : BigEndian.decode (b.take 8) / 32 = highest A / 32 + 1)
    (hfail : P.aesGcmDecrypt (keySecret P k0 (highest A / 32 + 1)) (List.replicate 4 0 ++ b.take 8)
      [] (b.drop 8) = none) (j : ℕ) :
    ∃ rs d', (List.replicate j b).mapM (fun b => (decrypt (softwareVault P) b).attempt) d =
        .ok rs d' ∧
      d'.keyTracker = d.keyTracker ∧ d'.nonceTracker = d.nonceTracker ∧
      ∀ i < j, d'.vault.ephemeralAeadSecrets ⟨d.vault.nextHandle + 2 * i + 1⟩ =
          some (keySecret P k0 (highest A / 32 + 1)) ∧
        (⟨d.vault.nextHandle + 2 * i + 1⟩ : AeadSecretKeyHandle) ≠ d'.keyTracker.currentKey ∧
        d'.keyTracker.previousKey ≠ some ⟨d.vault.nextHandle + 2 * i + 1⟩ := by
  obtain ⟨rs, d', hmap, hkt, hnt, -, hkeys⟩ := mapM_replicate_forged hP hb ha hnext hfail j hd
  refine ⟨rs, d', hmap, hkt, hnt, fun i hi => ⟨hkeys i hi, ?_, ?_⟩⟩
  · -- the tracker's keys were drawn before the run
    intro h
    have hfresh := hd.currentFresh
    rw [← hkt, ← h] at hfresh
    dsimp only at hfresh
    omega
  · intro h
    rw [hkt] at h
    have hfresh := (hd.previousKey _ h).2.2
    dsimp only at hfresh
    omega

/-- Three copies of the 8-byte nonce `32` with an empty body, sent to a new decryptor. -/
theorem repeated_forgery_leaves_keys_zeroTag :
    ∃ rs d', (List.replicate 3 (BigEndian.encode 8 32)).mapM
        (fun b => (decrypt (softwareVault zeroTagAead) b).attempt)
        (new ⟨0⟩ (keyVault (List.replicate 32 7))) = .ok rs d' ∧
      d'.keyTracker = (new ⟨0⟩ (keyVault (List.replicate 32 7)) : Decryptor SV).keyTracker ∧
      d'.nonceTracker = (new ⟨0⟩ (keyVault (List.replicate 32 7)) : Decryptor SV).nonceTracker ∧
      ∀ i < 3, d'.vault.ephemeralAeadSecrets ⟨1 + 2 * i + 1⟩ =
          some (keySecret zeroTagAead (List.replicate 32 7) (highest ∅ / 32 + 1)) ∧
        (⟨1 + 2 * i + 1⟩ : AeadSecretKeyHandle) ≠ d'.keyTracker.currentKey ∧
        d'.keyTracker.previousKey ≠ some ⟨1 + 2 * i + 1⟩ :=
  repeated_forgery_leaves_keys zeroTagAead_laws (new_keyed rfl (by decide)) (by decide)
    (by decide) (by decide) (by decide) 3

end Ockam.SecureChannel.Decryptor
