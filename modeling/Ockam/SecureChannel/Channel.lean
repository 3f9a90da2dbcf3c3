import Ockam.SecureChannel.Decryptor

/-! One direction of a secure channel: an encryptor and a decryptor that start from the same key,
and an attacker who reorders, drops, duplicates and forges the messages between them. The
receiving end is specified by the set of nonces it has accepted: a genuine message is accepted
exactly when its nonce is fresh and within `KEY_RENEWAL_INTERVAL` of the highest one. -/

namespace Ockam.SecureChannel

open Ockam.Vault Ockam.Lib
open NonceTracker (highest Acceptable)

variable {P : Primitives} {k0 : Bytes} {ps : List Bytes}

/-- Bytes that do not decrypt under any key of the channel's schedule. -/
def Forged (P : Primitives) (k0 : Bytes) (b : Bytes) : Prop :=
  ∀ j q, b.drop 8 ≠ P.aesGcmEncrypt (keySecret P k0 j) (List.replicate 4 0 ++ b.take 8) [] q

/-- A message delivered to the decryptor: the ciphertext the encryptor sent for payload `n`, or
attacker bytes. -/
inductive Delivery (P : Primitives) (k0 : Bytes) (ps : List Bytes) where
  | genuine (n : Fin ps.length)
  | forged (b : Bytes) (h : Forged P k0 b)

namespace Delivery

def bytes : Delivery P k0 ps → Bytes
  | genuine n => sealed P k0 n ps[n]
  | forged b _ => b

/-- The accepted nonces after one more delivery, as the channel's specification has it. -/
def accept (A : Finset ℕ) : Delivery P k0 ps → Finset ℕ
  | genuine n => if Acceptable A n then insert n.val A else A
  | forged _ _ => A

end Delivery

def accepted (pre : List (Delivery P k0 ps)) : Finset ℕ :=
  pre.foldl (fun A δ => δ.accept A) ∅

lemma forged_decrypt (hP : AeadLaws P) {b : Bytes} (hf : Forged P k0 b) (j : ℕ) :
    P.aesGcmDecrypt (keySecret P k0 j) (List.replicate 4 0 ++ b.take 8) [] (b.drop 8) = none := by
  cases h : P.aesGcmDecrypt (keySecret P k0 j) (List.replicate 4 0 ++ b.take 8) [] (b.drop 8) with
  | none => rfl
  | some q => exact absurd (hP.encrypt_of_decrypt _ _ _ _ _ h) (hf j q)

namespace Decryptor

variable {A : Finset ℕ} {d : Decryptor SV}

theorem decrypt_delivery (hP : AeadLaws P) (hps : ps.length < 2 ^ 64) (hd : d.Keyed P k0 A)
    (δ : Delivery P k0 ps) :
    match decrypt (softwareVault P) δ.bytes d with
    | .ok p d' => ∃ n : Fin ps.length, δ = .genuine n ∧ Acceptable A n ∧ p = ps[n] ∧
        d'.Keyed P k0 (insert n.val A)
    | .error _ d' => (∀ n : Fin ps.length, δ = .genuine n → ¬ Acceptable A n) ∧
        d'.keyTracker = d.keyTracker ∧ d'.nonceTracker = d.nonceTracker ∧ d'.Keyed P k0 A := by
  cases δ with
  | genuine n =>
    have hlen : 8 ≤ (sealed P k0 n ps[n]).length := by simp [sealed]
    have hdec : BigEndian.decode ((sealed P k0 n ps[n]).take 8) = n := by
      rw [take_sealed, BigEndian.decode_encode _ _ (by have := n.isLt; simp; omega)]
    by_cases ha : Acceptable A n
    · have hbody : P.aesGcmDecrypt (keySecret P k0 (BigEndian.decode ((sealed P k0 n ps[n]).take 8) / 32))
          (List.replicate 4 0 ++ (sealed P k0 n ps[n]).take 8) [] ((sealed P k0 n ps[n]).drop 8) =
          some ps[n] := by
        rw [hdec, drop_sealed, take_sealed, hP.decrypt_encrypt]
      obtain ⟨d', hrun, hd'⟩ :=
        (decrypt_of_acceptable hP hd hlen (by rwa [hdec])).1 ps[n] hbody
      simp only [Delivery.bytes, hrun]
      exact ⟨n, rfl, ha, rfl, hdec ▸ hd'⟩
    · rw [Delivery.bytes, decrypt_of_not_acceptable _ hd.tracks hlen (by rwa [hdec])]
      exact ⟨fun m hm => by cases hm; exact ha, rfl, rfl, hd⟩
  | forged b hf =>
    have hne : ∀ n : Fin ps.length, Delivery.forged b hf ≠ .genuine n := fun _ h => by cases h
    by_cases hb : b.length < 8
    · rw [Delivery.bytes, decrypt_of_short _ hb]
      exact ⟨fun n h => absurd h (hne n), rfl, rfl, hd⟩
    by_cases ha : Acceptable A (BigEndian.decode (b.take 8))
    · obtain ⟨d', hrun, hk, hn, hd'⟩ :=
        (decrypt_of_acceptable hP hd (by omega) ha).2 (forged_decrypt hP hf _)
      rw [Delivery.bytes, hrun]
      exact ⟨fun n h => absurd h (hne n), hk, hn, hd'⟩
    · rw [Delivery.bytes, decrypt_of_not_acceptable _ hd.tracks (by omega) ha]
      exact ⟨fun n h => absurd h (hne n), rfl, rfl, hd⟩

lemma decrypt_step (hP : AeadLaws P) (hps : ps.length < 2 ^ 64) (A : Finset ℕ)
    (δ : Delivery P k0 ps) (d : Decryptor SV) (hd : d.Keyed P k0 A) :
    ∃ r d', (decrypt (softwareVault P) δ.bytes).attempt d = .ok r d' ∧
      d'.Keyed P k0 (δ.accept A) := by
  have h := decrypt_delivery hP hps hd δ
  rcases hrun : decrypt (softwareVault P) δ.bytes d with ⟨p, d'⟩ | ⟨e, d'⟩ <;>
    rw [hrun] at h <;> simp only [EStateM.attempt_apply, hrun]
  · obtain ⟨n, rfl, ha, -, hd'⟩ := h
    exact ⟨_, _, rfl, by simpa [Delivery.accept, ha] using hd'⟩
  · obtain ⟨hna, -, -, hd'⟩ := h
    refine ⟨_, _, rfl, ?_⟩
    cases δ with
    | genuine n => simpa [Delivery.accept, hna n rfl] using hd'
    | forged b hf => exact hd'

end Decryptor

/-- Agreement of the channel under any delivery schedule. The encryptor, from key `k0` and nonce
`0`, sends payload `n` sealed under nonce `n`; and after any schedule `pre` of genuine and forged
deliveries, the decryptor's next call returns the payload `p_n` exactly on a genuine message
whose nonce `n` is fresh and within 32 of the highest accepted nonce, and otherwise fails with
its nonce tracker and key tracker unchanged. -/
theorem channel_agreement (hP : AeadLaws P) (hps : ps.length < 2 ^ 64)
    {h0 : AeadSecretKeyHandle} {v0 : SV} (hv0 : v0.ephemeralAeadSecrets h0 = some k0)
    (hh0 : h0.handle < v0.nextHandle)
    {g0 : AeadSecretKeyHandle} {w0 : SV} (hw0 : w0.ephemeralAeadSecrets g0 = some k0)
    (hg0 : g0.handle < w0.nextHandle) :
    (∃ e, ps.mapM (Encryptor.encrypt (softwareVault P)) (Encryptor.new h0 0 v0) =
      .ok (ps.mapIdx (sealed P k0)) e) ∧
    ∀ (pre : List (Delivery P k0 ps)) (δ : Delivery P k0 ps), ∃ rs d,
      pre.mapM (fun δ => (Decryptor.decrypt (softwareVault P) δ.bytes).attempt)
        (Decryptor.new g0 w0) = .ok rs d ∧
      match Decryptor.decrypt (softwareVault P) δ.bytes d with
      | .ok p _ => ∃ n : Fin ps.length, δ = .genuine n ∧ Acceptable (accepted pre) n ∧ p = ps[n]
      | .error _ d' => (∀ n : Fin ps.length, δ = .genuine n → ¬ Acceptable (accepted pre) n) ∧
          d'.keyTracker = d.keyTracker ∧ d'.nonceTracker = d.nonceTracker := by
  refine ⟨?_, fun pre δ => ?_⟩
  · have he : (Encryptor.new h0 0 v0).Keyed P k0 :=
      ⟨by simpa [Encryptor.new, keySecret] using hv0, hh0⟩
    obtain ⟨e, hrun, -⟩ := Encryptor.encrypt_run hP ps _ he (by simpa [Encryptor.new] using hps)
    exact ⟨e, by simpa [Encryptor.new] using hrun⟩
  · obtain ⟨rs, d, hrun, hd⟩ := EStateM.mapM_simulation
      (R := fun (A : Finset ℕ) (d : Decryptor SV) => d.Keyed P k0 A)
      (fun A δ => δ.accept A) _ (Decryptor.decrypt_step hP hps) pre ∅ _
      (Decryptor.new_keyed hw0 hg0)
    refine ⟨rs, d, hrun, ?_⟩
    have h := Decryptor.decrypt_delivery hP hps hd δ
    rcases hdec : Decryptor.decrypt (softwareVault P) δ.bytes d with ⟨p, d'⟩ | ⟨e, d'⟩ <;>
      rw [hdec] at h
    · obtain ⟨n, hn, ha, hp, -⟩ := h
      exact ⟨n, hn, ha, hp⟩
    · obtain ⟨hna, hk, hnt, -⟩ := h
      exact ⟨hna, hk, hnt⟩

/-- An AEAD that appends a zero tag: it satisfies the laws, and serves to run the channel. -/
def zeroTagAead : Primitives where
  aesGcmEncrypt _ _ _ m := m ++ List.replicate 16 0
  aesGcmDecrypt _ _ _ c :=
    if 16 ≤ c.length ∧ c.drop (c.length - 16) = List.replicate 16 0 then
      some (c.take (c.length - 16))
    else none
  sha256 b := b
  hkdfSha256 _ _ _ := none
  x25519 a _ := a
  x25519PublicKey a := a

lemma zeroTagAead_laws : AeadLaws zeroTagAead where
  decrypt_encrypt k n a m := by simp [zeroTagAead]
  encrypt_of_decrypt k n a c m h := by
    simp only [zeroTagAead] at h ⊢
    split_ifs at h with hc
    cases h
    rw [← hc.2, List.take_append_drop]
  length_encrypt k n a m := by simp [zeroTagAead]

/-- A vault holding the key `k0` under handle `0`. -/
def keyVault (k0 : Bytes) : SV :=
  ⟨fun _ => none, fun h => if h.handle = 0 then some k0 else none, fun _ => none, fun _ => none, 1⟩

theorem channel_agreement_zeroTag :
    (∃ e, [[1, 2, 3]].mapM (Encryptor.encrypt (softwareVault zeroTagAead))
        (Encryptor.new ⟨0⟩ 0 (keyVault (List.replicate 32 7))) =
      .ok ([[1, 2, 3]].mapIdx (sealed zeroTagAead (List.replicate 32 7))) e) ∧
    ∀ (pre : List (Delivery zeroTagAead (List.replicate 32 7) [[1, 2, 3]]))
      (δ : Delivery zeroTagAead (List.replicate 32 7) [[1, 2, 3]]), ∃ rs d,
      pre.mapM (fun δ => (Decryptor.decrypt (softwareVault zeroTagAead) δ.bytes).attempt)
        (Decryptor.new ⟨0⟩ (keyVault (List.replicate 32 7))) = .ok rs d ∧
      match Decryptor.decrypt (softwareVault zeroTagAead) δ.bytes d with
      | .ok p _ => ∃ n : Fin [[1, 2, 3]].length, δ = .genuine n ∧
          Acceptable (accepted pre) n ∧ p = [[1, 2, 3]][n]
      | .error _ d' => (∀ n : Fin [[1, 2, 3]].length, δ = .genuine n →
          ¬ Acceptable (accepted pre) n) ∧
          d'.keyTracker = d.keyTracker ∧ d'.nonceTracker = d.nonceTracker :=
  channel_agreement zeroTagAead_laws (by decide) rfl (by decide) rfl (by decide)

end Ockam.SecureChannel
