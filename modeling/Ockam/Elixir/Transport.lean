import Ockam.Elixir.AeadAesGcm

/-! One direction of the Elixir secure channel's transport (`AeadAesGcm.Encryptor` and `Decryptor`),
with an attacker who drops, reorders, replays and forges frames. The receiving end is specified by
the nonces it has accepted: a genuine frame is taken exactly when its nonce is fresh and within 32
of the nonce expected next. -/

namespace Ockam.Elixir

open Ockam.Lib

/-- What the proofs assume of `:crypto`'s AES-256-GCM: a ciphertext and tag decrypt to what was
encrypted, nothing else decrypts, and the tag has 16 bytes. -/
structure Aead.Laws (A : Aead) : Prop where
  decrypt_encrypt : ∀ k n p ad,
    A.decrypt k n (A.encrypt k n p ad).1 ad (A.encrypt k n p ad).2 = some p
  encrypt_of_decrypt : ∀ k n c ad t p,
    A.decrypt k n c ad t = some p → A.encrypt k n p ad = (c, t)
  length_tag : ∀ k n p ad, (A.encrypt k n p ad).2.length = 16

variable {A : Aead}

/-- The ciphertext and tag as `Crypto.aead_aes_gcm_encrypt` joins them. -/
def sealed (A : Aead) (k : Bytes) (n : ℕ) (ad p : Bytes) : Bytes :=
  (A.encrypt k n p ad).1 ++ (A.encrypt k n p ad).2

/-- The key of the `j`-th rekey window of a channel that starts from `k0`. -/
def keyAt (A : Aead) (k0 : Bytes) : ℕ → Bytes
  | 0 => k0
  | j + 1 =>
    match rekey A (keyAt A k0 j) with
    | .ok k => k
    | .error _ => keyAt A k0 j

/-- The frame the encryptor sends for payload `p` under nonce `n`,
`<<n::unsigned-big-integer-size(64), ciphertext::binary>>`. -/
def sealFrame (A : Aead) (k0 ad : Bytes) (n : ℕ) (p : Bytes) : Bytes :=
  BigEndian.encode 8 n ++ sealed A (keyAt A k0 (n / 32)) n ad p

section Crypto

lemma aeadAesGcmEncrypt_eq (k : Bytes) (n : ℕ) (ad p : Bytes) :
    Crypto.aeadAesGcmEncrypt A k n ad p = .ok (sealed A k n ad p) := rfl

lemma aeadAesGcmDecrypt_of_short {k : Option Bytes} {n : ℕ} {ad c : Bytes} (hc : c.length < 16) :
    Crypto.aeadAesGcmDecrypt A k n ad c = .error .matchError := by
  simp [Crypto.aeadAesGcmDecrypt, hc, throw, throwThe, MonadExceptOf.throw, bind, Except.bind]

lemma rekey_keyAt (k0 : Bytes) (j : ℕ) : rekey A (keyAt A k0 j) = .ok (keyAt A k0 (j + 1)) := by
  -- `rekey` never fails: its one step that could is an encryption
  obtain ⟨k, hk⟩ : ∃ k, rekey A (keyAt A k0 j) = .ok k := by
    unfold rekey
    simp only [aeadAesGcmEncrypt_eq, bind, Except.bind]
    split_ifs <;> exact ⟨_, rfl⟩
  simp [keyAt, hk]

variable (hA : A.Laws)
include hA

lemma length_sealed (k : Bytes) (n : ℕ) (ad p : Bytes) :
    (sealed A k n ad p).length = (A.encrypt k n p ad).1.length + 16 := by
  simp [sealed, hA.length_tag]

lemma aeadAesGcmDecrypt_sealed (k : Bytes) (n : ℕ) (ad p : Bytes) :
    Crypto.aeadAesGcmDecrypt A (some k) n ad (sealed A k n ad p) = .ok (.ok p) := by
  have ht := hA.length_tag k n p ad
  -- the last sixteen bytes are the tag the encryption added
  simp only [Crypto.aeadAesGcmDecrypt, sealed, List.length_append, ht, Nat.add_sub_cancel,
    List.take_left' rfl, List.drop_left' rfl,
    show ¬ (A.encrypt k n p ad).1.length + 16 < 16 by omega, if_false, hA.decrypt_encrypt]
  rfl

lemma aeadAesGcmDecrypt_of_ne {k c : Bytes} {n : ℕ} {ad : Bytes} (hc : 16 ≤ c.length)
    (hne : ∀ q, c ≠ sealed A k n ad q) :
    Crypto.aeadAesGcmDecrypt A (some k) n ad c = .ok (.error .aeadAesGcmDecryptError) := by
  cases hdec : A.decrypt k n (c.take (c.length - 16)) ad (c.drop (c.length - 16)) with
  | none =>
    simp only [Crypto.aeadAesGcmDecrypt, show ¬ c.length < 16 by omega, if_false, hdec]
    rfl
  | some q =>
    -- a decryption means the bytes are the sealing of what came out
    have hseal := hA.encrypt_of_decrypt _ _ _ _ _ _ hdec
    exact absurd (by simp [sealed, hseal]) (hne q)

end Crypto

lemma incrementNonce_of_lt {n : ℕ} (hn : n + 2 < 2 ^ 64) : incrementNonce n = .ok (n + 1) := by
  simp [incrementNonce, maxNonce]
  omega

namespace Encryptor

/-- An encryptor on the key schedule of `k0`: its key is that of its nonce's window. -/
structure Keyed (A : Aead) (k0 : Bytes) (e : Encryptor) : Prop where
  rekeyEach : e.rekeyEach = 32
  key : e.k = keyAt A k0 (e.nonce / 32)

lemma new_keyed (k0 : Bytes) : (new k0 0).Keyed A k0 := ⟨rfl, by simp [new, keyAt]⟩

/-- The sending side of an established channel over a run of messages
(`handle_outer_message_impl`, one call each, with the encryptor threaded): the frames it sends,
or the reason it stops. -/
def encryptAll (A : Aead) (ad : Bytes) :
    List Bytes → Encryptor → Except Reason (List Bytes × Encryptor)
  | [], e => .ok ([], e)
  | p :: ps, e => do
    let (frame, e) ← encrypt A ad p e
    let (frames, e) ← encryptAll A ad ps e
    pure (frame :: frames, e)

variable {k0 : Bytes} {e : Encryptor}

theorem encrypt_keyed (he : e.Keyed A k0) (hn : e.nonce + 2 < 2 ^ 64) (ad p : Bytes) :
    ∃ e', encrypt A ad p e = .ok (sealFrame A k0 ad e.nonce p, e') ∧ e'.nonce = e.nonce + 1 ∧
      e'.Keyed A k0 := by
  have hnext : (e.nonce + 1) / 32 = e.nonce / 32 + if 32 ∣ e.nonce + 1 then 1 else 0 :=
    Nat.succ_div
  have hrot : rotateIfNeeded A (e.nonce + 1) (keyAt A k0 (e.nonce / 32)) 32 =
      .ok (keyAt A k0 ((e.nonce + 1) / 32), (e.nonce + 1) % 32 = 0) := by
    rw [rotateIfNeeded]
    by_cases hd : (e.nonce + 1) % 32 = 0
    · have h32 : 32 ∣ e.nonce + 1 := Nat.dvd_of_mod_eq_zero hd
      simp [hd, hnext, h32, rekey_keyAt, bind, Except.bind, pure, Except.pure]
    · have h32 : ¬ 32 ∣ e.nonce + 1 := fun h => hd (Nat.mod_eq_zero_of_dvd h)
      simp [hd, hnext, h32]
  refine ⟨{ e with nonce := e.nonce + 1, k := keyAt A k0 ((e.nonce + 1) / 32) }, ?_, rfl,
    he.rekeyEach, rfl⟩
  simp only [encrypt, aeadAesGcmEncrypt_eq, incrementNonce_of_lt hn, he.key, he.rekeyEach, hrot,
    sealFrame, bind, Except.bind, pure, Except.pure]

theorem encryptAll_keyed (ad : Bytes) :
    ∀ (ps : List Bytes) (e : Encryptor), e.Keyed A k0 → e.nonce + ps.length + 1 < 2 ^ 64 →
      ∃ e', encryptAll A ad ps e =
          .ok (ps.mapIdx fun i p => sealFrame A k0 ad (e.nonce + i) p, e') ∧
        e'.nonce = e.nonce + ps.length ∧ e'.Keyed A k0
  | [], e, he, _ => ⟨e, rfl, rfl, he⟩
  | p :: ps, e, he, hn => by
    obtain ⟨e₁, h₁, hn₁, he₁⟩ := encrypt_keyed he (by simp at hn; omega) ad p
    obtain ⟨e₂, h₂, hn₂, he₂⟩ :=
      encryptAll_keyed ad ps e₁ he₁ (by simp at hn; omega)
    refine ⟨e₂, ?_, by simp [hn₂, hn₁]; omega, he₂⟩
    have hidx : (fun i p => sealFrame A k0 ad (e₁.nonce + i) p) =
        fun i p => sealFrame A k0 ad (e.nonce + (i + 1)) p := by
      funext i p
      rw [hn₁, Nat.add_right_comm, Nat.add_assoc]
    simp only [encryptAll, h₁, h₂, hidx, List.mapIdx_cons, Nat.add_zero, bind, Except.bind,
      pure, Except.pure]

end Encryptor

/-! ### The receiving end, specified by the accepted nonces -/

section Spec

/-- The nonce the decryptor expects once it has accepted the nonces `acc`: one past the highest,
`0` before any. -/
def expectedOf (acc : Finset ℕ) : ℕ := acc.sup (· + 1)

/-- The rekey window of the last nonce the decryptor expects to have seen, `0` before any. -/
def windowOf (acc : Finset ℕ) : ℕ := (expectedOf acc - 1) / 32

/-- A nonce the receiving end takes: fresh, no more than 32 below the expected nonce and less
than 32 above it. -/
def Acceptable (acc : Finset ℕ) (n : ℕ) : Prop :=
  n ∉ acc ∧ expectedOf acc ≤ n + 32 ∧ n < expectedOf acc + 32

instance (acc : Finset ℕ) : DecidablePred (Acceptable acc) :=
  fun n => inferInstanceAs (Decidable (n ∉ acc ∧ _ ∧ _))

variable {acc : Finset ℕ} {n : ℕ}

@[simp] lemma expectedOf_empty : expectedOf ∅ = 0 := rfl

lemma lt_expectedOf (h : n ∈ acc) : n < expectedOf acc :=
  Finset.le_sup (f := (· + 1)) h

lemma expectedOf_insert (n : ℕ) (acc : Finset ℕ) :
    expectedOf (insert n acc) = max (n + 1) (expectedOf acc) :=
  Finset.sup_insert

lemma expectedOf_le {b : ℕ} (h : ∀ n ∈ acc, n < b) : expectedOf acc ≤ b :=
  Finset.sup_le h

end Spec

namespace Decryptor

/-- A decryptor that has accepted the nonces `acc` of a channel from `k0`: it expects the next
nonce, holds the key of the window of the last one and the key before it, and remembers the
accepted nonces of those two windows. -/
structure Keyed (A : Aead) (k0 : Bytes) (acc : Finset ℕ) (d : Decryptor) : Prop where
  rekeyEach : d.rekeyEach = 32
  expected : d.expectedNonce = expectedOf acc
  key : d.k = keyAt A k0 (windowOf acc)
  prevKey : 1 ≤ windowOf acc → d.prevK = some (keyAt A k0 (windowOf acc - 1))
  seen : ∀ n, n ∈ d.seen ↔ n ∈ acc ∧ n / 32 = windowOf acc
  prevSeen : ∀ n, n ∈ d.prevSeen ↔ n ∈ acc ∧ n / 32 + 1 = windowOf acc

lemma new_keyed (k0 : Bytes) : (new k0 0).Keyed A k0 ∅ where
  rekeyEach := rfl
  expected := rfl
  key := by simp [new, windowOf, keyAt]
  prevKey h := by simp [windowOf] at h
  seen n := by simp [new]
  prevSeen n := by simp [new]

variable {k0 ad : Bytes} {acc : Finset ℕ} {d : Decryptor} {m : ℕ} {c : Bytes}

/-! `decrypt_from` for each window the nonce can fall in. -/

lemma decryptFrom_current_of_seen (h : m ∈ d.seen) :
    decryptFrom A 0 m ad c d = .ok (.error .repeatedNonce) := by
  simp [decryptFrom, h, pure, Except.pure]

lemma decryptFrom_current (h : m ∉ d.seen) (hm : m + 2 < 2 ^ 64) :
    decryptFrom A 0 m ad c d = (Crypto.aeadAesGcmDecrypt A (some d.k) m ad c).map
      (Except.map fun p =>
        (p, { d with seen := insert m d.seen, expectedNonce := max d.expectedNonce (m + 1) })) := by
  simp only [decryptFrom, if_true, h, if_false, incrementNonce_of_lt hm]
  cases Crypto.aeadAesGcmDecrypt A (some d.k) m ad c with
  | error e => rfl
  | ok r => cases r <;> rfl

lemma decryptFrom_previous_of_seen (h : m ∈ d.prevSeen) :
    decryptFrom A (-1) m ad c d = .ok (.error .repeatedNonce) := by
  simp [decryptFrom, h, pure, Except.pure]

lemma decryptFrom_previous (h : m ∉ d.prevSeen) :
    decryptFrom A (-1) m ad c d = (Crypto.aeadAesGcmDecrypt A d.prevK m ad c).map
      (Except.map fun p => (p, { d with prevSeen := insert m d.prevSeen })) := by
  simp only [decryptFrom, show (-1 : ℤ) ≠ 0 by decide, if_false, if_true, h]
  cases Crypto.aeadAesGcmDecrypt A d.prevK m ad c with
  | error e => rfl
  | ok r => cases r <;> rfl

lemma decryptFrom_next {k : Bytes} (hk : rekey A d.k = .ok k) (hm : m + 2 < 2 ^ 64) :
    decryptFrom A 1 m ad c d = (Crypto.aeadAesGcmDecrypt A (some k) m ad c).map
      (Except.map fun p => (p,
        { d with
            prevK := some d.k, k := k, prevSeen := d.seen, seen := {m},
            expectedNonce := m + 1 })) := by
  simp only [decryptFrom, show (1 : ℤ) ≠ 0 by decide, show (1 : ℤ) ≠ -1 by decide, if_false,
    if_true, incrementNonce_of_lt hm, hk]
  cases Crypto.aeadAesGcmDecrypt A (some k) m ad c with
  | error e => rfl
  | ok r => cases r <;> rfl

lemma decrypt_keyed (hd : d.Keyed A k0 acc) {frame : Bytes} (h8 : 8 ≤ frame.length) :
    decrypt A ad frame d =
      if expectedOf acc ≤ BigEndian.decode (frame.take 8) + 32 ∧
          BigEndian.decode (frame.take 8) < expectedOf acc + 32 then
        decryptFrom A ((BigEndian.decode (frame.take 8) / 32 : ℕ) - (windowOf acc : ℤ))
          (BigEndian.decode (frame.take 8)) ad (frame.drop 8) d
      else .ok (.error .outOfWindow) := by
  have hmax : max 0 ((expectedOf acc : ℤ) - 1) = ((expectedOf acc - 1 : ℕ) : ℤ) := by omega
  simp only [decrypt, show ¬ frame.length < 8 by omega, if_false, hd.rekeyEach, hd.expected,
    Nat.cast_ofNat, hmax]
  generalize BigEndian.decode (frame.take 8) = m
  -- both divisions are of naturals, so the offset is that of the windows
  have hoff : Int.tdiv (m : ℤ) 32 - Int.tdiv ((expectedOf acc - 1 : ℕ) : ℤ) 32 =
      ((m / 32 : ℕ) : ℤ) - (windowOf acc : ℤ) := rfl
  rw [hoff]
  by_cases hr : expectedOf acc ≤ m + 32 ∧ m < expectedOf acc + 32
  · rw [if_pos hr, if_pos (by omega)]
  · rw [if_neg hr, if_neg (by omega)]
    rfl

lemma window_cases (hr : expectedOf acc ≤ m + 32 ∧ m < expectedOf acc + 32) :
    m / 32 = windowOf acc ∨ m / 32 + 1 = windowOf acc ∨ m / 32 = windowOf acc + 1 := by
  unfold windowOf
  omega

lemma decrypt_of_acceptable (hd : d.Keyed A k0 acc) {b : Bytes} (h8 : 8 ≤ b.length)
    (ha : Acceptable acc (BigEndian.decode (b.take 8))) (hroom : expectedOf acc + 34 ≤ 2 ^ 64) :
    ∃ g : Bytes → Bytes × Decryptor, decrypt A ad b d =
      (Crypto.aeadAesGcmDecrypt A (some (keyAt A k0 (BigEndian.decode (b.take 8) / 32)))
        (BigEndian.decode (b.take 8)) ad (b.drop 8)).map (Except.map g) := by
  rw [decrypt_keyed hd h8]
  generalize BigEndian.decode (b.take 8) = m at ha ⊢
  obtain ⟨hfresh, hlo, hhi⟩ := ha
  have hm2 : m + 2 < 2 ^ 64 := by omega
  rw [if_pos ⟨hlo, hhi⟩]
  rcases window_cases ⟨hlo, hhi⟩ with hw | hw | hw
  · -- the current key
    have hseen : m ∉ d.seen := fun h => hfresh ((hd.seen m).mp h).1
    rw [show ((m / 32 : ℕ) : ℤ) - windowOf acc = 0 by omega, decryptFrom_current hseen hm2,
      hd.key, hw]
    exact ⟨_, rfl⟩
  · -- the previous key
    have hseen : m ∉ d.prevSeen := fun h => hfresh ((hd.prevSeen m).mp h).1
    rw [show ((m / 32 : ℕ) : ℤ) - windowOf acc = -1 by omega, decryptFrom_previous hseen,
      hd.prevKey (by omega), show windowOf acc - 1 = m / 32 by omega]
    exact ⟨_, rfl⟩
  · -- the next key, which the decryptor moves to
    rw [show ((m / 32 : ℕ) : ℤ) - windowOf acc = 1 by omega,
      decryptFrom_next (by rw [hd.key]; exact rekey_keyAt k0 _) hm2, ← hw]
    exact ⟨_, rfl⟩

lemma decrypt_of_not_acceptable (hd : d.Keyed A k0 acc) {b : Bytes} (h8 : 8 ≤ b.length)
    (hna : ¬ Acceptable acc (BigEndian.decode (b.take 8))) :
    ∃ r, decrypt A ad b d = .ok (.error r) := by
  rw [decrypt_keyed hd h8]
  generalize BigEndian.decode (b.take 8) = n at hna ⊢
  by_cases hr : expectedOf acc ≤ n + 32 ∧ n < expectedOf acc + 32
  · -- in the window, the nonce has been accepted before
    have hmem : n ∈ acc := by
      by_contra h
      exact hna ⟨h, hr⟩
    have hlt := lt_expectedOf hmem
    rw [if_pos hr]
    rcases window_cases hr with hw | hw | hw
    · rw [show ((n / 32 : ℕ) : ℤ) - windowOf acc = 0 by omega,
        decryptFrom_current_of_seen ((hd.seen n).mpr ⟨hmem, hw⟩)]
      exact ⟨_, rfl⟩
    · rw [show ((n / 32 : ℕ) : ℤ) - windowOf acc = -1 by omega,
        decryptFrom_previous_of_seen ((hd.prevSeen n).mpr ⟨hmem, hw⟩)]
      exact ⟨_, rfl⟩
    · unfold windowOf at hw
      omega
  · rw [if_neg hr]
    exact ⟨_, rfl⟩

namespace Keyed

variable (hd : d.Keyed A k0 acc)
include hd

lemma insert_current {n : ℕ} (hw : n / 32 = windowOf acc) (hn : n ∉ acc) :
    ({ d with seen := insert n d.seen, expectedNonce := max d.expectedNonce (n + 1) }).Keyed A k0
      (insert n acc) := by
  have hwin : windowOf (insert n acc) = windowOf acc := by
    unfold windowOf at hw ⊢
    rw [expectedOf_insert]
    omega
  refine ⟨hd.rekeyEach, ?_, by rw [hwin]; exact hd.key, by rw [hwin]; exact hd.prevKey,
    fun m => ?_, fun m => ?_⟩
  · simp only [hd.expected, expectedOf_insert]
    omega
  · simp only [Finset.mem_insert, hd.seen, hwin]
    constructor
    · rintro (rfl | h) <;> simp_all
    · rintro ⟨rfl | h, hm⟩ <;> simp_all
  · simp only [Finset.mem_insert, hd.prevSeen, hwin]
    constructor
    · rintro ⟨h, hm⟩
      exact ⟨.inr h, hm⟩
    · rintro ⟨rfl | h, hm⟩
      · omega
      · exact ⟨h, hm⟩

lemma insert_previous {n : ℕ} (hw : n / 32 + 1 = windowOf acc) :
    ({ d with prevSeen := insert n d.prevSeen }).Keyed A k0 (insert n acc) := by
  have hexp : expectedOf (insert n acc) = expectedOf acc := by
    unfold windowOf at hw
    rw [expectedOf_insert]
    omega
  have hwin : windowOf (insert n acc) = windowOf acc := by rw [windowOf, hexp, windowOf]
  refine ⟨hd.rekeyEach, by rw [hexp]; exact hd.expected, by rw [hwin]; exact hd.key,
    by rw [hwin]; exact hd.prevKey, fun m => ?_, fun m => ?_⟩
  · simp only [hd.seen, Finset.mem_insert, hwin]
    constructor
    · rintro ⟨h, hm⟩
      exact ⟨.inr h, hm⟩
    · rintro ⟨rfl | h, hm⟩
      · omega
      · exact ⟨h, hm⟩
  · simp only [Finset.mem_insert, hd.prevSeen, hwin]
    constructor
    · rintro (rfl | h) <;> simp_all
    · rintro ⟨rfl | h, hm⟩ <;> simp_all

lemma insert_next {n : ℕ} (hw : n / 32 = windowOf acc + 1) :
    ({ d with
        prevK := some d.k, k := keyAt A k0 (windowOf acc + 1), prevSeen := d.seen, seen := {n},
        expectedNonce := n + 1 }).Keyed A k0 (insert n acc) := by
  have hlt : ∀ m ∈ acc, m < n := fun m hm => by
    have := lt_expectedOf hm
    unfold windowOf at hw
    omega
  have hexp : expectedOf (insert n acc) = n + 1 := by
    rw [expectedOf_insert]
    have := expectedOf_le hlt
    omega
  have hwin : windowOf (insert n acc) = windowOf acc + 1 := by
    rw [windowOf, hexp, Nat.add_sub_cancel, hw]
  refine ⟨hd.rekeyEach, hexp.symm, by rw [hwin], fun _ => ?_, fun m => ?_, fun m => ?_⟩
  · rw [hwin, Nat.add_sub_cancel, hd.key]
  · simp only [Finset.mem_singleton, Finset.mem_insert, hwin]
    constructor
    · rintro rfl
      exact ⟨.inl rfl, hw⟩
    · rintro ⟨rfl | h, hm⟩
      · rfl
      · have := hlt m h
        have := lt_expectedOf h
        unfold windowOf at hm hw
        omega
  · simp only [hd.seen, Finset.mem_insert, hwin]
    constructor
    · rintro ⟨h, hm⟩
      exact ⟨.inr h, by omega⟩
    · rintro ⟨rfl | h, hm⟩
      · omega
      · exact ⟨h, by omega⟩

end Keyed

end Decryptor

section Frames

variable {k0 ad : Bytes}

lemma take_sealFrame (n : ℕ) (p : Bytes) :
    (sealFrame A k0 ad n p).take 8 = BigEndian.encode 8 n := by
  simp [sealFrame, List.take_left' (BigEndian.length_encode 8 n)]

lemma drop_sealFrame (n : ℕ) (p : Bytes) :
    (sealFrame A k0 ad n p).drop 8 = sealed A (keyAt A k0 (n / 32)) n ad p := by
  simp [sealFrame, List.drop_left' (BigEndian.length_encode 8 n)]

lemma decode_sealFrame {n : ℕ} (hn : n < 2 ^ 64) (p : Bytes) :
    BigEndian.decode ((sealFrame A k0 ad n p).take 8) = n := by
  rw [take_sealFrame, BigEndian.decode_encode 8 n (by simpa using hn)]

lemma length_sealFrame (hA : A.Laws) (k0 ad : Bytes) (n : ℕ) (p : Bytes) :
    24 ≤ (sealFrame A k0 ad n p).length := by
  simp only [sealFrame, List.length_append, BigEndian.length_encode, length_sealed hA]
  omega

/-- Attacker bytes: after their first eight bytes, no ciphertext of the channel's key schedule
under the nonce those bytes read as. Bytes of fewer than 24 bytes always are. -/
def Forged (A : Aead) (k0 ad : Bytes) (b : Bytes) : Prop :=
  ∀ j q, b.drop 8 ≠ sealed A (keyAt A k0 j) (BigEndian.decode (b.take 8)) ad q

end Frames

namespace Decryptor

variable {k0 ad : Bytes} {acc : Finset ℕ} {d : Decryptor}

theorem decrypt_sealFrame_of_acceptable (hA : A.Laws) (hd : d.Keyed A k0 acc) {n : ℕ}
    (hn : n + 2 < 2 ^ 64) (ha : Acceptable acc n) (ad p : Bytes) :
    ∃ d', decrypt A ad (sealFrame A k0 ad n p) d = .ok (.ok (p, d')) ∧
      d'.Keyed A k0 (insert n acc) := by
  obtain ⟨hfresh, hlo, hhi⟩ := ha
  rw [decrypt_keyed hd (le_trans (by norm_num) (length_sealFrame hA k0 ad n p)),
    decode_sealFrame (by omega), drop_sealFrame, if_pos ⟨hlo, hhi⟩]
  rcases window_cases ⟨hlo, hhi⟩ with hw | hw | hw
  · -- the current key
    have hseen : n ∉ d.seen := fun h => hfresh ((hd.seen n).mp h).1
    have hdec : Crypto.aeadAesGcmDecrypt A (some d.k) n ad
        (sealed A (keyAt A k0 (n / 32)) n ad p) = .ok (.ok p) := by
      rw [hd.key, ← hw]
      exact aeadAesGcmDecrypt_sealed hA _ _ _ _
    rw [show ((n / 32 : ℕ) : ℤ) - windowOf acc = 0 by omega, decryptFrom_current hseen hn, hdec]
    exact ⟨_, rfl, hd.insert_current hw hfresh⟩
  · -- the previous key
    have hseen : n ∉ d.prevSeen := fun h => hfresh ((hd.prevSeen n).mp h).1
    have hdec : Crypto.aeadAesGcmDecrypt A d.prevK n ad
        (sealed A (keyAt A k0 (n / 32)) n ad p) = .ok (.ok p) := by
      rw [hd.prevKey (by omega), show windowOf acc - 1 = n / 32 by omega]
      exact aeadAesGcmDecrypt_sealed hA _ _ _ _
    rw [show ((n / 32 : ℕ) : ℤ) - windowOf acc = -1 by omega, decryptFrom_previous hseen, hdec]
    exact ⟨_, rfl, hd.insert_previous hw⟩
  · -- the next key, which the decryptor moves to
    rw [show ((n / 32 : ℕ) : ℤ) - windowOf acc = 1 by omega,
      decryptFrom_next (by rw [hd.key]; exact rekey_keyAt k0 _) hn, ← hw,
      aeadAesGcmDecrypt_sealed hA]
    exact ⟨_, rfl, hw ▸ hd.insert_next hw⟩

theorem decrypt_sealFrame_of_not_acceptable (hA : A.Laws) (hd : d.Keyed A k0 acc) {n : ℕ}
    (hn : n + 2 < 2 ^ 64) (hna : ¬ Acceptable acc n) (ad p : Bytes) :
    ∃ r, decrypt A ad (sealFrame A k0 ad n p) d = .ok (.error r) :=
  decrypt_of_not_acceptable hd (le_trans (by norm_num) (length_sealFrame hA k0 ad n p))
    (by rwa [decode_sealFrame (by omega)])

theorem decrypt_forged (hA : A.Laws) (hd : d.Keyed A k0 acc) {b : Bytes} (hf : Forged A k0 ad b)
    (h24 : 24 ≤ b.length) (hroom : expectedOf acc + 34 ≤ 2 ^ 64) :
    ∃ r, decrypt A ad b d = .ok (.error r) := by
  by_cases ha : Acceptable acc (BigEndian.decode (b.take 8))
  · obtain ⟨g, hdec⟩ := decrypt_of_acceptable hd (by omega) ha hroom
    rw [hdec, aeadAesGcmDecrypt_of_ne hA (by simp; omega) (hf _)]
    exact ⟨_, rfl⟩
  · exact decrypt_of_not_acceptable hd (by omega) ha

theorem decrypt_of_short_tag (hd : d.Keyed A k0 acc) {b : Bytes} (h8 : 8 ≤ b.length)
    (h24 : b.length < 24) (ha : Acceptable acc (BigEndian.decode (b.take 8)))
    (hroom : expectedOf acc + 34 ≤ 2 ^ 64) : decrypt A ad b d = .error .matchError := by
  obtain ⟨g, hdec⟩ := decrypt_of_acceptable hd h8 ha hroom
  rw [hdec, aeadAesGcmDecrypt_of_short (by simp; omega)]
  rfl

/-- The inner messages of an established channel as far as its decryptor goes
(`handle_inner_message_impl`): a frame that decrypts hands its plaintext on and moves the
decryptor on, one that fails is dropped and leaves it as it was, and a raise ends the channel. -/
def receiveAll (A : Aead) (ad : Bytes) :
    List Bytes → Decryptor → Except Exception (List (Option Bytes) × Decryptor)
  | [], d => .ok ([], d)
  | frame :: frames, d => do
    match ← decrypt A ad frame d with
    | .ok (p, d') =>
      let (out, d'') ← receiveAll A ad frames d'
      pure (some p :: out, d'')
    | .error _ =>
      let (out, d'') ← receiveAll A ad frames d
      pure (none :: out, d'')

end Decryptor

section Schedule

variable {k0 ad : Bytes} {ps : List Bytes}

/-- A frame delivered to the decryptor: the one the encryptor sent for payload `n`, or attacker
bytes. -/
inductive Delivery (A : Aead) (k0 ad : Bytes) (ps : List Bytes) where
  | genuine (n : Fin ps.length)
  | forged (b : Bytes) (h : Forged A k0 ad b)

namespace Delivery

def bytes : Delivery A k0 ad ps → Bytes
  | genuine n => sealFrame A k0 ad n (ps.get n)
  | forged b _ => b

/-- What the receiving end should hand on for one delivery, and the accepted nonces after it:
the payload of a genuine frame with an acceptable nonce, and nothing for any other frame; or the
raise of a frame too short for a nonce, or too short for a tag where its nonce would be taken. -/
def accept (acc : Finset ℕ) : Delivery A k0 ad ps → Except Exception (Option Bytes × Finset ℕ)
  | genuine n => .ok (if Acceptable acc n then (some (ps.get n), insert n.val acc) else (none, acc))
  | forged b _ =>
    if b.length < 8 then .error .functionClauseError
    else if b.length < 24 ∧ Acceptable acc (BigEndian.decode (b.take 8)) then .error .matchError
    else .ok (none, acc)

end Delivery

/-- What the receiving end should hand on over a schedule of deliveries, up to a raise, which
ends the channel. -/
def handOn : List (Delivery A k0 ad ps) → Finset ℕ → Except Exception (List (Option Bytes))
  | [], _ => .ok []
  | δ :: pre, acc => do
    let (o, acc') ← δ.accept acc
    let out ← handOn pre acc'
    pure (o :: out)

namespace Decryptor

theorem decrypt_delivery (hA : A.Laws) (hps : ps.length + 34 ≤ 2 ^ 64) {acc : Finset ℕ}
    {d : Decryptor} (hd : d.Keyed A k0 acc) (hacc : ∀ n ∈ acc, n < ps.length)
    (δ : Delivery A k0 ad ps) :
    match δ.accept acc with
    | .error e => decrypt A ad δ.bytes d = .error e
    | .ok (o, acc') => (∀ n ∈ acc', n < ps.length) ∧ ∃ d', d'.Keyed A k0 acc' ∧
      match decrypt A ad δ.bytes d with
      | .ok (.ok (p, d'')) => o = some p ∧ d'' = d'
      | .ok (.error _) => o = none ∧ d = d'
      | .error _ => False := by
  have hroom : expectedOf acc + 34 ≤ 2 ^ 64 := by
    have := expectedOf_le hacc
    omega
  cases δ with
  | genuine n =>
    have hn : n.val + 2 < 2 ^ 64 := by omega
    by_cases ha : Acceptable acc n
    · obtain ⟨d', hdec, hd'⟩ := decrypt_sealFrame_of_acceptable hA hd hn ha ad (ps.get n)
      simp only [List.get_eq_getElem] at hdec
      simp only [Delivery.accept, ha, if_true]
      refine ⟨?_, d', hd', by simp [Delivery.bytes, hdec]⟩
      simp only [Finset.mem_insert]
      rintro m (rfl | hm)
      · exact n.isLt
      · exact hacc m hm
    · obtain ⟨r, hdec⟩ := decrypt_sealFrame_of_not_acceptable hA hd hn ha ad (ps.get n)
      simp only [List.get_eq_getElem] at hdec
      simp only [Delivery.accept, ha, if_false]
      exact ⟨hacc, d, hd, by simp [Delivery.bytes, hdec]⟩
  | forged b hf =>
    -- the three outcomes of attacker bytes: too short for a nonce, too short for a tag where
    -- the nonce is taken, or a refusal
    by_cases h8 : b.length < 8
    · simp only [Delivery.accept, if_pos h8, Delivery.bytes]
      exact decrypt_of_short d h8
    by_cases hs : b.length < 24 ∧ Acceptable acc (BigEndian.decode (b.take 8))
    · simp only [Delivery.accept, if_neg h8, if_pos hs, Delivery.bytes]
      exact decrypt_of_short_tag hd (by omega) hs.1 hs.2 hroom
    obtain ⟨r, hdec⟩ : ∃ r, decrypt A ad b d = .ok (.error r) := by
      by_cases h24 : 24 ≤ b.length
      · exact decrypt_forged hA hd hf h24 hroom
      · exact decrypt_of_not_acceptable hd (by omega) fun ha => hs ⟨by omega, ha⟩
    simp only [Delivery.accept, if_neg h8, if_neg hs, Delivery.bytes, hdec]
    exact ⟨hacc, d, hd, by simp⟩

theorem receiveAll_handOn (hA : A.Laws) (hps : ps.length + 34 ≤ 2 ^ 64) :
    ∀ (pre : List (Delivery A k0 ad ps)) (acc : Finset ℕ) (d : Decryptor), d.Keyed A k0 acc →
      (∀ n ∈ acc, n < ps.length) →
      ∃ d', receiveAll A ad (pre.map Delivery.bytes) d = (handOn pre acc).map (·, d')
  | [], _, d, _, _ => ⟨d, rfl⟩
  | δ :: pre, acc, d, hd, hacc => by
    have hstep := decrypt_delivery hA hps hd hacc δ
    cases hδ : δ.accept acc with
    | error e =>
      -- a raise ends the run on both sides
      rw [hδ] at hstep
      exact ⟨d, by simp [receiveAll, handOn, hδ, hstep, bind, Except.bind, Except.map]⟩
    | ok r =>
      obtain ⟨o, acc'⟩ := r
      rw [hδ] at hstep
      obtain ⟨hacc', d₁, hd₁, hdec⟩ := hstep
      obtain ⟨d₂, hrun⟩ := receiveAll_handOn hA hps pre acc' d₁ hd₁ hacc'
      refine ⟨d₂, ?_⟩
      simp only [List.map_cons, receiveAll, handOn, hδ]
      split at hdec
      · rename_i p d'' hdec'
        obtain ⟨rfl, rfl⟩ := hdec
        cases hh : handOn pre acc' <;>
          simp [hdec', hrun, hh, bind, Except.bind, pure, Except.pure, Except.map]
      · rename_i r hdec'
        obtain ⟨rfl, rfl⟩ := hdec
        cases hh : handOn pre acc' <;>
          simp [hdec', hrun, hh, bind, Except.bind, pure, Except.pure, Except.map]
      · exact hdec.elim

end Decryptor

/-- Agreement of one direction of the Elixir channel, under any schedule of the attacker. The
encryptor, from key `k0` and nonce `0`, sends payload `n` sealed under nonce `n`; the decryptor,
from the same key, hands on exactly the payloads of the genuine frames whose nonce is fresh and
within the window when they arrive, and nothing else, and raises exactly on the short frames
`accept` names. -/
theorem transport_agreement (hA : A.Laws) (hps : ps.length + 34 ≤ 2 ^ 64) (k0 ad : Bytes) :
    (∃ e, Encryptor.encryptAll A ad ps (Encryptor.new k0 0) =
        .ok (ps.mapIdx (sealFrame A k0 ad), e)) ∧
    ∀ pre : List (Delivery A k0 ad ps), ∃ d,
      Decryptor.receiveAll A ad (pre.map Delivery.bytes) (Decryptor.new k0 0) =
        (handOn pre ∅).map (·, d) := by
  refine ⟨?_, fun pre =>
    Decryptor.receiveAll_handOn hA hps pre ∅ _ (Decryptor.new_keyed k0) (by simp)⟩
  obtain ⟨e, hrun, -⟩ := Encryptor.encryptAll_keyed ad ps (Encryptor.new k0 0)
    (Encryptor.new_keyed k0) (by simp [Encryptor.new]; omega)
  exact ⟨e, by simpa [Encryptor.new] using hrun⟩

end Schedule

/-- An AEAD that keeps the plaintext and adds sixteen zero bytes as its tag, to run the channel. -/
def zeroTag : Aead :=
  ⟨fun _ _ p _ => (p, List.replicate 16 0),
    fun _ _ c _ t => if t = List.replicate 16 0 then some c else none⟩

lemma zeroTag_laws : zeroTag.Laws where
  decrypt_encrypt _ _ _ _ := by simp [zeroTag]
  encrypt_of_decrypt k n c ad t p h := by
    simp only [zeroTag, Option.ite_none_right_eq_some, Option.some.injEq] at h
    obtain ⟨rfl, rfl⟩ := h
    rfl
  length_tag _ _ _ _ := by simp [zeroTag]

theorem transport_agreement_zeroTag :
    [[1, 2, 3]].length + 34 ≤ 2 ^ 64 ∧
    ((∃ e, Encryptor.encryptAll zeroTag [] [[1, 2, 3]] (Encryptor.new (List.replicate 32 7) 0) =
        .ok ([[1, 2, 3]].mapIdx (sealFrame zeroTag (List.replicate 32 7) []), e)) ∧
      ∀ pre : List (Delivery zeroTag (List.replicate 32 7) [] [[1, 2, 3]]), ∃ d,
        Decryptor.receiveAll zeroTag [] (pre.map Delivery.bytes)
          (Decryptor.new (List.replicate 32 7) 0) = (handOn pre ∅).map (·, d)) :=
  ⟨by decide, transport_agreement zeroTag_laws (by decide) _ _⟩

end Ockam.Elixir
