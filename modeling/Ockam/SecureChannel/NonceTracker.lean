import Ockam.Core.Error
import Mathlib

/-! `NonceTracker`, the replay window of the decryptor: bit `i` of `nonce_bitmap` records
whether nonce `current_nonce - i` has been accepted. -/

namespace Ockam.SecureChannel

def keyRenewalInterval : UInt64 := 32

structure NonceTracker where
  nonceBitmap : UInt64
  currentNonce : UInt64
  deriving DecidableEq, Repr

namespace NonceTracker

variable {A : Finset ℕ}

def new : NonceTracker := ⟨0, 0⟩

def mark (self : NonceTracker) (nonce : UInt64) : Except Error NonceTracker :=
  if nonce > self.currentNonce then
    let relativeShift := nonce - self.currentNonce
    if relativeShift > keyRenewalInterval then .error (.identity .invalidNonce)
    else .ok ⟨self.nonceBitmap <<< relativeShift ||| 1, nonce⟩
  else
    let relative := self.currentNonce - nonce
    if relative > keyRenewalInterval then .error (.identity .invalidNonce)
    else
      let bit := (1 : UInt64) <<< relative
      if self.nonceBitmap &&& bit ≠ 0 then .error (.identity .invalidNonce)
      else .ok ⟨self.nonceBitmap ||| bit, self.currentNonce⟩

/-! The window the tracker implements, over the set `A` of accepted nonces. -/

def highest (A : Finset ℕ) : ℕ := A.sup id

def Acceptable (A : Finset ℕ) (n : ℕ) : Prop :=
  n ∉ A ∧ n ≤ highest A + 32 ∧ highest A ≤ n + 32

instance (A : Finset ℕ) : DecidablePred (Acceptable A) :=
  fun n => inferInstanceAs (Decidable (n ∉ A ∧ _ ∧ _))

structure Tracks (t : NonceTracker) (A : Finset ℕ) : Prop where
  current : t.currentNonce.toNat = highest A
  bitmap : ∀ i < 64, t.nonceBitmap.toNat.testBit i = true ↔
    i ≤ t.currentNonce.toNat ∧ t.currentNonce.toNat - i ∈ A

lemma le_highest {A : Finset ℕ} {a : ℕ} (h : a ∈ A) : a ≤ highest A :=
  Finset.le_sup (f := id) h

lemma highest_insert (A : Finset ℕ) (n : ℕ) : highest (insert n A) = max n (highest A) :=
  Finset.sup_insert

lemma new_tracks : new.Tracks ∅ where
  current := rfl
  bitmap i _ := by simp [new]

lemma toNat_shiftLeft_of_lt (a s : UInt64) (hs : s.toNat < 64) :
    (a <<< s).toNat = (a.toNat <<< s.toNat) % 2 ^ 64 := by
  rw [UInt64.toNat_shiftLeft, Nat.mod_eq_of_lt hs]

lemma testBit_advance (b c s i : ℕ) (hi : i < 64) (hbits : ∀ j < 64, b.testBit j = true ↔
      j ≤ c ∧ c - j ∈ A) (hc : c = highest A) :
    ((b <<< s) % 2 ^ 64 ||| 1).testBit i = true ↔ i ≤ c + s ∧ c + s - i ∈ insert (c + s) A := by
  rw [Nat.testBit_or, Nat.testBit_mod_two_pow, Nat.testBit_shiftLeft]
  rcases Nat.eq_zero_or_pos i with rfl | hpos
  · simp
  have h1 : Nat.testBit 1 i = false := by
    rw [Nat.testBit_lt_two_pow]
    exact Nat.one_lt_two_pow (by omega)
  by_cases hs : s ≤ i
  · have hb := hbits (i - s) (by omega)
    simp only [h1, hi, hs, decide_true, Bool.true_and, Bool.or_false, hb, Finset.mem_insert]
    constructor
    · rintro ⟨hle, hmem⟩
      exact ⟨by omega, .inr (by rwa [show c + s - i = c - (i - s) by omega])⟩
    · rintro ⟨hle, heq | hmem⟩
      · omega
      · exact ⟨by omega, by rwa [show c - (i - s) = c + s - i by omega]⟩
  · simp only [h1, hi, decide_true, Bool.true_and, Bool.or_false, Finset.mem_insert,
      show ¬ i ≥ s by omega, decide_false, Bool.false_and, Bool.false_eq_true, false_iff]
    rintro ⟨hle, heq | hmem⟩
    · omega
    · have := le_highest hmem
      omega

lemma testBit_record (b c r i : ℕ) (hr : r ≤ c) (hi : i < 64) (hbits : ∀ j < 64,
      b.testBit j = true ↔ j ≤ c ∧ c - j ∈ A) :
    (b ||| 2 ^ r).testBit i = true ↔ i ≤ c ∧ c - i ∈ insert (c - r) A := by
  rw [Nat.testBit_or, Nat.testBit_two_pow, Bool.or_eq_true, hbits i hi, Finset.mem_insert,
    decide_eq_true_iff]
  constructor
  · rintro (⟨hle, hmem⟩ | rfl)
    · exact ⟨hle, .inr hmem⟩
    · exact ⟨hr, .inl rfl⟩
  · rintro ⟨hle, heq | hmem⟩
    · exact .inr (by omega)
    · exact .inl ⟨hle, hmem⟩

lemma and_two_pow_ne_zero (b r : ℕ) : b &&& 2 ^ r ≠ 0 ↔ b.testBit r = true := by
  rw [Nat.and_two_pow]
  cases b.testBit r <;> simp

lemma mark_forward {t : NonceTracker} {n : UInt64}
    (hlt : t.currentNonce < n) :
    t.mark n = if n.toNat ≤ t.currentNonce.toNat + 32 then
      .ok ⟨t.nonceBitmap <<< (n - t.currentNonce) ||| 1, n⟩ else .error (.identity .invalidNonce) := by
  have hsub : (n - t.currentNonce).toNat = n.toNat - t.currentNonce.toNat :=
    UInt64.toNat_sub_of_le _ _ (UInt64.le_of_lt hlt)
  have hlt' := UInt64.lt_iff_toNat_lt.mp hlt
  have hwin : keyRenewalInterval < n - t.currentNonce ↔ ¬ n.toNat ≤ t.currentNonce.toNat + 32 := by
    rw [UInt64.lt_iff_toNat_lt, hsub, show keyRenewalInterval.toNat = 32 from rfl]
    omega
  simp only [mark, gt_iff_lt, hlt, if_true]
  by_cases hw : n.toNat ≤ t.currentNonce.toNat + 32
  · simp [hw, hwin]
  · simp [hw, hwin]

lemma mark_backward {t : NonceTracker} {n : UInt64} (hle : n ≤ t.currentNonce) :
    t.mark n = if t.currentNonce.toNat ≤ n.toNat + 32 then
      (if t.nonceBitmap.toNat.testBit (t.currentNonce.toNat - n.toNat) then
        .error (.identity .invalidNonce)
      else .ok ⟨t.nonceBitmap ||| (1 : UInt64) <<< (t.currentNonce - n), t.currentNonce⟩)
    else .error (.identity .invalidNonce) := by
  have hsub : (t.currentNonce - n).toNat = t.currentNonce.toNat - n.toNat :=
    UInt64.toNat_sub_of_le _ _ hle
  have hnlt : ¬ t.currentNonce < n := fun h => absurd hle (UInt64.not_le.mpr h)
  have hwin : keyRenewalInterval < t.currentNonce - n ↔ ¬ t.currentNonce.toNat ≤ n.toNat + 32 := by
    rw [UInt64.lt_iff_toNat_lt, hsub, show keyRenewalInterval.toNat = 32 from rfl]
    omega
  simp only [mark, gt_iff_lt, hnlt, if_false]
  by_cases hw : t.currentNonce.toNat ≤ n.toNat + 32
  · have hbit : ((1 : UInt64) <<< (t.currentNonce - n)).toNat = 2 ^ (t.currentNonce.toNat - n.toNat) := by
      rw [toNat_shiftLeft_of_lt _ _ (by rw [hsub]; omega), hsub, UInt64.toNat_one, Nat.one_shiftLeft,
        Nat.mod_eq_of_lt (Nat.pow_lt_pow_right (by omega) (by omega))]
    have hand : t.nonceBitmap &&& (1 : UInt64) <<< (t.currentNonce - n) ≠ 0 ↔
        t.nonceBitmap.toNat.testBit (t.currentNonce.toNat - n.toNat) = true := by
      rw [← and_two_pow_ne_zero, ← hbit, ← UInt64.toNat_and, ← UInt64.toNat_zero, Ne, Ne,
        UInt64.toNat_inj]
    simp only [hw, hwin, not_true_eq_false, if_false, if_true]
    by_cases hb : t.nonceBitmap.toNat.testBit (t.currentNonce.toNat - n.toNat) = true
    · simp [hb, hand.mpr hb]
    · simp [hb, mt hand.mp hb]
  · simp [hw, hwin]

lemma mark_of_not_acceptable {t : NonceTracker} (h : t.Tracks A) {n : UInt64}
    (ha : ¬ Acceptable A n.toNat) : t.mark n = .error (.identity .invalidNonce) := by
  simp only [Acceptable, ← h.current] at ha
  by_cases hlt : t.currentNonce < n
  · have hlt' := UInt64.lt_iff_toNat_lt.mp hlt
    have hnA : n.toNat ∉ A := fun hm => absurd (le_highest hm) (by rw [← h.current]; omega)
    rw [mark_forward hlt, if_neg fun hw => ha ⟨hnA, hw, by omega⟩]
  · have hle : n ≤ t.currentNonce := UInt64.not_lt.mp hlt
    have hle' := UInt64.le_iff_toNat_le.mp hle
    rw [mark_backward hle]
    by_cases hw : t.currentNonce.toNat ≤ n.toNat + 32
    · have hmem : n.toNat ∈ A := by
        by_contra hnA
        exact ha ⟨hnA, by omega, hw⟩
      have hb := (h.bitmap (t.currentNonce.toNat - n.toNat) (by omega)).mpr
        ⟨by omega, by rwa [show t.currentNonce.toNat - (t.currentNonce.toNat - n.toNat) = n.toNat by omega]⟩
      simp [hw, hb]
    · simp [hw]

lemma mark_of_acceptable {t : NonceTracker} (h : t.Tracks A) {n : UInt64}
    (ha : Acceptable A n.toNat) : ∃ t', t.mark n = .ok t' ∧ t'.Tracks (insert n.toNat A) := by
  obtain ⟨hnA, hup, hlow⟩ := ha
  rw [← h.current] at hup hlow
  by_cases hlt : t.currentNonce < n
  · have hlt' := UInt64.lt_iff_toNat_lt.mp hlt
    have hsub : (n - t.currentNonce).toNat = n.toNat - t.currentNonce.toNat :=
      UInt64.toNat_sub_of_le _ _ (UInt64.le_of_lt hlt)
    refine ⟨_, by rw [mark_forward hlt, if_pos hup], ?_, ?_⟩
    · rw [highest_insert, ← h.current]
      exact (max_eq_left hlt'.le).symm
    · intro i hi
      rw [UInt64.toNat_or, toNat_shiftLeft_of_lt _ _ (by rw [hsub]; omega), hsub, UInt64.toNat_one]
      have := testBit_advance _ _ (n.toNat - t.currentNonce.toNat) i hi h.bitmap h.current
      rwa [show t.currentNonce.toNat + (n.toNat - t.currentNonce.toNat) = n.toNat by omega] at this
  · have hle : n ≤ t.currentNonce := UInt64.not_lt.mp hlt
    have hle' := UInt64.le_iff_toNat_le.mp hle
    have hsub : (t.currentNonce - n).toNat = t.currentNonce.toNat - n.toNat :=
      UInt64.toNat_sub_of_le _ _ hle
    have hb : t.nonceBitmap.toNat.testBit (t.currentNonce.toNat - n.toNat) = false := by
      by_contra hb
      obtain ⟨-, hmem⟩ := (h.bitmap _ (by omega)).mp (Bool.not_eq_false _ ▸ hb)
      exact hnA (by rwa [show t.currentNonce.toNat - (t.currentNonce.toNat - n.toNat) = n.toNat by omega] at hmem)
    refine ⟨_, by rw [mark_backward hle, if_pos hlow, hb]; rfl, ?_, ?_⟩
    · rw [highest_insert, ← h.current]
      exact (max_eq_right hle').symm
    · intro i hi
      rw [UInt64.toNat_or, toNat_shiftLeft_of_lt _ _ (by rw [hsub]; omega), hsub, UInt64.toNat_one,
        Nat.one_shiftLeft, Nat.mod_eq_of_lt (Nat.pow_lt_pow_right (by omega) (by omega))]
      have := testBit_record _ _ (t.currentNonce.toNat - n.toNat) i (by omega) hi h.bitmap
      rwa [show t.currentNonce.toNat - (t.currentNonce.toNat - n.toNat) = n.toNat by omega] at this

lemma mark_tracks {t t' : NonceTracker} (h : t.Tracks A) {n : UInt64} (hm : t.mark n = .ok t') :
    t'.Tracks (insert n.toNat A) := by
  by_cases ha : Acceptable A n.toNat
  · obtain ⟨t'', hm', ht''⟩ := mark_of_acceptable h ha
    rw [hm] at hm'
    cases hm'
    exact ht''
  · rw [mark_of_not_acceptable h ha] at hm
    cases hm

lemma mark_eq_ok_iff {t : NonceTracker} (h : t.Tracks A) (n : UInt64) :
    (∃ t', t.mark n = .ok t') ↔ Acceptable A n.toNat := by
  constructor
  · rintro ⟨t', hm⟩
    by_contra ha
    rw [mark_of_not_acceptable h ha] at hm
    cases hm
  · intro ha
    obtain ⟨t', hm, -⟩ := mark_of_acceptable h ha
    exact ⟨t', hm⟩

/-- Nonces fed to `mark` in turn, beside the set of the nonces accepted so far: the tracker that
`mark` returns on `Ok`, with the nonce, and the old tracker on `Err`. -/
def markAll : NonceTracker × Finset ℕ → List UInt64 → NonceTracker × Finset ℕ
  | s, [] => s
  | (t, A), nonce :: nonces =>
    match t.mark nonce with
    | .ok t' => markAll (t', insert nonce.toNat A) nonces
    | .error _ => markAll (t, A) nonces

lemma markAll_tracks : ∀ (nonces : List UInt64) {t : NonceTracker} {A : Finset ℕ}, t.Tracks A →
    (markAll (t, A) nonces).1.Tracks (markAll (t, A) nonces).2
  | [], _, _, h => h
  | nonce :: nonces, t, A, h => by
    rw [markAll]
    split
    · next t' hm => exact markAll_tracks nonces (mark_tracks h hm)
    · exact markAll_tracks nonces h

theorem markAll_window (nonces : List UInt64) :
    match markAll (new, ∅) nonces with
    | (t, A) =>
      (∀ i ≤ 32, t.nonceBitmap.toNat.testBit i = true ↔
        i ≤ t.currentNonce.toNat ∧ t.currentNonce.toNat - i ∈ A) ∧
      t.currentNonce.toNat = highest A ∧
      ∀ n : UInt64, (∃ t', t.mark n = .ok t') ↔
        n.toNat ∉ A ∧ n.toNat ≤ t.currentNonce.toNat + 32 ∧ t.currentNonce.toNat ≤ n.toNat + 32 := by
  have h := markAll_tracks nonces new_tracks
  generalize markAll (new, ∅) nonces = s at h
  obtain ⟨t, A⟩ := s
  refine ⟨fun i hi => h.bitmap i (by omega), h.current, fun n => ?_⟩
  rw [mark_eq_ok_iff h, Acceptable, h.current]

end NonceTracker

end Ockam.SecureChannel
