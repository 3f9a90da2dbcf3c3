import Ockam.Vault.Types

/-! `KeyTracker`: the keys of the decryptor. Nonces fall into intervals of `renewal_interval`
nonces; interval `number_of_rekeys` uses `current_key` and the one before `previous_key`. -/

namespace Ockam.SecureChannel

open Ockam.Vault

def u64Max : UInt64 := 18446744073709551615

@[simp] lemma toNat_u64Max : u64Max.toNat = 2 ^ 64 - 1 := rfl

structure KeyTracker where
  currentKey : AeadSecretKeyHandle
  previousKey : Option AeadSecretKeyHandle
  numberOfRekeys : UInt64
  maxRekeysReached : Bool
  renewalInterval : UInt64
  deriving DecidableEq, Repr

namespace KeyTracker

def new (currentKey : AeadSecretKeyHandle) (renewalInterval : UInt64) : KeyTracker :=
  ⟨currentKey, none, 0, false, renewalInterval⟩

def getKey (self : KeyTracker) (nonce : UInt64) : Except Error (Option AeadSecretKeyHandle) :=
  let currentIntervalStart := self.numberOfRekeys * self.renewalInterval
  if self.maxRekeysReached then .error (.identity .invalidNonce)
  else if nonce ≥ currentIntervalStart then
    let nonceAge := nonce - currentIntervalStart
    if nonceAge < self.renewalInterval then .ok (some self.currentKey)
    else if nonceAge < self.renewalInterval * 2 then .ok none
    else .error (.identity .invalidNonce)
  else if currentIntervalStart - nonce ≤ self.renewalInterval then
    match self.previousKey with
    | some previous => .ok (some previous)
    | none => .error (.identity .invalidNonce)
  else .error (.identity .invalidNonce)

def updateKey (decryptionKey : AeadSecretKeyHandle) :
    EStateM Error KeyTracker (Option AeadSecretKeyHandle) := do
  let self ← get
  if decryptionKey ≠ self.currentKey ∧ some decryptionKey ≠ self.previousKey then
    let keyToDelete := self.previousKey
    let self := { self with previousKey := some self.currentKey, currentKey := decryptionKey }
    if u64Max - self.numberOfRekeys * self.renewalInterval < self.renewalInterval then
      set { self with maxRekeysReached := true }
    else
      set { self with numberOfRekeys := self.numberOfRekeys + 1 }
    return keyToDelete
  else
    return none

lemma toNat_mul_two {x : UInt64} (h : 2 * x.toNat < 2 ^ 64) : (x * 2).toNat = 2 * x.toNat := by
  rw [UInt64.toNat_mul, show (2 : UInt64).toNat = 2 from rfl, Nat.mod_eq_of_lt (by omega)]
  ring

lemma getKey_eq_of_bounded {kt : KeyTracker} {I : ℕ} (hI : kt.renewalInterval.toNat = I)
    (h2 : 2 * I < 2 ^ 64) (hmax : kt.maxRekeysReached = false)
    (hr : kt.numberOfRekeys.toNat * I < 2 ^ 64) (n : UInt64) :
    kt.getKey n =
      if kt.numberOfRekeys.toNat * I ≤ n.toNat then
        (if n.toNat < kt.numberOfRekeys.toNat * I + I then .ok (some kt.currentKey)
        else if n.toNat < kt.numberOfRekeys.toNat * I + 2 * I then .ok none
        else .error (.identity .invalidNonce))
      else if kt.numberOfRekeys.toNat * I ≤ n.toNat + I then
        (match kt.previousKey with
        | some previous => .ok (some previous)
        | none => .error (.identity .invalidNonce))
      else .error (.identity .invalidNonce) := by
  have hs : (kt.numberOfRekeys * kt.renewalInterval).toNat = kt.numberOfRekeys.toNat * I := by
    rw [UInt64.toNat_mul, hI, Nat.mod_eq_of_lt hr]
  have htwo : (kt.renewalInterval * 2).toNat = 2 * I := by
    rw [toNat_mul_two (by rw [hI]; exact h2), hI]
  simp only [getKey, hmax, Bool.false_eq_true, if_false, ge_iff_le, UInt64.le_iff_toNat_le, hs]
  by_cases hge : kt.numberOfRekeys.toNat * I ≤ n.toNat
  · -- the nonce is in the current interval or after it: its age is exact
    have hage : (n - kt.numberOfRekeys * kt.renewalInterval).toNat =
        n.toNat - kt.numberOfRekeys.toNat * I := by
      rw [UInt64.toNat_sub_of_le _ _ (UInt64.le_iff_toNat_le.mpr (by rw [hs]; exact hge)), hs]
    simp only [hge, if_true, UInt64.lt_iff_toNat_lt, hage, hI, htwo]
    by_cases h1 : n.toNat < kt.numberOfRekeys.toNat * I + I
    · simp [h1, show n.toNat - kt.numberOfRekeys.toNat * I < I by omega]
    · by_cases h2' : n.toNat < kt.numberOfRekeys.toNat * I + 2 * I
      · simp [h1, h2', show ¬ n.toNat - kt.numberOfRekeys.toNat * I < I by omega,
          show n.toNat - kt.numberOfRekeys.toNat * I < 2 * I by omega]
      · simp [h1, h2', show ¬ n.toNat - kt.numberOfRekeys.toNat * I < I by omega,
          show ¬ n.toNat - kt.numberOfRekeys.toNat * I < 2 * I by omega]
  · -- the nonce is before the current interval: its distance back is exact
    have hsub : (kt.numberOfRekeys * kt.renewalInterval - n).toNat =
        kt.numberOfRekeys.toNat * I - n.toNat := by
      rw [UInt64.toNat_sub_of_le _ _ (UInt64.le_iff_toNat_le.mpr (by rw [hs]; omega)), hs]
    simp only [hge, if_false, hsub, hI]
    by_cases hw : kt.numberOfRekeys.toNat * I ≤ n.toNat + I
    · simp [hw, show kt.numberOfRekeys.toNat * I - n.toNat ≤ I by omega]
    · simp [hw, show ¬ kt.numberOfRekeys.toNat * I - n.toNat ≤ I by omega]

/-! With the interval of 32 nonces of the secure channel, `get_key` selects the key by the
interval `nonce / 32` of the nonce. -/

section Intervals

variable {kt : KeyTracker} (hI : kt.renewalInterval = 32) (hmax : kt.maxRekeysReached = false)
  (hr : kt.numberOfRekeys.toNat * 32 < 2 ^ 64)
include hI hmax hr

lemma getKey_eq (n : UInt64) :
    kt.getKey n =
      if kt.numberOfRekeys.toNat * 32 ≤ n.toNat then
        (if n.toNat < kt.numberOfRekeys.toNat * 32 + 32 then .ok (some kt.currentKey)
        else if n.toNat < kt.numberOfRekeys.toNat * 32 + 64 then .ok none
        else .error (.identity .invalidNonce))
      else if kt.numberOfRekeys.toNat * 32 ≤ n.toNat + 32 then
        (match kt.previousKey with
        | some previous => .ok (some previous)
        | none => .error (.identity .invalidNonce))
      else .error (.identity .invalidNonce) := by
  rw [getKey_eq_of_bounded (I := 32) (by rw [hI]; rfl) (by norm_num) hmax hr n]

lemma getKey_current {n : UInt64} (hn : n.toNat / 32 = kt.numberOfRekeys.toNat) :
    kt.getKey n = .ok (some kt.currentKey) := by
  rw [getKey_eq hI hmax hr, if_pos (by omega), if_pos (by omega)]

lemma getKey_next {n : UInt64} (hn : n.toNat / 32 = kt.numberOfRekeys.toNat + 1) :
    kt.getKey n = .ok none := by
  rw [getKey_eq hI hmax hr, if_pos (by omega), if_neg (by omega), if_pos (by omega)]

lemma getKey_previous {n : UInt64} (hn : n.toNat / 32 + 1 = kt.numberOfRekeys.toNat) :
    kt.getKey n = match kt.previousKey with
      | some previous => .ok (some previous)
      | none => .error (.identity .invalidNonce) := by
  rw [getKey_eq hI hmax hr, if_neg (by omega), if_pos (by omega)]

end Intervals

lemma updateKey_of_known {kt : KeyTracker} {key : AeadSecretKeyHandle}
    (h : key = kt.currentKey ∨ some key = kt.previousKey) : updateKey key kt = .ok none kt := by
  have : ¬ (key ≠ kt.currentKey ∧ some key ≠ kt.previousKey) := by tauto
  simp [updateKey, this]

lemma updateKey_of_new {kt : KeyTracker} {key : AeadSecretKeyHandle} (hc : key ≠ kt.currentKey)
    (hp : some key ≠ kt.previousKey) (hI : kt.renewalInterval = 32)
    (hr : kt.numberOfRekeys.toNat * 32 + 64 ≤ 2 ^ 64) :
    updateKey key kt = .ok kt.previousKey
      { kt with
        previousKey := some kt.currentKey
        currentKey := key
        numberOfRekeys := kt.numberOfRekeys + 1 } := by
  have hs : (kt.numberOfRekeys * kt.renewalInterval).toNat = kt.numberOfRekeys.toNat * 32 := by
    rw [UInt64.toNat_mul, hI, show (32 : UInt64).toNat = 32 from rfl, Nat.mod_eq_of_lt (by omega)]
  have hroom : ¬ u64Max - kt.numberOfRekeys * kt.renewalInterval < kt.renewalInterval := by
    rw [UInt64.lt_iff_toNat_lt, UInt64.toNat_sub_of_le _ _ (UInt64.le_iff_toNat_le.mpr
      (by rw [hs]; show _ ≤ 18446744073709551615; omega)), hs, hI]
    show ¬ 18446744073709551615 - _ < 32
    omega
  simp [updateKey, hc, hp, hroom]

/-! ### Any renewal interval

`update_key` moves to the next interval only while `u64::MAX - r * I ≥ I`, so along every run from
`new k I` the start `r * I` of the current interval stays in range (`Reachable`); with
`I ≤ u64::MAX / 2`, so does `I * 2`, and no operation of `get_key` or `update_key` wraps. Once the
guard fails, `max_rekeys_reached` is set, and `get_key` refuses every nonce from then on. -/

lemma updateKey_state (key : AeadSecretKeyHandle) (kt : KeyTracker) :
    (updateKey key kt).state =
      if key ≠ kt.currentKey ∧ some key ≠ kt.previousKey then
        if u64Max - kt.numberOfRekeys * kt.renewalInterval < kt.renewalInterval then
          { kt with previousKey := some kt.currentKey, currentKey := key, maxRekeysReached := true }
        else
          { kt with previousKey := some kt.currentKey, currentKey := key,
                    numberOfRekeys := kt.numberOfRekeys + 1 }
      else kt := by
  simp only [updateKey, EStateM.bind_apply, EStateM.get_apply]
  split_ifs <;> rfl

/-- Keys given to `update_key` in turn, threading the tracker; `update_key` never fails. -/
def updateAll (kt : KeyTracker) : List AeadSecretKeyHandle → KeyTracker
  | [] => kt
  | key :: keys => updateAll (updateKey key kt).state keys

/-- What every tracker reached from `new k I` satisfies. -/
structure Reachable (I : UInt64) (kt : KeyTracker) : Prop where
  interval : kt.renewalInterval = I
  bounded : kt.numberOfRekeys.toNat * I.toNat ≤ u64Max.toNat
  distinct : kt.previousKey ≠ some kt.currentKey

lemma new_reachable (k : AeadSecretKeyHandle) (I : UInt64) : Reachable I (new k I) where
  interval := rfl
  bounded := by simp [new]
  distinct := by simp [new]

section Reachable

variable {I : UInt64} {kt : KeyTracker}

lemma Reachable.toNat_mul (h : Reachable I kt) :
    (kt.numberOfRekeys * kt.renewalInterval).toNat = kt.numberOfRekeys.toNat * I.toNat := by
  have hb := h.bounded
  rw [toNat_u64Max] at hb
  rw [UInt64.toNat_mul, h.interval, Nat.mod_eq_of_lt (by omega)]

lemma Reachable.toNat_room (h : Reachable I kt) :
    (u64Max - kt.numberOfRekeys * kt.renewalInterval).toNat =
      u64Max.toNat - kt.numberOfRekeys.toNat * I.toNat := by
  rw [UInt64.toNat_sub_of_le _ _ (UInt64.le_iff_toNat_le.mpr (by rw [h.toNat_mul]; exact h.bounded)),
    h.toNat_mul]

lemma Reachable.numberOfRekeys_updateKey (hI : 1 ≤ I.toNat) (h : Reachable I kt)
    (key : AeadSecretKeyHandle) :
    (updateKey key kt).state.numberOfRekeys.toNat = kt.numberOfRekeys.toNat ∧
        (updateKey key kt).state.maxRekeysReached = true ∨
      (updateKey key kt).state.numberOfRekeys.toNat = kt.numberOfRekeys.toNat + 1 ∧
        kt.numberOfRekeys.toNat * I.toNat + I.toNat ≤ u64Max.toNat ∨
      (updateKey key kt).state = kt := by
  rw [updateKey_state]
  split_ifs with hnew hfull
  · exact .inl ⟨rfl, rfl⟩
  · have hroom : kt.numberOfRekeys.toNat * I.toNat + I.toNat ≤ u64Max.toNat := by
      rw [UInt64.lt_iff_toNat_lt, h.toNat_room, h.interval] at hfull
      have := h.bounded
      omega
    have hle : kt.numberOfRekeys.toNat ≤ kt.numberOfRekeys.toNat * I.toNat :=
      Nat.le_mul_of_pos_right _ hI
    have hsucc : (kt.numberOfRekeys + 1).toNat = kt.numberOfRekeys.toNat + 1 := by
      rw [UInt64.toNat_add, UInt64.toNat_one, Nat.mod_eq_of_lt]
      rw [toNat_u64Max] at hroom
      omega
    exact .inr (.inl ⟨hsucc, hroom⟩)
  · exact .inr (.inr rfl)

lemma reachable_updateKey (hI : 1 ≤ I.toNat) (h : Reachable I kt) (key : AeadSecretKeyHandle) :
    Reachable I (updateKey key kt).state := by
  have hdistinct : (updateKey key kt).state.previousKey ≠ some (updateKey key kt).state.currentKey := by
    rw [updateKey_state]
    split_ifs with hnew
    · simpa using hnew.1.symm
    · simpa using hnew.1.symm
    · exact h.distinct
  rcases h.numberOfRekeys_updateKey hI key with ⟨hr, -⟩ | ⟨hr, hroom⟩ | hsame
  · refine ⟨?_, by rw [hr]; exact h.bounded, hdistinct⟩
    rw [updateKey_state]
    split_ifs <;> exact h.interval
  · refine ⟨?_, by rw [hr, Nat.succ_mul]; exact hroom, hdistinct⟩
    rw [updateKey_state]
    split_ifs <;> exact h.interval
  · rw [hsame]
    exact h

lemma reachable_updateAll (hI : 1 ≤ I.toNat) :
    ∀ {kt : KeyTracker} (keys : List AeadSecretKeyHandle), Reachable I kt →
      Reachable I (kt.updateAll keys)
  | _, [], h => h
  | _, key :: keys, h => reachable_updateAll hI keys (reachable_updateKey hI h key)

end Reachable

lemma getKey_of_maxRekeysReached {kt : KeyTracker} (hmax : kt.maxRekeysReached = true)
    (n : UInt64) : kt.getKey n = .error (.identity .invalidNonce) := by
  simp [getKey, hmax]

theorem updateAll_intervals (k : AeadSecretKeyHandle) (I : UInt64) (hI : 1 ≤ I.toNat)
    (hhalf : I.toNat ≤ u64Max.toNat / 2) (keys : List AeadSecretKeyHandle) :
    let kt := updateAll (new k I) keys
    let start := kt.numberOfRekeys.toNat * I.toNat
    start ≤ u64Max.toNat ∧
      (kt.numberOfRekeys * kt.renewalInterval).toNat = start ∧
      (u64Max - kt.numberOfRekeys * kt.renewalInterval).toNat = u64Max.toNat - start ∧
      (kt.renewalInterval * 2).toNat = 2 * I.toNat ∧
      (∀ key, (updateKey key kt).state.numberOfRekeys.toNat = kt.numberOfRekeys.toNat ∨
        (updateKey key kt).state.numberOfRekeys.toNat = kt.numberOfRekeys.toNat + 1) ∧
      kt.previousKey ≠ some kt.currentKey ∧
      (kt.maxRekeysReached = true → ∀ n, kt.getKey n = .error (.identity .invalidNonce)) ∧
      (kt.maxRekeysReached = false → ∀ n : UInt64, kt.getKey n =
        if start ≤ n.toNat ∧ n.toNat < start + I.toNat then .ok (some kt.currentKey)
        else if start + I.toNat ≤ n.toNat ∧ n.toNat < start + 2 * I.toNat then .ok none
        else if start ≤ n.toNat + I.toNat ∧ n.toNat < start then
          (match kt.previousKey with
          | some previous => .ok (some previous)
          | none => .error (.identity .invalidNonce))
        else .error (.identity .invalidNonce)) := by
  intro kt start
  have h : Reachable I kt := reachable_updateAll hI keys (new_reachable k I)
  have hmax := toNat_u64Max
  have htwo : (kt.renewalInterval * 2).toNat = 2 * I.toNat := by
    rw [toNat_mul_two (by rw [h.interval]; omega), h.interval]
  refine ⟨h.bounded, h.toNat_mul, h.toNat_room, htwo, fun key => ?_, h.distinct,
    getKey_of_maxRekeysReached, fun hflag n => ?_⟩
  · rcases h.numberOfRekeys_updateKey hI key with ⟨hr, -⟩ | ⟨hr, -⟩ | hsame
    · exact .inl hr
    · exact .inr hr
    · exact .inl (by rw [hsame])
  · have hb := h.bounded
    rw [getKey_eq_of_bounded (by rw [h.interval]) (by omega) hflag (by omega)]
    -- the nested tests of `get_key`, read as the intervals they cut
    by_cases h1 : start ≤ n.toNat
    · by_cases h2 : n.toNat < start + I.toNat
      · simp [start, h1, h2]
      · by_cases h3 : n.toNat < start + 2 * I.toNat
        · simp [start, h1, h2, h3]
        · simp [start, h1, h2, h3]
    · have hlt : n.toNat < kt.numberOfRekeys.toNat * I.toNat := Nat.lt_of_not_le h1
      simp [start, hlt, Nat.not_le.mpr hlt,
        show ¬ kt.numberOfRekeys.toNat * I.toNat + I.toNat ≤ n.toNat by omega]

/-- With `I = u64::MAX / 2`, the third new key finds no room: the flag is set with two rekeys, and
`get_key` refuses the nonce `2 * I` that opens the current interval. -/
theorem updateAll_max_rekeys_reached :
    (updateAll (new ⟨0⟩ 9223372036854775807) [⟨1⟩, ⟨2⟩, ⟨3⟩]).numberOfRekeys.toNat = 2 ∧
      (updateAll (new ⟨0⟩ 9223372036854775807) [⟨1⟩, ⟨2⟩, ⟨3⟩]).maxRekeysReached = true ∧
      (updateAll (new ⟨0⟩ 9223372036854775807) [⟨1⟩, ⟨2⟩, ⟨3⟩]).getKey 18446744073709551614 =
        .error (.identity .invalidNonce) := by
  decide

/-- At the interval of the secure channel, after one new key. -/
theorem updateAll_intervals_one_key :
    1 ≤ (32 : UInt64).toNat ∧ (32 : UInt64).toNat ≤ u64Max.toNat / 2 ∧
      (updateAll (new ⟨0⟩ 32) [⟨1⟩]).numberOfRekeys.toNat * 32 ≤ u64Max.toNat :=
  ⟨by decide, by decide, (updateAll_intervals ⟨0⟩ 32 (by decide) (by decide) [⟨1⟩]).1⟩

end KeyTracker

end Ockam.SecureChannel
