import Mathlib

/-! Unsigned LEB128 varints: seven bits a byte, the low group first, the high bit set on every
byte but the last. The decoder reads at most `maxBytes + 1` bytes into a `width`-bit integer,
drops the bits above the width as a shift of a fixed-width integer does, and refuses a
multi-byte encoding that ends in a zero byte. -/

namespace Varint

def encode (n : Nat) : List UInt8 :=
  if n < 128 then [UInt8.ofNat n] else UInt8.ofNat (n % 128 + 128) :: encode (n / 128)
termination_by n
decreasing_by omega

inductive Error where
  | insufficient
  | overflow
  | notMinimal
  deriving DecidableEq, Repr

/-- The byte at index `i` adds its seven bits at `7 * i`; the groups are disjoint, so the sum is
the bitwise or of the fixed-width accumulator. -/
def decodeFrom (width maxBytes : Nat) : Nat → Nat → List UInt8 → Except Error (Nat × List UInt8)
  | _, _, [] => .error .insufficient
  | i, n, b :: rest =>
    let n := n + b.toNat % 128 * 2 ^ (7 * i) % 2 ^ width
    if b.toNat < 128 then
      if b = 0 ∧ 0 < i then .error .notMinimal else .ok (n, rest)
    else if i = maxBytes then .error .overflow
    else decodeFrom width maxBytes (i + 1) n rest

def decode (width maxBytes : Nat) (bs : List UInt8) : Except Error (Nat × List UInt8) :=
  decodeFrom width maxBytes 0 0 bs

lemma encode_of_lt {n : Nat} (h : n < 128) : encode n = [UInt8.ofNat n] := by
  rw [encode, if_pos h]

lemma encode_of_le {n : Nat} (h : 128 ≤ n) :
    encode n = UInt8.ofNat (n % 128 + 128) :: encode (n / 128) := by
  rw [encode, if_neg (by omega)]

lemma encode_ne_nil (n : Nat) : encode n ≠ [] := by
  rw [encode]
  split <;> simp

lemma length_encode_le {n k : Nat} (h : n < 2 ^ (7 * (k + 1))) : (encode n).length ≤ k + 1 := by
  induction k generalizing n with
  | zero => rw [encode_of_lt (by simpa using h)]; simp
  | succ k ih =>
    by_cases hn : n < 128
    · rw [encode_of_lt hn]; simp
    · rw [encode_of_le (by omega), List.length_cons]
      have : n / 128 < 2 ^ (7 * (k + 1)) := by
        rw [Nat.div_lt_iff_lt_mul (by omega)]
        calc n < 2 ^ (7 * (k + 1 + 1)) := h
          _ = 2 ^ (7 * (k + 1)) * 128 := by rw [show 7 * (k + 1 + 1) = 7 * (k + 1) + 7 by ring, pow_add]; rfl
      have := ih this
      omega

lemma toNat_ofNat_small {n : Nat} (h : n < 256) : (UInt8.ofNat n).toNat = n := by
  simp [Nat.mod_eq_of_lt h]

lemma decodeFrom_encode (width maxBytes : Nat) (rest : List UInt8) :
    ∀ m i acc, (i = 0 ∨ 0 < m) → acc < 2 ^ (7 * i) → acc + m * 2 ^ (7 * i) < 2 ^ width →
      i + (encode m).length ≤ maxBytes + 1 →
      decodeFrom width maxBytes i acc (encode m ++ rest) = .ok (acc + m * 2 ^ (7 * i), rest) := by
  intro m
  induction m using Nat.strong_induction_on with
  | _ m ih =>
    intro i acc hm0 hacc hw hl
    have hp : 0 < 2 ^ (7 * i) := Nat.two_pow_pos _
    have hmw : m % 128 * 2 ^ (7 * i) < 2 ^ width := by
      have := Nat.mul_le_mul_right (2 ^ (7 * i)) (Nat.mod_le m 128)
      omega
    by_cases hm : m < 128
    · -- the last byte, `m` itself
      have hz : ¬ (UInt8.ofNat m = 0 ∧ 0 < i) := by
        rintro ⟨h0, hi⟩
        have : m = 0 := by
          simpa [Nat.mod_eq_of_lt (by omega : m < 256)] using congrArg UInt8.toNat h0
        omega
      rw [encode_of_lt hm, List.singleton_append, decodeFrom, toNat_ofNat_small (by omega),
        if_pos (by omega), if_neg hz, Nat.mod_eq_of_lt hm, Nat.mod_eq_of_lt (by rwa [Nat.mod_eq_of_lt hm] at hmw)]
    · -- a continued byte: its group, then `m / 128` from the next index
      have hlen : 2 ≤ (encode m).length := by
        rw [encode_of_le (by omega), List.length_cons]
        have := encode_ne_nil (m / 128)
        have : (encode (m / 128)).length ≠ 0 := by simpa using this
        omega
      have hb : (UInt8.ofNat (m % 128 + 128)).toNat = m % 128 + 128 :=
        toNat_ofNat_small (by omega)
      have hdiv : m = m / 128 * 128 + m % 128 := by omega
      have hpow : 2 ^ (7 * (i + 1)) = 128 * 2 ^ (7 * i) := by
        rw [show 7 * (i + 1) = 7 * i + 7 by ring, pow_add]; ring
      rw [encode_of_le (by omega), List.cons_append, decodeFrom, hb, if_neg (by omega),
        if_neg (by omega), Nat.add_mod_right, Nat.mod_mod, Nat.mod_eq_of_lt hmw]
      have hacc' : acc + m % 128 * 2 ^ (7 * i) < 2 ^ (7 * (i + 1)) := by
        rw [hpow]
        have := Nat.mul_le_mul_right (2 ^ (7 * i)) (show m % 128 ≤ 127 by omega)
        omega
      have hsum : acc + m % 128 * 2 ^ (7 * i) + m / 128 * 2 ^ (7 * (i + 1)) = acc + m * 2 ^ (7 * i) := by
        rw [hpow]
        conv_rhs => rw [hdiv]
        ring
      rw [ih (m / 128) (by omega) (i + 1) _ (.inr (by omega)) hacc' (by rw [hsum]; exact hw)
        (by rw [encode_of_le (by omega), List.length_cons] at hl; omega), hsum]

theorem decode_encode {width maxBytes n : Nat} (hw : n < 2 ^ width)
    (hl : (encode n).length ≤ maxBytes + 1) (rest : List UInt8) :
    decode width maxBytes (encode n ++ rest) = .ok (n, rest) := by
  have := decodeFrom_encode width maxBytes rest n 0 0 (.inl rfl) (by simp) (by simpa using hw)
    (by simpa using hl)
  simpa [decode] using this

lemma decodeFrom_eq_ok {width maxBytes : Nat} :
    ∀ {i acc n : Nat} {bs rest : List UInt8}, decodeFrom width maxBytes i acc bs = .ok (n, rest) →
      ∃ pre, pre ≠ [] ∧ bs = pre ++ rest
  | _, _, _, [], _, h => by simp [decodeFrom] at h
  | i, acc, n, b :: bs, rest, h => by
    simp only [decodeFrom] at h
    by_cases hlast : b.toNat < 128
    · -- the read ends at this byte
      have hrest : bs = rest := by
        by_cases hz : b = 0 ∧ 0 < i <;> simp_all
      exact ⟨[b], by simp, by simp [hrest]⟩
    · by_cases hmax : i = maxBytes
      · simp [hlast, hmax] at h
      · rw [if_neg hlast, if_neg hmax] at h
        obtain ⟨pre, -, rfl⟩ := decodeFrom_eq_ok h
        exact ⟨b :: pre, by simp, rfl⟩

lemma decode_eq_ok {width maxBytes n : Nat} {bs rest : List UInt8}
    (h : decode width maxBytes bs = .ok (n, rest)) : ∃ pre, pre ≠ [] ∧ bs = pre ++ rest :=
  decodeFrom_eq_ok h

lemma head?_encode (n : Nat) :
    (encode n).head? = some (if n < 128 then UInt8.ofNat n else UInt8.ofNat (n % 128 + 128)) := by
  rw [encode]
  split_ifs <;> rfl

end Varint
