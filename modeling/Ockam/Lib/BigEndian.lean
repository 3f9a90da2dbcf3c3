import Mathlib

/-! Fixed-width big-endian byte strings of natural numbers, as `to_be_bytes` writes them and
`from_be_bytes` reads them back. -/

namespace Ockam.Lib.BigEndian

def encode : ℕ → ℕ → List UInt8
  | 0, _ => []
  | w + 1, n => encode w (n / 256) ++ [UInt8.ofNat (n % 256)]

def decode (bs : List UInt8) : ℕ :=
  bs.foldl (fun acc b => acc * 256 + b.toNat) 0

@[simp] lemma length_encode (w n : ℕ) : (encode w n).length = w := by
  induction w generalizing n with
  | zero => rfl
  | succ w ih => simp [encode, ih]

lemma decode_append_singleton (bs : List UInt8) (b : UInt8) :
    decode (bs ++ [b]) = decode bs * 256 + b.toNat := by
  simp [decode, List.foldl_append]

lemma decode_encode (w n : ℕ) (h : n < 256 ^ w) : decode (encode w n) = n := by
  induction w generalizing n with
  | zero => simp_all [encode, decode]
  | succ w ih =>
    have hq : n / 256 < 256 ^ w := by
      rw [Nat.div_lt_iff_lt_mul (by omega)]
      simpa [Nat.pow_succ] using h
    have hm : (UInt8.ofNat (n % 256)).toNat = n % 256 := by
      simp [Nat.mod_mod_of_dvd]
    rw [encode, decode_append_singleton, ih _ hq, hm]
    omega

lemma decode_lt (bs : List UInt8) : decode bs < 256 ^ bs.length := by
  induction bs using List.reverseRecOn with
  | nil => simp [decode]
  | append_singleton bs b ih =>
    have hb : b.toNat < 256 := b.toNat_lt
    rw [decode_append_singleton, List.length_append, List.length_singleton, Nat.pow_succ]
    generalize 256 ^ bs.length = X at ih ⊢
    omega

lemma encode_decode (bs : List UInt8) : encode bs.length (decode bs) = bs := by
  induction bs using List.reverseRecOn with
  | nil => rfl
  | append_singleton bs b ih =>
    have hb : b.toNat < 256 := b.toNat_lt
    have hq : (decode bs * 256 + b.toNat) / 256 = decode bs := by omega
    have hr : UInt8.ofNat ((decode bs * 256 + b.toNat) % 256) = b := by
      rw [show (decode bs * 256 + b.toNat) % 256 = b.toNat by omega]
      exact UInt8.ofNat_toNat
    rw [List.length_append, List.length_singleton, encode, decode_append_singleton, hq, ih, hr]

end Ockam.Lib.BigEndian
