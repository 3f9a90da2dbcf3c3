import Mathlib.Data.Nat.Digits.Lemmas

/-! Decimal numerals: the digits of a number, most significant first and without leading zeros,
as a printer writes them, and the value a reader gives a string of digits. -/

namespace Decimal

def digitChar (d : ℕ) : Char := Char.ofNat (48 + d)

def digitValue (c : Char) : ℕ := c.toNat - 48

/-- The numeral of `m`. -/
def toDigits (m : ℕ) : List Char :=
  if m = 0 then ['0'] else (Nat.digits 10 m).reverse.map digitChar

/-- The value of a string of digits. -/
def ofDigits (cs : List Char) : ℕ := cs.foldl (fun acc c => 10 * acc + digitValue c) 0

/-- The numeral of an integer, with a minus sign when it is negative. -/
def ofInt (n : ℤ) : List Char := if n < 0 then '-' :: toDigits n.natAbs else toDigits n.natAbs

/-- The value of a numeral with an optional minus sign. -/
def toInt : List Char → ℤ
  | '-' :: cs => -(ofDigits cs : ℤ)
  | cs => ofDigits cs

lemma digitValue_digitChar : ∀ {d : ℕ}, d < 10 → digitValue (digitChar d) = d := by
  decide

lemma isDigit_digitChar : ∀ {d : ℕ}, d < 10 → (digitChar d).isDigit = true := by
  decide

lemma digitChar_ne_zero : ∀ {d : ℕ}, d < 10 → d ≠ 0 → digitChar d ≠ '0' := by
  decide

lemma foldr_digitValue : ∀ {ds : List ℕ}, (∀ d ∈ ds, d < 10) →
    (ds.map digitChar).foldr (fun c acc => 10 * acc + digitValue c) 0 = Nat.ofDigits 10 ds
  | [], _ => rfl
  | d :: ds, h => by
    have hd : d < 10 := h d List.mem_cons_self
    have hds : ∀ d ∈ ds, d < 10 := fun d' hd' => h d' (List.mem_cons_of_mem d hd')
    rw [List.map_cons, List.foldr_cons, foldr_digitValue hds, digitValue_digitChar hd,
      Nat.ofDigits_cons]
    ring

lemma ofDigits_toDigits (m : ℕ) : ofDigits (toDigits m) = m := by
  unfold toDigits ofDigits
  split_ifs with hm
  · simp [hm, digitValue]
  · have hlt : ∀ d ∈ Nat.digits 10 m, d < 10 := fun d hd => Nat.digits_lt_base (by norm_num) hd
    rw [List.map_reverse, List.foldl_reverse]
    simpa [Nat.ofDigits_digits] using foldr_digitValue hlt

lemma toDigits_ne_nil (m : ℕ) : toDigits m ≠ [] := by
  unfold toDigits
  split_ifs with hm
  · simp
  · simpa using Nat.digits_ne_nil_iff_ne_zero.mpr hm

lemma isDigit_of_mem_toDigits {m : ℕ} : ∀ c ∈ toDigits m, c.isDigit = true := by
  intro c hc
  unfold toDigits at hc
  split_ifs at hc with hm
  · simp at hc
    simp [hc]
  · obtain ⟨d, hd, rfl⟩ := List.mem_map.mp hc
    exact isDigit_digitChar (Nat.digits_lt_base (by norm_num) (List.mem_reverse.mp hd))

lemma toInt_of_isDigit {c : Char} (hc : c.isDigit = true) (cs : List Char) :
    toInt (c :: cs) = (ofDigits (c :: cs) : ℤ) := by
  have hne : c ≠ '-' := by
    rintro rfl
    exact absurd hc (by decide)
  simp [toInt, hne]

lemma toInt_ofInt (n : ℤ) : toInt (ofInt n) = n := by
  unfold ofInt
  split_ifs with hn
  · simp only [toInt, ofDigits_toDigits]
    omega
  · obtain ⟨c, cs, hcs⟩ := List.exists_cons_of_ne_nil (toDigits_ne_nil n.natAbs)
    have hc : c.isDigit = true := isDigit_of_mem_toDigits c (hcs ▸ List.mem_cons_self)
    rw [hcs, toInt_of_isDigit hc, ← hcs, ofDigits_toDigits]
    omega

lemma ofInt_eq_cons (n : ℤ) : ∃ c cs, ofInt n = c :: cs ∧ (c = '-' ∨ c.isDigit = true) := by
  unfold ofInt
  split_ifs
  · exact ⟨'-', _, rfl, .inl rfl⟩
  · obtain ⟨c, cs, hcs⟩ := List.exists_cons_of_ne_nil (toDigits_ne_nil n.natAbs)
    exact ⟨c, cs, hcs, .inr (isDigit_of_mem_toDigits c (hcs ▸ List.mem_cons_self))⟩

lemma toDigits_of_lt {m : ℕ} (h : m < 10) : toDigits m = [digitChar m] := by
  unfold toDigits
  split_ifs with hm
  · simp [hm, digitChar]
  · simp [Nat.digits_of_lt 10 m hm h]

lemma toDigits_of_le {m : ℕ} (h : 10 ≤ m) :
    ∃ c cs, toDigits m = c :: cs ∧ c.isDigit = true ∧ c ≠ '0' ∧ cs ≠ [] ∧
      ∀ c' ∈ cs, c'.isDigit = true := by
  have hm : m ≠ 0 := by omega
  have hlt : ∀ d ∈ Nat.digits 10 m, d < 10 := fun d hd => Nat.digits_lt_base (by norm_num) hd
  have hdef : Nat.digits 10 m = m % 10 :: Nat.digits 10 (m / 10) :=
    Nat.digits_def' (by norm_num) (by omega)
  have hhigh : Nat.digits 10 (m / 10) ≠ [] := Nat.digits_ne_nil_iff_ne_zero.mpr (by omega)
  obtain ⟨d, ds, hds⟩ := List.exists_cons_of_ne_nil (List.reverse_ne_nil_iff.mpr hhigh)
  have hrev : (Nat.digits 10 m).reverse = d :: (ds ++ [m % 10]) := by
    rw [hdef, List.reverse_cons, hds, List.cons_append]
  have hmem : ∀ d' ∈ (Nat.digits 10 m).reverse, d' < 10 := fun d' hd' =>
    hlt d' (List.mem_reverse.mp hd')
  have hlast : d ≠ 0 := by
    have hdigits : Nat.digits 10 m = (ds ++ [m % 10]).reverse ++ [d] := by
      apply List.reverse_injective
      simp [hrev]
    simpa [hdigits] using Nat.getLast_digit_ne_zero 10 hm
  refine ⟨digitChar d, (ds ++ [m % 10]).map digitChar, ?_, ?_, ?_, ?_, ?_⟩
  · rw [toDigits, if_neg hm, hrev, List.map_cons]
  · exact isDigit_digitChar (hmem d (by rw [hrev]; exact List.mem_cons_self))
  · exact digitChar_ne_zero (hmem d (by rw [hrev]; exact List.mem_cons_self)) hlast
  · simp
  · intro c' hc'
    obtain ⟨d', hd', rfl⟩ := List.mem_map.mp hc'
    exact isDigit_digitChar (hmem d' (by rw [hrev]; exact List.mem_cons_of_mem _ hd'))

end Decimal
