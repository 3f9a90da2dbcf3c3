import Mathlib

/-! The symmetric state of the Noise protocol framework over an abstract cipher suite: a
chaining key, a cipher key with its nonce and the transcript hash. Two parties that start from
the same symmetric state and each mix in what the other sends, one encrypting and the other
decrypting, stay in the same symmetric state; the Diffie-Hellman law makes the keys they mix
in the same. -/

namespace Noise

variable {α : Type}

structure Suite (α : Type) where
  /-- The length of a public key, `DHLEN`. -/
  dhLen : Nat
  /-- The length of an authentication tag. -/
  tagLen : Nat
  hash : List α → List α
  /-- `HKDF(ck, ikm, 2)`: the next chaining key and a cipher key. -/
  kdf : List α → List α → List α × List α
  encrypt : List α → UInt64 → List α → List α → List α
  decrypt : List α → UInt64 → List α → List α → Option (List α)
  dh : List α → List α → List α
  publicKey : List α → List α

structure Suite.Laws (S : Suite α) : Prop where
  decrypt_encrypt : ∀ k n ad p, S.decrypt k n ad (S.encrypt k n ad p) = some p
  length_encrypt : ∀ k n ad p, (S.encrypt k n ad p).length = p.length + S.tagLen
  dh_comm : ∀ a b, S.dh a (S.publicKey b) = S.dh b (S.publicKey a)
  length_publicKey : ∀ a, (S.publicKey a).length = S.dhLen

structure Symmetric (α : Type) where
  ck : List α
  k : Option (List α)
  h : List α
  n : UInt64

namespace Symmetric

variable (S : Suite α)

def mixHash (σ : Symmetric α) (data : List α) : Symmetric α :=
  { σ with h := S.hash (σ.h ++ data) }

def mixKey (σ : Symmetric α) (ikm : List α) : Symmetric α :=
  { σ with ck := (S.kdf σ.ck ikm).1, k := some (S.kdf σ.ck ikm).2, n := 0 }

/-- The ciphertext of `p` under the cipher key, and the state after it: the ciphertext mixed
into the hash, the nonce advanced. -/
def encryptAndHash (σ : Symmetric α) (p : List α) : Option (List α × Symmetric α) :=
  σ.k.map fun k =>
    let c := S.encrypt k σ.n σ.h p
    (c, { σ.mixHash S c with n := σ.n + 1 })

def decryptAndHash (σ : Symmetric α) (c : List α) : Option (List α × Symmetric α) := do
  let k ← σ.k
  let p ← S.decrypt k σ.n σ.h c
  pure (p, { σ.mixHash S c with n := σ.n + 1 })

/-- The two transport keys. -/
def split (σ : Symmetric α) : List α × List α := S.kdf σ.ck []

variable {S}

theorem decryptAndHash_of_encryptAndHash (hS : S.Laws) {σ σ' : Symmetric α} {p c : List α}
    (h : σ.encryptAndHash S p = some (c, σ')) : σ.decryptAndHash S c = some (p, σ') := by
  obtain ⟨k, hk⟩ : ∃ k, σ.k = some k := Option.isSome_iff_exists.mp (by
    cases hk : σ.k <;> simp_all [encryptAndHash])
  simp only [encryptAndHash, hk, Option.map_some, Option.some.injEq, Prod.mk.injEq] at h
  obtain ⟨rfl, rfl⟩ := h
  simp [decryptAndHash, hk, hS.decrypt_encrypt]

lemma encryptAndHash_of_key {σ : Symmetric α} {k : List α} (hk : σ.k = some k) (p : List α) :
    σ.encryptAndHash S p = some (S.encrypt k σ.n σ.h p,
      { σ.mixHash S (S.encrypt k σ.n σ.h p) with n := σ.n + 1 }) := by
  simp [encryptAndHash, hk]

lemma length_of_encryptAndHash (hS : S.Laws) {σ σ' : Symmetric α} {p c : List α}
    (h : σ.encryptAndHash S p = some (c, σ')) : c.length = p.length + S.tagLen := by
  obtain ⟨k, hk⟩ : ∃ k, σ.k = some k := Option.isSome_iff_exists.mp (by
    cases hk : σ.k <;> simp_all [encryptAndHash])
  rw [encryptAndHash_of_key hk] at h
  obtain ⟨rfl, -⟩ := Prod.mk.inj (Option.some.inj h)
  exact hS.length_encrypt _ _ _ _

lemma k_of_encryptAndHash {σ σ' : Symmetric α} {p c : List α}
    (h : σ.encryptAndHash S p = some (c, σ')) : σ'.k = σ.k := by
  obtain ⟨k, hk⟩ : ∃ k, σ.k = some k := Option.isSome_iff_exists.mp (by
    cases hk : σ.k <;> simp_all [encryptAndHash])
  rw [encryptAndHash_of_key hk] at h
  obtain ⟨-, rfl⟩ := Prod.mk.inj (Option.some.inj h)
  rfl

@[simp] lemma k_mixKey (σ : Symmetric α) (ikm : List α) : (σ.mixKey S ikm).k = some (S.kdf σ.ck ikm).2 :=
  rfl

@[simp] lemma k_mixHash (σ : Symmetric α) (data : List α) : (σ.mixHash S data).k = σ.k := rfl

end Symmetric

/-! The XX pattern: `-> e`, `<- e, ee, s, es`, `-> s, se`, each message followed by a payload
under the current key. A party knows its static and ephemeral secrets and learns the other's
public keys `re` and `rs`. -/

structure Party (α : Type) where
  s : List α
  e : List α
  sym : Symmetric α
  re : Option (List α)
  rs : Option (List α)

namespace Party

variable (S : Suite α)

def writeMessage1 (a : Party α) (p : List α) : List α × Party α :=
  let ePub := S.publicKey a.e
  (ePub ++ p, { a with sym := (a.sym.mixHash S ePub).mixHash S p })

def readMessage1 (a : Party α) (m : List α) : List α × Party α :=
  let re := m.take S.dhLen
  let p := m.drop S.dhLen
  (p, { a with sym := (a.sym.mixHash S re).mixHash S p, re := some re })

def writeMessage2 (a : Party α) (p : List α) : Option (List α × Party α) := do
  let re ← a.re
  let ePub := S.publicKey a.e
  let σ := (a.sym.mixHash S ePub).mixKey S (S.dh a.e re)
  let (c1, σ) ← σ.encryptAndHash S (S.publicKey a.s)
  let σ := σ.mixKey S (S.dh a.s re)
  let (c2, σ) ← σ.encryptAndHash S p
  pure (ePub ++ c1 ++ c2, { a with sym := σ })

def readMessage2 (a : Party α) (m : List α) : Option (List α × Party α) := do
  let re := m.take S.dhLen
  let σ := (a.sym.mixHash S re).mixKey S (S.dh a.e re)
  let (rs, σ) ← σ.decryptAndHash S ((m.drop S.dhLen).take (S.dhLen + S.tagLen))
  if rs.length ≠ S.dhLen then none
  let σ := σ.mixKey S (S.dh a.e rs)
  let (p, σ) ← σ.decryptAndHash S (m.drop (2 * S.dhLen + S.tagLen))
  pure (p, { a with sym := σ, re := some re, rs := some rs })

def writeMessage3 (a : Party α) (p : List α) : Option (List α × Party α) := do
  let re ← a.re
  let (c1, σ) ← a.sym.encryptAndHash S (S.publicKey a.s)
  let σ := σ.mixKey S (S.dh a.s re)
  let (c2, σ) ← σ.encryptAndHash S p
  pure (c1 ++ c2, { a with sym := σ })

def readMessage3 (a : Party α) (m : List α) : Option (List α × Party α) := do
  let (rs, σ) ← a.sym.decryptAndHash S (m.take (S.dhLen + S.tagLen))
  if rs.length ≠ S.dhLen then none
  let σ := σ.mixKey S (S.dh a.e rs)
  let (p, σ) ← σ.decryptAndHash S (m.drop (S.dhLen + S.tagLen))
  pure (p, { a with sym := σ, rs := some rs })

variable {S}

/-! Each message read by a party in the writer's symmetric state: the payload comes back, the
reader reaches the writer's next symmetric state and learns the writer's public keys. -/

theorem readMessage1_writeMessage1 (hS : S.Laws) {I R : Party α} (hsym : R.sym = I.sym)
    (p : List α) :
    R.readMessage1 S (I.writeMessage1 S p).1 =
      (p, { R with sym := (I.writeMessage1 S p).2.sym, re := some (S.publicKey I.e) }) := by
  have hl := hS.length_publicKey I.e
  simp [readMessage1, writeMessage1, hsym, ← hl]

theorem readMessage2_writeMessage2 (hS : S.Laws) {I R R' : Party α} {p m : List α}
    (hsym : I.sym = R.sym) (hre : R.re = some (S.publicKey I.e))
    (hw : R.writeMessage2 S p = some (m, R')) :
    I.readMessage2 S m =
      some (p, { I with sym := R'.sym, re := some (S.publicKey R.e), rs := some (S.publicKey R.s) }) := by
  -- the writer's steps, named
  set σa := (R.sym.mixHash S (S.publicKey R.e)).mixKey S (S.dh R.e (S.publicKey I.e)) with hσa
  obtain ⟨c1, σb, h1⟩ : ∃ c1 σb, σa.encryptAndHash S (S.publicKey R.s) = some (c1, σb) :=
    ⟨_, _, Symmetric.encryptAndHash_of_key (Symmetric.k_mixKey _ _) _⟩
  set σc := σb.mixKey S (S.dh R.s (S.publicKey I.e)) with hσc
  obtain ⟨c2, σd, h2⟩ : ∃ c2 σd, σc.encryptAndHash S p = some (c2, σd) :=
    ⟨_, _, Symmetric.encryptAndHash_of_key (Symmetric.k_mixKey _ _) _⟩
  obtain ⟨rfl, hR'⟩ : m = S.publicKey R.e ++ c1 ++ c2 ∧ R'.sym = σd := by
    simp only [writeMessage2, hre, Option.pure_def, Option.bind_eq_bind, Option.bind_some,
      ← hσa, h1, ← hσc, h2, Option.some.injEq, Prod.mk.injEq] at hw
    exact ⟨hw.1.symm, by rw [← hw.2]⟩
  -- the reader cuts the message where the writer joined it, and agrees on both secrets
  have hle := hS.length_publicKey R.e
  have hl1 : c1.length = S.dhLen + S.tagLen := by
    rw [Symmetric.length_of_encryptAndHash hS h1, hS.length_publicKey]
  have hee : S.dh I.e (S.publicKey R.e) = S.dh R.e (S.publicKey I.e) := hS.dh_comm _ _
  have hes : S.dh I.e (S.publicKey R.s) = S.dh R.s (S.publicKey I.e) := hS.dh_comm _ _
  simp only [hR', readMessage2, List.append_assoc, List.take_left' hle, List.drop_left' hle,
    List.take_left' hl1, show 2 * S.dhLen + S.tagLen = (S.publicKey R.e).length + c1.length by
      omega, ← List.drop_drop, List.drop_left' rfl, hsym, hee, ← hσa,
    Symmetric.decryptAndHash_of_encryptAndHash hS h1, Option.bind_eq_bind, Option.bind_some,
    hS.length_publicKey, ne_eq, not_true_eq_false, if_false, hes, ← hσc,
    Symmetric.decryptAndHash_of_encryptAndHash hS h2, Option.pure_def]

theorem readMessage3_writeMessage3 (hS : S.Laws) {I I' R : Party α} {p m : List α}
    (hsym : R.sym = I.sym) (hre : I.re = some (S.publicKey R.e))
    (hw : I.writeMessage3 S p = some (m, I')) :
    R.readMessage3 S m = some (p, { R with sym := I'.sym, rs := some (S.publicKey I.s) }) := by
  obtain ⟨c1, σb, h1⟩ : ∃ c1 σb, I.sym.encryptAndHash S (S.publicKey I.s) = some (c1, σb) := by
    cases h1 : I.sym.encryptAndHash S (S.publicKey I.s) with
    | none => simp [writeMessage3, hre, h1] at hw
    | some r => exact ⟨r.1, r.2, rfl⟩
  set σc := σb.mixKey S (S.dh I.s (S.publicKey R.e)) with hσc
  obtain ⟨c2, σd, h2⟩ : ∃ c2 σd, σc.encryptAndHash S p = some (c2, σd) :=
    ⟨_, _, Symmetric.encryptAndHash_of_key (Symmetric.k_mixKey _ _) _⟩
  obtain ⟨rfl, hI'⟩ : m = c1 ++ c2 ∧ I'.sym = σd := by
    simp only [writeMessage3, hre, Option.pure_def, Option.bind_eq_bind, Option.bind_some, h1,
      ← hσc, h2, Option.some.injEq, Prod.mk.injEq] at hw
    exact ⟨hw.1.symm, by rw [← hw.2]⟩
  have hl1 : c1.length = S.dhLen + S.tagLen := by
    rw [Symmetric.length_of_encryptAndHash hS h1, hS.length_publicKey]
  have hse : S.dh R.e (S.publicKey I.s) = S.dh I.s (S.publicKey R.e) := hS.dh_comm _ _
  simp only [hI', readMessage3, List.take_left' hl1, List.drop_left' hl1, hsym,
    Symmetric.decryptAndHash_of_encryptAndHash hS h1, Option.bind_eq_bind, Option.bind_some,
    hS.length_publicKey, ne_eq, not_true_eq_false, if_false, hse, ← hσc,
    Symmetric.decryptAndHash_of_encryptAndHash hS h2, Option.pure_def]

/-! A party that knows the other's ephemeral key can always write its next message, of a
fixed length over the payload's, and ends it with a cipher key. -/

theorem writeMessage2_eq_some (hS : S.Laws) {R : Party α} {re : List α} (hre : R.re = some re)
    (p : List α) :
    ∃ m σ, R.writeMessage2 S p = some (m, { R with sym := σ }) ∧ σ.k.isSome ∧
      m.length = 2 * S.dhLen + 2 * S.tagLen + p.length := by
  obtain ⟨c1, σb, h1⟩ : ∃ c1 σb, ((R.sym.mixHash S (S.publicKey R.e)).mixKey S
      (S.dh R.e re)).encryptAndHash S (S.publicKey R.s) = some (c1, σb) :=
    ⟨_, _, Symmetric.encryptAndHash_of_key (Symmetric.k_mixKey _ _) _⟩
  obtain ⟨c2, σd, h2⟩ : ∃ c2 σd, (σb.mixKey S (S.dh R.s re)).encryptAndHash S p = some (c2, σd) :=
    ⟨_, _, Symmetric.encryptAndHash_of_key (Symmetric.k_mixKey _ _) _⟩
  refine ⟨S.publicKey R.e ++ c1 ++ c2, σd, by simp [writeMessage2, hre, h1, h2], by simp [Symmetric.k_of_encryptAndHash h2], ?_⟩
  simp only [List.length_append, hS.length_publicKey, Symmetric.length_of_encryptAndHash hS h1,
    Symmetric.length_of_encryptAndHash hS h2]
  omega

theorem writeMessage3_eq_some (hS : S.Laws) {I : Party α} {re : List α} (hre : I.re = some re)
    (hk : I.sym.k.isSome) (p : List α) :
    ∃ m σ, I.writeMessage3 S p = some (m, { I with sym := σ }) ∧ σ.k.isSome ∧
      m.length = S.dhLen + 2 * S.tagLen + p.length := by
  obtain ⟨k, hk⟩ := Option.isSome_iff_exists.mp hk
  obtain ⟨c1, σb, h1⟩ : ∃ c1 σb, I.sym.encryptAndHash S (S.publicKey I.s) = some (c1, σb) :=
    ⟨_, _, Symmetric.encryptAndHash_of_key hk _⟩
  obtain ⟨c2, σd, h2⟩ : ∃ c2 σd, (σb.mixKey S (S.dh I.s re)).encryptAndHash S p = some (c2, σd) :=
    ⟨_, _, Symmetric.encryptAndHash_of_key (Symmetric.k_mixKey _ _) _⟩
  refine ⟨c1 ++ c2, σd, by simp [writeMessage3, hre, h1, h2], by simp [Symmetric.k_of_encryptAndHash h2], ?_⟩
  simp only [List.length_append, hS.length_publicKey, Symmetric.length_of_encryptAndHash hS h1,
    Symmetric.length_of_encryptAndHash hS h2]
  omega

/-! What a successful read consists of, step by step. -/

theorem readStatic_eq_some {σ₀ : Symmetric α} {e c₁ c₂ p : List α} {a' : Party α}
    {f : Symmetric α → List α → Party α}
    (h : (do
      let (rs, σ) ← σ₀.decryptAndHash S c₁
      if rs.length ≠ S.dhLen then none
      let σ := σ.mixKey S (S.dh e rs)
      let (p, σ) ← σ.decryptAndHash S c₂
      pure (p, f σ rs) : Option (List α × Party α)) = some (p, a')) :
    ∃ rs σb σd, σ₀.decryptAndHash S c₁ = some (rs, σb) ∧ rs.length = S.dhLen ∧
      (σb.mixKey S (S.dh e rs)).decryptAndHash S c₂ = some (p, σd) ∧ a' = f σd rs := by
  simp only [Option.bind_eq_bind, Option.pure_def, ne_eq] at h
  cases h1 : σ₀.decryptAndHash S c₁ with
  | none => simp [h1] at h
  | some r1 =>
    obtain ⟨rs, σb⟩ := r1
    by_cases hl : rs.length = S.dhLen
    · cases h2 : (σb.mixKey S (S.dh e rs)).decryptAndHash S c₂ with
      | none => simp [h1, hl, h2] at h
      | some r2 =>
        obtain ⟨p', σd⟩ := r2
        simp only [h1, hl, h2, Option.bind_some, not_true_eq_false, if_false, Option.some.injEq,
          Prod.mk.injEq] at h
        obtain ⟨rfl, rfl⟩ := h
        exact ⟨rs, σb, σd, rfl, hl, h2, rfl⟩
    · simp [h1, hl] at h

theorem readMessage2_eq_some {a a' : Party α} {m p : List α} (h : a.readMessage2 S m = some (p, a')) :
    ∃ rs σb σd, ((a.sym.mixHash S (m.take S.dhLen)).mixKey S (S.dh a.e (m.take S.dhLen))).decryptAndHash S
        ((m.drop S.dhLen).take (S.dhLen + S.tagLen)) = some (rs, σb) ∧ rs.length = S.dhLen ∧
      (σb.mixKey S (S.dh a.e rs)).decryptAndHash S (m.drop (2 * S.dhLen + S.tagLen)) = some (p, σd) ∧
      a' = { a with sym := σd, re := some (m.take S.dhLen), rs := some rs } :=
  readStatic_eq_some h

theorem readMessage3_eq_some {a a' : Party α} {m p : List α} (h : a.readMessage3 S m = some (p, a')) :
    ∃ rs σb σd, a.sym.decryptAndHash S (m.take (S.dhLen + S.tagLen)) = some (rs, σb) ∧
      rs.length = S.dhLen ∧
      (σb.mixKey S (S.dh a.e rs)).decryptAndHash S (m.drop (S.dhLen + S.tagLen)) = some (p, σd) ∧
      a' = { a with sym := σd, rs := some rs } :=
  readStatic_eq_some h

end Party

end Noise
