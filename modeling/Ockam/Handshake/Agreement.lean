import Mathlib
import Ockam.Lib.Noise
import Ockam.Handshake.Noise
import Ockam.Vault.SoftwareVault
import Ockam.SecureChannel.Channel

/-! Agreement of the Noise XX handshake over two software vaults: the steps of `Handshake`
compute the abstract XX pattern of `Noise.Party` on the secrets behind their handles, so the two
parties decrypt each other's payloads, learn each other's static keys, and end with the same
transcript hash and mirrored transport keys. -/

namespace Ockam.XX

open Ockam.Vault SoftwareVaultForSecureChannels

/-- What the handshake needs of the primitives: an AEAD, X25519 agreement and 32-byte public
keys, and an HKDF that fills its 64-byte output. -/
structure HandshakeLaws (P : Primitives) : Prop where
  aead : AeadLaws P
  dh_comm : ∀ a b, P.x25519 a (P.x25519PublicKey b) = P.x25519 b (P.x25519PublicKey a)
  length_publicKey : ∀ a, (P.x25519PublicKey a).length = x25519PublicKeyLength
  hkdf : ∀ salt ikm, ∃ okm, P.hkdfSha256 salt ikm 64 = some okm ∧ okm.length = 64

/-- The cipher suite that `Handshake` computes: HKDF's output cut in two 32-byte halves, the
second one taken as an AES-GCM key; the nonce is the counter `n`, big-endian. -/
def suite (P : Primitives) (sha256 : Bytes → Bytes) : Noise.Suite UInt8 where
  dhLen := x25519PublicKeyLength
  tagLen := aesGcmTagsize
  hash := sha256
  kdf ck ikm :=
    let okm := (P.hkdfSha256 ck ikm 64).getD []
    (okm.take 32, (okm.drop 32).take aeadSecretLength)
  encrypt k n ad p := P.aesGcmEncrypt k (nonceOf n) ad p
  decrypt k n ad c := P.aesGcmDecrypt k (nonceOf n) ad c
  dh := P.x25519
  publicKey := P.x25519PublicKey

variable {P : Primitives} {sha256 : Bytes → Bytes}

@[simp] lemma suite_publicKey : (suite P sha256).publicKey = P.x25519PublicKey := rfl

@[simp] lemma suite_dh : (suite P sha256).dh = P.x25519 := rfl

@[simp] lemma suite_dhLen : (suite P sha256).dhLen = x25519PublicKeyLength := rfl

@[simp] lemma suite_tagLen : (suite P sha256).tagLen = aesGcmTagsize := rfl

theorem suite_laws (hP : HandshakeLaws P) : (suite P sha256).Laws where
  decrypt_encrypt _ _ _ _ := hP.aead.decrypt_encrypt _ _ _ _
  length_encrypt _ _ _ _ := hP.aead.length_encrypt _ _ _ _
  dh_comm := hP.dh_comm
  length_publicKey := hP.length_publicKey

/-- A handle to an AEAD key and the key the abstract party holds. -/
def KeyHolds (v : SoftwareVaultForSecureChannels) : Option AeadSecretKeyHandle → Option Bytes → Prop
  | none, none => True
  | some kh, some key => v.ephemeralAeadSecrets kh = some key ∧ kh.handle < v.nextHandle
  | _, _ => False

lemma KeyHolds.mono {v v' : SoftwareVaultForSecureChannels} {kh : Option AeadSecretKeyHandle}
    {key : Option Bytes} (h : KeyHolds v kh key)
    (haead : ∀ k : AeadSecretKeyHandle, k.handle < v.nextHandle →
      v'.ephemeralAeadSecrets k = v.ephemeralAeadSecrets k)
    (hn : v.nextHandle ≤ v'.nextHandle) : KeyHolds v' kh key := by
  cases kh <;> cases key <;> simp only [KeyHolds] at h ⊢
  exact ⟨by rw [haead _ h.2, h.1], by omega⟩

/-- The handles of a handshake state name, in the vault `v`, the secrets of the abstract party
`a`; the handles to buffers and AEAD keys were drawn before the vault's next one. -/
structure Holds (v : SoftwareVaultForSecureChannels) (st : HandshakeState)
    (a : Noise.Party UInt8) : Prop where
  s : ∃ h, st.s = some h ∧ (v.ephemeralX25519Secrets h).or (v.staticX25519Secrets h) = some a.s
  e : ∃ h, st.e = some h ∧ v.ephemeralX25519Secrets h = some a.e
  ck : ∃ c, st.ck = some c ∧ v.ephemeralBufferSecrets c = some a.sym.ck ∧ c.handle < v.nextHandle
  k : KeyHolds v st.k a.sym.k
  h : st.h = a.sym.h
  n : st.n = a.sym.n
  re : st.re = a.re.map X25519PublicKey.mk
  rs : st.rs = a.rs.map X25519PublicKey.mk

namespace Holds

variable {v : SoftwareVaultForSecureChannels} {st : HandshakeState} {a : Noise.Party UInt8}

lemma importBuffer (ha : Holds v st a) (x : Bytes) :
    Holds { v with
      ephemeralBufferSecrets := Function.update v.ephemeralBufferSecrets ⟨v.nextHandle⟩ (some x)
      nextHandle := v.nextHandle + 1 } st a := by
  obtain ⟨hs, he, ⟨c, hc, hcv, hcN⟩, hk, hh, hn, hre, hrs⟩ := ha
  refine ⟨hs, he, ⟨c, hc, ?_, Nat.lt_succ_of_lt hcN⟩, ?_, hh, hn, hre, hrs⟩
  · change Function.update _ _ _ c = _
    rw [Function.update_of_ne (by rintro rfl; exact lt_irrefl _ hcN), hcv]
  · exact hk.mono (fun _ _ => rfl) (Nat.le_succ _)

lemma mixHash (ha : Holds v st a) (P : Primitives) (sha256 : Bytes → Bytes) (data : Bytes) :
    Holds v (st.mixHash sha256 data) { a with sym := a.sym.mixHash (suite P sha256) data } :=
  { ha with h := by simp [HandshakeState.mixHash, Noise.Symmetric.mixHash, suite, ha.h] }

lemma withRe (ha : Holds v st a) (re : Bytes) :
    Holds v { st with re := some ⟨re⟩ } { a with re := some re } :=
  { ha with re := rfl }

lemma withRs (ha : Holds v st a) (rs : Bytes) :
    Holds v { st with rs := some ⟨rs⟩ } { a with rs := some rs } :=
  { ha with rs := rfl }

end Holds

theorem hkdf_run (hP : HandshakeLaws P) (sha256 : Bytes → Bytes) (pn : Bytes) (st0 : HandshakeState)
    {v : SoftwareVaultForSecureChannels} {st : HandshakeState} {a : Noise.Party UInt8}
    {d : SecretBufferHandle} {x : Bytes}
    (ha : Holds v st a) (hd : v.ephemeralBufferSecrets d = some x) (hdN : d.handle < v.nextHandle)
    (hcd : ∀ c, st.ck = some c → c.handle < d.handle) :
    ∃ st' v', Handshake.hkdf (softwareVault P) st d ⟨v, pn, st0⟩ = .ok st' ⟨v', pn, st0⟩ ∧
      Holds v' st' { a with sym := a.sym.mixKey (suite P sha256) x } := by
  obtain ⟨hs, he, ⟨c, hc, hcv, hcN⟩, hk, hh, hn, hre, hrs⟩ := ha
  obtain ⟨okm, hokm, hl⟩ := hP.hkdf a.sym.ck x
  have hcd' := hcd c hc
  obtain ⟨dn⟩ := d
  obtain ⟨cn⟩ := c
  simp only at hdN hcd' hcN
  have h1 := hkdf_apply v hcv
    (show (some (⟨dn⟩ : SecretBufferHandle)).elim (some []) v.ephemeralBufferSecrets = some x
      from hd) hokm hl
  have n1 : v.nextHandle + 1 ≠ dn := by omega
  have n2 : v.nextHandle ≠ dn := by omega
  have n3 : v.nextHandle ≠ cn := by omega
  have n4 : v.nextHandle + 1 ≠ cn := by omega
  have n5 : dn ≠ cn := by omega
  cases hkk : st.k with
  | none =>
    simp [Handshake.hkdf, Handshake.liftVault, HandshakeState.getCk, hc,
      h1, deleteSecretBuffer_apply, convertSecretBufferToAeadKey,
      HandshakeState.takeCk, Functor.map, Except.map, hkk, hl,
      aeadSecretLength, generateRandomHandle, n1, n1.symm, n2.symm, n3.symm,
      n4.symm, n5.symm, EStateM.map]
    refine ⟨hs, he, ⟨_, rfl, ?_, ?_⟩, ?_, hh, ?_, hre, hrs⟩
    all_goals simp [n2, n3, Noise.Symmetric.mixKey, suite, hokm, KeyHolds, aeadSecretLength]
  | some kh =>
    obtain ⟨kn⟩ := kh
    have hkN : kn < v.nextHandle := by
      rw [hkk] at hk
      cases hka : a.sym.k <;> simp only [hka, KeyHolds] at hk
      exact hk.2
    have n6 : v.nextHandle + 2 ≠ kn := by omega
    simp [Handshake.hkdf, Handshake.liftVault, HandshakeState.getCk, hc,
      h1, deleteSecretBuffer_apply, convertSecretBufferToAeadKey, deleteAeadSecretKey_apply,
      HandshakeState.takeCk, Functor.map, Except.map, hkk, hl,
      aeadSecretLength, generateRandomHandle, n1, n1.symm, n2.symm, n3.symm,
      n4.symm, n5.symm, EStateM.map]
    refine ⟨hs, he, ⟨_, rfl, ?_, ?_⟩, ?_, hh, ?_, hre, hrs⟩
    all_goals simp [n2, n3, n6, Noise.Symmetric.mixKey, suite, hokm, KeyHolds, aeadSecretLength]

lemma length_nonceOf (n : UInt64) : (nonceOf n).length = aesNonceLength := by
  simp [nonceOf, aesNonceLength]

lemma KeyHolds.key {v : SoftwareVaultForSecureChannels} {kh : Option AeadSecretKeyHandle}
    {key : Bytes} (h : KeyHolds v kh (some key)) :
    ∃ k, kh = some k ∧ v.ephemeralAeadSecrets k = some key := by
  cases kh <;> simp_all [KeyHolds]

theorem encryptAndHash_run (pn : Bytes) (st0 : HandshakeState) {v : SoftwareVaultForSecureChannels}
    {st : HandshakeState} {a : Noise.Party UInt8} {p c : Bytes} {σ : Noise.Symmetric UInt8}
    (ha : Holds v st a) (hw : a.sym.encryptAndHash (suite P sha256) p = some (c, σ)) :
    ∃ st', Handshake.encryptAndHash (softwareVault P) sha256 st p ⟨v, pn, st0⟩ =
      .ok (c, st') ⟨v, pn, st0⟩ ∧ Holds v st' { a with sym := σ } := by
  obtain ⟨key, hkey⟩ : ∃ key, a.sym.k = some key := by
    cases hk : a.sym.k <;> simp_all [Noise.Symmetric.encryptAndHash]
  obtain ⟨kh, hkh, hkv⟩ := (hkey ▸ ha.k).key
  rw [Noise.Symmetric.encryptAndHash_of_key hkey] at hw
  obtain ⟨rfl, rfl⟩ := Prod.mk.inj (Option.some.inj hw)
  refine ⟨{ st.mixHash sha256 ((suite P sha256).encrypt key a.sym.n a.sym.h p) with n := st.n + 1 },
    ?_, { ha with h := ?_, n := ?_ }⟩
  · simp [Handshake.encryptAndHash, Handshake.liftVault, HandshakeState.getK, hkh,
      aeadEncrypt_apply v hkv p _ _ (length_nonceOf _), ha.h, ha.n, suite, HandshakeState.mixHash]
  · simp [HandshakeState.mixHash, Noise.Symmetric.mixHash, suite, ha.h, ha.n]
  · simp [ha.n]

theorem hashAndDecrypt_run (pn : Bytes) (st0 : HandshakeState) {v : SoftwareVaultForSecureChannels}
    {st : HandshakeState} {a : Noise.Party UInt8} {p c : Bytes} {σ : Noise.Symmetric UInt8}
    (ha : Holds v st a) (hw : a.sym.decryptAndHash (suite P sha256) c = some (p, σ)) :
    ∃ st', Handshake.hashAndDecrypt (softwareVault P) sha256 st c ⟨v, pn, st0⟩ =
      .ok (p, st') ⟨v, pn, st0⟩ ∧ Holds v st' { a with sym := σ } := by
  obtain ⟨key, hkey⟩ : ∃ key, a.sym.k = some key := by
    cases hk : a.sym.k <;> simp_all [Noise.Symmetric.decryptAndHash]
  obtain ⟨kh, hkh, hkv⟩ := (hkey ▸ ha.k).key
  obtain ⟨hdec, rfl⟩ : P.aesGcmDecrypt key (nonceOf a.sym.n) a.sym.h c = some p ∧
      σ = { a.sym.mixHash (suite P sha256) c with n := a.sym.n + 1 } := by
    cases hd : P.aesGcmDecrypt key (nonceOf a.sym.n) a.sym.h c <;>
      simp_all [Noise.Symmetric.decryptAndHash, suite, eq_comm]
  refine ⟨{ st.mixHash sha256 c with n := st.n + 1 }, ?_, { ha with h := ?_, n := ?_ }⟩
  · simp [Handshake.hashAndDecrypt, Handshake.liftVault, HandshakeState.getK, hkh,
      aeadDecrypt_apply v hkv c _ _ (length_nonceOf _), ha.h, ha.n, hdec, HandshakeState.mixHash]
  · simp [HandshakeState.mixHash, Noise.Symmetric.mixHash, suite, ha.h, ha.n]
  · simp [ha.n]

/-! The steps of `Handshake`, each computing its step of the XX pattern. -/

/-- The abstract party after `Handshake::new`: `ck` is the protocol name and `h` its hash. -/
def initialParty (sha256 : Bytes → Bytes) (s e : Bytes) : Noise.Party UInt8 :=
  ⟨s, e, ⟨protocolName, none, sha256 protocolName, 0⟩, none, none⟩

lemma Holds.ephemeral {v : SoftwareVaultForSecureChannels} {st : HandshakeState}
    {a : Noise.Party UInt8} (ha : Holds v st a) :
    ∃ h, st.e = some h ∧ (v.ephemeralX25519Secrets h).or (v.staticX25519Secrets h) = some a.e := by
  obtain ⟨h, hh, hv⟩ := ha.e
  exact ⟨h, hh, by simp [hv]⟩

theorem initializeHandshake_run (P : Primitives) (sha256 : Bytes → Bytes) {v : SoftwareVaultForSecureChannels} {sh eh : X25519SecretKeyHandle}
    {s e : Bytes} (hs : (v.ephemeralX25519Secrets sh).or (v.staticX25519Secrets sh) = some s)
    (he : v.ephemeralX25519Secrets eh = some e) :
    ∃ hs', Handshake.initializeHandshake (softwareVault P) sha256 (Handshake.new v sh eh) = .ok () hs' ∧
      Holds hs'.vault hs'.state (initialParty sha256 s e) := by
  refine ⟨_, rfl, ⟨sh, rfl, ?_⟩, ⟨eh, rfl, ?_⟩, ⟨_, rfl, ?_, ?_⟩, trivial, rfl, rfl, rfl, rfl⟩ <;>
    simp [Handshake.new, HandshakeState.new, initialParty, hs, he]

theorem encodeMessage1_run (sha256 : Bytes → Bytes) {hs : Handshake SoftwareVaultForSecureChannels} {a : Noise.Party UInt8}
    (ha : Holds hs.vault hs.state a) (p : Bytes) (hlen : x25519PublicKeyLength + p.length ≤ noiseMaxMessageSize)
    (hP : HandshakeLaws P) :
    ∃ hs', Handshake.encodeMessage1 (softwareVault P) sha256 p hs =
        .ok (a.writeMessage1 (suite P sha256) p).1 hs' ∧
      Holds hs'.vault hs'.state (a.writeMessage1 (suite P sha256) p).2 := by
  obtain ⟨eh, heh, hev⟩ := ha.ephemeral
  refine ⟨⟨hs.vault, hs.protocolName, (hs.state.mixHash sha256 (P.x25519PublicKey a.e)).mixHash
    sha256 p⟩, ?_, (ha.mixHash P sha256 (P.x25519PublicKey a.e)).mixHash P sha256 p⟩
  simp [Handshake.encodeMessage1, Handshake.getPublicKey, Handshake.liftVault, HandshakeState.getE, heh,
    getX25519PublicKey_apply _ hev, Handshake.setState, hP.length_publicKey, Noise.Party.writeMessage1,
    suite, show ¬ noiseMaxMessageSize < x25519PublicKeyLength + p.length by omega]

theorem decodeMessage1_run (P : Primitives) (sha256 : Bytes → Bytes) {hs : Handshake SoftwareVaultForSecureChannels} {a : Noise.Party UInt8}
    (ha : Holds hs.vault hs.state a) {m : Bytes} (hlen : m.length ≤ noiseMaxMessageSize)
    (hkey : x25519PublicKeyLength ≤ m.length) :
    ∃ hs', (Handshake.decodeMessage1 sha256 m : Handshake.M _ Bytes) hs =
        .ok (a.readMessage1 (suite P sha256) m).1 hs' ∧
      Holds hs'.vault hs'.state (a.readMessage1 (suite P sha256) m).2 := by
  have h1 : Holds hs.vault { hs.state.mixHash sha256 (m.take 32) with re := some ⟨m.take 32⟩ }
      { a with sym := a.sym.mixHash (suite P sha256) (m.take 32), re := some (m.take 32) } :=
    { ha.mixHash P sha256 (m.take 32) with re := rfl }
  refine ⟨⟨hs.vault, hs.protocolName, { hs.state.mixHash sha256 (m.take 32) with
    re := some ⟨m.take 32⟩ }.mixHash sha256 (m.drop 32)⟩, ?_, h1.mixHash P sha256 (m.drop 32)⟩
  have hk : 32 ≤ m.length := hkey
  simp [Handshake.decodeMessage1, Handshake.setState, readKey, readStart, readMessage1Payload,
    readEnd, x25519PublicKeyLength, sliceTo_of_le hk, sliceFrom_of_le hk, Noise.Party.readMessage1,
    suite, show ¬ noiseMaxMessageSize < m.length by omega]

theorem encodeMessage2_run (hP : HandshakeLaws P) {v : SoftwareVaultForSecureChannels}
    {pn : Bytes} {st : HandshakeState} {a a' : Noise.Party UInt8} (ha : Holds v st a) {re : Bytes}
    (hre : a.re = some re) {p m : Bytes} (hw : a.writeMessage2 (suite P sha256) p = some (m, a'))
    (hlen : m.length ≤ noiseMaxMessageSize) :
    ∃ hs', Handshake.encodeMessage2 (softwareVault P) sha256 p ⟨v, pn, st⟩ = .ok m hs' ∧
      Holds hs'.vault hs'.state a' := by
  -- the abstract steps
  set σa := (a.sym.mixHash (suite P sha256) (P.x25519PublicKey a.e)).mixKey (suite P sha256)
    (P.x25519 a.e re) with hσa
  obtain ⟨c1, σb, h1⟩ :
      ∃ c1 σb, σa.encryptAndHash (suite P sha256) (P.x25519PublicKey a.s) = some (c1, σb) :=
    ⟨_, _, Noise.Symmetric.encryptAndHash_of_key (Noise.Symmetric.k_mixKey _ _) _⟩
  set σc := σb.mixKey (suite P sha256) (P.x25519 a.s re) with hσc
  obtain ⟨c2, σd, h2⟩ : ∃ c2 σd, σc.encryptAndHash (suite P sha256) p = some (c2, σd) :=
    ⟨_, _, Noise.Symmetric.encryptAndHash_of_key (Noise.Symmetric.k_mixKey _ _) _⟩
  obtain ⟨rfl, rfl⟩ : m = P.x25519PublicKey a.e ++ c1 ++ c2 ∧ a' = { a with sym := σd } := by
    simp only [Noise.Party.writeMessage2, hre, Option.pure_def, Option.bind_eq_bind,
      Option.bind_some, suite_publicKey, suite_dh, ← hσa, h1, ← hσc, h2, Option.some.injEq,
      Prod.mk.injEq] at hw
    exact ⟨hw.1.symm, by rw [← hw.2, hre]⟩
  -- the concrete steps
  obtain ⟨eh, heh, hev⟩ := ha.ephemeral
  have hst_re : st.re = some ⟨re⟩ := by simp [ha.re, hre]
  have ha1 := ha.mixHash P sha256 (P.x25519PublicKey a.e)
  obtain ⟨st2, v2, hrun2, ha2⟩ := hkdf_run hP sha256 pn st (ha1.importBuffer (P.x25519 a.e re))
    (Function.update_self _ _ _) (Nat.lt_succ_self _) (by obtain ⟨c, hc, -, hcN⟩ := ha1.ck; simp_all)
  obtain ⟨sh, hsh, hsv⟩ := ha2.s
  obtain ⟨st3, hrun3, ha3⟩ := encryptAndHash_run pn st ha2 h1
  obtain ⟨sh', hsh', hsv'⟩ := ha3.s
  have hre3 : st3.re = some ⟨re⟩ := by simp [ha3.re, hre]
  obtain ⟨st4, v4, hrun4, ha4⟩ := hkdf_run hP sha256 pn st (ha3.importBuffer (P.x25519 a.s re))
    (Function.update_self _ _ _) (Nat.lt_succ_self _) (by obtain ⟨c, hc, -, hcN⟩ := ha3.ck; simp_all)
  obtain ⟨st5, hrun5, ha5⟩ := encryptAndHash_run pn st ha4 h2
  have hl : ¬ noiseMaxMessageSize < (P.x25519PublicKey a.e).length + (c1.length + c2.length) := by
    simp only [List.length_append] at hlen; omega
  refine ⟨⟨v4, pn, st5⟩, ?_, ha5⟩
  simp [Handshake.encodeMessage2, Handshake.getPublicKey, Handshake.dh, Handshake.liftVault,
    HandshakeState.getE, HandshakeState.getS, HandshakeState.getRe, heh, hst_re,
    getX25519PublicKey_apply _ hev, x25519Ecdh_apply _ hev, hrun2, hsh,
    getX25519PublicKey_apply _ hsv, hrun3, hsh', hre3, x25519Ecdh_apply _ hsv', hrun4, hrun5,
    Handshake.setState, hl]

theorem decodeMessage2_run (hP : HandshakeLaws P) {v : SoftwareVaultForSecureChannels}
    {pn : Bytes} {st : HandshakeState} {a a' : Noise.Party UInt8} (ha : Holds v st a) {m p : Bytes}
    (hr : a.readMessage2 (suite P sha256) m = some (p, a')) (hlen : m.length ≤ noiseMaxMessageSize)
    (hm : 2 * x25519PublicKeyLength + aesGcmTagsize ≤ m.length) :
    ∃ hs', Handshake.decodeMessage2 (softwareVault P) sha256 m ⟨v, pn, st⟩ = .ok p hs' ∧
      Holds hs'.vault hs'.state a' := by
  obtain ⟨rs, σb, σd, h1, hrs, h2, rfl⟩ := Noise.Party.readMessage2_eq_some hr
  simp only [suite_dhLen, suite_tagLen, suite_dh, x25519PublicKeyLength, aesGcmTagsize,
    Nat.reduceAdd, Nat.reduceMul] at h1 hrs h2
  -- the concrete steps; `e` is known, also inside the records the steps build
  obtain ⟨sH, eH, kH, reH, rsH, nH, hH, ckH, statusH⟩ := st
  obtain ⟨eh, rfl, hev⟩ := ha.ephemeral
  have ha1 := (ha.withRe (m.take 32)).mixHash P sha256 (m.take 32)
  obtain ⟨st2, v2, hrun2, ha2⟩ := hkdf_run hP sha256 pn ⟨sH, some eh, kH, reH, rsH, nH, hH, ckH, statusH⟩ (ha1.importBuffer (P.x25519 a.e (m.take 32)))
    (Function.update_self _ _ _) (Nat.lt_succ_self _) (by obtain ⟨c, hc, -, hcN⟩ := ha1.ck; simp_all)
  obtain ⟨st3, hrun3, ha3⟩ := hashAndDecrypt_run pn ⟨sH, some eh, kH, reH, rsH, nH, hH, ckH, statusH⟩ ha2 h1
  have ha3' := ha3.withRs rs
  obtain ⟨eh', heh', hev'⟩ := ha3'.ephemeral
  obtain ⟨st4, v4, hrun4, ha4⟩ := hkdf_run hP sha256 pn ⟨sH, some eh, kH, reH, rsH, nH, hH, ckH, statusH⟩ (ha3'.importBuffer (P.x25519 a.e rs))
    (Function.update_self _ _ _) (Nat.lt_succ_self _) (by obtain ⟨c, hc, -, hcN⟩ := ha3'.ck; simp_all)
  obtain ⟨st5, hrun5, ha5⟩ := hashAndDecrypt_run pn ⟨sH, some eh, kH, reH, rsH, nH, hH, ckH, statusH⟩ ha4 h2
  have heh3 : st3.e = some eh' := heh'
  simp only [heh3] at hrun4
  have hk : 32 ≤ m.length := by simp only [x25519PublicKeyLength, aesGcmTagsize] at hm; omega
  have hk' : 80 ≤ m.length := by simp only [x25519PublicKeyLength, aesGcmTagsize] at hm; omega
  refine ⟨⟨v4, pn, st5⟩, ?_, ha5⟩
  simp [Handshake.decodeMessage2, Handshake.dh, Handshake.liftVault, Handshake.setState,
    HandshakeState.getE, HandshakeState.getRe, HandshakeState.getRs, readKey, readStart,
    readMessage2EncryptedKey, readMiddle, readMessage2Payload, readEnd, x25519PublicKeyLength,
    aesGcmTagsize, sliceTo_of_le hk, sliceRange_of_le (by omega : 32 ≤ 32 + 48) (by omega : 32 + 48 ≤ m.length),
    sliceFrom_of_le hk', show ¬ noiseMaxMessageSize < m.length by omega, x25519Ecdh_apply _ hev,
    hrun2, hrun3, hrs, heh3, x25519Ecdh_apply _ hev', hrun4, hrun5]

theorem encodeMessage3_run (hP : HandshakeLaws P) {v : SoftwareVaultForSecureChannels}
    {pn : Bytes} {st : HandshakeState} {a a' : Noise.Party UInt8} (ha : Holds v st a) {re : Bytes}
    (hre : a.re = some re) {p m : Bytes} (hw : a.writeMessage3 (suite P sha256) p = some (m, a'))
    (hlen : m.length ≤ noiseMaxMessageSize) :
    ∃ hs', Handshake.encodeMessage3 (softwareVault P) sha256 p ⟨v, pn, st⟩ = .ok m hs' ∧
      Holds hs'.vault hs'.state a' := by
  -- the abstract steps
  obtain ⟨c1, σb, h1⟩ : ∃ c1 σb, a.sym.encryptAndHash (suite P sha256) (P.x25519PublicKey a.s) =
      some (c1, σb) := by
    cases h1 : a.sym.encryptAndHash (suite P sha256) (P.x25519PublicKey a.s) with
    | none => simp [Noise.Party.writeMessage3, hre, h1] at hw
    | some r => exact ⟨r.1, r.2, rfl⟩
  set σc := σb.mixKey (suite P sha256) (P.x25519 a.s re) with hσc
  obtain ⟨c2, σd, h2⟩ : ∃ c2 σd, σc.encryptAndHash (suite P sha256) p = some (c2, σd) :=
    ⟨_, _, Noise.Symmetric.encryptAndHash_of_key (Noise.Symmetric.k_mixKey _ _) _⟩
  obtain ⟨rfl, rfl⟩ : m = c1 ++ c2 ∧ a' = { a with sym := σd } := by
    simp only [Noise.Party.writeMessage3, hre, Option.pure_def, Option.bind_eq_bind,
      Option.bind_some, suite_publicKey, suite_dh, h1, ← hσc, h2, Option.some.injEq,
      Prod.mk.injEq] at hw
    exact ⟨hw.1.symm, by rw [← hw.2, ← hre]⟩
  -- the concrete steps
  obtain ⟨sh, hsh, hsv⟩ := ha.s
  obtain ⟨st2, hrun2, ha2⟩ := encryptAndHash_run pn st ha h1
  obtain ⟨sh', hsh', hsv'⟩ := ha2.s
  have hre2 : st2.re = some ⟨re⟩ := by simp [ha2.re, hre]
  obtain ⟨st3, v3, hrun3, ha3⟩ := hkdf_run hP sha256 pn st (ha2.importBuffer (P.x25519 a.s re))
    (Function.update_self _ _ _) (Nat.lt_succ_self _) (by obtain ⟨c, hc, -, hcN⟩ := ha2.ck; simp_all)
  obtain ⟨st4, hrun4, ha4⟩ := encryptAndHash_run pn st ha3 h2
  have hl : ¬ noiseMaxMessageSize < c1.length + c2.length := by
    simp only [List.length_append] at hlen; omega
  refine ⟨⟨v3, pn, st4⟩, ?_, ha4⟩
  simp [Handshake.encodeMessage3, Handshake.getPublicKey, Handshake.dh, Handshake.liftVault,
    Handshake.setState, HandshakeState.getS, HandshakeState.getRe, hsh, getX25519PublicKey_apply _ hsv,
    hrun2, hsh', hre2, x25519Ecdh_apply _ hsv', hrun3, hrun4, hl]

theorem decodeMessage3_run (hP : HandshakeLaws P) {v : SoftwareVaultForSecureChannels}
    {pn : Bytes} {st : HandshakeState} {a a' : Noise.Party UInt8} (ha : Holds v st a) {m p : Bytes}
    (hr : a.readMessage3 (suite P sha256) m = some (p, a')) (hlen : m.length ≤ noiseMaxMessageSize)
    (hm : x25519PublicKeyLength + aesGcmTagsize ≤ m.length) :
    ∃ hs', Handshake.decodeMessage3 (softwareVault P) sha256 m ⟨v, pn, st⟩ = .ok p hs' ∧
      Holds hs'.vault hs'.state a' := by
  obtain ⟨rs, σb, σd, h1, hrs, h2, rfl⟩ := Noise.Party.readMessage3_eq_some hr
  simp only [suite_dhLen, suite_tagLen, suite_dh, x25519PublicKeyLength, aesGcmTagsize,
    Nat.reduceAdd] at h1 hrs h2
  obtain ⟨st2, hrun2, ha2⟩ := hashAndDecrypt_run pn st ha h1
  have ha2' := ha2.withRs rs
  obtain ⟨eh, heh, hev⟩ := ha2'.ephemeral
  obtain ⟨st3, v3, hrun3, ha3⟩ := hkdf_run hP sha256 pn st (ha2'.importBuffer (P.x25519 a.e rs))
    (Function.update_self _ _ _) (Nat.lt_succ_self _) (by obtain ⟨c, hc, -, hcN⟩ := ha2'.ck; simp_all)
  obtain ⟨st4, hrun4, ha4⟩ := hashAndDecrypt_run pn st ha3 h2
  have heh2 : st2.e = some eh := heh
  simp only [heh2] at hrun3
  have hk : 48 ≤ m.length := hm
  refine ⟨⟨v3, pn, st4⟩, ?_, ha4⟩
  simp [Handshake.decodeMessage3, Handshake.dh, Handshake.liftVault, Handshake.setState,
    HandshakeState.getE, HandshakeState.getRs, readMessage3EncryptedKey, readStart,
    readMessage3Payload, readEnd, x25519PublicKeyLength, aesGcmTagsize, sliceTo_of_le hk,
    sliceFrom_of_le hk, show ¬ noiseMaxMessageSize < m.length by omega, hrun2, hrs, heh2,
    x25519Ecdh_apply _ hev, hrun3, hrun4]

theorem setFinalState_run (hP : HandshakeLaws P) (sha256 : Bytes → Bytes) (role : Role) {v : SoftwareVaultForSecureChannels}
    {pn : Bytes} {st : HandshakeState} {a : Noise.Party UInt8} (ha : Holds v st a)
    (hk : a.sym.k.isSome) :
    ∃ hs' keys, Handshake.setFinalState (softwareVault P) role ⟨v, pn, st⟩ = .ok () hs' ∧
      hs'.state.status = .ready keys ∧ hs'.state.h = a.sym.h ∧
      hs'.state.rs = a.rs.map X25519PublicKey.mk ∧
      hs'.vault.ephemeralAeadSecrets keys.encryptionKey = some (if role.isInitiator
        then (a.sym.split (suite P sha256)).2 else (a.sym.split (suite P sha256)).1) ∧
      hs'.vault.ephemeralAeadSecrets keys.decryptionKey = some (if role.isInitiator
        then (a.sym.split (suite P sha256)).1 else (a.sym.split (suite P sha256)).2) := by
  obtain ⟨hs, ⟨eh, heh, hev⟩, ⟨c, hc, hcv, hcN⟩, hkh, hh, hn, hre, hrs⟩ := ha
  obtain ⟨key, hkey⟩ := Option.isSome_iff_exists.mp hk
  obtain ⟨kh, hkk, hkv⟩ := (hkey ▸ hkh).key
  have hkN : kh.handle < v.nextHandle := by
    rw [hkk, hkey] at hkh
    exact hkh.2
  obtain ⟨okm, hokm, hl⟩ := hP.hkdf a.sym.ck []
  have h1 := hkdf_apply v hcv (show (none : Option SecretBufferHandle).elim (some [])
    v.ephemeralBufferSecrets = some [] from rfl) hokm hl
  obtain ⟨cn⟩ := c
  obtain ⟨kn⟩ := kh
  simp only at hcN hkN
  have n1 : v.nextHandle ≠ cn := by omega
  have n2 : v.nextHandle + 1 ≠ cn := by omega
  have n3 : v.nextHandle + 2 ≠ kn := by omega
  have n4 : v.nextHandle + 2 + 1 ≠ kn := by omega
  simp [Handshake.setFinalState, Handshake.computeFinalKeys, Handshake.deleteEphemeralKeys,
    Handshake.liftVault, Handshake.setState, HandshakeState.getCk, HandshakeState.takeCk,
    HandshakeState.takeK, HandshakeState.takeE, hc, hkk, heh, h1, convertSecretBufferToAeadKey,
    deleteSecretBuffer_apply, deleteAeadSecretKey_apply, deleteEphemeralX25519SecretKey_apply,
    generateRandomHandle, Functor.map, Except.map, EStateM.map, Function.update_apply, hl,
    aeadSecretLength]
  refine ⟨hh, hrs, ?_⟩
  cases role <;> simp [Role.isInitiator, Noise.Symmetric.split, suite, hokm, aeadSecretLength,
    n3, n4]

/-- The whole handshake of an initiator with vault `vI` and a responder with vault `vR`, each
holding a static and an ephemeral key: every decode returns the payload its peer encoded, each
side learns the other's static public key, and both end with one transcript hash and mirrored
transport keys. -/
theorem handshake_agreement (hP : HandshakeLaws P) (sha256 : Bytes → Bytes)
    {vI vR : SoftwareVaultForSecureChannels} {sI eI sR eR : X25519SecretKeyHandle}
    {sIk eIk sRk eRk : Bytes}
    (hsI : (vI.ephemeralX25519Secrets sI).or (vI.staticX25519Secrets sI) = some sIk)
    (heI : vI.ephemeralX25519Secrets eI = some eIk)
    (hsR : (vR.ephemeralX25519Secrets sR).or (vR.staticX25519Secrets sR) = some sRk)
    (heR : vR.ephemeralX25519Secrets eR = some eRk) (p1 p2 p3 : Bytes)
    (hp1 : x25519PublicKeyLength + p1.length ≤ noiseMaxMessageSize)
    (hp2 : 2 * x25519PublicKeyLength + 2 * aesGcmTagsize + p2.length ≤ noiseMaxMessageSize)
    (hp3 : x25519PublicKeyLength + 2 * aesGcmTagsize + p3.length ≤ noiseMaxMessageSize) :
    ∃ (m1 m2 m3 : Bytes) (i1 i2 i3 i4 i5 r1 r2 r3 r4 r5 : Handshake SoftwareVaultForSecureChannels),
      Handshake.initializeHandshake (softwareVault P) sha256 (Handshake.new vI sI eI) = .ok () i1 ∧
      Handshake.initializeHandshake (softwareVault P) sha256 (Handshake.new vR sR eR) = .ok () r1 ∧
      Handshake.encodeMessage1 (softwareVault P) sha256 p1 i1 = .ok m1 i2 ∧
      (Handshake.decodeMessage1 sha256 m1 : Handshake.M _ Bytes) r1 = .ok p1 r2 ∧
      Handshake.encodeMessage2 (softwareVault P) sha256 p2 r2 = .ok m2 r3 ∧
      Handshake.decodeMessage2 (softwareVault P) sha256 m2 i2 = .ok p2 i3 ∧
      Handshake.encodeMessage3 (softwareVault P) sha256 p3 i3 = .ok m3 i4 ∧
      Handshake.decodeMessage3 (softwareVault P) sha256 m3 r3 = .ok p3 r4 ∧
      Handshake.setFinalState (softwareVault P) .initiator i4 = .ok () i5 ∧
      Handshake.setFinalState (softwareVault P) .responder r4 = .ok () r5 ∧
      i5.state.rs = some ⟨P.x25519PublicKey sRk⟩ ∧ r5.state.rs = some ⟨P.x25519PublicKey sIk⟩ ∧
      i5.state.h = r5.state.h ∧
      ∃ kI kR, i5.state.status = .ready kI ∧ r5.state.status = .ready kR ∧
        (∃ k, i5.vault.ephemeralAeadSecrets kI.encryptionKey = some k ∧
          r5.vault.ephemeralAeadSecrets kR.decryptionKey = some k) ∧
        (∃ k, i5.vault.ephemeralAeadSecrets kI.decryptionKey = some k ∧
          r5.vault.ephemeralAeadSecrets kR.encryptionKey = some k) := by
  have hS : (suite P sha256).Laws := suite_laws hP
  -- both parties start in the symmetric state of the protocol name
  obtain ⟨i1, hi1, hI1⟩ := initializeHandshake_run P sha256 hsI heI
  obtain ⟨r1, hr1, hR1⟩ := initializeHandshake_run P sha256 hsR heR
  set I1 := initialParty sha256 sIk eIk
  set R1 := initialParty sha256 sRk eRk
  -- message 1: `-> e`
  obtain ⟨i2, hi2, hI2⟩ := encodeMessage1_run sha256 hI1 p1 hp1 hP
  have hl1 : (I1.writeMessage1 (suite P sha256) p1).1.length = x25519PublicKeyLength + p1.length := by
    simp [Noise.Party.writeMessage1, hP.length_publicKey]
  obtain ⟨r2, hr2, hR2⟩ := decodeMessage1_run P sha256 hR1 (hl1 ▸ hp1) (by omega)
  rw [Noise.Party.readMessage1_writeMessage1 hS (show R1.sym = I1.sym from rfl)] at hr2 hR2
  set I2 := (I1.writeMessage1 (suite P sha256) p1).2
  set R2 := { R1 with sym := I2.sym, re := some ((suite P sha256).publicKey I1.e) }
  -- message 2: `<- e, ee, s, es`
  obtain ⟨m2, σR3, hw2, hkR3, hl2⟩ :=
    Noise.Party.writeMessage2_eq_some hS (show R2.re = some _ from rfl) p2
  simp only [suite_dhLen, suite_tagLen] at hl2
  obtain ⟨vR2, pnR2, stR2⟩ := r2
  obtain ⟨r3, hr3, hR3⟩ := encodeMessage2_run hP hR2 rfl hw2 (by omega)
  have hread2 := Noise.Party.readMessage2_writeMessage2 hS (show I2.sym = R2.sym from rfl) rfl hw2
  obtain ⟨vI2, pnI2, stI2⟩ := i2
  obtain ⟨i3, hi3, hI3⟩ := decodeMessage2_run hP hI2 hread2 (by omega) (by omega)
  set R3 := { R2 with sym := σR3 }
  set I3 : Noise.Party UInt8 :=
    ⟨I2.s, I2.e, σR3, some ((suite P sha256).publicKey R2.e), some ((suite P sha256).publicKey R2.s)⟩
  -- message 3: `-> s, se`
  obtain ⟨m3, σI4, hw3, hkI4, hl3⟩ :=
    Noise.Party.writeMessage3_eq_some hS (show I3.re = some _ from rfl) hkR3 p3
  simp only [suite_dhLen, suite_tagLen] at hl3
  obtain ⟨vI3, pnI3, stI3⟩ := i3
  obtain ⟨i4, hi4, hI4⟩ := encodeMessage3_run hP hI3 rfl hw3 (by omega)
  have hread3 := Noise.Party.readMessage3_writeMessage3 hS (show R3.sym = I3.sym from rfl) rfl hw3
  obtain ⟨vR3, pnR3, stR3⟩ := r3
  obtain ⟨r4, hr4, hR4⟩ := decodeMessage3_run hP hR3 hread3 (by omega) (by omega)
  -- both parties end in the symmetric state `σI4`: the same hash and the same split
  obtain ⟨vI4, pnI4, stI4⟩ := i4
  obtain ⟨i5, kI, hi5, hsI5, hhI5, hrsI5, hencI, hdecI⟩ :=
    setFinalState_run hP sha256 .initiator hI4 hkI4
  obtain ⟨vR4, pnR4, stR4⟩ := r4
  obtain ⟨r5, kR, hr5, hsR5, hhR5, hrsR5, hencR, hdecR⟩ :=
    setFinalState_run hP sha256 .responder hR4 hkI4
  refine ⟨_, _, _, _, _, _, _, _, _, _, _, _, _, hi1, hr1, hi2, hr2, hr3, hi3, hi4, hr4, hi5, hr5,
    ?_, ?_, ?_, kI, kR, hsI5, hsR5, ⟨_, hencI, ?_⟩, ⟨_, hdecI, ?_⟩⟩
  · exact hrsI5
  · exact hrsR5
  · rw [hhI5, hhR5]
  · simpa [Role.isInitiator] using hdecR
  · simpa [Role.isInitiator] using hencR

/-- Stand-ins for the primitives that keep `HandshakeLaws`: the zero-tag AEAD, a public key is
its secret cut or padded to 32 bytes, agreement adds the two public keys bytewise, and HKDF
takes the first bytes of its padded input. -/
def paddedPrimitives : Primitives :=
  { SecureChannel.zeroTagAead with
    sha256 := fun b => b.take 32
    hkdfSha256 := fun salt ikm n => some ((salt ++ ikm ++ List.replicate n 0).take n)
    x25519 := fun a pk => List.zipWith (· + ·) ((a ++ List.replicate 32 0).take 32) pk
    x25519PublicKey := fun a => (a ++ List.replicate 32 0).take 32 }

lemma paddedPrimitives_laws : HandshakeLaws paddedPrimitives where
  aead := ⟨SecureChannel.zeroTagAead_laws.1, SecureChannel.zeroTagAead_laws.2,
    SecureChannel.zeroTagAead_laws.3⟩
  dh_comm a b := by
    simp only [paddedPrimitives]
    rw [List.zipWith_comm]
    simp only [add_comm]
  length_publicKey a := by simp [paddedPrimitives, x25519PublicKeyLength]
  hkdf salt ikm := ⟨_, rfl, by simp; omega⟩

/-- A vault with the static secret `s` under handle `[0]` and the ephemeral secret `e` under
handle `[1]`. -/
def keyPairVault (s e : Bytes) : SoftwareVaultForSecureChannels :=
  ⟨fun _ => none, fun _ => none, fun h => if h = ⟨[1]⟩ then some e else none,
    fun h => if h = ⟨[0]⟩ then some s else none, 0⟩

theorem handshake_agreement_padded :
    HandshakeLaws paddedPrimitives ∧
    ∃ (m1 m2 m3 : Bytes) (i1 i2 i3 i4 i5 r1 r2 r3 r4 r5 : Handshake SoftwareVaultForSecureChannels),
      Handshake.initializeHandshake (softwareVault paddedPrimitives) paddedPrimitives.sha256
        (Handshake.new (keyPairVault [1] [2]) ⟨[0]⟩ ⟨[1]⟩) = .ok () i1 ∧
      Handshake.initializeHandshake (softwareVault paddedPrimitives) paddedPrimitives.sha256
        (Handshake.new (keyPairVault [3] [4]) ⟨[0]⟩ ⟨[1]⟩) = .ok () r1 ∧
      Handshake.encodeMessage1 (softwareVault paddedPrimitives) paddedPrimitives.sha256 [5] i1 =
        .ok m1 i2 ∧
      (Handshake.decodeMessage1 paddedPrimitives.sha256 m1 : Handshake.M _ Bytes) r1 = .ok [5] r2 ∧
      Handshake.encodeMessage2 (softwareVault paddedPrimitives) paddedPrimitives.sha256 [6] r2 =
        .ok m2 r3 ∧
      Handshake.decodeMessage2 (softwareVault paddedPrimitives) paddedPrimitives.sha256 m2 i2 =
        .ok [6] i3 ∧
      Handshake.encodeMessage3 (softwareVault paddedPrimitives) paddedPrimitives.sha256 [7] i3 =
        .ok m3 i4 ∧
      Handshake.decodeMessage3 (softwareVault paddedPrimitives) paddedPrimitives.sha256 m3 r3 =
        .ok [7] r4 ∧
      Handshake.setFinalState (softwareVault paddedPrimitives) .initiator i4 = .ok () i5 ∧
      Handshake.setFinalState (softwareVault paddedPrimitives) .responder r4 = .ok () r5 ∧
      i5.state.rs = some ⟨paddedPrimitives.x25519PublicKey [3]⟩ ∧
      r5.state.rs = some ⟨paddedPrimitives.x25519PublicKey [1]⟩ ∧
      i5.state.h = r5.state.h ∧
      ∃ kI kR, i5.state.status = .ready kI ∧ r5.state.status = .ready kR ∧
        (∃ k, i5.vault.ephemeralAeadSecrets kI.encryptionKey = some k ∧
          r5.vault.ephemeralAeadSecrets kR.decryptionKey = some k) ∧
        (∃ k, i5.vault.ephemeralAeadSecrets kI.decryptionKey = some k ∧
          r5.vault.ephemeralAeadSecrets kR.encryptionKey = some k) :=
  ⟨paddedPrimitives_laws, handshake_agreement paddedPrimitives_laws _ rfl rfl rfl rfl [5] [6] [7]
    (by decide) (by decide) (by decide)⟩

end Ockam.XX
