import Ockam.Elixir.XX
import Ockam.Elixir.Transport
import Ockam.Lib.Noise

/-! The Elixir XX handshake computes the abstract XX pattern of `Noise.Party`: each step of
`Protocol` takes a state holding a party of the pattern to a state holding the party the
pattern's step gives. Two endpoints set up with one prologue therefore complete with one
transcript hash and one pair of keys, each with the other's static public key and payloads. -/

namespace Ockam.Elixir

/-- What the handshake needs of the primitives: an AEAD whose ciphertext is as long as the
plaintext, X25519 agreement with 32-byte public keys, and 64 bytes out of HKDF. -/
structure Primitives.Laws (P : Primitives) : Prop where
  aead : P.aead.Laws
  length_ciphertext : ∀ k n p ad, (P.aead.encrypt k n p ad).1.length = p.length
  length_hkdfDerive : ∀ salt ikm, (P.hkdfDerive salt ikm).length = 64
  computeKey_comm : ∀ a b, P.computeKey (P.publicKey a) b = P.computeKey (P.publicKey b) a
  length_publicKey : ∀ a, (P.publicKey a).length = 32

namespace XX

/-- A key pair whose public key is the one of its private key. -/
def Keypair.Valid (P : Primitives) (kp : Keypair) : Prop :=
  kp.publicKey = P.publicKey kp.privateKey

variable {P : Primitives}

lemma Keypair.Valid.eq {kp : Keypair} (h : kp.Valid P) :
    kp = ⟨P.publicKey kp.privateKey, kp.privateKey⟩ := by
  cases kp
  simpa [Keypair.Valid] using h

/-- The cipher suite `Protocol` computes: the nonce is the counter `n`, a ciphertext that
`Crypto.aead_aes_gcm_decrypt` refuses or raises on does not decrypt. -/
def suite (P : Primitives) : Noise.Suite UInt8 where
  dhLen := 32
  tagLen := 16
  hash := P.sha256
  kdf ck ikm := ((P.hkdfDerive ck ikm).take 32, (P.hkdfDerive ck ikm).drop 32)
  encrypt k n ad p := sealed P.aead k n.toNat ad p
  decrypt k n ad c :=
    match Crypto.aeadAesGcmDecrypt P.aead (some k) n.toNat ad c with
    | .ok (.ok p) => some p
    | _ => none
  dh a pub := Crypto.dh P pub a
  publicKey := P.publicKey

@[simp] lemma suite_dhLen : (suite P).dhLen = 32 := rfl

@[simp] lemma suite_tagLen : (suite P).tagLen = 16 := rfl

@[simp] lemma suite_publicKey : (suite P).publicKey = P.publicKey := rfl

@[simp] lemma suite_dh (a pub : Bytes) : (suite P).dh a pub = Crypto.dh P pub a := rfl

lemma aeadAesGcmDecrypt_of_suite {k ad c p : Bytes} {n : UInt64}
    (h : (suite P).decrypt k n ad c = some p) :
    Crypto.aeadAesGcmDecrypt P.aead (some k) n.toNat ad c = .ok (.ok p) := by
  simp only [suite] at h
  split at h <;> simp_all

theorem suite_laws (hP : P.Laws) : (suite P).Laws where
  decrypt_encrypt k n ad p := by simp [suite, aeadAesGcmDecrypt_sealed hP.aead]
  length_encrypt k n ad p := by
    simp [suite, length_sealed hP.aead, hP.length_ciphertext]
  dh_comm a b := hP.computeKey_comm b a
  length_publicKey := hP.length_publicKey

/-- The Elixir state holds the abstract party: its key pairs are the party's secrets with their
public keys, and the symmetric state and remote keys are the party's. -/
structure Holds (P : Primitives) (st : Protocol) (a : Noise.Party UInt8) : Prop where
  s : st.s = ⟨P.publicKey a.s, a.s⟩
  e : st.e = ⟨P.publicKey a.e, a.e⟩
  ck : st.ck = a.sym.ck
  k : st.k = a.sym.k
  h : st.h = a.sym.h
  n : st.n = a.sym.n.toNat
  re : st.re = a.re
  rs : st.rs = a.rs

/-- What the pattern does not see: the prologue, the payloads and the messages still to come. -/
def Protocol.frame (st : Protocol) : Bytes × (Message → Option Bytes) × List Message :=
  (st.prologue, st.payloads, st.pendingHandshake)

variable {st : Protocol} {a : Noise.Party UInt8}

lemma Protocol.payloads_of_frame {st' : Protocol} (h : st'.frame = st.frame) :
    st'.payloads = st.payloads :=
  congrArg (fun f => f.2.1) h

lemma Holds.mixHash (ha : Holds P st a) (v : Bytes) :
    Holds P (mixHash P st v) { a with sym := a.sym.mixHash (suite P) v } :=
  { ha with h := by simp [XX.mixHash, Noise.Symmetric.mixHash, suite, ha.h] }

lemma Holds.withFrame (ha : Holds P st a) (payloads : Message → Option Bytes)
    (pending : List Message) :
    Holds P { st with payloads := payloads, pendingHandshake := pending } a :=
  ⟨ha.s, ha.e, ha.ck, ha.k, ha.h, ha.n, ha.re, ha.rs⟩

lemma mixKey_eq (hP : P.Laws) (st : Protocol) (ikm : Bytes) :
    mixKey P st ikm = pure { st with n := 0, ck := (P.hkdfDerive st.ck ikm).take 32,
                                     k := some ((P.hkdfDerive st.ck ikm).drop 32) } := by
  simp [mixKey, Crypto.hkdf, hP.length_hkdfDerive]

lemma Holds.mixKey (ha : Holds P st a) (ikm : Bytes) :
    Holds P { st with n := 0, ck := (P.hkdfDerive st.ck ikm).take 32,
                      k := some ((P.hkdfDerive st.ck ikm).drop 32) }
      { a with sym := a.sym.mixKey (suite P) ikm } :=
  { ha with
    ck := by simp [Noise.Symmetric.mixKey, suite, ha.ck]
    k := by simp [Noise.Symmetric.mixKey, suite, ha.ck]
    n := by simp [Noise.Symmetric.mixKey] }

lemma encryptAndHash_of_key {k : Bytes} (hk : st.k = some k) (p : Bytes) :
    encryptAndHash P st p = pure ({ mixHash P st (sealed P.aead k st.n st.h p) with n := st.n + 1 },
      sealed P.aead k st.n st.h p) := by
  simp [encryptAndHash, hk, ofCrypto, aeadAesGcmEncrypt_eq]
  rfl

lemma decryptAndHash_of_decrypt {c p : Bytes}
    (hd : Crypto.aeadAesGcmDecrypt P.aead st.k st.n st.h c = .ok (.ok p)) :
    decryptAndHash P st c = pure ({ mixHash P st c with n := st.n + 1 }, p) := by
  simp only [decryptAndHash, ofCrypto, hd]
  rfl

lemma toNat_add_one {n : UInt64} (h : n.toNat + 1 < 2 ^ 64) : (n + 1).toNat = n.toNat + 1 := by
  rw [UInt64.toNat_add, UInt64.toNat_one, Nat.mod_eq_of_lt h]

theorem encryptAndHash_run (ha : Holds P st a) (hn : st.n + 1 < 2 ^ 64) {p c : Bytes}
    {σ : Noise.Symmetric UInt8} (hw : a.sym.encryptAndHash (suite P) p = some (c, σ)) :
    ∃ st', encryptAndHash P st p = pure (st', c) ∧ Holds P st' { a with sym := σ } ∧
      st'.frame = st.frame ∧ st'.n = st.n + 1 := by
  obtain ⟨k, hk⟩ : ∃ k, a.sym.k = some k := by
    cases hk : a.sym.k <;> simp_all [Noise.Symmetric.encryptAndHash]
  rw [Noise.Symmetric.encryptAndHash_of_key hk] at hw
  obtain ⟨rfl, rfl⟩ := Prod.mk.inj (Option.some.inj hw)
  have hc : sealed P.aead k st.n st.h p = (suite P).encrypt k a.sym.n a.sym.h p := by
    simp [suite, ha.n, ha.h]
  rw [← hc]
  refine ⟨_, encryptAndHash_of_key (ha.k.trans hk) p, ?_, rfl, rfl⟩
  rw [hc]
  exact { ha.mixHash _ with n := by simp [ha.n, toNat_add_one (ha.n ▸ hn)] }

theorem decryptAndHash_run (ha : Holds P st a) (hn : st.n + 1 < 2 ^ 64) {p c : Bytes}
    {σ : Noise.Symmetric UInt8} (hr : a.sym.decryptAndHash (suite P) c = some (p, σ)) :
    ∃ st', decryptAndHash P st c = pure (st', p) ∧ Holds P st' { a with sym := σ } ∧
      st'.frame = st.frame ∧ st'.n = st.n + 1 := by
  obtain ⟨k, hk⟩ : ∃ k, a.sym.k = some k := by
    cases hk : a.sym.k <;> simp_all [Noise.Symmetric.decryptAndHash]
  cases hd : (suite P).decrypt k a.sym.n a.sym.h c with
  | none => simp [Noise.Symmetric.decryptAndHash, hk, hd] at hr
  | some q =>
    simp only [Noise.Symmetric.decryptAndHash, hk, hd, Option.bind_eq_bind, Option.bind_some,
      Option.pure_def, Option.some.injEq, Prod.mk.injEq] at hr
    obtain ⟨rfl, rfl⟩ := hr
    refine ⟨_, decryptAndHash_of_decrypt ?_, ?_, rfl, rfl⟩
    · rw [ha.k, hk, ha.n, ha.h, aeadAesGcmDecrypt_of_suite hd]
    · exact { ha.mixHash c with n := by simp [ha.n, toNat_add_one (ha.n ▸ hn)] }

theorem mixKey_run (hP : P.Laws) (ha : Holds P st a) (ikm : Bytes) :
    ∃ st', mixKey P st ikm = pure st' ∧
      Holds P st' { a with sym := a.sym.mixKey (suite P) ikm } ∧
      st'.frame = st.frame ∧ st'.n = 0 :=
  ⟨_, mixKey_eq hP st ikm, ha.mixKey ikm, rfl, rfl⟩

/-! Each message step of `Protocol` computes the pattern's step on the party its state holds. -/

theorem encode_message1_run (ha : Holds P st a) :
    ∃ st', encode P .message1 st =
        pure ((a.writeMessage1 (suite P) ((st.payloads .message1).getD [])).1, st') ∧
      Holds P st' (a.writeMessage1 (suite P) ((st.payloads .message1).getD [])).2 ∧
      st'.frame = st.frame := by
  refine ⟨_, ?_, (ha.mixHash (P.publicKey a.e)).mixHash ((st.payloads .message1).getD []), rfl⟩
  simp [encode, Noise.Party.writeMessage1, ha.e]

theorem decode_message1_run (ha : Holds P st a) {m : Bytes} (hm : 32 ≤ m.length) :
    ∃ st', decode P .message1 st m = pure ((a.readMessage1 (suite P) m).1, st') ∧
      Holds P st' (a.readMessage1 (suite P) m).2 ∧ st'.frame = st.frame := by
  refine ⟨{ mixHash P (mixHash P st (m.take 32)) (m.drop 32) with re := some (m.take 32) }, ?_,
    { (ha.mixHash (m.take 32)).mixHash (m.drop 32) with re := rfl }, rfl⟩
  simp [decode, parseMessage1, parseSplit, hm, Noise.Party.readMessage1]

theorem encode_message2_run (hP : P.Laws) (ha : Holds P st a) {re : Bytes} (hre : a.re = some re)
    {m : Bytes} {a' : Noise.Party UInt8}
    (hw : a.writeMessage2 (suite P) ((st.payloads .message2).getD []) = some (m, a')) :
    ∃ st', encode P .message2 st = pure (m, st') ∧ Holds P st' a' ∧ st'.frame = st.frame ∧
      st'.n = 1 := by
  -- the pattern's steps
  set σa := (a.sym.mixHash (suite P) (P.publicKey a.e)).mixKey (suite P) (Crypto.dh P re a.e)
    with hσa
  obtain ⟨c1, σb, h1⟩ :
      ∃ c1 σb, σa.encryptAndHash (suite P) (P.publicKey a.s) = some (c1, σb) :=
    ⟨_, _, Noise.Symmetric.encryptAndHash_of_key (Noise.Symmetric.k_mixKey _ _) _⟩
  set σc := σb.mixKey (suite P) (Crypto.dh P re a.s) with hσc
  obtain ⟨c2, σd, h2⟩ : ∃ c2 σd,
      σc.encryptAndHash (suite P) ((st.payloads .message2).getD []) = some (c2, σd) :=
    ⟨_, _, Noise.Symmetric.encryptAndHash_of_key (Noise.Symmetric.k_mixKey _ _) _⟩
  obtain ⟨rfl, rfl⟩ : m = P.publicKey a.e ++ c1 ++ c2 ∧ a' = { a with sym := σd } := by
    simp only [Noise.Party.writeMessage2, hre, Option.pure_def, Option.bind_eq_bind,
      Option.bind_some, suite_publicKey, suite_dh, ← hσa, h1, ← hσc, h2, Option.some.injEq,
      Prod.mk.injEq] at hw
    exact ⟨hw.1.symm, by rw [← hw.2, hre]⟩
  -- the Elixir steps
  obtain ⟨st2, hrun2, ha2, hf2, hn2⟩ := mixKey_run hP (ha.mixHash (P.publicKey a.e))
    (Crypto.dh P re a.e)
  obtain ⟨st3, hrun3, ha3, hf3, hn3⟩ := encryptAndHash_run ha2 (by omega) h1
  obtain ⟨st4, hrun4, ha4, hf4, hn4⟩ := mixKey_run hP ha3 (Crypto.dh P re a.s)
  obtain ⟨st5, hrun5, ha5, hf5, hn5⟩ := encryptAndHash_run ha4 (by omega) h2
  refine ⟨st5, ?_, ha5, hf5.trans (hf4.trans (hf3.trans hf2)), by omega⟩
  simp [encode, ha.e, ha.s, ha.re, hre, hrun2, hrun3, hrun4, hrun5]

theorem decode_message2_run (hP : P.Laws) (ha : Holds P st a) {m p : Bytes}
    {a' : Noise.Party UInt8} (hr : a.readMessage2 (suite P) m = some (p, a'))
    (hm : 80 ≤ m.length) :
    ∃ st', decode P .message2 st m = pure (p, st') ∧ Holds P st' a' ∧ st'.frame = st.frame ∧
      st'.n = 1 := by
  obtain ⟨rs, σb, σd, h1, -, h2, rfl⟩ := Noise.Party.readMessage2_eq_some hr
  simp only [suite_dhLen, suite_tagLen, suite_dh, Nat.reduceAdd, Nat.reduceMul] at h1 h2
  obtain ⟨st2, hrun2, ha2, hf2, hn2⟩ := mixKey_run hP (ha.mixHash (m.take 32))
    (Crypto.dh P (m.take 32) a.e)
  obtain ⟨st3, hrun3, ha3, hf3, hn3⟩ := decryptAndHash_run ha2 (by omega) h1
  obtain ⟨st4, hrun4, ha4, hf4, hn4⟩ := mixKey_run hP ha3 (Crypto.dh P rs a.e)
  obtain ⟨st5, hrun5, ha5, hf5, hn5⟩ := decryptAndHash_run ha4 (by omega) h2
  refine ⟨{ st5 with re := some (m.take 32), rs := some rs }, ?_,
    { ha5 with re := rfl, rs := rfl }, hf5.trans (hf4.trans (hf3.trans hf2)), by simp; omega⟩
  simp [decode, parseMessage2, hm, ha.e, hrun2, hrun3, hrun4, hrun5]

theorem encode_message3_run (hP : P.Laws) (ha : Holds P st a) {re : Bytes} (hre : a.re = some re)
    (hn : st.n + 1 < 2 ^ 64) {m : Bytes} {a' : Noise.Party UInt8}
    (hw : a.writeMessage3 (suite P) ((st.payloads .message3).getD []) = some (m, a')) :
    ∃ st', encode P .message3 st = pure (m, st') ∧ Holds P st' a' ∧ st'.frame = st.frame := by
  -- the pattern's steps
  obtain ⟨c1, σb, h1⟩ : ∃ c1 σb,
      a.sym.encryptAndHash (suite P) (P.publicKey a.s) = some (c1, σb) := by
    cases h1 : a.sym.encryptAndHash (suite P) (P.publicKey a.s) with
    | none => simp [Noise.Party.writeMessage3, hre, h1] at hw
    | some r => exact ⟨r.1, r.2, rfl⟩
  set σc := σb.mixKey (suite P) (Crypto.dh P re a.s) with hσc
  obtain ⟨c2, σd, h2⟩ : ∃ c2 σd,
      σc.encryptAndHash (suite P) ((st.payloads .message3).getD []) = some (c2, σd) :=
    ⟨_, _, Noise.Symmetric.encryptAndHash_of_key (Noise.Symmetric.k_mixKey _ _) _⟩
  obtain ⟨rfl, rfl⟩ : m = c1 ++ c2 ∧ a' = { a with sym := σd } := by
    simp only [Noise.Party.writeMessage3, hre, Option.pure_def, Option.bind_eq_bind,
      Option.bind_some, suite_publicKey, suite_dh, h1, ← hσc, h2, Option.some.injEq,
      Prod.mk.injEq] at hw
    exact ⟨hw.1.symm, by rw [← hw.2, hre]⟩
  -- the Elixir steps
  obtain ⟨st2, hrun2, ha2, hf2, -⟩ := encryptAndHash_run ha hn h1
  obtain ⟨st3, hrun3, ha3, hf3, hn3⟩ := mixKey_run hP ha2 (Crypto.dh P re a.s)
  obtain ⟨st4, hrun4, ha4, hf4, -⟩ := encryptAndHash_run ha3 (by omega) h2
  refine ⟨st4, ?_, ha4, hf4.trans (hf3.trans hf2)⟩
  simp [encode, ha.s, ha.re, hre, hrun2, hrun3, hrun4]

theorem decode_message3_run (hP : P.Laws) (ha : Holds P st a) (hn : st.n + 1 < 2 ^ 64)
    {m p : Bytes} {a' : Noise.Party UInt8} (hr : a.readMessage3 (suite P) m = some (p, a'))
    (hm : 48 ≤ m.length) :
    ∃ st', decode P .message3 st m = pure (p, st') ∧ Holds P st' a' ∧
      st'.frame = st.frame := by
  obtain ⟨rs, σb, σd, h1, -, h2, rfl⟩ := Noise.Party.readMessage3_eq_some hr
  simp only [suite_dhLen, suite_tagLen, suite_dh, Nat.reduceAdd] at h1 h2
  obtain ⟨st2, hrun2, ha2, hf2, -⟩ := decryptAndHash_run ha hn h1
  obtain ⟨st3, hrun3, ha3, hf3, hn3⟩ := mixKey_run hP ha2 (Crypto.dh P rs a.e)
  obtain ⟨st4, hrun4, ha4, hf4, -⟩ := decryptAndHash_run ha3 (by omega) h2
  refine ⟨{ st4 with rs := some rs }, ?_, { ha4 with rs := rfl }, hf4.trans (hf3.trans hf2)⟩
  simp [decode, parseMessage3, parseSplit, hm, ha.e, hrun2, hrun3, hrun4]

/-! `out_payload` and `in_payload` around the message steps. -/

lemma next_of_cons {msg : Message} {rest : List Message} (h : st.pendingHandshake = msg :: rest) :
    next P st = pure (.continue st) := by
  simp [next, h]

lemma next_of_nil (hP : P.Laws) (h : st.pendingHandshake = []) :
    next P st = pure (.complete ((P.hkdfDerive st.ck []).take 32)
      ((P.hkdfDerive st.ck []).drop 32) st.h st.rs st.payloads) := by
  simp [next, h, Crypto.hkdf, hP.length_hkdfDerive]

lemma outPayload_eq {msg : Message} {rest : List Message} {data : Bytes} {st' : Protocol}
    {nxt : Next} (hq : st.pendingHandshake = msg :: rest)
    (he : encode P msg st = pure (data, st'))
    (hn : next P { st' with pendingHandshake := rest } = pure nxt) :
    outPayload P st = pure (data, nxt) := by
  simp [outPayload, hq, he, hn]
  rfl

lemma inPayload_eq {msg : Message} {rest : List Message} {data payload : Bytes} {st' : Protocol}
    {nxt : Next} (hq : st.pendingHandshake = msg :: rest)
    (hd : decode P msg st data = pure (payload, st'))
    (hn : next P { st' with pendingHandshake := rest,
                            payloads := Function.update st.payloads msg (some payload) } =
      pure nxt) :
    inPayload P st data = pure nxt := by
  simp [inPayload, hq, hd, hn]

/-- The party `setup` starts: no cipher key yet, the protocol name as chaining key, and the
name and prologue hashed. -/
def initialParty (P : Primitives) (s e prologue : Bytes) : Noise.Party UInt8 :=
  ⟨s, e, ⟨zeroPaddedProtocolName, none, P.sha256 (zeroPaddedProtocolName ++ prologue), 0⟩,
    none, none⟩

lemma setup_holds {staticKeypair generated : Keypair} {options : Options}
    (hs : staticKeypair.Valid P) (he : (getE options generated).Valid P) :
    Holds P (setup P staticKeypair options generated) (initialParty P staticKeypair.privateKey
      (getE options generated).privateKey (options.prologue.getD defaultPrologue)) where
  s := hs.eq
  e := he.eq
  ck := rfl
  k := rfl
  h := rfl
  n := rfl
  re := rfl
  rs := rfl

theorem handshake_runs (hP : P.Laws) {sI sR genI genR : Keypair}
    {optI optR : Options} (hsI : sI.Valid P) (hsR : sR.Valid P)
    (heI : (getE optI genI).Valid P) (heR : (getE optR genR).Valid P)
    (hpro : optI.prologue.getD defaultPrologue = optR.prologue.getD defaultPrologue) :
    ∃ (m1 m2 m3 k1 k2 h : Bytes) (i1 i2 r1 r2 : Protocol),
      outPayload P (setup P sI optI genI) = pure (m1, .continue i1) ∧
      inPayload P (setup P sR optR genR) m1 = pure (.continue r1) ∧
      outPayload P r1 = pure (m2, .continue r2) ∧
      inPayload P i1 m2 = pure (.continue i2) ∧
      outPayload P i2 = pure (m3, .complete k1 k2 h (some sR.publicKey)
        (Function.update (optI.payloads.getD defaultPayloads) .message2
          (some (((optR.payloads.getD defaultPayloads) .message2).getD [])))) ∧
      inPayload P r2 m3 = pure (.complete k1 k2 h (some sI.publicKey)
        (Function.update (Function.update (optR.payloads.getD defaultPayloads) .message1
            (some (((optI.payloads.getD defaultPayloads) .message1).getD [])))
          .message3 (some (((optI.payloads.getD defaultPayloads) .message3).getD [])))) ∧
      m1.length = 32 + ((optI.payloads.getD defaultPayloads .message1).getD []).length ∧
      m2.length = 96 + ((optR.payloads.getD defaultPayloads .message2).getD []).length ∧
      m3.length = 64 + ((optI.payloads.getD defaultPayloads .message3).getD []).length := by
  have hS := suite_laws hP
  have hI0 : Holds P (setup P sI optI genI) _ := setup_holds hsI heI
  have hR0 : Holds P (setup P sR optR genR) _ := setup_holds hsR heR
  set I0 := initialParty P sI.privateKey (getE optI genI).privateKey
    (optI.prologue.getD defaultPrologue)
  set R0 := initialParty P sR.privateKey (getE optR genR).privateKey
    (optR.prologue.getD defaultPrologue)
  -- message 1: `-> e`, read by the responder in the initiator's symmetric state
  obtain ⟨i1, he1, hI1, hfi1⟩ := encode_message1_run hI0
  simp only [setup_payloads] at he1 hI1
  have hl1 : (I0.writeMessage1 (suite P)
      ((optI.payloads.getD defaultPayloads Message.message1).getD [])).1.length =
        32 + ((optI.payloads.getD defaultPayloads Message.message1).getD []).length := by
    simp [Noise.Party.writeMessage1, hP.length_publicKey]
  obtain ⟨r1, hd1, hR1, hfr1⟩ := decode_message1_run hR0 (hl1 ▸ Nat.le_add_right 32 _)
  rw [Noise.Party.readMessage1_writeMessage1 hS
    (show R0.sym = I0.sym by simp [R0, I0, initialParty, hpro])] at hd1 hR1
  set p1 := (optI.payloads.getD defaultPayloads Message.message1).getD []
  set I1 := (I0.writeMessage1 (suite P) p1).2
  set R1 : Noise.Party UInt8 := { R0 with sym := I1.sym, re := some (P.publicKey I0.e) }
  -- message 2: `<- e, ee, s, es`
  have hR1' := hR1.withFrame (Function.update (optR.payloads.getD defaultPayloads) .message1
    (some p1)) [.message2, .message3]
  obtain ⟨m2, σR, hw2, hkR, hl2⟩ := Noise.Party.writeMessage2_eq_some hS
    (show R1.re = some (P.publicKey I0.e) from rfl)
    ((optR.payloads.getD defaultPayloads .message2).getD [])
  obtain ⟨r2, he2, hR2, hfr2, hnr2⟩ := encode_message2_run hP hR1' rfl
    (by simpa using hw2)
  have hr2 := Noise.Party.readMessage2_writeMessage2 hS (show I1.sym = R1.sym from rfl)
    (show R1.re = some (P.publicKey I1.e) from rfl) hw2
  have hI1' := hI1.withFrame i1.payloads [.message2, .message3]
  simp only [suite_dhLen, suite_tagLen] at hl2
  have hl2' : 80 ≤ m2.length := by omega
  obtain ⟨i2, hd2, hI2, hfi2, hni2⟩ := decode_message2_run hP hI1' hr2 hl2'
  set p2 := (optR.payloads.getD defaultPayloads .message2).getD []
  set I2 : Noise.Party UInt8 := { I1 with sym := σR, re := some (P.publicKey R1.e),
                                          rs := some (P.publicKey R1.s) }
  set R2 : Noise.Party UInt8 := { R1 with sym := σR }
  -- message 3: `-> s, se`
  have hI2' := hI2.withFrame (Function.update i1.payloads .message2 (some p2)) [.message3]
  obtain ⟨m3, σI, hw3, -, hl3⟩ := Noise.Party.writeMessage3_eq_some hS
    (show I2.re = some (P.publicKey R1.e) from rfl) hkR
    ((optI.payloads.getD defaultPayloads .message3).getD [])
  have hp3 : (Function.update i1.payloads .message2 (some p2) .message3).getD [] =
      (optI.payloads.getD defaultPayloads .message3).getD [] := by
    simp [Protocol.payloads_of_frame hfi1]
  obtain ⟨i3, he3, hI3, hfi3⟩ := encode_message3_run hP hI2' rfl (by simp [hni2])
    (by rw [hp3]; exact hw3)
  have hr3 := Noise.Party.readMessage3_writeMessage3 hS (show R2.sym = I2.sym from rfl)
    (show I2.re = some (P.publicKey R2.e) from rfl) hw3
  have hR2' := hR2.withFrame r2.payloads [.message3]
  simp only [suite_dhLen, suite_tagLen] at hl3
  obtain ⟨r3, hd3, hR3, hfr3⟩ := decode_message3_run hP hR2' (by simp [hnr2]) hr3 (by omega)
  -- both complete with the keys of the chaining key the initiator's last step leaves
  refine ⟨_, m2, m3, (P.hkdfDerive σI.ck []).take 32, (P.hkdfDerive σI.ck []).drop 32, σI.h,
    _, _, _, _, outPayload_eq rfl he1 (next_of_cons rfl), inPayload_eq rfl hd1 (next_of_cons rfl),
    outPayload_eq rfl he2 (next_of_cons rfl), inPayload_eq rfl hd2 (next_of_cons rfl), ?_, ?_,
    hl1, by omega, by omega⟩
  · rw [outPayload_eq rfl he3 (next_of_nil hP rfl)]
    simp [hI3.ck, hI3.h, hI3.rs, Protocol.payloads_of_frame hfi3, Protocol.payloads_of_frame hfi1,
      I2, R1, R0, initialParty, ← show sR.publicKey = P.publicKey sR.privateKey from hsR]
  · rw [inPayload_eq rfl hd3 (next_of_nil hP rfl)]
    simp [hR3.ck, hR3.h, hR3.rs, Protocol.payloads_of_frame hfr2, I2, I1, I0, initialParty,
      Noise.Party.writeMessage1, ← show sI.publicKey = P.publicKey sI.privateKey from hsI]

/-- Two endpoints set up with one prologue, the initiator sending first: every message is read
as it was written, each side completes with the other's static public key and payloads, and both
hold the same two keys and transcript hash. -/
theorem key_establishment_agreement (hP : P.Laws) {sI sR genI genR : Keypair}
    {optI optR : Options} (hsI : sI.Valid P) (hsR : sR.Valid P)
    (heI : (getE optI genI).Valid P) (heR : (getE optR genR).Valid P)
    (hpro : optI.prologue.getD defaultPrologue = optR.prologue.getD defaultPrologue) :
    ∃ (m1 m2 m3 k1 k2 h : Bytes) (i1 i2 r1 r2 : Protocol),
      outPayload P (setup P sI optI genI) = pure (m1, .continue i1) ∧
      inPayload P (setup P sR optR genR) m1 = pure (.continue r1) ∧
      outPayload P r1 = pure (m2, .continue r2) ∧
      inPayload P i1 m2 = pure (.continue i2) ∧
      outPayload P i2 = pure (m3, .complete k1 k2 h (some sR.publicKey)
        (Function.update (optI.payloads.getD defaultPayloads) .message2
          (some (((optR.payloads.getD defaultPayloads) .message2).getD [])))) ∧
      inPayload P r2 m3 = pure (.complete k1 k2 h (some sI.publicKey)
        (Function.update (Function.update (optR.payloads.getD defaultPayloads) .message1
            (some (((optI.payloads.getD defaultPayloads) .message1).getD [])))
          .message3 (some (((optI.payloads.getD defaultPayloads) .message3).getD [])))) := by
  obtain ⟨m1, m2, m3, k1, k2, h, i1, i2, r1, r2, h1, h2, h3, h4, h5, h6, -⟩ :=
    handshake_runs hP hsI hsR heI heR hpro
  exact ⟨m1, m2, m3, k1, k2, h, i1, i2, r1, r2, h1, h2, h3, h4, h5, h6⟩

/-- Primitives that meet the laws, to run the handshake: the zero-tag AEAD, a public key that
pads the private key to 32 bytes, and agreement by adding the two public keys. -/
def paddingPrimitives : Primitives where
  aead := zeroTag
  sha256 := id
  hkdfDerive salt ikm := (salt ++ ikm ++ List.replicate 64 0).take 64
  computeKey pub priv := List.zipWith (· + ·) pub ((priv ++ List.replicate 32 0).take 32)
  publicKey a := (a ++ List.replicate 32 0).take 32

lemma paddingPrimitives_laws : paddingPrimitives.Laws where
  aead := zeroTag_laws
  length_ciphertext _ _ _ _ := rfl
  length_hkdfDerive _ _ := by simp [paddingPrimitives]; omega
  computeKey_comm a b := List.zipWith_comm_of_comm (fun x y => add_comm x y)
  length_publicKey _ := by simp [paddingPrimitives]

theorem key_establishment_agreement_padding :
    ∃ (m1 m2 m3 k1 k2 h : Bytes) (i1 i2 r1 r2 : Protocol),
      outPayload paddingPrimitives (setup paddingPrimitives
          ⟨paddingPrimitives.publicKey [1], [1]⟩ ⟨none, none, none⟩
          ⟨paddingPrimitives.publicKey [2], [2]⟩) = pure (m1, .continue i1) ∧
      inPayload paddingPrimitives (setup paddingPrimitives
          ⟨paddingPrimitives.publicKey [3], [3]⟩ ⟨none, none, none⟩
          ⟨paddingPrimitives.publicKey [4], [4]⟩) m1 = pure (.continue r1) ∧
      outPayload paddingPrimitives r1 = pure (m2, .continue r2) ∧
      inPayload paddingPrimitives i1 m2 = pure (.continue i2) ∧
      outPayload paddingPrimitives i2 = pure (m3, .complete k1 k2 h
        (some (paddingPrimitives.publicKey [3]))
        (Function.update defaultPayloads .message2
          (some ((defaultPayloads .message2).getD [])))) ∧
      inPayload paddingPrimitives r2 m3 = pure (.complete k1 k2 h
        (some (paddingPrimitives.publicKey [1]))
        (Function.update (Function.update defaultPayloads .message1
            (some ((defaultPayloads .message1).getD [])))
          .message3 (some ((defaultPayloads .message3).getD [])))) :=
  key_establishment_agreement paddingPrimitives_laws rfl rfl rfl rfl rfl

end XX

end Ockam.Elixir
