import Ockam.SecureChannel.Channel

/-! The encryptor's key schedule under a vault that can fail. `encrypt` advances the nonce before it
renews the key at a multiple of `KEY_RENEWAL_INTERVAL`; when the renewal fails, the nonce has moved
past the boundary and the key has not changed. No later call renews it before the next boundary:
the rest of the interval is encrypted under the key of the interval before. -/

namespace Ockam.SecureChannel

open Ockam.Vault Ockam.Lib

/-- A vault whose next `import_secret_buffer`, when armed, fails with `err`, as a call to a remote
vault can; every other call is the inner vault's. -/
def failingImport {V : Type} (err : Error) (vault : VaultForSecureChannels V) :
    VaultForSecureChannels (V × Bool) :=
  let lift {α : Type} (x : EStateM Error V α) : EStateM Error (V × Bool) α :=
    x.focus Prod.fst fun s v => (v, s.2)
  { x25519Ecdh := fun k p => lift (vault.x25519Ecdh k p)
    hash := fun b => lift (vault.hash b)
    hkdf := fun s i n => lift (vault.hkdf s i n)
    aeadEncrypt := fun k p n a => lift (vault.aeadEncrypt k p n a)
    aeadDecrypt := fun k c n a => lift (vault.aeadDecrypt k c n a)
    getX25519PublicKey := fun k => lift (vault.getX25519PublicKey k)
    deleteEphemeralX25519SecretKey := fun k => lift (vault.deleteEphemeralX25519SecretKey k)
    importSecretBuffer := fun b s =>
      if s.2 then .error err (s.1, false) else lift (vault.importSecretBuffer b) s
    deleteSecretBuffer := fun h => lift (vault.deleteSecretBuffer h)
    convertSecretBufferToAeadKey := fun h => lift (vault.convertSecretBufferToAeadKey h)
    deleteAeadSecretKey := fun k => lift (vault.deleteAeadSecretKey k) }

namespace Encryptor

variable {V : Type} (vault : VaultForSecureChannels V) (e : Encryptor V)

lemma toNat_succ_nonce (hroom : e.nonce.toNat + 1 < 2 ^ 64) :
    (e.nonce + 1).toNat = e.nonce.toNat + 1 := by
  rw [UInt64.toNat_add, UInt64.toNat_one, Nat.mod_eq_of_lt hroom]

lemma ne_u64Max_of_lt {n : UInt64} (h : n.toNat + 1 < 2 ^ 64) : n ≠ u64Max := by
  rintro rfl
  rw [toNat_u64Max] at h
  omega

/-- An encryptor at a boundary nonce whose key renewal fails: the call fails with the nonce
advanced and the key unchanged, and the next call, whose nonce is no boundary, encrypts under
that same key. -/
theorem encrypt_after_failed_rekey (payload payload' : Bytes)
    (hdue : 0 < e.nonce.toNat ∧ e.nonce.toNat % 32 = 0) (hroom : e.nonce.toNat + 2 < 2 ^ 64)
    {err : Error} {v' : V} (hfail : rekey vault e.key e.vault = .error err v') :
    encrypt vault payload e = .error err { e with nonce := e.nonce + 1, vault := v' } ∧
      encrypt vault payload' { e with nonce := e.nonce + 1, vault := v' } =
        match vault.aeadEncrypt e.key payload' (convertNonceFromU64 (e.nonce + 1)).2 [] v' with
        | .ok c v'' =>
          .ok ((convertNonceFromU64 (e.nonce + 1)).1 ++ c)
            { e with nonce := e.nonce + 1 + 1, vault := v'' }
        | .error err' v'' => .error err' { e with nonce := e.nonce + 1 + 1, vault := v'' } := by
  have hsucc := toNat_succ_nonce e (by omega)
  have hne := ne_u64Max_of_lt (n := e.nonce) (by omega)
  have hne' := ne_u64Max_of_lt (n := e.nonce + 1) (by omega)
  -- the next nonce follows a boundary, so it is none
  have hnotDue : ¬ (e.nonce + 1 > 0 ∧ (e.nonce + 1) % keyRenewalInterval = 0) := by
    rw [rekeyDue_iff, hsucc]
    omega
  refine ⟨?_, ?_⟩
  · simp [encrypt, hne, (rekeyDue_iff _).2 hdue, liftVault, hfail]
  · simp only [encrypt, EStateM.bind_apply, EStateM.get_apply, hne', if_false,
      EStateM.modify_apply, hnotDue, liftVault, EStateM.focus_apply]
    cases vault.aeadEncrypt e.key payload' (convertNonceFromU64 (e.nonce + 1)).2 [] v' <;> rfl

end Encryptor

/-- An encryptor at nonce `32` under the vault holding key `k0`, whose renewal fails once: the
encryption of nonce `33` is made under `k0`, the key of nonces `0..31`. -/
theorem encrypt_after_failed_rekey_zeroTag :
    let e : Encryptor (SV × Bool) := ⟨⟨0⟩, 32, (keyVault (List.replicate 32 7), true)⟩
    let vault := failingImport (.message "vault unavailable") (softwareVault zeroTagAead)
    Encryptor.encrypt vault [1] e =
        .error (.message "vault unavailable")
          { e with nonce := e.nonce + 1, vault := (keyVault (List.replicate 32 7), false) } ∧
      Encryptor.encrypt vault [2]
          { e with nonce := e.nonce + 1, vault := (keyVault (List.replicate 32 7), false) } =
        match vault.aeadEncrypt e.key [2] (convertNonceFromU64 (e.nonce + 1)).2 []
            (keyVault (List.replicate 32 7), false) with
        | .ok c v'' =>
          .ok ((convertNonceFromU64 (e.nonce + 1)).1 ++ c)
            { e with nonce := e.nonce + 1 + 1, vault := v'' }
        | .error err' v'' => .error err' { e with nonce := e.nonce + 1 + 1, vault := v'' } :=
  Encryptor.encrypt_after_failed_rekey _ _ [1] [2] (by decide) (by decide) rfl

end Ockam.SecureChannel
