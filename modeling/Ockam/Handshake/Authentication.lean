import Mathlib
import Ockam.Handshake.Frame
import Ockam.Handshake.StateMachine
import Ockam.Vault.SoftwareVault

/-! Authentication of the handshake: when the state machine reports a result, the peer's static key
in the handshake state is the one its identity attested, that identity was imported from the change
history it sent, and the trust policy accepted it. A run is a sequence of events, each of which may
fail. -/

namespace Ockam.XX

open Std.Do Ockam.Vault

set_option mvcgen.warning false

variable {R : Type} (ver : Verifiers R)

/-- What the other party proved about the identifier `id` and the static key `rs`. -/
inductive Attested (id : Identifier) (rs : X25519PublicKey) : Prop
  | intro {peer : IdentityAndCredentials} {identity : Identity} {r r' : R} {pk : X25519PublicKey}
      (hImport : ver.importFromChangeHistory peer.changeHistory = .ok identity)
      (hIdentifier : identity.identifier = id)
      (hAttestation : ver.verifyPurposeKeyAttestation id peer.purposeKeyAttestation r =
        .ok (.secureChannelStatic pk) r')
      (hKey : pk.key = rs.key)
      (hTrust : ver.trustPolicyCheck id = .ok true)

namespace CommonStateMachine

@[spec] theorem liftIdentities_spec {α : Type} (x : EStateM Error R α) (r0 : R) :
    ⦃fun c => ⌜c.identities = r0⌝⦄ (liftIdentities x : EStateM Error (CommonStateMachine R) α)
      ⦃post⟨fun a c => ⌜x r0 = .ok a c.identities⌝, fun _ _ => ⌜True⌝⟩⦄ := by
  rw [EStateM.triple_iff]
  rintro c rfl
  rcases hx : x c.identities with ⟨a, t⟩ | ⟨e, t⟩ <;> simp [liftIdentities, EStateM.focus, hx]

theorem trustPolicyCheck_of_verifyCredentials {id : Identifier} {credentials : List Bytes}
    {c c' : CommonStateMachine R} {u : Unit} (h : verifyCredentials ver id credentials c = .ok u c') :
    ver.trustPolicyCheck id = .ok true := by
  -- the trust policy is asked first; a failure or a refusal ends the call
  rcases ht : ver.trustPolicyCheck id with e | (_ | _)
  · simp [verifyCredentials, ht, EStateM.ofExcept] at h
  · simp [verifyCredentials, ht, EStateM.ofExcept] at h
  · rfl

@[spec] theorem verifyCredentials_spec (id : Identifier) (credentials : List Bytes) :
    ⦃fun _ => ⌜True⌝⦄ verifyCredentials ver id credentials
      ⦃post⟨fun _ _ => ⌜ver.trustPolicyCheck id = .ok true⌝, fun _ _ => ⌜True⌝⟩⦄ := by
  rw [EStateM.triple_iff]
  intro c _
  split
  · exact trustPolicyCheck_of_verifyCredentials ver ‹_›
  · trivial

@[spec] theorem verifyIdentity_spec (peer : IdentityAndCredentials) (rs : X25519PublicKey)
    (r0 : R) :
    ⦃fun c => ⌜c.identities = r0⌝⦄ verifyIdentity ver peer rs
      ⦃post⟨fun _ c => ⌜∃ id, c.theirIdentifier = some id ∧ Attested ver id rs⌝,
        fun _ _ => ⌜True⌝⟩⦄ := by
  mvcgen [verifyIdentity, EStateM.ofExcept]
  exact ⟨_, rfl, .intro ‹_› rfl ‹_› (not_not.mp ‹_›) ‹_›⟩

end CommonStateMachine

namespace StateMachine

variable {V : Type} (vault : VaultForSecureChannels V) (sha256 : Bytes → Bytes)

@[spec] theorem liftHandshake_spec {α : Type}
    {Q : PostCond α (.except Error (.arg (StateMachine V R) .pure))} (x : Handshake.M V α) :
    Triple (liftHandshake x : M V R α)
      (fun m => wp⟦x⟧ (fun a hs => Q.1 a { m with handshake := hs },
        fun e hs => Q.2.1 e { m with handshake := hs }, ()) m.handshake) Q :=
  EStateM.focus_spec x

@[spec] theorem liftCommon_spec {α : Type}
    {Q : PostCond α (.except Error (.arg (StateMachine V R) .pure))}
    (x : EStateM Error (CommonStateMachine R) α) :
    Triple (liftCommon x : M V R α)
      (fun m => wp⟦x⟧ (fun a c => Q.1 a { m with common := c },
        fun e c => Q.2.1 e { m with common := c }, ()) m.common) Q :=
  EStateM.focus_spec x

@[spec] theorem receiveIdentity_spec (payload : Bytes) (h0 : Handshake V) (ip : Option Bytes) :
    ⦃fun m => ⌜m.handshake = h0 ∧ m.identityPayload = ip⌝⦄ receiveIdentity ver payload
      ⦃post⟨fun _ m => ⌜m.handshake = h0 ∧ m.identityPayload = ip ∧
          ∃ id rs, m.common.theirIdentifier = some id ∧ h0.state.rs = some rs ∧ Attested ver id rs⌝,
        fun _ m => ⌜m.handshake = h0 ∧ m.identityPayload = ip⌝⟩⦄ := by
  mvcgen [receiveIdentity, EStateM.ofExcept]
  all_goals simp_all [HandshakeState.getRs, HandshakeState.expect_eq_ok]

@[spec] theorem takeIdentityPayload_spec (h0 : Handshake V) (c : CommonStateMachine R) :
    ⦃fun m => ⌜m.handshake = h0 ∧ m.common = c⌝⦄ (takeIdentityPayload : M V R Bytes)
      ⦃post⟨fun _ m => ⌜m.handshake = h0 ∧ m.common = c⌝,
        fun _ m => ⌜m.handshake = h0 ∧ m.common = c⌝⟩⦄ := by
  mvcgen [takeIdentityPayload]

/-- The identifier recorded in the common state and the key `rs` recorded in the handshake were
attested together. -/
def Bound (m : StateMachine V R) : Prop :=
  ∃ id rs, m.common.theirIdentifier = some id ∧ m.handshake.state.rs = some rs ∧ Attested ver id rs

/-- The invariant of every run: a `ready` machine is bound to an attested peer. -/
def Authenticated (m : StateMachine V R) : Prop :=
  ∀ keys, m.handshake.state.status = .ready keys → Bound ver m

lemma authenticated_of_not_ready {m : StateMachine V R}
    (h : ∀ keys, m.handshake.state.status ≠ .ready keys) : Authenticated ver m :=
  fun keys hk => absurd hk (h keys)

/-! One event, on either side: from a state that is not `ready` only `set_final_state` makes it
`ready`, and it runs after `verify_identity` succeeded against the `rs` it keeps; from a `ready`
state every event is refused. -/

theorem initiatorOnEvent_spec (ev : Event) :
    ⦃fun m => ⌜Authenticated ver m⌝⦄ initiatorOnEvent vault sha256 ver ev
      ⦃post⟨fun _ m => ⌜Authenticated ver m⌝, fun _ m => ⌜Authenticated ver m⌝⟩⦄ := by
  mvcgen [initiatorOnEvent, setStatus]
  all_goals simp_all +zetaDelta [Authenticated, Bound]

theorem responderOnEvent_spec (ev : Event) :
    ⦃fun m => ⌜Authenticated ver m⌝⦄ responderOnEvent vault sha256 ver ev
      ⦃post⟨fun _ m => ⌜Authenticated ver m⌝, fun _ m => ⌜Authenticated ver m⌝⟩⦄ := by
  mvcgen [responderOnEvent, setStatus]
  all_goals simp_all +zetaDelta [Authenticated, Bound]

theorem onEvent_spec (role : Role) (ev : Event) :
    ⦃fun m => ⌜Authenticated ver m⌝⦄ onEvent vault sha256 ver role ev
      ⦃post⟨fun _ m => ⌜Authenticated ver m⌝, fun _ m => ⌜Authenticated ver m⌝⟩⦄ := by
  cases role
  · exact initiatorOnEvent_spec ver vault sha256 ev
  · exact responderOnEvent_spec ver vault sha256 ev

theorem onEvent_of_ready (role : Role) (ev : Event) {m : StateMachine V R} {keys : HandshakeKeys}
    (h : m.handshake.state.status = .ready keys) :
    ∃ e, onEvent vault sha256 ver role ev m = .error e m := by
  cases role <;> cases ev <;> simp [onEvent, initiatorOnEvent, responderOnEvent, h]

lemma getHandshakeResults_eq_some {m : StateMachine V R} {r : HandshakeResults} :
    m.getHandshakeResults = some r ↔
      m.handshake.state.status = .ready r.handshakeKeys ∧
        m.common.theirIdentifier = some r.theirIdentifier := by
  obtain ⟨keys, id⟩ := r
  rcases hs : m.handshake.state.status <;> rcases hi : m.common.theirIdentifier <;>
    simp [getHandshakeResults, CommonStateMachine.makeHandshakeResults,
      Handshake.getHandshakeKeys, hs, hi, and_comm]

theorem authenticated_run (role : Role) :
    ∀ (evs : List Event) (m : StateMachine V R), Authenticated ver m →
      ∃ actions m', evs.mapM (fun ev => (onEvent vault sha256 ver role ev).attempt) m =
        .ok actions m' ∧ Authenticated ver m' :=
  EStateM.mapM_attempt_invariant _ (onEvent_spec ver vault sha256 role)

theorem authentication_binding (role : Role) (evs : List Event) (m0 : StateMachine V R)
    (h0 : ∀ keys, m0.handshake.state.status ≠ .ready keys) :
    ∃ actions m, evs.mapM (fun ev => (onEvent vault sha256 ver role ev).attempt) m0 =
        .ok actions m ∧
      (∀ r, m.getHandshakeResults = some r →
        m.handshake.state.status = .ready r.handshakeKeys ∧
          ∃ rs, m.handshake.state.rs = some rs ∧ Attested ver r.theirIdentifier rs) ∧
      ∀ keys, m.handshake.state.status = .ready keys →
        ∀ ev, ∃ e, onEvent vault sha256 ver role ev m = .error e m := by
  obtain ⟨actions, m, hrun, hm⟩ :=
    authenticated_run ver vault sha256 role evs m0 (authenticated_of_not_ready ver h0)
  refine ⟨actions, m, hrun, fun r hr => ?_, fun keys hk ev => onEvent_of_ready ver vault sha256 role ev hk⟩
  obtain ⟨hready, hid⟩ := getHandshakeResults_eq_some.mp hr
  obtain ⟨id, rs, hid', hrs, hatt⟩ := hm _ hready
  rw [hid, Option.some_inj] at hid'
  exact ⟨hready, rs, hrs, hid' ▸ hatt⟩

end StateMachine

/-! Stand-ins for the primitives, the identities component and the vault's secrets, to run the
state machines: a zero-tag AEAD, a truncating hash and HKDF, an addition for the key agreement
(commutative, as X25519 is), and an identity payload that is the static public key itself. -/

def toyPrimitives : Primitives where
  aesGcmEncrypt _ _ _ m := m ++ List.replicate 16 0
  aesGcmDecrypt _ _ _ c :=
    if 16 ≤ c.length ∧ c.drop (c.length - 16) = List.replicate 16 0 then
      some (c.take (c.length - 16))
    else none
  sha256 b := b.take 32
  hkdfSha256 salt ikm n := some ((salt ++ ikm ++ List.replicate n 0).take n)
  x25519 a b := List.zipWith (· + ·) a b
  x25519PublicKey a := a

def toyVerifiers : Verifiers Unit where
  decodeIdentityAndCredentials payload := .ok ⟨payload, payload, []⟩
  importFromChangeHistory changeHistory := .ok ⟨changeHistory, changeHistory⟩
  updateIdentity _ := pure ()
  verifyPurposeKeyAttestation _ attestation := pure (.secureChannelStatic ⟨attestation⟩)
  trustPolicyCheck _ := .ok true
  receivePresentedCredential _ _ _ := pure ()

/-- A vault holding the static secret `s` and the ephemeral secret `e` under themselves. -/
def toyVault (s e : Bytes) : SoftwareVaultForSecureChannels :=
  ⟨fun _ => none, fun _ => none, fun h => if h = ⟨e⟩ then some e else none,
    fun h => if h = ⟨s⟩ then some s else none, 0⟩

def toyMachine (s e : Bytes) : StateMachine SoftwareVaultForSecureChannels Unit :=
  ⟨⟨(), none, none⟩, Handshake.new (toyVault s e) ⟨s⟩ ⟨e⟩, some s⟩

theorem authentication_binding_toy :
    (∀ keys, (toyMachine [1] [2]).handshake.state.status ≠ .ready keys) ∧
    ∃ actions m, [Event.start, .receivedMessage [3]].mapM (fun ev =>
        (StateMachine.onEvent (softwareVault toyPrimitives) toyPrimitives.sha256 toyVerifiers
          .initiator ev).attempt) (toyMachine [1] [2]) = .ok actions m ∧
      (∀ r, m.getHandshakeResults = some r →
        m.handshake.state.status = .ready r.handshakeKeys ∧
          ∃ rs, m.handshake.state.rs = some rs ∧ Attested toyVerifiers r.theirIdentifier rs) ∧
      ∀ keys, m.handshake.state.status = .ready keys →
        ∀ ev, ∃ e, StateMachine.onEvent (softwareVault toyPrimitives) toyPrimitives.sha256
          toyVerifiers .initiator ev m = .error e m :=
  have h0 : ∀ keys, (toyMachine [1] [2]).handshake.state.status ≠ .ready keys := by
    simp [toyMachine, Handshake.new, HandshakeState.new]
  ⟨h0, StateMachine.authentication_binding _ _ _ _ _ _ h0⟩

end Ockam.XX
