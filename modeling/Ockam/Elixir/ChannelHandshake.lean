import Ockam.Elixir.Channel
import Ockam.Elixir.XXAgreement

/-! The Elixir secure channel process while it handshakes (`Ockam.SecureChannel.Channel`): each side
answers every XX message with its next one until the handshake completes, then checks the peer's
identity proof and splits the keys. The identity checks and `:bare` are parameters. -/

namespace Ockam.Elixir

inductive Role where
  | initiator
  | responder
  deriving DecidableEq, Repr

/-- `%Handshaking{}` with its XX state, or `%Established{}` with the transcript hash and the
peer's identity and identifier. -/
inductive ChannelState (Ident : Type) where
  | handshaking (xx : XX.Protocol)
  | established (e : Established) (h : Bytes) (peerIdentity : Ident) (peerIdentityId : Bytes)

structure Channel (Ident : Type) where
  role : Role
  channelState : ChannelState Ident

inductive ChannelError (R : Type) where
  | invalidBareData
  | xx (reason : XX.Error)
  /-- the peer's proof is missing (`none`), or a check refused it -/
  | rejectedIdentityProof (error : Option R)

namespace Channel

variable {Ident R : Type} (B : Bare) (P : Primitives)
  (verifyIdentityProof : Bytes → Option Bytes → Except R (Ident × Bytes))

/-- `noise_payloads`: the identity proof goes in message 3 from the initiator and in message 2
from the responder. -/
def noisePayloads : Role → Bytes → XX.Message → Option Bytes
  | .initiator, idProof => fun msg => if msg = .message3 then some idProof else none
  | .responder, idProof => fun msg => if msg = .message2 then some idProof else none

/-- `setup_noise_key_exchange`, with the encoded identity proof and the ephemeral key pair that
`XX.setup` draws. -/
def setupNoiseKeyExchange (staticKeypair : XX.Keypair) (role : Role) (encodedProof : Bytes)
    (generated : XX.Keypair) : XX.Protocol :=
  XX.setup P staticKeypair ⟨none, none, some (noisePayloads role encodedProof)⟩ generated

def split (k1 k2 : Bytes) : Role → Encryptor × Decryptor
  | .initiator => (Encryptor.new k2 0, Decryptor.new k1 0)
  | .responder => (Encryptor.new k1 0, Decryptor.new k2 0)

/-- The message whose payload is the peer's identity proof. -/
def peerProofMsg : Role → XX.Message
  | .initiator => .message2
  | .responder => .message3

/-- `next_handshake_state`. `verifyIdentityProof` stands for `IdentityProof.decode`,
`Identity.validate_contact_data`, `Identity.verify_purpose_key_attestation` against `rs`,
`check_trust` and `process_credentials`, giving the peer's identity and identifier. -/
def nextHandshakeState (next : XX.Next) (state : Channel Ident) :
    Except Exception (Except (ChannelError R) (Channel Ident)) :=
  match next, state.channelState with
  | .continue xx, .handshaking _ => pure (.ok { state with channelState := .handshaking xx })
  | .continue _, .established .. => throw .functionClauseError
  | .complete k1 k2 h rs payloads, _ =>
    match payloads (peerProofMsg state.role) with
    | none => pure (.error (.rejectedIdentityProof none))
    | some peerProofData =>
      match verifyIdentityProof peerProofData rs with
      | .error reason => pure (.error (.rejectedIdentityProof (some reason)))
      | .ok (peer, peerIdentityId) =>
        let (encryptSt, decryptSt) := split k1 k2 state.role
        pure (.ok { state with
          channelState := .established ⟨encryptSt, decryptSt⟩ h peer peerIdentityId })

/-- `continue_handshake`: the XX message out, if there is one, `:bare`-encoded to the peer. -/
def continueHandshake (next : XX.Next) (state : Channel Ident) :
    Except Exception (List Bytes × Except (ChannelError R) (Channel Ident)) :=
  match next with
  | .complete .. => do
    let r ← nextHandshakeState verifyIdentityProof next state
    pure ([], r)
  | .continue keyExchangeState => do
    match ← (XX.outPayload P keyExchangeState).run with
    | .ok (data, nxt) => do
      let r ← nextHandshakeState verifyIdentityProof nxt state
      pure ([B.encodeData data], r)
    | .error reason => pure ([], .error (.xx reason))

/-- The clause of `handle_inner_message_impl` for a channel that handshakes; an established
channel takes the other clause, `handleInnerMessageImpl`. -/
def handleInnerMessageImplHandshaking (payload : Bytes) (role : Role) (xx : XX.Protocol) :
    Except Exception (List Bytes × Except (ChannelError R) (Channel Ident)) :=
  match bareDecodeStrict B payload with
  | .error _ => pure ([], .error .invalidBareData)
  | .ok data => do
    match ← (XX.inPayload P xx data).run with
    | .ok next => continueHandshake B P verifyIdentityProof next ⟨role, .handshaking xx⟩
    | .error reason => pure ([], .error (.xx reason))

/-- `complete_inner_setup`: the initiator starts the handshake, the responder handles the
`init_message` it was spawned with. -/
def completeInnerSetup (role : Role) (xx : XX.Protocol) (initMessage : Bytes) :
    Except Exception (List Bytes × Except (ChannelError R) (Channel Ident)) :=
  match role with
  | .initiator =>
    continueHandshake B P verifyIdentityProof (.continue xx) ⟨.initiator, .handshaking xx⟩
  | .responder => handleInnerMessageImplHandshaking B P verifyIdentityProof initMessage .responder xx

variable {B P verifyIdentityProof}

/-! The steps of a channel, each once the XX step it makes is known. -/

lemma nextHandshakeState_continue {state : Channel Ident} {xx xx' : XX.Protocol}
    (hs : state.channelState = .handshaking xx') :
    nextHandshakeState verifyIdentityProof (.continue xx) state =
      pure (.ok { state with channelState := .handshaking xx }) := by
  simp [nextHandshakeState, hs]

lemma nextHandshakeState_complete {state : Channel Ident} {k1 k2 h peerProofData : Bytes}
    {rs : Option Bytes} {payloads : XX.Message → Option Bytes} {peer : Ident} {peerId : Bytes}
    (hp : payloads (peerProofMsg state.role) = some peerProofData)
    (hv : verifyIdentityProof peerProofData rs = .ok (peer, peerId)) :
    nextHandshakeState verifyIdentityProof (.complete k1 k2 h rs payloads) state =
      pure (.ok { state with
        channelState := .established ⟨(split k1 k2 state.role).1, (split k1 k2 state.role).2⟩ h
          peer peerId }) := by
  simp [nextHandshakeState, hp, hv]

lemma continueHandshake_continue {state : Channel Ident} {xx : XX.Protocol} {data : Bytes}
    {nxt : XX.Next} {r : Except (ChannelError R) (Channel Ident)}
    (hout : XX.outPayload P xx = pure (data, nxt))
    (hn : nextHandshakeState verifyIdentityProof nxt state = pure r) :
    continueHandshake B P verifyIdentityProof (.continue xx) state =
      pure ([B.encodeData data], r) := by
  simp [continueHandshake, hout, hn]

lemma continueHandshake_complete {state : Channel Ident} {k1 k2 h : Bytes} {rs : Option Bytes}
    {payloads : XX.Message → Option Bytes} {r : Except (ChannelError R) (Channel Ident)}
    (hn : nextHandshakeState verifyIdentityProof (.complete k1 k2 h rs payloads) state = pure r) :
    continueHandshake B P verifyIdentityProof (.complete k1 k2 h rs payloads) state =
      pure ([], r) := by
  simp [continueHandshake, hn]

lemma handleInnerMessageImplHandshaking_eq (hB : B.Laws) {role : Role} {xx : XX.Protocol}
    {data : Bytes} {next : XX.Next} (hb : data.length < 2 ^ 64)
    (hin : XX.inPayload P xx data = pure next) :
    handleInnerMessageImplHandshaking B P verifyIdentityProof (B.encodeData data) role xx =
      continueHandshake B P verifyIdentityProof next ⟨role, .handshaking xx⟩ := by
  simp [handleInnerMessageImplHandshaking, bareDecodeStrict_encodeData hB hb, hin]

/-- An initiator and a responder, each with a valid static and ephemeral key pair and an identity
proof, whose checks accept the other's proof with the other's static key: the initiator's setup
sends message 1, the responder set up with it answers message 2, the initiator answers that with
message 3 and is established, and the responder is established on message 3 without answering.
Each side encrypts under the key the other decrypts under, and both hold one transcript hash. -/
theorem channel_establishment (hB : B.Laws) (hP : P.Laws) {sI sR gI gR : XX.Keypair} (hsI : sI.Valid P)
    (hsR : sR.Valid P) (hgI : gI.Valid P) (hgR : gR.Valid P) {proofI proofR : Bytes}
    (hlI : proofI.length + 64 < 2 ^ 64) (hlR : proofR.length + 96 < 2 ^ 64)
    {verifyI verifyR : Bytes → Option Bytes → Except R (Ident × Bytes)} {peerI peerR : Ident}
    {idI idR : Bytes} (hvI : verifyI proofR (some sR.publicKey) = .ok (peerR, idR))
    (hvR : verifyR proofI (some sI.publicKey) = .ok (peerI, idI)) :
    ∃ (m1 m2 m3 k1 k2 h : Bytes) (xI xR : XX.Protocol),
      completeInnerSetup B P verifyI .initiator (setupNoiseKeyExchange P sI .initiator proofI gI) [] =
        pure ([B.encodeData m1], .ok ⟨.initiator, .handshaking xI⟩) ∧
      completeInnerSetup B P verifyR .responder (setupNoiseKeyExchange P sR .responder proofR gR)
        (B.encodeData m1) = pure ([B.encodeData m2], .ok ⟨.responder, .handshaking xR⟩) ∧
      handleInnerMessageImplHandshaking B P verifyI (B.encodeData m2) .initiator xI =
        pure ([B.encodeData m3], .ok ⟨.initiator,
          .established ⟨Encryptor.new k2 0, Decryptor.new k1 0⟩ h peerR idR⟩) ∧
      handleInnerMessageImplHandshaking B P verifyR (B.encodeData m3) .responder xR =
        pure ([], .ok ⟨.responder,
          .established ⟨Encryptor.new k1 0, Decryptor.new k2 0⟩ h peerI idI⟩) := by
  obtain ⟨m1, m2, m3, k1, k2, h, i1, i2, r1, r2, hout1, hin1, hout2, hin2, hout3, hin3, hl1, hl2,
    hl3⟩ := @XX.handshake_runs P hP sI sR gI gR
      ⟨none, none, some (noisePayloads .initiator proofI)⟩
      ⟨none, none, some (noisePayloads .responder proofR)⟩ hsI hsR hgI hgR rfl
  -- the initiator's proof rides in message 3 and the responder's in message 2
  simp only [Option.getD_some, noisePayloads] at hl1 hl2 hl3 hout3 hin3
  simp at hl1 hl2 hl3
  refine ⟨m1, m2, m3, k1, k2, h, i1, r2, continueHandshake_continue hout1
    (nextHandshakeState_continue rfl), ?_, ?_, ?_⟩
  · exact (handleInnerMessageImplHandshaking_eq hB (by omega) hin1).trans
      (continueHandshake_continue hout2 (nextHandshakeState_continue rfl))
  · refine (handleInnerMessageImplHandshaking_eq hB (by omega) hin2).trans
      (continueHandshake_continue hout3 (nextHandshakeState_complete ?_ hvI))
    simp [peerProofMsg]
  · refine (handleInnerMessageImplHandshaking_eq hB (by omega) hin3).trans
      (continueHandshake_complete (nextHandshakeState_complete ?_ hvR))
    simp [peerProofMsg]

theorem channel_establishment_padding :
    ∃ (m1 m2 m3 k1 k2 h : Bytes) (xI xR : XX.Protocol),
      completeInnerSetup .leb128 XX.paddingPrimitives (fun _ _ => .ok ((), [8]) :
          Bytes → Option Bytes → Except Unit (Unit × Bytes)) .initiator
          (setupNoiseKeyExchange XX.paddingPrimitives ⟨XX.paddingPrimitives.publicKey [1], [1]⟩
            .initiator [5] ⟨XX.paddingPrimitives.publicKey [2], [2]⟩) [] =
        pure ([Bare.leb128.encodeData m1], .ok ⟨.initiator, .handshaking xI⟩) ∧
      completeInnerSetup .leb128 XX.paddingPrimitives (fun _ _ => .ok ((), [9]) :
          Bytes → Option Bytes → Except Unit (Unit × Bytes)) .responder
          (setupNoiseKeyExchange XX.paddingPrimitives ⟨XX.paddingPrimitives.publicKey [3], [3]⟩
            .responder [6] ⟨XX.paddingPrimitives.publicKey [4], [4]⟩)
        (Bare.leb128.encodeData m1) =
          pure ([Bare.leb128.encodeData m2], .ok ⟨.responder, .handshaking xR⟩) ∧
      handleInnerMessageImplHandshaking .leb128 XX.paddingPrimitives (fun _ _ => .ok ((), [8]) :
          Bytes → Option Bytes → Except Unit (Unit × Bytes))
          (Bare.leb128.encodeData m2) .initiator xI =
        pure ([Bare.leb128.encodeData m3], .ok ⟨.initiator,
          .established ⟨Encryptor.new k2 0, Decryptor.new k1 0⟩ h () [8]⟩) ∧
      handleInnerMessageImplHandshaking .leb128 XX.paddingPrimitives (fun _ _ => .ok ((), [9]) :
          Bytes → Option Bytes → Except Unit (Unit × Bytes))
          (Bare.leb128.encodeData m3) .responder xR =
        pure ([], .ok ⟨.responder,
          .established ⟨Encryptor.new k1 0, Decryptor.new k2 0⟩ h () [9]⟩) :=
  channel_establishment Bare.leb128_laws XX.paddingPrimitives_laws (by rfl) (by rfl) (by rfl)
    (by rfl) (by decide) (by decide) rfl rfl

end Channel

end Ockam.Elixir
