import Ockam.Handshake.Noise

/-! The initiator and responder state machines of the handshake, and the part they share: the
verification of the other party's identity (`CommonStateMachine`). The identities component,
the identity payload codec and the trust policy are operations given as parameters. -/

namespace Ockam.XX

open Ockam.Vault

abbrev Identifier := Bytes

/-- `Event::Initialize` and `Event::ReceivedMessage`. -/
inductive Event where
  | start
  | receivedMessage (message : Bytes)
  deriving DecidableEq, Repr

inductive Action where
  | noAction
  | sendMessage (message : Bytes)
  deriving DecidableEq, Repr

structure HandshakeResults where
  handshakeKeys : HandshakeKeys
  theirIdentifier : Identifier
  deriving DecidableEq, Repr

/-- The payload of messages 2 and 3: an encoded change history, purpose key attestation and
credentials. -/
structure IdentityAndCredentials where
  changeHistory : Bytes
  purposeKeyAttestation : Bytes
  credentials : List Bytes

structure Identity where
  identifier : Identifier
  changeHistory : Bytes

inductive PurposePublicKey where
  | secureChannelStatic (key : X25519PublicKey)
  | credentialSigning (key : Bytes)

/-- What `verify_identity` calls outside the handshake: the identities component with its state
`R`, the payload codec and the trust policy. -/
structure Verifiers (R : Type) where
  decodeIdentityAndCredentials : Bytes → Except Error IdentityAndCredentials
  importFromChangeHistory : Bytes → Except Error Identity
  updateIdentity : Identity → EStateM Error R Unit
  verifyPurposeKeyAttestation : Identifier → Bytes → EStateM Error R PurposePublicKey
  trustPolicyCheck : Identifier → Except Error Bool
  receivePresentedCredential : Identifier → Identifier → Bytes → EStateM Error R Unit

structure CommonStateMachine (R : Type) where
  identities : R
  /-- `None` without a trust context; otherwise what `trust_context.authority()` returns. -/
  trustContextAuthority : Option (Except Error Identifier)
  theirIdentifier : Option Identifier

namespace CommonStateMachine

variable {R : Type} (ver : Verifiers R)

def liftIdentities {α : Type} (x : EStateM Error R α) : EStateM Error (CommonStateMachine R) α :=
  x.focus (·.identities) fun c r => { c with identities := r }

def verifyCredentials (theirIdentifier : Identifier) (credentials : List Bytes) :
    EStateM Error (CommonStateMachine R) Unit := do
  let trusted ← EStateM.ofExcept (ver.trustPolicyCheck theirIdentifier)
  if !trusted then throw (.identity .secureChannelTrustCheckFailed)
  match (← get).trustContextAuthority with
  | some authority =>
    for credential in credentials do
      let result ← (liftIdentities (ver.receivePresentedCredential theirIdentifier
        (← EStateM.ofExcept authority) credential)).attempt
      if result matches .error _ then
        throw (.identity .secureChannelVerificationFailedIncorrectCredential)
  | none =>
    if !credentials.isEmpty then
      throw (.identity .secureChannelVerificationFailedMissingTrustContext)

def verifyIdentity (peer : IdentityAndCredentials) (peerPublicKey : X25519PublicKey) :
    EStateM Error (CommonStateMachine R) Unit := do
  let identity ← EStateM.ofExcept (ver.importFromChangeHistory peer.changeHistory)
  liftIdentities (ver.updateIdentity identity)
  let purposeKey ← liftIdentities
    (ver.verifyPurposeKeyAttestation identity.identifier peer.purposeKeyAttestation)
  match purposeKey with
  | .secureChannelStatic publicKey =>
    if publicKey.key ≠ peerPublicKey.key then throw (.identity .invalidKeyData)
  | .credentialSigning _ => throw (.identity .invalidKeyType)
  verifyCredentials ver identity.identifier peer.credentials
  modify fun c => { c with theirIdentifier := some identity.identifier }

def makeHandshakeResults (self : CommonStateMachine R) (handshakeKeys : Option HandshakeKeys) :
    Option HandshakeResults :=
  match self.theirIdentifier, handshakeKeys with
  | some theirIdentifier, some handshakeKeys => some ⟨handshakeKeys, theirIdentifier⟩
  | _, _ => none

end CommonStateMachine

/-- The fields the initiator and the responder have alike. -/
structure StateMachine (V R : Type) where
  common : CommonStateMachine R
  handshake : Handshake V
  identityPayload : Option Bytes

namespace StateMachine

variable {V R : Type} (vault : VaultForSecureChannels V) (sha256 : Bytes → Bytes)
  (ver : Verifiers R)

abbrev M (V R : Type) := EStateM Error (StateMachine V R)

def liftHandshake {α : Type} (x : Handshake.M V α) : M V R α :=
  x.focus (·.handshake) fun m h => { m with handshake := h }

def liftCommon {α : Type} (x : EStateM Error (CommonStateMachine R) α) : M V R α :=
  x.focus (·.common) fun m c => { m with common := c }

def setStatus (status : Status) : M V R Unit :=
  modify fun m => { m with handshake := { m.handshake with state := { m.handshake.state with status } } }

/-- `self.identity_payload.take().ok_or(XXError::InvalidInternalState)`. -/
def takeIdentityPayload : M V R Bytes := do
  let payload := (← get).identityPayload
  modify fun m => { m with identityPayload := none }
  match payload with
  | some payload => return payload
  | none => throw (.xx .invalidInternalState)

/-- The identity payload of the other party, verified against the static key `rs` of the
handshake state. -/
def receiveIdentity (payload : Bytes) : M V R Unit := do
  let theirIdentityPayload ← EStateM.ofExcept (ver.decodeIdentityAndCredentials payload)
  let rs ← EStateM.ofExcept (← get).handshake.state.getRs
  liftCommon (CommonStateMachine.verifyIdentity ver theirIdentityPayload rs)

/-- `InitiatorStateMachine::on_event`. -/
def initiatorOnEvent (event : Event) : M V R Action := do
  let state := (← get).handshake.state
  match state.status, event with
  | .initial, .start =>
    liftHandshake (Handshake.initializeHandshake vault sha256)
    let message1 ← liftHandshake (Handshake.encodeMessage1 vault sha256 [])
    setStatus .waitingForMessage2
    return .sendMessage message1
  | .waitingForMessage2, .receivedMessage message =>
    let message2Payload ← liftHandshake (Handshake.decodeMessage2 vault sha256 message)
    receiveIdentity ver message2Payload
    let identityPayload ← takeIdentityPayload
    let message3 ← liftHandshake (Handshake.encodeMessage3 vault sha256 identityPayload)
    liftHandshake (Handshake.setFinalState vault .initiator)
    return .sendMessage message3
  | _, _ => throw (.message "Unexpected combination of initiator state and event")

/-- `ResponderStateMachine::on_event`. -/
def responderOnEvent (event : Event) : M V R Action := do
  let state := (← get).handshake.state
  match state.status, event with
  | .initial, .start =>
    liftHandshake (Handshake.initializeHandshake vault sha256)
    setStatus .waitingForMessage1
    return .noAction
  | .waitingForMessage1, .receivedMessage message =>
    let _ ← liftHandshake (Handshake.decodeMessage1 sha256 message)
    let identityPayload ← takeIdentityPayload
    let message2 ← liftHandshake (Handshake.encodeMessage2 vault sha256 identityPayload)
    setStatus .waitingForMessage3
    return .sendMessage message2
  | .waitingForMessage3, .receivedMessage message =>
    let message3Payload ← liftHandshake (Handshake.decodeMessage3 vault sha256 message)
    receiveIdentity ver message3Payload
    liftHandshake (Handshake.setFinalState vault .responder)
    return .noAction
  | _, _ => throw (.message "Unexpected combination of responder state and event")

def onEvent : Role → Event → M V R Action
  | .initiator => initiatorOnEvent vault sha256 ver
  | .responder => responderOnEvent vault sha256 ver

def getHandshakeResults (self : StateMachine V R) : Option HandshakeResults :=
  self.common.makeHandshakeResults self.handshake.getHandshakeKeys

end StateMachine

end Ockam.XX
