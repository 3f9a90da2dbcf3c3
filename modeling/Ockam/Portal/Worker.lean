import Ockam.Core.Error
import Ockam.Lib.StateMonad

/-! `TcpPortalWorker` (`portal/portal_worker.rs`) run by its `WorkerRelay`: the worker's calls on its
context and stream are kept in order in `effects`, and what the stream answers is an input. The relay
logs an error of a handler and goes on; the worker stops only through its own `stop_worker`. -/

namespace Ockam.Portal

inductive PortalMessage where
  | ping
  | pong
  | disconnect
  | payload (bytes : Bytes)
  deriving DecidableEq, Repr

inductive PortalInternalMessage where
  | disconnect
  deriving DecidableEq, Repr

inductive PortalType where
  | inlet
  | outlet
  deriving DecidableEq, Repr

inductive State (ρ : Type) where
  | sendPing (pingRoute : ρ)
  | sendPong (pongRoute : ρ)
  | receivePong
  | initialized
  deriving DecidableEq, Repr

/-- The errors of the handlers: `TransportError`s, the failed `connect`, and a body that does not
decode. -/
inductive TransportError where
  | portalInvalidState
  | protocol
  | connectFailed
  | decode
  deriving DecidableEq, Repr

/-- What the worker asks of its context and of the TCP stream. -/
inductive Effect (ρ : Type) where
  | send (route : ρ) (msg : PortalMessage)
  | startReceiver (onwardRoute : ρ)
  | stopReceiver
  | stopWorker
  | write (bytes : Bytes)
  deriving DecidableEq, Repr

/-- A message the relay hands to the worker: to its internal address (from its receiver) or to
its remote address (from the other side, with the return route); `none` is a body that does not
decode. -/
inductive Incoming (ρ : Type) where
  | internal (msg : Option PortalInternalMessage)
  | remote (msg : Option PortalMessage) (returnRoute : ρ)

inductive DisconnectionReason where
  | failedTx
  | failedRx
  | remote

structure TcpPortalWorker (ρ : Type) where
  state : State ρ
  /-- `write_half` and `read_half` are taken from one stream, `read_half` by the receiver. -/
  writeHalf : Bool
  readHalf : Bool
  remoteRoute : Option ρ
  isDisconnecting : Bool
  portalType : PortalType
  effects : List (Effect ρ)

namespace TcpPortalWorker

variable {ρ : Type}

abbrev M (ρ : Type) := EStateM TransportError (TcpPortalWorker ρ)

def emit (e : Effect ρ) : M ρ Unit := modify fun w => { w with effects := w.effects ++ [e] }

/-- `start_new_inlet`: the accepted stream is split at once. -/
def newInlet (pingRoute : ρ) : TcpPortalWorker ρ :=
  ⟨.sendPing pingRoute, true, true, none, false, .inlet, []⟩

/-- `start_new_outlet`: the outlet connects to its target in `initialize`. -/
def newOutlet (pongRoute : ρ) : TcpPortalWorker ρ :=
  ⟨.sendPong pongRoute, false, false, none, false, .outlet, []⟩

def startReceiver (onwardRoute : ρ) : M ρ Unit := do
  if (← get).readHalf then
    modify fun w => { w with readHalf := false }
    emit (.startReceiver onwardRoute)
  else throw .portalInvalidState

def notifyRemoteAboutDisconnection : M ρ Unit := do
  match (← get).remoteRoute with
  | some remoteRoute =>
    modify fun w => { w with remoteRoute := none }
    emit (.send remoteRoute .disconnect)
  | none => pure ()

def stopReceiver : M ρ Unit := emit .stopReceiver

def startDisconnection (reason : DisconnectionReason) : M ρ Unit := do
  modify fun w => { w with isDisconnecting := true }
  match reason with
  | .failedTx => notifyRemoteAboutDisconnection
  | .failedRx =>
    notifyRemoteAboutDisconnection
    stopReceiver
  | .remote => stopReceiver
  emit .stopWorker

def handleSendPing (pingRoute : ρ) : M ρ (State ρ) := do
  emit (.send pingRoute .ping)
  pure .receivePong

/-- `handle_send_pong`: the pong goes out before the connection to the target is made. -/
def handleSendPong (pongRoute : ρ) (connected : Bool) : M ρ (State ρ) := do
  emit (.send pongRoute .pong)
  if !(← get).writeHalf then
    if !connected then throw .connectFailed
    modify fun w => { w with writeHalf := true, readHalf := true }
    startReceiver pongRoute
  modify fun w => { w with remoteRoute := some pongRoute }
  pure .initialized

/-- `Worker::initialize`; `connected` is what `TcpStream::connect` to the target gives. -/
def initializeWorker (connected : Bool) : M ρ Unit := do
  match (← get).state with
  | .sendPing pingRoute =>
    let state ← handleSendPing pingRoute
    modify fun w => { w with state := state }
  | .sendPong pongRoute =>
    let state ← handleSendPong pongRoute connected
    modify fun w => { w with state := state }
  | .receivePong | .initialized => throw .portalInvalidState

/-- `handle_message`; `written` is whether `write_all` of a payload succeeds. -/
def handleMessage (msg : Incoming ρ) (written : Bool) : M ρ Unit := do
  if (← get).isDisconnecting then return
  match (← get).state with
  | .receivePong =>
    match msg with
    | .internal _ => throw .portalInvalidState
    | .remote none _ => throw .decode
    | .remote (some .pong) returnRoute =>
      startReceiver returnRoute
      modify fun w => { w with remoteRoute := some returnRoute, state := .initialized }
    | .remote (some _) _ => throw .protocol
  | .initialized =>
    match msg with
    | .internal none => throw .decode
    | .internal (some .disconnect) => startDisconnection .failedRx
    | .remote none _ => throw .decode
    | .remote (some (.payload payload)) _ =>
      if (← get).writeHalf then
        if written then emit (.write payload)
        else startDisconnection .failedTx
      else throw .portalInvalidState
    | .remote (some .disconnect) _ => startDisconnection .remote
    | .remote (some .ping) _ | .remote (some .pong) _ => throw .protocol
  | .sendPing _ | .sendPong _ => throw .portalInvalidState

end TcpPortalWorker

/-- One delivery to the relay: the message and what `write_all` answers if the worker writes. -/
structure Delivery (ρ : Type) where
  msg : Incoming ρ
  written : Bool

/-- The relay's loop: every delivery in turn, an error of `handle_message` logged. A message
that reaches the worker after its own `stop_worker` finds it disconnecting. -/
def handleAll {ρ : Type} (deliveries : List (Delivery ρ)) (w : TcpPortalWorker ρ) :
    TcpPortalWorker ρ :=
  deliveries.foldl (fun w d => (TcpPortalWorker.handleMessage d.msg d.written w).state) w

/-- `WorkerRelay::run`: `initialize`, whose error is logged, then the loop. -/
def relayRun {ρ : Type} (connected : Bool) (deliveries : List (Delivery ρ))
    (w : TcpPortalWorker ρ) : TcpPortalWorker ρ :=
  handleAll deliveries (TcpPortalWorker.initializeWorker connected w).state

end Ockam.Portal
