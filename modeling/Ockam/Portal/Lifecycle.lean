import Ockam.Portal.Worker

/-! What a portal worker does over a whole run of its relay. Once initialized with its write half,
the bytes it writes are, chunk by chunk, a prefix of the payloads it was sent, in order. An outlet
whose `connect` to the target fails has already sent its pong: it stays in `SendPong`, where
`handle_message` rejects every message, `Disconnect` included, so it never disconnects and never
stops. -/

namespace Ockam.Portal

variable {ρ : Type}

/-- The bytes of a `write_all` on the stream. -/
def Effect.written? : Effect ρ → Option Bytes
  | .write bytes => some bytes
  | _ => none

/-- The bytes written to the stream, in order. -/
def writes (effects : List (Effect ρ)) : List Bytes := effects.filterMap Effect.written?

/-- The payload carried by a message from the other side. -/
def Incoming.payload? : Incoming ρ → Option Bytes
  | .remote (some (.payload bytes)) _ => some bytes
  | _ => none

/-- The payloads delivered, in order. -/
def payloads (deliveries : List (Delivery ρ)) : List Bytes :=
  deliveries.filterMap fun d => d.msg.payload?

section Payloads

variable {d : Delivery ρ} (ds : List (Delivery ρ))

lemma payloads_cons_of_none (h : d.msg.payload? = none) : payloads (d :: ds) = payloads ds := by
  simp [payloads, h]

lemma payloads_cons_of_some {bytes : Bytes} (h : d.msg.payload? = some bytes) :
    payloads (d :: ds) = bytes :: payloads ds := by
  simp [payloads, h]

end Payloads

section Writes

variable (es es' : List (Effect ρ))

@[simp] lemma writes_nil : writes ([] : List (Effect ρ)) = [] := rfl

@[simp] lemma writes_append : writes (es ++ es') = writes es ++ writes es' := List.filterMap_append

@[simp] lemma writes_cons_write (bytes : Bytes) : writes (.write bytes :: es) = bytes :: writes es :=
  rfl

@[simp] lemma writes_cons_send (route : ρ) (msg : PortalMessage) :
    writes (.send route msg :: es) = writes es := rfl

@[simp] lemma writes_cons_startReceiver (onwardRoute : ρ) :
    writes (.startReceiver onwardRoute :: es) = writes es := rfl

@[simp] lemma writes_cons_stopReceiver : writes (.stopReceiver :: es) = writes es := rfl

@[simp] lemma writes_cons_stopWorker : writes (.stopWorker :: es) = writes es := rfl

end Writes

@[simp] lemma handleAll_nil (w : TcpPortalWorker ρ) : handleAll [] w = w := rfl

@[simp] lemma handleAll_cons (d : Delivery ρ) (ds : List (Delivery ρ)) (w : TcpPortalWorker ρ) :
    handleAll (d :: ds) w = handleAll ds (TcpPortalWorker.handleMessage d.msg d.written w).state :=
  rfl

namespace TcpPortalWorker

variable (w : TcpPortalWorker ρ) (msg : Incoming ρ) (written : Bool)

@[simp] lemma emit_apply (e : Effect ρ) : emit e w = .ok () { w with effects := w.effects ++ [e] } :=
  rfl

lemma startDisconnection_apply (reason : DisconnectionReason) :
    ∃ w', startDisconnection reason w = .ok () w' ∧ w'.isDisconnecting = true ∧
      writes w'.effects = writes w.effects := by
  -- the reason decides whether the remote is notified (if it is known) and the receiver stopped
  cases reason <;> cases hr : w.remoteRoute <;>
    simp [startDisconnection, notifyRemoteAboutDisconnection, stopReceiver, EStateM.bind_apply,
      EStateM.get_apply, EStateM.modify_apply, hr]

lemma handleMessage_of_disconnecting (hd : w.isDisconnecting = true) :
    handleMessage msg written w = .ok () w := by
  simp [handleMessage, EStateM.bind_apply, EStateM.get_apply, hd]

lemma handleMessage_of_sendPong {pongRoute : ρ} (hd : w.isDisconnecting = false)
    (hs : w.state = .sendPong pongRoute) :
    handleMessage msg written w = .error .portalInvalidState w := by
  simp [handleMessage, EStateM.bind_apply, EStateM.get_apply, hd, hs]

lemma handleMessage_of_initialized (hd : w.isDisconnecting = false) (hs : w.state = .initialized)
    (hw : w.writeHalf = true) :
    ((handleMessage msg written w).state = w ∧ msg.payload? = none) ∨
      (∃ bytes, msg.payload? = some bytes ∧ (handleMessage msg written w).state.state = .initialized ∧
        (handleMessage msg written w).state.writeHalf = true ∧
        writes (handleMessage msg written w).state.effects = writes w.effects ++ [bytes]) ∨
      ((handleMessage msg written w).state.isDisconnecting = true ∧
        writes (handleMessage msg written w).state.effects = writes w.effects) := by
  have hdis (reason : DisconnectionReason) :
      (startDisconnection reason w).state.isDisconnecting = true ∧
        writes (startDisconnection reason w).state.effects = writes w.effects := by
    obtain ⟨w', hw', hdw', hew'⟩ := startDisconnection_apply w reason
    rw [hw']
    exact ⟨hdw', hew'⟩
  simp only [handleMessage, EStateM.bind_apply, EStateM.get_apply, hd, hs, Bool.false_eq_true,
    ↓reduceIte]
  -- the cases of `handle_message` in `Initialized`, internal then remote
  cases msg with
  | internal m =>
    cases m with
    | none => exact .inl ⟨rfl, rfl⟩
    | some m =>
      cases m
      exact .inr (.inr (hdis .failedRx))
  | remote m returnRoute =>
    rcases m with _ | _ | _ | _ | bytes
    · exact .inl ⟨rfl, rfl⟩
    · exact .inl ⟨rfl, rfl⟩
    · exact .inl ⟨rfl, rfl⟩
    · exact .inr (.inr (hdis .remote))
    · -- a payload: written whole, or a failed `write_all` that starts the disconnection
      cases written <;>
        simp only [EStateM.bind_apply, EStateM.get_apply, hw, Bool.false_eq_true, ↓reduceIte]
      · exact .inr (.inr (hdis .failedTx))
      · exact .inr (.inl ⟨bytes, rfl, by simp [hs, hw]⟩)

lemma initializeWorker_newOutlet_of_refused (pongRoute : ρ) :
    initializeWorker false (newOutlet pongRoute) =
      .error .connectFailed { newOutlet pongRoute with effects := [.send pongRoute .pong] } := by
  simp [initializeWorker, handleSendPong, newOutlet, EStateM.bind_apply, EStateM.get_apply]

end TcpPortalWorker

open TcpPortalWorker

lemma handleAll_of_fixed (ds : List (Delivery ρ)) (w : TcpPortalWorker ρ)
    (hfix : ∀ msg written, (handleMessage msg written w).state = w) : handleAll ds w = w := by
  induction ds with
  | nil => rfl
  | cons d ds ih => rw [handleAll_cons, hfix, ih]

lemma handleAll_of_disconnecting (ds : List (Delivery ρ)) (w : TcpPortalWorker ρ)
    (hd : w.isDisconnecting = true) : handleAll ds w = w :=
  handleAll_of_fixed ds w fun msg written => by
    rw [handleMessage_of_disconnecting w msg written hd, EStateM.Result.state_ok]

lemma handleAll_of_sendPong {pongRoute : ρ} (ds : List (Delivery ρ)) (w : TcpPortalWorker ρ)
    (hd : w.isDisconnecting = false) (hs : w.state = .sendPong pongRoute) : handleAll ds w = w :=
  handleAll_of_fixed ds w fun msg written => by
    rw [handleMessage_of_sendPong w msg written hd hs, EStateM.Result.state_error]

theorem handleAll_writes (ds : List (Delivery ρ)) (w : TcpPortalWorker ρ)
    (hs : w.state = .initialized) (hw : w.writeHalf = true) :
    ∃ k, writes (handleAll ds w).effects = writes w.effects ++ (payloads ds).take k := by
  induction ds generalizing w with
  | nil => exact ⟨0, by simp⟩
  | cons d ds ih =>
    cases hd : w.isDisconnecting
    case true => exact ⟨0, by rw [handleAll_of_disconnecting _ w hd]; simp⟩
    case false =>
      rw [handleAll_cons]
      rcases handleMessage_of_initialized w d.msg d.written hd hs hw with
        ⟨hkeep, hnone⟩ | ⟨bytes, hsome, hs', hw', hwrite⟩ | ⟨hdis, hwrites⟩
      · -- a message that carries no payload and changes nothing
        obtain ⟨k, hk⟩ := ih w hs hw
        refine ⟨k, ?_⟩
        rw [hkeep, hk, payloads_cons_of_none ds hnone]
      · -- a payload written whole
        obtain ⟨k, hk⟩ := ih _ hs' hw'
        refine ⟨k + 1, ?_⟩
        rw [hk, hwrite, payloads_cons_of_some ds hsome, List.take_succ_cons, List.append_assoc]
        rfl
      · -- the start of a disconnection: nothing more is written
        refine ⟨0, ?_⟩
        rw [handleAll_of_disconnecting _ _ hdis, hwrites]
        simp

/-- An outlet whose `connect` to the target fails has sent its pong, and then, whatever messages
reach it, stays in `SendPong`: it writes nothing, notifies no one and never asks its own stop. -/
theorem outlet_stuck_after_refused_connect (pongRoute : ρ) (deliveries : List (Delivery ρ)) :
    (relayRun false deliveries (newOutlet pongRoute)).state = .sendPong pongRoute ∧
      (relayRun false deliveries (newOutlet pongRoute)).effects = [.send pongRoute .pong] := by
  have hrun : relayRun false deliveries (newOutlet pongRoute) =
      { newOutlet pongRoute with effects := [.send pongRoute .pong] } := by
    rw [relayRun, initializeWorker_newOutlet_of_refused, EStateM.Result.state_error]
    exact handleAll_of_sendPong deliveries _ rfl rfl
  rw [hrun]
  exact ⟨rfl, rfl⟩

end Ockam.Portal
