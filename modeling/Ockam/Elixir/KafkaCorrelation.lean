import Ockam.Elixir.KafkaParser
import Ockam.Elixir.KafkaInterceptor

/-! `process_kafka_message` of `Ockam.Kafka.Interceptor`: a request's header is saved under its
correlation id, a response is parsed with the header saved for its id, and the handlers run on
both. A message that cannot be processed is forwarded, but for the reasons that `handle_error`
stops on. `MetadataHandler.inlet_response` points the brokers of a response to this node's inlets. -/

namespace Ockam.Elixir.Kafka

open Ockam.Lib Decoder

/-- An entry of `correlations`. -/
inductive Tracked where
  | untracked
  | header (header : RequestHeader)

structure HandlerOptions where
  basePort : Option ℤ := none

/-- The part of the interceptor's state that the processing of a message reads and changes. -/
structure KafkaState where
  correlations : ℤ → Option Tracked
  handlerOptions : HandlerOptions

/-- `setup(options, state)`, but for `read_buffer`: no correlation is tracked. -/
def KafkaState.setup (handlerOptions : HandlerOptions) : KafkaState :=
  ⟨fun _ => none, handlerOptions⟩

variable {ε : Type}

/-- What a handler returns: the state, a new content and the state, or an error. -/
inductive HandlerResult (α ε : Type) where
  | ok (state : KafkaState)
  | okWith (content : α) (state : KafkaState)
  | error (reason : ErrorReason ε)

/-- A request handler, on a `RequestHeader` and a `MetadataRequest`, or a response handler. -/
abbrev Handler (η α ε : Type) := η → α → KafkaState → Except Raise (HandlerResult α ε)

section Handlers

variable {η α : Type}

/-- The function of the `Enum.reduce` of `handle_kafka_request` and `handle_kafka_response`: the
next handler runs on the content the one before returned, if it returned one; an error skips it. -/
def handlerStep (header : η) (content : α) (acc : HandlerResult α ε) (handler : Handler η α ε) :
    Except Raise (HandlerResult α ε) :=
  match acc with
  | .ok state => handler header content state
  | .okWith prev state => handler header prev state
  | .error reason => pure (.error reason)

def reduceHandlers (handlers : List (Handler η α ε)) (header : η) (content : α)
    (state : KafkaState) : Except Raise (HandlerResult α ε) :=
  handlers.foldlM (handlerStep header content) (.ok state)

end Handlers

def handleKafkaRequest (requestHandlers : List (Handler RequestHeader MetadataRequest ε)) :
    RequestHeader → MetadataRequest → KafkaState → Except Raise (HandlerResult MetadataRequest ε) :=
  reduceHandlers requestHandlers

def handleKafkaResponse (responseHandlers : List (Handler ResponseHeader MetadataResponse ε)) :
    ResponseHeader → MetadataResponse → KafkaState →
      Except Raise (HandlerResult MetadataResponse ε) :=
  reduceHandlers responseHandlers

/-! ### The correlation table -/

def saveRequestHeader (header : RequestHeader) (state : KafkaState) : KafkaState :=
  { state with
    correlations := Function.update state.correlations header.correlationId (some (.header header)) }

def markUntrackedHeader (header : RequestHeader) (state : KafkaState) : KafkaState :=
  { state with
    correlations := Function.update state.correlations header.correlationId (some .untracked) }

inductive LookupError where
  | notFound
  | notTracked

def getRequestHeader (correlationId : ℤ) (state : KafkaState) : Except LookupError RequestHeader :=
  match state.correlations correlationId with
  | none => .error .notFound
  | some .untracked => .error .notTracked
  | some (.header header) => .ok header

def cleanupRequestHeader (correlationId : ℤ) (state : KafkaState) : KafkaState :=
  { state with correlations := Function.update state.correlations correlationId none }

/-! ### Processing a message -/

/-- Requests are not written again: `reconstruct_request` refuses every one. -/
def reconstructRequest (_headerBinary : Bytes) (request : MetadataRequest) :
    Except (ErrorReason ε) Bytes :=
  .error (.unsupportedRequest request)

def reconstructResponse (headerBinary : Bytes) (response : MetadataResponse) (state : KafkaState) :
    Except (ErrorReason ε) (Bytes × KafkaState) :=
  match Formatter.format response with
  | .ok responseBinary => .ok (headerBinary ++ responseBinary, state)
  | .error reason => .error (.format reason)

/-- What the processing of a message returns, unless it raises: the message to forward, or the
reason of an error, each with the state. -/
abbrev Processed (ε : Type) := Except (ErrorReason ε × KafkaState) (Bytes × KafkaState)

/-- `handle_error(reason, message, type, state)`: forward the message, but on two reasons. -/
def handleError (reason : ErrorReason ε) (message : Bytes) (state : KafkaState) : Processed ε :=
  match reason with
  | .unsupportedApi _ _ => .ok (message, state)
  | .correlationIdNotFound _ _ => .error (reason, state)
  | .unsupportedApiVersion _ _ => .error (reason, state)
  | _ => .ok (message, state)

section Processing

variable (requestHandlers : List (Handler RequestHeader MetadataRequest ε))
  (responseHandlers : List (Handler ResponseHeader MetadataResponse ε))

def processKafkaRequest (request : Bytes) (state : KafkaState) : Except Raise (Processed ε) := do
  match ← parseKafkaRequest request with
  | .ok requestHeader requestContentSize requestContent =>
    let state := saveRequestHeader requestHeader state
    match ← handleKafkaRequest requestHandlers requestHeader requestContent state with
    | .ok state => pure (.ok (request, state))
    | .okWith updatedRequestContent state =>
      let oldHeader := request.take (request.length - requestContentSize)
      match reconstructRequest oldHeader updatedRequestContent with
      | .ok newRequest => pure (.ok (newRequest, state))
      | .error reason => pure (.error (reason, state))
    | .error reason => pure (.error (reason, state))
  | .unsupportedApi apiKey apiVersion header =>
    pure (.error (.unsupportedApi apiKey apiVersion, markUntrackedHeader header state))
  | .error reason => pure (.error (reason, state))

/-- `process_kafka_response_for_request(request_header, response, state)`: a response read with
bytes left over, or an untagged `{:parse_array, _, _}`, matches no clause of its `case`; a raise
of the parser goes on up. -/
def processKafkaResponseForRequest (requestHeader : RequestHeader) (response : Bytes)
    (state : KafkaState) : Except Raise (Except (ErrorReason ε) (Bytes × KafkaState)) :=
  match parseKafkaResponseForRequest requestHeader response with
  | .ok responseHeader responseContentSize responseContent => do
    match ← handleKafkaResponse responseHandlers responseHeader responseContent state with
    | .ok state => pure (.ok (response, state))
    | .okWith updatedResponseContent state =>
      -- the old header is kept as it is, in front of the new content
      let oldHeader := response.take (response.length - responseContentSize)
      pure (reconstructResponse oldHeader updatedResponseContent state)
    | .error reason => pure (.error reason)
  | .error (.parse .caseClause) => throw .caseClauseError
  | .error reason => pure (.error reason)
  | .leftover _ _ => throw .caseClauseError
  | .parseArray => throw .caseClauseError

/-- `process_kafka_response(response, state)`: the header saved for the correlation id is removed
before the response is processed, and stays removed whatever the processing gives. -/
def processKafkaResponse (response : Bytes) (state : KafkaState) : Except Raise (Processed ε) :=
  match parseResponseCorrelationId response with
  | .ok (correlationId, _) =>
    match getRequestHeader correlationId state with
    | .ok requestHeader => do
      let state := cleanupRequestHeader correlationId state
      match ← processKafkaResponseForRequest responseHandlers requestHeader response state with
      | .error reason => pure (.error (reason, state))
      | .ok result => pure (.ok result)
    | .error .notFound => pure (.error (.correlationIdNotFound correlationId response, state))
    | .error .notTracked => pure (.ok (response, state))
  | .error _ => pure (.error (.cannotParseCorrelationId response, state))

def processKafkaMessage (type : PacketType) (message : Bytes) (state : KafkaState) :
    Except Raise (Processed ε) := do
  let result ← match type with
    | .request => processKafkaRequest requestHandlers message state
    | .response => processKafkaResponse responseHandlers message state
  match result with
  | .ok (newPayload, newState) => pure (.ok (newPayload, newState))
  | .error (reason, state) => pure (handleError reason message state)

/-- `process_kafka_message` as `process_kafka_packet` sees it: a raise ends the interceptor as a
stop does, here with the raise as the reason; unlike a stop, it sends none of the replies. -/
def interceptMessage (type : PacketType) (message : Bytes) (state : KafkaState) :
    Except (Except Raise (ErrorReason ε) × KafkaState) (Bytes × KafkaState) :=
  match processKafkaMessage requestHandlers responseHandlers type message state with
  | .ok (.ok result) => .ok result
  | .ok (.error (reason, state)) => .error (.ok reason, state)
  | .error raise => .error (.error raise, state)

/-- The states in which the interceptor processes a message: from `setup`, the states that the
messages before left, of requests and responses in any order, each forwarded. Every sequence of
messages comes from some sequence of payloads, and the other way round
(`Reachable.handleOuterPayload`, `Reachable.handleInnerPayload`). -/
inductive Reachable (handlerOptions : HandlerOptions) : KafkaState → Prop
  | setup : Reachable handlerOptions (KafkaState.setup handlerOptions)
  | step {state state' : KafkaState} {type : PacketType} {message data : Bytes} :
      Reachable handlerOptions state →
      interceptMessage requestHandlers responseHandlers type message state = .ok (data, state') →
      Reachable handlerOptions state'

end Processing

/-! ### `MetadataHandler.inlet_response` -/

/-- The bytes of `"localhost"`. -/
def localhost : Bytes := [108, 111, 99, 97, 108, 104, 111, 115, 116]

def inletPort (nodeId basePort : ℤ) : ℤ := basePort + nodeId

/-- The function of the `Enum.map` of `create_broker_inlets`: the broker, at `localhost` and the
port of its node. -/
def inletBroker (basePort : ℤ) (broker : Broker) : Except Raise Broker :=
  match broker.nodeId with
  | some nodeId => pure { broker with host := some localhost, port := some (inletPort nodeId basePort) }
  | none => throw .arithmeticError

/-- `create_broker_inlets(response, base_port)`, but for the calls to `InletManager`, whose results
it drops. `Enum.map` of `nil` brokers raises. -/
def createBrokerInlets (response : MetadataResponse) (basePort : ℤ) :
    Except Raise MetadataResponse :=
  match response.brokers with
  | none => throw .protocolUndefined
  | some brokers => do
    let brokers ← brokers.mapM (inletBroker basePort)
    pure { response with brokers := some brokers }

/-- `inlet_response(response_header, response, state)`, with `base_port` of the handler options,
9001 by default. -/
def inletResponse : Handler ResponseHeader MetadataResponse ε := fun _ response state => do
  let basePort := state.handlerOptions.basePort.getD 9001
  let newResponse ← createBrokerInlets response basePort
  pure (.okWith newResponse state)

/-! ### The table and the handlers -/

@[simp] lemma saveRequestHeader_correlations (header : RequestHeader) (state : KafkaState) :
    (saveRequestHeader header state).correlations =
      Function.update state.correlations header.correlationId (some (.header header)) := rfl

@[simp] lemma markUntrackedHeader_correlations (header : RequestHeader) (state : KafkaState) :
    (markUntrackedHeader header state).correlations =
      Function.update state.correlations header.correlationId (some .untracked) := rfl

@[simp] lemma cleanupRequestHeader_correlations (correlationId : ℤ) (state : KafkaState) :
    (cleanupRequestHeader correlationId state).correlations =
      Function.update state.correlations correlationId none := rfl

@[simp] lemma cleanupRequestHeader_handlerOptions (correlationId : ℤ) (state : KafkaState) :
    (cleanupRequestHeader correlationId state).handlerOptions = state.handlerOptions := rfl

lemma handleError_eq (reason : ErrorReason ε) (message : Bytes) (state : KafkaState) :
    handleError reason message state =
      if reason.stops then .error (reason, state) else .ok (message, state) := by
  cases reason <;> rfl

section Keeps

variable {η α : Type} (P : KafkaState → Prop)

/-- A handler's result that keeps `P` of the state, and whose error does not stop the
interceptor. -/
def HandlerResult.Keeps : HandlerResult α ε → Prop
  | .ok state => P state
  | .okWith _ state => P state
  | .error reason => reason.stops = false

/-- A handler whose every result, from a state with `P`, keeps `P`. -/
def Handler.Keeps (handler : Handler η α ε) : Prop :=
  ∀ header content state result, P state → handler header content state = .ok result →
    result.Keeps P

variable {P}

lemma foldlM_handlerStep_keeps {header : η} {content : α} :
    ∀ {handlers : List (Handler η α ε)} {acc result : HandlerResult α ε},
      (∀ handler ∈ handlers, handler.Keeps P) → acc.Keeps P →
      handlers.foldlM (handlerStep header content) acc = .ok result → result.Keeps P
  | [], acc, result, _, hacc, h => by
    cases h
    exact hacc
  | handler :: handlers, acc, result, hkeep, hacc, h => by
    rw [List.foldlM_cons] at h
    obtain ⟨acc', hstep, h⟩ := (Except.bind_eq_ok_iff _ _ _).1 h
    refine foldlM_handlerStep_keeps (fun handler' hm => hkeep handler' (List.mem_cons_of_mem _ hm))
      ?_ h
    -- the handler runs on the state the one before left, unless that one failed
    have hhandler := hkeep handler List.mem_cons_self
    cases acc with
    | ok state => exact hhandler _ _ _ _ hacc hstep
    | okWith prev state => exact hhandler _ _ _ _ hacc hstep
    | error reason =>
      cases hstep
      exact hacc

lemma reduceHandlers_keeps {handlers : List (Handler η α ε)} {header : η} {content : α}
    {state : KafkaState} {result : HandlerResult α ε} (hkeep : ∀ handler ∈ handlers, handler.Keeps P)
    (hP : P state) (h : reduceHandlers handlers header content state = .ok result) :
    result.Keeps P :=
  foldlM_handlerStep_keeps hkeep (show (HandlerResult.ok state : HandlerResult α ε).Keeps P from hP) h

lemma inletResponse_keeps (P : KafkaState → Prop) :
    (inletResponse : Handler ResponseHeader MetadataResponse ε).Keeps P := by
  intro header content state result hP h
  obtain ⟨newResponse, -, h⟩ := (Except.bind_eq_ok_iff _ _ _).1 h
  cases h
  exact hP

end Keeps


/-! ### What processing a message does -/

section Processing

variable {requestHandlers : List (Handler RequestHeader MetadataRequest ε)}
  {responseHandlers : List (Handler ResponseHeader MetadataResponse ε)}

lemma processKafkaRequest_cases {request : Bytes} {state : KafkaState} {result : Processed ε}
    (h : processKafkaRequest requestHandlers request state = .ok result) :
    (∃ header size content handled,
      parseKafkaRequest request = .ok (.ok header size content : RequestParse ε) ∧
      handleKafkaRequest requestHandlers header content (saveRequestHeader header state) =
        .ok handled ∧
      result = match handled with
        | .ok state => .ok (request, state)
        | .okWith content state => .error (.unsupportedRequest content, state)
        | .error reason => .error (reason, saveRequestHeader header state)) ∨
    (∃ apiKey apiVersion header,
      parseKafkaRequest request = .ok (.unsupportedApi apiKey apiVersion header : RequestParse ε) ∧
      result = .error (.unsupportedApi apiKey apiVersion, markUntrackedHeader header state)) ∨
    (∃ reason, parseKafkaRequest request = .ok (.error reason) ∧
      result = .error (reason, state)) := by
  unfold processKafkaRequest at h
  obtain ⟨parsed, hparse, h⟩ := (Except.bind_eq_ok_iff _ _ _).1 h
  cases parsed with
  | ok header size content =>
    obtain ⟨handled, hhandle, h⟩ := (Except.bind_eq_ok_iff _ _ _).1 h
    refine .inl ⟨header, size, content, handled, hparse, hhandle, ?_⟩
    cases handled <;> (cases h; rfl)
  | unsupportedApi apiKey apiVersion header =>
    cases h
    exact .inr (.inl ⟨apiKey, apiVersion, header, hparse, rfl⟩)
  | error reason =>
    cases h
    exact .inr (.inr ⟨reason, hparse, rfl⟩)


lemma processKafkaResponseForRequest_cases {requestHeader : RequestHeader} {response : Bytes}
    {state : KafkaState} {result : Except (ErrorReason ε) (Bytes × KafkaState)}
    (h : processKafkaResponseForRequest responseHandlers requestHeader response state = .ok result) :
    (∃ responseHeader size content handled,
      parseKafkaResponseForRequest requestHeader response =
        (.ok responseHeader size content : ResponseParse ε) ∧
      handleKafkaResponse responseHandlers responseHeader content state = .ok handled ∧
      result = match handled with
        | .ok state => .ok (response, state)
        | .okWith content state =>
          reconstructResponse (response.take (response.length - size)) content state
        | .error reason => .error reason) ∨
    (∃ reason, parseKafkaResponseForRequest requestHeader response = .error reason ∧
      result = .error reason) := by
  unfold processKafkaResponseForRequest at h
  split at h
  · rename_i responseHeader size content hparse
    obtain ⟨handled, hhandle, h⟩ := (Except.bind_eq_ok_iff _ _ _).1 h
    refine .inl ⟨responseHeader, size, content, handled, hparse, hhandle, ?_⟩
    cases handled <;> (cases h; rfl)
  · cases h
  · rename_i reason _ hparse
    cases h
    exact .inr ⟨reason, hparse, rfl⟩
  all_goals cases h

lemma processKafkaResponse_cases {response : Bytes} {state : KafkaState} {result : Processed ε}
    (h : processKafkaResponse responseHandlers response state = .ok result) :
    (∃ correlationId rest, parseResponseCorrelationId response = .ok (correlationId, rest) ∧
      ((∃ requestHeader forRequest,
          state.correlations correlationId = some (.header requestHeader) ∧
          processKafkaResponseForRequest responseHandlers requestHeader response
            (cleanupRequestHeader correlationId state) = .ok forRequest ∧
          result = forRequest.mapError (·, cleanupRequestHeader correlationId state)) ∨
        (state.correlations correlationId = none ∧
          result = .error (.correlationIdNotFound correlationId response, state)) ∨
        (state.correlations correlationId = some .untracked ∧ result = .ok (response, state)))) ∨
    (∃ reason, parseResponseCorrelationId response = .error reason ∧
      result = .error (.cannotParseCorrelationId response, state)) := by
  unfold processKafkaResponse at h
  split at h
  · rename_i correlationId rest hcid
    refine .inl ⟨correlationId, rest, hcid, ?_⟩
    unfold getRequestHeader at h
    split at h
    · rename_i requestHeader hget
      obtain ⟨forRequest, hfor, h⟩ := (Except.bind_eq_ok_iff _ _ _).1 h
      refine .inl ⟨requestHeader, forRequest, ?_, hfor, ?_⟩
      · split at hget <;> cases hget
        assumption
      · cases forRequest <;> (cases h; rfl)
    · rename_i hget
      split at hget <;> cases hget
      cases h
      exact .inr (.inl ⟨by assumption, rfl⟩)
    · rename_i hget
      split at hget <;> cases hget
      cases h
      exact .inr (.inr ⟨by assumption, rfl⟩)
  · rename_i reason hcid
    cases h
    exact .inr ⟨reason, hcid, rfl⟩

lemma processKafkaMessage_cases {type : PacketType} {message : Bytes} {state : KafkaState}
    {result : Processed ε}
    (h : processKafkaMessage requestHandlers responseHandlers type message state = .ok result) :
    ∃ processed, (match type with
      | .request => processKafkaRequest requestHandlers message state
      | .response => processKafkaResponse responseHandlers message state) = .ok processed ∧
      result = processed.tryCatch fun error => handleError error.1 message error.2 := by
  unfold processKafkaMessage at h
  cases type <;>
  · dsimp only at h
    obtain ⟨processed, hprocessed, h⟩ := (Except.bind_eq_ok_iff _ _ _).1 h
    refine ⟨processed, hprocessed, ?_⟩
    cases processed <;> (cases h; rfl)

lemma handleError_eq_ok {reason : ErrorReason ε} {message data : Bytes} {state state' : KafkaState}
    (h : handleError reason message state = .ok (data, state')) : data = message := by
  rw [handleError_eq] at h
  split at h
  · cases h
  · cases h
    rfl

lemma processKafkaRequest_forwards {request data : Bytes} {state state' : KafkaState}
    (h : processKafkaRequest requestHandlers request state = .ok (.ok (data, state'))) :
    data = request := by
  rcases processKafkaRequest_cases h with
    ⟨_, _, _, handled, -, -, hresult⟩ | ⟨_, _, _, -, hresult⟩ | ⟨_, -, hresult⟩
  · cases handled with
    | ok =>
      cases hresult
      rfl
    | okWith | error => cases hresult
  · cases hresult
  · cases hresult

lemma interceptMessage_request_forwards {message data : Bytes} {state state' : KafkaState}
    (h : interceptMessage requestHandlers responseHandlers .request message state =
      .ok (data, state')) :
    data = message := by
  unfold interceptMessage at h
  split at h
  · rename_i result hresult
    cases h
    obtain ⟨processed, hprocessed, hresult⟩ := processKafkaMessage_cases hresult
    cases processed with
    | ok forwarded =>
      cases hresult
      exact processKafkaRequest_forwards hprocessed
    | error error => exact handleError_eq_ok hresult.symm
  all_goals cases h


end Processing

/-! ### The correlation table over a run -/

/-- Every header in the table is that of a metadata request of a version the interceptor knows,
saved under its own correlation id. -/
def WellTracked (state : KafkaState) : Prop :=
  ∀ correlationId header, state.correlations correlationId = some (.header header) →
    header.correlationId = correlationId ∧ header.apiKey = apiMetadata ∧ header.apiVersion ≤ 12

/-- The state a processed message leaves, whether it is forwarded or stops the interceptor. -/
def processedState : Processed ε → KafkaState
  | .ok (_, state) => state
  | .error (_, state) => state

lemma wellTracked_setup (handlerOptions : HandlerOptions) :
    WellTracked (KafkaState.setup handlerOptions) := by
  intro correlationId header h
  cases h

lemma WellTracked.update {state state' : KafkaState} (hs : WellTracked state) {correlationId : ℤ}
    {entry : Option Tracked}
    (hentry : ∀ header, entry = some (.header header) → header.correlationId = correlationId ∧
      header.apiKey = apiMetadata ∧ header.apiVersion ≤ 12)
    (h' : state'.correlations = Function.update state.correlations correlationId entry) :
    WellTracked state' := by
  intro correlationId' header h
  rw [h'] at h
  rcases eq_or_ne correlationId' correlationId with rfl | hne
  · rw [Function.update_self] at h
    exact hentry header h
  · rw [Function.update_of_ne hne] at h
    exact hs correlationId' header h

lemma WellTracked.save {state : KafkaState} (hs : WellTracked state) {header : RequestHeader}
    (hk : header.apiKey = apiMetadata) (hv : header.apiVersion ≤ 12) :
    WellTracked (saveRequestHeader header state) :=
  hs.update (fun _ h => by cases h; exact ⟨rfl, hk, hv⟩) rfl

lemma WellTracked.mark {state : KafkaState} (hs : WellTracked state) (header : RequestHeader) :
    WellTracked (markUntrackedHeader header state) :=
  hs.update (fun _ h => by cases h) rfl

lemma WellTracked.cleanup {state : KafkaState} (hs : WellTracked state) (correlationId : ℤ) :
    WellTracked (cleanupRequestHeader correlationId state) :=
  hs.update (fun _ h => by cases h) rfl

section Invariant

variable {requestHandlers : List (Handler RequestHeader MetadataRequest ε)}
  {responseHandlers : List (Handler ResponseHeader MetadataResponse ε)}

lemma processKafkaRequest_keeps (hkeep : ∀ handler ∈ requestHandlers, handler.Keeps WellTracked)
    {request : Bytes} {state : KafkaState} {result : Processed ε} (hs : WellTracked state)
    (h : processKafkaRequest requestHandlers request state = .ok result) :
    WellTracked (processedState result) := by
  rcases processKafkaRequest_cases h with
    ⟨header, size, content, handled, hparse, hhandle, rfl⟩ | ⟨_, _, header, -, rfl⟩ | ⟨_, -, rfl⟩
  · -- the header is saved, then the handlers keep the table as they find it
    obtain ⟨hk, hv⟩ := parseKafkaRequest_ok hparse
    have hsave := hs.save hk hv
    have hkept := reduceHandlers_keeps hkeep hsave hhandle
    cases handled with
    | ok state' => exact hkept
    | okWith content' state' => exact hkept
    | error reason => exact hsave
  · exact hs.mark header
  · exact hs

lemma processKafkaResponseForRequest_keeps
    (hkeep : ∀ handler ∈ responseHandlers, handler.Keeps WellTracked) {requestHeader : RequestHeader}
    {response message : Bytes} {state state' : KafkaState} (hs : WellTracked state)
    (h : processKafkaResponseForRequest responseHandlers requestHeader response state =
      .ok (.ok (message, state'))) :
    WellTracked state' := by
  rcases processKafkaResponseForRequest_cases h with
    ⟨responseHeader, size, content, handled, -, hhandle, hresult⟩ | ⟨reason, -, hresult⟩
  · have hkept := reduceHandlers_keeps hkeep hs hhandle
    cases handled with
    | ok state'' =>
      cases hresult
      exact hkept
    | okWith content' state'' =>
      -- the new content is written back after the old header, with the handlers' state
      unfold reconstructResponse at hresult
      dsimp only at hresult
      cases hf : Formatter.format content' <;> rw [hf] at hresult <;> cases hresult
      exact hkept
    | error reason => cases hresult
  · cases hresult

lemma processKafkaResponseForRequest_stops
    (hkeep : ∀ handler ∈ responseHandlers, handler.Keeps WellTracked) {requestHeader : RequestHeader}
    {response : Bytes} {state : KafkaState} {reason : ErrorReason ε} (hs : WellTracked state)
    (h : processKafkaResponseForRequest responseHandlers requestHeader response state =
      .ok (.error reason))
    (hstops : reason.stops) : parseKafkaResponseForRequest requestHeader response = .error reason := by
  rcases processKafkaResponseForRequest_cases h with
    ⟨responseHeader, size, content, handled, -, hhandle, hresult⟩ | ⟨reason', hparse, hresult⟩
  · have hkept := reduceHandlers_keeps hkeep hs hhandle
    cases handled with
    | ok state'' => cases hresult
    | okWith content' state'' =>
      -- a formatting error is forwarded
      unfold reconstructResponse at hresult
      dsimp only at hresult
      cases hf : Formatter.format content' <;> rw [hf] at hresult <;> cases hresult
      cases hstops
    | error reason' =>
      cases hresult
      rw [hkept] at hstops
      cases hstops
  · cases hresult
    exact hparse

lemma processKafkaResponse_keeps (hkeep : ∀ handler ∈ responseHandlers, handler.Keeps WellTracked)
    {response : Bytes} {state : KafkaState} {result : Processed ε} (hs : WellTracked state)
    (h : processKafkaResponse responseHandlers response state = .ok result) :
    WellTracked (processedState result) := by
  rcases processKafkaResponse_cases h with
    ⟨correlationId, -, -, ⟨requestHeader, forRequest, -, hfor, rfl⟩ | ⟨-, rfl⟩ | ⟨-, rfl⟩⟩ |
      ⟨-, -, rfl⟩
  · -- the entry is removed before the handlers run
    have hclean := hs.cleanup correlationId
    rcases forRequest with reason | ⟨message, state'⟩
    · exact hclean
    · exact processKafkaResponseForRequest_keeps hkeep hclean hfor
  all_goals exact hs

lemma processKafkaMessage_keeps (hrequest : ∀ handler ∈ requestHandlers, handler.Keeps WellTracked)
    (hresponse : ∀ handler ∈ responseHandlers, handler.Keeps WellTracked) {type : PacketType}
    {message : Bytes} {state : KafkaState} {result : Processed ε} (hs : WellTracked state)
    (h : processKafkaMessage requestHandlers responseHandlers type message state = .ok result) :
    WellTracked (processedState result) := by
  obtain ⟨processed, hprocessed, rfl⟩ := processKafkaMessage_cases h
  have hkept : WellTracked (processedState processed) := by
    cases type with
    | request => exact processKafkaRequest_keeps hrequest hs hprocessed
    | response => exact processKafkaResponse_keeps hresponse hs hprocessed
  -- `handle_error` keeps the state it is given
  rcases processed with ⟨reason, state'⟩ | ⟨message', state'⟩
  · show WellTracked (processedState (handleError reason message state'))
    rw [handleError_eq]
    split <;> exact hkept
  · exact hkept

lemma handleError_eq_error {reason reason' : ErrorReason ε} {message : Bytes}
    {state state' : KafkaState} (h : handleError reason message state = .error (reason', state')) :
    reason.stops ∧ reason' = reason ∧ state' = state := by
  rw [handleError_eq] at h
  split at h
  · cases h
    exact ⟨by assumption, rfl, rfl⟩
  · cases h

lemma processKafkaRequest_stops (hkeep : ∀ handler ∈ requestHandlers, handler.Keeps WellTracked)
    {request : Bytes} {state state' : KafkaState} {reason : ErrorReason ε} (hs : WellTracked state)
    (h : processKafkaRequest requestHandlers request state = .ok (.error (reason, state')))
    (hstops : reason.stops) :
    (∃ header0 rest0, (parseRequestHeader 0 request : Except (ErrorReason ε) _) =
        .ok (header0, rest0) ∧ header0.apiKey = apiMetadata ∧ 12 < header0.apiVersion ∧
      reason = .unsupportedApiVersion header0.apiKey header0.apiVersion) ∧ state' = state := by
  rcases processKafkaRequest_cases h with
    ⟨header, size, content, handled, hparse, hhandle, hresult⟩ | ⟨_, _, _, -, hresult⟩ |
      ⟨reason', hparse, hresult⟩
  · -- the handlers return no reason that stops, and a new content is refused
    obtain ⟨hk, hv⟩ := parseKafkaRequest_ok hparse
    have hkept := reduceHandlers_keeps hkeep (hs.save hk hv) hhandle
    cases handled with
    | ok state'' => cases hresult
    | okWith content' state'' =>
      cases hresult
      cases hstops
    | error reason' =>
      cases hresult
      rw [hkept] at hstops
      cases hstops
  · cases hresult
    cases hstops
  · cases hresult
    exact ⟨parseKafkaRequest_stops hparse hstops, rfl⟩

lemma processKafkaResponse_stops (hkeep : ∀ handler ∈ responseHandlers, handler.Keeps WellTracked)
    {response : Bytes} {state state' : KafkaState} {reason : ErrorReason ε} (hs : WellTracked state)
    (h : processKafkaResponse responseHandlers response state = .ok (.error (reason, state')))
    (hstops : reason.stops) :
    (∃ correlationId rest, parseResponseCorrelationId response = .ok (correlationId, rest) ∧
      state.correlations correlationId = none ∧
      reason = .correlationIdNotFound correlationId response) ∧ state' = state := by
  rcases processKafkaResponse_cases h with
    ⟨correlationId, rest, hcid, ⟨requestHeader, forRequest, hget, hfor, hresult⟩ |
      ⟨hnone, hresult⟩ | ⟨-, hresult⟩⟩ | ⟨-, -, hresult⟩
  · rcases forRequest with reason' | ⟨message, state''⟩
    · cases hresult
      -- only the parser of the response could stop, on a version the table never holds
      have hparse := processKafkaResponseForRequest_stops hkeep (hs.cleanup correlationId) hfor hstops
      obtain ⟨-, hv, -⟩ := parseKafkaResponseForRequest_stops hparse hstops
      have hv' := (hs correlationId requestHeader hget).2.2
      omega
    · cases hresult
  · cases hresult
    exact ⟨⟨correlationId, rest, hcid, hnone, rfl⟩, rfl⟩
  · cases hresult
  · cases hresult
    cases hstops

lemma processKafkaMessage_of_lt {message rest0 : Bytes} {header0 : RequestHeader}
    (h0 : (parseRequestHeader 0 message : Except (ErrorReason ε) _) = .ok (header0, rest0))
    (hk : header0.apiKey = apiMetadata) (hv : 12 < header0.apiVersion) (state : KafkaState) :
    processKafkaMessage requestHandlers responseHandlers .request message state =
      .ok (.error (.unsupportedApiVersion header0.apiKey header0.apiVersion, state)) := by
  unfold processKafkaMessage processKafkaRequest
  rw [parseKafkaRequest_of_lt h0 hk hv]
  rfl

lemma processKafkaMessage_of_none {message rest : Bytes} {correlationId : ℤ} {state : KafkaState}
    (hcid : parseResponseCorrelationId message = .ok (correlationId, rest))
    (hnone : state.correlations correlationId = none) :
    processKafkaMessage requestHandlers responseHandlers .response message state =
      .ok (.error (.correlationIdNotFound correlationId message, state)) := by
  unfold processKafkaMessage processKafkaResponse getRequestHeader
  rw [hcid]
  dsimp only
  rw [hnone]
  rfl

lemma interceptMessage_keeps (hrequest : ∀ handler ∈ requestHandlers, handler.Keeps WellTracked)
    (hresponse : ∀ handler ∈ responseHandlers, handler.Keeps WellTracked) {type : PacketType}
    {message data : Bytes} {state state' : KafkaState} (hs : WellTracked state)
    (h : interceptMessage requestHandlers responseHandlers type message state = .ok (data, state')) :
    WellTracked state' := by
  unfold interceptMessage at h
  split at h
  · rename_i result hresult
    cases h
    exact processKafkaMessage_keeps hrequest hresponse hs hresult
  all_goals cases h

lemma Reachable.wellTracked (hrequest : ∀ handler ∈ requestHandlers, handler.Keeps WellTracked)
    (hresponse : ∀ handler ∈ responseHandlers, handler.Keeps WellTracked)
    {handlerOptions : HandlerOptions} {state : KafkaState}
    (h : Reachable requestHandlers responseHandlers handlerOptions state) : WellTracked state := by
  induction h with
  | setup => exact wellTracked_setup handlerOptions
  | step _ hstep ih => exact interceptMessage_keeps hrequest hresponse ih hstep

lemma Reachable.handleOuterPayload {handlerOptions : HandlerOptions}
    {state state' : InterceptorState KafkaState} {payload : Bytes} {replies : List Bytes}
    (hs : Reachable requestHandlers responseHandlers handlerOptions state.handlerState)
    (h : handleOuterPayload (interceptMessage requestHandlers responseHandlers) payload state =
      .ok replies state') :
    Reachable requestHandlers responseHandlers handlerOptions state'.handlerState :=
  processKafkaPacket_keeps (fun _ _ _ _ hI hmsg => .step hI hmsg) payload state [] hs h

lemma Reachable.handleInnerPayload {handlerOptions : HandlerOptions}
    {state state' : InterceptorState KafkaState} {payload : Bytes} {replies : List Bytes}
    (hs : Reachable requestHandlers responseHandlers handlerOptions state.handlerState)
    (h : handleInnerPayload (interceptMessage requestHandlers responseHandlers) payload state =
      .ok replies state') :
    Reachable requestHandlers responseHandlers handlerOptions state'.handlerState :=
  processKafkaPacket_keeps (fun _ _ _ _ hI hmsg => .step hI hmsg) payload state [] hs h

end Invariant

/-- With handlers that keep the table well tracked and return no reason that stops the
interceptor, as the provider's: in every state where the interceptor processes a message, the
message stops it exactly when it is a metadata request of a version above 12, or a response whose
correlation id the table does not hold; the state is left as it was. -/
theorem interceptor_stops_iff {requestHandlers : List (Handler RequestHeader MetadataRequest ε)}
    {responseHandlers : List (Handler ResponseHeader MetadataResponse ε)}
    (hrequest : ∀ handler ∈ requestHandlers, handler.Keeps WellTracked)
    (hresponse : ∀ handler ∈ responseHandlers, handler.Keeps WellTracked)
    {handlerOptions : HandlerOptions} {state : KafkaState}
    (hreach : Reachable requestHandlers responseHandlers handlerOptions state)
    (type : PacketType) (message : Bytes) (reason : ErrorReason ε) (state' : KafkaState) :
    processKafkaMessage requestHandlers responseHandlers type message state =
        .ok (.error (reason, state')) ↔
      state' = state ∧
        ((type = .request ∧ ∃ header0 rest0,
            (parseRequestHeader 0 message : Except (ErrorReason ε) _) = .ok (header0, rest0) ∧
            header0.apiKey = apiMetadata ∧ 12 < header0.apiVersion ∧
            reason = .unsupportedApiVersion header0.apiKey header0.apiVersion) ∨
          (type = .response ∧ ∃ correlationId rest,
            parseResponseCorrelationId message = .ok (correlationId, rest) ∧
            state.correlations correlationId = none ∧
            reason = .correlationIdNotFound correlationId message)) := by
  have hs := hreach.wellTracked hrequest hresponse
  constructor
  · intro h
    obtain ⟨processed, hprocessed, hresult⟩ := processKafkaMessage_cases h
    rcases processed with ⟨reason0, state0⟩ | ⟨message', state0⟩
    · -- `handle_error` stops on the reason the processing gave, with its state
      obtain ⟨hstops, rfl, rfl⟩ := handleError_eq_error hresult.symm
      cases type with
      | request =>
        obtain ⟨hrequest', rfl⟩ := processKafkaRequest_stops hrequest hs hprocessed hstops
        exact ⟨rfl, .inl ⟨rfl, hrequest'⟩⟩
      | response =>
        obtain ⟨hresponse', rfl⟩ := processKafkaResponse_stops hresponse hs hprocessed hstops
        exact ⟨rfl, .inr ⟨rfl, hresponse'⟩⟩
    · cases hresult
  · rintro ⟨rfl, ⟨rfl, header0, rest0, h0, hk, hv, rfl⟩ | ⟨rfl, correlationId, rest, hcid, hnone, rfl⟩⟩
    · exact processKafkaMessage_of_lt h0 hk hv _
    · exact processKafkaMessage_of_none hcid hnone

/-- The provider's handlers, from `setup`: a response to a request never seen stops the
interceptor. -/
theorem interceptor_stops_iff_unknown :
    (∀ handler ∈ ([] : List (Handler RequestHeader MetadataRequest Empty)),
      handler.Keeps WellTracked) ∧
    (∀ handler ∈ [(inletResponse : Handler ResponseHeader MetadataResponse Empty)],
      handler.Keeps WellTracked) ∧
    Reachable ([] : List (Handler RequestHeader MetadataRequest Empty)) [inletResponse] {}
      (KafkaState.setup {}) ∧
    processKafkaMessage ([] : List (Handler RequestHeader MetadataRequest Empty)) [inletResponse]
      .response [0, 0, 0, 0] (KafkaState.setup {}) =
        .ok (.error (.correlationIdNotFound 0 [0, 0, 0, 0], KafkaState.setup {})) :=
  have hrequest : ∀ handler ∈ ([] : List (Handler RequestHeader MetadataRequest Empty)),
      handler.Keeps WellTracked := by simp
  have hresponse : ∀ handler ∈ [(inletResponse : Handler ResponseHeader MetadataResponse Empty)],
      handler.Keeps WellTracked := by simp [inletResponse_keeps]
  have hcid : parseResponseCorrelationId [0, 0, 0, 0] = .ok (0, []) := by
    simp [parseResponseCorrelationId, parseInt32, parseSigned, binarySize, bind, pure, fromSigned,
      BigEndian.decode]
  ⟨hrequest, hresponse, .setup,
    (interceptor_stops_iff hrequest hresponse .setup .response [0, 0, 0, 0] _ _).2
      ⟨rfl, .inr ⟨rfl, 0, [], hcid, rfl, rfl⟩⟩⟩

/-! ### Requests go on as they came -/

/-- Whatever the handlers, and from any table with nothing in `read_buffer`: over the requests of
any sequence of outer payloads, what the interceptor forwards, then what it keeps in `read_buffer`,
is what came in; when it stops, what it forwarded is the start of what came in. -/
theorem requests_forwarded_as_received
    (requestHandlers : List (Handler RequestHeader MetadataRequest ε))
    (responseHandlers : List (Handler ResponseHeader MetadataResponse ε)) (handlerState : KafkaState)
    (payloads : List Bytes) :
    (∀ replies state, interceptPayloads (interceptMessage requestHandlers responseHandlers)
        .request payloads (setup handlerState) = .ok replies state →
          replies.flatten ++ state.readBuffer = payloads.flatten) ∧
      (∀ reason replies state, interceptPayloads (interceptMessage requestHandlers responseHandlers)
        .request payloads (setup handlerState) = .stop reason replies state →
          replies.flatten <+: payloads.flatten) := by
  have hsame : ∀ message state data state',
      interceptMessage requestHandlers responseHandlers .request message state = .ok (data, state') →
        data = message :=
    fun _ _ _ _ h => interceptMessage_request_forwards h
  exact interceptPayloads_replays hsame payloads (setup handlerState)

/-! ### One `read_buffer` for both directions -/

/-- `read_buffer` is shared by requests and responses. A request whose frame comes in two outer
payloads, cut four bytes or more into it, waits in the buffer; a response that comes in between is
read after it, as one response of the request's size, of the request's bytes and then the first
bytes of the response. Where its correlation id, read from the request's bytes, is not in the
table, the interceptor stops. -/
theorem readBuffer_mixes_directions
    (requestHandlers : List (Handler RequestHeader MetadataRequest ε))
    (responseHandlers : List (Handler ResponseHeader MetadataResponse ε)) (handlerState : KafkaState)
    {request pre rest response : Bytes} (hframe : frame request = pre ++ rest) (hrest : rest ≠ [])
    (h4 : 4 ≤ pre.length) (hlen : request.length < 2147483648)
    (hresponse : rest.length ≤ response.length) {correlationId : ℤ} {idRest : Bytes}
    (hcid : parseResponseCorrelationId (pre.drop 4 ++ response.take rest.length) =
      .ok (correlationId, idRest))
    (hnone : handlerState.correlations correlationId = none) :
    handleOuterPayload (interceptMessage requestHandlers responseHandlers) pre (setup handlerState) =
        .ok [] ⟨pre, handlerState⟩ ∧
      handleInnerPayload (interceptMessage requestHandlers responseHandlers) response
          ⟨pre, handlerState⟩ =
        .stop (.message (.ok (.correlationIdNotFound correlationId
          (pre.drop 4 ++ response.take rest.length)))) [] ⟨[], handlerState⟩ := by
  obtain ⟨hmixed, happend⟩ := frame_pending_append hframe h4 hresponse
  have hmsg : interceptMessage requestHandlers responseHandlers .response
      (pre.drop 4 ++ response.take rest.length) handlerState =
        .error (.ok (.correlationIdNotFound correlationId (pre.drop 4 ++ response.take rest.length)),
          handlerState) := by
    rw [interceptMessage, processKafkaMessage_of_none hcid hnone]
  refine ⟨processKafkaPacket_pending rfl hlen hframe hrest h4, ?_⟩
  -- the pending request goes in front of the response, and the two read as one frame
  rw [handleInnerPayload, processKafkaPacket_readBuffer, happend,
    processKafkaPacket_frame rfl (hmixed ▸ hlen), hmsg]

/-- A metadata request of version 0, cut two bytes into its api key and version, then six bytes of
a response: with the provider's handlers, from `setup`, the interceptor stops on the correlation id
`0x00030000`, the request's api key and version. -/
theorem readBuffer_mixes_directions_metadata :
    frame [0, 3, 0, 0, 0, 0, 0, 7] = [0, 0, 0, 8, 0, 3] ++ [0, 0, 0, 0, 0, 7] ∧
      parseResponseCorrelationId [0, 3, 0, 0, 0, 0, 0, 0] = .ok (196608, [0, 0, 0, 0]) ∧
      handleOuterPayload (interceptMessage ([] : List (Handler RequestHeader MetadataRequest Empty))
          [inletResponse]) [0, 0, 0, 8, 0, 3] (setup (KafkaState.setup {})) =
        .ok [] ⟨[0, 0, 0, 8, 0, 3], KafkaState.setup {}⟩ ∧
      handleInnerPayload (interceptMessage ([] : List (Handler RequestHeader MetadataRequest Empty))
          [inletResponse]) [0, 0, 0, 0, 0, 0] ⟨[0, 0, 0, 8, 0, 3], KafkaState.setup {}⟩ =
        .stop (.message (.ok (.correlationIdNotFound 196608 [0, 3, 0, 0, 0, 0, 0, 0]))) []
          ⟨[], KafkaState.setup {}⟩ :=
  have hframe : frame [0, 3, 0, 0, 0, 0, 0, 7] = [0, 0, 0, 8, 0, 3] ++ [0, 0, 0, 0, 0, 7] := by
    decide
  have hcid : parseResponseCorrelationId [0, 3, 0, 0, 0, 0, 0, 0] = .ok (196608, [0, 0, 0, 0]) := by
    simp [parseResponseCorrelationId, parseInt32, parseSigned, binarySize, bind, pure, fromSigned,
      BigEndian.decode]
  ⟨hframe, hcid, readBuffer_mixes_directions [] [inletResponse] (KafkaState.setup {}) hframe
    (by simp) (by simp) (by simp) (by simp) hcid rfl⟩

/-! ### Pointing the brokers to the inlets -/

section Inlets

variable {basePort : ℤ}

lemma createBrokerInlets_eq {response : MetadataResponse} {brokers : List Broker}
    (hbrokers : response.brokers = some brokers) (hnode : ∀ broker ∈ brokers, broker.nodeId.isSome) :
    createBrokerInlets response basePort = .ok { response with
      brokers := some (brokers.map fun broker =>
        { broker with
          host := some localhost
          port := broker.nodeId.map fun nodeId => inletPort nodeId basePort }) } := by
  have hmap : brokers.mapM (inletBroker basePort) = .ok (brokers.map fun broker =>
      { broker with
        host := some localhost
        port := broker.nodeId.map fun nodeId => inletPort nodeId basePort }) := by
    refine Except.mapM_eq_ok fun broker hb => ?_
    obtain ⟨nodeId, hn⟩ := Option.isSome_iff_exists.1 (hnode broker hb)
    simp [inletBroker, hn, pure, Except.pure]
  unfold createBrokerInlets
  rw [hbrokers]
  simp only [hmap, bind, Except.bind, pure, Except.pure]

lemma Broker.Fits.inlet {apiVersion : ℤ} {broker : Broker} (h : broker.Fits apiVersion)
    (hbase : 0 ≤ basePort) :
    Broker.Fits apiVersion
      { broker with
        host := some localhost
        port := broker.nodeId.map fun nodeId => inletPort nodeId basePort } where
  nodeId := h.nodeId
  host _ s hs := by
    cases hs
    simp [localhost]
  port p hp := by
    obtain ⟨nodeId, hn, rfl⟩ := Option.mem_map.1 hp
    have := h.nodeId nodeId hn
    unfold inletPort
    omega
  rack := h.rack
  rack_default := h.rack_default
  taggedFields_default := h.taggedFields_default

lemma MetadataResponse.Fits.inlet {response : MetadataResponse} {brokers : List Broker}
    (h : response.Fits) (hbrokers : response.brokers = some brokers) (hbase : 0 ≤ basePort) :
    MetadataResponse.Fits { response with
      brokers := some (brokers.map fun broker =>
        { broker with
          host := some localhost
          port := broker.nodeId.map fun nodeId => inletPort nodeId basePort }) } :=
  { h with
    brokers := by
      rintro l ⟨⟩
      obtain ⟨hlen, hall⟩ := h.brokers brokers hbrokers
      refine ⟨fun hv => by simpa using hlen hv, fun broker hb => ?_⟩
      obtain ⟨broker', hb', rfl⟩ := List.mem_map.1 hb
      exact (hall broker' hb').inlet hbase }

end Inlets


lemma processKafkaMessage_inletResponse
    (requestHandlers : List (Handler RequestHeader MetadataRequest ε)) {state : KafkaState}
    {correlationId : ℤ} {requestHeader : RequestHeader} {response rest : Bytes}
    {responseHeader : ResponseHeader} {size : ℕ} {content redirected : MetadataResponse}
    (htracked : state.correlations correlationId = some (.header requestHeader))
    (hcid : parseResponseCorrelationId response = .ok (correlationId, rest))
    (hparse : (parseKafkaResponseForRequest requestHeader response : ResponseParse ε) =
      .ok responseHeader size content)
    (hcreate : createBrokerInlets content (state.handlerOptions.basePort.getD 9001) = .ok redirected) :
    processKafkaMessage requestHandlers [inletResponse] .response response state =
      .ok (((reconstructResponse (response.take (response.length - size)) redirected
        (cleanupRequestHeader correlationId state)).mapError
          (·, cleanupRequestHeader correlationId state)).tryCatch
        fun error => handleError error.1 response error.2) := by
  unfold processKafkaMessage processKafkaResponse getRequestHeader
  rw [hcid]
  dsimp only
  rw [htracked]
  dsimp only
  unfold processKafkaResponseForRequest
  rw [hparse]
  simp only [handleKafkaResponse, reduceHandlers, List.foldlM_cons, List.foldlM_nil, handlerStep,
    inletResponse, cleanupRequestHeader_handlerOptions, hcreate, bind, Except.bind, pure,
    Except.pure]
  cases reconstructResponse (response.take (response.length - size)) redirected
    (cleanupRequestHeader correlationId state) <;> rfl

/-- A response to a tracked metadata request, with brokers, that the interceptor of the provider's
inlets reads: its brokers are pointed to `localhost`, at the base port plus their node id; the
entry of the request leaves the table. What is forwarded is the old header followed by the new
response as `format` writes it, which the parser reads back as the new response; or, where
`format` refuses it (a port above the int32 range, a varint above `2^32`), the response as it
came. -/
theorem inletResponse_redirects {requestHandlers : List (Handler RequestHeader MetadataRequest ε)}
    {state : KafkaState} {correlationId : ℤ} {requestHeader : RequestHeader} {response rest : Bytes}
    {responseHeader : ResponseHeader} {size : ℕ} {content : MetadataResponse}
    {brokers : List Broker}
    (htracked : state.correlations correlationId = some (.header requestHeader))
    (hcid : parseResponseCorrelationId response = .ok (correlationId, rest))
    (hparse : (parseKafkaResponseForRequest requestHeader response : ResponseParse ε) =
      .ok responseHeader size content)
    (hbrokers : content.brokers = some brokers)
    (hbase : ∀ basePort ∈ state.handlerOptions.basePort, 0 ≤ basePort) :
    ∃ redirected message,
      redirected = { content with
        brokers := some (brokers.map fun broker =>
          { broker with
            host := some localhost
            port := broker.nodeId.map fun nodeId =>
              inletPort nodeId (state.handlerOptions.basePort.getD 9001) }) } ∧
      processKafkaMessage requestHandlers [inletResponse] .response response state =
        .ok (.ok (message, cleanupRequestHeader correlationId state)) ∧
      ((∃ reason, Formatter.format redirected = .error reason ∧ message = response) ∨
        (∃ bytes, Formatter.format redirected = .ok bytes ∧
          message = response.take (response.length - size) ++ bytes ∧
          Parser.parse requestHeader.apiVersion bytes = .ok (redirected, []))) := by
  -- what the parser read: a response of a known version, which fits its layout
  obtain ⟨-, responseData, -, hp⟩ := parseKafkaResponseForRequest_ok hparse
  obtain ⟨hlo, hhi⟩ := ensures_parse_apiVersion hp
  obtain ⟨hv, hfits, -⟩ := ensures_parse hlo hhi hp
  have hnode := ensures_parse_brokers ensures_parseBroker_nodeId hp brokers hbrokers
  have hbase' : 0 ≤ state.handlerOptions.basePort.getD 9001 := by
    cases hb : state.handlerOptions.basePort with
    | none => decide
    | some basePort => exact hbase basePort hb
  -- the handler gives the redirected response, which is written back after the old header
  have hrun := processKafkaMessage_inletResponse requestHandlers htracked hcid hparse
    (createBrokerInlets_eq hbrokers hnode)
  unfold reconstructResponse at hrun
  cases hf : Formatter.format _ with
  | error reason =>
    rw [hf] at hrun
    exact ⟨_, _, rfl, hrun, .inl ⟨reason, hf, rfl⟩⟩
  | ok bytes =>
    rw [hf] at hrun
    refine ⟨_, _, rfl, hrun, .inr ⟨bytes, hf, rfl, ?_⟩⟩
    have hfits' := hfits.inlet hbrokers hbase'
    rw [← hv]
    exact parse_format_of_fits (by rwa [hv]) (by rwa [hv]) hfits' hf

/-- A metadata response of version 0 with one broker, of node 1, to a tracked request of
correlation id 0, with the default base port. -/
theorem inletResponse_redirects_broker :
    (saveRequestHeader { headerVersion := some 1, apiKey := 3, apiVersion := 0, correlationId := 0 }
      (KafkaState.setup {})).correlations 0 =
        some (.header { headerVersion := some 1, apiKey := 3, apiVersion := 0, correlationId := 0 }) ∧
    parseResponseCorrelationId [0, 0, 0, 0, 0, 0, 0, 1, 0, 0, 0, 1, 0, 0, 0, 0, 0, 0, 0, 0, 0, 0] =
      .ok (0, [0, 0, 0, 1, 0, 0, 0, 1, 0, 0, 0, 0, 0, 0, 0, 0, 0, 0]) ∧
    (parseKafkaResponseForRequest
        { headerVersion := some 1, apiKey := 3, apiVersion := 0, correlationId := 0 }
        [0, 0, 0, 0, 0, 0, 0, 1, 0, 0, 0, 1, 0, 0, 0, 0, 0, 0, 0, 0, 0, 0] : ResponseParse Empty) =
      .ok { headerVersion := some 0, apiKey := 3, apiVersion := 0, correlationId := 0 } 18
        { apiVersion := 0, brokers := some [{ nodeId := some 1, host := some [], port := some 0 }],
          topics := some [] } ∧
    (∀ basePort ∈ (KafkaState.setup {}).handlerOptions.basePort, 0 ≤ basePort) ∧
    ∃ redirected message,
      redirected =
        { apiVersion := 0, topics := some [],
          brokers := some [{ nodeId := some 1, host := some localhost, port := some (9001 + 1) }] } ∧
      processKafkaMessage ([] : List (Handler RequestHeader MetadataRequest Empty)) [inletResponse]
        .response [0, 0, 0, 0, 0, 0, 0, 1, 0, 0, 0, 1, 0, 0, 0, 0, 0, 0, 0, 0, 0, 0]
        (saveRequestHeader { headerVersion := some 1, apiKey := 3, apiVersion := 0, correlationId := 0 }
          (KafkaState.setup {})) =
        .ok (.ok (message, cleanupRequestHeader 0 (saveRequestHeader
          { headerVersion := some 1, apiKey := 3, apiVersion := 0, correlationId := 0 }
          (KafkaState.setup {})))) ∧
      ((∃ reason, Formatter.format redirected = .error reason ∧
          message = [0, 0, 0, 0, 0, 0, 0, 1, 0, 0, 0, 1, 0, 0, 0, 0, 0, 0, 0, 0, 0, 0]) ∨
        (∃ bytes, Formatter.format redirected = .ok bytes ∧
          message = [0, 0, 0, 0] ++ bytes ∧ Parser.parse 0 bytes = .ok (redirected, []))) := by
  have htracked : (saveRequestHeader
      { headerVersion := some 1, apiKey := 3, apiVersion := 0, correlationId := 0 }
      (KafkaState.setup {})).correlations 0 =
        some (.header { headerVersion := some 1, apiKey := 3, apiVersion := 0, correlationId := 0 }) := by
    simp
  have hcid : parseResponseCorrelationId
      [0, 0, 0, 0, 0, 0, 0, 1, 0, 0, 0, 1, 0, 0, 0, 0, 0, 0, 0, 0, 0, 0] =
      .ok (0, [0, 0, 0, 1, 0, 0, 0, 1, 0, 0, 0, 0, 0, 0, 0, 0, 0, 0]) := by
    simp [parseResponseCorrelationId, parseInt32, parseSigned, binarySize, bind, pure, fromSigned,
      BigEndian.decode]
  have hparse : (parseKafkaResponseForRequest
      { headerVersion := some 1, apiKey := 3, apiVersion := 0, correlationId := 0 }
      [0, 0, 0, 0, 0, 0, 0, 1, 0, 0, 0, 1, 0, 0, 0, 0, 0, 0, 0, 0, 0, 0] : ResponseParse Empty) =
      .ok { headerVersion := some 0, apiKey := 3, apiVersion := 0, correlationId := 0 } 18
        { apiVersion := 0, brokers := some [{ nodeId := some 1, host := some [], port := some 0 }],
          topics := some [] } := by
    simp [parseKafkaResponseForRequest, responseHeaderVersion, headerVersion, apiMetadata,
      parseResponseHeader, ResponseHeader.fromRequestHeader, parseResponseData, Parser.parse,
      Parser.parseBrokers, Parser.parseTopics, Parser.parseBroker, parseArray, parseNullableArray,
      parseNullableArrayOfSize, parseArrayElements, parseString, parseNullableString,
      parseNullableStringOfSize, parseInt32, parseSigned, binarySize, fromSigned, BigEndian.decode,
      bind, Except.bind, pure, Except.pure, ofParse, Except.mapError]
  have hbase : ∀ basePort ∈ (KafkaState.setup {}).handlerOptions.basePort, 0 ≤ basePort := by
    simp [KafkaState.setup]
  exact ⟨htracked, hcid, hparse, hbase, inletResponse_redirects htracked hcid hparse rfl hbase⟩

end Ockam.Elixir.Kafka
