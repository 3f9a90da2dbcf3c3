import Ockam.Lib.AssocMap

/-! The correlation table of the Kafka interceptors (`kafka::protocol_aware`): a request whose
response is rewritten is recorded under its correlation id, and a response is decoded with what is
recorded under the id it carries. The codecs of `kafka_protocol` are not modelled. Nothing is removed
from the table: along any run it holds the last request recorded for each id (`run_find?`). -/

namespace Ockam.Kafka

inductive ApiKey where
  | produce
  | fetch
  | metadata
  | findCoordinator
  | leaderAndIsr
  | updateMetadata
  | other (key : ℤ)
  deriving DecidableEq, Repr

/-- `RequestHeader` as the interceptors read it. -/
structure RequestHeader where
  requestApiKey : ApiKey
  requestApiVersion : ℤ
  correlationId : ℤ
  deriving DecidableEq, Repr

structure RequestInfo where
  requestApiKey : ApiKey
  requestApiVersion : ℤ
  deriving DecidableEq, Repr

/-- `InterceptError::Io(InvalidData)`, the one error the table's paths return. -/
inductive InterceptError where
  | invalidData
  deriving DecidableEq, Repr

abbrev RequestMap := AssocMap ℤ RequestInfo

def RequestHeader.info (header : RequestHeader) : RequestInfo :=
  ⟨header.requestApiKey, header.requestApiVersion⟩

/-- `InletInterceptorImpl::intercept_request_impl`: `handled` is whether `handle_produce_request`
or `handle_fetch_request` gets through the body. -/
def interceptRequestImpl (requestMap : RequestMap) (header : RequestHeader) (handled : Bool) :
    Except InterceptError RequestMap :=
  match header.requestApiKey with
  | .produce => if handled then .ok requestMap else .error .invalidData
  | .fetch =>
    if handled then .ok (requestMap.insert header.correlationId ⟨.fetch, header.requestApiVersion⟩)
    else .error .invalidData
  | .metadata | .findCoordinator => .ok (requestMap.insert header.correlationId header.info)
  | .leaderAndIsr | .updateMetadata => .error .invalidData
  | .other _ => .ok requestMap

/-- `OutletInterceptorImpl::intercept_request`. -/
def outletInterceptRequest (requestMap : RequestMap) (header : RequestHeader) (_handled : Bool) :
    Except InterceptError RequestMap :=
  if header.requestApiKey = .metadata then
    .ok (requestMap.insert header.correlationId ⟨.metadata, header.requestApiVersion⟩)
  else .ok requestMap

/-- What both `intercept_response`s decode a response with: the entry under its id, which stays. -/
def lookupRequest (requestMap : RequestMap) (correlationId : ℤ) : Option RequestInfo :=
  requestMap.find? correlationId

/-- The requests and responses of one connection, in the order the interceptor sees them. -/
inductive Message where
  | request (header : RequestHeader) (handled : Bool)
  | response (correlationId : ℤ)

/-- A run of an interceptor whose request side is `interceptRequest`: the table at the end, and for
each response what it was decoded with. -/
def run (interceptRequest : RequestMap → RequestHeader → Bool → Except InterceptError RequestMap) :
    RequestMap → List Message → Except InterceptError (RequestMap × List (Option RequestInfo))
  | requestMap, [] => .ok (requestMap, [])
  | requestMap, .request header handled :: msgs =>
    match interceptRequest requestMap header handled with
    | .error e => .error e
    | .ok requestMap => run interceptRequest requestMap msgs
  | requestMap, .response correlationId :: msgs =>
    match run interceptRequest requestMap msgs with
    | .error e => .error e
    | .ok (requestMap', decoded) =>
      .ok (requestMap', lookupRequest requestMap correlationId :: decoded)

/-- The entry a request leaves in the table when the interceptor lets it through. -/
def inletRecords (header : RequestHeader) : Option RequestInfo :=
  match header.requestApiKey with
  | .fetch | .metadata | .findCoordinator => some header.info
  | _ => none

def outletRecords (header : RequestHeader) : Option RequestInfo :=
  if header.requestApiKey = .metadata then some header.info else none

/-- The table after a request that `records` says what it leaves. -/
def record (records : RequestHeader → Option RequestInfo) (requestMap : RequestMap)
    (header : RequestHeader) : RequestMap :=
  match records header with
  | some info => requestMap.insert header.correlationId info
  | none => requestMap

/-- The last entry the requests of a run leave under `c`. -/
def lastRecorded (records : RequestHeader → Option RequestInfo) (c : ℤ) : List Message → Option RequestInfo
  | [] => none
  | .request header _ :: msgs =>
    (lastRecorded records c msgs).or (if header.correlationId = c then records header else none)
  | .response _ :: msgs => lastRecorded records c msgs

section Requests

variable {requestMap requestMap' : RequestMap} {header : RequestHeader} {handled : Bool}

lemma interceptRequestImpl_eq_ok (h : interceptRequestImpl requestMap header handled = .ok requestMap') :
    requestMap' = record inletRecords requestMap header := by
  unfold interceptRequestImpl at h
  cases hk : header.requestApiKey <;> rw [hk] at h
  case produce =>
    split_ifs at h
    cases h
    simp [record, inletRecords, hk]
  -- a fetch goes in under its own key and version, once its relays are started
  case fetch =>
    split_ifs at h
    cases h
    simp [record, inletRecords, RequestHeader.info, hk]
  case metadata | findCoordinator =>
    cases h
    simp [record, inletRecords, hk]
  case leaderAndIsr | updateMetadata => cases h
  case other k =>
    cases h
    simp [record, inletRecords, hk]

lemma outletInterceptRequest_eq_ok
    (h : outletInterceptRequest requestMap header handled = .ok requestMap') :
    requestMap' = record outletRecords requestMap header := by
  unfold outletInterceptRequest at h
  split_ifs at h with hk <;> cases h
  · simp [record, outletRecords, RequestHeader.info, hk]
  · simp [record, outletRecords, hk]

lemma interceptRequestImpl_of_recorded
    (hk : header.requestApiKey = .metadata ∨ header.requestApiKey = .findCoordinator) :
    interceptRequestImpl requestMap header handled =
      .ok (requestMap.insert header.correlationId header.info) := by
  rcases hk with hk | hk <;> simp [interceptRequestImpl, hk]

lemma interceptRequestImpl_of_unrecorded
    (hk : header.requestApiKey = .produce ∨ ∃ k, header.requestApiKey = .other k) :
    interceptRequestImpl requestMap header true = .ok requestMap := by
  rcases hk with hk | ⟨k, hk⟩ <;> simp [interceptRequestImpl, hk]

lemma find?_record (records : RequestHeader → Option RequestInfo) (c : ℤ) :
    (record records requestMap header).find? c =
      (if header.correlationId = c then records header else none).or (requestMap.find? c) := by
  unfold record
  cases hr : records header with
  | none => simp
  | some info =>
    by_cases hc : header.correlationId = c
    · simp [AssocMap.find?_insert, hc]
    · simp [AssocMap.find?_insert, Ne.symm hc, hc]

end Requests

section Run

variable {interceptRequest : RequestMap → RequestHeader → Bool → Except InterceptError RequestMap}
  {records : RequestHeader → Option RequestInfo}

theorem run_find?
    (hstep : ∀ requestMap header handled requestMap',
      interceptRequest requestMap header handled = .ok requestMap' →
        requestMap' = record records requestMap header) :
    ∀ {requestMap requestMap' : RequestMap} {msgs : List Message} {decoded : List (Option RequestInfo)},
      run interceptRequest requestMap msgs = .ok (requestMap', decoded) →
        ∀ c, requestMap'.find? c = (lastRecorded records c msgs).or (requestMap.find? c)
  | requestMap, requestMap', [], decoded, h, c => by
    cases h
    simp [lastRecorded]
  | requestMap, requestMap', .request header handled :: msgs, decoded, h, c => by
    rw [run] at h
    split at h
    · cases h
    rename_i requestMap₁ h₁
    rw [run_find? hstep h c, hstep _ _ _ _ h₁, find?_record, lastRecorded, Option.or_assoc]
  | requestMap, requestMap', .response correlationId :: msgs, decoded, h, c => by
    rw [run] at h
    split at h
    · cases h
    rename_i requestMap₁ decoded₁ h₁
    cases h
    rw [run_find? hstep h₁ c, lastRecorded]

theorem interceptRequestImpl_run_find? {requestMap requestMap' : RequestMap} {msgs : List Message}
    {decoded : List (Option RequestInfo)}
    (h : run interceptRequestImpl requestMap msgs = .ok (requestMap', decoded)) (c : ℤ) :
    requestMap'.find? c = (lastRecorded inletRecords c msgs).or (requestMap.find? c) :=
  run_find? (fun _ _ _ _ h => interceptRequestImpl_eq_ok h) h c

theorem outletInterceptRequest_run_find? {requestMap requestMap' : RequestMap} {msgs : List Message}
    {decoded : List (Option RequestInfo)}
    (h : run outletInterceptRequest requestMap msgs = .ok (requestMap', decoded)) (c : ℤ) :
    requestMap'.find? c = (lastRecorded outletRecords c msgs).or (requestMap.find? c) :=
  run_find? (fun _ _ _ _ h => outletInterceptRequest_eq_ok h) h c

end Run

@[simp] lemma lookupRequest_insert (requestMap : RequestMap) (c : ℤ) (info : RequestInfo) :
    lookupRequest (requestMap.insert c info) c = some info := by
  simp [lookupRequest, AssocMap.find?_insert]

/-- A `Metadata` or `FindCoordinator` request and its response, then a request with the same
correlation id that the inlet interceptor lets through without recording it (a `Produce`, or a kind
it passes over) and its response: the table still holds the first request, though no request is in
flight, and the second response is decoded with the first request's api key and version. -/
theorem interceptRequestImpl_stale_entry (requestMap : RequestMap) {h₁ h₂ : RequestHeader}
    (h₁key : h₁.requestApiKey = .metadata ∨ h₁.requestApiKey = .findCoordinator)
    (h₂key : h₂.requestApiKey = .produce ∨ ∃ k, h₂.requestApiKey = .other k)
    (hid : h₂.correlationId = h₁.correlationId) :
    run interceptRequestImpl requestMap
        [.request h₁ true, .response h₁.correlationId, .request h₂ true, .response h₂.correlationId] =
      .ok (requestMap.insert h₁.correlationId h₁.info, [some h₁.info, some h₁.info]) := by
  simp only [run, interceptRequestImpl_of_recorded h₁key, interceptRequestImpl_of_unrecorded h₂key,
    hid, lookupRequest_insert]

/-- A `Metadata` request of version 12 under id 5, then a `Produce` of version 9 reusing the id. -/
theorem interceptRequestImpl_stale_entry_five :
    run interceptRequestImpl AssocMap.empty
        [.request ⟨.metadata, 12, 5⟩ true, .response 5, .request ⟨.produce, 9, 5⟩ true, .response 5] =
      .ok (AssocMap.empty.insert 5 ⟨.metadata, 12⟩, [some ⟨.metadata, 12⟩, some ⟨.metadata, 12⟩]) :=
  interceptRequestImpl_stale_entry AssocMap.empty (.inl rfl) (.inl rfl) rfl

end Ockam.Kafka
