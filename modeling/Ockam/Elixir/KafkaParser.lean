import Ockam.Elixir.KafkaReformat
import Ockam.Lib.StateMonad

/-! The entry points of `Protocol.Parser` (`interceptor/protocol/parser.ex`) and the metadata
request parser: a request is read as its header and body, a response with the header of the request
it answers. Only `unsupported_api_version` stops the interceptor, on a metadata request above
version 12 (`parseKafkaRequest_stops`) or a response to one (`parseKafkaResponseForRequest_stops`). -/

namespace Ockam.Elixir.Kafka

open Ockam.Lib Decoder

/-- What the interceptor raises, which ends its process. -/
inductive Raise where
  /-- a value that no clause of a `with`'s `else` matches -/
  | withClauseError
  /-- a value that no clause of a `case` matches -/
  | caseClauseError
  /-- `Enum.map` of `nil` -/
  | protocolUndefined
  /-- `base_port + nil` -/
  | arithmeticError
  deriving DecidableEq, Repr

/-- `%RequestHeader{}`; a field the header version does not carry stays `nil`. -/
structure RequestHeader where
  headerVersion : Option ℕ := none
  apiKey : ℤ
  apiVersion : ℤ
  correlationId : ℤ
  clientId : Option Bytes := none
  taggedFields : Option TaggedFields := none

/-- `%ResponseHeader{}`. -/
structure ResponseHeader where
  headerVersion : Option ℕ := none
  apiKey : ℤ
  apiVersion : ℤ
  correlationId : ℤ
  clientId : Option Bytes := none
  taggedFields : Option TaggedFields := none

def ResponseHeader.fromRequestHeader (requestHeader : RequestHeader) : ResponseHeader where
  apiKey := requestHeader.apiKey
  apiVersion := requestHeader.apiVersion
  correlationId := requestHeader.correlationId
  clientId := requestHeader.clientId

/-- `%Metadata.Request.Topic{}`. -/
structure RequestTopic where
  name : Option Bytes := none
  topicId : Option Bytes := none
  taggedFields : Option TaggedFields := none

/-- The `topics` of a metadata request: names up to version 8, topic structs from version 9. -/
inductive RequestTopics where
  | names (names : Option (List Bytes))
  | topics (topics : Option (List RequestTopic))

/-- `%Metadata.Request{}`. -/
structure MetadataRequest where
  apiVersion : ℤ
  topics : RequestTopics
  allowAutoTopicCreation : Option Bool := none
  includeClusterAuthorizedOperations : Option Bool := none
  includeTopicAuthorizedOperations : Option Bool := none
  taggedFields : Option TaggedFields := none

/-- The reasons of `{:error, reason}`. Those of `parse_type` and of the metadata response parser
are `parse`; a handler may return any of them, or one of its own. -/
inductive ErrorReason (ε : Type) where
  | unsupportedApi (apiKey apiVersion : ℤ)
  | unsupportedApiVersion (apiKey apiVersion : ℤ)
  | cannotParseBaseHeader (data : Bytes)
  | unsupportedHeaderVersion (headerVersion : ℕ)
  | cannotParseResponseHeader (headerVersion : ℕ) (response : Bytes)
  | cannotParseCorrelationId (response : Bytes)
  | correlationIdNotFound (correlationId : ℤ) (response : Bytes)
  | metadataRequestUnsupportedVersion (apiVersion : ℤ)
  | parse (reason : ParseError)
  | format (reason : FormatError)
  | unsupportedRequest (request : MetadataRequest)
  | handler (reason : ε)

variable {ε : Type}

/-- The reasons on which `handle_error` stops the interceptor rather than forward the message. -/
def ErrorReason.stops : ErrorReason ε → Bool
  | .correlationIdNotFound _ _ => true
  | .unsupportedApiVersion _ _ => true
  | _ => false

/-- A `parse_type` inside a `with`: its `{:error, reason}` ends the chain. -/
def ofParse {α : Type} (x : Except ParseError α) : Except (ErrorReason ε) α :=
  x.mapError .parse

@[simp] lemma ofParse_ok {α : Type} (a : α) : (ofParse (.ok a) : Except (ErrorReason ε) α) = .ok a := rfl

@[simp] lemma ofParse_error {α : Type} (e : ParseError) :
    (ofParse (.error e) : Except (ErrorReason ε) α) = .error (.parse e) := rfl

lemma ofParse_eq_ok {α : Type} {x : Except ParseError α} {a : α} :
    (ofParse x : Except (ErrorReason ε) α) = .ok a ↔ x = .ok a := by
  cases x <;> simp [ofParse, Except.mapError]

/-- `request_header_version` and `response_header_version`: the header version of the metadata
api below version 9 and from 9 to 12. -/
def headerVersion (low high : ℕ) (apiKey apiVersion : ℤ) : Except (ErrorReason ε) ℕ :=
  if apiKey = apiMetadata then
    if apiVersion < 9 then .ok low
    else if apiVersion ≤ 12 then .ok high
    else .error (.unsupportedApiVersion apiKey apiVersion)
  else .error (.unsupportedApi apiKey apiVersion)

def requestHeaderVersion (apiKey apiVersion : ℤ) : Except (ErrorReason ε) ℕ :=
  headerVersion 1 2 apiKey apiVersion

def responseHeaderVersion (apiKey apiVersion : ℤ) : Except (ErrorReason ε) ℕ :=
  headerVersion 0 1 apiKey apiVersion

/-- `parse_request_header(header_version, data)`: the api key, the api version and the correlation
id take eight bytes, signed, whatever the header version. -/
def parseRequestHeader (headerVersion : ℕ) (data : Bytes) :
    Except (ErrorReason ε) (RequestHeader × Bytes) :=
  if 8 ≤ data.length then
    let header : RequestHeader :=
      { apiKey := fromSigned 2 (BigEndian.decode (data.take 2))
        apiVersion := fromSigned 2 (BigEndian.decode ((data.drop 2).take 2))
        correlationId := fromSigned 4 (BigEndian.decode ((data.drop 4).take 4)) }
    let rest := data.drop 8
    match headerVersion with
    | 0 => .ok ({ header with headerVersion := some 0 }, rest)
    | 1 => do
      let (clientId, rest) ← ofParse (parseNullableString rest)
      pure ({ header with clientId, headerVersion := some 1 }, rest)
    | 2 => do
      let (clientId, rest) ← ofParse (parseNullableString rest)
      let (tags, rest) ← ofParse (parseTaggedFields rest)
      pure ({ header with clientId, taggedFields := some tags, headerVersion := some 2 }, rest)
    | other => .error (.unsupportedHeaderVersion other)
  else .error (.cannotParseBaseHeader data)

/-- `parse_response_header(header_version, request_header, response)`: version 0 matches the
correlation id of the request, version 1 skips it. -/
def parseResponseHeader (headerVersion : ℕ) (requestHeader : RequestHeader) (response : Bytes) :
    Except (ErrorReason ε) (ResponseHeader × Bytes) :=
  let responseHeader := ResponseHeader.fromRequestHeader requestHeader
  match headerVersion with
  | 0 =>
    if 4 ≤ response.length ∧
        fromSigned 4 (BigEndian.decode (response.take 4)) = requestHeader.correlationId then
      .ok ({ responseHeader with headerVersion := some 0 }, response.drop 4)
    else .error (.cannotParseResponseHeader 0 response)
  | 1 =>
    if 4 ≤ response.length then do
      let (taggedFields, rest) ← ofParse (parseTaggedFields (response.drop 4))
      pure ({ responseHeader with headerVersion := some 1, taggedFields := some taggedFields },
        rest)
    else .error (.cannotParseResponseHeader 1 response)
  | other => .error (.cannotParseResponseHeader other response)

def parseResponseCorrelationId (data : Bytes) : Except ParseError (ℤ × Bytes) := parseInt32 data

/-- What a `with` chain over `parse_type` returns: `{:ok, value, rest}`, `{:error, reason}`, or the
`{:parse_array, reason, data}` of `parse_type({:array, _}, data)`, which gives back the failure of its
nullable array without `:error`, and which a `with` passes on as it is. -/
inductive Parsed (ε α : Type) where
  | ok (value : α) (rest : Bytes)
  | error (reason : ErrorReason ε)
  | parseArray

namespace Parsed

variable {α β : Type}

def ofParse (x : Except ParseError (α × Bytes)) : Parsed ε α :=
  match x with
  | .ok (value, rest) => .ok value rest
  | .error reason => .error (.parse reason)

def map (f : α → β) : Parsed ε α → Parsed ε β
  | .ok value rest => .ok (f value) rest
  | .error reason => .error reason
  | .parseArray => .parseArray

end Parsed

/-- `parse_type({:array, type}, data)`, with the `{:parse_array, reason, data}` of its third clause. -/
def parseTypeArray {α : Type} (type : Parser α) (data : Bytes) : Parsed ε (List α) :=
  match parseNullableArray type data with
  | .ok (some array, rest) => .ok array rest
  | .ok (none, _) => .error (.parse (.negativeSize (-1)))
  | .error _ => .parseArray

namespace RequestParser

/-- `parse_topic(api_version, data)`, which `parse` calls from version 9 on. -/
def parseTopic (apiVersion : ℤ) : Parser RequestTopic :=
  if apiVersion = 9 then do
    let name ← parseCompactString
    let taggedFields ← parseTaggedFields
    pure { name := some name, taggedFields := some taggedFields }
  else if 10 ≤ apiVersion ∧ apiVersion ≤ 12 then do
    let topicId ← parseUuid
    let name ← parseCompactNullableString
    let taggedFields ← parseTaggedFields
    pure { topicId := some topicId, name, taggedFields := some taggedFields }
  else Decoder.fail .functionClause

/-- `Metadata.Request.Parser.parse(api_version, data)`; the clause `v1_3 <= 3` also takes every
negative version. -/
def parse (apiVersion : ℤ) (data : Bytes) : Parsed ε MetadataRequest :=
  if apiVersion = 0 then
    (parseTypeArray parseString data).map fun topics =>
      { apiVersion, topics := .names (some topics) }
  else if apiVersion ≤ 3 then
    Parsed.ofParse ((do
      let topics ← parseNullableArray parseString
      pure { apiVersion, topics := .names topics } : Parser MetadataRequest) data)
  else if apiVersion ≤ 7 then
    Parsed.ofParse ((do
      let topics ← parseNullableArray parseString
      let allowAutoTopicCreation ← parseBoolean
      pure { apiVersion, topics := .names topics,
             allowAutoTopicCreation := some allowAutoTopicCreation } : Parser MetadataRequest)
        data)
  else if apiVersion = 8 then
    Parsed.ofParse ((do
      let topics ← parseNullableArray parseString
      let allowAutoTopicCreation ← parseBoolean
      let includeClusterAuthorizedOperations ← parseBoolean
      let includeTopicAuthorizedOperations ← parseBoolean
      pure { apiVersion, topics := .names topics,
             allowAutoTopicCreation := some allowAutoTopicCreation,
             includeClusterAuthorizedOperations := some includeClusterAuthorizedOperations,
             includeTopicAuthorizedOperations := some includeTopicAuthorizedOperations } :
        Parser MetadataRequest) data)
  else if apiVersion ≤ 10 then
    Parsed.ofParse ((do
      let topics ← parseCompactArray (parseTopic apiVersion)
      let allowAutoTopicCreation ← parseBoolean
      let includeClusterAuthorizedOperations ← parseBoolean
      let includeTopicAuthorizedOperations ← parseBoolean
      let taggedFields ← parseTaggedFields
      pure { apiVersion, topics := .topics topics,
             allowAutoTopicCreation := some allowAutoTopicCreation,
             includeClusterAuthorizedOperations := some includeClusterAuthorizedOperations,
             includeTopicAuthorizedOperations := some includeTopicAuthorizedOperations,
             taggedFields := some taggedFields } : Parser MetadataRequest) data)
  else if apiVersion = 11 ∨ apiVersion = 12 then
    Parsed.ofParse ((do
      let topics ← parseCompactArray (parseTopic apiVersion)
      let allowAutoTopicCreation ← parseBoolean
      let includeTopicAuthorizedOperations ← parseBoolean
      let taggedFields ← parseTaggedFields
      pure { apiVersion, topics := .topics topics,
             allowAutoTopicCreation := some allowAutoTopicCreation,
             includeTopicAuthorizedOperations := some includeTopicAuthorizedOperations,
             taggedFields := some taggedFields } : Parser MetadataRequest) data)
  else .error (.metadataRequestUnsupportedVersion apiVersion)

end RequestParser

def parseRequestData (apiKey apiVersion : ℤ) (data : Bytes) : Parsed ε MetadataRequest :=
  if apiKey = apiMetadata then RequestParser.parse apiVersion data
  else .error (.unsupportedApi apiKey apiVersion)

def parseResponseData (apiKey apiVersion : ℤ) (data : Bytes) :
    Except (ErrorReason ε) (MetadataResponse × Bytes) :=
  if apiKey = apiMetadata then ofParse (Parser.parse apiVersion data)
  else .error (.unsupportedApi apiKey apiVersion)

/-- What `parse_kafka_request` returns. -/
inductive RequestParse (ε : Type) where
  | ok (header : RequestHeader) (size : ℕ) (content : MetadataRequest)
  /-- `{:error, {:unsupported_api, api, header0}}`, with the header read at version 0 -/
  | unsupportedApi (apiKey apiVersion : ℤ) (header : RequestHeader)
  | error (reason : ErrorReason ε)

/-- The `else` of the `with` of `parse_kafka_request`, on an `{:error, reason}`. -/
def RequestParse.ofError (header0 : RequestHeader) : ErrorReason ε → RequestParse ε
  | .unsupportedApi apiKey apiVersion => .unsupportedApi apiKey apiVersion header0
  | reason => .error reason

/-- `parse_kafka_request(request)`: the header is read at version 0 for its api, then again at the
version the api asks for. A body with bytes left over, or a `{:parse_array, _, _}`, matches no
clause of the `else`. -/
def parseKafkaRequest (request : Bytes) : Except Raise (RequestParse ε) :=
  match parseRequestHeader 0 request with
  | .error reason => pure (.error reason)
  | .ok (header0, _) =>
    let header : Except (ErrorReason ε) (RequestHeader × Bytes) := do
      let requestHeaderVersion ← requestHeaderVersion header0.apiKey header0.apiVersion
      parseRequestHeader requestHeaderVersion request
    match header with
    | .error reason => pure (.ofError header0 reason)
    | .ok (requestHeader, requestData) =>
      match parseRequestData header0.apiKey header0.apiVersion requestData with
      | .ok requestContent [] => pure (.ok requestHeader requestData.length requestContent)
      | .ok _ (_ :: _) => throw .withClauseError
      | .parseArray => throw .withClauseError
      | .error reason => pure (.ofError header0 reason)

/-- What `parse_kafka_response_for_request` returns. -/
inductive ResponseParse (ε : Type) where
  | ok (header : ResponseHeader) (size : ℕ) (content : MetadataResponse)
  | error (reason : ErrorReason ε)
  /-- `{:ok, content, rest}` of a body with bytes left over, which the `with` returns as it is -/
  | leftover (content : MetadataResponse) (rest : Bytes)
  /-- the untagged `{:parse_array, reason, data}` of a classic array, which the `with` returns as
  it is -/
  | parseArray

def parseKafkaResponseForRequest (requestHeader : RequestHeader) (response : Bytes) :
    ResponseParse ε :=
  let chain : Except (ErrorReason ε) (ResponseHeader × Bytes × MetadataResponse × Bytes) := do
    let responseHeaderVersion ←
      responseHeaderVersion requestHeader.apiKey requestHeader.apiVersion
    let (responseHeader, responseData) ←
      parseResponseHeader responseHeaderVersion requestHeader response
    let (responseContent, rest) ←
      parseResponseData requestHeader.apiKey requestHeader.apiVersion responseData
    pure (responseHeader, responseData, responseContent, rest)
  match chain with
  | .ok (responseHeader, responseData, responseContent, []) =>
    .ok responseHeader responseData.length responseContent
  | .ok (_, _, responseContent, rest) => .leftover responseContent rest
  | .error (.parse (.parseArray _)) => .parseArray
  | .error reason => .error reason

/-! ### What the readings fail with -/

section HeaderVersion

variable {low high hv : ℕ} {apiKey apiVersion : ℤ}

lemma headerVersion_eq_ok
    (h : (headerVersion low high apiKey apiVersion : Except (ErrorReason ε) ℕ) = .ok hv) :
    apiKey = apiMetadata ∧ apiVersion ≤ 12 := by
  unfold headerVersion at h
  split_ifs at h with hk h9 h12
  · exact ⟨hk, by omega⟩
  · exact ⟨hk, h12⟩

lemma headerVersion_stops {reason : ErrorReason ε}
    (h : headerVersion low high apiKey apiVersion = .error reason) (hstops : reason.stops) :
    apiKey = apiMetadata ∧ 12 < apiVersion ∧ reason = .unsupportedApiVersion apiKey apiVersion := by
  unfold headerVersion at h
  split_ifs at h with hk h9 h12
  · cases h
    exact ⟨hk, by omega, rfl⟩
  · cases h
    cases hstops

end HeaderVersion

lemma parseRequestHeader_zero {hv : ℕ} {data rest : Bytes} {header : RequestHeader}
    (h : (parseRequestHeader hv data : Except (ErrorReason ε) _) = .ok (header, rest)) :
    (parseRequestHeader 0 data : Except (ErrorReason ε) _) =
      .ok ({ header with headerVersion := some 0, clientId := none, taggedFields := none },
        data.drop 8) := by
  unfold parseRequestHeader at h ⊢
  split_ifs at h ⊢ with h8
  -- each version reads the three fields before anything else, and fails or keeps them
  rcases hv with _ | _ | _ | hv
  · cases h
    rfl
  · simp only [ofParse, Except.mapError, bind, Except.bind, pure, Except.pure] at h
    split at h <;> cases h
    rfl
  · simp only [ofParse, Except.mapError, bind, Except.bind, pure, Except.pure] at h
    split at h
    · cases h
    · split at h <;> cases h
      rfl
  · cases h


lemma parseRequestHeader_stops {hv : ℕ} {data : Bytes} {reason : ErrorReason ε}
    (h : parseRequestHeader hv data = .error reason) : reason.stops = false := by
  unfold parseRequestHeader at h
  split_ifs at h
  · -- past the eight bytes, only the client id and the tagged fields can fail
    rcases hv with _ | _ | _ | hv
    · cases h
    · cases hc : parseNullableString (data.drop 8) with
      | error e =>
        simp only [hc, ofParse_error, bind, Except.bind, Except.error.injEq] at h
        rw [← h]
        rfl
      | ok p => simp [hc, bind, Except.bind, pure, Except.pure] at h
    · cases hc : parseNullableString (data.drop 8) with
      | error e =>
        simp only [hc, ofParse_error, bind, Except.bind, Except.error.injEq] at h
        rw [← h]
        rfl
      | ok p =>
        cases ht : parseTaggedFields p.2 with
        | error e =>
          simp only [hc, ht, ofParse_ok, ofParse_error, bind, Except.bind, Except.error.injEq] at h
          rw [← h]
          rfl
        | ok q => simp [hc, ht, bind, Except.bind, pure, Except.pure] at h
    · cases h
      rfl
  · cases h
    rfl

lemma RequestParser.parse_stops {apiVersion : ℤ} {data : Bytes} {reason : ErrorReason ε}
    (h : RequestParser.parse apiVersion data = .error reason) : reason.stops = false := by
  unfold RequestParser.parse at h
  split_ifs at h
  · -- version 0: `parse_type({:array, :string})`
    unfold parseTypeArray at h
    rcases hp : parseNullableArray parseString data with _ | ⟨_ | topics, rest⟩ <;>
      simp only [hp, Parsed.map, reduceCtorEq, Parsed.error.injEq] at h
    rw [← h]
    rfl
  all_goals first | (cases h; rfl) | (unfold Parsed.ofParse at h; split at h <;> cases h; rfl)

lemma parseKafkaRequest_ok {request : Bytes} {header : RequestHeader} {size : ℕ}
    {content : MetadataRequest}
    (h : (parseKafkaRequest request : Except Raise (RequestParse ε)) = .ok (.ok header size content)) :
    header.apiKey = apiMetadata ∧ header.apiVersion ≤ 12 := by
  unfold parseKafkaRequest at h
  split at h
  · cases h
  · rename_i header0 rest0 h0
    dsimp only at h
    split at h
    · unfold RequestParse.ofError at h
      split at h <;> cases h
    · rename_i requestHeader requestData hchain
      obtain ⟨v, hv, hh⟩ := (Except.bind_eq_ok_iff _ _ _).1 hchain
      split at h
      · cases h
        -- the header read again carries the api of the header read at version 0
        have h0' := parseRequestHeader_zero hh
        rw [h0] at h0'
        obtain ⟨rfl, -⟩ := Prod.mk.inj (Except.ok.inj h0')
        exact headerVersion_eq_ok hv
      · cases h
      · cases h
      · unfold RequestParse.ofError at h
        split at h <;> cases h

lemma RequestParse.ofError_eq_error {header0 : RequestHeader} {reason reason' : ErrorReason ε}
    (h : RequestParse.ofError header0 reason = .error reason') : reason = reason' := by
  unfold RequestParse.ofError at h
  split at h
  · cases h
  · cases h
    rfl

lemma parseKafkaRequest_stops {request : Bytes} {reason : ErrorReason ε}
    (h : parseKafkaRequest request = .ok (.error reason)) (hs : reason.stops) :
    ∃ header0 rest0, (parseRequestHeader 0 request : Except (ErrorReason ε) _) = .ok (header0, rest0) ∧
      header0.apiKey = apiMetadata ∧ 12 < header0.apiVersion ∧
      reason = .unsupportedApiVersion header0.apiKey header0.apiVersion := by
  have hns : ∀ {reason' : ErrorReason ε}, reason'.stops = false → reason' ≠ reason :=
    fun h' heq => by rw [heq, hs] at h'; cases h'
  unfold parseKafkaRequest at h
  split at h
  · rename_i reason' h0
    cases h
    exact absurd rfl (hns (parseRequestHeader_stops h0))
  · rename_i header0 rest0 h0
    dsimp only at h
    split at h
    · rename_i reason' hchain
      obtain rfl := RequestParse.ofError_eq_error (Except.ok.inj h)
      -- the header version fails, or the header read at that version does
      cases hv : requestHeaderVersion header0.apiKey header0.apiVersion with
      | error e =>
        rw [hv] at hchain
        cases hchain
        obtain ⟨hk, h12, rfl⟩ := headerVersion_stops hv hs
        exact ⟨header0, rest0, h0, hk, h12, rfl⟩
      | ok v =>
        rw [hv] at hchain
        exact absurd rfl (hns (parseRequestHeader_stops hchain))
    · rename_i requestHeader requestData hchain
      split at h <;> try cases h
      rename_i reason' hd
      obtain rfl := RequestParse.ofError_eq_error (Except.ok.inj h)
      unfold parseRequestData at hd
      split_ifs at hd
      · exact absurd rfl (hns (RequestParser.parse_stops hd))
      · cases hd
        cases hs

lemma parseKafkaRequest_of_lt {request rest0 : Bytes} {header0 : RequestHeader}
    (h0 : (parseRequestHeader 0 request : Except (ErrorReason ε) _) = .ok (header0, rest0)) (hk : header0.apiKey = apiMetadata)
    (hv : 12 < header0.apiVersion) :
    (parseKafkaRequest request : Except Raise (RequestParse ε)) =
      .ok (.error (.unsupportedApiVersion header0.apiKey header0.apiVersion)) := by
  have hver : (requestHeaderVersion header0.apiKey header0.apiVersion : Except (ErrorReason ε) ℕ) =
      .error (.unsupportedApiVersion header0.apiKey header0.apiVersion) := by
    unfold requestHeaderVersion headerVersion
    rw [if_pos hk, if_neg (by omega), if_neg (by omega)]
  unfold parseKafkaRequest
  rw [h0]
  dsimp only
  rw [hver]
  rfl

lemma parseResponseHeader_stops {hv : ℕ} {requestHeader : RequestHeader} {response : Bytes}
    {reason : ErrorReason ε} (h : parseResponseHeader hv requestHeader response = .error reason) :
    reason.stops = false := by
  unfold parseResponseHeader at h
  split at h
  · split_ifs at h
    cases h
    rfl
  · split_ifs at h
    · cases ht : parseTaggedFields (response.drop 4) with
      | error e =>
        simp only [ht, ofParse_error, bind, Except.bind, Except.error.injEq] at h
        rw [← h]
        rfl
      | ok q => simp [ht, bind, Except.bind, pure, Except.pure] at h
    · cases h
      rfl
  · cases h
    rfl

lemma parseKafkaResponseForRequest_ok {requestHeader : RequestHeader} {response : Bytes}
    {responseHeader : ResponseHeader} {size : ℕ} {content : MetadataResponse}
    (h : (parseKafkaResponseForRequest requestHeader response : ResponseParse ε) =
      .ok responseHeader size content) :
    requestHeader.apiKey = apiMetadata ∧ ∃ responseData, size = responseData.length ∧
      Parser.parse requestHeader.apiVersion responseData = .ok (content, []) := by
  unfold parseKafkaResponseForRequest at h
  dsimp only at h
  split at h
  · rename_i responseHeader' responseData content' hchain
    cases h
    obtain ⟨v, hv, hchain⟩ := (Except.bind_eq_ok_iff _ _ _).1 hchain
    obtain ⟨⟨responseHeader'', responseData'⟩, -, hchain⟩ := (Except.bind_eq_ok_iff _ _ _).1 hchain
    obtain ⟨⟨content'', rest⟩, hd, hchain⟩ := (Except.bind_eq_ok_iff _ _ _).1 hchain
    simp only [pure, Except.pure, Except.ok.injEq, Prod.mk.injEq] at hchain
    obtain ⟨-, rfl, rfl, rfl⟩ := hchain
    unfold parseResponseData at hd
    split_ifs at hd with hk
    exact ⟨hk, _, rfl, ofParse_eq_ok.1 hd⟩
  all_goals cases h

lemma parseKafkaResponseForRequest_stops {requestHeader : RequestHeader} {response : Bytes}
    {reason : ErrorReason ε} (h : parseKafkaResponseForRequest requestHeader response = .error reason)
    (hs : reason.stops) :
    requestHeader.apiKey = apiMetadata ∧ 12 < requestHeader.apiVersion ∧
      reason = .unsupportedApiVersion requestHeader.apiKey requestHeader.apiVersion := by
  have hns : ∀ {reason' : ErrorReason ε}, reason'.stops = false → reason' ≠ reason :=
    fun h' heq => by rw [heq, hs] at h'; cases h'
  unfold parseKafkaResponseForRequest at h
  dsimp only at h
  split at h
  · cases h
  · cases h
  · cases h
  · rename_i reason' _ hchain
    cases h
    -- the error comes from the header version, the header, or the body
    rcases (Except.bind_eq_error_iff _ _ _).1 hchain with hv | ⟨v, -, hchain⟩
    · exact headerVersion_stops hv hs
    rcases (Except.bind_eq_error_iff _ _ _).1 hchain with hh | ⟨p, -, hchain⟩
    · exact absurd rfl (hns (parseResponseHeader_stops hh))
    rcases (Except.bind_eq_error_iff _ _ _).1 hchain with hd | ⟨q, -, hchain⟩
    · unfold parseResponseData at hd
      split_ifs at hd
      · cases hp : Parser.parse requestHeader.apiVersion p.2 with
        | error e' =>
          rw [hp, ofParse_error] at hd
          cases hd
          cases hs
        | ok q =>
          rw [hp, ofParse_ok] at hd
          cases hd
      · cases hd
        cases hs
    · cases hchain

section Metadata

open Ockam.Elixir.Kafka.Parser

variable {apiVersion : ℤ}

lemma ensures_parse_apiVersion :
    Ensures (parse apiVersion) fun _ => 0 ≤ apiVersion ∧ apiVersion ≤ 12 := by
  unfold parse
  split_ifs
  all_goals first
    | exact Ensures.fail _
    | (intro _ _ _ _
       omega)

lemma ensures_parseBroker_nodeId :
    Ensures (parseBroker apiVersion) fun broker => broker.nodeId.isSome := by
  unfold parseBroker
  split_ifs
  all_goals first
    | exact Ensures.fail _
    | repeat (first | exact Ensures.pure rfl | refine Ensures.bind fun _ => ?_)

lemma ensures_parse_brokers {P : Broker → Prop} (hp : Ensures (parseBroker apiVersion) P) :
    Ensures (parse apiVersion) fun response => ∀ brokers ∈ response.brokers, ∀ b ∈ brokers, P b := by
  have hbrokers : Ensures (parseBrokers apiVersion) fun brokers => ∀ l ∈ brokers, ∀ b ∈ l, P b := by
    unfold parseBrokers
    split_ifs
    · refine Ensures.bind_of (ensures_parseArray hp) fun l hl => Ensures.pure ?_
      rintro l' ⟨⟩
      exact hl.2
    · exact ensures_parseCompactArray hp
    · exact Ensures.fail _
  unfold parse
  split_ifs
  all_goals repeat (first
    | exact Ensures.fail _
    | exact Ensures.pure hb
    | refine Ensures.bind_of hbrokers fun brokers hb => ?_
    | refine Ensures.bind fun _ => ?_)

end Metadata

end Ockam.Elixir.Kafka
