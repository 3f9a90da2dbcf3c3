import Ockam.Elixir.KafkaProtocol

/-! `Ockam.Kafka.Interceptor.Protocol.Metadata.Response` with its `Formatter` and `Parser`
(`protocol/metadata/response`): the metadata response of api versions 0 to 12, each version with
its own layout of the fields. A field that a version does not carry is left at its struct default,
`nil`. -/

namespace Ockam.Elixir.Kafka

open Decoder

structure Broker where
  nodeId : Option ℤ := none
  host : Option Bytes := none
  port : Option ℤ := none
  rack : Option Bytes := none
  taggedFields : Option TaggedFields := none
  deriving DecidableEq

structure Partition where
  errorCode : Option ℤ := none
  partitionIndex : Option ℤ := none
  leaderId : Option ℤ := none
  leaderEpoch : Option ℤ := none
  replicaNodes : Option (List ℤ) := none
  isrNodes : Option (List ℤ) := none
  offlineReplicas : Option (List ℤ) := none
  taggedFields : Option TaggedFields := none
  deriving DecidableEq

structure Topic where
  errorCode : Option ℤ := none
  name : Option Bytes := none
  topicId : Option Bytes := none
  isInternal : Option Bool := none
  partitions : Option (List Partition) := none
  taggedFields : Option TaggedFields := none
  topicAuthorizedOperations : Option ℤ := none
  deriving DecidableEq

structure MetadataResponse where
  apiVersion : ℤ
  throttleTimeMs : Option ℤ := none
  brokers : Option (List Broker) := none
  clusterId : Option Bytes := none
  controllerId : Option ℤ := none
  topics : Option (List Topic) := none
  clusterAuthorizedOperations : Option ℤ := none
  taggedFields : Option TaggedFields := none
  deriving DecidableEq

/-- The api key of `Metadata`. -/
def apiMetadata : ℤ := 3

namespace Formatter

def formatBroker (apiVersion : ℤ) (broker : Broker) : Except FormatError Bytes :=
  if apiVersion = 0 then
    formatTypedList [formatInt32 broker.nodeId, formatString broker.host, formatInt32 broker.port]
  else if 1 ≤ apiVersion ∧ apiVersion ≤ 8 then
    formatTypedList [formatInt32 broker.nodeId, formatString broker.host, formatInt32 broker.port,
      formatNullableString broker.rack]
  else if 9 ≤ apiVersion ∧ apiVersion ≤ 12 then
    formatTypedList [formatInt32 broker.nodeId, formatCompactString broker.host,
      formatInt32 broker.port, formatCompactNullableString broker.rack,
      formatTaggedFields broker.taggedFields]
  else .error .functionClause

/-- `format_partition`: the guard of its last clause, `v9_12 >= 9 or v9_12 <= 12`, holds of every
version, so that clause takes every version above 8. -/
def formatPartition (apiVersion : ℤ) (partition : Partition) : Except FormatError Bytes :=
  if 0 ≤ apiVersion ∧ apiVersion ≤ 4 then
    formatTypedList [formatInt16 partition.errorCode, formatInt32 partition.partitionIndex,
      formatInt32 partition.leaderId, formatArray (formatInt32 ∘ some) partition.replicaNodes,
      formatArray (formatInt32 ∘ some) partition.isrNodes]
  else if apiVersion = 5 ∨ apiVersion = 6 then
    formatTypedList [formatInt16 partition.errorCode, formatInt32 partition.partitionIndex,
      formatInt32 partition.leaderId, formatArray (formatInt32 ∘ some) partition.replicaNodes,
      formatArray (formatInt32 ∘ some) partition.isrNodes,
      formatArray (formatInt32 ∘ some) partition.offlineReplicas]
  else if apiVersion = 7 ∨ apiVersion = 8 then
    formatTypedList [formatInt16 partition.errorCode, formatInt32 partition.partitionIndex,
      formatInt32 partition.leaderId, formatInt32 partition.leaderEpoch,
      formatArray (formatInt32 ∘ some) partition.replicaNodes,
      formatArray (formatInt32 ∘ some) partition.isrNodes,
      formatArray (formatInt32 ∘ some) partition.offlineReplicas]
  else
    formatTypedList [formatInt16 partition.errorCode, formatInt32 partition.partitionIndex,
      formatInt32 partition.leaderId, formatInt32 partition.leaderEpoch,
      formatCompactArray (formatInt32 ∘ some) partition.replicaNodes,
      formatCompactArray (formatInt32 ∘ some) partition.isrNodes,
      formatCompactArray (formatInt32 ∘ some) partition.offlineReplicas,
      formatTaggedFields partition.taggedFields]

def formatTopic (apiVersion : ℤ) (topic : Topic) : Except FormatError Bytes :=
  if apiVersion = 0 then
    formatTypedList [formatInt16 topic.errorCode, formatString topic.name,
      formatArray (formatPartition apiVersion) topic.partitions]
  else if 1 ≤ apiVersion ∧ apiVersion ≤ 7 then
    formatTypedList [formatInt16 topic.errorCode, formatString topic.name,
      formatBoolean topic.isInternal, formatArray (formatPartition apiVersion) topic.partitions]
  else if apiVersion = 8 then
    formatTypedList [formatInt16 topic.errorCode, formatString topic.name,
      formatBoolean topic.isInternal, formatArray (formatPartition apiVersion) topic.partitions,
      formatInt32 topic.topicAuthorizedOperations]
  else if apiVersion = 9 then
    formatTypedList [formatInt16 topic.errorCode, formatCompactString topic.name,
      formatBoolean topic.isInternal, formatCompactArray (formatPartition apiVersion) topic.partitions,
      formatInt32 topic.topicAuthorizedOperations, formatTaggedFields topic.taggedFields]
  else if apiVersion = 10 ∨ apiVersion = 11 then
    formatTypedList [formatInt16 topic.errorCode, formatCompactString topic.name,
      formatUuid topic.topicId, formatBoolean topic.isInternal,
      formatCompactArray (formatPartition apiVersion) topic.partitions,
      formatInt32 topic.topicAuthorizedOperations, formatTaggedFields topic.taggedFields]
  else if apiVersion = 12 then
    formatTypedList [formatInt16 topic.errorCode, formatCompactNullableString topic.name,
      formatUuid topic.topicId, formatBoolean topic.isInternal,
      formatCompactArray (formatPartition apiVersion) topic.partitions,
      formatInt32 topic.topicAuthorizedOperations, formatTaggedFields topic.taggedFields]
  else .error .functionClause

def format (response : MetadataResponse) : Except FormatError Bytes :=
  let apiVersion := response.apiVersion
  if apiVersion = 0 then
    formatTypedList [formatArray (formatBroker apiVersion) response.brokers,
      formatArray (formatTopic apiVersion) response.topics]
  else if apiVersion = 1 then
    formatTypedList [formatArray (formatBroker apiVersion) response.brokers,
      formatInt32 response.controllerId, formatArray (formatTopic apiVersion) response.topics]
  else if apiVersion = 2 then
    formatTypedList [formatArray (formatBroker apiVersion) response.brokers,
      formatNullableString response.clusterId, formatInt32 response.controllerId,
      formatArray (formatTopic apiVersion) response.topics]
  else if 3 ≤ apiVersion ∧ apiVersion ≤ 7 then
    formatTypedList [formatInt32 response.throttleTimeMs,
      formatArray (formatBroker apiVersion) response.brokers,
      formatNullableString response.clusterId, formatInt32 response.controllerId,
      formatArray (formatTopic apiVersion) response.topics]
  else if apiVersion = 8 then
    formatTypedList [formatInt32 response.throttleTimeMs,
      formatArray (formatBroker apiVersion) response.brokers,
      formatNullableString response.clusterId, formatInt32 response.controllerId,
      formatArray (formatTopic apiVersion) response.topics,
      formatInt32 response.clusterAuthorizedOperations]
  else if apiVersion = 9 ∨ apiVersion = 10 then
    formatTypedList [formatInt32 response.throttleTimeMs,
      formatCompactArray (formatBroker apiVersion) response.brokers,
      formatCompactNullableString response.clusterId, formatInt32 response.controllerId,
      formatCompactArray (formatTopic apiVersion) response.topics,
      formatInt32 response.clusterAuthorizedOperations, formatTaggedFields response.taggedFields]
  else if apiVersion = 11 ∨ apiVersion = 12 then
    formatTypedList [formatInt32 response.throttleTimeMs,
      formatCompactArray (formatBroker apiVersion) response.brokers,
      formatCompactNullableString response.clusterId, formatInt32 response.controllerId,
      formatCompactArray (formatTopic apiVersion) response.topics,
      formatTaggedFields response.taggedFields]
  else .error (.unsupportedApi apiMetadata apiVersion)

end Formatter

namespace Parser

def parseBroker (apiVersion : ℤ) : Parser Broker :=
  if apiVersion = 0 then do
    let nodeId ← parseInt32
    let host ← parseString
    let port ← parseInt32
    pure { nodeId := some nodeId, host := some host, port := some port }
  else if 1 ≤ apiVersion ∧ apiVersion ≤ 8 then do
    let nodeId ← parseInt32
    let host ← parseString
    let port ← parseInt32
    let rack ← parseNullableString
    pure { nodeId := some nodeId, host := some host, port := some port, rack := rack }
  else if 9 ≤ apiVersion ∧ apiVersion ≤ 12 then do
    let nodeId ← parseInt32
    let host ← parseCompactString
    let port ← parseInt32
    let rack ← parseCompactNullableString
    let taggedFields ← parseTaggedFields
    pure { nodeId := some nodeId, host := some host, port := some port, rack := rack,
           taggedFields := some taggedFields }
  else Decoder.fail .functionClause

/-- `parse_partition`, whose last clause takes every version above 8 as `format_partition`'s
does. -/
def parsePartition (apiVersion : ℤ) : Parser Partition :=
  if 0 ≤ apiVersion ∧ apiVersion ≤ 4 then do
    let errorCode ← parseInt16
    let partitionIndex ← parseInt32
    let leaderId ← parseInt32
    let replicaNodes ← parseArray parseInt32
    let isrNodes ← parseArray parseInt32
    pure { errorCode := some errorCode, partitionIndex := some partitionIndex,
           leaderId := some leaderId, replicaNodes := some replicaNodes,
           isrNodes := some isrNodes }
  else if apiVersion = 5 ∨ apiVersion = 6 then do
    let errorCode ← parseInt16
    let partitionIndex ← parseInt32
    let leaderId ← parseInt32
    let replicaNodes ← parseArray parseInt32
    let isrNodes ← parseArray parseInt32
    let offlineReplicas ← parseArray parseInt32
    pure { errorCode := some errorCode, partitionIndex := some partitionIndex,
           leaderId := some leaderId, replicaNodes := some replicaNodes,
           isrNodes := some isrNodes, offlineReplicas := some offlineReplicas }
  else if apiVersion = 7 ∨ apiVersion = 8 then do
    let errorCode ← parseInt16
    let partitionIndex ← parseInt32
    let leaderId ← parseInt32
    let leaderEpoch ← parseInt32
    let replicaNodes ← parseArray parseInt32
    let isrNodes ← parseArray parseInt32
    let offlineReplicas ← parseArray parseInt32
    pure { errorCode := some errorCode, partitionIndex := some partitionIndex,
           leaderId := some leaderId, leaderEpoch := some leaderEpoch,
           replicaNodes := some replicaNodes, isrNodes := some isrNodes,
           offlineReplicas := some offlineReplicas }
  else do
    let errorCode ← parseInt16
    let partitionIndex ← parseInt32
    let leaderId ← parseInt32
    let leaderEpoch ← parseInt32
    let replicaNodes ← parseCompactArray parseInt32
    let isrNodes ← parseCompactArray parseInt32
    let offlineReplicas ← parseCompactArray parseInt32
    let taggedFields ← parseTaggedFields
    pure { errorCode := some errorCode, partitionIndex := some partitionIndex,
           leaderId := some leaderId, leaderEpoch := some leaderEpoch,
           replicaNodes := replicaNodes, isrNodes := isrNodes,
           offlineReplicas := offlineReplicas, taggedFields := some taggedFields }

def parsePartitions (apiVersion : ℤ) : Parser (Option (List Partition)) :=
  if apiVersion < 9 then do
    let partitions ← parseArray (parsePartition apiVersion)
    pure (some partitions)
  else if apiVersion ≤ 12 then parseCompactArray (parsePartition apiVersion)
  else Decoder.fail .functionClause

def parseTopic (apiVersion : ℤ) : Parser Topic :=
  if apiVersion = 0 then do
    let errorCode ← parseInt16
    let name ← parseString
    let partitions ← parsePartitions apiVersion
    pure { errorCode := some errorCode, name := some name, partitions := partitions }
  else if 1 ≤ apiVersion ∧ apiVersion ≤ 7 then do
    let errorCode ← parseInt16
    let name ← parseString
    let isInternal ← parseBoolean
    let partitions ← parsePartitions apiVersion
    pure { errorCode := some errorCode, name := some name, isInternal := some isInternal,
           partitions := partitions }
  else if apiVersion = 8 then do
    let errorCode ← parseInt16
    let name ← parseString
    let isInternal ← parseBoolean
    let partitions ← parsePartitions apiVersion
    let topicAuthorizedOperations ← parseInt32
    pure { errorCode := some errorCode, name := some name, isInternal := some isInternal,
           partitions := partitions, topicAuthorizedOperations := some topicAuthorizedOperations }
  else if apiVersion = 9 then do
    let errorCode ← parseInt16
    let name ← parseCompactString
    let isInternal ← parseBoolean
    let partitions ← parsePartitions apiVersion
    let topicAuthorizedOperations ← parseInt32
    let taggedFields ← parseTaggedFields
    pure { errorCode := some errorCode, name := some name, isInternal := some isInternal,
           partitions := partitions, topicAuthorizedOperations := some topicAuthorizedOperations,
           taggedFields := some taggedFields }
  else if apiVersion = 10 ∨ apiVersion = 11 then do
    let errorCode ← parseInt16
    let name ← parseCompactString
    let topicId ← parseUuid
    let isInternal ← parseBoolean
    let partitions ← parsePartitions apiVersion
    let topicAuthorizedOperations ← parseInt32
    let taggedFields ← parseTaggedFields
    pure { errorCode := some errorCode, name := some name, topicId := some topicId,
           isInternal := some isInternal, partitions := partitions,
           topicAuthorizedOperations := some topicAuthorizedOperations,
           taggedFields := some taggedFields }
  else if apiVersion = 12 then do
    let errorCode ← parseInt16
    let name ← parseCompactNullableString
    let topicId ← parseUuid
    let isInternal ← parseBoolean
    let partitions ← parsePartitions apiVersion
    let topicAuthorizedOperations ← parseInt32
    let taggedFields ← parseTaggedFields
    pure { errorCode := some errorCode, name := name, topicId := some topicId,
           isInternal := some isInternal, partitions := partitions,
           topicAuthorizedOperations := some topicAuthorizedOperations,
           taggedFields := some taggedFields }
  else Decoder.fail .functionClause

def parseBrokers (apiVersion : ℤ) : Parser (Option (List Broker)) :=
  if apiVersion < 9 then do
    let brokers ← parseArray (parseBroker apiVersion)
    pure (some brokers)
  else if apiVersion ≤ 12 then parseCompactArray (parseBroker apiVersion)
  else Decoder.fail .functionClause

def parseTopics (apiVersion : ℤ) : Parser (Option (List Topic)) :=
  if apiVersion < 9 then do
    let topics ← parseArray (parseTopic apiVersion)
    pure (some topics)
  else if apiVersion ≤ 12 then parseCompactArray (parseTopic apiVersion)
  else Decoder.fail .functionClause

def parse (apiVersion : ℤ) : Parser MetadataResponse :=
  if apiVersion = 0 then do
    let brokers ← parseBrokers apiVersion
    let topics ← parseTopics apiVersion
    pure { apiVersion, brokers, topics }
  else if apiVersion = 1 then do
    let brokers ← parseBrokers apiVersion
    let controllerId ← parseInt32
    let topics ← parseTopics apiVersion
    pure { apiVersion, brokers, topics, controllerId := some controllerId }
  else if apiVersion = 2 then do
    let brokers ← parseBrokers apiVersion
    let clusterId ← parseNullableString
    let controllerId ← parseInt32
    let topics ← parseTopics apiVersion
    pure { apiVersion, brokers, topics, controllerId := some controllerId, clusterId }
  else if 3 ≤ apiVersion ∧ apiVersion ≤ 7 then do
    let throttleTimeMs ← parseInt32
    let brokers ← parseBrokers apiVersion
    let clusterId ← parseNullableString
    let controllerId ← parseInt32
    let topics ← parseTopics apiVersion
    pure { apiVersion, brokers, topics, controllerId := some controllerId, clusterId,
           throttleTimeMs := some throttleTimeMs }
  else if apiVersion = 8 then do
    let throttleTimeMs ← parseInt32
    let brokers ← parseBrokers apiVersion
    let clusterId ← parseNullableString
    let controllerId ← parseInt32
    let topics ← parseTopics apiVersion
    let clusterAuthorizedOperations ← parseInt32
    pure { apiVersion, brokers, topics, controllerId := some controllerId, clusterId,
           throttleTimeMs := some throttleTimeMs,
           clusterAuthorizedOperations := some clusterAuthorizedOperations }
  else if apiVersion = 9 ∨ apiVersion = 10 then do
    let throttleTimeMs ← parseInt32
    let brokers ← parseBrokers apiVersion
    let clusterId ← parseCompactNullableString
    let controllerId ← parseInt32
    let topics ← parseTopics apiVersion
    let clusterAuthorizedOperations ← parseInt32
    let taggedFields ← parseTaggedFields
    pure { apiVersion, brokers, topics, controllerId := some controllerId, clusterId,
           throttleTimeMs := some throttleTimeMs,
           clusterAuthorizedOperations := some clusterAuthorizedOperations,
           taggedFields := some taggedFields }
  else if apiVersion = 11 ∨ apiVersion = 12 then do
    let throttleTimeMs ← parseInt32
    let brokers ← parseBrokers apiVersion
    let clusterId ← parseCompactNullableString
    let controllerId ← parseInt32
    let topics ← parseTopics apiVersion
    let taggedFields ← parseTaggedFields
    pure { apiVersion, brokers, topics, controllerId := some controllerId, clusterId,
           throttleTimeMs := some throttleTimeMs, taggedFields := some taggedFields }
  else Decoder.fail (.unsupportedVersion apiVersion)

end Parser

open Formatter Ockam.Elixir.Kafka.Parser

/-! ### Where the codec does not round-trip

Versions 3 to 12 write `throttle_time_ms` first. `format_type(:int32, _)` bounds it from above
only, so a value below `-2^31` is written as its low 32 bits and read back `2^32` higher. The other
way, `parse_unsigned_varint` reads five bytes, 35 bits, where `format_type(:unsigned_varint, _)`
takes values under `2^32`: a tag that the parser accepts the formatter refuses. -/

lemma format_throttleTimeMs {response : MetadataResponse} (hlo : 3 ≤ response.apiVersion)
    (hhi : response.apiVersion ≤ 12) :
    ∃ parts, format response = formatTypedList (formatInt32 response.throttleTimeMs :: parts) := by
  unfold format
  dsimp only
  -- the layouts of versions 3 to 12 all start with the throttle time
  split_ifs <;> first | (exfalso; omega) | exact ⟨_, rfl⟩

lemma parse_throttleTimeMs {apiVersion : ℤ} (hlo : 3 ≤ apiVersion) (hhi : apiVersion ≤ 12)
    {data rest : Bytes} {response : MetadataResponse}
    (h : parse apiVersion data = .ok (response, rest)) :
    ∃ t data', parseInt32 data = .ok (t, data') ∧ response.throttleTimeMs = some t := by
  unfold parse at h
  -- every later field keeps the throttle time read first, up to the struct built at the end
  split_ifs at h <;> first
    | (exfalso; omega)
    | exact Ensures.first (Q := fun t (y : MetadataResponse) => y.throttleTimeMs = some t)
        (fun t => by
          repeat (first | exact Ensures.pure rfl | refine Ensures.bind fun _ => ?_)) h

lemma parse_format_throttleTimeMs {response response' : MetadataResponse}
    (hlo : 3 ≤ response.apiVersion) (hhi : response.apiVersion ≤ 12) {t : ℤ}
    (ht : response.throttleTimeMs = some t) (htop : t < 2147483648) {bytes rest : Bytes}
    (hformat : format response = .ok bytes) (hparse : parse response.apiVersion bytes = .ok (response', rest)) :
    response'.throttleTimeMs = some (fromSigned 4 (t % 2 ^ (8 * 4)).toNat) := by
  obtain ⟨parts, hparts⟩ := format_throttleTimeMs hlo hhi
  rw [hparts, ht] at hformat
  obtain ⟨w, rest, hw, -, rfl⟩ := formatTypedList_cons_eq_ok hformat
  rw [formatInt32, formatSigned_of_lt htop] at hw
  cases hw
  obtain ⟨t', data', ht', hthrottle⟩ := parse_throttleTimeMs hlo hhi hparse
  rw [parseInt32, reads_parseSigned _ 4 t rest] at ht'
  cases ht'
  exact hthrottle

lemma format_taggedFields {response : MetadataResponse} (hlo : 9 ≤ response.apiVersion)
    (hhi : response.apiVersion ≤ 12) :
    ∃ parts, formatTaggedFields response.taggedFields ∈ parts ∧ format response = formatTypedList parts := by
  unfold format
  dsimp only
  split_ifs <;> first | (exfalso; omega) | exact ⟨_, by simp, rfl⟩

lemma format_ne_ok_of_tag {response : MetadataResponse} (hlo : 9 ≤ response.apiVersion)
    (hhi : response.apiVersion ≤ 12) {fieldsMap : TaggedFields}
    (hmap : response.taggedFields = some fieldsMap) {field : ℤ × Bytes}
    (hmem : field ∈ fieldsMap.fields) (htag : 4294967296 ≤ field.1) (bytes : Bytes) :
    format response ≠ .ok bytes := by
  obtain ⟨reason, hreason⟩ := formatTaggedFields_eq_error hmem htag
  obtain ⟨parts, hpart, hparts⟩ := format_taggedFields hlo hhi
  rw [hmap, hreason] at hpart
  rw [hparts]
  exact formatTypedList_ne_ok reason hpart bytes

lemma bigSigned_four_zero : bigSigned 4 0 = [0, 0, 0, 0] := by decide

theorem parse_format_mismatch :
    (∀ response : MetadataResponse, 3 ≤ response.apiVersion → response.apiVersion ≤ 12 →
      ∀ t, response.throttleTimeMs = some t → t < -2147483648 →
      ∀ bytes, format response = .ok bytes → parse response.apiVersion bytes ≠ .ok (response, [])) ∧
    (∀ tag : ℕ, 4294967296 ≤ tag → tag < 2 ^ 35 →
      ∃ response, parse 9 ([0, 0, 0, 0, 1, 0, 0, 0, 0, 0, 1, 0, 0, 0, 0, 1] ++ Varint.encode tag ++ [0]) =
        .ok (response, []) ∧ ∀ bytes, format response ≠ .ok bytes) := by
  constructor
  · intro response hlo hhi t ht hlow bytes hformat hparse
    have hread := parse_format_throttleTimeMs hlo hhi ht (by omega) hformat hparse
    rw [ht, Option.some.injEq] at hread
    -- a throttle time read as a signed 32-bit integer is at least `-2^31`
    have hmin : -2 ^ (8 * 4 - 1) ≤ fromSigned 4 (t % 2 ^ (8 * 4)).toNat :=
      neg_le_fromSigned (by norm_num) _
    rw [← hread] at hmin
    norm_num at hmin
    omega
  · intro tag hlo hhi
    have hsorted : [((tag : ℤ), ([] : Bytes))].Pairwise (·.1 < ·.1) := List.pairwise_singleton _ _
    refine ⟨
      { apiVersion := 9, throttleTimeMs := some 0, brokers := some [], controllerId := some 0,
        topics := some [], clusterAuthorizedOperations := some 0,
        taggedFields := some ⟨[((tag : ℤ), [])], hsorted⟩ }, ?_, ?_⟩
    · -- each field of the version-9 layout in turn
      have hint := reads_parseInt32 (n := 0) (by norm_num) (by norm_num)
      have hbrokers : Reads (parseCompactArray (parseBroker 9)) (some [])
          (Varint.encode (([] : List Broker).length + 1) ++ ([] : List Bytes).flatten) :=
        reads_parseCompactArray (by norm_num) .nil
      have htopics : Reads (parseCompactArray (parseTopic 9)) (some [])
          (Varint.encode (([] : List Topic).length + 1) ++ ([] : List Bytes).flatten) :=
        reads_parseCompactArray (by norm_num) .nil
      have htagged := reads_parseTaggedFields ⟨[((tag : ℤ), [])], hsorted⟩ (by norm_num)
        (by simp; omega)
      have hr := Reads.apply_self (p := parse 9) (by
        rw [parse, if_neg (by norm_num), if_neg (by norm_num), if_neg (by norm_num),
          if_neg (by norm_num), if_neg (by norm_num), if_pos (by norm_num), parseBrokers,
          if_neg (by norm_num), if_pos (by norm_num), parseTopics, if_neg (by norm_num),
          if_pos (by norm_num)]
        exact hint.bind (hbrokers.bind (reads_parseCompactNullableString_none.bind (hint.bind
          (htopics.bind (hint.bind (htagged.map _)))))))
      refine (congrArg (parse 9) ?_).trans hr
      simp [bigSigned_four_zero, Varint.encode_of_lt]
    · exact format_ne_ok_of_tag (by norm_num) (by norm_num) rfl (List.mem_singleton_self _)
        (show (4294967296 : ℤ) ≤ tag by exact_mod_cast hlo)

theorem parse_format_mismatch_three :
    format
        { apiVersion := 3, throttleTimeMs := some (-2147483649), brokers := some [],
          controllerId := some 0, topics := some [] } =
        .ok [127, 255, 255, 255, 0, 0, 0, 0, 255, 255, 0, 0, 0, 0, 0, 0, 0, 0] ∧
      parse 3 [127, 255, 255, 255, 0, 0, 0, 0, 255, 255, 0, 0, 0, 0, 0, 0, 0, 0] ≠
        .ok (
          { apiVersion := 3, throttleTimeMs := some (-2147483649), brokers := some [],
            controllerId := some 0, topics := some [] }, []) ∧
      ∃ response, parse 9 ([0, 0, 0, 0, 1, 0, 0, 0, 0, 0, 1, 0, 0, 0, 0, 1] ++
        Varint.encode 4294967296 ++ [0]) = .ok (response, []) ∧ ∀ bytes, format response ≠ .ok bytes :=
  have hformat : format
      { apiVersion := 3, throttleTimeMs := some (-2147483649), brokers := some [],
        controllerId := some 0, topics := some [] } =
      .ok [127, 255, 255, 255, 0, 0, 0, 0, 255, 255, 0, 0, 0, 0, 0, 0, 0, 0] := by decide
  ⟨hformat, parse_format_mismatch.1
    { apiVersion := 3, throttleTimeMs := some (-2147483649), brokers := some [],
      controllerId := some 0, topics := some [] } (by norm_num) (by norm_num) (-2147483649) rfl
    (by norm_num) [127, 255, 255, 255, 0, 0, 0, 0, 255, 255, 0, 0, 0, 0, 0, 0, 0, 0] hformat,
    parse_format_mismatch.2 4294967296 (by norm_num) (by norm_num)⟩

end Ockam.Elixir.Kafka
