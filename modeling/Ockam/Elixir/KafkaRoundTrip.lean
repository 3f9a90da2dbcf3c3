import Ockam.Elixir.KafkaMetadata

/-! The metadata codec round-trips: for every version from 0 to 12 and every response that `Fits`
its layout, `parse` reads back what `format` writes (`parse_format_of_fits`). `Fits` asks what
`format` does not check: absent fields at `nil`, integers and sizes in range, uuids of 16 bytes. -/

namespace Ockam.Elixir.Kafka

open Decoder Formatter Ockam.Elixir.Kafka.Parser

/-- An array whose elements fit, and which a classic layout, below version 9, can count in the
int32 of its size. -/
def ArrayFits {α : Type} (apiVersion : ℤ) (fits : α → Prop) (array : Option (List α)) : Prop :=
  ∀ l ∈ array, (apiVersion < 9 → l.length < 2147483648) ∧ ∀ a ∈ l, fits a

structure Broker.Fits (apiVersion : ℤ) (broker : Broker) : Prop where
  nodeId : ∀ n ∈ broker.nodeId, -2147483648 ≤ n
  host : apiVersion < 9 → ∀ s ∈ broker.host, s.length < 32768
  port : ∀ n ∈ broker.port, -2147483648 ≤ n
  rack : apiVersion < 9 → ∀ s ∈ broker.rack, s.length < 32768
  rack_default : apiVersion = 0 → broker.rack = none
  taggedFields_default : apiVersion < 9 → broker.taggedFields = none

structure Partition.Fits (apiVersion : ℤ) (partition : Partition) : Prop where
  errorCode : ∀ n ∈ partition.errorCode, -32768 ≤ n
  partitionIndex : ∀ n ∈ partition.partitionIndex, -2147483648 ≤ n
  leaderId : ∀ n ∈ partition.leaderId, -2147483648 ≤ n
  leaderEpoch : ∀ n ∈ partition.leaderEpoch, -2147483648 ≤ n
  replicaNodes : ArrayFits apiVersion (-2147483648 ≤ ·) partition.replicaNodes
  isrNodes : ArrayFits apiVersion (-2147483648 ≤ ·) partition.isrNodes
  offlineReplicas : ArrayFits apiVersion (-2147483648 ≤ ·) partition.offlineReplicas
  leaderEpoch_default : apiVersion < 7 → partition.leaderEpoch = none
  offlineReplicas_default : apiVersion < 5 → partition.offlineReplicas = none
  taggedFields_default : apiVersion < 9 → partition.taggedFields = none

structure Topic.Fits (apiVersion : ℤ) (topic : Topic) : Prop where
  errorCode : ∀ n ∈ topic.errorCode, -32768 ≤ n
  name : apiVersion < 9 → ∀ s ∈ topic.name, s.length < 32768
  topicId : ∀ u ∈ topic.topicId, u.length = 16
  partitions : ArrayFits apiVersion (Partition.Fits apiVersion) topic.partitions
  topicAuthorizedOperations : ∀ n ∈ topic.topicAuthorizedOperations, -2147483648 ≤ n
  isInternal_default : apiVersion = 0 → topic.isInternal = none
  topicId_default : apiVersion < 10 → topic.topicId = none
  topicAuthorizedOperations_default : apiVersion < 8 → topic.topicAuthorizedOperations = none
  taggedFields_default : apiVersion < 9 → topic.taggedFields = none

structure MetadataResponse.Fits (response : MetadataResponse) : Prop where
  throttleTimeMs : ∀ n ∈ response.throttleTimeMs, -2147483648 ≤ n
  brokers : ArrayFits response.apiVersion (Broker.Fits response.apiVersion) response.brokers
  clusterId : response.apiVersion < 9 → ∀ s ∈ response.clusterId, s.length < 32768
  controllerId : ∀ n ∈ response.controllerId, -2147483648 ≤ n
  topics : ArrayFits response.apiVersion (Topic.Fits response.apiVersion) response.topics
  clusterAuthorizedOperations : ∀ n ∈ response.clusterAuthorizedOperations, -2147483648 ≤ n
  throttleTimeMs_default : response.apiVersion < 3 → response.throttleTimeMs = none
  clusterId_default : response.apiVersion < 2 → response.clusterId = none
  controllerId_default : response.apiVersion = 0 → response.controllerId = none
  clusterAuthorizedOperations_default :
    response.apiVersion < 8 ∨ 11 ≤ response.apiVersion → response.clusterAuthorizedOperations = none
  taggedFields_default : response.apiVersion < 9 → response.taggedFields = none

section Versions

variable {apiVersion : ℤ}

lemma readsBack_int32_elem {n : ℤ} (hn : -2147483648 ≤ n) :
    ReadsBack ((formatInt32 ∘ some) n) parseInt32 (· = n) :=
  (readsBack_int32 fun m hm => by cases hm; exact hn).mono fun _ h => Option.some.inj h

lemma readsBack_int32s_classic (hv : apiVersion < 9) {nodes : Option (List ℤ)}
    (h : ArrayFits apiVersion (-2147483648 ≤ ·) nodes) :
    ReadsBack (formatArray (formatInt32 ∘ some) nodes) (parseArray parseInt32) fun ns => some ns = nodes :=
  readsBack_array fun ns hns => ⟨(h ns hns).1 hv, fun n hn => readsBack_int32_elem ((h ns hns).2 n hn)⟩

lemma readsBack_int32s_compact {nodes : Option (List ℤ)} (h : ArrayFits apiVersion (-2147483648 ≤ ·) nodes) :
    ReadsBack (formatCompactArray (formatInt32 ∘ some) nodes) (parseCompactArray parseInt32) (· = nodes) :=
  readsBack_compactArray fun ns hns n hn => readsBack_int32_elem ((h ns hns).2 n hn)

section VersionedArrays

variable {α : Type} {fmt : α → Except FormatError Bytes} {p : Parser α} {fits : α → Prop}
  {o : Option (List α)} {parser : Parser (Option (List α))}

lemma readsBack_versioned_classic
    (hparser : parser = if apiVersion < 9 then (do let l ← parseArray p; Pure.pure (some l))
      else if apiVersion ≤ 12 then parseCompactArray p else Decoder.fail .functionClause)
    (helem : ∀ a, fits a → ReadsBack (fmt a) p (· = a)) (hv : apiVersion < 9)
    (h : ArrayFits apiVersion fits o) : ReadsBack (formatArray fmt o) parser (· = o) := by
  rw [hparser, if_pos hv]
  exact readsBack_someArray fun l hl => ⟨(h l hl).1 hv, fun a ha => helem a ((h l hl).2 a ha)⟩

lemma readsBack_versioned_compact
    (hparser : parser = if apiVersion < 9 then (do let l ← parseArray p; Pure.pure (some l))
      else if apiVersion ≤ 12 then parseCompactArray p else Decoder.fail .functionClause)
    (helem : ∀ a, fits a → ReadsBack (fmt a) p (· = a)) (h9 : 9 ≤ apiVersion)
    (h12 : apiVersion ≤ 12) (h : ArrayFits apiVersion fits o) :
    ReadsBack (formatCompactArray fmt o) parser (· = o) := by
  rw [hparser, if_neg (by omega), if_pos h12]
  exact readsBack_compactArray fun l hl a ha => helem a ((h l hl).2 a ha)

end VersionedArrays

lemma readsBack_broker (hlo : 0 ≤ apiVersion) (hhi : apiVersion ≤ 12) {broker : Broker}
    (hfits : broker.Fits apiVersion) :
    ReadsBack (formatBroker apiVersion broker) (parseBroker apiVersion) (· = broker) := by
  obtain ⟨nodeId, host, port, rack, taggedFields⟩ := broker
  unfold formatBroker parseBroker
  split_ifs with h0 h8 h12
  · refine (readsBack_int32 hfits.nodeId).cons fun nodeId' hn => ?_
    refine (readsBack_string (hfits.host (by omega))).cons fun host' hh => ?_
    refine (readsBack_int32 hfits.port).cons fun port' hp => ReadsBack.pure ?_
    subst hn hh hp
    obtain rfl : rack = none := hfits.rack_default h0
    obtain rfl : taggedFields = none := hfits.taggedFields_default (by omega)
    rfl
  · refine (readsBack_int32 hfits.nodeId).cons fun nodeId' hn => ?_
    refine (readsBack_string (hfits.host (by omega))).cons fun host' hh => ?_
    refine (readsBack_int32 hfits.port).cons fun port' hp => ?_
    refine (readsBack_nullableString (hfits.rack (by omega))).cons fun rack' hr => ReadsBack.pure ?_
    subst hn hh hp hr
    obtain rfl : taggedFields = none := hfits.taggedFields_default (by omega)
    rfl
  · refine (readsBack_int32 hfits.nodeId).cons fun nodeId' hn => ?_
    refine (readsBack_compactString host).cons fun host' hh => ?_
    refine (readsBack_int32 hfits.port).cons fun port' hp => ?_
    refine (readsBack_compactNullableString rack).cons fun rack' hr => ?_
    refine (readsBack_taggedFields taggedFields).cons fun taggedFields' ht => ReadsBack.pure ?_
    subst hn hh hp hr ht
    rfl
  · omega

lemma readsBack_partition (hlo : 0 ≤ apiVersion) (hhi : apiVersion ≤ 12) {partition : Partition}
    (hfits : partition.Fits apiVersion) :
    ReadsBack (formatPartition apiVersion partition) (parsePartition apiVersion) (· = partition) := by
  obtain ⟨errorCode, partitionIndex, leaderId, leaderEpoch, replicaNodes, isrNodes, offlineReplicas,
    taggedFields⟩ := partition
  unfold formatPartition parsePartition
  split_ifs with h4 h6 h8
  · refine (readsBack_int16 hfits.errorCode).cons fun errorCode' he => ?_
    refine (readsBack_int32 hfits.partitionIndex).cons fun partitionIndex' hi => ?_
    refine (readsBack_int32 hfits.leaderId).cons fun leaderId' hl => ?_
    refine (readsBack_int32s_classic (by omega) hfits.replicaNodes).cons fun replicaNodes' hr => ?_
    refine (readsBack_int32s_classic (by omega) hfits.isrNodes).cons fun isrNodes' hs =>
      ReadsBack.pure ?_
    subst he hi hl hr hs
    obtain rfl : leaderEpoch = none := hfits.leaderEpoch_default (by omega)
    obtain rfl : offlineReplicas = none := hfits.offlineReplicas_default (by omega)
    obtain rfl : taggedFields = none := hfits.taggedFields_default (by omega)
    rfl
  · refine (readsBack_int16 hfits.errorCode).cons fun errorCode' he => ?_
    refine (readsBack_int32 hfits.partitionIndex).cons fun partitionIndex' hi => ?_
    refine (readsBack_int32 hfits.leaderId).cons fun leaderId' hl => ?_
    refine (readsBack_int32s_classic (by omega) hfits.replicaNodes).cons fun replicaNodes' hr => ?_
    refine (readsBack_int32s_classic (by omega) hfits.isrNodes).cons fun isrNodes' hs => ?_
    refine (readsBack_int32s_classic (by omega) hfits.offlineReplicas).cons fun offlineReplicas' ho =>
      ReadsBack.pure ?_
    subst he hi hl hr hs ho
    obtain rfl : leaderEpoch = none := hfits.leaderEpoch_default (by omega)
    obtain rfl : taggedFields = none := hfits.taggedFields_default (by omega)
    rfl
  · refine (readsBack_int16 hfits.errorCode).cons fun errorCode' he => ?_
    refine (readsBack_int32 hfits.partitionIndex).cons fun partitionIndex' hi => ?_
    refine (readsBack_int32 hfits.leaderId).cons fun leaderId' hl => ?_
    refine (readsBack_int32 hfits.leaderEpoch).cons fun leaderEpoch' hp => ?_
    refine (readsBack_int32s_classic (by omega) hfits.replicaNodes).cons fun replicaNodes' hr => ?_
    refine (readsBack_int32s_classic (by omega) hfits.isrNodes).cons fun isrNodes' hs => ?_
    refine (readsBack_int32s_classic (by omega) hfits.offlineReplicas).cons fun offlineReplicas' ho =>
      ReadsBack.pure ?_
    subst he hi hl hp hr hs ho
    obtain rfl : taggedFields = none := hfits.taggedFields_default (by omega)
    rfl
  · -- every version above 8 takes the last clause, with compact arrays and tagged fields
    refine (readsBack_int16 hfits.errorCode).cons fun errorCode' he => ?_
    refine (readsBack_int32 hfits.partitionIndex).cons fun partitionIndex' hi => ?_
    refine (readsBack_int32 hfits.leaderId).cons fun leaderId' hl => ?_
    refine (readsBack_int32 hfits.leaderEpoch).cons fun leaderEpoch' hp => ?_
    refine (readsBack_int32s_compact hfits.replicaNodes).cons fun replicaNodes' hr => ?_
    refine (readsBack_int32s_compact hfits.isrNodes).cons fun isrNodes' hs => ?_
    refine (readsBack_int32s_compact hfits.offlineReplicas).cons fun offlineReplicas' ho => ?_
    refine (readsBack_taggedFields taggedFields).cons fun taggedFields' ht => ReadsBack.pure ?_
    subst he hi hl hp hr hs ho ht
    rfl

lemma readsBack_topic (hlo : 0 ≤ apiVersion) (hhi : apiVersion ≤ 12) {topic : Topic}
    (hfits : topic.Fits apiVersion) :
    ReadsBack (formatTopic apiVersion topic) (parseTopic apiVersion) (· = topic) := by
  obtain ⟨errorCode, name, topicId, isInternal, partitions, taggedFields,
    topicAuthorizedOperations⟩ := topic
  have hpartition : ∀ partition : Partition, partition.Fits apiVersion →
      ReadsBack (formatPartition apiVersion partition) (parsePartition apiVersion) (· = partition) :=
    fun _ => readsBack_partition hlo hhi
  unfold formatTopic parseTopic
  split_ifs with h0 h7 h8 h9 h11 h12
  · refine (readsBack_int16 hfits.errorCode).cons fun errorCode' he => ?_
    refine (readsBack_string (hfits.name (by omega))).cons fun name' hn => ?_
    refine (readsBack_versioned_classic rfl hpartition (by omega) hfits.partitions).cons
      fun partitions' hp => ReadsBack.pure ?_
    subst he hn hp
    obtain rfl : isInternal = none := hfits.isInternal_default h0
    obtain rfl : topicId = none := hfits.topicId_default (by omega)
    obtain rfl : topicAuthorizedOperations = none := hfits.topicAuthorizedOperations_default (by omega)
    obtain rfl : taggedFields = none := hfits.taggedFields_default (by omega)
    rfl
  · refine (readsBack_int16 hfits.errorCode).cons fun errorCode' he => ?_
    refine (readsBack_string (hfits.name (by omega))).cons fun name' hn => ?_
    refine (readsBack_boolean isInternal).cons fun isInternal' hi => ?_
    refine (readsBack_versioned_classic rfl hpartition (by omega) hfits.partitions).cons
      fun partitions' hp => ReadsBack.pure ?_
    subst he hn hi hp
    obtain rfl : topicId = none := hfits.topicId_default (by omega)
    obtain rfl : topicAuthorizedOperations = none := hfits.topicAuthorizedOperations_default (by omega)
    obtain rfl : taggedFields = none := hfits.taggedFields_default (by omega)
    rfl
  · refine (readsBack_int16 hfits.errorCode).cons fun errorCode' he => ?_
    refine (readsBack_string (hfits.name (by omega))).cons fun name' hn => ?_
    refine (readsBack_boolean isInternal).cons fun isInternal' hi => ?_
    refine (readsBack_versioned_classic rfl hpartition (by omega) hfits.partitions).cons
      fun partitions' hp => ?_
    refine (readsBack_int32 hfits.topicAuthorizedOperations).cons fun operations' ho =>
      ReadsBack.pure ?_
    subst he hn hi hp ho
    obtain rfl : topicId = none := hfits.topicId_default (by omega)
    obtain rfl : taggedFields = none := hfits.taggedFields_default (by omega)
    rfl
  · refine (readsBack_int16 hfits.errorCode).cons fun errorCode' he => ?_
    refine (readsBack_compactString name).cons fun name' hn => ?_
    refine (readsBack_boolean isInternal).cons fun isInternal' hi => ?_
    refine (readsBack_versioned_compact rfl hpartition (by omega) hhi hfits.partitions).cons
      fun partitions' hp => ?_
    refine (readsBack_int32 hfits.topicAuthorizedOperations).cons fun operations' ho => ?_
    refine (readsBack_taggedFields taggedFields).cons fun taggedFields' ht => ReadsBack.pure ?_
    subst he hn hi hp ho ht
    obtain rfl : topicId = none := hfits.topicId_default (by omega)
    rfl
  · refine (readsBack_int16 hfits.errorCode).cons fun errorCode' he => ?_
    refine (readsBack_compactString name).cons fun name' hn => ?_
    refine (readsBack_uuid hfits.topicId).cons fun topicId' hu => ?_
    refine (readsBack_boolean isInternal).cons fun isInternal' hi => ?_
    refine (readsBack_versioned_compact rfl hpartition (by omega) hhi hfits.partitions).cons
      fun partitions' hp => ?_
    refine (readsBack_int32 hfits.topicAuthorizedOperations).cons fun operations' ho => ?_
    refine (readsBack_taggedFields taggedFields).cons fun taggedFields' ht => ReadsBack.pure ?_
    subst he hn hu hi hp ho ht
    rfl
  · -- version 12: the name may be `nil`
    refine (readsBack_int16 hfits.errorCode).cons fun errorCode' he => ?_
    refine (readsBack_compactNullableString name).cons fun name' hn => ?_
    refine (readsBack_uuid hfits.topicId).cons fun topicId' hu => ?_
    refine (readsBack_boolean isInternal).cons fun isInternal' hi => ?_
    refine (readsBack_versioned_compact rfl hpartition (by omega) hhi hfits.partitions).cons
      fun partitions' hp => ?_
    refine (readsBack_int32 hfits.topicAuthorizedOperations).cons fun operations' ho => ?_
    refine (readsBack_taggedFields taggedFields).cons fun taggedFields' ht => ReadsBack.pure ?_
    subst he hn hu hi hp ho ht
    rfl
  · omega

end Versions

lemma readsBack_format {response : MetadataResponse} (hlo : 0 ≤ response.apiVersion)
    (hhi : response.apiVersion ≤ 12) (hfits : response.Fits) :
    ReadsBack (format response) (parse response.apiVersion) (· = response) := by
  obtain ⟨apiVersion, throttleTimeMs, brokers, clusterId, controllerId, topics,
    clusterAuthorizedOperations, taggedFields⟩ := response
  obtain ⟨hthrottle, hbrokers, hclusterId, hcontroller, htopics, hoperations, dthrottle, dclusterId,
    dcontroller, doperations, dtagged⟩ := hfits
  dsimp only at hlo hhi hbrokers hclusterId htopics dthrottle dclusterId dcontroller doperations dtagged
  have hbroker : ∀ broker : Broker, broker.Fits apiVersion →
      ReadsBack (formatBroker apiVersion broker) (parseBroker apiVersion) (· = broker) :=
    fun _ => readsBack_broker hlo hhi
  have htopic : ∀ topic : Topic, topic.Fits apiVersion →
      ReadsBack (formatTopic apiVersion topic) (parseTopic apiVersion) (· = topic) :=
    fun _ => readsBack_topic hlo hhi
  unfold format parse
  dsimp only
  split_ifs with h0 h1 h2 h7 h8 h10 h12
  · refine (readsBack_versioned_classic rfl hbroker (by omega) hbrokers).cons fun brokers' hb => ?_
    refine (readsBack_versioned_classic rfl htopic (by omega) htopics).cons fun topics' ht =>
      ReadsBack.pure ?_
    subst hb ht
    obtain rfl : throttleTimeMs = none := dthrottle (by omega)
    obtain rfl : clusterId = none := dclusterId (by omega)
    obtain rfl : controllerId = none := dcontroller h0
    obtain rfl : clusterAuthorizedOperations = none := doperations (.inl (by omega))
    obtain rfl : taggedFields = none := dtagged (by omega)
    rfl
  · refine (readsBack_versioned_classic rfl hbroker (by omega) hbrokers).cons fun brokers' hb => ?_
    refine (readsBack_int32 hcontroller).cons fun controllerId' hc => ?_
    refine (readsBack_versioned_classic rfl htopic (by omega) htopics).cons fun topics' ht =>
      ReadsBack.pure ?_
    subst hb hc ht
    obtain rfl : throttleTimeMs = none := dthrottle (by omega)
    obtain rfl : clusterId = none := dclusterId (by omega)
    obtain rfl : clusterAuthorizedOperations = none := doperations (.inl (by omega))
    obtain rfl : taggedFields = none := dtagged (by omega)
    rfl
  · refine (readsBack_versioned_classic rfl hbroker (by omega) hbrokers).cons fun brokers' hb => ?_
    refine (readsBack_nullableString (hclusterId (by omega))).cons fun clusterId' hi => ?_
    refine (readsBack_int32 hcontroller).cons fun controllerId' hc => ?_
    refine (readsBack_versioned_classic rfl htopic (by omega) htopics).cons fun topics' ht =>
      ReadsBack.pure ?_
    subst hb hi hc ht
    obtain rfl : throttleTimeMs = none := dthrottle (by omega)
    obtain rfl : clusterAuthorizedOperations = none := doperations (.inl (by omega))
    obtain rfl : taggedFields = none := dtagged (by omega)
    rfl
  · refine (readsBack_int32 hthrottle).cons fun throttleTimeMs' hm => ?_
    refine (readsBack_versioned_classic rfl hbroker (by omega) hbrokers).cons fun brokers' hb => ?_
    refine (readsBack_nullableString (hclusterId (by omega))).cons fun clusterId' hi => ?_
    refine (readsBack_int32 hcontroller).cons fun controllerId' hc => ?_
    refine (readsBack_versioned_classic rfl htopic (by omega) htopics).cons fun topics' ht =>
      ReadsBack.pure ?_
    subst hm hb hi hc ht
    obtain rfl : clusterAuthorizedOperations = none := doperations (.inl (by omega))
    obtain rfl : taggedFields = none := dtagged (by omega)
    rfl
  · refine (readsBack_int32 hthrottle).cons fun throttleTimeMs' hm => ?_
    refine (readsBack_versioned_classic rfl hbroker (by omega) hbrokers).cons fun brokers' hb => ?_
    refine (readsBack_nullableString (hclusterId (by omega))).cons fun clusterId' hi => ?_
    refine (readsBack_int32 hcontroller).cons fun controllerId' hc => ?_
    refine (readsBack_versioned_classic rfl htopic (by omega) htopics).cons fun topics' ht => ?_
    refine (readsBack_int32 hoperations).cons fun operations' ho => ReadsBack.pure ?_
    subst hm hb hi hc ht ho
    obtain rfl : taggedFields = none := dtagged (by omega)
    rfl
  · refine (readsBack_int32 hthrottle).cons fun throttleTimeMs' hm => ?_
    refine (readsBack_versioned_compact rfl hbroker (by omega) hhi hbrokers).cons
      fun brokers' hb => ?_
    refine (readsBack_compactNullableString clusterId).cons fun clusterId' hi => ?_
    refine (readsBack_int32 hcontroller).cons fun controllerId' hc => ?_
    refine (readsBack_versioned_compact rfl htopic (by omega) hhi htopics).cons fun topics' ht => ?_
    refine (readsBack_int32 hoperations).cons fun operations' ho => ?_
    refine (readsBack_taggedFields taggedFields).cons fun taggedFields' hg => ReadsBack.pure ?_
    subst hm hb hi hc ht ho hg
    rfl
  · -- versions 11 and 12 no longer carry the cluster's authorized operations
    refine (readsBack_int32 hthrottle).cons fun throttleTimeMs' hm => ?_
    refine (readsBack_versioned_compact rfl hbroker (by omega) hhi hbrokers).cons
      fun brokers' hb => ?_
    refine (readsBack_compactNullableString clusterId).cons fun clusterId' hi => ?_
    refine (readsBack_int32 hcontroller).cons fun controllerId' hc => ?_
    refine (readsBack_versioned_compact rfl htopic (by omega) hhi htopics).cons fun topics' ht => ?_
    refine (readsBack_taggedFields taggedFields).cons fun taggedFields' hg => ReadsBack.pure ?_
    subst hm hb hi hc ht hg
    obtain rfl : clusterAuthorizedOperations = none := doperations (.inr (by omega))
    rfl
  · omega

theorem parse_format_of_fits {response : MetadataResponse} (hlo : 0 ≤ response.apiVersion)
    (hhi : response.apiVersion ≤ 12) (hfits : response.Fits) {bytes : Bytes}
    (hformat : format response = .ok bytes) : parse response.apiVersion bytes = .ok (response, []) := by
  obtain ⟨_, rfl, hr⟩ := readsBack_format hlo hhi hfits bytes hformat
  exact hr.apply_self

end Ockam.Elixir.Kafka
