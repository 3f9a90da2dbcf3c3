import Ockam.Elixir.KafkaRoundTrip

/-! The other way round: whatever `parse` accepts, `format` writes back, and `parse` reads the same
response from what it writes (`format_parse`), unless a varint of the compact layouts carries
`2^32` or more, which `format` refuses with `unsigned_varint_out_of_bounds`
(`parse_format_mismatch`). Every response that the parser builds fits its layout (`Fits`), and on
it every check of the formatter passes but that of the varints (`Reformats`). -/

namespace Ockam.Elixir.Kafka

open Decoder Formatter Ockam.Elixir.Kafka.Parser

lemma arrayFits_none {α : Type} {apiVersion : ℤ} {fits : α → Prop} :
    ArrayFits apiVersion fits none :=
  fun _ h => nomatch h

section Arrays

variable {α : Type} {apiVersion : ℤ} {fmt : α → Except FormatError Bytes} {p : Parser α}
  {fits : α → Prop}

lemma ensures_array (apiVersion : ℤ) (hp : Ensures p fun a => fits a ∧ Reformats (fmt a)) :
    Ensures (parseArray p) fun l =>
      ArrayFits apiVersion fits (some l) ∧ Reformats (formatArray fmt (some l)) := by
  intro data l rest h
  obtain ⟨hlen, hall⟩ := ensures_parseArray hp h
  refine ⟨fun l' hl' => ?_, reformats_array fun a ha => (hall a ha).2⟩
  cases hl'
  exact ⟨fun _ => hlen, fun a ha => (hall a ha).1⟩

lemma ensures_compactArray (h9 : 9 ≤ apiVersion)
    (hp : Ensures p fun a => fits a ∧ Reformats (fmt a)) :
    Ensures (parseCompactArray p) fun array =>
      ArrayFits apiVersion fits array ∧ Reformats (formatCompactArray fmt array) := by
  intro data array rest h
  have hall := ensures_parseCompactArray hp h
  exact ⟨fun l hl => ⟨fun hv => absurd hv (by omega), fun a ha => (hall l hl a ha).1⟩,
    reformats_compactArray fun l hl a ha => (hall l hl a ha).2⟩

variable {parser : Parser (Option (List α))}

lemma ensures_versioned_classic
    (hparser : parser = if apiVersion < 9 then (do let l ← parseArray p; Pure.pure (some l))
      else if apiVersion ≤ 12 then parseCompactArray p else Decoder.fail .functionClause)
    (hp : Ensures p fun a => fits a ∧ Reformats (fmt a)) (hv : apiVersion < 9) :
    Ensures parser fun array =>
      ArrayFits apiVersion fits array ∧ Reformats (formatArray fmt array) := by
  rw [hparser, if_pos hv]
  exact Ensures.bind_of (ensures_array apiVersion hp) fun _ hl => Ensures.pure hl

lemma ensures_versioned_compact
    (hparser : parser = if apiVersion < 9 then (do let l ← parseArray p; Pure.pure (some l))
      else if apiVersion ≤ 12 then parseCompactArray p else Decoder.fail .functionClause)
    (hp : Ensures p fun a => fits a ∧ Reformats (fmt a)) (h9 : 9 ≤ apiVersion)
    (h12 : apiVersion ≤ 12) :
    Ensures parser fun array =>
      ArrayFits apiVersion fits array ∧ Reformats (formatCompactArray fmt array) := by
  rw [hparser, if_neg (by omega), if_pos h12]
  exact ensures_compactArray h9 hp

end Arrays

lemma ensures_int32_elem :
    Ensures parseInt32 fun n => -2147483648 ≤ n ∧ Reformats ((formatInt32 ∘ some) n) :=
  ensures_parseInt32.mono fun _ hn => ⟨hn.1, reformats_int32 hn.2⟩

section Versions

variable {apiVersion : ℤ}

lemma ensures_broker (hlo : 0 ≤ apiVersion) (hhi : apiVersion ≤ 12) :
    Ensures (parseBroker apiVersion) fun broker =>
      broker.Fits apiVersion ∧ Reformats (formatBroker apiVersion broker) := by
  unfold parseBroker
  split_ifs with h0 h8 h12
  · refine Ensures.bind_of ensures_parseInt32 fun nodeId hn => ?_
    refine Ensures.bind_of ensures_parseString fun host hh => ?_
    refine Ensures.bind_of ensures_parseInt32 fun port hp => Ensures.pure ⟨?_, ?_⟩
    · exact ⟨by simpa using hn.1, fun _ => by simpa using hh, by simpa using hp.1,
        fun _ => by simp, fun _ => rfl, fun _ => rfl⟩
    · rw [formatBroker, if_pos h0]
      exact reformats_formatTypedList ⟨reformats_int32 hn.2, reformats_string host,
        reformats_int32 hp.2⟩
  · refine Ensures.bind_of ensures_parseInt32 fun nodeId hn => ?_
    refine Ensures.bind_of ensures_parseString fun host hh => ?_
    refine Ensures.bind_of ensures_parseInt32 fun port hp => ?_
    refine Ensures.bind_of ensures_parseNullableString fun rack hr => Ensures.pure ⟨?_, ?_⟩
    · exact ⟨by simpa using hn.1, fun _ => by simpa using hh, by simpa using hp.1, fun _ => hr,
        fun h => absurd h h0, fun _ => rfl⟩
    · rw [formatBroker, if_neg h0, if_pos h8]
      exact reformats_formatTypedList ⟨reformats_int32 hn.2, reformats_string host,
        reformats_int32 hp.2, reformats_nullableString rack⟩
  · refine Ensures.bind_of ensures_parseInt32 fun nodeId hn => ?_
    refine Ensures.bind fun host => ?_
    refine Ensures.bind_of ensures_parseInt32 fun port hp => ?_
    refine Ensures.bind fun rack => ?_
    refine Ensures.bind fun taggedFields => Ensures.pure ⟨?_, ?_⟩
    · exact ⟨by simpa using hn.1, fun h => absurd h (by omega), by simpa using hp.1,
        fun h => absurd h (by omega), fun h => absurd h (by omega), fun h => absurd h (by omega)⟩
    · rw [formatBroker, if_neg h0, if_neg h8, if_pos h12]
      exact reformats_formatTypedList ⟨reformats_int32 hn.2, reformats_compactString host,
        reformats_int32 hp.2, reformats_compactNullableString rack,
        reformats_taggedFields taggedFields⟩
  · omega

lemma ensures_partition (hlo : 0 ≤ apiVersion) :
    Ensures (parsePartition apiVersion) fun partition =>
      partition.Fits apiVersion ∧ Reformats (formatPartition apiVersion partition) := by
  have hnodes := ensures_array apiVersion ensures_int32_elem
  unfold parsePartition
  split_ifs with h4 h6 h8
  · refine Ensures.bind_of ensures_parseInt16 fun errorCode he => ?_
    refine Ensures.bind_of ensures_parseInt32 fun partitionIndex hi => ?_
    refine Ensures.bind_of ensures_parseInt32 fun leaderId hl => ?_
    refine Ensures.bind_of hnodes fun replicaNodes hr => ?_
    refine Ensures.bind_of hnodes fun isrNodes hs => Ensures.pure ⟨?_, ?_⟩
    · exact ⟨by simpa using he.1, by simpa using hi.1, by simpa using hl.1, by simp, hr.1, hs.1,
        arrayFits_none, fun _ => rfl, fun _ => rfl, fun _ => rfl⟩
    · rw [formatPartition, if_pos h4]
      exact reformats_formatTypedList ⟨reformats_int16 he.2, reformats_int32 hi.2,
        reformats_int32 hl.2, hr.2, hs.2⟩
  · refine Ensures.bind_of ensures_parseInt16 fun errorCode he => ?_
    refine Ensures.bind_of ensures_parseInt32 fun partitionIndex hi => ?_
    refine Ensures.bind_of ensures_parseInt32 fun leaderId hl => ?_
    refine Ensures.bind_of hnodes fun replicaNodes hr => ?_
    refine Ensures.bind_of hnodes fun isrNodes hs => ?_
    refine Ensures.bind_of hnodes fun offlineReplicas ho => Ensures.pure ⟨?_, ?_⟩
    · exact ⟨by simpa using he.1, by simpa using hi.1, by simpa using hl.1, by simp, hr.1, hs.1,
        ho.1, fun _ => rfl, fun h => absurd h (by omega), fun _ => rfl⟩
    · rw [formatPartition, if_neg h4, if_pos h6]
      exact reformats_formatTypedList ⟨reformats_int16 he.2, reformats_int32 hi.2,
        reformats_int32 hl.2, hr.2, hs.2, ho.2⟩
  · refine Ensures.bind_of ensures_parseInt16 fun errorCode he => ?_
    refine Ensures.bind_of ensures_parseInt32 fun partitionIndex hi => ?_
    refine Ensures.bind_of ensures_parseInt32 fun leaderId hl => ?_
    refine Ensures.bind_of ensures_parseInt32 fun leaderEpoch hp => ?_
    refine Ensures.bind_of hnodes fun replicaNodes hr => ?_
    refine Ensures.bind_of hnodes fun isrNodes hs => ?_
    refine Ensures.bind_of hnodes fun offlineReplicas ho => Ensures.pure ⟨?_, ?_⟩
    · exact ⟨by simpa using he.1, by simpa using hi.1, by simpa using hl.1, by simpa using hp.1,
        hr.1, hs.1, ho.1, fun h => absurd h (by omega), fun h => absurd h (by omega),
        fun _ => rfl⟩
    · rw [formatPartition, if_neg h4, if_neg h6, if_pos h8]
      exact reformats_formatTypedList ⟨reformats_int16 he.2, reformats_int32 hi.2,
        reformats_int32 hl.2, reformats_int32 hp.2, hr.2, hs.2, ho.2⟩
  · -- every version above 8 takes the last clause, with compact arrays and tagged fields
    have hcompact := ensures_compactArray (by omega : 9 ≤ apiVersion) ensures_int32_elem
    refine Ensures.bind_of ensures_parseInt16 fun errorCode he => ?_
    refine Ensures.bind_of ensures_parseInt32 fun partitionIndex hi => ?_
    refine Ensures.bind_of ensures_parseInt32 fun leaderId hl => ?_
    refine Ensures.bind_of ensures_parseInt32 fun leaderEpoch hp => ?_
    refine Ensures.bind_of hcompact fun replicaNodes hr => ?_
    refine Ensures.bind_of hcompact fun isrNodes hs => ?_
    refine Ensures.bind_of hcompact fun offlineReplicas ho => ?_
    refine Ensures.bind fun taggedFields => Ensures.pure ⟨?_, ?_⟩
    · exact ⟨by simpa using he.1, by simpa using hi.1, by simpa using hl.1, by simpa using hp.1,
        hr.1, hs.1, ho.1, fun h => absurd h (by omega), fun h => absurd h (by omega),
        fun h => absurd h (by omega)⟩
    · rw [formatPartition, if_neg h4, if_neg h6, if_neg h8]
      exact reformats_formatTypedList ⟨reformats_int16 he.2, reformats_int32 hi.2,
        reformats_int32 hl.2, reformats_int32 hp.2, hr.2, hs.2, ho.2,
        reformats_taggedFields taggedFields⟩

lemma ensures_topic (hlo : 0 ≤ apiVersion) (hhi : apiVersion ≤ 12) :
    Ensures (parseTopic apiVersion) fun topic =>
      topic.Fits apiVersion ∧ Reformats (formatTopic apiVersion topic) := by
  have hpartition := ensures_partition hlo
  unfold parseTopic
  split_ifs with h0 h7 h8 h9 h11 h12
  · refine Ensures.bind_of ensures_parseInt16 fun errorCode he => ?_
    refine Ensures.bind_of ensures_parseString fun name hn => ?_
    refine Ensures.bind_of (ensures_versioned_classic rfl hpartition (by omega))
      fun partitions hp => Ensures.pure ⟨?_, ?_⟩
    · exact ⟨by simpa using he.1, fun _ => by simpa using hn, by simp, hp.1, by simp,
        fun _ => rfl, fun _ => rfl, fun _ => rfl, fun _ => rfl⟩
    · rw [formatTopic, if_pos h0]
      exact reformats_formatTypedList ⟨reformats_int16 he.2, reformats_string name, hp.2⟩
  · refine Ensures.bind_of ensures_parseInt16 fun errorCode he => ?_
    refine Ensures.bind_of ensures_parseString fun name hn => ?_
    refine Ensures.bind fun isInternal => ?_
    refine Ensures.bind_of (ensures_versioned_classic rfl hpartition (by omega))
      fun partitions hp => Ensures.pure ⟨?_, ?_⟩
    · exact ⟨by simpa using he.1, fun _ => by simpa using hn, by simp, hp.1, by simp,
        fun h => absurd h h0, fun _ => rfl, fun _ => rfl, fun _ => rfl⟩
    · rw [formatTopic, if_neg h0, if_pos h7]
      exact reformats_formatTypedList ⟨reformats_int16 he.2, reformats_string name,
        reformats_boolean isInternal, hp.2⟩
  · refine Ensures.bind_of ensures_parseInt16 fun errorCode he => ?_
    refine Ensures.bind_of ensures_parseString fun name hn => ?_
    refine Ensures.bind fun isInternal => ?_
    refine Ensures.bind_of (ensures_versioned_classic rfl hpartition (by omega))
      fun partitions hp => ?_
    refine Ensures.bind_of ensures_parseInt32 fun operations ho => Ensures.pure ⟨?_, ?_⟩
    · exact ⟨by simpa using he.1, fun _ => by simpa using hn, by simp, hp.1, by simpa using ho.1,
        fun h => absurd h h0, fun _ => rfl, fun h => absurd h (by omega), fun _ => rfl⟩
    · rw [formatTopic, if_neg h0, if_neg h7, if_pos h8]
      exact reformats_formatTypedList ⟨reformats_int16 he.2, reformats_string name,
        reformats_boolean isInternal, hp.2, reformats_int32 ho.2⟩
  · refine Ensures.bind_of ensures_parseInt16 fun errorCode he => ?_
    refine Ensures.bind fun name => ?_
    refine Ensures.bind fun isInternal => ?_
    refine Ensures.bind_of (ensures_versioned_compact rfl hpartition (by omega) hhi)
      fun partitions hp => ?_
    refine Ensures.bind_of ensures_parseInt32 fun operations ho => ?_
    refine Ensures.bind fun taggedFields => Ensures.pure ⟨?_, ?_⟩
    · exact ⟨by simpa using he.1, fun h => absurd h (by omega), by simp, hp.1,
        by simpa using ho.1,
        fun h => absurd h h0, fun _ => rfl, fun h => absurd h (by omega),
        fun h => absurd h (by omega)⟩
    · rw [formatTopic, if_neg h0, if_neg h7, if_neg h8, if_pos h9]
      exact reformats_formatTypedList ⟨reformats_int16 he.2, reformats_compactString name,
        reformats_boolean isInternal, hp.2, reformats_int32 ho.2,
        reformats_taggedFields taggedFields⟩
  · refine Ensures.bind_of ensures_parseInt16 fun errorCode he => ?_
    refine Ensures.bind fun name => ?_
    refine Ensures.bind_of ensures_parseUuid fun topicId hu => ?_
    refine Ensures.bind fun isInternal => ?_
    refine Ensures.bind_of (ensures_versioned_compact rfl hpartition (by omega) hhi)
      fun partitions hp => ?_
    refine Ensures.bind_of ensures_parseInt32 fun operations ho => ?_
    refine Ensures.bind fun taggedFields => Ensures.pure ⟨?_, ?_⟩
    · exact ⟨by simpa using he.1, fun h => absurd h (by omega), by simpa using hu, hp.1,
        by simpa using ho.1, fun h => absurd h h0, fun h => absurd h (by omega),
        fun h => absurd h (by omega), fun h => absurd h (by omega)⟩
    · rw [formatTopic, if_neg h0, if_neg h7, if_neg h8, if_neg h9, if_pos h11]
      exact reformats_formatTypedList ⟨reformats_int16 he.2, reformats_compactString name,
        reformats_uuid topicId, reformats_boolean isInternal, hp.2, reformats_int32 ho.2,
        reformats_taggedFields taggedFields⟩
  · -- version 12: the name may be `nil`
    refine Ensures.bind_of ensures_parseInt16 fun errorCode he => ?_
    refine Ensures.bind fun name => ?_
    refine Ensures.bind_of ensures_parseUuid fun topicId hu => ?_
    refine Ensures.bind fun isInternal => ?_
    refine Ensures.bind_of (ensures_versioned_compact rfl hpartition (by omega) hhi)
      fun partitions hp => ?_
    refine Ensures.bind_of ensures_parseInt32 fun operations ho => ?_
    refine Ensures.bind fun taggedFields => Ensures.pure ⟨?_, ?_⟩
    · exact ⟨by simpa using he.1, fun h => absurd h (by omega), by simpa using hu, hp.1,
        by simpa using ho.1, fun h => absurd h h0, fun h => absurd h (by omega),
        fun h => absurd h (by omega), fun h => absurd h (by omega)⟩
    · rw [formatTopic, if_neg h0, if_neg h7, if_neg h8, if_neg h9, if_neg h11, if_pos h12]
      exact reformats_formatTypedList ⟨reformats_int16 he.2, reformats_compactNullableString name,
        reformats_uuid topicId, reformats_boolean isInternal, hp.2, reformats_int32 ho.2,
        reformats_taggedFields taggedFields⟩
  · omega

end Versions

lemma ensures_parse {apiVersion : ℤ} (hlo : 0 ≤ apiVersion) (hhi : apiVersion ≤ 12) :
    Ensures (parse apiVersion) fun response =>
      response.apiVersion = apiVersion ∧ response.Fits ∧ Reformats (format response) := by
  have hbroker := ensures_broker hlo hhi
  have htopic := ensures_topic hlo hhi
  unfold parse
  split_ifs with h0 h1 h2 h7 h8 h10 h12
  · refine Ensures.bind_of (ensures_versioned_classic rfl hbroker (by omega)) fun brokers hb => ?_
    refine Ensures.bind_of (ensures_versioned_classic rfl htopic (by omega)) fun topics ht =>
      Ensures.pure ⟨rfl, ?_, ?_⟩
    · exact ⟨by simp, hb.1, fun _ => by simp, by simp, ht.1, by simp,
        fun _ => rfl, fun _ => rfl, fun _ => rfl, fun _ => rfl, fun _ => rfl⟩
    · unfold format
      dsimp only
      rw [if_pos h0]
      exact reformats_formatTypedList ⟨hb.2, ht.2⟩
  · refine Ensures.bind_of (ensures_versioned_classic rfl hbroker (by omega)) fun brokers hb => ?_
    refine Ensures.bind_of ensures_parseInt32 fun controllerId hc => ?_
    refine Ensures.bind_of (ensures_versioned_classic rfl htopic (by omega)) fun topics ht =>
      Ensures.pure ⟨rfl, ?_, ?_⟩
    · exact ⟨by simp, hb.1, fun _ => by simp, by simpa using hc.1, ht.1, by simp,
        fun _ => rfl, fun _ => rfl, fun h => absurd h h0, fun _ => rfl, fun _ => rfl⟩
    · unfold format
      dsimp only
      rw [if_neg h0, if_pos h1]
      exact reformats_formatTypedList ⟨hb.2, reformats_int32 hc.2, ht.2⟩
  · refine Ensures.bind_of (ensures_versioned_classic rfl hbroker (by omega)) fun brokers hb => ?_
    refine Ensures.bind_of ensures_parseNullableString fun clusterId hi => ?_
    refine Ensures.bind_of ensures_parseInt32 fun controllerId hc => ?_
    refine Ensures.bind_of (ensures_versioned_classic rfl htopic (by omega)) fun topics ht =>
      Ensures.pure ⟨rfl, ?_, ?_⟩
    · refine ⟨by simp, hb.1, fun _ => hi, by simpa using hc.1, ht.1, by simp,
        fun _ => rfl, fun h => ?_, fun h => ?_, fun _ => rfl, fun _ => rfl⟩
      -- the defaults of the fields read here belong to versions this branch excludes
      all_goals (dsimp only at h; omega)
    · unfold format
      dsimp only
      rw [if_neg h0, if_neg h1, if_pos h2]
      exact reformats_formatTypedList ⟨hb.2, reformats_nullableString clusterId,
        reformats_int32 hc.2, ht.2⟩
  · refine Ensures.bind_of ensures_parseInt32 fun throttleTimeMs hm => ?_
    refine Ensures.bind_of (ensures_versioned_classic rfl hbroker (by omega)) fun brokers hb => ?_
    refine Ensures.bind_of ensures_parseNullableString fun clusterId hi => ?_
    refine Ensures.bind_of ensures_parseInt32 fun controllerId hc => ?_
    refine Ensures.bind_of (ensures_versioned_classic rfl htopic (by omega)) fun topics ht =>
      Ensures.pure ⟨rfl, ?_, ?_⟩
    · refine ⟨by simpa using hm.1, hb.1, fun _ => hi, by simpa using hc.1, ht.1, by simp,
        fun h => ?_, fun h => ?_, fun h => ?_, fun _ => rfl, fun _ => rfl⟩
      all_goals (dsimp only at h; omega)
    · unfold format
      dsimp only
      rw [if_neg h0, if_neg h1, if_neg h2, if_pos h7]
      exact reformats_formatTypedList ⟨reformats_int32 hm.2, hb.2,
        reformats_nullableString clusterId, reformats_int32 hc.2, ht.2⟩
  · refine Ensures.bind_of ensures_parseInt32 fun throttleTimeMs hm => ?_
    refine Ensures.bind_of (ensures_versioned_classic rfl hbroker (by omega)) fun brokers hb => ?_
    refine Ensures.bind_of ensures_parseNullableString fun clusterId hi => ?_
    refine Ensures.bind_of ensures_parseInt32 fun controllerId hc => ?_
    refine Ensures.bind_of (ensures_versioned_classic rfl htopic (by omega)) fun topics ht => ?_
    refine Ensures.bind_of ensures_parseInt32 fun operations ho => Ensures.pure ⟨rfl, ?_, ?_⟩
    · refine ⟨by simpa using hm.1, hb.1, fun _ => hi, by simpa using hc.1, ht.1,
        by simpa using ho.1, fun h => ?_, fun h => ?_, fun h => ?_, fun h => ?_, fun _ => rfl⟩
      all_goals (dsimp only at h; omega)
    · unfold format
      dsimp only
      rw [if_neg h0, if_neg h1, if_neg h2, if_neg h7, if_pos h8]
      exact reformats_formatTypedList ⟨reformats_int32 hm.2, hb.2,
        reformats_nullableString clusterId, reformats_int32 hc.2, ht.2, reformats_int32 ho.2⟩
  · refine Ensures.bind_of ensures_parseInt32 fun throttleTimeMs hm => ?_
    refine Ensures.bind_of (ensures_versioned_compact rfl hbroker (by omega) hhi)
      fun brokers hb => ?_
    refine Ensures.bind fun clusterId => ?_
    refine Ensures.bind_of ensures_parseInt32 fun controllerId hc => ?_
    refine Ensures.bind_of (ensures_versioned_compact rfl htopic (by omega) hhi) fun topics ht => ?_
    refine Ensures.bind_of ensures_parseInt32 fun operations ho => ?_
    refine Ensures.bind fun taggedFields => Ensures.pure ⟨rfl, ?_, ?_⟩
    · refine ⟨by simpa using hm.1, hb.1, fun h => ?_, by simpa using hc.1, ht.1,
        by simpa using ho.1, fun h => ?_, fun h => ?_, fun h => ?_, fun h => ?_, fun h => ?_⟩
      all_goals (dsimp only at h; omega)
    · unfold format
      dsimp only
      rw [if_neg h0, if_neg h1, if_neg h2, if_neg h7, if_neg h8, if_pos h10]
      exact reformats_formatTypedList ⟨reformats_int32 hm.2, hb.2,
        reformats_compactNullableString clusterId, reformats_int32 hc.2, ht.2,
        reformats_int32 ho.2, reformats_taggedFields taggedFields⟩
  · -- versions 11 and 12 no longer carry the cluster's authorized operations
    refine Ensures.bind_of ensures_parseInt32 fun throttleTimeMs hm => ?_
    refine Ensures.bind_of (ensures_versioned_compact rfl hbroker (by omega) hhi)
      fun brokers hb => ?_
    refine Ensures.bind fun clusterId => ?_
    refine Ensures.bind_of ensures_parseInt32 fun controllerId hc => ?_
    refine Ensures.bind_of (ensures_versioned_compact rfl htopic (by omega) hhi) fun topics ht => ?_
    refine Ensures.bind fun taggedFields => Ensures.pure ⟨rfl, ?_, ?_⟩
    · refine ⟨by simpa using hm.1, hb.1, fun h => ?_, by simpa using hc.1, ht.1,
        by simp, fun h => ?_, fun h => ?_, fun h => ?_, fun _ => rfl, fun h => ?_⟩
      all_goals (dsimp only at h; omega)
    · unfold format
      dsimp only
      rw [if_neg h0, if_neg h1, if_neg h2, if_neg h7, if_neg h8, if_neg h10, if_pos h12]
      exact reformats_formatTypedList ⟨reformats_int32 hm.2, hb.2,
        reformats_compactNullableString clusterId, reformats_int32 hc.2, ht.2,
        reformats_taggedFields taggedFields⟩
  · omega

theorem format_parse {apiVersion : ℤ} (hlo : 0 ≤ apiVersion) (hhi : apiVersion ≤ 12)
    {data rest : Bytes} {response : MetadataResponse}
    (h : parse apiVersion data = .ok (response, rest)) :
    response.apiVersion = apiVersion ∧
      (format response = .error .unsignedVarintOutOfBounds ∨
        ∃ bytes, format response = .ok bytes ∧
          parse apiVersion bytes = .ok (response, [])) := by
  obtain ⟨hv, hfits, hre⟩ := ensures_parse hlo hhi h
  subst hv
  refine ⟨rfl, hre.imp_right fun ⟨bytes, hbytes⟩ => ⟨bytes, hbytes, ?_⟩⟩
  exact parse_format_of_fits hlo hhi hfits hbytes

end Ockam.Elixir.Kafka
