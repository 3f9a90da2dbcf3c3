import Ockam.Elixir.KafkaProtocol

/-! `Ockam.Kafka.Interceptor` (`interceptor/kafka_interceptor.ex`) as a framer: each direction is
cut into messages after their signed 32-bit size, and `process_kafka_message` is a parameter. A
stream cut at frame ends, or four bytes into a frame at least, goes through message by message
(`interceptPayloads_of_splits`); a cut one to three bytes into a size stops the interceptor. -/

namespace Ockam.Elixir.Kafka

open Ockam.Lib

inductive PacketType where
  | request
  | response
  deriving DecidableEq, Repr

/-- The reasons of `{:stop, reason, replies, state}`. -/
inductive StopReason (ρ : Type) where
  | cannotParseMessageSize (other : Bytes)
  | message (reason : ρ)
  deriving DecidableEq, Repr

/-- The state of the interceptor: `read_buffer`, and the rest of the map, which only the processing
of a message reads and changes. -/
structure InterceptorState (σ : Type) where
  readBuffer : Bytes
  handlerState : σ
  deriving DecidableEq, Repr

inductive PacketResult (ρ σ : Type) where
  | ok (replies : List Bytes) (state : InterceptorState σ)
  | stop (reason : StopReason ρ) (replies : List Bytes) (state : InterceptorState σ)
  deriving DecidableEq, Repr

/-- A message after its size, as the interceptor writes its replies. -/
def frame (message : Bytes) : Bytes := bigSigned 4 message.length ++ message

/-- What `read_buffer` holds between two packets of a stream of frames: nothing, or the start of
the frame of the next message, its four bytes of size at least and not all of it. -/
def Pending (next : Option Bytes) (pre : Bytes) : Prop :=
  pre = [] ∨ ∃ message ∈ next, ∃ rest, frame message = pre ++ rest ∧ rest ≠ [] ∧ 4 ≤ pre.length

/-- `Splits messages pre packets`: after `pre`, the packets carry the frames of `messages` to their
end, and each packet stops at the end of a frame or four bytes into one at least. -/
inductive Splits : List Bytes → Bytes → List Bytes → Prop
  | nil : Splits [] [] []
  | cons {pre packet pre' : Bytes} {done todo packets : List Bytes} :
      pre ++ packet = (done.map frame).flatten ++ pre' → Pending todo.head? pre' →
      Splits todo pre' packets → Splits (done ++ todo) pre (packet :: packets)

lemma Splits.flatten {messages packets : List Bytes} {pre : Bytes}
    (h : Splits messages pre packets) : pre ++ packets.flatten = (messages.map frame).flatten := by
  induction h with
  | nil => rfl
  | cons hcat _ _ ih =>
    rw [List.flatten_cons, ← List.append_assoc, hcat, List.append_assoc, ih, List.map_append,
      List.flatten_append]

lemma bigSigned_fromSigned (bs : Bytes) :
    bigSigned bs.length (fromSigned bs.length (BigEndian.decode bs)) = bs := by
  have hlt : BigEndian.decode bs < 2 ^ (8 * bs.length) := by
    have := BigEndian.decode_lt bs
    rwa [pow_mul] at *
  have hmod : fromSigned bs.length (BigEndian.decode bs) % 2 ^ (8 * bs.length) =
      (BigEndian.decode bs : ℤ) := by
    have hcast : ((2 ^ (8 * bs.length) : ℕ) : ℤ) = 2 ^ (8 * bs.length) := by push_cast; rfl
    unfold fromSigned
    split_ifs
    · exact Int.emod_eq_of_lt (by omega) (by omega)
    · rw [Int.sub_emod_right]
      exact Int.emod_eq_of_lt (by omega) (by omega)
  unfold bigSigned
  rw [hmod, Int.toNat_natCast]
  exact BigEndian.encode_decode bs

section Packets

variable {ρ σ : Type} (processKafkaMessage : PacketType → Bytes → σ → Except (ρ × σ) (Bytes × σ))

/-- `setup`: the handlers' state, and an empty `read_buffer`. -/
def setup (handlerState : σ) : InterceptorState σ := ⟨[], handlerState⟩

/-- `process_kafka_packet(type, packet, state, replies)`. A size that is negative, or larger than
what is left, does not match `binary-size(size)`, and the packet waits in the buffer. -/
def processKafkaPacket (type : PacketType) (packet : Bytes) (state : InterceptorState σ)
    (replies : List Bytes) : PacketResult ρ σ :=
  if _hbuf : state.readBuffer = [] then
    if 4 ≤ packet.length then
      let size := fromSigned 4 (BigEndian.decode (packet.take 4))
      if 0 ≤ size ∧ size.toNat ≤ packet.length - 4 then
        let data := (packet.drop 4).take size.toNat
        let rest := (packet.drop 4).drop size.toNat
        match processKafkaMessage type data state.handlerState with
        | .ok (newData, handlerState) =>
          processKafkaPacket type rest ⟨[], handlerState⟩ (replies ++ [frame newData])
        | .error (reason, handlerState) => .stop (.message reason) replies ⟨[], handlerState⟩
      else .ok replies { state with readBuffer := packet }
    else if packet = [] then .ok replies state
    else .stop (.cannotParseMessageSize packet) replies state
  else processKafkaPacket type (state.readBuffer ++ packet) { state with readBuffer := [] } replies
termination_by (packet.length + state.readBuffer.length, state.readBuffer.length)
decreasing_by
  · simp only [_hbuf, List.length_nil, List.length_drop]
    exact Prod.Lex.left _ _ (by omega)
  · have hpos : 0 < state.readBuffer.length := List.length_pos_iff.mpr _hbuf
    simp only [List.length_append, List.length_nil]
    rw [show state.readBuffer.length + packet.length + 0 = packet.length + state.readBuffer.length by
      omega]
    exact Prod.Lex.right _ hpos

def handleOuterPayload (tunnelPayload : Bytes) (state : InterceptorState σ) : PacketResult ρ σ :=
  processKafkaPacket processKafkaMessage .request tunnelPayload state []

def handleInnerPayload (tunnelPayload : Bytes) (state : InterceptorState σ) : PacketResult ρ σ :=
  processKafkaPacket processKafkaMessage .response tunnelPayload state []

/-- The tunnel payloads of one direction, which `intercept_tunnel_payload` of the portal interceptor
hands in turn to `handle_outer_payload` (requests) or `handle_inner_payload` (responses), the state
threaded from each call to the next and the replies gathered, until a call stops. -/
def interceptPayloads (type : PacketType) : List Bytes → InterceptorState σ → PacketResult ρ σ
  | [], state => .ok [] state
  | packet :: packets, state =>
    match processKafkaPacket processKafkaMessage type packet state [] with
    | .ok replies state =>
      match interceptPayloads type packets state with
      | .ok replies' state' => .ok (replies ++ replies') state'
      | .stop reason replies' state' => .stop reason (replies ++ replies') state'
    | .stop reason replies state => .stop reason replies state

variable {processKafkaMessage} {type : PacketType} {state : InterceptorState σ}
  {replies : List Bytes}

lemma processKafkaPacket_short (hbuf : state.readBuffer = []) {packet : Bytes} (hne : packet ≠ [])
    (hshort : packet.length < 4) :
    processKafkaPacket processKafkaMessage type packet state replies =
      .stop (.cannotParseMessageSize packet) replies state := by
  rw [processKafkaPacket, dif_pos hbuf, if_neg (by omega), if_neg hne]

lemma size_of_take {packet message : Bytes} (hlen : message.length < 2147483648)
    (h : packet.take 4 = (frame message).take 4) :
    fromSigned 4 (BigEndian.decode (packet.take 4)) = message.length := by
  rw [h, frame, List.take_left' (length_bigSigned 4 _), decode_bigSigned]
  exact fromSigned_four (by omega) (by omega)

lemma processKafkaPacket_frame (hbuf : state.readBuffer = []) {message : Bytes}
    (hlen : message.length < 2147483648) (rest : Bytes) :
    processKafkaPacket processKafkaMessage type (frame message ++ rest) state replies =
      match processKafkaMessage type message state.handlerState with
      | .ok (newData, handlerState) =>
        processKafkaPacket processKafkaMessage type rest ⟨[], handlerState⟩ (replies ++ [frame newData])
      | .error (reason, handlerState) => .stop (.message reason) replies ⟨[], handlerState⟩ := by
  have hsize : fromSigned 4 (BigEndian.decode ((frame message ++ rest).take 4)) = message.length :=
    size_of_take hlen (List.take_append_of_le_length (by simp [frame]))
  have hdrop : (frame message ++ rest).drop 4 = message ++ rest := by
    rw [frame, List.append_assoc, List.drop_left' (length_bigSigned 4 _)]
  rw [processKafkaPacket, dif_pos hbuf, if_pos (by simp [frame]), hsize, if_pos (by
    refine ⟨by omega, ?_⟩
    simp only [Int.toNat_natCast, frame, List.length_append, length_bigSigned]
    omega)]
  simp only [hdrop, Int.toNat_natCast, List.take_left', List.drop_left']

lemma processKafkaPacket_pending (hbuf : state.readBuffer = []) {message pre rest : Bytes}
    (hlen : message.length < 2147483648) (hframe : frame message = pre ++ rest) (hrest : rest ≠ [])
    (h4 : 4 ≤ pre.length) :
    processKafkaPacket processKafkaMessage type pre state replies = .ok replies ⟨pre, state.handlerState⟩ := by
  have hsize : fromSigned 4 (BigEndian.decode (pre.take 4)) = message.length :=
    size_of_take hlen (by rw [hframe, List.take_append_of_le_length h4])
  -- the size counts more bytes than the packet has after it
  have hshort : pre.length < 4 + message.length := by
    have hl := congrArg List.length hframe
    simp only [frame, List.length_append, length_bigSigned] at hl
    have := List.length_pos_iff.mpr hrest
    omega
  rw [processKafkaPacket, dif_pos hbuf, if_pos h4, hsize, if_neg (by
    simp only [Int.toNat_natCast, not_and, not_le]
    intro _
    omega)]

lemma frame_pending_append {message pre rest : Bytes} (hframe : frame message = pre ++ rest)
    (h4 : 4 ≤ pre.length) {packet : Bytes} (hpacket : rest.length ≤ packet.length) :
    (pre.drop 4 ++ packet.take rest.length).length = message.length ∧
      pre ++ packet = frame (pre.drop 4 ++ packet.take rest.length) ++ packet.drop rest.length := by
  have hsize : bigSigned 4 message.length = pre.take 4 := by
    have h := congrArg (List.take 4) hframe
    rwa [frame, List.take_left' (length_bigSigned 4 _), List.take_append_of_le_length h4] at h
  have hlen : (pre.drop 4 ++ packet.take rest.length).length = message.length := by
    have hl := congrArg List.length hframe
    simp only [frame, List.length_append, length_bigSigned] at hl
    simp only [List.length_append, List.length_drop, List.length_take]
    omega
  refine ⟨hlen, ?_⟩
  rw [frame, hlen, hsize, ← List.append_assoc, List.take_append_drop, List.append_assoc,
    List.take_append_drop]

lemma processKafkaPacket_readBuffer (packet : Bytes) :
    processKafkaPacket processKafkaMessage type packet state replies =
      processKafkaPacket processKafkaMessage type (state.readBuffer ++ packet)
        ⟨[], state.handlerState⟩ replies := by
  by_cases hbuf : state.readBuffer = []
  · rw [hbuf, List.nil_append]
    obtain ⟨readBuffer, handlerState⟩ := state
    dsimp only at hbuf
    rw [hbuf]
  · rw [processKafkaPacket, dif_neg hbuf]

lemma processKafkaPacket_keeps {I : σ → Prop}
    (hok : ∀ m s data s', I s → processKafkaMessage type m s = .ok (data, s') → I s')
    (packet : Bytes) (state : InterceptorState σ) (replies : List Bytes) (hI : I state.handlerState)
    {replies' : List Bytes} {state' : InterceptorState σ}
    (h : processKafkaPacket processKafkaMessage type packet state replies = .ok replies' state') :
    I state'.handlerState := by
  fun_induction processKafkaPacket processKafkaMessage type packet state replies with
  | case1 =>
    -- a whole message: its processing keeps `I`, and the rest of the packet goes on from there
    rename_i hmsg ih
    exact ih (hok _ _ _ _ hI hmsg) h
  | case2 => cases h
  | case3 | case4 =>
    cases h
    exact hI
  | case5 => cases h
  | case6 =>
    rename_i ih
    exact ih hI h

lemma processKafkaPacket_frames_stop {tail : Bytes} (hne : tail ≠ []) (hshort : tail.length < 4) :
    ∀ (done : List Bytes) (state : InterceptorState σ) (replies : List Bytes),
      state.readBuffer = [] → (∀ m ∈ done, m.length < 2147483648) →
      ∃ reason replies' state', processKafkaPacket processKafkaMessage type
        ((done.map frame).flatten ++ tail) state replies = .stop reason replies' state'
  | [], state, replies, hbuf, _ =>
    ⟨_, _, _, by simpa using processKafkaPacket_short hbuf hne hshort⟩
  | message :: done, state, replies, hbuf, hdone => by
    rw [List.map_cons, List.flatten_cons, List.append_assoc,
      processKafkaPacket_frame hbuf (hdone message (by simp))]
    -- the message is forwarded and the rest goes on, or its processing stops the interceptor
    split
    · exact processKafkaPacket_frames_stop hne hshort done _ _ rfl
        (fun m hm => hdone m (List.mem_cons_of_mem _ hm))
    · exact ⟨_, _, _, rfl⟩

lemma processKafkaPacket_frames_pending (f : Bytes → Bytes)
    (hok : ∀ m s, ∃ s', processKafkaMessage type m s = .ok (f m, s')) {next : Option Bytes}
    {pre : Bytes} (hpre : Pending next pre) (hnext : ∀ m ∈ next, m.length < 2147483648) :
    ∀ (done : List Bytes) (state : InterceptorState σ) (replies : List Bytes),
      state.readBuffer = [] → (∀ m ∈ done, m.length < 2147483648) →
      ∃ handlerState, processKafkaPacket processKafkaMessage type ((done.map frame).flatten ++ pre)
        state replies = .ok (replies ++ done.map (frame ∘ f)) ⟨pre, handlerState⟩
  | [], state, replies, hbuf, _ => by
    refine ⟨state.handlerState, ?_⟩
    rw [List.map_nil, List.flatten_nil, List.nil_append, List.map_nil, List.append_nil]
    rcases hpre with rfl | ⟨message, hm, rest, hframe, hrest, h4⟩
    · -- nothing is left: the empty packet
      rw [processKafkaPacket, dif_pos hbuf, if_neg (by simp), if_pos rfl, ← hbuf]
    · exact processKafkaPacket_pending hbuf (hnext message hm) hframe hrest h4
  | message :: done, state, replies, hbuf, hdone => by
    obtain ⟨handlerState, hm⟩ := hok message state.handlerState
    rw [List.map_cons, List.flatten_cons, List.append_assoc,
      processKafkaPacket_frame hbuf (hdone message (by simp)), hm]
    -- the rest of the stream starts from the handlers' new state, with this reply appended
    obtain ⟨handlerState', hrest⟩ := processKafkaPacket_frames_pending f hok hpre hnext done
      ⟨[], handlerState⟩ (replies ++ [frame (f message)]) rfl
      (fun m hm => hdone m (List.mem_cons_of_mem _ hm))
    refine ⟨handlerState', ?_⟩
    dsimp only
    rw [hrest, List.map_cons, List.append_assoc, List.singleton_append]
    rfl

lemma interceptPayloads_of_splits (f : Bytes → Bytes)
    (hok : ∀ m s, ∃ s', processKafkaMessage type m s = .ok (f m, s')) {messages packets : List Bytes}
    {pre : Bytes} (hsplits : Splits messages pre packets)
    (hlen : ∀ m ∈ messages, m.length < 2147483648) (handlerState : σ) :
    ∃ handlerState', interceptPayloads processKafkaMessage type packets ⟨pre, handlerState⟩ =
      .ok (messages.map (frame ∘ f)) ⟨[], handlerState'⟩ := by
  induction hsplits generalizing handlerState with
  | nil => exact ⟨handlerState, rfl⟩
  | @cons pre packet pre' done todo packets hcat hpend _ ih =>
    have hdone : ∀ m ∈ done, m.length < 2147483648 := fun m hm => hlen m (List.mem_append_left _ hm)
    have htodo : ∀ m ∈ todo, m.length < 2147483648 := fun m hm => hlen m (List.mem_append_right _ hm)
    have hnext : ∀ m ∈ todo.head?, m.length < 2147483648 :=
      fun m hm => htodo m (List.mem_of_mem_head? hm)
    -- the buffer goes in front of the packet, and the frames they complete are processed
    obtain ⟨handlerState', hcall⟩ := processKafkaPacket_frames_pending f hok hpend hnext done
      ⟨[], handlerState⟩ [] rfl hdone
    obtain ⟨handlerState'', hrun⟩ := ih htodo handlerState'
    refine ⟨handlerState'', ?_⟩
    rw [interceptPayloads, processKafkaPacket_readBuffer]
    dsimp only
    rw [hcat, hcall]
    dsimp only
    rw [hrun, List.nil_append, List.map_append]

lemma frame_take_drop {packet : Bytes} (h4 : 4 ≤ packet.length)
    (hsize : 0 ≤ fromSigned 4 (BigEndian.decode (packet.take 4)) ∧
      (fromSigned 4 (BigEndian.decode (packet.take 4))).toNat ≤ packet.length - 4) :
    frame ((packet.drop 4).take (fromSigned 4 (BigEndian.decode (packet.take 4))).toNat) ++
      (packet.drop 4).drop (fromSigned 4 (BigEndian.decode (packet.take 4))).toNat = packet := by
  have hlen4 : (packet.take 4).length = 4 := by simp [h4]
  have hdata : ((packet.drop 4).take (fromSigned 4 (BigEndian.decode (packet.take 4))).toNat).length =
      fromSigned 4 (BigEndian.decode (packet.take 4)) := by
    simp only [List.length_take, List.length_drop]
    omega
  unfold frame
  rw [hdata, List.append_assoc, List.take_append_drop]
  have hround := bigSigned_fromSigned (packet.take 4)
  rw [hlen4] at hround
  rw [hround, List.take_append_drop]

lemma processKafkaPacket_replays
    (hsame : ∀ m s m' s', processKafkaMessage type m s = .ok (m', s') → m' = m)
    (packet : Bytes) (state : InterceptorState σ) (replies : List Bytes)
    {replies' : List Bytes} {state' : InterceptorState σ}
    (h : processKafkaPacket processKafkaMessage type packet state replies = .ok replies' state') :
    replies'.flatten ++ state'.readBuffer = replies.flatten ++ state.readBuffer ++ packet := by
  fun_induction processKafkaPacket processKafkaMessage type packet state replies with
  | case1 =>
    rename_i packet state replies hbuf h4 size hsize data rest newData handlerState hmsg ih
    -- the message goes out framed as it came, and the rest of the packet follows
    obtain rfl := hsame _ _ _ _ hmsg
    rw [ih h, hbuf]
    simp only [List.flatten_append, List.flatten_singleton, List.append_nil, List.append_assoc]
    exact congrArg (replies.flatten ++ ·) (frame_take_drop h4 hsize)
  | case2 => cases h
  | case3 =>
    -- a frame that is not whole yet waits in the buffer
    rename_i hbuf _ _ _
    cases h
    simp [hbuf]
  | case4 =>
    cases h
    simp
  | case5 => cases h
  | case6 =>
    rename_i ih
    rw [ih h, List.append_nil, List.append_assoc]


lemma processKafkaPacket_replays_stop
    (hsame : ∀ m s m' s', processKafkaMessage type m s = .ok (m', s') → m' = m)
    (packet : Bytes) (state : InterceptorState σ) (replies : List Bytes) {reason : StopReason ρ}
    {replies' : List Bytes} {state' : InterceptorState σ}
    (h : processKafkaPacket processKafkaMessage type packet state replies =
      .stop reason replies' state') :
    replies'.flatten <+: replies.flatten ++ state.readBuffer ++ packet := by
  fun_induction processKafkaPacket processKafkaMessage type packet state replies with
  | case1 =>
    rename_i packet state replies hbuf h4 size hsize data rest newData handlerState hmsg ih
    obtain rfl := hsame _ _ _ _ hmsg
    have hprefix := ih h
    rw [hbuf]
    simp only [List.flatten_append, List.flatten_singleton, List.append_nil, List.append_assoc]
      at hprefix ⊢
    rwa [frame_take_drop h4 hsize] at hprefix
  | case2 =>
    cases h
    exact (List.prefix_append _ _).trans (List.prefix_append _ _)
  | case3 | case4 => cases h
  | case5 =>
    cases h
    exact (List.prefix_append _ _).trans (List.prefix_append _ _)
  | case6 =>
    rename_i ih
    simpa only [List.append_nil, List.append_assoc] using ih h

lemma interceptPayloads_replays
    (hsame : ∀ m s m' s', processKafkaMessage type m s = .ok (m', s') → m' = m) :
    ∀ (packets : List Bytes) (state : InterceptorState σ),
      (∀ replies state', interceptPayloads processKafkaMessage type packets state =
          .ok replies state' → replies.flatten ++ state'.readBuffer = state.readBuffer ++ packets.flatten) ∧
      (∀ reason replies state', interceptPayloads processKafkaMessage type packets state =
          .stop reason replies state' → replies.flatten <+: state.readBuffer ++ packets.flatten)
  | [], state => by
    refine ⟨fun replies state' h => ?_, fun reason replies state' h => (by cases h)⟩
    cases h
    simp
  | packet :: packets, state => by
    have hrun := interceptPayloads_replays hsame packets
    unfold interceptPayloads
    -- the first payload goes through or stops; after it, the rest of the run
    cases hfirst : processKafkaPacket processKafkaMessage type packet state [] with
    | ok replies₁ state₁ =>
      have h₁ := processKafkaPacket_replays hsame packet state [] hfirst
      simp only [List.flatten_nil, List.nil_append] at h₁
      dsimp only
      cases hrest : interceptPayloads processKafkaMessage type packets state₁ with
      | ok replies₂ state₂ =>
        refine ⟨fun replies state' h => ?_, fun reason replies state' h => (by cases h)⟩
        cases h
        rw [List.flatten_append, List.append_assoc, (hrun state₁).1 _ _ hrest, ← List.append_assoc,
          h₁, List.flatten_cons, List.append_assoc]
      | stop reason₂ replies₂ state₂ =>
        refine ⟨fun replies state' h => (by cases h), fun reason replies state' h => ?_⟩
        cases h
        have h₂ := (hrun state₁).2 _ _ _ hrest
        rw [List.flatten_append, List.flatten_cons, ← List.append_assoc, ← h₁, List.append_assoc]
        exact (List.prefix_append_right_inj _).2 h₂
    | stop reason₁ replies₁ state₁ =>
      dsimp only
      refine ⟨fun replies state' h => (by cases h), fun reason replies state' h => ?_⟩
      cases h
      have h₁ := processKafkaPacket_replays_stop hsame packet state [] hfirst
      simp only [List.flatten_nil, List.nil_append] at h₁
      rw [List.flatten_cons, ← List.append_assoc]
      exact h₁.trans (List.prefix_append _ _)

end Packets

/-- A stream of whole messages cut one to three bytes into the size of a message: the first call of
`handle_outer_payload` from `setup` stops, whatever the handlers do. -/
theorem handleOuterPayload_prefix_split {ρ σ : Type}
    (processKafkaMessage : PacketType → Bytes → σ → Except (ρ × σ) (Bytes × σ)) (handlerState : σ)
    (done : List Bytes) (hdone : ∀ m ∈ done, m.length < 2147483648) (message : Bytes) {n : ℕ}
    (hn : 0 < n) (hn4 : n < 4) :
    ∃ reason replies state, handleOuterPayload processKafkaMessage
      ((done.map frame).flatten ++ (frame message).take n) (setup handlerState) =
        .stop reason replies state := by
  have hlen : ((frame message).take n).length = n := by
    simp only [List.length_take, frame, List.length_append, length_bigSigned]
    omega
  exact processKafkaPacket_frames_stop (List.ne_nil_of_length_pos (by omega)) (by omega) done
    (setup handlerState) [] rfl hdone

/-- The empty request, framed as `[0, 0, 0, 0]` and cut after two bytes, with handlers that forward
every message as it is. -/
theorem handleOuterPayload_prefix_split_zero :
    frame [] = [0, 0] ++ [0, 0] ∧
      ∃ reason replies state, handleOuterPayload
        (fun _ data (s : Unit) => (.ok (data, s) : Except (Unit × Unit) (Bytes × Unit)))
        ((([] : List Bytes).map frame).flatten ++ (frame []).take 2) (setup ()) =
          .stop reason replies state :=
  ⟨by decide, handleOuterPayload_prefix_split _ () [] (by simp) [] (by norm_num) (by norm_num)⟩

theorem interceptPayloads_forwards_stream {ρ σ : Type}
    (processKafkaMessage : PacketType → Bytes → σ → Except (ρ × σ) (Bytes × σ)) (type : PacketType)
    (handlerState : σ) (hforward : ∀ m s, ∃ s', processKafkaMessage type m s = .ok (m, s'))
    {messages packets : List Bytes} (hsplits : Splits messages [] packets)
    (hlen : ∀ m ∈ messages, m.length < 2147483648) :
    ∃ replies state, interceptPayloads processKafkaMessage type packets (setup handlerState) =
      .ok replies state ∧ replies.flatten = packets.flatten := by
  obtain ⟨state, hrun⟩ := interceptPayloads_of_splits id hforward hsplits hlen handlerState
  refine ⟨_, _, hrun, ?_⟩
  rw [Function.comp_id, ← List.nil_append packets.flatten, hsplits.flatten]

end Ockam.Elixir.Kafka
