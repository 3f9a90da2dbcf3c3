import Ockam.Core.Error
import Ockam.Lib.BigEndian
import Ockam.Lib.Varint

/-! The TCP transport's framing (`ockam_transport_tcp`): `prepare_message` writes the encoded message
after its length as a big-endian `u16`, and `TcpRecvProcessor::process` reads it back from the byte
stream. Frames whose bodies fit a `u16` are read back in order (`receive_frames`); the length is cast
without a check, so a longer body is cut (`prepareMessage_wraps_length`). -/

namespace Ockam.Transport

open Ockam.Lib

structure TransportMessage (A : Type) where
  version : UInt8
  onwardRoute : List A
  returnRoute : List A
  payload : Bytes
  deriving DecidableEq, Repr

/-- `serde_bare` on a `TransportMessage`: an encoding that may fail, and its decoding. -/
structure Codec (A : Type) where
  encode : TransportMessage A → Option Bytes
  decode : Bytes → Option (TransportMessage A)

variable {A : Type}

/-- `(msg_buf.len() as u16).to_be_bytes()`, put in front of the body by reversing, appending and
reversing again. -/
def prepareMessage (codec : Codec A) (msg : TransportMessage A) : Except Error Bytes :=
  match codec.encode msg with
  | none => .error (.message "SendBadMessage")
  | some msgBuf =>
    let len := BigEndian.encode 2 (msgBuf.length % 2 ^ 16)
    .ok (msgBuf.reverse ++ len.reverse).reverse

/-- What `handle_message` writes for a message from another worker: `onward_route.step()?`, then
`prepare_message`. -/
def handleMessage (codec : Codec A) (msg : TransportMessage A) : Except Error Bytes :=
  match msg.onwardRoute with
  | [] => .error (.message "IncompleteRoute")
  | _ :: onwardRoute => prepareMessage codec { msg with onwardRoute }

/-- How one call of `process` ends. -/
inductive Processed (A : Type) where
  /-- `read_u16` failed: the sender is told and the processor stops. -/
  | closed
  /-- `read_exact` failed at the end of the stream; the processor goes on. -/
  | failedRead
  | heartbeat (rest : Bytes)
  | forward (msg : TransportMessage A) (rest : Bytes)

/-- The decoded body: dropped when its onward route is empty, forwarded otherwise. -/
def deliver (codec : Codec A) (senderAddress : A) (buf rest : Bytes) : Except Error (Processed A) :=
  match codec.decode buf with
  | none => .error (.message "RecvBadMessage")
  | some msg =>
    match msg.onwardRoute with
    | [] => .ok (.heartbeat rest)
    | _ :: _ => .ok (.forward { msg with returnRoute := senderAddress :: msg.returnRoute } rest)

def process (codec : Codec A) (senderAddress : A) (stream : Bytes) : Except Error (Processed A) :=
  if stream.length < 2 then .ok .closed
  else
    let len := BigEndian.decode (stream.take 2)
    let stream := stream.drop 2
    if stream.length < len then .ok .failedRead
    else deliver codec senderAddress (stream.take len) (stream.drop len)

section Process

variable {codec : Codec A} {senderAddress : A} {stream rest : Bytes}

lemma deliver_rest {buf : Bytes} {p : Processed A}
    (h : deliver codec senderAddress buf rest = .ok p) :
    (∃ msg, p = .forward msg rest) ∨ p = .heartbeat rest := by
  unfold deliver at h
  split at h
  · cases h
  · split at h <;> cases h
    · exact .inr rfl
    · exact .inl ⟨_, rfl⟩

lemma process_rest_length {p : Processed A} (h : process codec senderAddress stream = .ok p)
    (hp : (∃ msg, p = .forward msg rest) ∨ p = .heartbeat rest) : rest.length < stream.length := by
  unfold process at h
  dsimp only at h
  split_ifs at h with h2 hlen
  · rcases hp with ⟨msg, rfl⟩ | rfl <;> cases h
  · rcases hp with ⟨msg, rfl⟩ | rfl <;> cases h
  · rcases deliver_rest h with ⟨msg, rfl⟩ | rfl <;>
      rcases hp with ⟨msg', hp⟩ | hp <;> cases hp <;>
      · simp only [List.length_drop]
        omega

lemma process_failedRead (h : process codec senderAddress stream = .ok .failedRead) :
    0 < stream.length := by
  unfold process at h
  dsimp only at h
  split_ifs at h with h2
  · cases h
  all_goals omega

lemma process_length_body {n : ℕ} (hn : n < 2 ^ 16) {body : Bytes} (hbody : n ≤ body.length) :
    process codec senderAddress (BigEndian.encode 2 n ++ body) =
      deliver codec senderAddress (body.take n) (body.drop n) := by
  have hlt : n < 256 ^ 2 := by
    norm_num at hn ⊢
    omega
  have h2 : ¬(BigEndian.encode 2 n ++ body).length < 2 := by
    simp only [List.length_append, BigEndian.length_encode]
    omega
  rw [process, if_neg h2, List.take_left' (BigEndian.length_encode 2 _),
    List.drop_left' (BigEndian.length_encode 2 _), BigEndian.decode_encode 2 _ hlt,
    if_neg (Nat.not_lt.mpr hbody)]

lemma process_frame {buf : Bytes} (hlen : buf.length < 2 ^ 16) (rest : Bytes) :
    process codec senderAddress (BigEndian.encode 2 buf.length ++ buf ++ rest) =
      deliver codec senderAddress buf rest := by
  rw [List.append_assoc, process_length_body hlen (by simp), List.take_left, List.drop_left]

end Process

/-- The processor's loop: `process` again as long as it returns `Ok(true)`. -/
def receive (codec : Codec A) (senderAddress : A) (stream : Bytes) :
    Except Error (List (TransportMessage A)) :=
  match _hp : process codec senderAddress stream with
  | .error e => .error e
  | .ok .closed => .ok []
  | .ok .failedRead => receive codec senderAddress []
  | .ok (.heartbeat rest) => receive codec senderAddress rest
  | .ok (.forward msg rest) => (receive codec senderAddress rest).map (msg :: ·)
termination_by stream.length
decreasing_by
  · simpa using process_failedRead _hp
  · exact process_rest_length _hp (.inr rfl)
  · exact process_rest_length _hp (.inl ⟨msg, rfl⟩)

/-- What the receiver hands on for a message it decodes: nothing for a heartbeat, and the message
with the sender's address in front of its return route otherwise. -/
def delivered (senderAddress : A) (msg : TransportMessage A) : Option (TransportMessage A) :=
  match msg.onwardRoute with
  | [] => none
  | _ :: _ => some { msg with returnRoute := senderAddress :: msg.returnRoute }

section Frames

variable {codec : Codec A} {senderAddress : A}

lemma prepareMessage_eq {msg : TransportMessage A} {msgBuf : Bytes}
    (h : codec.encode msg = some msgBuf) :
    prepareMessage codec msg = .ok (BigEndian.encode 2 (msgBuf.length % 2 ^ 16) ++ msgBuf) := by
  simp only [prepareMessage, h, List.reverse_append, List.reverse_reverse]

lemma receive_heartbeat {stream rest : Bytes}
    (h : process codec senderAddress stream = .ok (.heartbeat rest)) :
    receive codec senderAddress stream = receive codec senderAddress rest := by
  rw [receive]
  split <;> simp_all

lemma receive_forward {stream rest : Bytes} {msg : TransportMessage A}
    (h : process codec senderAddress stream = .ok (.forward msg rest)) :
    receive codec senderAddress stream = (receive codec senderAddress rest).map (msg :: ·) := by
  rw [receive]
  split <;> simp_all

lemma receive_deliver {stream buf rest : Bytes} {msg : TransportMessage A}
    (hdec : codec.decode buf = some msg)
    (h : process codec senderAddress stream = deliver codec senderAddress buf rest) :
    receive codec senderAddress stream =
      (receive codec senderAddress rest).map ((delivered senderAddress msg).toList ++ ·) := by
  simp only [deliver, hdec] at h
  unfold delivered
  -- a heartbeat is dropped, any other message handed on
  cases ho : msg.onwardRoute with
  | nil =>
    rw [ho] at h
    rw [receive_heartbeat h]
    cases receive codec senderAddress rest <;> rfl
  | cons a r =>
    rw [ho] at h
    rw [receive_forward h]
    rfl

theorem receive_frames (hcodec : ∀ msg buf, codec.encode msg = some buf → codec.decode buf = some msg) :
    ∀ {msgs : List (TransportMessage A)} {frames : List Bytes},
      List.Forall₂ (fun msg frame => prepareMessage codec msg = .ok frame) msgs frames →
      (∀ msg ∈ msgs, ∀ buf, codec.encode msg = some buf → buf.length < 2 ^ 16) →
      receive codec senderAddress frames.flatten = .ok (msgs.filterMap (delivered senderAddress))
  | [], [], .nil, _ => by
    rw [List.flatten_nil, receive]
    split <;> simp_all [process]
  | msg :: msgs, frame :: frames, .cons hframe hrest, hfit => by
    obtain ⟨buf, hbuf⟩ : ∃ buf, codec.encode msg = some buf := by
      rw [prepareMessage] at hframe
      split at hframe
      · cases hframe
      · exact ⟨_, ‹_›⟩
    have hlen := hfit msg (.head _) buf hbuf
    rw [prepareMessage_eq hbuf, Nat.mod_eq_of_lt hlen] at hframe
    cases hframe
    rw [List.flatten_cons, receive_deliver (hcodec msg buf hbuf) (process_frame hlen _),
      receive_frames hcodec hrest fun x hx => hfit x (.tail _ hx), List.filterMap_cons]
    cases delivered senderAddress msg <;> rfl

/-- A body of `2 ^ 16` bytes or more: `prepare_message` does not refuse it, the length it writes is
the body's modulo `2 ^ 16`, and the receiver decodes that many bytes of the body as the message and
reads the rest of the body as the frames after it. -/
theorem prepareMessage_wraps_length (codec : Codec A) (senderAddress : A) {msg : TransportMessage A}
    {msgBuf : Bytes} (henc : codec.encode msg = some msgBuf) (hlen : 2 ^ 16 ≤ msgBuf.length)
    (rest : Bytes) :
    prepareMessage codec msg = .ok (BigEndian.encode 2 (msgBuf.length % 2 ^ 16) ++ msgBuf) ∧
      msgBuf.length % 2 ^ 16 < msgBuf.length ∧
      process codec senderAddress (BigEndian.encode 2 (msgBuf.length % 2 ^ 16) ++ msgBuf ++ rest) =
        deliver codec senderAddress (msgBuf.take (msgBuf.length % 2 ^ 16))
          (msgBuf.drop (msgBuf.length % 2 ^ 16) ++ rest) := by
  have hmod : msgBuf.length % 2 ^ 16 < 2 ^ 16 := Nat.mod_lt _ (by norm_num)
  have hlt : msgBuf.length % 2 ^ 16 < msgBuf.length := by omega
  refine ⟨prepareMessage_eq henc, hlt, ?_⟩
  -- the prefix is read as written, and the body cut where it says
  rw [List.append_assoc, process_length_body hmod (by simp; omega),
    List.take_append_of_le_length hlt.le, List.drop_append_of_le_length hlt.le]

/-- `serde_bare` of a `TransportMessage` whose addresses are, as `Address` is, a transport type
and bytes: the version; each route as its varint length and its addresses, an address as its type
and its bytes after their varint length; the payload after its varint length. -/
def bareBytes (bs : Bytes) : Bytes := Varint.encode bs.length ++ bs

def bareRoute (route : List (UInt8 × Bytes)) : Bytes :=
  Varint.encode route.length ++ (route.map fun a => a.1 :: bareBytes a.2).flatten

def bareEncode (msg : TransportMessage (UInt8 × Bytes)) : Bytes :=
  msg.version :: (bareRoute msg.onwardRoute ++ bareRoute msg.returnRoute ++ bareBytes msg.payload)

def readBareBytes (bs : Bytes) : Option (Bytes × Bytes) :=
  match Varint.decode 64 9 bs with
  | .ok (n, rest) => if n ≤ rest.length then some (rest.take n, rest.drop n) else none
  | .error _ => none

def readAddresses : ℕ → Bytes → Option (List (UInt8 × Bytes) × Bytes)
  | 0, bs => some ([], bs)
  | n + 1, bs =>
    match bs with
    | [] => none
    | tt :: bs => do
      let (inner, bs) ← readBareBytes bs
      let (route, bs) ← readAddresses n bs
      pure ((tt, inner) :: route, bs)

def readBareRoute (bs : Bytes) : Option (List (UInt8 × Bytes) × Bytes) :=
  match Varint.decode 64 9 bs with
  | .ok (n, rest) => readAddresses n rest
  | .error _ => none

def bareDecode : Bytes → Option (TransportMessage (UInt8 × Bytes))
  | [] => none
  | version :: bs => do
    let (onwardRoute, bs) ← readBareRoute bs
    let (returnRoute, bs) ← readBareRoute bs
    let (payload, bs) ← readBareBytes bs
    if bs = [] then some ⟨version, onwardRoute, returnRoute, payload⟩ else none

def bareCodec : Codec (UInt8 × Bytes) := ⟨fun msg => some (bareEncode msg), bareDecode⟩

lemma length_payload_le_bareEncode (msg : TransportMessage (UInt8 × Bytes)) :
    msg.payload.length ≤ (bareEncode msg).length := by
  simp only [bareEncode, bareBytes, List.length_cons, List.length_append]
  omega

/-- A message of version `1` to one address, with a payload of `2 ^ 16` zero bytes: its encoding
is longer than `2 ^ 16` bytes, and the length written is the encoding's modulo `2 ^ 16`. -/
theorem prepareMessage_wraps_length_zeros :
    let msg : TransportMessage (UInt8 × Bytes) := ⟨1, [(1, [0])], [], List.replicate (2 ^ 16) 0⟩
    prepareMessage bareCodec msg =
        .ok (BigEndian.encode 2 ((bareEncode msg).length % 2 ^ 16) ++ bareEncode msg) ∧
      (bareEncode msg).length % 2 ^ 16 < (bareEncode msg).length ∧
      process bareCodec (2, [0])
          (BigEndian.encode 2 ((bareEncode msg).length % 2 ^ 16) ++ bareEncode msg ++ []) =
        deliver bareCodec (2, [0]) ((bareEncode msg).take ((bareEncode msg).length % 2 ^ 16))
          ((bareEncode msg).drop ((bareEncode msg).length % 2 ^ 16) ++ []) :=
  prepareMessage_wraps_length bareCodec (2, [0]) rfl
    (by
      -- through a lemma for every message: unfolding this one would make the kernel count
      -- the 2 ^ 16 bytes of its payload
      have h := length_payload_le_bareEncode ⟨1, [(1, [0])], [], List.replicate (2 ^ 16) 0⟩
      dsimp only at h
      rwa [List.length_replicate] at h) []

end Frames

end Ockam.Transport
