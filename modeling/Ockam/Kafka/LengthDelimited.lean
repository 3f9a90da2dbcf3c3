import Ockam.Core.Error
import Ockam.Lib.BigEndian

/-! `KafkaMessageDecoder` (`length_delimited.rs`): messages after their length as a big-endian
`u32`, in payloads cut anywhere. `Buf::get_u32` of the `bytes` crate is a parameter. -/

namespace Ockam.Kafka

open Ockam.Lib

/-- `Buf::get_u32`: it reads four bytes big-endian, and panics when fewer are left. -/
structure Buf where
  getU32 : Bytes → Except Error (ℕ × Bytes)
  getU32_reads : ∀ b rest, b.length = 4 → getU32 (b ++ rest) = .ok (BigEndian.decode b, rest)
  getU32_panics : ∀ incoming, incoming.length < 4 → ∃ msg, getU32 incoming = .error (.panic msg)

namespace Buf

variable (B : Buf) {incoming rest : Bytes} {n : ℕ}

lemma getU32_of_le (h4 : 4 ≤ incoming.length) :
    B.getU32 incoming = .ok (BigEndian.decode (incoming.take 4), incoming.drop 4) := by
  have h := B.getU32_reads (incoming.take 4) (incoming.drop 4) (by simp; omega)
  rwa [List.take_append_drop] at h

lemma getU32_eq_ok (h : B.getU32 incoming = .ok (n, rest)) :
    4 ≤ incoming.length ∧ n = BigEndian.decode (incoming.take 4) ∧ rest = incoming.drop 4 := by
  by_cases h4 : 4 ≤ incoming.length
  · rw [B.getU32_of_le h4] at h
    cases h
    exact ⟨h4, rfl, rfl⟩
  · obtain ⟨msg, hmsg⟩ := B.getU32_panics incoming (by omega)
    rw [hmsg] at h
    cases h

end Buf

structure KafkaMessageDecoder where
  buffer : Option Bytes
  currentMessageLength : ℕ
  deriving DecidableEq, Repr

def KafkaMessageDecoder.new : KafkaMessageDecoder := ⟨none, 0⟩

variable (B : Buf)

def readLength (maxMessageSize : ℕ) (d : KafkaMessageDecoder) (incoming : Bytes) :
    Except Error (KafkaMessageDecoder × Bytes) :=
  if d.currentMessageLength = 0 then
    match B.getU32 incoming with
    | .error e => .error e
    | .ok (currentMessageLength, incoming) =>
      if currentMessageLength > maxMessageSize then
        .error (.message "kafka message is bigger than maximum size")
      else if currentMessageLength = 0 then .error (.message "kafka message of size 0")
      else .ok (⟨some [], currentMessageLength⟩, incoming)
  else .ok (d, incoming)

/-- How one turn of the loop ends: on `break`, or with a message pushed and the rest. -/
inductive Turn where
  | stop (d : KafkaMessageDecoder)
  | next (message rest : Bytes)

def fill (d : KafkaMessageDecoder) (incoming : Bytes) : Except Error Turn :=
  match d.buffer with
  | none => .error (.panic "called `Option::unwrap()` on a `None` value")
  | some buffer =>
    let missingBytes := d.currentMessageLength - buffer.length
    if missingBytes > incoming.length then
      .ok (.stop ⟨some (buffer ++ incoming), d.currentMessageLength⟩)
    else .ok (.next (buffer ++ incoming.take missingBytes) (incoming.drop missingBytes))

def turn (maxMessageSize : ℕ) (d : KafkaMessageDecoder) (incoming : Bytes) : Except Error Turn := do
  let (d, incoming) ← readLength B maxMessageSize d incoming
  fill d incoming

section Turn

variable {B} {maxMessageSize : ℕ} {d d' : KafkaMessageDecoder} {incoming rest : Bytes}

lemma readLength_inv (h : readLength B maxMessageSize d incoming = .ok (d', rest)) :
    0 < d'.currentMessageLength ∧
      ((d.currentMessageLength = 0 ∧ 4 ≤ incoming.length ∧ rest = incoming.drop 4 ∧
          d'.buffer = some []) ∨
        (0 < d.currentMessageLength ∧ d' = d ∧ rest = incoming)) := by
  unfold readLength at h
  split_ifs at h with hd
  · -- `get_u32` reads four bytes, and the length passes both checks
    split at h
    · cases h
    · rename_i n i hget
      obtain ⟨h4, -, rfl⟩ := B.getU32_eq_ok hget
      split_ifs at h with hmax hzero
      cases h
      exact ⟨Nat.pos_of_ne_zero hzero, .inl ⟨hd, h4, rfl, rfl⟩⟩
  · cases h
    exact ⟨Nat.pos_of_ne_zero hd, .inr ⟨Nat.pos_of_ne_zero hd, rfl, rfl⟩⟩

lemma readLength_of_pos (hd : 0 < d.currentMessageLength) :
    readLength B maxMessageSize d incoming = .ok (d, incoming) := by
  simp [readLength, Nat.pos_iff_ne_zero.mp hd]

lemma readLength_short (hd : d.currentMessageLength = 0) (h : incoming.length < 4) :
    ∃ msg, readLength B maxMessageSize d incoming = .error (.panic msg) := by
  obtain ⟨msg, hmsg⟩ := B.getU32_panics incoming h
  exact ⟨msg, by simp [readLength, hd, hmsg]⟩

lemma readLength_append (c' : Bytes) (h : readLength B maxMessageSize d incoming = .ok (d', rest)) :
    readLength B maxMessageSize d (incoming ++ c') = .ok (d', rest ++ c') := by
  obtain ⟨-, ⟨hd, h4, rfl, -⟩ | ⟨hd, rfl, rfl⟩⟩ := readLength_inv h
  · -- the same four bytes are read, with more after them
    have htake : (incoming ++ c').take 4 = incoming.take 4 := List.take_append_of_le_length h4
    have hdrop : (incoming ++ c').drop 4 = incoming.drop 4 ++ c' := List.drop_append_of_le_length h4
    have h4' : 4 ≤ (incoming ++ c').length := by simp; omega
    simp only [readLength, B.getU32_of_le h4, hd] at h
    simp only [readLength, B.getU32_of_le h4', hd, htake, hdrop]
    split_ifs at h ⊢ <;> simp_all
  · exact readLength_of_pos hd

lemma fill_stop_inv {d₁ : KafkaMessageDecoder} (h : fill d incoming = .ok (.stop d₁)) :
    ∃ buffer, d.buffer = some buffer ∧ incoming.length < d.currentMessageLength - buffer.length ∧
      d₁ = ⟨some (buffer ++ incoming), d.currentMessageLength⟩ := by
  unfold fill at h
  split at h
  · cases h
  · rename_i buffer hb
    dsimp only at h
    split_ifs at h with hlt <;> cases h
    exact ⟨buffer, hb, hlt, rfl⟩

lemma fill_next_inv {message : Bytes} (h : fill d incoming = .ok (.next message rest)) :
    ∃ buffer, d.buffer = some buffer ∧ d.currentMessageLength - buffer.length ≤ incoming.length ∧
      message = buffer ++ incoming.take (d.currentMessageLength - buffer.length) ∧
      rest = incoming.drop (d.currentMessageLength - buffer.length) := by
  unfold fill at h
  split at h
  · cases h
  · rename_i buffer hb
    dsimp only at h
    split_ifs at h with hlt <;> cases h
    exact ⟨buffer, hb, Nat.not_lt.mp hlt, rfl, rfl⟩

lemma fill_of_buffer {buffer : Bytes} (hb : d.buffer = some buffer) :
    fill d incoming = if d.currentMessageLength - buffer.length > incoming.length then
      .ok (.stop ⟨some (buffer ++ incoming), d.currentMessageLength⟩)
    else .ok (.next (buffer ++ incoming.take (d.currentMessageLength - buffer.length))
      (incoming.drop (d.currentMessageLength - buffer.length))) := by
  simp [fill, hb]

lemma turn_eq_bind (maxMessageSize : ℕ) (d : KafkaMessageDecoder) (incoming : Bytes) :
    turn B maxMessageSize d incoming =
      (readLength B maxMessageSize d incoming).bind fun p => fill p.1 p.2 := rfl

lemma turn_of_readLength {d₀ : KafkaMessageDecoder} {i₀ : Bytes}
    (h : readLength B maxMessageSize d incoming = .ok (d₀, i₀)) :
    turn B maxMessageSize d incoming = fill d₀ i₀ := by
  rw [turn_eq_bind, h]
  rfl

lemma turn_next_length {message : Bytes} (h : turn B maxMessageSize d incoming = .ok (.next message rest)) :
    2 * rest.length < 2 * incoming.length + if d.currentMessageLength = 0 then 0 else 1 := by
  rcases hr : readLength B maxMessageSize d incoming with e | ⟨d₀, i₀⟩
  · rw [turn_eq_bind, hr] at h
    cases h
  · rw [turn_of_readLength hr] at h
    obtain ⟨buffer, -, -, -, rfl⟩ := fill_next_inv h
    rw [List.length_drop]
    obtain ⟨-, ⟨hd, h4, rfl, -⟩ | ⟨hd, -, rfl⟩⟩ := readLength_inv hr
    · rw [List.length_drop, if_pos hd]
      omega
    · rw [if_neg (Nat.pos_iff_ne_zero.mp hd)]
      omega

end Turn

/-- `while incoming.remaining() > 0`: the messages completed so far are kept in `messages`. -/
def decodeLoop (maxMessageSize : ℕ) (d : KafkaMessageDecoder) (incoming : Bytes)
    (messages : List Bytes) : Except Error (KafkaMessageDecoder × List Bytes) :=
  if incoming = [] then .ok (d, messages)
  else
    match _hturn : turn B maxMessageSize d incoming with
    | .error e => .error e
    | .ok (.stop d) => .ok (d, messages)
    | .ok (.next message rest) =>
      decodeLoop maxMessageSize .new rest (messages ++ [message])
termination_by 2 * incoming.length + if d.currentMessageLength = 0 then 0 else 1
decreasing_by
  have := turn_next_length _hturn
  simp only [KafkaMessageDecoder.new, if_true]
  omega

def decodeMessages (maxMessageSize : ℕ) (d : KafkaMessageDecoder) (incoming : Bytes) :
    Except Error (KafkaMessageDecoder × List Bytes) :=
  decodeLoop B maxMessageSize d incoming []

/-- The buffer `length_encode` fills: the length as a `u32`, then the content. -/
def frame (content : Bytes) : Bytes := BigEndian.encode 4 content.length ++ content

def lengthEncode (content : Bytes) : Except Error Bytes :=
  if content.length ≥ 2 ^ 32 - 1 then .error (.message "kafka message is bigger than 4GB")
  else .ok (frame content)

lemma lengthEncode_of_lt {content : Bytes} (h : content.length < 2 ^ 32 - 1) :
    lengthEncode content = .ok (frame content) := by
  rw [lengthEncode, if_neg (Nat.not_le.mpr h)]

/-- The payloads handed to the decoder one after another, the messages of each call appended. -/
def decodeChunks (maxMessageSize : ℕ) :
    KafkaMessageDecoder → List Bytes → Except Error (KafkaMessageDecoder × List Bytes)
  | d, [] => .ok (d, [])
  | d, c :: cs =>
    match decodeMessages B maxMessageSize d c with
    | .error e => .error e
    | .ok (d, messages) =>
      match decodeChunks maxMessageSize d cs with
      | .error e => .error e
      | .ok (d, messages') => .ok (d, messages ++ messages')

section Loop

variable {B} {maxMessageSize : ℕ} {d d₁ : KafkaMessageDecoder} {incoming : Bytes}
  {acc acc₁ : List Bytes}

@[simp] lemma decodeLoop_nil : decodeLoop B maxMessageSize d [] acc = .ok (d, acc) := by
  rw [decodeLoop, if_pos rfl]

lemma decodeLoop_error (hc : incoming ≠ []) {e : Error}
    (h : turn B maxMessageSize d incoming = .error e) :
    decodeLoop B maxMessageSize d incoming acc = .error e := by
  rw [decodeLoop, if_neg hc]
  split <;> simp_all

lemma decodeLoop_stop (hc : incoming ≠ []) (h : turn B maxMessageSize d incoming = .ok (.stop d₁)) :
    decodeLoop B maxMessageSize d incoming acc = .ok (d₁, acc) := by
  rw [decodeLoop, if_neg hc]
  split <;> simp_all

lemma decodeLoop_next (hc : incoming ≠ []) {message rest : Bytes}
    (h : turn B maxMessageSize d incoming = .ok (.next message rest)) :
    decodeLoop B maxMessageSize d incoming acc =
      decodeLoop B maxMessageSize .new rest (acc ++ [message]) := by
  rw [decodeLoop, if_neg hc]
  split <;> simp_all

lemma decodeLoop_congr_turn {d' : KafkaMessageDecoder} {incoming' : Bytes} (hc : incoming ≠ [])
    (hc' : incoming' ≠ []) (h : turn B maxMessageSize d incoming = turn B maxMessageSize d' incoming') :
    decodeLoop B maxMessageSize d incoming acc = decodeLoop B maxMessageSize d' incoming' acc := by
  rcases hr : turn B maxMessageSize d' incoming' with e | (d₂ | ⟨message, rest⟩)
  · rw [decodeLoop_error hc (h.trans hr), decodeLoop_error hc' hr]
  · rw [decodeLoop_stop hc (h.trans hr), decodeLoop_stop hc' hr]
  · rw [decodeLoop_next hc (h.trans hr), decodeLoop_next hc' hr]

lemma decodeLoop_acc (acc : List Bytes) (maxMessageSize : ℕ) (d : KafkaMessageDecoder)
    (incoming : Bytes) (acc' : List Bytes) :
    decodeLoop B maxMessageSize d incoming (acc ++ acc') =
      (decodeLoop B maxMessageSize d incoming acc').map fun p => (p.1, acc ++ p.2) := by
  fun_induction decodeLoop B maxMessageSize d incoming acc' with
  | case1 => rw [decodeLoop_nil]; rfl
  | case2 d incoming acc' hc e h => rw [decodeLoop_error hc h]; rfl
  | case3 d incoming acc' hc d₂ h => rw [decodeLoop_stop hc h]; rfl
  | case4 d incoming acc' hc message rest h ih =>
    rw [decodeLoop_next hc h, List.append_assoc, ih]

end Loop

section Append

variable {B} {maxMessageSize : ℕ} {d d₁ : KafkaMessageDecoder} {c : Bytes}

lemma turn_append_of_next (c' : Bytes) {message rest : Bytes}
    (h : turn B maxMessageSize d c = .ok (.next message rest)) :
    turn B maxMessageSize d (c ++ c') = .ok (.next message (rest ++ c')) := by
  rcases hr : readLength B maxMessageSize d c with e | ⟨d₀, i₀⟩
  · rw [turn_eq_bind, hr] at h
    cases h
  · rw [turn_of_readLength hr] at h
    obtain ⟨buffer, hb, hle, rfl, rfl⟩ := fill_next_inv h
    have hle' : d₀.currentMessageLength - buffer.length ≤ (i₀ ++ c').length := by simp; omega
    rw [turn_of_readLength (readLength_append c' hr), fill_of_buffer hb, if_neg (Nat.not_lt.mpr hle'),
      List.take_append_of_le_length hle, List.drop_append_of_le_length hle]

lemma turn_append_of_stop {c' : Bytes} (h : turn B maxMessageSize d c = .ok (.stop d₁)) :
    turn B maxMessageSize d (c ++ c') = turn B maxMessageSize d₁ c' := by
  rcases hr : readLength B maxMessageSize d c with e | ⟨d₀, i₀⟩
  · rw [turn_eq_bind, hr] at h
    cases h
  · rw [turn_of_readLength hr] at h
    obtain ⟨buffer, hb, hlt, rfl⟩ := fill_stop_inv h
    have hopen : 0 < (⟨some (buffer ++ i₀), d₀.currentMessageLength⟩ : KafkaMessageDecoder).currentMessageLength :=
      (readLength_inv hr).1
    rw [turn_of_readLength (readLength_append c' hr), turn_of_readLength (readLength_of_pos hopen),
      fill_of_buffer hb, fill_of_buffer rfl]
    -- the bytes still missing, counted before the chunk or after it
    simp only [List.length_append, Nat.sub_add_eq, List.append_assoc]
    split_ifs with h₁ h₂ h₂
    · rfl
    · omega
    · omega
    · rw [List.take_append, List.take_of_length_le hlt.le, List.drop_append,
        List.drop_of_length_le hlt.le, List.nil_append]

theorem decodeLoop_append (c' : Bytes) {acc acc₁ : List Bytes}
    (h : decodeLoop B maxMessageSize d c acc = .ok (d₁, acc₁)) :
    decodeLoop B maxMessageSize d (c ++ c') acc = decodeLoop B maxMessageSize d₁ c' acc₁ := by
  fun_induction decodeLoop B maxMessageSize d c acc with
  | case1 d acc =>
    cases h
    rfl
  | case2 d c acc hc e hturn => cases h
  | case3 d c acc hc d₂ hturn =>
    cases h
    by_cases hc' : c' = []
    · rw [hc', List.append_nil, decodeLoop_stop hc hturn, decodeLoop_nil]
    · exact decodeLoop_congr_turn (by simp [hc]) hc' (turn_append_of_stop hturn)
  | case4 d c acc hc message rest hturn ih =>
    rw [decodeLoop_next (by simp [hc]) (turn_append_of_next c' hturn)]
    exact ih h

theorem decodeMessages_of_decodeChunks : ∀ {d d' : KafkaMessageDecoder} {cs out : List Bytes},
    decodeChunks B maxMessageSize d cs = .ok (d', out) →
      decodeMessages B maxMessageSize d cs.flatten = .ok (d', out)
  | d, d', [], out, h => by
    cases h
    rw [List.flatten_nil, decodeMessages, decodeLoop_nil]
  | d, d', c :: cs, out, h => by
    rw [decodeChunks] at h
    split at h
    · cases h
    rename_i d₁ out₁ h₁
    split at h
    · cases h
    rename_i d₂ out₂ h₂
    cases h
    have hrest := decodeMessages_of_decodeChunks h₂
    rw [decodeMessages] at h₁ hrest ⊢
    rw [List.flatten_cons, decodeLoop_append _ h₁, ← List.append_nil out₁, decodeLoop_acc, hrest]
    simp [Except.map]

end Append

section Frames

variable {B} {maxMessageSize : ℕ} {m : Bytes}

/-- A message whose length the decoder takes. -/
def Fits (maxMessageSize : ℕ) (m : Bytes) : Prop := 0 < m.length ∧ m.length ≤ maxMessageSize

lemma readLength_frame (hmax : maxMessageSize < 2 ^ 32) (hm : Fits maxMessageSize m) (rest : Bytes) :
    readLength B maxMessageSize .new (frame m ++ rest) = .ok (⟨some [], m.length⟩, m ++ rest) := by
  have hlt : m.length < 256 ^ 4 := by
    have := hm.2
    norm_num at hmax ⊢
    omega
  have hframe : frame m ++ rest = BigEndian.encode 4 m.length ++ (m ++ rest) := by
    rw [frame, List.append_assoc]
  rw [hframe]
  simp [readLength, B.getU32_of_le (by simp : 4 ≤ (BigEndian.encode 4 m.length ++ (m ++ rest)).length),
    KafkaMessageDecoder.new, List.take_left' (BigEndian.length_encode 4 _),
    List.drop_left' (BigEndian.length_encode 4 _), BigEndian.decode_encode 4 _ hlt,
    Nat.not_lt.mpr hm.2, Nat.pos_iff_ne_zero.mp hm.1]

lemma decodeLoop_frame (hmax : maxMessageSize < 2 ^ 32) (hm : Fits maxMessageSize m) (rest : Bytes)
    (acc : List Bytes) :
    decodeLoop B maxMessageSize .new (frame m ++ rest) acc =
      decodeLoop B maxMessageSize .new rest (acc ++ [m]) := by
  have hturn : turn B maxMessageSize .new (frame m ++ rest) = .ok (.next m rest) := by
    rw [turn_of_readLength (readLength_frame hmax hm rest), fill_of_buffer rfl]
    simp
  exact decodeLoop_next (List.ne_nil_of_length_pos (by simp [frame])) hturn

theorem decodeLoop_frames (hmax : maxMessageSize < 2 ^ 32) :
    ∀ {ms : List Bytes}, (∀ m ∈ ms, Fits maxMessageSize m) → ∀ (rest : Bytes) (acc : List Bytes),
      decodeLoop B maxMessageSize .new ((ms.map frame).flatten ++ rest) acc =
        decodeLoop B maxMessageSize .new rest (acc ++ ms)
  | [], _, rest, acc => by simp
  | m :: ms, hms, rest, acc => by
    rw [List.map_cons, List.flatten_cons, List.append_assoc,
      decodeLoop_frame hmax (hms m (.head _)), decodeLoop_frames hmax (fun x hx => hms x (.tail _ hx)),
      List.append_assoc, List.singleton_append]

theorem decodeChunks_frames (hmax : maxMessageSize < 2 ^ 32) {ms cs : List Bytes}
    (hms : ∀ m ∈ ms, Fits maxMessageSize m) (hcs : cs.flatten = (ms.map frame).flatten)
    {d' : KafkaMessageDecoder} {out : List Bytes}
    (h : decodeChunks B maxMessageSize .new cs = .ok (d', out)) : d' = .new ∧ out = ms := by
  have hrun := decodeMessages_of_decodeChunks h
  rw [decodeMessages, hcs, ← List.append_nil (ms.map frame).flatten, decodeLoop_frames hmax hms,
    decodeLoop_nil, List.nil_append] at hrun
  cases hrun
  exact ⟨rfl, rfl⟩

/-- A first chunk that ends one to three bytes into a length prefix, after any whole messages:
`get_u32` is called on what is left of it and panics, whatever the later chunks are. -/
theorem decodeChunks_prefix_split (B : Buf) (hmax : maxMessageSize < 2 ^ 32) {done : List Bytes}
    (hdone : ∀ m ∈ done, Fits maxMessageSize m) (m : Bytes) {n : ℕ} (hn : 0 < n) (hn4 : n < 4)
    (cs : List Bytes) :
    ∃ msg, decodeChunks B maxMessageSize .new (((done.map frame).flatten ++ (frame m).take n) :: cs) =
      .error (.panic msg) := by
  have hlen : ((frame m).take n).length = n := by
    simp only [List.length_take, frame, List.length_append, BigEndian.length_encode]
    omega
  have hshort : ∃ msg, readLength B maxMessageSize .new ((frame m).take n) = .error (.panic msg) :=
    readLength_short rfl (by omega)
  obtain ⟨msg, hmsg⟩ := hshort
  have hturn : turn B maxMessageSize .new ((frame m).take n) = .error (.panic msg) := by
    rw [turn_eq_bind, hmsg]
    rfl
  have hrun : decodeMessages B maxMessageSize .new ((done.map frame).flatten ++ (frame m).take n) =
      .error (.panic msg) := by
    rw [decodeMessages, decodeLoop_frames hmax hdone,
      decodeLoop_error (List.ne_nil_of_length_pos (by omega)) hturn]
  exact ⟨msg, by rw [decodeChunks, hrun]⟩

/-- A `Buf` over the bytes left, as a list, with the two laws. -/
def listBuf : Buf where
  getU32 incoming :=
    if 4 ≤ incoming.length then .ok (BigEndian.decode (incoming.take 4), incoming.drop 4)
    else .error (.panic "buffer too short")
  getU32_reads b rest hb := by
    rw [if_pos (by simp [hb]), List.take_left' hb, List.drop_left' hb]
  getU32_panics incoming h := ⟨_, if_neg (by omega)⟩

/-- The message `[7]`, framed as `[0, 0, 0, 1, 7]` and cut after two bytes. -/
theorem decodeChunks_prefix_split_seven :
    [0, 0] ++ [0, 1, 7] = frame [7] ∧
      ∃ msg, decodeChunks listBuf 8 .new [[0, 0], [0, 1, 7]] = .error (.panic msg) :=
  ⟨by decide, @decodeChunks_prefix_split 8 listBuf (by norm_num) [] (by simp) [7] 2
    (by decide) (by decide) [[0, 1, 7]]⟩

end Frames

end Ockam.Kafka
