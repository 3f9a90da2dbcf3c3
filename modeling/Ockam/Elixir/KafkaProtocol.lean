import Ockam.Core.Error
import Ockam.Lib.BigEndian
import Ockam.Lib.Varint
import Ockam.Lib.Decoder

/-! The Kafka wire types of `Protocol.Formatter` and `Protocol.Parser` (`interceptor/protocol`): a
formatter gives bytes or an error, a parser is a `Decoder`, and `nil` is `none`. Integers keep their
low bits, so one below the signed minimum of its type reads back wrapped (`parseSigned_bigSigned`). -/

namespace Ockam.Elixir.Kafka

open Ockam.Lib Decoder

/-- The wire types that `{:invalid_type, type, data}` names. -/
inductive TypeName where
  | boolean
  | int32
  | int16
  | array
  | taggedFields
  | uuid
  deriving DecidableEq, Repr

inductive FormatError where
  | invalidType (type : TypeName)
  | stringCannotBeNil
  | compactStringCannotBeNil
  | unsignedVarintOutOfBounds
  | unsupportedApi (apiKey apiVersion : ℤ)
  -- no clause of a private function takes its arguments, and the call raises
  | functionClause
  deriving DecidableEq, Repr

/-- The reasons of the parser's errors; the context that each `parse_type` wraps around the
reason is not kept. -/
inductive ParseError where
  | invalidType (type : TypeName)
  | parseBoolean
  | invalidData
  | invalidDataOfSize (size : ℤ)
  | invalidSize
  | invalidSizeOf (size : ℤ)
  | negativeSize (size : ℤ)
  | unsignedVarintOutOfBounds
  | parseUnsignedVarint
  | tagOrderInvalid (tag prev : ℤ)
  | tagFieldInvalid (tag size : ℤ)
  | unsupportedVersion (apiVersion : ℤ)
  | functionClause
  -- the untagged `{:parse_array, reason, data}` of `parse_type({:array, _}, _)`, which a `with`
  -- passes on as it passes an error
  | parseArray (reason : ParseError)
  -- a `case` that no clause matches raises `CaseClauseError`
  | caseClause
  deriving DecidableEq, Repr

abbrev Parser := Decoder ParseError UInt8

/-- A map of tagged fields, as its entries in increasing order of tag: the order that
`Enum.sort_by(_, tag)` puts them in, so that a map is one value whatever order it was built in. -/
@[ext] structure TaggedFields where
  fields : List (ℤ × Bytes)
  sorted : fields.Pairwise (·.1 < ·.1)
  deriving DecidableEq

namespace TaggedFields

def empty : TaggedFields := ⟨[], List.Pairwise.nil⟩

/-- `Map.put(acc, tag, field)` for a tag above every tag of the map: the entry goes last. -/
def putLast (acc : TaggedFields) (tag : ℤ) (field : Bytes) (h : ∀ e ∈ acc.fields, e.1 < tag) :
    TaggedFields :=
  ⟨acc.fields ++ [(tag, field)], by
    refine List.pairwise_append.mpr ⟨acc.sorted, List.pairwise_singleton _ _, ?_⟩
    intro e he e' he'
    rw [List.mem_singleton] at he'
    subst he'
    exact h e he⟩

lemma le_of_mem_putLast {acc : TaggedFields} {tag : ℤ} {field : Bytes}
    {h : ∀ e ∈ acc.fields, e.1 < tag} : ∀ e ∈ (acc.putLast tag field h).fields, e.1 ≤ tag := by
  intro e he
  rcases List.mem_append.mp he with he | he
  · exact (h e he).le
  · rw [List.mem_singleton] at he
    subst he
    exact le_rfl

end TaggedFields

/-! ### The formatter -/

/-- `<<integer::signed-big-integer-size(8 * bytes)>>`: the low `8 * bytes` bits of `integer` in
two's complement. -/
def bigSigned (bytes : ℕ) (integer : ℤ) : Bytes :=
  BigEndian.encode bytes (integer % 2 ^ (8 * bytes)).toNat

/-- `format_typed_list`: one step of its `Enum.reduce`. -/
def appendFormatted (acc part : Except FormatError Bytes) : Except FormatError Bytes :=
  match acc with
  | .ok acc => part.map (acc ++ ·)
  | .error reason => .error reason

/-- `format_typed_list`: the parts one after the other, or the first error. -/
def formatTypedList (list : List (Except FormatError Bytes)) : Except FormatError Bytes :=
  list.foldl appendFormatted (.ok [])

def formatBoolean : Option Bool → Except FormatError Bytes
  | some false => .ok [0]
  | some true => .ok [1]
  | none => .error (.invalidType .boolean)

/-- `format_type(:int32, _)` and `format_type(:int16, _)`: an integer under `2^(8 * bytes - 1)`. -/
def formatSigned (type : TypeName) (bytes : ℕ) : Option ℤ → Except FormatError Bytes
  | some integer =>
    if integer < 2 ^ (8 * bytes - 1) then .ok (bigSigned bytes integer) else .error (.invalidType type)
  | none => .error (.invalidType type)

def formatInt32 : Option ℤ → Except FormatError Bytes := formatSigned .int32 4

def formatInt16 : Option ℤ → Except FormatError Bytes := formatSigned .int16 2

def formatNullableString : Option Bytes → Except FormatError Bytes
  | none => .ok (bigSigned 2 (-1))
  | some value => .ok (bigSigned 2 value.length ++ value)

def formatString : Option Bytes → Except FormatError Bytes
  | none => .error .stringCannotBeNil
  | some value => formatNullableString (some value)

/-- `format_type(:unsigned_varint, _)`, whose `format_unsigned_varint` is LEB128. -/
def formatUnsignedVarint (value : ℤ) : Except FormatError Bytes :=
  if 0 ≤ value ∧ value < 4294967296 then .ok (Varint.encode value.toNat)
  else .error .unsignedVarintOutOfBounds

def formatCompactString : Option Bytes → Except FormatError Bytes
  | none => .error .compactStringCannotBeNil
  | some value => formatTypedList [formatUnsignedVarint (value.length + 1), .ok value]

def formatCompactNullableString : Option Bytes → Except FormatError Bytes
  | none => formatUnsignedVarint 0
  | some value => formatCompactString (some value)

section Arrays

variable {α : Type}

def formatArrayElements (type : α → Except FormatError Bytes) (array : List α) :
    Except FormatError Bytes :=
  formatTypedList (array.map type)

def formatArray (type : α → Except FormatError Bytes) : Option (List α) → Except FormatError Bytes
  | some array => do
    let elementsBin ← formatArrayElements type array
    pure (bigSigned 4 array.length ++ elementsBin)
  | none => .error (.invalidType .array)

def formatCompactArray (type : α → Except FormatError Bytes) :
    Option (List α) → Except FormatError Bytes
  | none => formatUnsignedVarint 0
  | some array =>
    formatTypedList [formatUnsignedVarint (array.length + 1), formatArrayElements type array]

end Arrays

def formatTaggedField (field : ℤ × Bytes) : Except FormatError Bytes :=
  formatTypedList [formatUnsignedVarint field.1, formatUnsignedVarint field.2.length, .ok field.2]

def formatFields (fieldsMap : TaggedFields) : Except FormatError Bytes :=
  formatTypedList ((fieldsMap.fields.mergeSort fun a b => a.1 ≤ b.1).map formatTaggedField)

def formatTaggedFields : Option TaggedFields → Except FormatError Bytes
  | some fieldsMap =>
    formatTypedList [formatUnsignedVarint fieldsMap.fields.length, formatFields fieldsMap]
  | none => .error (.invalidType .taggedFields)

/-- A uuid is passed as a binary, whatever its size. -/
def formatUuid : Option Bytes → Except FormatError Bytes
  | some value => .ok value
  | none => .error (.invalidType .uuid)

/-! ### The parser -/

/-- The integer that `number::signed-big-integer-size(8 * bytes)` matches in the bytes whose
big-endian value is `number`. -/
def fromSigned (bytes number : ℕ) : ℤ :=
  if number < 2 ^ (8 * bytes - 1) then number else number - 2 ^ (8 * bytes)

/-- `<<value::binary-size(size), rest::binary>>`, or `error` where fewer bytes are left. -/
def binarySize (size : ℕ) (error : ParseError) : Parser Bytes := fun data =>
  if size ≤ data.length then .ok (data.take size, data.drop size) else .error error

def parseBoolean : Parser Bool
  | byte :: rest => .ok (byte != 0, rest)
  | [] => .error .parseBoolean

/-- `<<number::signed-big-integer-size(8 * bytes), rest::binary>>`, or `short`. -/
def parseSigned (short : ParseError) (bytes : ℕ) : Parser ℤ := do
  let bin ← binarySize bytes short
  pure (fromSigned bytes (BigEndian.decode bin))

def parseInt32 : Parser ℤ := parseSigned (.invalidType .int32) 4

def parseInt16 : Parser ℤ := parseSigned (.invalidType .int16) 2

/-- `parse_unsigned_varint(data, bytes_read)`: at most five bytes, with no width cut. -/
def parseUnsignedVarintFrom : Bytes → ℕ → Except ParseError (ℕ × Bytes)
  | [], _ => .error .parseUnsignedVarint
  | byte :: rest, bytesRead =>
    if byte.toNat < 128 then .ok (byte.toNat, rest)
    else if 4 ≤ bytesRead then .error .unsignedVarintOutOfBounds
    else
      match parseUnsignedVarintFrom rest (bytesRead + 1) with
      | .ok (m, rest) => .ok (m * 128 + byte.toNat % 128, rest)
      | .error reason => .error reason

def parseUnsignedVarint : Parser ℕ := fun data => parseUnsignedVarintFrom data 0

def parseNullableStringOfSize (size : ℤ) : Parser (Option Bytes) :=
  if size = -1 then pure none
  else if 0 ≤ size then do
    let string ← binarySize size.toNat (.invalidDataOfSize size)
    pure (some string)
  else Decoder.fail (.invalidSizeOf size)

def parseNullableString : Parser (Option Bytes) := do
  let size ← parseSigned .invalidData 2
  parseNullableStringOfSize size

def parseString : Parser Bytes := fun data =>
  match parseNullableString data with
  | .ok (some string, rest) => .ok (string, rest)
  | .ok (none, _) => .error (.invalidSizeOf (-1))
  | .error reason => .error reason

def parseCompactNullableString : Parser (Option Bytes) := do
  let modSize ← parseUnsignedVarint
  parseNullableStringOfSize (modSize - 1)

def parseCompactString : Parser Bytes := fun data =>
  match parseCompactNullableString data with
  | .ok (some string, rest) => .ok (string, rest)
  | .ok (none, _) => .error (.invalidSizeOf (-1))
  | .error reason => .error reason

section Arrays

variable {α : Type}

def parseArrayElements (type : Parser α) : ℕ → List α → Parser (List α)
  | 0, acc => pure acc
  | size + 1, acc => do
    let element ← type
    parseArrayElements type size (acc ++ [element])

def parseNullableArrayOfSize (size : ℤ) (type : Parser α) : Parser (Option (List α)) :=
  if size < -1 then Decoder.fail (.negativeSize size)
  else if size = -1 then pure none
  else do
    let array ← parseArrayElements type size.toNat []
    pure (some array)

def parseNullableArray (type : Parser α) : Parser (Option (List α)) := do
  let size ← parseSigned .invalidSize 4
  parseNullableArrayOfSize size type

/-- `parse_type({:array, type}, data)`: a `nil` array is an error, and the error of the nullable
array comes back untagged. An untagged result of an element matches no clause of the `case`. -/
def parseArray (type : Parser α) : Parser (List α) := fun data =>
  match parseNullableArray type data with
  | .ok (some array, rest) => .ok (array, rest)
  | .ok (none, _) => .error (.negativeSize (-1))
  | .error (.parseArray _) => .error .caseClause
  | .error .caseClause => .error .caseClause
  | .error reason => .error (.parseArray reason)

def parseCompactArray (type : Parser α) : Parser (Option (List α)) := do
  let modSize ← parseUnsignedVarint
  parseNullableArrayOfSize (modSize - 1) type

end Arrays

/-- `parse_field(data, prev)`: the tag has to be above the one before. -/
def parseField (prev : ℤ) : Parser {field : ℤ × Bytes // prev < field.1} := do
  let tag ← parseUnsignedVarint
  let size ← parseUnsignedVarint
  if h : prev < tag then do
    let field ← binarySize size (.tagFieldInvalid tag size)
    pure ⟨(tag, field), h⟩
  else Decoder.fail (.tagOrderInvalid tag prev)

/-- `parse_fields(fields_count, data, prev, acc)`: every tag of `acc` is at most `prev`. -/
def parseFields : ℕ → (prev : ℤ) → (acc : TaggedFields) → (∀ e ∈ acc.fields, e.1 ≤ prev) →
    Parser TaggedFields
  | 0, _, acc, _ => pure acc
  | fieldsCount + 1, prev, acc, hacc => do
    let ⟨(tag, field), hlt⟩ ← parseField prev
    parseFields fieldsCount tag (acc.putLast tag field fun e he => lt_of_le_of_lt (hacc e he) hlt)
      TaggedFields.le_of_mem_putLast

def parseTaggedFields : Parser TaggedFields := do
  let tagsCount ← parseUnsignedVarint
  parseFields tagsCount (-1) TaggedFields.empty (by simp [TaggedFields.empty])

def parseUuid : Parser Bytes := binarySize 16 .invalidData

/-! ### What the formatter writes -/

lemma foldl_appendFormatted_error (reason : FormatError) :
    ∀ list : List (Except FormatError Bytes), list.foldl appendFormatted (.error reason) = .error reason
  | [] => rfl
  | _ :: list => foldl_appendFormatted_error reason list

lemma foldl_appendFormatted_eq_ok : ∀ {list : List (Except FormatError Bytes)} {acc bin : Bytes},
    list.foldl appendFormatted (.ok acc) = .ok bin ↔
      ∃ bins, List.Forall₂ (fun part b => part = .ok b) list bins ∧ bin = acc ++ bins.flatten
  | [], acc, bin => by
    simp only [List.foldl_nil, Except.ok.injEq, List.forall₂_nil_left_iff, exists_eq_left,
      List.flatten_nil, List.append_nil]
    exact eq_comm
  | .error reason :: list, acc, bin => by
    simp [appendFormatted, Except.map, foldl_appendFormatted_error, List.forall₂_cons_left_iff]
  | .ok w :: list, acc, bin => by
    change list.foldl appendFormatted (.ok (acc ++ w)) = .ok bin ↔ _
    rw [foldl_appendFormatted_eq_ok]
    constructor
    · rintro ⟨bins, hbins, rfl⟩
      exact ⟨w :: bins, List.Forall₂.cons rfl hbins, by simp⟩
    · rintro ⟨allBins, hall, rfl⟩
      obtain ⟨b, bins, hb, hbins, rfl⟩ := List.forall₂_cons_left_iff.mp hall
      cases hb
      exact ⟨bins, hbins, by simp⟩

lemma formatTypedList_eq_ok {list : List (Except FormatError Bytes)} {bin : Bytes} :
    formatTypedList list = .ok bin ↔
      ∃ bins, List.Forall₂ (fun part b => part = .ok b) list bins ∧ bin = bins.flatten := by
  rw [formatTypedList, foldl_appendFormatted_eq_ok]
  simp

lemma formatTypedList_cons_eq_ok {part : Except FormatError Bytes}
    {list : List (Except FormatError Bytes)} {bin : Bytes}
    (h : formatTypedList (part :: list) = .ok bin) :
    ∃ w rest, part = .ok w ∧ formatTypedList list = .ok rest ∧ bin = w ++ rest := by
  obtain ⟨allBins, hall, rfl⟩ := formatTypedList_eq_ok.mp h
  obtain ⟨w, bins, hw, hbins, rfl⟩ := List.forall₂_cons_left_iff.mp hall
  exact ⟨w, bins.flatten, hw, formatTypedList_eq_ok.mpr ⟨bins, hbins, rfl⟩, by simp⟩

lemma formatTypedList_ne_ok {list : List (Except FormatError Bytes)} (reason : FormatError)
    (h : .error reason ∈ list) (bin : Bytes) : formatTypedList list ≠ .ok bin := by
  intro hok
  obtain ⟨bins, hbins, -⟩ := formatTypedList_eq_ok.mp hok
  clear hok
  induction hbins with
  | nil => cases h
  | cons hb _ ih =>
    rcases List.mem_cons.mp h with h | h
    · subst h
      cases hb
    · exact ih h

lemma formatTypedList_eq_error_of_mem {list : List (Except FormatError Bytes)} (reason : FormatError)
    (h : .error reason ∈ list) : ∃ reason', formatTypedList list = .error reason' := by
  cases hf : formatTypedList list with
  | error reason' => exact ⟨reason', rfl⟩
  | ok bin => exact absurd hf (formatTypedList_ne_ok reason h bin)

lemma formatFields_eq (fieldsMap : TaggedFields) :
    formatFields fieldsMap = formatTypedList (fieldsMap.fields.map formatTaggedField) := by
  rw [formatFields, List.mergeSort_of_pairwise]
  exact fieldsMap.sorted.imp fun h => decide_eq_true h.le

lemma formatTaggedFields_eq_error {fieldsMap : TaggedFields} {field : ℤ × Bytes}
    (hmem : field ∈ fieldsMap.fields) (htag : 4294967296 ≤ field.1) :
    ∃ reason, formatTaggedFields (some fieldsMap) = .error reason := by
  have hvarint : formatUnsignedVarint field.1 = .error .unsignedVarintOutOfBounds := by
    rw [formatUnsignedVarint, if_neg (by omega)]
  -- the error climbs from the tag through the field and the map
  obtain ⟨r1, h1⟩ : ∃ r, formatTaggedField field = .error r :=
    formatTypedList_eq_error_of_mem .unsignedVarintOutOfBounds (by simp [hvarint])
  obtain ⟨r2, h2⟩ : ∃ r, formatFields fieldsMap = .error r := by
    rw [formatFields_eq]
    exact formatTypedList_eq_error_of_mem r1 (List.mem_map.mpr ⟨field, hmem, h1⟩)
  exact formatTypedList_eq_error_of_mem r2 (by simp [h2])

@[simp] lemma length_bigSigned (bytes : ℕ) (integer : ℤ) : (bigSigned bytes integer).length = bytes :=
  BigEndian.length_encode _ _

lemma toNat_emod_lt (bytes : ℕ) (integer : ℤ) : (integer % 2 ^ (8 * bytes)).toNat < 256 ^ bytes := by
  have hpos : (0 : ℤ) < 2 ^ (8 * bytes) := by positivity
  have h256 : ((256 ^ bytes : ℕ) : ℤ) = 2 ^ (8 * bytes) := by
    push_cast
    rw [pow_mul]
    norm_num
  have := Int.emod_lt_of_pos integer hpos
  have := Int.emod_nonneg integer hpos.ne'
  omega

lemma decode_bigSigned (bytes : ℕ) (integer : ℤ) :
    BigEndian.decode (bigSigned bytes integer) = (integer % 2 ^ (8 * bytes)).toNat :=
  BigEndian.decode_encode _ _ (toNat_emod_lt bytes integer)

lemma formatSigned_of_lt {type : TypeName} {bytes : ℕ} {integer : ℤ}
    (h : integer < 2 ^ (8 * bytes - 1)) :
    formatSigned type bytes (some integer) = .ok (bigSigned bytes integer) := by
  rw [formatSigned, if_pos h]

lemma formatSigned_eq_ok {type : TypeName} {bytes : ℕ} {integer : Option ℤ} {bin : Bytes}
    (h : formatSigned type bytes integer = .ok bin) :
    ∃ n, integer = some n ∧ n < 2 ^ (8 * bytes - 1) ∧ bin = bigSigned bytes n := by
  cases integer with
  | none => cases h
  | some n =>
    simp only [formatSigned] at h
    split_ifs at h with hn
    cases h
    exact ⟨n, rfl, hn, rfl⟩

lemma fromSigned_emod {bytes : ℕ} {integer : ℤ} (hb : 0 < bytes)
    (hlo : -2 ^ (8 * bytes - 1) ≤ integer) (hhi : integer < 2 ^ (8 * bytes - 1)) :
    fromSigned bytes (integer % 2 ^ (8 * bytes)).toNat = integer := by
  have hN : (2 : ℤ) ^ (8 * bytes) = 2 * 2 ^ (8 * bytes - 1) := by
    rw [← pow_succ']
    congr 1
    omega
  have hcast : ((2 ^ (8 * bytes - 1) : ℕ) : ℤ) = 2 ^ (8 * bytes - 1) := by push_cast; rfl
  have hpos : (0 : ℤ) < 2 ^ (8 * bytes - 1) := by positivity
  unfold fromSigned
  rcases le_or_gt 0 integer with h0 | h0
  · -- a nonnegative integer is its own low bits, and under the sign bit
    rw [Int.emod_eq_of_lt h0 (by omega)]
    rw [if_pos (by omega)]
    omega
  · -- a negative one is `2^(8 * bytes)` above itself, at or over the sign bit
    have hmod : integer % 2 ^ (8 * bytes) = integer + 2 ^ (8 * bytes) := by
      rw [← Int.add_emod_right, Int.emod_eq_of_lt (by omega) (by omega)]
    rw [hmod, if_neg (by omega)]
    omega

lemma neg_le_fromSigned {bytes : ℕ} (hb : 0 < bytes) (number : ℕ) :
    -2 ^ (8 * bytes - 1) ≤ fromSigned bytes number := by
  have hN : (2 : ℕ) ^ (8 * bytes) = 2 * 2 ^ (8 * bytes - 1) := by
    rw [← pow_succ']
    congr 1
    omega
  unfold fromSigned
  split_ifs with hlt
  · have : (0 : ℤ) ≤ 2 ^ (8 * bytes - 1) := by positivity
    omega
  · have hc1 : ((2 ^ (8 * bytes - 1) : ℕ) : ℤ) = 2 ^ (8 * bytes - 1) := by norm_num
    have hc2 : ((2 ^ (8 * bytes) : ℕ) : ℤ) = 2 ^ (8 * bytes) := by norm_num
    omega

/-! ### What the parser reads back -/

lemma reads_binarySize (w : Bytes) (error : ParseError) : Reads (binarySize w.length error) w w := by
  intro rest
  simp [binarySize]

lemma reads_parseSigned (short : ParseError) (bytes : ℕ) (integer : ℤ) :
    Reads (parseSigned short bytes) (fromSigned bytes (integer % 2 ^ (8 * bytes)).toNat)
      (bigSigned bytes integer) := by
  have hr := (reads_binarySize (bigSigned bytes integer) short).bind
    (f := fun bin => pure (fromSigned bytes (BigEndian.decode bin))) (Reads.pure _)
  rw [List.append_nil, length_bigSigned, decode_bigSigned] at hr
  exact hr

lemma parseUnsignedVarintFrom_encode (rest : Bytes) :
    ∀ n bytesRead, bytesRead + (Varint.encode n).length ≤ 5 →
      parseUnsignedVarintFrom (Varint.encode n ++ rest) bytesRead = .ok (n, rest) := by
  intro n
  induction n using Nat.strong_induction_on with
  | _ n ih =>
    intro bytesRead hl
    by_cases hn : n < 128
    · -- the last byte, `n` itself
      rw [Varint.encode_of_lt hn, List.singleton_append, parseUnsignedVarintFrom,
        Varint.toNat_ofNat_small (by omega), if_pos hn]
    · -- a byte with the continuation bit, then the groups above
      have hle : 128 ≤ n := by omega
      rw [Varint.encode_of_le hle, List.length_cons] at hl
      have hne := Varint.encode_ne_nil (n / 128)
      have hpos : 0 < (Varint.encode (n / 128)).length := List.length_pos_iff.mpr hne
      rw [Varint.encode_of_le hle, List.cons_append, parseUnsignedVarintFrom,
        Varint.toNat_ofNat_small (by omega), if_neg (by omega), if_neg (by omega),
        ih (n / 128) (by omega) (bytesRead + 1) (by omega)]
      show Except.ok (n / 128 * 128 + (n % 128 + 128) % 128, rest) = _
      rw [show n / 128 * 128 + (n % 128 + 128) % 128 = n by omega]

lemma reads_parseUnsignedVarint {n : ℕ} (h : n < 2 ^ 35) :
    Reads parseUnsignedVarint n (Varint.encode n) := by
  intro rest
  exact parseUnsignedVarintFrom_encode rest n 0 (by
    have := Varint.length_encode_le (k := 4) (n := n) (by simpa using h)
    omega)

lemma fromSigned_two {size : ℤ} (hlo : -32768 ≤ size) (hhi : size < 32768) :
    fromSigned 2 (size % 2 ^ (8 * 2)).toNat = size :=
  fromSigned_emod (by norm_num) (by norm_num; omega) (by norm_num; omega)

lemma fromSigned_four {size : ℤ} (hlo : -2147483648 ≤ size) (hhi : size < 2147483648) :
    fromSigned 4 (size % 2 ^ (8 * 4)).toNat = size :=
  fromSigned_emod (by norm_num) (by norm_num; omega) (by norm_num; omega)

lemma reads_parseInt32 {n : ℤ} (hlo : -2147483648 ≤ n) (hhi : n < 2147483648) :
    Reads parseInt32 n (bigSigned 4 n) := by
  have h := reads_parseSigned (.invalidType .int32) 4 n
  rwa [fromSigned_four hlo hhi] at h

lemma reads_parseInt16 {n : ℤ} (hlo : -32768 ≤ n) (hhi : n < 32768) :
    Reads parseInt16 n (bigSigned 2 n) := by
  have h := reads_parseSigned (.invalidType .int16) 2 n
  rwa [fromSigned_two hlo hhi] at h

section Strings

lemma reads_parseNullableStringOfSize (value : Bytes) :
    Reads (parseNullableStringOfSize value.length) (some value) value := by
  rw [parseNullableStringOfSize, if_neg (by omega), if_pos (by omega), Int.toNat_natCast]
  exact (reads_binarySize value _).map some

lemma reads_parseNullableStringOfSize_none : Reads (parseNullableStringOfSize (-1)) none [] := by
  rw [parseNullableStringOfSize, if_pos rfl]
  exact Reads.pure none

lemma reads_parseNullableString {value : Bytes} (hv : value.length < 32768) :
    Reads parseNullableString (some value) (bigSigned 2 value.length ++ value) := by
  have hsize := reads_parseSigned .invalidData 2 value.length
  rw [fromSigned_two (by omega) (by omega)] at hsize
  exact hsize.bind (reads_parseNullableStringOfSize value)

lemma reads_parseNullableString_none : Reads parseNullableString none (bigSigned 2 (-1)) := by
  have hsize := reads_parseSigned .invalidData 2 (-1)
  rw [fromSigned_two (by omega) (by omega)] at hsize
  have hr : Reads parseNullableString none (bigSigned 2 (-1) ++ []) :=
    hsize.bind reads_parseNullableStringOfSize_none
  rwa [List.append_nil] at hr

lemma reads_parseString {value : Bytes} (hv : value.length < 32768) :
    Reads parseString value (bigSigned 2 value.length ++ value) := by
  intro rest
  simp only [parseString, reads_parseNullableString hv rest]

lemma reads_parseCompactNullableString {value : Bytes} (hv : value.length + 1 < 2 ^ 35) :
    Reads parseCompactNullableString (some value) (Varint.encode (value.length + 1) ++ value) := by
  have hsize : ((value.length + 1 : ℕ) : ℤ) - 1 = value.length := by push_cast; ring
  exact (reads_parseUnsignedVarint hv).bind
    (f := fun modSize : ℕ => parseNullableStringOfSize (modSize - 1)) (by
      rw [hsize]
      exact reads_parseNullableStringOfSize value)

lemma reads_parseCompactNullableString_none :
    Reads parseCompactNullableString none (Varint.encode 0) := by
  have hr : Reads parseCompactNullableString none (Varint.encode 0 ++ []) :=
    (reads_parseUnsignedVarint (n := 0) (by norm_num)).bind
      (f := fun modSize : ℕ => parseNullableStringOfSize (modSize - 1)) (by
        rw [show ((0 : ℕ) : ℤ) - 1 = -1 by norm_num]
        exact reads_parseNullableStringOfSize_none)
  rwa [List.append_nil] at hr

lemma reads_parseCompactString {value : Bytes} (hv : value.length + 1 < 2 ^ 35) :
    Reads parseCompactString value (Varint.encode (value.length + 1) ++ value) := by
  intro rest
  simp only [parseCompactString, reads_parseCompactNullableString hv rest]

lemma reads_parseUuid {value : Bytes} (hv : value.length = 16) : Reads parseUuid value value := by
  rw [parseUuid, ← hv]
  exact reads_binarySize value _

lemma reads_parseBoolean (b : Bool) : Reads parseBoolean b [if b then 1 else 0] := by
  intro rest
  cases b <;> rfl

end Strings

section Arrays

variable {α : Type} {type : Parser α}

lemma reads_parseArrayElements : ∀ {elems : List α} {bins : List Bytes} (acc : List α),
    List.Forall₂ (fun a w => Reads type a w) elems bins →
      Reads (parseArrayElements type elems.length acc) (acc ++ elems) bins.flatten
  | [], [], acc, _ => by
    rw [List.length_nil, parseArrayElements, List.append_nil, List.flatten_nil]
    exact Reads.pure acc
  | a :: elems, w :: bins, acc, .cons ha hrest => by
    rw [List.length_cons, parseArrayElements, List.flatten_cons,
      show acc ++ a :: elems = acc ++ [a] ++ elems by simp]
    exact ha.bind (reads_parseArrayElements (acc ++ [a]) hrest)

lemma reads_parseNullableArrayOfSize {elems : List α} {bins : List Bytes}
    (h : List.Forall₂ (fun a w => Reads type a w) elems bins) :
    Reads (parseNullableArrayOfSize elems.length type) (some elems) bins.flatten := by
  have hr := (reads_parseArrayElements [] h).map some
  rw [List.nil_append] at hr
  rw [parseNullableArrayOfSize, if_neg (by omega), if_neg (by omega), Int.toNat_natCast]
  exact hr

lemma reads_parseNullableArrayOfSize_none : Reads (parseNullableArrayOfSize (-1) type) none [] := by
  rw [parseNullableArrayOfSize, if_neg (by omega), if_pos rfl]
  exact Reads.pure none

lemma reads_parseArray {elems : List α} {bins : List Bytes} (hlen : elems.length < 2147483648)
    (h : List.Forall₂ (fun a w => Reads type a w) elems bins) :
    Reads (parseArray type) elems (bigSigned 4 elems.length ++ bins.flatten) := by
  have hsize := reads_parseSigned .invalidSize 4 elems.length
  rw [fromSigned_four (by omega) (by omega)] at hsize
  have hr : Reads (parseNullableArray type) (some elems) (bigSigned 4 elems.length ++ bins.flatten) :=
    hsize.bind (reads_parseNullableArrayOfSize h)
  intro rest
  simp only [parseArray, hr rest]

lemma reads_parseCompactArray {elems : List α} {bins : List Bytes}
    (hlen : elems.length + 1 < 2 ^ 35) (h : List.Forall₂ (fun a w => Reads type a w) elems bins) :
    Reads (parseCompactArray type) (some elems) (Varint.encode (elems.length + 1) ++ bins.flatten) := by
  have hsize : ((elems.length + 1 : ℕ) : ℤ) - 1 = elems.length := by push_cast; ring
  exact (reads_parseUnsignedVarint hlen).bind
    (f := fun modSize : ℕ => parseNullableArrayOfSize (modSize - 1) type) (by
      rw [hsize]
      exact reads_parseNullableArrayOfSize h)

lemma reads_parseCompactArray_none : Reads (parseCompactArray type) none (Varint.encode 0) := by
  have hr : Reads (parseCompactArray type) none (Varint.encode 0 ++ []) :=
    (reads_parseUnsignedVarint (n := 0) (by norm_num)).bind
      (f := fun modSize : ℕ => parseNullableArrayOfSize (modSize - 1) type) (by
        rw [show ((0 : ℕ) : ℤ) - 1 = -1 by norm_num]
        exact reads_parseNullableArrayOfSize_none)
  rwa [List.append_nil] at hr

end Arrays

section Fields

lemma reads_parseField {prev : ℤ} {tag : ℕ} {field : Bytes} (htag : tag < 2 ^ 35)
    (hsize : field.length < 2 ^ 35) (hlt : prev < tag) :
    Reads (parseField prev) ⟨((tag : ℤ), field), hlt⟩
      (Varint.encode tag ++ (Varint.encode field.length ++ field)) := by
  refine (reads_parseUnsignedVarint htag).bind ((reads_parseUnsignedVarint hsize).bind ?_)
  rw [dif_pos hlt]
  exact (reads_binarySize field _).map
    fun value => (⟨((tag : ℤ), value), hlt⟩ : {field : ℤ × Bytes // prev < field.1})

lemma reads_parseFields : ∀ (fields : List (ℤ × Bytes)) (prev : ℤ) (acc : TaggedFields)
    (hacc : ∀ e ∈ acc.fields, e.1 ≤ prev), fields.Pairwise (·.1 < ·.1) → (∀ e ∈ fields, prev < e.1) →
    (∀ e ∈ fields, 0 ≤ e.1 ∧ e.1 < 2 ^ 35 ∧ e.2.length < 2 ^ 35) →
    ∃ m : TaggedFields, m.fields = acc.fields ++ fields ∧
      Reads (parseFields fields.length prev acc hacc) m
        (fields.map fun e => Varint.encode e.1.toNat ++ (Varint.encode e.2.length ++ e.2)).flatten
  | [], prev, acc, hacc, _, _, _ => ⟨acc, by simp, by simpa [parseFields] using Reads.pure acc⟩
  | (tag, field) :: fields, prev, acc, hacc, hsorted, habove, hrange => by
    obtain ⟨h0, htag, hsize⟩ := hrange (tag, field) (by simp)
    obtain ⟨k, rfl⟩ := Int.eq_ofNat_of_zero_le h0
    have hprev : prev < (k : ℤ) := habove (k, field) (by simp)
    have hfield : Reads (parseField prev) ⟨((k : ℤ), field), hprev⟩
        (Varint.encode k ++ (Varint.encode field.length ++ field)) :=
      reads_parseField (by omega) hsize hprev
    obtain ⟨hhead, htail⟩ := List.pairwise_cons.mp hsorted
    have hacc' : ∀ e ∈ (acc.putLast k field fun e he => lt_of_le_of_lt (hacc e he) hprev).fields,
        e.1 ≤ k := TaggedFields.le_of_mem_putLast
    obtain ⟨m, hm, hrest⟩ := reads_parseFields fields k _ hacc' htail hhead
      (fun e he => hrange e (List.mem_cons_of_mem _ he))
    refine ⟨m, by simp [hm, TaggedFields.putLast], ?_⟩
    rw [List.length_cons, parseFields, List.map_cons, List.flatten_cons, Int.toNat_natCast]
    exact hfield.bind hrest

lemma reads_parseTaggedFields (fieldsMap : TaggedFields) (hcount : fieldsMap.fields.length < 2 ^ 35)
    (hrange : ∀ e ∈ fieldsMap.fields, 0 ≤ e.1 ∧ e.1 < 2 ^ 35 ∧ e.2.length < 2 ^ 35) :
    Reads parseTaggedFields fieldsMap (Varint.encode fieldsMap.fields.length ++
      (fieldsMap.fields.map fun e => Varint.encode e.1.toNat ++ (Varint.encode e.2.length ++ e.2)).flatten) := by
  obtain ⟨m, hm, hr⟩ := reads_parseFields fieldsMap.fields (-1) TaggedFields.empty
    (by simp [TaggedFields.empty]) fieldsMap.sorted (fun e he => by have := (hrange e he).1; omega)
    hrange
  have hmeq : m = fieldsMap := TaggedFields.ext (by simpa [TaggedFields.empty] using hm)
  subst hmeq
  exact (reads_parseUnsignedVarint hcount).bind hr

end Fields


/-! ### What the parser reads back of what the formatter writes

`ReadsBack fmt p P`: whatever bytes the formatter gives, the parser takes exactly those bytes and
reads a value with `P`. Where the formatter fails there is nothing to read back, so its own checks
(the upper bound of an integer, the `u32` of a varint, a field that is `nil`) need no hypothesis;
what it does not check (the lower bound of an integer, the size of a classic string or array, the
size of a uuid) is asked for. A layout is read field by field (`ReadsBack.cons`). -/

section ReadsBack

variable {α β : Type}

def ReadsBack (fmt : Except FormatError Bytes) (p : Parser α) (P : α → Prop) : Prop :=
  ∀ w, fmt = .ok w → ∃ a, P a ∧ Reads p a w

namespace ReadsBack

variable {fmt : Except FormatError Bytes} {p : Parser α} {P Q : α → Prop}

lemma mono (h : ReadsBack fmt p P) (hPQ : ∀ a, P a → Q a) : ReadsBack fmt p Q := by
  intro w hw
  obtain ⟨a, ha, hr⟩ := h w hw
  exact ⟨a, hPQ a ha, hr⟩

lemma pure {b : β} {Q : β → Prop} (hb : Q b) : ReadsBack (formatTypedList []) (Pure.pure b) Q := by
  intro w hw
  cases hw
  exact ⟨b, hb, Reads.pure b⟩

lemma cons {fmts : List (Except FormatError Bytes)} {f : α → Parser β} {Q : β → Prop}
    (h : ReadsBack fmt p P) (hs : ∀ a, P a → ReadsBack (formatTypedList fmts) (f a) Q) :
    ReadsBack (formatTypedList (fmt :: fmts)) (p >>= f) Q := by
  intro W hW
  obtain ⟨w, ws, hw, hws, rfl⟩ := formatTypedList_cons_eq_ok hW
  obtain ⟨a, ha, hr⟩ := h w hw
  obtain ⟨b, hb, hrs⟩ := hs a ha ws hws
  exact ⟨b, hb, hr.bind hrs⟩

lemma map (h : ReadsBack fmt p P) (g : α → β) :
    ReadsBack fmt (p >>= fun a => Pure.pure (g a)) fun b => ∃ a, P a ∧ g a = b := by
  intro w hw
  obtain ⟨a, ha, hr⟩ := h w hw
  exact ⟨g a, ⟨a, ha, rfl⟩, hr.map g⟩

end ReadsBack

lemma formatUnsignedVarint_eq_ok {value : ℤ} {w : Bytes} (h : formatUnsignedVarint value = .ok w) :
    ∃ n : ℕ, value = n ∧ n < 4294967296 ∧ w = Varint.encode n := by
  unfold formatUnsignedVarint at h
  split_ifs at h with hv
  cases h
  exact ⟨value.toNat, by omega, by omega, rfl⟩

lemma formatUnsignedVarint_zero : formatUnsignedVarint 0 = .ok (Varint.encode 0) := by
  simp [formatUnsignedVarint]

lemma formatTypedList_singleton {part : Except FormatError Bytes} {w : Bytes}
    (h : formatTypedList [part] = .ok w) : part = .ok w := by
  obtain ⟨w', rest, hw', hrest, rfl⟩ := formatTypedList_cons_eq_ok h
  cases hrest
  rw [List.append_nil]
  exact hw'

lemma formatCompactString_eq_ok {value w : Bytes} (h : formatCompactString (some value) = .ok w) :
    value.length + 1 < 4294967296 ∧ w = Varint.encode (value.length + 1) ++ value := by
  obtain ⟨v, ws, hv, hws, rfl⟩ := formatTypedList_cons_eq_ok h
  obtain ⟨n, hn, hlt, rfl⟩ := formatUnsignedVarint_eq_ok hv
  cases formatTypedList_singleton hws
  have hsize : n = value.length + 1 := by omega
  subst hsize
  exact ⟨hlt, rfl⟩

lemma formatArrayElements_eq_ok {fmt : α → Except FormatError Bytes} {p : Parser α} {l : List α}
    (h : ∀ a ∈ l, ReadsBack (fmt a) p (· = a)) {w : Bytes} (hw : formatArrayElements fmt l = .ok w) :
    ∃ bins, w = bins.flatten ∧ List.Forall₂ (fun a b => Reads p a b) l bins := by
  obtain ⟨bins, hbins, rfl⟩ := formatTypedList_eq_ok.mp hw
  rw [List.forall₂_map_left_iff] at hbins
  have hboth := (List.forall₂_and_left l bins).mpr ⟨h, hbins⟩
  refine ⟨bins, rfl, hboth.imp fun a b ⟨hr, hb⟩ => ?_⟩
  obtain ⟨a', rfl, hra⟩ := hr b hb
  exact hra

lemma formatTaggedField_eq_ok {field : ℤ × Bytes} {w : Bytes} (h : formatTaggedField field = .ok w) :
    (0 ≤ field.1 ∧ field.1 < 2 ^ 35 ∧ field.2.length < 2 ^ 35) ∧
      w = Varint.encode field.1.toNat ++ (Varint.encode field.2.length ++ field.2) := by
  obtain ⟨v, ws, hv, hws, rfl⟩ := formatTypedList_cons_eq_ok h
  obtain ⟨n, hn, hlt, rfl⟩ := formatUnsignedVarint_eq_ok hv
  obtain ⟨v', ws', hv', hws', rfl⟩ := formatTypedList_cons_eq_ok hws
  obtain ⟨n', hn', hlt', rfl⟩ := formatUnsignedVarint_eq_ok hv'
  cases formatTypedList_singleton hws'
  have hsize : n' = field.2.length := by omega
  subst hsize
  refine ⟨⟨by omega, by omega, by omega⟩, ?_⟩
  rw [hn, Int.toNat_natCast]

section Fields

variable {o : Option ℤ}

lemma readsBack_int32 (hlo : ∀ n ∈ o, -2147483648 ≤ n) :
    ReadsBack (formatInt32 o) parseInt32 fun n => some n = o := by
  intro w hw
  obtain ⟨n, rfl, hhi, rfl⟩ := formatSigned_eq_ok hw
  exact ⟨n, rfl, reads_parseInt32 (hlo n rfl) (by norm_num at hhi; exact hhi)⟩

lemma readsBack_int16 (hlo : ∀ n ∈ o, -32768 ≤ n) :
    ReadsBack (formatInt16 o) parseInt16 fun n => some n = o := by
  intro w hw
  obtain ⟨n, rfl, hhi, rfl⟩ := formatSigned_eq_ok hw
  exact ⟨n, rfl, reads_parseInt16 (hlo n rfl) (by norm_num at hhi; exact hhi)⟩

lemma readsBack_boolean (o : Option Bool) : ReadsBack (formatBoolean o) parseBoolean fun b => some b = o := by
  intro w hw
  match o, hw with
  | some false, rfl => exact ⟨false, rfl, reads_parseBoolean false⟩
  | some true, rfl => exact ⟨true, rfl, reads_parseBoolean true⟩

lemma readsBack_nullableString {o : Option Bytes} (h : ∀ s ∈ o, s.length < 32768) :
    ReadsBack (formatNullableString o) parseNullableString (· = o) := by
  intro w hw
  cases o with
  | none =>
    cases hw
    exact ⟨none, rfl, reads_parseNullableString_none⟩
  | some s =>
    cases hw
    exact ⟨some s, rfl, reads_parseNullableString (h s rfl)⟩

lemma readsBack_string {o : Option Bytes} (h : ∀ s ∈ o, s.length < 32768) :
    ReadsBack (formatString o) parseString fun s => some s = o := by
  intro w hw
  cases o with
  | none => cases hw
  | some s =>
    cases hw
    exact ⟨s, rfl, reads_parseString (h s rfl)⟩

lemma readsBack_compactString (o : Option Bytes) :
    ReadsBack (formatCompactString o) parseCompactString fun s => some s = o := by
  intro w hw
  cases o with
  | none => cases hw
  | some s =>
    obtain ⟨hlt, rfl⟩ := formatCompactString_eq_ok hw
    exact ⟨s, rfl, reads_parseCompactString (by omega)⟩

lemma readsBack_compactNullableString (o : Option Bytes) :
    ReadsBack (formatCompactNullableString o) parseCompactNullableString (· = o) := by
  intro w hw
  cases o with
  | none =>
    cases formatUnsignedVarint_zero.symm.trans hw
    exact ⟨none, rfl, reads_parseCompactNullableString_none⟩
  | some s =>
    obtain ⟨hlt, rfl⟩ := formatCompactString_eq_ok hw
    exact ⟨some s, rfl, reads_parseCompactNullableString (by omega)⟩

lemma readsBack_uuid {o : Option Bytes} (h : ∀ u ∈ o, u.length = 16) :
    ReadsBack (formatUuid o) parseUuid fun u => some u = o := by
  intro w hw
  cases o with
  | none => cases hw
  | some u =>
    cases hw
    exact ⟨_, rfl, reads_parseUuid (h _ rfl)⟩

end Fields

section Arrays

variable {fmt : α → Except FormatError Bytes} {p : Parser α} {o : Option (List α)}

lemma readsBack_array (h : ∀ l ∈ o, l.length < 2147483648 ∧ ∀ a ∈ l, ReadsBack (fmt a) p (· = a)) :
    ReadsBack (formatArray fmt o) (parseArray p) fun l => some l = o := by
  intro w hw
  cases o with
  | none => cases hw
  | some l =>
    obtain ⟨hlen, hl⟩ := h l rfl
    cases he : formatArrayElements fmt l with
    | error reason =>
      rw [formatArray, he] at hw
      cases hw
    | ok elems =>
      rw [formatArray, he] at hw
      cases hw
      obtain ⟨bins, rfl, hbins⟩ := formatArrayElements_eq_ok hl he
      exact ⟨l, rfl, reads_parseArray hlen hbins⟩

lemma readsBack_compactArray (h : ∀ l ∈ o, ∀ a ∈ l, ReadsBack (fmt a) p (· = a)) :
    ReadsBack (formatCompactArray fmt o) (parseCompactArray p) (· = o) := by
  intro w hw
  cases o with
  | none =>
    cases formatUnsignedVarint_zero.symm.trans hw
    exact ⟨none, rfl, reads_parseCompactArray_none⟩
  | some l =>
    obtain ⟨v, ws, hv, hws, rfl⟩ := formatTypedList_cons_eq_ok hw
    obtain ⟨n, hn, hlt, rfl⟩ := formatUnsignedVarint_eq_ok hv
    have hsize : n = l.length + 1 := by omega
    subst hsize
    obtain ⟨bins, rfl, hbins⟩ := formatArrayElements_eq_ok (h l rfl) (formatTypedList_singleton hws)
    exact ⟨some l, rfl, reads_parseCompactArray (by omega) hbins⟩

lemma readsBack_someArray (h : ∀ l ∈ o, l.length < 2147483648 ∧ ∀ a ∈ l, ReadsBack (fmt a) p (· = a)) :
    ReadsBack (formatArray fmt o) (do let l ← parseArray p; Pure.pure (some l)) (· = o) := by
  refine ((readsBack_array h).map some).mono ?_
  rintro _ ⟨l, hl, rfl⟩
  exact hl

end Arrays

lemma readsBack_taggedFields (o : Option TaggedFields) :
    ReadsBack (formatTaggedFields o) parseTaggedFields fun m => some m = o := by
  intro w hw
  cases o with
  | none => cases hw
  | some m =>
    obtain ⟨v, ws, hv, hws, rfl⟩ := formatTypedList_cons_eq_ok hw
    obtain ⟨n, hn, hlt, rfl⟩ := formatUnsignedVarint_eq_ok hv
    have hcount : n = m.fields.length := by omega
    subst hcount
    have hfields := formatTypedList_singleton hws
    rw [formatFields_eq] at hfields
    obtain ⟨bins, hbins, rfl⟩ := formatTypedList_eq_ok.mp hfields
    rw [List.forall₂_map_left_iff] at hbins
    -- each field is written as its tag, its size and its bytes, all in range
    have hboth : List.Forall₂ (fun e b => (0 ≤ e.1 ∧ e.1 < 2 ^ 35 ∧ e.2.length < 2 ^ 35) ∧
        (Varint.encode e.1.toNat ++ (Varint.encode e.2.length ++ e.2)) = b) m.fields bins :=
      hbins.imp fun e b he => ⟨(formatTaggedField_eq_ok he).1, (formatTaggedField_eq_ok he).2.symm⟩
    obtain ⟨hrange, heq⟩ := (List.forall₂_and_left m.fields bins).mp hboth
    rw [← List.forall₂_map_left_iff (R := (· = ·)), List.forall₂_eq_eq_eq] at heq
    subst heq
    exact ⟨m, rfl, reads_parseTaggedFields m (by omega) hrange⟩

end ReadsBack


/-! ### What the formatter does with what the parser reads

A value that the parser read is in range for every check of the formatter but one: a varint of the
compact layouts, which `parse_unsigned_varint` reads up to 35 bits and `format_unsigned_varint`
takes only under `2^32`. So the formatter writes a value back or refuses it with
`unsigned_varint_out_of_bounds` (`Reformats`). -/

section Reformats

variable {α : Type}

def Reformats (fmt : Except FormatError Bytes) : Prop :=
  fmt = .error .unsignedVarintOutOfBounds ∨ ∃ w, fmt = .ok w

lemma reformats_foldl : ∀ {list : List (Except FormatError Bytes)} (acc : Bytes),
    List.Forall Reformats list → Reformats (list.foldl appendFormatted (.ok acc))
  | [], acc, _ => .inr ⟨acc, rfl⟩
  | part :: list, acc, h => by
    rw [List.forall_cons] at h
    rcases h.1 with hp | ⟨w, hp⟩
    · -- the first error is the result
      rw [List.foldl_cons, hp]
      exact .inl (foldl_appendFormatted_error _ list)
    · rw [List.foldl_cons, hp]
      exact reformats_foldl (acc ++ w) h.2

lemma reformats_formatTypedList {list : List (Except FormatError Bytes)}
    (h : List.Forall Reformats list) : Reformats (formatTypedList list) :=
  reformats_foldl [] h

lemma reformats_ok (w : Bytes) : Reformats (.ok w) := .inr ⟨w, rfl⟩

lemma reformats_formatUnsignedVarint (value : ℤ) : Reformats (formatUnsignedVarint value) := by
  unfold formatUnsignedVarint
  split_ifs
  · exact reformats_ok _
  · exact .inl rfl

lemma reformats_int32 {n : ℤ} (h : n < 2147483648) : Reformats (formatInt32 (some n)) :=
  .inr ⟨_, formatSigned_of_lt (by norm_num; exact h)⟩

lemma reformats_int16 {n : ℤ} (h : n < 32768) : Reformats (formatInt16 (some n)) :=
  .inr ⟨_, formatSigned_of_lt (by norm_num; exact h)⟩

lemma reformats_boolean (b : Bool) : Reformats (formatBoolean (some b)) := by
  cases b
  · exact reformats_ok _
  · exact reformats_ok _

lemma reformats_string (value : Bytes) : Reformats (formatString (some value)) := reformats_ok _

lemma reformats_nullableString (value : Option Bytes) : Reformats (formatNullableString value) := by
  cases value
  · exact reformats_ok _
  · exact reformats_ok _

lemma reformats_compactString (value : Bytes) : Reformats (formatCompactString (some value)) :=
  reformats_formatTypedList ⟨reformats_formatUnsignedVarint _, reformats_ok _⟩

lemma reformats_compactNullableString (value : Option Bytes) :
    Reformats (formatCompactNullableString value) := by
  cases value
  · exact reformats_formatUnsignedVarint _
  · exact reformats_compactString _

lemma reformats_uuid (value : Bytes) : Reformats (formatUuid (some value)) := reformats_ok _

lemma reformats_taggedFields (fieldsMap : TaggedFields) :
    Reformats (formatTaggedFields (some fieldsMap)) := by
  refine reformats_formatTypedList ⟨reformats_formatUnsignedVarint _, ?_⟩
  rw [formatFields_eq]
  refine reformats_formatTypedList (List.forall_iff_forall_mem.mpr fun part hpart => ?_)
  obtain ⟨field, -, rfl⟩ := List.mem_map.mp hpart
  exact reformats_formatTypedList
    ⟨reformats_formatUnsignedVarint _, reformats_formatUnsignedVarint _, reformats_ok _⟩

lemma reformats_formatArrayElements {fmt : α → Except FormatError Bytes} {array : List α}
    (h : ∀ a ∈ array, Reformats (fmt a)) : Reformats (formatArrayElements fmt array) := by
  refine reformats_formatTypedList (List.forall_iff_forall_mem.mpr fun part hpart => ?_)
  obtain ⟨a, ha, rfl⟩ := List.mem_map.mp hpart
  exact h a ha

lemma reformats_array {fmt : α → Except FormatError Bytes} {array : List α}
    (h : ∀ a ∈ array, Reformats (fmt a)) : Reformats (formatArray fmt (some array)) := by
  rcases reformats_formatArrayElements h with he | ⟨w, he⟩
  · exact .inl (by rw [formatArray, he]; rfl)
  · exact .inr ⟨_, by rw [formatArray, he]; rfl⟩

lemma reformats_compactArray {fmt : α → Except FormatError Bytes} {array : Option (List α)}
    (h : ∀ l ∈ array, ∀ a ∈ l, Reformats (fmt a)) : Reformats (formatCompactArray fmt array) := by
  cases array with
  | none => exact reformats_formatUnsignedVarint _
  | some l =>
    exact reformats_formatTypedList
      ⟨reformats_formatUnsignedVarint _, reformats_formatArrayElements (h l rfl)⟩

end Reformats

/-! What the parser's values are: every integer in the range of its type, every classic string and
array shorter than its size can count, every uuid of 16 bytes. -/

section Ranges

variable {α : Type}

lemma fromSigned_lt {bytes number : ℕ} (hb : 0 < bytes) (hn : number < 256 ^ bytes) :
    fromSigned bytes number < 2 ^ (8 * bytes - 1) := by
  have hN : (256 : ℕ) ^ bytes = 2 * 2 ^ (8 * bytes - 1) := by
    rw [show (256 : ℕ) = 2 ^ 8 by norm_num, ← pow_mul, ← pow_succ']
    congr 1
    omega
  unfold fromSigned
  split_ifs with hlt
  · exact_mod_cast hlt
  · have hc1 : ((2 ^ (8 * bytes - 1) : ℕ) : ℤ) = 2 ^ (8 * bytes - 1) := by norm_num
    have hc2 : ((2 ^ (8 * bytes) : ℕ) : ℤ) = 2 ^ (8 * bytes) := by norm_num
    have hc3 : (2 : ℤ) ^ (8 * bytes) = 2 * 2 ^ (8 * bytes - 1) := by
      rw [← pow_succ']
      congr 1
      omega
    omega

lemma ensures_binarySize (size : ℕ) (error : ParseError) :
    Ensures (binarySize size error) fun w => w.length = size := by
  intro data w rest h
  unfold binarySize at h
  split_ifs at h with hsize
  cases h
  simp only [List.length_take]
  omega

lemma ensures_parseSigned (short : ParseError) (bytes : ℕ) (hb : 0 < bytes) :
    Ensures (parseSigned short bytes)
      fun n => -2 ^ (8 * bytes - 1) ≤ n ∧ n < 2 ^ (8 * bytes - 1) :=
  Ensures.bind_of (ensures_binarySize bytes short) fun bin hbin =>
    Ensures.pure ⟨neg_le_fromSigned hb _, fromSigned_lt hb (hbin ▸ BigEndian.decode_lt bin)⟩

lemma ensures_parseInt32 : Ensures parseInt32 fun n => -2147483648 ≤ n ∧ n < 2147483648 :=
  fun _ _ _ h => by simpa using ensures_parseSigned _ 4 (by norm_num) h

lemma ensures_parseInt16 : Ensures parseInt16 fun n => -32768 ≤ n ∧ n < 32768 :=
  fun _ _ _ h => by simpa using ensures_parseSigned _ 2 (by norm_num) h

lemma ensures_parseNullableStringOfSize {size : ℤ} (hsize : size < 32768) :
    Ensures (parseNullableStringOfSize size) fun value => ∀ s ∈ value, s.length < 32768 := by
  unfold parseNullableStringOfSize
  split_ifs with hnil hpos
  · exact Ensures.pure (by simp)
  · exact Ensures.bind_of (ensures_binarySize _ _) fun s hs => Ensures.pure (by simp; omega)
  · exact Ensures.fail _

lemma ensures_parseNullableString :
    Ensures parseNullableString fun value => ∀ s ∈ value, s.length < 32768 :=
  Ensures.bind_of (ensures_parseSigned _ 2 (by norm_num)) fun _ hsize =>
    ensures_parseNullableStringOfSize (by norm_num at hsize; exact hsize.2)

lemma ensures_parseString : Ensures parseString fun s => s.length < 32768 := by
  intro data s rest h
  unfold parseString at h
  split at h
  · cases h
    exact ensures_parseNullableString ‹_› s rfl
  · cases h
  · cases h

lemma ensures_parseUuid : Ensures parseUuid fun u => u.length = 16 := ensures_binarySize _ _

variable {type : Parser α} {P : α → Prop}

lemma ensures_parseArrayElements (htype : Ensures type P) :
    ∀ (size : ℕ) (acc : List α), (∀ a ∈ acc, P a) →
      Ensures (parseArrayElements type size acc) fun l => l.length = acc.length + size ∧ ∀ a ∈ l, P a
  | 0, acc, hacc => Ensures.pure ⟨rfl, hacc⟩
  | size + 1, acc, hacc =>
    Ensures.bind_of htype fun a ha => by
      intro data l rest h
      obtain ⟨hlen, hl⟩ := ensures_parseArrayElements htype size (acc ++ [a])
        (fun b hb => (List.mem_append.mp hb).elim (hacc b) fun hb => by
          rw [List.mem_singleton] at hb
          exact hb ▸ ha) h
      exact ⟨by simp at hlen; omega, hl⟩

lemma ensures_parseNullableArrayOfSize (htype : Ensures type P) (size : ℤ) :
    Ensures (parseNullableArrayOfSize size type)
      fun array => ∀ l ∈ array, (l.length : ℤ) = size ∧ ∀ a ∈ l, P a := by
  unfold parseNullableArrayOfSize
  split_ifs with hneg hnil
  · exact Ensures.fail _
  · exact Ensures.pure (by simp)
  · refine Ensures.bind_of (ensures_parseArrayElements htype size.toNat [] (by simp)) fun l hl => ?_
    refine Ensures.pure ?_
    rintro l' hl'
    cases hl'
    exact ⟨by simp at hl; omega, hl.2⟩

lemma ensures_parseArray (htype : Ensures type P) :
    Ensures (parseArray type) fun l => l.length < 2147483648 ∧ ∀ a ∈ l, P a := by
  have hnullable : Ensures (parseNullableArray type)
      fun array => ∀ l ∈ array, l.length < 2147483648 ∧ ∀ a ∈ l, P a :=
    Ensures.bind_of (ensures_parseSigned _ 4 (by norm_num)) fun size hsize => by
      intro data array rest h l hl
      obtain ⟨hlen, hall⟩ := ensures_parseNullableArrayOfSize htype size h l hl
      norm_num at hsize
      exact ⟨by omega, hall⟩
  intro data l rest h
  unfold parseArray at h
  split at h
  · cases h
    exact hnullable ‹_› l rfl
  all_goals cases h

lemma ensures_parseCompactArray (htype : Ensures type P) :
    Ensures (parseCompactArray type) fun array => ∀ l ∈ array, ∀ a ∈ l, P a :=
  Ensures.bind fun _ _ _ _ h l hl =>
    (ensures_parseNullableArrayOfSize htype _ h l hl).2

end Ranges

end Ockam.Elixir.Kafka
