import Ockam.MultiAddr.Iter

/-! `MultiAddr` (`lib.rs`): a buffer `dat` and the offset `off` of its first component. -/

namespace Ockam.Multiaddr

variable (V : Varints)

structure MultiAddr where
  dat : Bytes
  off : ℕ
  deriving DecidableEq, Repr

namespace MultiAddr

def default : MultiAddr := ⟨[], 0⟩

def asRef (m : MultiAddr) : Bytes := m.dat.drop m.off

def len (m : MultiAddr) : ℕ := m.asRef.length

/-- `iter()`, run to its end. -/
def iter (m : MultiAddr) : Except Fault (List ProtoValue) :=
  (validItems V m.asRef).map (List.map fun (_, c, p) => (c, p))

def pushBack (p : Value) (m : MultiAddr) : Except Error MultiAddr :=
  if p.code ∈ registeredCodes then .ok { m with dat := m.dat ++ p.writeBytes V }
  else .error (.unregistered p.code)

def pushBackValue (p : ProtoValue) (m : MultiAddr) : Except Fault MultiAddr :=
  if p.1 ∈ registeredCodes then do
    let bytes ← codecWriteBytes V p
    pure { m with dat := m.dat ++ bytes }
  else .error (.error (.unregistered p.1))

/-- `push_front`: the new component goes before the whole buffer, the offset stays. -/
def pushFront (p : Value) (m : MultiAddr) : Except Error MultiAddr :=
  if p.code ∈ registeredCodes then .ok { m with dat := p.writeBytes V ++ m.dat }
  else .error (.unregistered p.code)

def pushFrontValue (p : ProtoValue) (m : MultiAddr) : Except Fault MultiAddr :=
  if p.1 ∈ registeredCodes then do
    let bytes ← codecWriteBytes V p
    pure { m with dat := bytes ++ m.dat }
  else .error (.error (.unregistered p.1))

/-- `pop_front`: move the offset past the first component and return it. -/
def popFront (m : MultiAddr) : Except Fault (Option ProtoValue × MultiAddr) :=
  match (BytesIter.withRegistry (m.dat.drop m.off)).next V with
  | (none, _) => .ok (none, m)
  | (some (.error _), _) => .error .panic
  | (some (.ok (_, c, p)), it) =>
    let off := m.off + it.offset
    .ok (some (c, (m.dat.take off).drop (off - p.length)), { m with off })

/-- `pop_back`: split the last value off the buffer, then cut the buffer where its component
starts. -/
def popBack (m : MultiAddr) : Except Fault (Option ProtoValue × MultiAddr) := do
  let items ← validItems V (m.dat.drop m.off)
  match items.getLast? with
  | none => pure (none, m)
  | some (o, c, p) =>
    let at_ := m.off + m.len - p.length
    pure (some (c, m.dat.drop at_), { m with dat := (m.dat.take at_).take (m.off + o) })

def dropFirst (m : MultiAddr) : Except Fault MultiAddr :=
  match (BytesIter.withRegistry m.asRef).next V with
  | (none, _) => .ok m
  | (some (.error _), _) => .error .panic
  | (some (.ok _), it) => .ok { m with off := m.off + it.offset }

def dropLast (m : MultiAddr) : Except Fault MultiAddr := do
  let items ← validItems V m.asRef
  match items.getLast? with
  | none => pure m
  | some (o, _, _) => pure { m with dat := m.dat.take (m.off + o) }

/-- `clone` leaves out the prefix before the offset. -/
def clone (m : MultiAddr) : MultiAddr :=
  if 0 < m.off then ⟨m.dat.drop m.off, 0⟩ else m

/-- `try_extend` and `concat_mut`: `push_back_value` of each component in turn. -/
def tryExtend (m : MultiAddr) (ps : List ProtoValue) : Except Fault MultiAddr :=
  ps.foldlM (fun m p => pushBackValue V p m) m

def concatMut (m other : MultiAddr) : Except Fault MultiAddr := do
  tryExtend V m (← other.iter V)

/-- The check `try_from_bytes` makes of each item of the iterator: no error, a code of the
registry, and a value that `is_valid_bytes` accepts. -/
def checkItem (item : Except Error (ℕ × Code × Bytes)) : Except Error Unit := do
  let (_, code, value) ← item
  if code ∉ registeredCodes then throw (.unregistered code)
  if !isValidBytes code value then throw (.invalidProto code)

/-- `try_from_bytes`: every item must pass `checkItem`; the buffer is then the input itself. -/
def tryFromBytes (input : Bytes) : Except Error MultiAddr := do
  ((BytesIter.withRegistry input).items V (input.length + 1)).forM checkItem
  pure ⟨input, 0⟩

end MultiAddr

end Ockam.Multiaddr
