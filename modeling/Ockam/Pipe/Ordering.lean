import Ockam.Lib.AssocMap
import Ockam.Lib.StateMonad

/-! `ReceiverOrdering` in its two copies, `pipe/behavior/ordering.rs` and
`system/hooks/ordering.rs`: a journal of early messages and the index last forwarded, with the
shared `compare_index`, `enqueue`, `forward` and `process_journal`. The copies differ in how a
message is taken apart; what the context forwards is kept in `forwarded`. -/

namespace Ockam.Ordering

inductive IndexState where
  | low
  | high
  | next
  deriving DecidableEq, Repr

/-- `PipeModifier` (`pipe/behavior/mod.rs`). -/
inductive PipeModifier where
  | none
  | drop
  deriving DecidableEq, Repr

structure ReceiverOrdering (M : Type) where
  journal : AssocMap ℕ M
  current : ℕ

/-- The hook with what its context has forwarded. -/
structure Receiver (M L : Type) where
  hook : ReceiverOrdering M
  forwarded : List L

variable {ε M L : Type}

def ReceiverOrdering.new : ReceiverOrdering M := ⟨.empty, 0⟩

def Receiver.new : Receiver M L := ⟨.new, []⟩

def compareIndex (current index : ℕ) : IndexState :=
  let next := current + 1
  if index > next then .high
  else if index < next then .low
  else .next

/-- `process_journal`: the counter is advanced before the journal is read, and every entry found
is removed; an entry that fails to unpack ends the walk with the counter and the journal as they
are then. Each round removes a bound key, so the walk ends. -/
def processJournal (unpack : M → Except ε L) (sendStack : List L) (curr : ℕ) (j : AssocMap ℕ M) :
    Except ε (List L) × ℕ × AssocMap ℕ M :=
  let curr := curr + 1
  match _hfind : j.find? curr with
  | some msg =>
    match unpack msg with
    | .ok unpacked => processJournal unpack (sendStack ++ [unpacked]) curr (j.erase curr)
    | .error e => (.error e, curr, j.erase curr)
  | none => (.ok sendStack, curr, j)
termination_by j.entries.length
decreasing_by exact AssocMap.length_erase_lt ‹_›

abbrev HookM (ε M L : Type) := EStateM ε (Receiver M L)

def enqueue (index : ℕ) (msg : M) : HookM ε M L Unit :=
  modify fun r => { r with hook := { r.hook with journal := r.hook.journal.insert index msg } }

def send (msgs : List L) : HookM ε M L Unit :=
  modify fun r => { r with forwarded := r.forwarded ++ msgs }

/-- `forward`: the message at hand first, then what `process_journal` collected; the counter and
the journal it leaves are kept even when it fails. -/
def forward (unpack : M → Except ε L) (msg : M) : HookM ε M L Unit := do
  let curr ← EStateM.ofExcept (unpack msg)
  send [curr]
  let r ← get
  let (sendStack, current, journal) := processJournal unpack [] r.hook.current r.hook.journal
  modify fun r => { r with hook := ⟨journal, current⟩ }
  let sendStack ← EStateM.ofExcept sendStack
  send sendStack

/-- What both copies do with a message and its index once they have taken it apart. -/
def onIndex (unpack : M → Except ε L) (index : ℕ) (msg : M) : HookM ε M L Unit := do
  match compareIndex (← get).hook.current index with
  | .low => pure ()
  | .high => enqueue index msg
  | .next => forward unpack msg

/-- `on_external` of `pipe::behavior::ordering`: the message is always dropped from the pipe. -/
def onExternal (unpack : M → Except ε L) (index : ℕ) (msg : M) : HookM ε M L PipeModifier := do
  onIndex unpack index msg
  pure .drop

/-- `handle_message` of `system::hooks::ordering`: the index read from the scope and the peeled
body come first, then the peeled message itself is journaled or sent. -/
def handleMessage (index : Except ε ℕ) (inner : Except ε M) : HookM ε M M Unit := do
  let index ← EStateM.ofExcept index
  let inner ← EStateM.ofExcept inner
  onIndex .ok index inner

/-- The hook over a run of arrivals, each with its index; an error is returned to the pipe
receiver and the next message is handled. -/
def run (unpack : M → Except ε L) (arrivals : List (ℕ × M)) (r : Receiver M L) : Receiver M L :=
  arrivals.foldl (fun r a => (onIndex unpack a.1 a.2 r).state) r

@[simp] lemma run_nil (unpack : M → Except ε L) (r : Receiver M L) : run unpack [] r = r := rfl

@[simp] lemma run_cons (unpack : M → Except ε L) (a : ℕ × M) (arrivals : List (ℕ × M))
    (r : Receiver M L) :
    run unpack (a :: arrivals) r = run unpack arrivals (onIndex unpack a.1 a.2 r).state := rfl

end Ockam.Ordering
