import Ockam.Node.InternalMap
import Ockam.Lib.StateMonad

/-! The router loop (`router/mod.rs`) and its commands (`start_worker.rs`, `start_processor.rs`,
`stop_worker.rs`, `stop_processor.rs`, `shutdown.rs`, `utils.rs`). Every reply sent is kept, in
order, with the channel it went to (`R`); `abortScheduled` records that `graceful` spawned the
task that sends `AbortNode` after the timeout. Every address is local: the external routers of
other transport types are left out, as are `SetReady` and `CheckReady`. -/

namespace Ockam.Node

inductive NodeState (R : Type) where
  | running
  | stopping (reply : R)
  | dead
  deriving DecidableEq

inductive ShutdownType where
  | graceful (timeout : UInt8)
  | immediate

inductive RouterReply (A S : Type) where
  | ok
  /-- `Err(NodeError::Address(addr).already_exists())` -/
  | alreadyExists (addr : A)
  /-- `Err(NodeError::Address(addr).not_found())` -/
  | notFound (addr : A)
  | nodeRejected
  | noSuchAddress (addr : A)
  | sender (addr : A) (sender : S)
  | workerRejected
  | workers (addrs : List A)
  deriving DecidableEq

inductive NodeMessage (A S R : Type) where
  | startWorker (addrs : List A) (senders : S) (detached : Bool) (reply : R)
  | stopWorker (addr : A) (detached : Bool) (reply : R)
  | startProcessor (addr : A) (senders : S) (reply : R)
  | stopProcessor (addr : A) (reply : R)
  | stopNode (shutdownType : ShutdownType) (reply : R)
  | abortNode
  | stopAck (addr : A)
  | listWorkers (reply : R)
  | setCluster (addr : A) (label : String) (reply : R)
  | senderReq (addr : A) (reply : R)

/-- The errors `handle_msg` returns; the loop logs them and goes on. -/
inductive RouterError (A : Type) where
  | alreadyExists (addr : A)
  | emptyAddressSet
  | panic (msg : String)

structure Router (A F S R : Type) where
  nodeState : NodeState R
  map : InternalMap A F S
  sent : List (R × RouterReply A S)
  abortScheduled : Bool
  receiverOpen : Bool

namespace Router

def stopReply {A F S R : Type} (rt : Router A F S R) : Option R :=
  match rt.nodeState with
  | .stopping sender => some sender
  | _ => none

def running {A F S R : Type} (rt : Router A F S R) : Bool :=
  match rt.nodeState with
  | .running => true
  | _ => false

variable {A F S R : Type} [DecidableEq A] [DecidableEq F]

abbrev M (A F S R : Type) := EStateM (RouterError A) (Router A F S R)

def new (flowControls : Ockam.FlowControl.FlowControls A F) : Router A F S R :=
  ⟨.running, .new flowControls, [], false, true⟩

/-- `init`: the record of the application's own context, detached. -/
def init (rt : Router A F S R) (addr : A) (senders : S) : Router A F S R :=
  { rt with map := ((rt.map.insertAddressRecord addr
      (.new [addr] senders ⟨false, true⟩)).insertAlias addr addr) }

def send (reply : R) (msg : RouterReply A S) : M A F S R Unit :=
  modify fun rt => { rt with sent := rt.sent ++ [(reply, msg)] }

def modifyMap (f : InternalMap A F S → InternalMap A F S) : M A F S R Unit :=
  modify fun rt => { rt with map := f rt.map }

/-- `check_addr_not_exist`: only the record map is looked at. -/
def checkAddrNotExist (addr : A) (reply : R) : M A F S R Unit := do
  if (← get).map.addressRecordsMap.contains addr then
    send reply (.alreadyExists addr)
    throw (.alreadyExists addr)

section Lemmas

variable (rt : Router A F S R)

omit [DecidableEq A] [DecidableEq F] in
@[simp] lemma send_apply (reply : R) (msg : RouterReply A S) :
    send reply msg rt = .ok () { rt with sent := rt.sent ++ [(reply, msg)] } := rfl

omit [DecidableEq A] [DecidableEq F] in
@[simp] lemma modifyMap_apply (f : InternalMap A F S → InternalMap A F S) :
    modifyMap f rt = .ok () { rt with map := f rt.map } := rfl

omit [DecidableEq A] [DecidableEq F] in
lemma forM_modifyMap {α : Type} (f : α → InternalMap A F S → InternalMap A F S) :
    ∀ (xs : List α) (rt : Router A F S R),
      (xs.forM fun a => modifyMap (f a)) rt = .ok () { rt with map := xs.foldl (fun m a => f a m) rt.map }
  | [], _ => rfl
  | x :: xs, rt => by
    show (modifyMap (f x) >>= fun _ => xs.forM fun a => modifyMap (f a)) rt = _
    rw [EStateM.bind_apply, modifyMap_apply]
    exact forM_modifyMap f xs _

omit [DecidableEq F] in
lemma checkAddrNotExist_of_none {addr : A} (reply : R) (h : rt.map.getAddressRecord addr = none) :
    checkAddrNotExist addr reply rt = .ok () rt := by
  have hc : rt.map.addressRecordsMap.contains addr = false := by
    simpa [AssocMap.contains, InternalMap.getAddressRecord] using h
  simp [checkAddrNotExist, hc]

end Lemmas

end Router

namespace StartWorker

variable {A F S R : Type} [DecidableEq A] [DecidableEq F]

open Router

/-- `start`: the primary address is checked, not the others, before every address of the set is
made an alias of it. -/
def start (addrs : List A) (senders : S) (detached : Bool) (reply : R) : M A F S R Unit := do
  let some primaryAddr := addrs.head? | throw .emptyAddressSet
  checkAddrNotExist primaryAddr reply
  let addressRecord := AddressRecord.new addrs senders ⟨false, detached⟩
  modifyMap (·.insertAddressRecord primaryAddr addressRecord)
  addrs.forM fun addr => modifyMap (·.insertAlias addr primaryAddr)
  send reply .ok

def exec (addrs : List A) (senders : S) (detached : Bool) (reply : R) : M A F S R Unit := do
  match (← get).nodeState with
  | .running => start addrs senders detached reply
  | .stopping _ => send reply .nodeRejected
  | .dead => throw (.panic "unreachable")

end StartWorker

namespace StartProcessor

variable {A F S R : Type} [DecidableEq A] [DecidableEq F]

open Router

def start (addr : A) (senders : S) (reply : R) : M A F S R Unit := do
  checkAddrNotExist addr reply
  let record := AddressRecord.new [addr] senders ⟨true, false⟩
  modifyMap (·.insertAddressRecord addr record)
  modifyMap (·.insertAlias addr addr)
  send reply .ok

def exec (addr : A) (senders : S) (reply : R) : M A F S R Unit := do
  match (← get).nodeState with
  | .running => start addr senders reply
  | .stopping _ => send reply .nodeRejected
  | .dead => throw (.panic "unreachable")

end StartProcessor

namespace StopWorker

variable {A F S R : Type} [DecidableEq A] [DecidableEq F]

open Router

/-- `exec`: a worker with a relay loses its sender and stops itself; a detached one is freed
at once. -/
def exec (addr : A) (detached : Bool) (reply : R) : M A F S R Unit := do
  match (← get).map.getPrimaryAddress addr with
  | none => send reply (.noSuchAddress addr)
  | some primaryAddress =>
    match (← get).map.getAddressRecord primaryAddress with
    | none => send reply (.noSuchAddress addr)
    | some _ =>
      send reply .ok
      if !detached then modifyMap (·.modifyRecord primaryAddress AddressRecord.dropSender)
      else modifyMap (·.freeAddress primaryAddress)

end StopWorker

namespace StopProcessor

variable {A F S R : Type} [DecidableEq A] [DecidableEq F]

open Router

/-- `exec`: the record goes first, then the alias of the main address only. -/
def exec (mainAddr : A) (reply : R) : M A F S R Unit := do
  let (m, record) := (← get).map.removeAddressRecord mainAddr
  modifyMap fun _ => m
  match record with
  | none => send reply (.noSuchAddress mainAddr)
  | some _ =>
    modifyMap (·.removeAlias mainAddr)
    send reply .ok

end StopProcessor

namespace Utils

variable {A F S R : Type} [DecidableEq A] [DecidableEq F]

open Router

/-- `resolve`: the alias gives the primary address, whose record gives the sender. -/
def resolve (addr : A) (reply : R) : M A F S R Unit := do
  match (← get).map.getPrimaryAddress addr with
  | none => send reply (.noSuchAddress addr)
  | some primaryAddress =>
    match (← get).map.getAddressRecord primaryAddress with
    | some record =>
      if record.check then
        match record.sender with
        | some sender => send reply (.sender addr sender)
        | none => throw (.panic "No such sender!")
      else send reply .workerRejected
    | none => send reply (.noSuchAddress addr)

end Utils

namespace Shutdown

variable {A F S R : Type} [DecidableEq A] [DecidableEq F]

open Router

/-- The loop of `stop_next_cluster`: each record is stopped, then its first address is kept. -/
def stopClusterRecords : List A → M A F S R (List A)
  | [] => pure []
  | primary :: rest => do
    modifyMap (·.modifyRecord primary AddressRecord.stop)
    let first := ((← get).map.getAddressRecord primary).bind (·.addressSet.head?)
    let addrs ← stopClusterRecords rest
    pure (first.toList ++ addrs)

/-- The loop of `graceful`: a record with a first address is stopped and the address kept. -/
def stopNonClusterRecords : List A → M A F S R (List A)
  | [] => pure []
  | primary :: rest => do
    match ((← get).map.getAddressRecord primary).bind (·.addressSet.head?) with
    | some firstAddress =>
      modifyMap (·.modifyRecord primary AddressRecord.stop)
      let addrs ← stopNonClusterRecords rest
      pure (firstAddress :: addrs)
    | none => stopNonClusterRecords rest

def stopNextCluster : M A F S R Bool := do
  let (m, next) := (← get).map.nextCluster
  modifyMap fun _ => m
  match next with
  | some primaries =>
    let addrs ← stopClusterRecords primaries
    addrs.forM fun addr => modifyMap (·.initStop addr)
    pure false
  | none => pure true

/-- `ack`: free the address; once nothing is awaited, stop the next cluster. -/
def ack (addr : A) : M A F S R Bool := do
  modifyMap (·.freeAddress addr)
  if !(← get).map.clusterDone then return false
  stopNextCluster

/-- `graceful`: stop the workers outside every cluster and schedule the abort, or, with none,
go to the next cluster. -/
def graceful (_seconds : UInt8) (reply : R) : M A F S R Bool := do
  modify fun rt => { rt with nodeState := .stopping reply }
  let cluster ← stopNonClusterRecords (← get).map.nonClusterWorkers
  if cluster.isEmpty then return ← stopNextCluster
  cluster.forM fun addr => modifyMap (·.initStop addr)
  modify fun rt => { rt with abortScheduled := true }
  pure false

def immediate (reply : R) : M A F S R Unit := do
  modifyMap (·.clearAddressRecordsMap)
  modify fun rt => { rt with nodeState := .dead }
  send reply .ok

end Shutdown

namespace Router

variable {A F S R : Type} [DecidableEq A] [DecidableEq F]

/-- Send the stop reply, if the router is stopping, and report that it is done. -/
def finish : M A F S R Bool := do
  match (← get).stopReply with
  | some sender =>
    send sender .ok
    pure true
  | none => pure false

/-- `handle_msg`: `true` when the loop is to stop. -/
def handleMsg : NodeMessage A S R → M A F S R Bool
  | .startWorker addrs senders detached reply => do
    StartWorker.exec addrs senders detached reply
    pure false
  | .stopWorker addr detached reply => do
    StopWorker.exec addr detached reply
    pure false
  | .startProcessor addr senders reply => do
    StartProcessor.exec addr senders reply
    pure false
  | .stopProcessor addr reply => do
    StopProcessor.exec addr reply
    pure false
  | .stopNode (.graceful timeout) reply => do
    if ← Shutdown.graceful timeout reply then finish else pure false
  | .stopNode .immediate reply => do
    Shutdown.immediate reply
    pure true
  | .abortNode => do
    match (← get).stopReply with
    | some sender =>
      send sender .ok
      modifyMap (·.clearAddressRecordsMap)
      pure true
    | none => pure false
  | .stopAck addr => do
    if (← get).running then
      modifyMap (·.freeAddress addr)
      pure false
    else if ← Shutdown.ack addr then finish
    else pure false
  | .listWorkers reply => do
    send reply (.workers ((← get).map.addressRecordsMap.entries.map Prod.fst))
    pure false
  | .setCluster addr label reply => do
    match (← get).map.setCluster label addr with
    | .ok m =>
      modifyMap fun _ => m
      send reply .ok
    | .error primary => send reply (.notFound primary)
    pure false
  | .senderReq addr reply => do
    Utils.resolve addr reply
    pure false

/-- One turn of `run_inner`: a message is handled while the receiver is open; an error is logged
and the loop goes on; `true` drops the receiver. -/
def step (rt : Router A F S R) (msg : NodeMessage A S R) : Router A F S R :=
  if rt.receiverOpen then
    match handleMsg msg rt with
    | .ok true rt' => { rt' with receiverOpen := false }
    | .ok false rt' => rt'
    | .error _ rt' => rt'
  else rt

def run (msgs : List (NodeMessage A S R)) (rt : Router A F S R) : Router A F S R :=
  msgs.foldl step rt

lemma step_of_open {rt : Router A F S R} (h : rt.receiverOpen = true) (msg : NodeMessage A S R) :
    rt.step msg = match handleMsg msg rt with
      | .ok true rt' => { rt' with receiverOpen := false }
      | .ok false rt' => rt'
      | .error _ rt' => rt' := by
  simp [step, h]

end Router

end Ockam.Node
