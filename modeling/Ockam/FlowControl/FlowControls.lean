import Ockam.Lib.AssocMap

/-! `FlowControls` (`flow_controls.rs`, `flow_controls_api.rs`, `flow_controls_cleanup.rs`): the
consumers of each flow control id, the producers and spawners of each address, and the cleanup of
an address. A run is followed by two ghost quantities: the consumers and the addresses added and
not cleaned up since. -/

namespace Ockam.FlowControl

structure ProducerInfo (F : Type) where
  flowControlId : F
  spawnerFlowControlId : Option F
  deriving DecidableEq

structure FlowControls (A F : Type) where
  consumers : AssocMap F (Finset A)
  producers : AssocMap A (ProducerInfo F)
  producersAdditionalAddresses : AssocMap A A
  spawners : AssocMap A F

namespace FlowControls

variable {A F : Type} [DecidableEq A] [DecidableEq F]

def new : FlowControls A F := ⟨.empty, .empty, .empty, .empty⟩

def addConsumer (s : FlowControls A F) (address : A) (flowControlId : F) : FlowControls A F :=
  let consumers := (s.consumers.find? flowControlId).getD ∅
  { s with consumers := s.consumers.insert flowControlId (insert address consumers) }

def addProducer (s : FlowControls A F) (address : A) (flowControlId : F)
    (spawnerFlowControlId : Option F) (additionalAddresses : List A) : FlowControls A F :=
  { s with
    producers := s.producers.insert address ⟨flowControlId, spawnerFlowControlId⟩
    producersAdditionalAddresses := additionalAddresses.foldl (fun m a => m.insert a address)
      (s.producersAdditionalAddresses.insert address address) }

def addSpawner (s : FlowControls A F) (address : A) (flowControlId : F) : FlowControls A F :=
  { s with spawners := s.spawners.insert address flowControlId }

def getConsumersInfo (s : FlowControls A F) (flowControlId : F) : Finset A :=
  (s.consumers.find? flowControlId).getD ∅

/-- `cleanup_producers_spawner`: drop the consumers of a spawner id once no spawner holds it and
no producer was spawned with it. -/
def cleanupProducersSpawner (s : FlowControls A F) (flowControlId : F) : FlowControls A F :=
  if s.spawners.any (fun _ f => f = flowControlId) then s
  else if s.producers.any (fun _ info => info.spawnerFlowControlId = some flowControlId) then s
  else { s with consumers := s.consumers.erase flowControlId }

/-- `cleanup_spawner`: remove the spawner, then make the checks of `cleanup_producers_spawner`
on its id. -/
def cleanupSpawner (s : FlowControls A F) (address : A) : FlowControls A F :=
  match s.spawners.find? address with
  | none => s
  | some id => cleanupProducersSpawner { s with spawners := s.spawners.erase address } id

/-- The first part of `cleanup_producer`: the producer and the additional addresses that point
to it. -/
def removeProducer (s : FlowControls A F) (address : A) : FlowControls A F :=
  { s with
    producers := s.producers.erase address
    producersAdditionalAddresses := s.producersAdditionalAddresses.retain fun _ main => main ≠ address }

/-- The last part of `cleanup_producer`: drop the consumers of the producer's own id once no
other producer has it. -/
def cleanupProducerId (s : FlowControls A F) (flowControlId : F) : FlowControls A F :=
  if s.producers.any (fun _ i => i.flowControlId = flowControlId) then s
  else { s with consumers := s.consumers.erase flowControlId }

/-- `cleanup_producer`: remove it, clean its spawner's id, then its own id. -/
def cleanupProducer (s : FlowControls A F) (address : A) : FlowControls A F :=
  match s.producers.find? address with
  | none => s
  | some info =>
    let s := removeProducer s address
    let s := match info.spawnerFlowControlId with
      | some id => cleanupProducersSpawner s id
      | none => s
    cleanupProducerId s info.flowControlId

/-- One pass of `cleanup_consumer`: remove the address from every set, then the empty sets. -/
def removeConsumer (consumers : AssocMap F (Finset A)) (address : A) : AssocMap F (Finset A) :=
  (consumers.mapVals fun _ c => c.erase address).retain fun _ c => c ≠ ∅

/-- `cleanup_consumer` makes its pass twice. -/
def cleanupConsumer (s : FlowControls A F) (address : A) : FlowControls A F :=
  { s with consumers := removeConsumer (removeConsumer s.consumers address) address }

def cleanupAddress (s : FlowControls A F) (address : A) : FlowControls A F :=
  cleanupConsumer (cleanupProducer (cleanupSpawner s address) address) address

end FlowControls

inductive Op (A F : Type) where
  | addConsumer (address : A) (flowControlId : F)
  | addProducer (address : A) (flowControlId : F) (spawnerFlowControlId : Option F)
      (additionalAddresses : List A)
  | addSpawner (address : A) (flowControlId : F)
  | cleanupAddress (address : A)

namespace Op

variable {A F : Type} [DecidableEq A] [DecidableEq F]

def apply (s : FlowControls A F) : Op A F → FlowControls A F
  | addConsumer a f => s.addConsumer a f
  | addProducer a f sf adds => s.addProducer a f sf adds
  | addSpawner a f => s.addSpawner a f
  | cleanupAddress a => s.cleanupAddress a

/-- The consumers added and not cleaned up since. -/
def live (l : F → Finset A) : Op A F → F → Finset A
  | addConsumer a f => fun f' => if f' = f then insert a (l f') else l f'
  | cleanupAddress a => fun f' => (l f').erase a
  | _ => l

/-- The addresses added in any role and not cleaned up since. -/
def dirty (d : Finset A) : Op A F → Finset A
  | addConsumer a _ | addProducer a _ _ _ | addSpawner a _ => insert a d
  | cleanupAddress a => d.erase a

end Op

variable {A F : Type} [DecidableEq A] [DecidableEq F]

def run (ops : List (Op A F)) : FlowControls A F := ops.foldl Op.apply .new

def liveConsumers (ops : List (Op A F)) : F → Finset A := ops.foldl Op.live fun _ => ∅

def dirtyAddresses (ops : List (Op A F)) : Finset A := ops.foldl Op.dirty ∅

end Ockam.FlowControl
