import Ockam.FlowControl.FlowControls

/-! The router's `InternalMap` (`router/record.rs`): the address records by primary address, the
alias map from every address of a record to its primary, the clusters in their order of
registration, and the addresses whose stop is awaited. Senders are a type `S`; sending a control
signal does not fail here, and the ready state of a record is left out. -/

namespace Ockam.Node

open Ockam.FlowControl

inductive AddressState where
  | running
  | stopping
  | faulty
  deriving DecidableEq, Repr

structure AddressMeta where
  processor : Bool
  detached : Bool
  deriving DecidableEq, Repr

structure AddressRecord (A S : Type) where
  addressSet : List A
  sender : Option S
  state : AddressState
  addressMeta : AddressMeta

namespace AddressRecord

variable {A S : Type}

def new (addressSet : List A) (sender : S) (addressMeta : AddressMeta) : AddressRecord A S :=
  ⟨addressSet, some sender, .running, addressMeta⟩

def dropSender (r : AddressRecord A S) : AddressRecord A S := { r with sender := none }

/-- `stop`: a processor is sent `InterruptStop` on its control channel, a worker loses its
sender; both are then stopping. -/
def stop (r : AddressRecord A S) : AddressRecord A S :=
  if r.addressMeta.processor then { r with state := .stopping }
  else { r with sender := none, state := .stopping }

def check (r : AddressRecord A S) : Bool := r.state = .running && r.sender.isSome

end AddressRecord

structure InternalMap (A F S : Type) where
  addressRecordsMap : AssocMap A (AddressRecord A S)
  aliasMap : AssocMap A A
  clusterOrder : List String
  clusters : AssocMap String (Finset A)
  stopping : Finset A
  flowControls : FlowControls A F

namespace InternalMap

variable {A F S : Type} [DecidableEq A] [DecidableEq F]

def new (flowControls : FlowControls A F) : InternalMap A F S :=
  ⟨.empty, .empty, [], .empty, ∅, flowControls⟩

def clearAddressRecordsMap (m : InternalMap A F S) : InternalMap A F S :=
  { m with addressRecordsMap := .empty }

def getAddressRecord (m : InternalMap A F S) (primaryAddress : A) : Option (AddressRecord A S) :=
  m.addressRecordsMap.find? primaryAddress

/-- `remove_address_record` cleans the flow controls of the address whether or not it has a
record. -/
def removeAddressRecord (m : InternalMap A F S) (primaryAddress : A) :
    InternalMap A F S × Option (AddressRecord A S) :=
  ({ m with
      flowControls := m.flowControls.cleanupAddress primaryAddress
      addressRecordsMap := m.addressRecordsMap.erase primaryAddress },
    m.addressRecordsMap.find? primaryAddress)

def insertAddressRecord (m : InternalMap A F S) (primaryAddress : A) (record : AddressRecord A S) :
    InternalMap A F S :=
  { m with addressRecordsMap := m.addressRecordsMap.insert primaryAddress record }

def removeAlias (m : InternalMap A F S) (aliasAddress : A) : InternalMap A F S :=
  { m with
    flowControls := m.flowControls.cleanupAddress aliasAddress
    aliasMap := m.aliasMap.erase aliasAddress }

/-- `insert_alias` overwrites an alias already there. -/
def insertAlias (m : InternalMap A F S) (aliasAddress primaryAddress : A) : InternalMap A F S :=
  { m with aliasMap := m.aliasMap.insert aliasAddress primaryAddress }

def getPrimaryAddress (m : InternalMap A F S) (aliasAddress : A) : Option A :=
  m.aliasMap.find? aliasAddress

/-- Update the record of a primary address in place. -/
def modifyRecord (m : InternalMap A F S) (primaryAddress : A)
    (f : AddressRecord A S → AddressRecord A S) : InternalMap A F S :=
  match m.addressRecordsMap.find? primaryAddress with
  | some record => m.insertAddressRecord primaryAddress (f record)
  | none => m

/-- `set_cluster`: the label is registered on first use, then every address of the record is
added to its set. -/
def setCluster (m : InternalMap A F S) (label : String) (primary : A) :
    Except A (InternalMap A F S) :=
  match m.addressRecordsMap.find? primary with
  | none => .error primary
  | some rec =>
    let m := if m.clusters.contains label then m
      else { m with clusters := m.clusters.insert label ∅, clusterOrder := m.clusterOrder ++ [label] }
    .ok { m with clusters := m.clusters.insert label ((m.clusters.find? label).getD ∅ ∪ rec.addressSet.toFinset) }

/-- `next_cluster`: pop the last registered label and take its set; the records whose primary is
in the set are returned by their primary addresses. The label is popped even when its set is
missing. -/
def nextCluster (m : InternalMap A F S) : InternalMap A F S × Option (List A) :=
  match m.clusterOrder.getLast? with
  | none => (m, none)
  | some name =>
    let m := { m with clusterOrder := m.clusterOrder.dropLast }
    match m.clusters.find? name with
    | none => (m, none)
    | some addrs =>
      ({ m with clusters := m.clusters.erase name },
        some ((m.addressRecordsMap.entries.filter fun e => e.1 ∈ addrs).map Prod.fst))

def initStop (m : InternalMap A F S) (addr : A) : InternalMap A F S :=
  { m with stopping := insert addr m.stopping }

def clusterDone (m : InternalMap A F S) : Bool := decide (m.stopping = ∅)

/-- `non_cluster_workers`: the records outside every cluster, detached ones left out. -/
def nonClusterWorkers (m : InternalMap A F S) : List A :=
  let clustered := m.clusters.entries.foldl (fun acc e => acc ∪ e.2) ∅
  ((m.addressRecordsMap.entries.filter fun e => e.1 ∉ clustered).filter
    fun e => !e.2.addressMeta.detached).map Prod.fst

/-- `free_address`: the record and every alias of its address set go. -/
def freeAddress (m : InternalMap A F S) (primary : A) : InternalMap A F S :=
  let m := { m with stopping := m.stopping.erase primary }
  match m.removeAddressRecord primary with
  | (m, some record) =>
    { m with aliasMap := record.addressSet.foldl (fun am addr => am.erase addr) m.aliasMap }
  | (m, none) => m

section Lemmas

variable (m : InternalMap A F S) (p q a : A) (r : AddressRecord A S)

omit [DecidableEq F] in
@[simp] lemma getAddressRecord_insertAddressRecord :
    (m.insertAddressRecord p r).getAddressRecord q = if q = p then some r else m.getAddressRecord q :=
  AssocMap.find?_insert

omit [DecidableEq F] in
@[simp] lemma getPrimaryAddress_insertAddressRecord :
    (m.insertAddressRecord p r).getPrimaryAddress a = m.getPrimaryAddress a := rfl

omit [DecidableEq F] in
@[simp] lemma getAddressRecord_insertAlias :
    (m.insertAlias a p).getAddressRecord q = m.getAddressRecord q := rfl

omit [DecidableEq F] in
lemma aliasMap_foldl_insertAlias (as : List A) :
    (as.foldl (fun m a => m.insertAlias a p) m).aliasMap =
      as.foldl (fun am a => am.insert a p) m.aliasMap := by
  induction as generalizing m with
  | nil => rfl
  | cons a as ih => exact ih _

omit [DecidableEq F] in
lemma addressRecordsMap_foldl_insertAlias (as : List A) :
    (as.foldl (fun m a => m.insertAlias a p) m).addressRecordsMap = m.addressRecordsMap := by
  induction as generalizing m with
  | nil => rfl
  | cons a as ih => exact ih _

omit [DecidableEq F] in
lemma getAddressRecord_foldl_insertAlias (as : List A) :
    (as.foldl (fun m a => m.insertAlias a p) m).getAddressRecord q = m.getAddressRecord q := by
  rw [getAddressRecord, addressRecordsMap_foldl_insertAlias]
  rfl

omit [DecidableEq F] in
lemma getPrimaryAddress_foldl_insertAlias (as : List A) :
    (as.foldl (fun m a => m.insertAlias a p) m).getPrimaryAddress q =
      if q ∈ as then some p else m.getPrimaryAddress q := by
  rw [getPrimaryAddress, aliasMap_foldl_insertAlias, AssocMap.find?_foldl_insert]
  rfl

lemma getPrimaryAddress_freeAddress {record : AddressRecord A S}
    (h : m.getAddressRecord p = some record) (ha : a ∈ record.addressSet) :
    (m.freeAddress p).getPrimaryAddress a = none := by
  simp only [freeAddress, removeAddressRecord]
  rw [show m.addressRecordsMap.find? p = some record from h]
  simp [getPrimaryAddress, AssocMap.find?_foldl_erase, ha]

end Lemmas

end InternalMap

end Ockam.Node
