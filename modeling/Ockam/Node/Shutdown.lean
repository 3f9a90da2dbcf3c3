import Ockam.Node.Router

/-! Graceful shutdown (`router/shutdown.rs`). Progress after `StopNode(Graceful)` comes only from
stop ACKs of the addresses in `stopping`, and the abort timeout is scheduled only when workers
outside every cluster were stopped. `stop_next_cluster` stops the live records of the next
cluster; a cluster whose recorded addresses are no longer live yields none, and then nothing is
awaited, no timeout runs and the router does not stop. -/

namespace Ockam.Node

variable {A F S R : Type} [DecidableEq A] [DecidableEq F]

open Router

namespace InternalMap

omit [DecidableEq F] in
lemma nextCluster_of_getLast {m : InternalMap A F S} {name : String} {addrs : Finset A}
    (hlast : m.clusterOrder.getLast? = some name) (hset : m.clusters.find? name = some addrs) :
    m.nextCluster =
      ({ m with
          clusterOrder := m.clusterOrder.dropLast
          clusters := m.clusters.erase name },
        some ((m.addressRecordsMap.entries.filter fun e => e.1 ∈ addrs).map Prod.fst)) := by
  simp only [nextCluster, hlast, hset]

omit [DecidableEq F] in
lemma primaries_eq_nil {m : InternalMap A F S} {addrs : Finset A}
    (hdead : ∀ p ∈ addrs, m.getAddressRecord p = none) :
    (m.addressRecordsMap.entries.filter fun e => e.1 ∈ addrs).map Prod.fst = [] := by
  rw [List.map_eq_nil_iff, List.filter_eq_nil_iff]
  rintro ⟨p, record⟩ hmem hp
  have hfind : m.getAddressRecord p = some record := AssocMap.find?_eq_some_iff.mpr hmem
  rw [hdead p (by simpa using hp)] at hfind
  cases hfind

end InternalMap

/-- A `StopNode(Graceful)` that finds no worker outside the clusters goes to the last registered
cluster; if none of that cluster's addresses is live, the router keeps running its loop with
nothing awaited and no abort scheduled, and the stop request gets no reply. -/
theorem graceful_stalls (rt : Router A F S R) (timeout : UInt8) (reply : R) (label : String)
    (addrs : Finset A) (hopen : rt.receiverOpen = true) (habort : rt.abortScheduled = false)
    (hstopping : rt.map.stopping = ∅) (hworkers : rt.map.nonClusterWorkers = [])
    (hlast : rt.map.clusterOrder.getLast? = some label)
    (hset : rt.map.clusters.find? label = some addrs)
    (hdead : ∀ p ∈ addrs, rt.map.getAddressRecord p = none) :
    (rt.step (.stopNode (.graceful timeout) reply)).receiverOpen = true ∧
      (rt.step (.stopNode (.graceful timeout) reply)).stopReply = some reply ∧
      (rt.step (.stopNode (.graceful timeout) reply)).map.stopping = ∅ ∧
      (rt.step (.stopNode (.graceful timeout) reply)).abortScheduled = false ∧
      (rt.step (.stopNode (.graceful timeout) reply)).sent = rt.sent := by
  -- `graceful` stops no record, then `stop_next_cluster` stops none of the cluster
  have hnext : Shutdown.stopNextCluster (R := R) { rt with nodeState := .stopping reply } =
      .ok false { rt with
        nodeState := .stopping reply
        map := { rt.map with
          clusterOrder := rt.map.clusterOrder.dropLast
          clusters := rt.map.clusters.erase label } } := by
    simp only [Shutdown.stopNextCluster, EStateM.bind_apply, EStateM.get_apply,
      InternalMap.nextCluster_of_getLast hlast hset, InternalMap.primaries_eq_nil hdead,
      modifyMap_apply]
    rfl
  have hgraceful : Shutdown.graceful timeout reply rt =
      .ok false { rt with
        nodeState := .stopping reply
        map := { rt.map with
          clusterOrder := rt.map.clusterOrder.dropLast
          clusters := rt.map.clusters.erase label } } := by
    simp only [Shutdown.graceful, EStateM.bind_apply, EStateM.modify_apply, EStateM.get_apply,
      hworkers]
    exact hnext
  have hstep : rt.step (.stopNode (.graceful timeout) reply) =
      { rt with
        nodeState := .stopping reply
        map := { rt.map with
          clusterOrder := rt.map.clusterOrder.dropLast
          clusters := rt.map.clusters.erase label } } := by
    rw [step_of_open hopen]
    simp only [handleMsg, EStateM.bind_apply, hgraceful]
    rfl
  rw [hstep]
  exact ⟨hopen, rfl, hstopping, habort, rfl⟩

/-- A worker in cluster `c` that stopped before the node: the graceful stop then stalls. -/
theorem graceful_stalls_dead_cluster :
    let rt : Router ℕ ℕ ℕ ℕ := Router.run
      [.startWorker [1] 101 false 0, .setCluster 1 "c" 0, .stopWorker 1 false 0, .stopAck 1]
      ((Router.new .new).init 0 100)
    (rt.step (.stopNode (.graceful 5) 7)).receiverOpen = true ∧
      (rt.step (.stopNode (.graceful 5) 7)).stopReply = some 7 ∧
      (rt.step (.stopNode (.graceful 5) 7)).map.stopping = ∅ ∧
      (rt.step (.stopNode (.graceful 5) 7)).abortScheduled = false ∧
      (rt.step (.stopNode (.graceful 5) 7)).sent = rt.sent :=
  graceful_stalls _ 5 7 "c" {1} (by decide) (by decide) (by decide) (by decide) (by decide)
    (by decide) (by decide)

end Ockam.Node
