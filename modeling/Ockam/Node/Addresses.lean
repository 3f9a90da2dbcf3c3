import Ockam.Node.Router

/-! What `StartWorker` does to the alias map. `start` checks its primary address against the
record map only (the source marks the missing check with a `FIXME`), and `insert_alias`
overwrites: a worker whose set meets another live worker's set is started, and takes that
worker's aliases. `free_address` later drops them with its own set. -/

namespace Ockam.Node

variable {A F S R : Type} [DecidableEq A] [DecidableEq F]

open Router

omit [DecidableEq F] in
lemma StartWorker.start_of_new {rt : Router A F S R} {addrs : List A} {primary : A}
    (senders : S) (detached : Bool) (reply : R) (hhead : addrs.head? = some primary)
    (hnew : rt.map.getAddressRecord primary = none) :
    StartWorker.start addrs senders detached reply rt =
      .ok () { rt with
        map := addrs.foldl (fun m a => m.insertAlias a primary)
          (rt.map.insertAddressRecord primary (.new addrs senders ⟨false, detached⟩))
        sent := rt.sent ++ [(reply, .ok)] } := by
  obtain ⟨rest, rfl⟩ : ∃ rest, addrs = primary :: rest := by
    cases addrs with
    | nil => cases hhead
    | cons a rest =>
      cases hhead
      exact ⟨rest, rfl⟩
  simp only [StartWorker.start, List.head?_cons, EStateM.bind_apply,
    checkAddrNotExist_of_none rt reply hnew, modifyMap_apply, forM_modifyMap, send_apply]

/-- A `StartWorker` of a running router is accepted as soon as its primary address has no record,
whatever live records its other addresses belong to: those records stay, and every address of
the new set now resolves to the new primary. -/
theorem startWorker_takes_aliases (rt : Router A F S R) (addrs : List A) (senders : S)
    (detached : Bool) (reply : R) (primary : A) (hopen : rt.receiverOpen = true)
    (hrun : rt.nodeState = .running) (hhead : addrs.head? = some primary)
    (hnew : rt.map.getAddressRecord primary = none) :
    (rt.step (.startWorker addrs senders detached reply)).sent = rt.sent ++ [(reply, .ok)] ∧
      (∀ q, q ≠ primary →
        (rt.step (.startWorker addrs senders detached reply)).map.getAddressRecord q =
          rt.map.getAddressRecord q) ∧
      ∀ a ∈ addrs,
        (rt.step (.startWorker addrs senders detached reply)).map.getPrimaryAddress a = some primary := by
  have hexec : StartWorker.exec addrs senders detached reply rt =
      StartWorker.start addrs senders detached reply rt := by
    simp only [StartWorker.exec, EStateM.bind_apply, EStateM.get_apply, hrun]
  have hstep : rt.step (.startWorker addrs senders detached reply) =
      { rt with
        map := addrs.foldl (fun m a => m.insertAlias a primary)
          (rt.map.insertAddressRecord primary (.new addrs senders ⟨false, detached⟩))
        sent := rt.sent ++ [(reply, .ok)] } := by
    rw [step_of_open hopen]
    simp only [handleMsg, EStateM.bind_apply, hexec,
      StartWorker.start_of_new senders detached reply hhead hnew, EStateM.pure_apply]
  rw [hstep]
  refine ⟨rfl, fun q hq => ?_, fun a ha => ?_⟩
  · simp [InternalMap.getAddressRecord_foldl_insertAlias, hq]
  · simp [InternalMap.getPrimaryAddress_foldl_insertAlias, ha]

/-- After `StartWorker [1]`, a `StartWorker [2, 1]` is accepted while the record of `1` is live
with `1` in its set, and `1` then resolves to `2`. -/
theorem startWorker_takes_aliases_overlap :
    let rt : Router ℕ ℕ ℕ ℕ := Router.run [.startWorker [1] 101 false 0] ((Router.new .new).init 0 100)
    (rt.map.getAddressRecord 1).map (·.addressSet) = some [1] ∧
      (rt.step (.startWorker [2, 1] 102 false 0)).map.getPrimaryAddress 1 = some 2 :=
  ⟨by decide,
    (startWorker_takes_aliases _ [2, 1] 102 false 0 2 (by decide) (by decide) rfl (by decide)).2.2 1
      (by simp)⟩

example :
    let rt : Router ℕ ℕ ℕ ℕ := Router.run
      [.startWorker [1] 101 false 0, .startWorker [2, 1] 102 false 0, .stopWorker 2 true 0,
        .senderReq 1 0] ((Router.new .new).init 0 100)
    (rt.map.getAddressRecord 1).map (·.check) = some true ∧ rt.map.getPrimaryAddress 1 = none ∧
      rt.sent.getLast? = some (0, .noSuchAddress 1) := by
  decide

end Ockam.Node
