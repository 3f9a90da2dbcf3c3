import Ockam.Pipe.Ordering

/-! What the ordering hook delivers. `process_journal` advances the counter before it reads the
journal, so it looks up the index just forwarded rather than the next one. When every index
arrives once, it finds nothing: a message that arrived early stays in the journal, the counter
never passes it, and every later message is journaled or dropped. The invariant `Inv` carries
this over a run of distinct arrivals. -/

namespace Ockam.Ordering

variable {ε M L : Type}

section CompareIndex

variable {current index : ℕ}

lemma compareIndex_of_high (h : current + 1 < index) : compareIndex current index = .high := by
  simp [compareIndex, h]

lemma compareIndex_of_low (h : index < current + 1) : compareIndex current index = .low := by
  have hnot : ¬ current + 1 < index := by omega
  simp [compareIndex, h, hnot]

@[simp] lemma compareIndex_next : compareIndex current (current + 1) = .next := by
  simp [compareIndex]

end CompareIndex

lemma processJournal_of_none (unpack : M → Except ε L) (sendStack : List L) {curr : ℕ}
    {j : AssocMap ℕ M} (h : j.find? (curr + 1) = none) :
    processJournal unpack sendStack curr j = (.ok sendStack, curr + 1, j) := by
  rw [processJournal]
  split
  · next hfind => rw [h] at hfind; cases hfind
  · rfl

section OnIndex

variable (unpack : M → Except ε L) (msg : M) (r : Receiver M L)

lemma onIndex_of_low {index : ℕ} (h : index < r.hook.current + 1) :
    onIndex unpack index msg r = .ok () r := by
  simp [onIndex, compareIndex_of_low h]

lemma onIndex_of_high {index : ℕ} (h : r.hook.current + 1 < index) :
    onIndex unpack index msg r =
      .ok () { r with hook := { r.hook with journal := r.hook.journal.insert index msg } } := by
  simp [onIndex, compareIndex_of_high h, enqueue]

lemma onIndex_of_next_of_error {e : ε} (hu : unpack msg = .error e) :
    onIndex unpack (r.hook.current + 1) msg r = .error e r := by
  simp [onIndex, forward, hu, EStateM.ofExcept]

lemma onIndex_of_next {unpacked : L} (hu : unpack msg = .ok unpacked)
    (hj : r.hook.journal.find? (r.hook.current + 1) = none) :
    onIndex unpack (r.hook.current + 1) msg r =
      .ok () ⟨⟨r.hook.journal, r.hook.current + 1⟩, r.forwarded ++ [unpacked]⟩ := by
  simp [onIndex, forward, hu, EStateM.ofExcept, send, processJournal_of_none _ _ hj]

end OnIndex

/-- What a run of distinct arrivals keeps, for the set `arrived` of the indices seen so far: the
journal holds indices that arrived, all above the counter, and every index up to the counter
arrived. -/
structure Inv (arrived : Finset ℕ) (r : Receiver M L) : Prop where
  journal_arrived : ∀ k v, r.hook.journal.find? k = some v → k ∈ arrived
  journal_above : ∀ k v, r.hook.journal.find? k = some v → r.hook.current < k
  arrived_upto : ∀ k, 0 < k → k ≤ r.hook.current → k ∈ arrived

lemma inv_new : Inv ∅ (Receiver.new : Receiver M L) where
  journal_arrived k v h := by simp [Receiver.new, ReceiverOrdering.new] at h
  journal_above k v h := by simp [Receiver.new, ReceiverOrdering.new] at h
  arrived_upto k hk hle := by simp [Receiver.new, ReceiverOrdering.new] at hle; omega

lemma Inv.mono {arrived arrived' : Finset ℕ} {r : Receiver M L} (hinv : Inv arrived r)
    (hsub : arrived ⊆ arrived') : Inv arrived' r where
  journal_arrived k v h := hsub (hinv.journal_arrived k v h)
  journal_above := hinv.journal_above
  arrived_upto k hk hle := hsub (hinv.arrived_upto k hk hle)

lemma Inv.find?_eq_none {arrived : Finset ℕ} {r : Receiver M L} (hinv : Inv arrived r) {index : ℕ}
    (hi : index ∉ arrived) : r.hook.journal.find? index = none := by
  cases h : r.hook.journal.find? index with
  | none => rfl
  | some v => exact absurd (hinv.journal_arrived index v h) hi

section Step

variable (unpack : M → Except ε L) {arrived : Finset ℕ} {r : Receiver M L} {index : ℕ} (msg : M)

lemma inv_onIndex (hinv : Inv arrived r) (hi : index ∉ arrived) :
    Inv (insert index arrived) (onIndex unpack index msg r).state ∧
      ∀ k v, r.hook.journal.find? k = some v →
        (onIndex unpack index msg r).state.hook.journal.find? k = some v := by
  -- the three cases of `compare_index`
  rcases lt_trichotomy index (r.hook.current + 1) with hlow | rfl | hhigh
  · rw [onIndex_of_low unpack msg r hlow, EStateM.Result.state_ok]
    exact ⟨hinv.mono (Finset.subset_insert _ _), fun _ _ h => h⟩
  · cases hu : unpack msg with
    | error e =>
      rw [onIndex_of_next_of_error unpack msg r hu, EStateM.Result.state_error]
      exact ⟨hinv.mono (Finset.subset_insert _ _), fun _ _ h => h⟩
    | ok unpacked =>
      rw [onIndex_of_next unpack msg r hu (hinv.find?_eq_none hi), EStateM.Result.state_ok]
      refine ⟨⟨fun k v h => ?_, fun k v h => ?_, fun k hk hle => ?_⟩, fun _ _ h => h⟩
      · exact Finset.mem_insert_of_mem (hinv.journal_arrived k v h)
      · -- the journal holds no entry under the index just forwarded
        dsimp only
        have habove := hinv.journal_above k v h
        have hne : k ≠ r.hook.current + 1 := by
          rintro rfl
          rw [hinv.find?_eq_none hi] at h
          cases h
        omega
      · dsimp only at hle
        rcases Nat.lt_or_ge k (r.hook.current + 1) with hlt | hge
        · exact Finset.mem_insert_of_mem (hinv.arrived_upto k hk (by omega))
        · have hk : k = r.hook.current + 1 := by omega
          exact hk ▸ Finset.mem_insert_self _ _
  · rw [onIndex_of_high unpack msg r hhigh, EStateM.Result.state_ok]
    refine ⟨⟨fun k v h => ?_, fun k v h => ?_, fun k hk hle => ?_⟩, fun k v h => ?_⟩
    · rw [AssocMap.find?_insert] at h
      split_ifs at h with hk
      · exact hk ▸ Finset.mem_insert_self _ _
      · exact Finset.mem_insert_of_mem (hinv.journal_arrived k v h)
    · dsimp only
      rw [AssocMap.find?_insert] at h
      split_ifs at h with hk
      · omega
      · exact hinv.journal_above k v h
    · exact Finset.mem_insert_of_mem (hinv.arrived_upto k hk hle)
    · -- the index was not journaled, so the insertion keeps every entry
      have hne : k ≠ index := by
        rintro rfl
        rw [hinv.find?_eq_none hi] at h
        cases h
      simp only [AssocMap.find?_insert, hne, if_false, h]

lemma find?_onIndex_of_high (h : r.hook.current + 1 < index) :
    (onIndex unpack index msg r).state.hook.journal.find? index = some msg := by
  rw [onIndex_of_high unpack msg r h, EStateM.Result.state_ok]
  simp [AssocMap.find?_insert]

end Step

lemma inv_run (unpack : M → Except ε L) (arrivals : List (ℕ × M)) {arrived : Finset ℕ}
    {r : Receiver M L} (hnd : (arrivals.map Prod.fst).Nodup) (hnew : ∀ a ∈ arrivals, a.1 ∉ arrived)
    (hinv : Inv arrived r) :
    Inv (arrived ∪ (arrivals.map Prod.fst).toFinset) (run unpack arrivals r) ∧
      ∀ k v, r.hook.journal.find? k = some v → (run unpack arrivals r).hook.journal.find? k = some v := by
  induction arrivals generalizing arrived r with
  | nil => exact ⟨by simpa using hinv, fun _ _ h => h⟩
  | cons a arrivals ih =>
    simp only [List.map_cons, List.nodup_cons] at hnd
    obtain ⟨hstep, hkeep⟩ := inv_onIndex unpack a.2 hinv (hnew a List.mem_cons_self)
    -- the rest of the run sees none of the indices seen so far, `a.1` included
    have hnew' : ∀ b ∈ arrivals, b.1 ∉ insert a.1 arrived := by
      intro b hb hmem
      rcases Finset.mem_insert.mp hmem with heq | hold
      · exact hnd.1 (heq ▸ List.mem_map_of_mem hb)
      · exact hnew b (List.mem_cons_of_mem a hb) hold
    obtain ⟨hinv', hkeep'⟩ := ih hnd.2 hnew' hstep
    refine ⟨?_, fun k v h => hkeep' k v (hkeep k v h)⟩
    have hset : insert a.1 arrived ∪ (arrivals.map Prod.fst).toFinset =
        arrived ∪ ((a :: arrivals).map Prod.fst).toFinset := by
      ext x
      simp only [Finset.mem_union, Finset.mem_insert, List.mem_toFinset, List.map_cons,
        List.mem_cons]
      tauto
    exact hset ▸ hinv'

lemma run_append (unpack : M → Except ε L) (as bs : List (ℕ × M)) (r : Receiver M L) :
    run unpack (as ++ bs) r = run unpack bs (run unpack as r) :=
  List.foldl_append

lemma exists_first_gap (s : ℕ) (xs : List ℕ) (hne : xs ≠ List.range' s xs.length) :
    ∃ p k post, xs = List.range' s p ++ k :: post ∧ k ≠ s + p := by
  induction xs generalizing s with
  | nil => exact absurd rfl hne
  | cons x xs ih =>
    by_cases hx : x = s
    · subst hx
      have hne' : xs ≠ List.range' (x + 1) xs.length := by
        intro h
        apply hne
        rw [List.length_cons, List.range'_succ, ← h]
      obtain ⟨p, k, post, rfl, hk⟩ := ih (x + 1) hne'
      refine ⟨p + 1, k, post, by rw [List.range'_succ, List.cons_append], by omega⟩
    · exact ⟨0, x, xs, rfl, by simpa using hx⟩

/-- The ordering hook run on the indices `1..n` in any order other than `1, 2, ..., n`, each
arriving once with its message, never forwards them all: its counter stays below `n` and its
journal is not empty, whatever `unpack` does. -/
theorem ordering_stalls_on_reordered (unpack : M → Except ε L) (msg : ℕ → M) (n : ℕ)
    (xs : List ℕ) (hperm : xs.Perm (List.range' 1 n)) (hne : xs ≠ List.range' 1 n) :
    (run unpack (xs.map fun i => (i, msg i)) .new).hook.current < n ∧
      (run unpack (xs.map fun i => (i, msg i)) .new).hook.journal.entries ≠ [] := by
  have hlen : xs.length = n := by simpa using hperm.length_eq
  obtain ⟨p, k, post, rfl, hk⟩ := exists_first_gap 1 xs (hlen ▸ hne)
  have hnd : (List.range' 1 p ++ k :: post).Nodup := hperm.nodup_iff.mpr List.nodup_range'
  obtain ⟨-, hndpost, hdisj⟩ := List.nodup_append.mp hnd
  have hkn : 1 ≤ k ∧ k < 1 + n := List.mem_range'_1.mp (hperm.subset (by simp))
  have hkp : ¬ (1 ≤ k ∧ k < 1 + p) := fun hk₁ =>
    hdisj k (List.mem_range'_1.mpr hk₁) k List.mem_cons_self rfl
  -- the run splits at the first index out of place
  rw [List.map_append, List.map_cons, run_append, run_cons]
  obtain ⟨hinv₁, -⟩ := inv_run unpack ((List.range' 1 p).map fun i => (i, msg i))
    (by simpa [Function.comp_def] using List.nodup_range') (by simp) inv_new
  generalize run unpack ((List.range' 1 p).map fun i => (i, msg i)) .new = r₁ at hinv₁ ⊢
  simp only [List.map_map, Function.comp_def, List.map_id', Finset.empty_union] at hinv₁
  -- the indices seen are `1..p`, so the counter is at most `p` and `k` is above the next one
  have hcur : r₁.hook.current ≤ p := by
    by_contra hlt
    have hmem := hinv₁.arrived_upto (p + 1) (by omega) (by omega)
    simp only [List.mem_toFinset, List.mem_range'_1] at hmem
    omega
  have hkhigh : r₁.hook.current + 1 < k := by omega
  have hkarr : k ∉ (List.range' 1 p).toFinset := by simpa using hkp
  obtain ⟨hinv₂, -⟩ := inv_onIndex unpack (msg k) hinv₁ hkarr
  have hjk := find?_onIndex_of_high unpack (msg k) hkhigh
  generalize (onIndex unpack k (msg k) r₁).state = r₂ at hinv₂ hjk ⊢
  -- the rest of the run never sees `k` again and keeps it in the journal
  have hpost : ((post.map fun i => (i, msg i)).map Prod.fst).Nodup := by
    simpa [Function.comp_def] using (List.nodup_cons.mp hndpost).2
  have hnew : ∀ a ∈ post.map (fun i => (i, msg i)), a.1 ∉ insert k (List.range' 1 p).toFinset := by
    intro a ha hmem
    obtain ⟨i, hi, rfl⟩ := List.mem_map.mp ha
    rcases Finset.mem_insert.mp hmem with hik | hip
    · exact (List.nodup_cons.mp hndpost).1 (hik ▸ hi)
    · exact hdisj i (List.mem_toFinset.mp hip) i (List.mem_cons_of_mem k hi) rfl
  obtain ⟨hinv₃, hkeep₃⟩ := inv_run unpack _ hpost hnew hinv₂
  have hj₃ := hkeep₃ k (msg k) hjk
  refine ⟨?_, ?_⟩
  · have habove := hinv₃.journal_above k (msg k) hj₃
    omega
  · intro hnil
    rw [AssocMap.entries_eq_nil.mp hnil k] at hj₃
    cases hj₃

/-- `2` arrives before `1`: `1` is forwarded, `2` stays in the journal. -/
theorem ordering_stalls_two_one :
    (run (ε := Unit) Except.ok ([2, 1].map fun i => (i, i)) (.new : Receiver ℕ ℕ)).hook.current < 2 ∧
      (run (ε := Unit) Except.ok ([2, 1].map fun i => (i, i))
        (.new : Receiver ℕ ℕ)).hook.journal.entries ≠ [] :=
  ordering_stalls_on_reordered Except.ok id 2 [2, 1] (by decide) (by decide)

end Ockam.Ordering
