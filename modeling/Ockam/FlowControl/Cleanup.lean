import Ockam.FlowControl.FlowControls

/-! The invariant of a run of `FlowControls`: each consumer set is not empty and holds only
consumers added and not cleaned up since, and each table holds only addresses added and not
cleaned up since (an additional address through its producer). -/

namespace Ockam.FlowControl

open FlowControls

variable {A F : Type} [DecidableEq A] [DecidableEq F]

structure Inv (s : FlowControls A F) (live : F → Finset A) (dirty : Finset A) : Prop where
  consumers : ∀ f c, s.consumers.find? f = some c → c.Nonempty ∧ c ⊆ live f ∧ c ⊆ dirty
  producers : ∀ a i, s.producers.find? a = some i → a ∈ dirty
  additional : ∀ a m, s.producersAdditionalAddresses.find? a = some m → (s.producers.find? m).isSome
  spawners : ∀ a f, s.spawners.find? a = some f → a ∈ dirty

variable {s : FlowControls A F} {live : F → Finset A} {dirty : Finset A} {a : A} {f : F}

lemma inv_new : Inv (FlowControls.new : FlowControls A F) (fun _ => ∅) ∅ :=
  ⟨by simp [new], by simp [new], by simp [new], by simp [new]⟩

/-! The cleanup routines other than `cleanup_consumer` only drop whole consumer sets. -/

omit [DecidableEq A] in
lemma cleanupProducersSpawner_consumers {c : Finset A} {g : F}
    (h : (cleanupProducersSpawner s g).consumers.find? f = some c) : s.consumers.find? f = some c := by
  unfold cleanupProducersSpawner at h
  split_ifs at h
  · exact h
  · exact h
  · exact AssocMap.find?_of_find?_erase h

lemma cleanupSpawner_consumers {c : Finset A}
    (h : (cleanupSpawner s a).consumers.find? f = some c) : s.consumers.find? f = some c := by
  unfold cleanupSpawner at h
  split at h
  · exact h
  · -- the spawner is erased first: the consumer table is the one of `s`
    have h' := cleanupProducersSpawner_consumers h
    exact h'

omit [DecidableEq A] in
lemma cleanupProducerId_consumers {c : Finset A} {g : F}
    (h : (cleanupProducerId s g).consumers.find? f = some c) : s.consumers.find? f = some c := by
  unfold cleanupProducerId at h
  split_ifs at h
  · exact h
  · exact AssocMap.find?_of_find?_erase h

lemma cleanupProducer_consumers {c : Finset A}
    (h : (cleanupProducer s a).consumers.find? f = some c) : s.consumers.find? f = some c := by
  unfold cleanupProducer at h
  split at h
  · exact h
  · rename_i info _
    have h' := cleanupProducerId_consumers h
    cases hs : info.spawnerFlowControlId with
    | none => simpa [hs, removeProducer] using h'
    | some id =>
      rw [hs] at h'
      have h'' := cleanupProducersSpawner_consumers h'
      exact h''

lemma removeConsumer_find? {m : AssocMap F (Finset A)} {c : Finset A}
    (h : (removeConsumer m a).find? f = some c) : ∃ c₀, m.find? f = some c₀ ∧ c = c₀.erase a ∧ c ≠ ∅ := by
  simp only [removeConsumer, AssocMap.find?_retain, AssocMap.find?_mapVals, Option.filter_eq_some_iff,
    Option.map_eq_some_iff, decide_eq_true_eq] at h
  obtain ⟨⟨c₀, hc₀, rfl⟩, hne⟩ := h
  exact ⟨c₀, hc₀, rfl, hne⟩

/-! What the cleanup of an address does to the address tables. -/

omit [DecidableEq A] in
lemma cleanupProducersSpawner_tables (g : F) :
    (cleanupProducersSpawner s g).producers = s.producers ∧
      (cleanupProducersSpawner s g).producersAdditionalAddresses = s.producersAdditionalAddresses ∧
      (cleanupProducersSpawner s g).spawners = s.spawners := by
  unfold cleanupProducersSpawner
  split_ifs <;> exact ⟨rfl, rfl, rfl⟩

omit [DecidableEq A] in
lemma cleanupProducerId_tables (g : F) :
    (cleanupProducerId s g).producers = s.producers ∧
      (cleanupProducerId s g).producersAdditionalAddresses = s.producersAdditionalAddresses ∧
      (cleanupProducerId s g).spawners = s.spawners := by
  unfold cleanupProducerId
  split_ifs <;> exact ⟨rfl, rfl, rfl⟩

lemma cleanupSpawner_spawners {b : A} {g : F} (h : (cleanupSpawner s a).spawners.find? b = some g) :
    s.spawners.find? b = some g ∧ b ≠ a := by
  unfold cleanupSpawner at h
  split at h
  · rename_i hnone
    exact ⟨h, fun hb => by rw [hb, hnone] at h; cases h⟩
  · rw [(cleanupProducersSpawner_tables _).2.2, AssocMap.find?_erase] at h
    split_ifs at h with hb
    exact ⟨h, hb⟩

lemma cleanupSpawner_producers :
    (cleanupSpawner s a).producers = s.producers ∧
      (cleanupSpawner s a).producersAdditionalAddresses = s.producersAdditionalAddresses := by
  unfold cleanupSpawner
  split
  · exact ⟨rfl, rfl⟩
  · exact ⟨(cleanupProducersSpawner_tables _).1, (cleanupProducersSpawner_tables _).2.1⟩

lemma cleanupProducer_tables (hs : (s.producers.find? a).isSome) :
    (cleanupProducer s a).producers = s.producers.erase a ∧
      (cleanupProducer s a).producersAdditionalAddresses =
        s.producersAdditionalAddresses.retain (fun _ main => main ≠ a) ∧
      (cleanupProducer s a).spawners = s.spawners := by
  obtain ⟨info, hinfo⟩ := Option.isSome_iff_exists.mp hs
  unfold cleanupProducer
  rw [hinfo]
  dsimp only
  -- with a spawner id, `cleanup_producers_spawner` runs in between and keeps these tables too
  cases info.spawnerFlowControlId with
  | none => simp only [cleanupProducerId_tables, removeProducer, and_self]
  | some g => simp only [cleanupProducerId_tables, cleanupProducersSpawner_tables, removeProducer, and_self]

lemma cleanupProducer_of_none (hs : s.producers.find? a = none) : cleanupProducer s a = s := by
  unfold cleanupProducer
  rw [hs]

lemma cleanupProducer_producers {b : A} {i : ProducerInfo F}
    (h : (cleanupProducer s a).producers.find? b = some i) : s.producers.find? b = some i ∧ b ≠ a := by
  cases hs : s.producers.find? a with
  | none =>
    rw [cleanupProducer_of_none hs] at h
    exact ⟨h, fun hb => by rw [hb, hs] at h; cases h⟩
  | some _ =>
    rw [(cleanupProducer_tables (by simp [hs])).1, AssocMap.find?_erase] at h
    split_ifs at h with hb
    exact ⟨h, hb⟩

lemma cleanupProducer_additional
    (h : ∀ b m, s.producersAdditionalAddresses.find? b = some m → (s.producers.find? m).isSome)
    (b m : A) (hb : (cleanupProducer s a).producersAdditionalAddresses.find? b = some m) :
    ((cleanupProducer s a).producers.find? m).isSome := by
  cases hs : s.producers.find? a with
  | none =>
    rw [cleanupProducer_of_none hs] at hb ⊢
    exact h b m hb
  | some _ =>
    obtain ⟨hp, ha, -⟩ := cleanupProducer_tables (s := s) (a := a) (by simp [hs])
    rw [ha, AssocMap.find?_retain, Option.filter_eq_some_iff] at hb
    obtain ⟨hb, hm⟩ := hb
    have hm : m ≠ a := by simpa using hm
    rw [hp, AssocMap.find?_erase, if_neg hm]
    exact h b m hb

/-! One step of a run keeps the invariant. -/

lemma Inv.getConsumersInfo_subset (h : Inv s live dirty) (f : F) :
    s.getConsumersInfo f ⊆ live f ∧ s.getConsumersInfo f ⊆ dirty := by
  unfold getConsumersInfo
  cases hc : s.consumers.find? f with
  | none => simp
  | some c => exact (h.consumers f c hc).2

lemma inv_addConsumer (h : Inv s live dirty) (a : A) (g : F) :
    Inv (s.addConsumer a g) ((Op.addConsumer a g).live live) ((Op.addConsumer a g).dirty dirty) where
  consumers f c hc := by
    simp only [addConsumer, AssocMap.find?_insert] at hc
    simp only [Op.live, Op.dirty]
    split_ifs at hc with hf
    · -- the set of `g` gains `a`
      subst hf
      cases hc
      obtain ⟨hl, hd⟩ := h.getConsumersInfo_subset f
      refine ⟨Finset.insert_nonempty _ _, ?_, Finset.insert_subset_insert a hd⟩
      rw [if_pos rfl]
      exact Finset.insert_subset_insert a hl
    · obtain ⟨hn, hl, hd⟩ := h.consumers f c hc
      exact ⟨hn, by simpa [hf] using hl, hd.trans (Finset.subset_insert _ _)⟩
  producers b i hi := Finset.mem_insert_of_mem (h.producers b i hi)
  additional := h.additional
  spawners b f hf := Finset.mem_insert_of_mem (h.spawners b f hf)

lemma inv_addProducer (h : Inv s live dirty) (a : A) (g : F) (sg : Option F) (adds : List A) :
    Inv (s.addProducer a g sg adds) ((Op.addProducer a g sg adds).live live)
      ((Op.addProducer a g sg adds).dirty dirty) where
  consumers f c hc := by
    obtain ⟨hn, hl, hd⟩ := h.consumers f c hc
    exact ⟨hn, hl, hd.trans (Finset.subset_insert _ _)⟩
  producers b i hi := by
    simp only [addProducer, AssocMap.find?_insert] at hi
    split_ifs at hi with hb
    · exact hb ▸ Finset.mem_insert_self a dirty
    · exact Finset.mem_insert_of_mem (h.producers b i hi)
  additional b m hb := by
    simp only [addProducer, AssocMap.find?_foldl_insert, AssocMap.find?_insert] at hb ⊢
    -- every new additional address, and the address itself, points to the new producer
    by_cases hm : m = a
    · simp [hm]
    · split_ifs at hb with h₁ h₂
      · exact absurd (Option.some_injective _ hb).symm hm
      · exact absurd (Option.some_injective _ hb).symm hm
      · simpa [hm] using h.additional b m hb
  spawners b f hf := Finset.mem_insert_of_mem (h.spawners b f hf)

lemma inv_addSpawner (h : Inv s live dirty) (a : A) (g : F) :
    Inv (s.addSpawner a g) ((Op.addSpawner a g).live live) ((Op.addSpawner a g).dirty dirty) where
  consumers f c hc := by
    obtain ⟨hn, hl, hd⟩ := h.consumers f c hc
    exact ⟨hn, hl, hd.trans (Finset.subset_insert _ _)⟩
  producers b i hi := Finset.mem_insert_of_mem (h.producers b i hi)
  additional := h.additional
  spawners b f hf := by
    simp only [addSpawner, AssocMap.find?_insert] at hf
    split_ifs at hf with hb
    · exact hb ▸ Finset.mem_insert_self a dirty
    · exact Finset.mem_insert_of_mem (h.spawners b f hf)

lemma inv_cleanupAddress (h : Inv s live dirty) (a : A) :
    Inv (s.cleanupAddress a) ((Op.cleanupAddress a : Op A F).live live)
      ((Op.cleanupAddress a : Op A F).dirty dirty) where
  consumers f c hc := by
    simp only [cleanupAddress, cleanupConsumer] at hc
    -- the two passes of `cleanup_consumer`, over the sets left by the other routines
    obtain ⟨c₁, hc₁, rfl, hne⟩ := removeConsumer_find? hc
    obtain ⟨c₀, hc₀, rfl, -⟩ := removeConsumer_find? hc₁
    obtain ⟨-, hl, hd⟩ := h.consumers f c₀ (cleanupSpawner_consumers (cleanupProducer_consumers hc₀))
    refine ⟨Finset.nonempty_iff_ne_empty.mpr hne, ?_, ?_⟩
    · exact Finset.erase_subset_erase a ((Finset.erase_subset a c₀).trans hl)
    · exact Finset.erase_subset_erase a ((Finset.erase_subset a c₀).trans hd)
  producers b i hi := by
    obtain ⟨hi, hb⟩ := cleanupProducer_producers hi
    rw [cleanupSpawner_producers.1] at hi
    exact Finset.mem_erase.mpr ⟨hb, h.producers b i hi⟩
  additional b m hb := by
    refine cleanupProducer_additional ?_ b m hb
    rw [cleanupSpawner_producers.1, cleanupSpawner_producers.2]
    exact h.additional
  spawners b f hf := by
    have hsp : (cleanupProducer (cleanupSpawner s a) a).spawners = (cleanupSpawner s a).spawners := by
      cases hs : (cleanupSpawner s a).producers.find? a with
      | none => rw [cleanupProducer_of_none hs]
      | some _ => exact (cleanupProducer_tables (by simp [hs])).2.2
    simp only [cleanupAddress, cleanupConsumer, hsp] at hf
    obtain ⟨hf, hb⟩ := cleanupSpawner_spawners hf
    exact Finset.mem_erase.mpr ⟨hb, h.spawners b f hf⟩

lemma inv_apply (h : Inv s live dirty) : ∀ op : Op A F, Inv (op.apply s) (op.live live) (op.dirty dirty)
  | .addConsumer a g => inv_addConsumer h a g
  | .addProducer a g sg adds => inv_addProducer h a g sg adds
  | .addSpawner a g => inv_addSpawner h a g
  | .cleanupAddress a => inv_cleanupAddress h a

lemma inv_foldl : ∀ (ops : List (Op A F)) (s : FlowControls A F) (live : F → Finset A) (dirty : Finset A),
    Inv s live dirty → Inv (ops.foldl Op.apply s) (ops.foldl Op.live live) (ops.foldl Op.dirty dirty)
  | [], _, _, _, h => h
  | op :: ops, _, _, _, h => inv_foldl ops _ _ _ (inv_apply h op)

lemma inv_run (ops : List (Op A F)) : Inv (run ops) (liveConsumers ops) (dirtyAddresses ops) :=
  inv_foldl ops _ _ _ inv_new

lemma Inv.entries_eq_nil (h : Inv s live ∅) :
    s.consumers.entries = [] ∧ s.producers.entries = [] ∧
      s.producersAdditionalAddresses.entries = [] ∧ s.spawners.entries = [] := by
  have hp : ∀ b, s.producers.find? b = none := fun b =>
    Option.eq_none_iff_forall_ne_some.mpr fun i hi => by simpa using h.producers b i hi
  refine ⟨AssocMap.entries_eq_nil.mpr fun f => ?_, AssocMap.entries_eq_nil.mpr hp,
    AssocMap.entries_eq_nil.mpr fun b => ?_, AssocMap.entries_eq_nil.mpr fun b => ?_⟩
  · refine Option.eq_none_iff_forall_ne_some.mpr fun c hc => ?_
    obtain ⟨hn, -, hd⟩ := h.consumers f c hc
    exact Finset.not_nonempty_empty (Finset.subset_empty.mp hd ▸ hn)
  · refine Option.eq_none_iff_forall_ne_some.mpr fun m hm => ?_
    simpa [hp m] using h.additional b m hm
  · exact Option.eq_none_iff_forall_ne_some.mpr fun f hf => by simpa using h.spawners b f hf

/-! ### An id still held keeps its consumers

The three cleanup routines each test one role of an id: `cleanup_producer` whether a producer
has it as its own id, `cleanup_producers_spawner` whether a spawner has it or a producer was
spawned with it. An id used in one role only keeps its consumers as long as it is held. -/

/-- The test of `cleanup_producer`: a producer has the id as its own. -/
def FlowControls.producerHolds (s : FlowControls A F) (f : F) : Bool :=
  s.producers.any fun _ i => i.flowControlId = f

/-- The test of `cleanup_producers_spawner`: a spawner has the id, or a producer was spawned
with it. -/
def FlowControls.spawnerHolds (s : FlowControls A F) (f : F) : Bool :=
  s.spawners.any (fun _ g => g = f) || s.producers.any fun _ i => i.spawnerFlowControlId = some f

def FlowControls.holds (s : FlowControls A F) (f : F) : Bool := s.producerHolds f || s.spawnerHolds f

/-- The id an operation gives a producer as its own, and the id it gives a spawner or a
producer's spawner. -/
def Op.producerId : Op A F → Option F
  | .addProducer _ f _ _ => some f
  | _ => none

def Op.spawnerId : Op A F → Option F
  | .addSpawner _ f => some f
  | .addProducer _ _ sf _ => sf
  | _ => none

/-- A run that uses an id both as a producer's own id and as a spawner id. -/
def Shared (ops : List (Op A F)) (f : F) : Prop :=
  (∃ op ∈ ops, op.producerId = some f) ∧ ∃ op ∈ ops, op.spawnerId = some f

instance (ops : List (Op A F)) (f : F) : Decidable (Shared ops f) :=
  inferInstanceAs (Decidable (_ ∧ _))

/-- The address tables of `t` are contained in those of `s`. -/
structure Within (t s : FlowControls A F) : Prop where
  producers : ∀ b i, t.producers.find? b = some i → s.producers.find? b = some i
  spawners : ∀ b g, t.spawners.find? b = some g → s.spawners.find? b = some g

variable {t : FlowControls A F} {g : F}

lemma producerHolds_iff :
    s.producerHolds f ↔ ∃ b i, s.producers.find? b = some i ∧ i.flowControlId = f := by
  simp [producerHolds, AssocMap.any_iff]

lemma spawnerHolds_iff : s.spawnerHolds f ↔ (∃ b, s.spawners.find? b = some f) ∨
    ∃ b i, s.producers.find? b = some i ∧ i.spawnerFlowControlId = some f := by
  simp [spawnerHolds, AssocMap.any_iff]

omit [DecidableEq F] in
lemma Within.trans {u : FlowControls A F} (h₁ : Within u t) (h₂ : Within t s) : Within u s :=
  ⟨fun b i hb => h₂.producers b i (h₁.producers b i hb), fun b g hb => h₂.spawners b g (h₁.spawners b g hb)⟩

lemma Within.producerHolds (h : Within t s) (ht : t.producerHolds f) : s.producerHolds f := by
  obtain ⟨b, i, hb, hi⟩ := producerHolds_iff.mp ht
  exact producerHolds_iff.mpr ⟨b, i, h.producers b i hb, hi⟩

lemma Within.spawnerHolds (h : Within t s) (ht : t.spawnerHolds f) : s.spawnerHolds f := by
  rcases spawnerHolds_iff.mp ht with ⟨b, hb⟩ | ⟨b, i, hb, hi⟩
  · exact spawnerHolds_iff.mpr (.inl ⟨b, h.spawners b f hb⟩)
  · exact spawnerHolds_iff.mpr (.inr ⟨b, i, h.producers b i hb, hi⟩)

omit [DecidableEq F] in
lemma within_of_tables (hp : t.producers = s.producers) (hs : t.spawners = s.spawners) : Within t s :=
  ⟨fun _ _ hb => hp ▸ hb, fun _ _ hb => hs ▸ hb⟩

lemma within_cleanupSpawner : Within (cleanupSpawner s a) s :=
  ⟨fun _ _ hb => by rwa [(cleanupSpawner_producers (s := s) (a := a)).1] at hb,
    fun _ _ hb => (cleanupSpawner_spawners hb).1⟩

lemma cleanupProducer_spawners : (cleanupProducer s a).spawners = s.spawners := by
  cases hs : s.producers.find? a with
  | none => rw [cleanupProducer_of_none hs]
  | some _ => exact (cleanupProducer_tables (by simp [hs])).2.2

lemma within_cleanupProducer : Within (cleanupProducer s a) s :=
  ⟨fun _ _ hb => (cleanupProducer_producers hb).1, fun _ _ hb => by rwa [cleanupProducer_spawners] at hb⟩

lemma within_cleanupAddress : Within (s.cleanupAddress a) s :=
  -- `cleanup_consumer` keeps the address tables
  have h := within_cleanupProducer.trans (within_cleanupSpawner (s := s) (a := a))
  ⟨h.producers, h.spawners⟩

/-! The routines that drop a whole consumer set keep the one of an id that passes their test. -/

omit [DecidableEq A] in
lemma cleanupProducersSpawner_consumers_find? (h : s.spawnerHolds f ∨ g ≠ f) :
    (cleanupProducersSpawner s g).consumers.find? f = s.consumers.find? f := by
  unfold cleanupProducersSpawner
  split_ifs with h₁ h₂
  · rfl
  · rfl
  · -- the set of `g` is dropped, so `g` is not `f`
    have hg : g ≠ f := by
      rintro rfl
      simp [spawnerHolds, h₁, h₂] at h
    rw [AssocMap.find?_erase, if_neg (Ne.symm hg)]

omit [DecidableEq A] in
lemma cleanupProducerId_consumers_find? (h : s.producerHolds f ∨ g ≠ f) :
    (cleanupProducerId s g).consumers.find? f = s.consumers.find? f := by
  unfold cleanupProducerId
  split_ifs with h₁
  · rfl
  · have hg : g ≠ f := by
      rintro rfl
      simp [producerHolds, h₁] at h
    rw [AssocMap.find?_erase, if_neg (Ne.symm hg)]

lemma cleanupSpawner_consumers_find?
    (h : (cleanupSpawner s a).spawnerHolds f ∨ s.spawners.find? a ≠ some f) :
    (cleanupSpawner s a).consumers.find? f = s.consumers.find? f := by
  cases hsa : s.spawners.find? a with
  | none => simp [cleanupSpawner, hsa]
  | some g =>
    simp only [cleanupSpawner, hsa] at h ⊢
    refine cleanupProducersSpawner_consumers_find? ?_
    by_cases hg : g = f
    · -- the spawner had the id: it is still held after the cleanup, so it was at the test
      subst hg
      have ht := cleanupProducersSpawner_tables (s := { s with spawners := s.spawners.erase a }) g
      exact .inl ((within_of_tables ht.1 ht.2.2).spawnerHolds (h.resolve_right (by simp)))
    · exact .inr hg

lemma cleanupProducer_consumers_find?
    (hs : (cleanupProducer s a).spawnerHolds f ∨
      ∀ i, s.producers.find? a = some i → i.spawnerFlowControlId ≠ some f)
    (hp : (cleanupProducer s a).producerHolds f ∨
      ∀ i, s.producers.find? a = some i → i.flowControlId ≠ f) :
    (cleanupProducer s a).consumers.find? f = s.consumers.find? f := by
  cases hpa : s.producers.find? a with
  | none => rw [cleanupProducer_of_none hpa]
  | some info =>
    -- every state in between has the tables of `removeProducer s a`
    have hw : ∀ t : FlowControls A F, t.producers = (removeProducer s a).producers →
        t.spawners = (removeProducer s a).spawners → Within (cleanupProducer s a) t := by
      intro t htp hts
      obtain ⟨h₁, -, h₂⟩ := cleanupProducer_tables (s := s) (a := a) (by simp [hpa])
      exact within_of_tables (h₁.trans htp.symm) (h₂.trans hts.symm)
    have hs' : (cleanupProducer s a).spawnerHolds f ∨ info.spawnerFlowControlId ≠ some f :=
      hs.imp_right fun h => h info hpa
    have hp' : (cleanupProducer s a).producerHolds f ∨ info.flowControlId ≠ f :=
      hp.imp_right fun h => h info hpa
    unfold cleanupProducer at hw hs' hp' ⊢
    rw [hpa] at hw hs' hp' ⊢
    dsimp only at hw hs' hp' ⊢
    cases hsf : info.spawnerFlowControlId with
    | none =>
      dsimp only at hw hs' hp' ⊢
      rw [cleanupProducerId_consumers_find? (hp'.imp_left ((hw _ rfl rfl).producerHolds))]
      rfl
    | some g =>
      dsimp only at hw hs' hp' ⊢
      have ht := cleanupProducersSpawner_tables (s := removeProducer s a) g
      rw [cleanupProducerId_consumers_find? (hp'.imp_left ((hw _ ht.1 ht.2.2).producerHolds)),
        cleanupProducersSpawner_consumers_find? ?_]
      · rfl
      · by_cases hg : g = f
        · subst hg
          exact .inl ((hw _ rfl rfl).spawnerHolds (hs'.resolve_right (by simp [hsf])))
        · exact .inr hg

lemma mem_removeConsumer {m : AssocMap F (Finset A)} {c : A} (hc : c ∈ (m.find? f).getD ∅)
    (hca : c ≠ a) : c ∈ ((removeConsumer m a).find? f).getD ∅ := by
  cases hm : m.find? f with
  | none => simp [hm] at hc
  | some cs =>
    rw [hm, Option.getD_some] at hc
    have hne : cs.erase a ≠ ∅ := Finset.ne_empty_of_mem (Finset.mem_erase.mpr ⟨hca, hc⟩)
    simp [removeConsumer, AssocMap.find?_retain, AssocMap.find?_mapVals, hm, Option.filter, hne, hca, hc]

lemma mem_getConsumersInfo_cleanupAddress {c : A} (hc : c ∈ s.getConsumersInfo f) (hca : c ≠ a)
    (hboth : ¬ (s.producerHolds f ∧ s.spawnerHolds f)) (hheld : (s.cleanupAddress a).holds f) :
    c ∈ (s.cleanupAddress a).getConsumersInfo f := by
  have hw₂ : Within (cleanupSpawner s a) s := within_cleanupSpawner
  have hw₅ : Within (cleanupProducer (cleanupSpawner s a) a) (cleanupSpawner s a) :=
    within_cleanupProducer
  -- `cleanup_consumer` keeps the tables, so the id is held after `cleanup_producer`
  have hheld₅ : (cleanupProducer (cleanupSpawner s a) a).holds f := hheld
  have hkeep : (cleanupProducer (cleanupSpawner s a) a).consumers.find? f = s.consumers.find? f := by
    rcases Bool.or_eq_true_iff.mp hheld₅ with hp | hs
    · -- held as a producer's own id, so never as a spawner id
      have hns : ¬ s.spawnerHolds f := fun hs => hboth ⟨(hw₅.trans hw₂).producerHolds hp, hs⟩
      rw [cleanupProducer_consumers_find? (.inr fun i hi hsi => hns ?_) (.inl hp),
        cleanupSpawner_consumers_find? (.inr fun hsa => hns (spawnerHolds_iff.mpr (.inl ⟨a, hsa⟩)))]
      exact spawnerHolds_iff.mpr (.inr ⟨a, i, hw₂.producers a i hi, hsi⟩)
    · -- held as a spawner id, so never as a producer's own id
      have hnp : ¬ s.producerHolds f := fun hp => hboth ⟨hp, (hw₅.trans hw₂).spawnerHolds hs⟩
      rw [cleanupProducer_consumers_find? (.inl hs) (.inr fun i hi hfi => hnp ?_),
        cleanupSpawner_consumers_find? (.inl (hw₅.spawnerHolds hs))]
      exact producerHolds_iff.mpr ⟨a, i, hw₂.producers a i hi, hfi⟩
  simp only [cleanupAddress, cleanupConsumer, getConsumersInfo] at hc ⊢
  rw [← hkeep] at hc
  exact mem_removeConsumer (mem_removeConsumer hc hca) hca

lemma mem_getConsumersInfo_apply {c : A} (hc : c ∈ s.getConsumersInfo f) {op : Op A F}
    (hop : op ≠ .cleanupAddress c) (hboth : ¬ (s.producerHolds f ∧ s.spawnerHolds f))
    (hheld : (op.apply s).holds f) : c ∈ (op.apply s).getConsumersInfo f := by
  cases op with
  | addConsumer a g =>
    simp only [Op.apply, addConsumer, getConsumersInfo, AssocMap.find?_insert] at hc ⊢
    split_ifs with hf
    · subst hf
      exact Finset.mem_insert_of_mem hc
    · exact hc
  | addProducer => exact hc
  | addSpawner => exact hc
  | cleanupAddress a =>
    exact mem_getConsumersInfo_cleanupAddress hc (fun h => hop (h ▸ rfl)) hboth hheld

lemma holds_apply (op : Op A F) :
    ((op.apply s).producerHolds f → s.producerHolds f ∨ op.producerId = some f) ∧
      ((op.apply s).spawnerHolds f → s.spawnerHolds f ∨ op.spawnerId = some f) := by
  cases op with
  | addConsumer => exact ⟨.inl, .inl⟩
  | addProducer a g sg adds =>
    refine ⟨fun h => ?_, fun h => ?_⟩
    · obtain ⟨b, i, hb, hi⟩ := producerHolds_iff.mp h
      simp only [Op.apply, addProducer, AssocMap.find?_insert] at hb
      split_ifs at hb
      · cases hb
        exact .inr (by simp [Op.producerId, ← hi])
      · exact .inl (producerHolds_iff.mpr ⟨b, i, hb, hi⟩)
    · rcases spawnerHolds_iff.mp h with ⟨b, hb⟩ | ⟨b, i, hb, hi⟩
      · exact .inl (spawnerHolds_iff.mpr (.inl ⟨b, hb⟩))
      · simp only [Op.apply, addProducer, AssocMap.find?_insert] at hb
        split_ifs at hb
        · cases hb
          exact .inr hi
        · exact .inl (spawnerHolds_iff.mpr (.inr ⟨b, i, hb, hi⟩))
  | addSpawner a g =>
    refine ⟨.inl, fun h => ?_⟩
    rcases spawnerHolds_iff.mp h with ⟨b, hb⟩ | ⟨b, i, hb, hi⟩
    · simp only [Op.apply, addSpawner, AssocMap.find?_insert] at hb
      split_ifs at hb
      · cases hb
        exact .inr rfl
      · exact .inl (spawnerHolds_iff.mpr (.inl ⟨b, hb⟩))
    · exact .inl (spawnerHolds_iff.mpr (.inr ⟨b, i, hb, hi⟩))
  | cleanupAddress a => exact ⟨.inl ∘ within_cleanupAddress.producerHolds,
      .inl ∘ within_cleanupAddress.spawnerHolds⟩

lemma holds_foldl : ∀ (ops : List (Op A F)) (s : FlowControls A F),
    ((ops.foldl Op.apply s).producerHolds f → s.producerHolds f ∨ ∃ op ∈ ops, op.producerId = some f) ∧
      ((ops.foldl Op.apply s).spawnerHolds f → s.spawnerHolds f ∨ ∃ op ∈ ops, op.spawnerId = some f)
  | [], _ => ⟨.inl, .inl⟩
  | op :: ops, s => by
    obtain ⟨hp, hs⟩ := holds_foldl ops (op.apply s)
    obtain ⟨hp₁, hs₁⟩ := holds_apply (s := s) (f := f) op
    refine ⟨fun h => ?_, fun h => ?_⟩
    · rcases hp h with h | ⟨o, ho, h⟩
      · exact (hp₁ h).imp_right fun h => ⟨op, List.mem_cons_self, h⟩
      · exact .inr ⟨o, List.mem_cons_of_mem op ho, h⟩
    · rcases hs h with h | ⟨o, ho, h⟩
      · exact (hs₁ h).imp_right fun h => ⟨op, List.mem_cons_self, h⟩
      · exact .inr ⟨o, List.mem_cons_of_mem op ho, h⟩

lemma not_both_run {ops ops' : List (Op A F)} (hns : ¬ Shared ops f) (hsub : ∀ op ∈ ops', op ∈ ops) :
    ¬ ((run ops').producerHolds f ∧ (run ops').spawnerHolds f) := by
  rintro ⟨hp, hs⟩
  have hnew : ¬ (FlowControls.new : FlowControls A F).producerHolds f ∧
      ¬ (FlowControls.new : FlowControls A F).spawnerHolds f := by
    simp [producerHolds, spawnerHolds, new, AssocMap.any, AssocMap.empty]
  obtain ⟨o₁, ho₁, h₁⟩ := ((holds_foldl ops' new).1 hp).resolve_left hnew.1
  obtain ⟨o₂, ho₂, h₂⟩ := ((holds_foldl ops' new).2 hs).resolve_left hnew.2
  exact hns ⟨⟨o₁, hsub o₁ ho₁, h₁⟩, ⟨o₂, hsub o₂ ho₂, h₂⟩⟩

lemma mem_getConsumersInfo_foldl {c : A} : ∀ (post : List (Op A F)) (s : FlowControls A F),
    c ∈ s.getConsumersInfo f → .cleanupAddress c ∉ post →
    (∀ k, ¬ (((post.take k).foldl Op.apply s).producerHolds f ∧
      ((post.take k).foldl Op.apply s).spawnerHolds f)) →
    (∀ k, 0 < k → k ≤ post.length → ((post.take k).foldl Op.apply s).holds f) →
    c ∈ (post.foldl Op.apply s).getConsumersInfo f
  | [], _, hc, _, _, _ => hc
  | op :: post, s, hc, hcl, hboth, hheld => by
    have h₁ : c ∈ (op.apply s).getConsumersInfo f :=
      mem_getConsumersInfo_apply hc (fun h => hcl (h ▸ List.mem_cons_self))
        (by simpa using hboth 0) (by simpa using hheld 1 (by omega) (by simp))
    exact mem_getConsumersInfo_foldl post (op.apply s) h₁ (fun h => hcl (List.mem_cons_of_mem op h))
      (fun k => by simpa using hboth (k + 1))
      (fun k hk hkl => by simpa using hheld (k + 1) (by omega) (by simp; omega))

end Ockam.FlowControl
