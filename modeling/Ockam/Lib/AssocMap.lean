import Mathlib

/-! A finite map as a list of bindings with distinct keys, the shape of a `BTreeMap` or a
`HashMap` that a program reads by key, iterates over, and filters. -/

structure AssocMap (κ ν : Type) where
  entries : List (κ × ν)
  nodup : (entries.map Prod.fst).Nodup

namespace AssocMap

variable {κ ν : Type}

def empty : AssocMap κ ν := ⟨[], List.nodup_nil⟩

lemma nodup_filter (m : AssocMap κ ν) (p : κ × ν → Bool) : ((m.entries.filter p).map Prod.fst).Nodup :=
  m.nodup.sublist ((List.filter_sublist).map _)

variable [DecidableEq κ]

def find? (m : AssocMap κ ν) (k : κ) : Option ν := (m.entries.find? (·.1 = k)).map Prod.snd

def contains (m : AssocMap κ ν) (k : κ) : Bool := (m.find? k).isSome

def erase (m : AssocMap κ ν) (k : κ) : AssocMap κ ν :=
  ⟨m.entries.filter (·.1 ≠ k), nodup_filter m _⟩

def insert (m : AssocMap κ ν) (k : κ) (v : ν) : AssocMap κ ν :=
  ⟨(k, v) :: (m.erase k).entries, by
    refine List.nodup_cons.mpr ⟨?_, (m.erase k).nodup⟩
    simp [erase]⟩

/-- `retain`: the bindings the predicate keeps. -/
def retain (m : AssocMap κ ν) (p : κ → ν → Bool) : AssocMap κ ν :=
  ⟨m.entries.filter (fun e => p e.1 e.2), nodup_filter m _⟩

def mapVals (m : AssocMap κ ν) (f : κ → ν → ν) : AssocMap κ ν :=
  ⟨m.entries.map (fun e => (e.1, f e.1 e.2)), by simpa [Function.comp_def] using m.nodup⟩

def any (m : AssocMap κ ν) (p : κ → ν → Bool) : Bool := m.entries.any (fun e => p e.1 e.2)

variable {m : AssocMap κ ν} {k k' : κ} {v : ν}

lemma find?_eq_some_iff : m.find? k = some v ↔ (k, v) ∈ m.entries := by
  obtain ⟨es, hnd⟩ := m
  simp only [find?]
  induction es with
  | nil => simp
  | cons e es ih =>
    obtain ⟨k₀, v₀⟩ := e
    simp only [List.map_cons, List.nodup_cons, List.mem_map] at hnd
    by_cases hk : k₀ = k
    · subst hk
      have hnot : ∀ w, (k₀, w) ∉ es := fun w hw => hnd.1 ⟨(k₀, w), hw, rfl⟩
      simp only [List.find?_cons, decide_true, Option.map_some, Option.some.injEq, List.mem_cons,
        Prod.mk.injEq, true_and]
      constructor
      · rintro rfl; exact .inl rfl
      · rintro (h | h)
        · exact h.symm
        · exact absurd h (hnot v)
    · simp only [List.find?_cons, hk, decide_false, ih hnd.2, List.mem_cons, Prod.mk.injEq,
        iff_or_self, and_imp]
      intro h
      exact absurd h.symm hk

@[simp] lemma find?_empty : (empty : AssocMap κ ν).find? k = none := rfl

lemma find?_erase : (m.erase k').find? k = if k = k' then none else m.find? k := by
  apply Option.ext
  intro w
  split_ifs with h
  · subst h
    simp [find?_eq_some_iff, erase]
  · simp [find?_eq_some_iff, erase, h]

lemma find?_of_find?_erase (h : (m.erase k').find? k = some v) : m.find? k = some v := by
  rw [find?_erase] at h
  split_ifs at h
  exact h

lemma find?_insert : (m.insert k' v).find? k = if k = k' then some v else m.find? k := by
  split_ifs with h
  · subst h
    simp [find?, insert]
  · have hk : ¬ k' = k := fun e => h e.symm
    simp only [find?, insert, List.find?_cons, hk, decide_false]
    exact congrArg _ rfl |>.trans (by rw [← find?, ← find?, find?_erase, if_neg h])

lemma find?_retain (p : κ → ν → Bool) : (m.retain p).find? k = (m.find? k).filter (p k) := by
  apply Option.ext
  intro w
  simp only [Option.filter_eq_some_iff, find?_eq_some_iff, retain, List.mem_filter]

lemma find?_mapVals (f : κ → ν → ν) : (m.mapVals f).find? k = (m.find? k).map (f k) := by
  apply Option.ext
  intro w
  simp only [find?_eq_some_iff, mapVals, List.mem_map, Option.map_eq_some_iff, Prod.mk.injEq]
  constructor
  · rintro ⟨⟨k₀, v₀⟩, hmem, rfl, rfl⟩
    exact ⟨v₀, hmem, rfl⟩
  · rintro ⟨v₀, hmem, rfl⟩
    exact ⟨(k, v₀), hmem, rfl, rfl⟩

lemma find?_foldl_insert (v : ν) :
    ∀ (ks : List κ) (m : AssocMap κ ν), (ks.foldl (fun m a => m.insert a v) m).find? k =
      if k ∈ ks then some v else m.find? k
  | [], m => by simp
  | a :: ks, m => by
    rw [List.foldl_cons, find?_foldl_insert v ks, find?_insert]
    by_cases hk : k ∈ ks
    · simp [hk]
    · by_cases ha : k = a <;> simp [hk, ha]

lemma find?_foldl_erase :
    ∀ (ks : List κ) (m : AssocMap κ ν), (ks.foldl (fun m a => m.erase a) m).find? k =
      if k ∈ ks then none else m.find? k
  | [], m => by simp
  | a :: ks, m => by
    rw [List.foldl_cons, find?_foldl_erase ks, find?_erase]
    by_cases hk : k ∈ ks
    · simp [hk]
    · by_cases ha : k = a <;> simp [hk, ha]

lemma any_iff (p : κ → ν → Bool) : m.any p = true ↔ ∃ k v, m.find? k = some v ∧ p k v = true := by
  simp [any, find?_eq_some_iff]

lemma length_erase_lt (h : m.find? k = some v) : (m.erase k).entries.length < m.entries.length := by
  apply List.length_filter_lt_length_iff_exists.mpr
  exact ⟨(k, v), find?_eq_some_iff.mp h, by simp⟩

lemma entries_eq_nil : m.entries = [] ↔ ∀ k, m.find? k = none := by
  constructor
  · intro h k
    simp [find?, h]
  · intro h
    cases hes : m.entries with
    | nil => rfl
    | cons e es =>
      have := find?_eq_some_iff.mpr (hes ▸ List.mem_cons_self : (e.1, e.2) ∈ m.entries)
      rw [h e.1] at this
      cases this

end AssocMap
