import Ockam.Identity.Creation

/-! What `Identity::compare` decides, on the change hashes of two histories, and the invariant
of the repository under the calls of `IdentitiesCreation`: every stored history imports back
under its identifier, and the history stored for an identifier only grows by extension. -/

namespace Ockam.Identities

variable {C H K : Type}

section Compare

variable [DecidableEq H]

/-- The comparison of two histories by their change hashes: the same, a strict prefix, a strict
extension, or neither. -/
def compareHashes (l known : List H) : IdentityHistoryComparison :=
  if l = known then .equal
  else if l <+: known then .older
  else if known <+: l then .newer
  else .conflict

lemma zip_any_ne_eq_false_iff :
    ∀ l₁ l₂ : List H, ((l₁.zip l₂).any fun p => p.1 ≠ p.2) = false ↔ l₁ <+: l₂ ∨ l₂ <+: l₁
  | [], l₂ => by simp
  | a :: l₁, [] => by simp
  | a :: l₁, b :: l₂ => by
    simp only [List.zip_cons_cons, List.any_cons, Bool.or_eq_false_iff, List.cons_prefix_cons,
      zip_any_ne_eq_false_iff l₁ l₂]
    by_cases hab : a = b <;> simp [hab, eq_comm]

lemma compareHashes_of_incomparable {l₁ l₂ : List H} (hp : ¬ (l₁ <+: l₂ ∨ l₂ <+: l₁)) :
    compareHashes l₁ l₂ = .conflict := by
  have hne : l₁ ≠ l₂ := fun h => hp (.inl (h ▸ List.prefix_refl l₁))
  simp only [compareHashes, hne, if_false]
  simp only [not_or] at hp
  simp [hp.1, hp.2]

lemma compareHashes_of_comparable {l₁ l₂ : List H} (hp : l₁ <+: l₂ ∨ l₂ <+: l₁) :
    compareHashes l₁ l₂ = match Ord.compare l₁.length l₂.length with
      | .lt => .older
      | .eq => .equal
      | .gt => .newer := by
  rcases Nat.lt_trichotomy l₁.length l₂.length with hl | hl | hl
  · have h₁ : l₁ <+: l₂ := hp.resolve_right fun h => by have := h.length_le; omega
    have hne : l₁ ≠ l₂ := by rintro rfl; omega
    simp [compareHashes, Nat.compare_eq_lt.mpr hl, hne, h₁]
  · have heq : l₁ = l₂ := hp.elim (fun h => h.eq_of_length hl) fun h => (h.eq_of_length hl.symm).symm
    simp [compareHashes, heq]
  · have h₂ : l₂ <+: l₁ := hp.resolve_left fun h => by have := h.length_le; omega
    have h₁ : ¬ l₁ <+: l₂ := fun h => by have := h.length_le; omega
    have hne : l₁ ≠ l₂ := by rintro rfl; omega
    simp [compareHashes, Nat.compare_eq_gt.mpr hl, hne, h₁, h₂]

end Compare

namespace Identity

variable {V : Verifier C H K}

lemma changeHashes_eq (i : Identity V) : i.changeHashes = i.changeHistory.map V.changeHash := by
  simp [changeHashes, i.changes_eq, Verifier.changeHash]

lemma ext_changeHistory {i j : Identity V} (h : i.changeHistory = j.changeHistory) : i = j := by
  obtain ⟨id₁, cs₁, h₁, hc₁, hi₁, _⟩ := i
  obtain ⟨id₂, cs₂, h₂, hc₂, hi₂, _⟩ := j
  simp only at h
  subst h hc₁ hc₂
  rw [hi₁] at hi₂
  cases hi₂
  rfl

lemma head?_changeHistory (i : Identity V) :
    i.changeHistory.head?.map V.changeHash = some i.identifier := by
  rw [← i.identifier_eq, i.changes_eq, List.head?_map, Option.map_map]
  rfl

variable [DecidableEq H]

lemma compare_eq_compareHashes (i k : Identity V) :
    i.compare k = compareHashes i.changeHashes k.changeHashes := by
  have hany : ((i.changes.zip k.changes).any fun p => p.1.changeHash ≠ p.2.changeHash) =
      ((i.changeHashes.zip k.changeHashes).any fun p => p.1 ≠ p.2) := by
    simp [changeHashes, List.zip_map, List.any_map, Function.comp_def]
  have hlen : ∀ j : Identity V, j.changes.length = j.changeHashes.length := by simp [changeHashes]
  unfold compare
  rw [hany, hlen i, hlen k]
  cases hz : (i.changeHashes.zip k.changeHashes).any fun p => p.1 ≠ p.2 with
  | true =>
    have hp : ¬ (i.changeHashes <+: k.changeHashes ∨ k.changeHashes <+: i.changeHashes) := by
      rw [← zip_any_ne_eq_false_iff, hz]
      simp
    rw [compareHashes_of_incomparable hp]
    rfl
  | false =>
    rw [compareHashes_of_comparable ((zip_any_ne_eq_false_iff _ _).mp hz)]
    rfl

lemma importFromChangeHistory_self (i : Identity V) {expected : Option H}
    (he : ∀ e ∈ expected, e = i.identifier) :
    importFromChangeHistory expected i.changeHistory = .ok i := by
  have hhead := i.identifier_eq
  rw [i.changes_eq] at hhead
  unfold importFromChangeHistory
  split
  · rename_i hv
    rw [i.verified] at hv
    cases hv
  · split
    · rename_i hc
      rw [hc] at hhead
      cases hhead
    · rename_i first _ hc
      rw [hc] at hhead
      have hfirst : first.changeHash = i.identifier := Option.some_injective _ hhead
      have hnot : expected.any (fun e => first.changeHash ≠ e) = false := by
        cases expected with
        | none => rfl
        | some e => simp [hfirst, he e rfl]
      rw [if_neg (by rw [hnot]; exact Bool.false_ne_true)]
      exact congrArg Except.ok (ext_changeHistory rfl)

lemma importFromChangeHistory_eq_ok {expected : Option H} {h : List C} {i : Identity V}
    (hi : importFromChangeHistory expected h = .ok i) :
    i.changeHistory = h ∧ ∀ e ∈ expected, i.identifier = e := by
  unfold importFromChangeHistory at hi
  split at hi
  · cases hi
  · split at hi
    · cases hi
    · split_ifs at hi with hany
      cases hi
      refine ⟨rfl, fun e he => ?_⟩
      cases he
      simpa using hany

lemma importFromChangeHistory_isOk_iff {expected : Option H} {h : List C} :
    (∃ i : Identity V, importFromChangeHistory expected h = .ok i) ↔
      V.verifyChanges h = .ok () ∧ h ≠ [] ∧ ∀ e ∈ expected, h.head?.map V.changeHash = some e := by
  unfold importFromChangeHistory
  split
  · rename_i e hv
    simp [hv]
  · rename_i hv
    split
    · rename_i hc
      simp [List.map_eq_nil_iff.mp hc]
    · rename_i first rest hc
      obtain ⟨c, cs, rfl, hfirst, -⟩ := List.map_eq_cons_iff.mp hc
      have hhash : (c :: cs).head?.map V.changeHash = some first.changeHash := by
        simp [Verifier.changeHash, hfirst]
      rw [hhash]
      cases expected with
      | none => simp [hv]
      | some e =>
        by_cases he : first.changeHash = e
        · simp [he, hv]
        · simp [he]

lemma addChange_eq_ok {i j : Identity V} {c : C} (h : i.addChange c = .ok j) :
    j.changeHistory = i.changeHistory ++ [c] ∧ j.identifier = i.identifier := by
  obtain ⟨hj, -⟩ := importFromChangeHistory_eq_ok h
  refine ⟨hj, ?_⟩
  have h₁ := j.head?_changeHistory
  have h₂ := i.head?_changeHistory
  rw [hj] at h₁
  cases hc : i.changeHistory with
  | nil => rw [hc] at h₂; cases h₂
  | cons c₀ cs =>
    rw [hc] at h₁ h₂
    exact Option.some_injective _ (h₁.symm.trans h₂)

end Identity

variable (V : Verifier C H K)

/-- Every stored history is the history of an identity with the identifier it is stored under. -/
def Stored (r : Repo C H) : Prop :=
  ∀ id h, r id = some h → ∃ i : Identity V, i.identifier = id ∧ i.changeHistory = h

/-- From `r` to `r'` no history was dropped, and each stored history kept its change hashes as
a prefix. -/
def Extends (r r' : Repo C H) : Prop :=
  ∀ id h, r id = some h → ∃ h', r' id = some h' ∧ h.map V.changeHash <+: h'.map V.changeHash

variable {V}

lemma stored_empty : Stored V (Repo.empty : Repo C H) := by
  intro id h hh
  cases hh

lemma Extends.refl (r : Repo C H) : Extends V r r :=
  fun _ h hh => ⟨h, hh, List.prefix_refl _⟩

lemma Extends.trans {r₁ r₂ r₃ : Repo C H} (h₁₂ : Extends V r₁ r₂) (h₂₃ : Extends V r₂ r₃) :
    Extends V r₁ r₃ := by
  intro id h hh
  obtain ⟨h', hh', hp⟩ := h₁₂ id h hh
  obtain ⟨h'', hh'', hp'⟩ := h₂₃ id h' hh'
  exact ⟨h'', hh'', hp.trans hp'⟩

variable [DecidableEq H]

lemma Stored.update {r : Repo C H} (hr : Stored V r) (i : Identity V) :
    Stored V (Function.update r i.identifier (some i.changeHistory)) := by
  intro id h hh
  by_cases hid : id = i.identifier
  · subst hid
    rw [Function.update_self] at hh
    exact ⟨i, rfl, Option.some_injective _ hh⟩
  · rw [Function.update_of_ne hid] at hh
    exact hr id h hh

lemma extends_update {r : Repo C H} {id : H} {h' : List C}
    (hp : ∀ h, r id = some h → h.map V.changeHash <+: h'.map V.changeHash) :
    Extends V r (Function.update r id (some h')) := by
  intro id₀ h hh
  by_cases hid : id₀ = id
  · subst hid
    exact ⟨h', Function.update_self .., hp h hh⟩
  · exact ⟨h, by rw [Function.update_of_ne hid, hh], List.prefix_refl _⟩

/-! The repository calls. -/

section Repository

variable (r : Repo C H)

omit [DecidableEq H] in
@[simp] lemma retrieveIdentity_apply (id : H) :
    Repository.retrieveIdentity id r = .ok (r id) r := rfl

@[simp] lemma repositoryUpdateIdentity_apply (id : H) (h : List C) :
    Repository.updateIdentity id h r = .ok () (Function.update r id (some h)) := rfl

omit [DecidableEq H] in
lemma getIdentity_apply (id : H) :
    Repository.getIdentity id r = match r id with
      | some h => .ok h r
      | none => .error (.message "identity not found") r := by
  simp only [Repository.getIdentity, EStateM.bind_apply, retrieveIdentity_apply]
  cases r id <;> rfl

end Repository

/-! `update_identity`, from a repository that keeps the invariant. -/

section UpdateIdentity

variable {r : Repo C H} (hr : Stored V r) (i : Identity V)
include hr

lemma Stored.known {h : List C} (hh : r i.identifier = some h) :
    ∃ k : Identity V, Identity.importFromChangeHistory (some i.identifier) h = .ok k ∧
      k.changeHashes = h.map V.changeHash := by
  obtain ⟨k, hk, rfl⟩ := hr _ h hh
  refine ⟨k, Identity.importFromChangeHistory_self k ?_, k.changeHashes_eq⟩
  rintro e ⟨⟩
  exact hk.symm

lemma updateIdentity_of_some {h : List C} (hh : r i.identifier = some h) :
    IdentitiesCreation.updateIdentity i r =
      match compareHashes i.changeHashes (h.map V.changeHash) with
      | .conflict | .older => .error (.identity .consistencyError) r
      | .newer => .ok () (Function.update r i.identifier (some i.changeHistory))
      | .equal => .ok () r := by
  obtain ⟨k, hk, hkh⟩ := hr.known i hh
  simp only [IdentitiesCreation.updateIdentity, EStateM.bind_apply, retrieveIdentity_apply, hh,
    hk, EStateM.ofExcept_ok, Identity.compare_eq_compareHashes, hkh]
  cases compareHashes i.changeHashes (h.map V.changeHash) <;> rfl

omit hr in
lemma updateIdentity_of_none (hh : r i.identifier = none) :
    IdentitiesCreation.updateIdentity i r =
      .ok () (Function.update r i.identifier (some i.changeHistory)) := by
  simp [IdentitiesCreation.updateIdentity, hh]

lemma updateIdentity_of_not_prefix {h : List C} (hh : r i.identifier = some h)
    (hp : ¬ h.map V.changeHash <+: i.changeHashes) :
    IdentitiesCreation.updateIdentity i r = .error (.identity .consistencyError) r := by
  rw [updateIdentity_of_some hr i hh]
  have hne : i.changeHashes ≠ h.map V.changeHash := fun he => hp (he ▸ List.prefix_refl _)
  simp only [compareHashes, hne, if_false]
  split_ifs <;> rfl

lemma updateIdentity_keeps :
    Stored V (IdentitiesCreation.updateIdentity i r).state ∧
      Extends V r (IdentitiesCreation.updateIdentity i r).state := by
  cases hh : r i.identifier with
  | none =>
    rw [updateIdentity_of_none i hh]
    exact ⟨hr.update i, extends_update fun h h' => by rw [hh] at h'; cases h'⟩
  | some h =>
    rw [updateIdentity_of_some hr i hh]
    -- only a newer history is written, and it extends the stored one
    cases hc : compareHashes i.changeHashes (h.map V.changeHash) with
    | conflict | older | equal => exact ⟨hr, Extends.refl r⟩
    | newer =>
      refine ⟨hr.update i, extends_update fun h₀ h₀' => ?_⟩
      rw [hh] at h₀'
      cases h₀'
      have hp : h.map V.changeHash <+: i.changeHashes := by
        unfold compareHashes at hc
        split_ifs at hc with h₁ h₂ h₃
        exact h₃
      rwa [← i.changeHashes_eq]

lemma updateIdentity_eq_ok {r' : Repo C H} {u : Unit}
    (hu : IdentitiesCreation.updateIdentity i r = .ok u r') :
    ∃ h, r' i.identifier = some h ∧ h.map V.changeHash = i.changeHashes := by
  cases hh : r i.identifier with
  | none =>
    rw [updateIdentity_of_none i hh] at hu
    cases hu
    exact ⟨_, Function.update_self .., i.changeHashes_eq.symm⟩
  | some h =>
    rw [updateIdentity_of_some hr i hh] at hu
    cases hc : compareHashes i.changeHashes (h.map V.changeHash) <;> rw [hc] at hu <;> cases hu
    · exact ⟨h, hh, by unfold compareHashes at hc; split_ifs at hc with h₁; exact h₁.symm⟩
    · exact ⟨_, Function.update_self .., i.changeHashes_eq.symm⟩

end UpdateIdentity

/-! Every call, whether it fails or not, keeps the invariant and extends every stored history. -/

section Calls

/-- `x`, run from `r`, keeps the invariant and extends every stored history. -/
abbrev KeepsRepo {α : Type} (x : EStateM Error (Repo C H) α) (r : Repo C H) : Prop :=
  EStateM.Keeps (Stored V) (Extends V) x r

omit [DecidableEq H] in
lemma keepsRepo_bind {α β : Type} {x : EStateM Error (Repo C H) α}
    {f : α → EStateM Error (Repo C H) β} {r : Repo C H} (hx : KeepsRepo (V := V) x r)
    (hf : ∀ a r', Stored V r → x r = .ok a r' → KeepsRepo (V := V) (f a) r') :
    KeepsRepo (V := V) (x >>= f) r :=
  EStateM.keeps_bind (fun _ _ _ => Extends.trans) hx hf

omit [DecidableEq H] in
lemma keepsRepo_ofExcept {α : Type} (e : Except Error α) (r : Repo C H) :
    KeepsRepo (V := V) (EStateM.ofExcept e) r :=
  EStateM.keeps_ofExcept Extends.refl e r

omit [DecidableEq H] in
lemma keepsRepo_pure {α : Type} (a : α) (r : Repo C H) : KeepsRepo (V := V) (pure a) r :=
  EStateM.keeps_of_state Extends.refl rfl

lemma keepsRepo_updateIdentity (i : Identity V) (r : Repo C H) :
    KeepsRepo (V := V) (IdentitiesCreation.updateIdentity i) r :=
  fun hr => updateIdentity_keeps hr i

lemma keepsRepo_importFromChangeHistory (expected : Option H) (h : List C) (r : Repo C H) :
    KeepsRepo (V := V) (IdentitiesCreation.importFromChangeHistory (V := V) expected h) r :=
  keepsRepo_bind (keepsRepo_ofExcept _ r) fun i r₁ _ _ =>
    keepsRepo_bind (keepsRepo_updateIdentity i r₁) fun _ r₂ _ _ => keepsRepo_pure i r₂

lemma keepsRepo_import (expected : Option H) (data : Bytes) (r : Repo C H) :
    KeepsRepo (V := V) (IdentitiesCreation.«import» V expected data) r :=
  keepsRepo_bind (keepsRepo_ofExcept _ r) fun i r₁ _ _ =>
    keepsRepo_bind (keepsRepo_updateIdentity i r₁) fun _ r₂ _ _ => keepsRepo_pure i r₂

omit [DecidableEq H] in
lemma ofExcept_eq_ok {α : Type} {e : Except Error α} {a : α} {r r' : Repo C H}
    (h : (EStateM.ofExcept e : EStateM Error (Repo C H) α) r = .ok a r') : e = .ok a ∧ r' = r := by
  cases e with
  | error e => cases h
  | ok b =>
    cases h
    exact ⟨rfl, rfl⟩

omit [DecidableEq H] in
lemma getIdentity_eq_ok {id : H} {h : List C} {r r' : Repo C H}
    (hg : Repository.getIdentity id r = .ok h r') : r id = some h ∧ r' = r := by
  rw [getIdentity_apply] at hg
  cases hr : r id with
  | none => rw [hr] at hg; cases hg
  | some h₀ =>
    rw [hr] at hg
    cases hg
    exact ⟨rfl, rfl⟩

lemma rotateKeyWithOptions_eq_ok {makeChange : VerifiedChange H K → Except Error C}
    {i j : Identity V} (h : rotateKeyWithOptions makeChange i = .ok j) :
    ∃ c, j.changeHistory = i.changeHistory ++ [c] ∧ j.identifier = i.identifier := by
  unfold rotateKeyWithOptions at h
  cases hl : i.changes.getLast? with
  | none => simp [hl] at h
  | some last =>
    cases hc : makeChange last with
    | error e => simp [hl, hc, bind, Except.bind] at h
    | ok c =>
      simp only [hl, hc, bind, Except.bind] at h
      exact ⟨c, Identity.addChange_eq_ok h⟩

lemma keepsRepo_rotateIdentityWithOptions (id : H) (makeChange : VerifiedChange H K → Except Error C)
    (r : Repo C H) : KeepsRepo (V := V) (IdentitiesCreation.rotateIdentityWithOptions V id makeChange) r := by
  refine keepsRepo_bind (EStateM.keeps_of_state Extends.refl ?_) fun h r₁ _ hg => ?_
  · rw [getIdentity_apply]
    cases r id <;> rfl
  obtain ⟨hh, hr₁⟩ := getIdentity_eq_ok hg
  subst r₁
  refine keepsRepo_bind (keepsRepo_ofExcept _ r) fun k r₂ _ hk => ?_
  obtain ⟨hk₁, hr₂⟩ := ofExcept_eq_ok hk
  subst r₂
  refine keepsRepo_bind (keepsRepo_ofExcept _ r) fun j r₃ _ hj => ?_
  obtain ⟨hj₁, hr₃⟩ := ofExcept_eq_ok hj
  subst r₃
  obtain ⟨hkh, hkid⟩ := Identity.importFromChangeHistory_eq_ok hk₁
  obtain ⟨c, hjh, hjid⟩ := rotateKeyWithOptions_eq_ok hj₁
  intro hr
  rw [repositoryUpdateIdentity_apply]
  refine ⟨hr.update j, extends_update fun h₀ h₀' => ?_⟩
  -- the identifier is the one read: the new history is the stored one and the new change
  rw [hjid, hkid id rfl, hh] at h₀'
  cases h₀'
  rw [hjh, hkh, List.map_append]
  exact List.prefix_append _ _

lemma import_eq_ok {expected : Option H} {data : Bytes} {r r₁ : Repo C H} {i : Identity V}
    (hr : Stored V r) (hi : IdentitiesCreation.«import» V expected data r = .ok i r₁) :
    ∃ h, r₁ i.identifier = some h ∧ h.map V.changeHash = i.changeHashes := by
  cases he : Identity.import V expected data with
  | error e => simp [IdentitiesCreation.«import», he] at hi
  | ok i' =>
    cases hu : IdentitiesCreation.updateIdentity i' r with
    | error e r' => simp [IdentitiesCreation.«import», he, hu] at hi
    | ok u r' =>
      simp only [IdentitiesCreation.«import», EStateM.bind_apply, he, EStateM.ofExcept_ok, hu,
        EStateM.pure_apply, EStateM.Result.ok.injEq] at hi
      obtain ⟨hi, hr'⟩ := hi
      subst i r'
      exact updateIdentity_eq_ok hr i' hu

variable [DecidableEq K]

lemma keepsRepo_importPrivateIdentity (data : Bytes) (key : Except Error K) (r : Repo C H) :
    KeepsRepo (V := V) (IdentitiesCreation.importPrivateIdentity V data key) r := by
  refine keepsRepo_bind (keepsRepo_import none data r) fun i r₁ hr hi => ?_
  -- after `update_identity`, the history stored for `i` has `i`'s change hashes
  obtain ⟨h₁, hh₁, hp₁⟩ := import_eq_ok hr hi
  refine keepsRepo_bind (keepsRepo_ofExcept _ r₁) fun latest r₂ _ hl => ?_
  obtain ⟨-, hr₂⟩ := ofExcept_eq_ok hl
  subst r₂
  refine keepsRepo_bind (keepsRepo_ofExcept _ r₁) fun k r₃ _ hk => ?_
  obtain ⟨-, hr₃⟩ := ofExcept_eq_ok hk
  subst r₃
  dsimp only
  split_ifs with hne
  · -- a wrong key fails after `update_identity` has written
    exact EStateM.keeps_of_state Extends.refl rfl
  refine keepsRepo_bind ?_ fun _ r₅ _ _ => keepsRepo_pure i r₅
  intro hr₁
  rw [repositoryUpdateIdentity_apply]
  refine ⟨hr₁.update i, extends_update fun h₀ h₀' => ?_⟩
  rw [hh₁] at h₀'
  cases h₀'
  rw [hp₁, ← i.changeHashes_eq]

lemma Call.apply_keeps (call : Call V) (r : Repo C H) : KeepsRepo (V := V) call.apply r := by
  cases call with
  | updateIdentity i => exact keepsRepo_updateIdentity i r
  | «import» e d => exact EStateM.keeps_discard (keepsRepo_import e d r)
  | importFromChangeHistory e h => exact EStateM.keeps_discard (keepsRepo_importFromChangeHistory e h r)
  | rotateIdentity id mk => exact keepsRepo_rotateIdentityWithOptions id mk r
  | importPrivateIdentity d k => exact EStateM.keeps_discard (keepsRepo_importPrivateIdentity d k r)

lemma run_append (calls₁ calls₂ : List (Call V)) (r : Repo C H) :
    run (calls₁ ++ calls₂) r = run calls₂ (run calls₁ r) :=
  List.foldl_append

lemma run_keeps : ∀ (calls : List (Call V)) (r : Repo C H), Stored V r →
    Stored V (run calls r) ∧ Extends V r (run calls r)
  | [], r, hr => ⟨hr, Extends.refl r⟩
  | call :: calls, r, hr => by
    obtain ⟨h₁, e₁⟩ := call.apply_keeps r hr
    obtain ⟨h₂, e₂⟩ := run_keeps calls _ h₁
    exact ⟨h₂, e₁.trans e₂⟩

end Calls

/-! A call that presents an older or a conflicting history fails, and writes nothing. -/

section Refusal

variable [DecidableEq K]

/-- The identity a call hands to `update_identity`, once its history is verified. -/
def Call.Presents : Call V → Identity V → Prop
  | .updateIdentity i, j => i = j
  | .«import» expected data, j => Identity.import V expected data = .ok j
  | .importFromChangeHistory expected h, j => Identity.importFromChangeHistory expected h = .ok j
  | .rotateIdentity _ _, _ => False
  | .importPrivateIdentity data _, j => Identity.import V none data = .ok j

variable {r : Repo C H} {i : Identity V} {h : List C}

omit [DecidableEq K] in
lemma import_of_not_prefix {expected : Option H} {data : Bytes} (hr : Stored V r)
    (hi : Identity.import V expected data = .ok i) (hh : r i.identifier = some h)
    (hn : ¬ h.map V.changeHash <+: i.changeHashes) :
    IdentitiesCreation.«import» V expected data r = .error (.identity .consistencyError) r := by
  simp [IdentitiesCreation.«import», hi, updateIdentity_of_not_prefix hr i hh hn]

lemma Call.apply_of_not_prefix (call : Call V) (hr : Stored V r) (hp : call.Presents i)
    (hh : r i.identifier = some h) (hn : ¬ h.map V.changeHash <+: i.changeHashes) :
    call.apply r = .error (.identity .consistencyError) r := by
  have hu := updateIdentity_of_not_prefix hr i hh hn
  cases call with
  | updateIdentity j =>
    cases hp
    exact hu
  | «import» expected data =>
    simp [Call.apply, import_of_not_prefix hr hp hh hn, discard, Functor.mapConst, EStateM.map]
  | importFromChangeHistory expected h' =>
    have hi : Identity.importFromChangeHistory expected h' = .ok i := hp
    simp [Call.apply, IdentitiesCreation.importFromChangeHistory, hi, hu, discard,
      Functor.mapConst, EStateM.map]
  | rotateIdentity _ _ => cases hp
  | importPrivateIdentity data key =>
    simp [Call.apply, IdentitiesCreation.importPrivateIdentity, import_of_not_prefix hr hp hh hn,
      discard, Functor.mapConst, EStateM.map]

end Refusal

/-- Over every sequence of calls from the empty repository, the history stored for each
identifier only grows by extension of its change hashes; a call presenting a history that the
stored one does not prefix (an older or a conflicting one) fails with `ConsistencyError` and
writes nothing; and `compare` decides exactly how the change hashes of two histories relate. -/
theorem identity_history_only_extends [DecidableEq K] :
    (∀ calls₁ calls₂ : List (Call V),
      Extends V (run calls₁ Repo.empty) (run (calls₁ ++ calls₂) Repo.empty)) ∧
    (∀ (calls : List (Call V)) (call : Call V) (i : Identity V) (h : List C),
      call.Presents i → run calls Repo.empty i.identifier = some h →
      ¬ h.map V.changeHash <+: i.changeHashes →
      call.apply (run calls Repo.empty) =
        .error (.identity .consistencyError) (run calls Repo.empty)) ∧
    (∀ a b : Identity V,
      (a.compare b = .equal ↔ a.changeHashes = b.changeHashes) ∧
      (a.compare b = .older ↔ a.changeHashes <+: b.changeHashes ∧ a.changeHashes ≠ b.changeHashes) ∧
      (a.compare b = .newer ↔ b.changeHashes <+: a.changeHashes ∧ a.changeHashes ≠ b.changeHashes) ∧
      (a.compare b = .conflict ↔
        ¬ a.changeHashes <+: b.changeHashes ∧ ¬ b.changeHashes <+: a.changeHashes)) := by
  refine ⟨fun calls₁ calls₂ => ?_, fun calls call i h hp hh hn => ?_, fun a b => ?_⟩
  · have hr := (run_keeps calls₁ Repo.empty stored_empty).1
    rw [run_append]
    exact (run_keeps calls₂ _ hr).2
  · exact call.apply_of_not_prefix (run_keeps calls Repo.empty stored_empty).1 hp hh hn
  · rw [Identity.compare_eq_compareHashes]
    unfold compareHashes
    by_cases heq : a.changeHashes = b.changeHashes
    · simp [heq]
    · by_cases hab : a.changeHashes <+: b.changeHashes
      · -- two histories each a prefix of the other are the same
        have hba : ¬ b.changeHashes <+: a.changeHashes := fun hba =>
          heq (hab.eq_of_length (le_antisymm hab.length_le hba.length_le))
        simp [heq, hab, hba]
      · by_cases hba : b.changeHashes <+: a.changeHashes
        · simp [heq, hab, hba]
        · simp [heq, hab, hba]

/-- Changes that are their own hashes and keys, every history verified, and data read byte by
byte as changes. -/
def natVerifier : Verifier ℕ ℕ ℕ where
  verifiedChange c := ⟨c, c⟩
  verifyChanges _ := .ok ()
  importChangeHistory data := .ok (data.map UInt8.toNat)

theorem identity_history_only_extends_nat :
    (Call.updateIdentity (⟨1, [⟨1, 1⟩], [1], rfl, rfl, rfl⟩ : Identity natVerifier)).apply
        (run (V := natVerifier) [.importFromChangeHistory none [1, 2]] Repo.empty) =
      .error (.identity .consistencyError)
        (run (V := natVerifier) [.importFromChangeHistory none [1, 2]] Repo.empty) :=
  (identity_history_only_extends (V := natVerifier)).2.1 _ _ _ [1, 2] rfl (by decide) (by decide)

end Ockam.Identities
