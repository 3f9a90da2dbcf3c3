import Ockam.Identity.Consistency

/-! The checks of `identity_verification.rs` behind `Identity::import_from_change_history`, with
SHA-256, signature verification and CBOR decoding as parameters. They accept exactly the
well-formed signed chains of changes (`verifyChanges_eq_ok_iff`). -/

namespace Ockam.Identities

def changeHashLen : ℕ := 20

structure VersionedData where
  version : UInt8
  data : Bytes

/-- The fields of `ChangeData` the checks read. -/
structure ChangeData (K : Type) where
  previousChange : Option Bytes
  primaryPublicKey : K
  createdAt : ℕ

structure Change (S : Type) where
  data : Bytes
  signature : S
  previousSignature : Option S

/-- `VaultForVerifyingSignatures`. The software vault's `sha256` does not fail. -/
structure VaultForVerifyingSignatures (K S : Type) where
  sha256 : Bytes → Bytes
  verifySignature : K → Bytes → S → Except Error Bool

/-- The CBOR decoding of `Change::get_versioned_data`, `ChangeData::get_data` and
`ChangeHistory::import`. -/
structure ChangeCodec (K S : Type) where
  getVersionedData : Bytes → Except Error VersionedData
  getData : VersionedData → Except Error (ChangeData K)
  importChangeHistory : Bytes → Except Error (List (Change S))

structure ChangeDetails (K : Type) where
  version : UInt8
  changeHash : Bytes
  changeFullHash : Bytes
  changeData : ChangeData K

def computeChangeHashFromHash (hash : Bytes) : Bytes := hash.take changeHashLen

def ChangeDetails.verifiedChange {K : Type} (changeDetails : ChangeDetails K) :
    VerifiedChange Bytes K :=
  ⟨changeDetails.changeHash, changeDetails.changeData.primaryPublicKey⟩

section Checks

variable {K S : Type} (vault : VaultForVerifyingSignatures K S) (codec : ChangeCodec K S)

def getChangeDetails (change : Change S) : Except Error (ChangeDetails K) := do
  let changeFullHash := vault.sha256 change.data
  let changeHash := computeChangeHashFromHash changeFullHash
  let versionedData ← codec.getVersionedData change.data
  if versionedData.version ≠ 1 then throw (.identity .unknownIdentityVersion)
  let changeData ← codec.getData versionedData
  pure ⟨versionedData.version, changeHash, changeFullHash, changeData⟩

/-- The checks of a turn of `check_consistency`'s loop against the details of the change before:
a version downgrade, a key created before the one it replaces, a corrupted sequence, and for the
first change a previous change at all. -/
def checkPrevious : Option (ChangeDetails K) → ChangeDetails K → Except Error Unit
  | some previousChangeDetails, changeDetails =>
    if previousChangeDetails.version > changeDetails.version then
      .error (.identity .identityVerificationFailed)
    else if previousChangeDetails.changeData.createdAt > changeDetails.changeData.createdAt then
      .error (.identity .identityVerificationFailed)
    else if some previousChangeDetails.changeHash ≠ changeDetails.changeData.previousChange then
      .error (.identity .identityVerificationFailed)
    else .ok ()
  | none, changeDetails =>
    if changeDetails.changeData.previousChange.isSome then
      .error (.identity .identityVerificationFailed)
    else .ok ()

/-- The loop of `check_consistency`, from the details of the change before. -/
def checkConsistencyLoop :
    Option (ChangeDetails K) → List (Change S) → Except Error (List (VerifiedChange Bytes K))
  | _, [] => .ok []
  | previousChangeDetails, change :: changes => do
    let changeDetails ← getChangeDetails vault codec change
    checkPrevious previousChangeDetails changeDetails
    let toBeVerifiedChanges ← checkConsistencyLoop (some changeDetails) changes
    pure (changeDetails.verifiedChange :: toBeVerifiedChanges)

def checkConsistency (lastKnownChange : Option (Change S)) (newChanges : List (Change S)) :
    Except Error (List (VerifiedChange Bytes K)) := do
  let previousChangeDetails ← match lastKnownChange with
    | some previousChange => some <$> getChangeDetails vault codec previousChange
    | none => pure none
  checkConsistencyLoop vault codec previousChangeDetails newChanges

def checkEntireConsistency (changes : List (Change S)) :
    Except Error (List (VerifiedChange Bytes K)) :=
  checkConsistency vault codec none changes

def verifyChangeSignature (publicKey : K) (hash : Bytes) (signature : S) : Except Error Bool :=
  vault.verifySignature publicKey hash signature

/-- The previous signature under the key of the verified change before, if there is one, then the
change's own signature under its key, both over the SHA-256 of its data. -/
def verifyChangeSignatures (lastVerifiedChange : Option (VerifiedChange Bytes K))
    (newChange : Change S) : Except Error Unit := do
  let newChangeDetails ← getChangeDetails vault codec newChange
  match lastVerifiedChange with
  | some lastVerifiedChange =>
    match newChange.previousSignature with
    | some previousSignature =>
      if !(← verifyChangeSignature vault lastVerifiedChange.primaryPublicKey
          newChangeDetails.changeFullHash previousSignature) then
        throw (.identity .identityVerificationFailed)
    | none => throw (.identity .identityVerificationFailed)
  | none => pure ()
  if !(← verifyChangeSignature vault newChangeDetails.changeData.primaryPublicKey
      newChangeDetails.changeFullHash newChange.signature) then
    throw (.identity .identityVerificationFailed)

def verifyAllExistingChanges (toBeVerifiedChanges : List (VerifiedChange Bytes K))
    (changes : List (Change S)) : Except Error Unit :=
  if hlen : toBeVerifiedChanges.length ≠ changes.length then
    .error (.identity .identityVerificationFailed)
  else
    (List.finRange toBeVerifiedChanges.length).forM fun i =>
      let lastVerifiedChange :=
        if (i : ℕ) = 0 then none else some (toBeVerifiedChanges.get ⟨i - 1, by omega⟩)
      verifyChangeSignatures vault codec lastVerifiedChange (changes.get ⟨i, by omega⟩)

variable [Inhabited K]

/-- The verified change `check_consistency` records for a change. A change that does not decode
records none, and no history that verifies holds one (`checkEntireConsistency_eq_map`). -/
def verifiedChangeOf (change : Change S) : VerifiedChange Bytes K :=
  match getChangeDetails vault codec change with
  | .ok changeDetails => changeDetails.verifiedChange
  | .error _ => ⟨computeChangeHashFromHash (vault.sha256 change.data), default⟩

/-- The checks of `import_from_change_history`: `check_entire_consistency`, then
`verify_all_existing_changes` on the verified changes it returned. -/
def verifier : Verifier (Change S) Bytes K where
  verifiedChange := verifiedChangeOf vault codec
  verifyChanges changes := do
    let verifiedChanges ← checkEntireConsistency vault codec changes
    verifyAllExistingChanges vault codec verifiedChanges changes
  importChangeHistory := codec.importChangeHistory

end Checks

section Spec

variable {K S : Type} (vault : VaultForVerifyingSignatures K S) (codec : ChangeCodec K S)

/-- The change hash of a change: its SHA-256, truncated. -/
def changeHashOf (change : Change S) : Bytes := computeChangeHashFromHash (vault.sha256 change.data)

/-- The versioned data of the change has version 1, and its data decodes to `data`. -/
def Decodes (change : Change S) (data : ChangeData K) : Prop :=
  ∃ versionedData, codec.getVersionedData change.data = .ok versionedData ∧
    versionedData.version = 1 ∧ codec.getData versionedData = .ok data

/-- `signature` verifies under `key` over the SHA-256 of the change's data. -/
def SignedBy (key : K) (change : Change S) (signature : S) : Prop :=
  vault.verifySignature key (vault.sha256 change.data) signature = .ok true

/-- A change `c` after `p`, both with their data, as `check_consistency` wants it. -/
def Consistent (p c : Change S × ChangeData K) : Prop :=
  c.2.previousChange = some (changeHashOf vault p.1) ∧ p.2.createdAt ≤ c.2.createdAt

/-- A change `c` after `p`, as `verify_change_signatures` wants it. -/
def SignedAfter (p c : Change S × ChangeData K) : Prop :=
  ∃ s, c.1.previousSignature = some s ∧ SignedBy vault p.2.primaryPublicKey c.1 s

/-- A well-formed signed chain of changes, each with the data it decodes to. -/
def WellFormed (changes : List (Change S)) : Prop :=
  ∃ links : List (Change S × ChangeData K), links.map Prod.fst = changes ∧ links ≠ [] ∧
    (∀ l ∈ links, Decodes codec l.1 l.2 ∧ SignedBy vault l.2.primaryPublicKey l.1 l.1.signature) ∧
    (∀ l ∈ links.head?, l.2.previousChange = none) ∧
    links.IsChain fun p c => Consistent vault p c ∧ SignedAfter vault p c

/-- The details `get_change_details` computes for a change that decodes to `l.2`. -/
def detailsOf (l : Change S × ChangeData K) : ChangeDetails K :=
  ⟨1, changeHashOf vault l.1, vault.sha256 l.1.data, l.2⟩

end Spec

lemma isChain_and {α : Type} {R T : α → α → Prop} {l : List α} :
    l.IsChain (fun a b => R a b ∧ T a b) ↔ l.IsChain R ∧ l.IsChain T := by
  simp only [List.isChain_iff_getElem, forall_and]

section Consistency

variable {K S : Type} {vault : VaultForVerifyingSignatures K S} {codec : ChangeCodec K S}

lemma getChangeDetails_eq_ok {change : Change S} {changeDetails : ChangeDetails K} :
    getChangeDetails vault codec change = .ok changeDetails ↔
      ∃ data, Decodes codec change data ∧ changeDetails = detailsOf vault (change, data) := by
  unfold getChangeDetails
  cases hv : codec.getVersionedData change.data with
  | error e => simp [Decodes, hv, bind, Except.bind]
  | ok versionedData =>
    by_cases h1 : versionedData.version = 1
    · cases hd : codec.getData versionedData with
      | error e => simp [Decodes, hv, h1, hd, bind, Except.bind]
      | ok data =>
        simp [Decodes, hv, h1, hd, bind, Except.bind, pure, Except.pure, detailsOf, changeHashOf,
          eq_comm]
    · simp [Decodes, hv, h1, bind, Except.bind, throw, throwThe, MonadExceptOf.throw]

section Previous

attribute [local simp] checkPrevious detailsOf

variable (vault) in
lemma checkPrevious_some_eq_ok (p c : Change S × ChangeData K) :
    checkPrevious (some (detailsOf vault p)) (detailsOf vault c) = .ok () ↔ Consistent vault p c := by
  have hversion : ¬ (1 : UInt8) > 1 := by decide
  simp only [checkPrevious, detailsOf, hversion, if_false, Consistent]
  by_cases htime : p.2.createdAt > c.2.createdAt
  · simp [htime]
  · by_cases hhash : some (changeHashOf vault p.1) = c.2.previousChange
    · simp [htime, hhash]
      omega
    · simp [htime, hhash, Ne.symm hhash]

variable (vault) in
lemma checkPrevious_none_eq_ok (c : Change S × ChangeData K) :
    checkPrevious none (detailsOf vault c) = .ok () ↔ c.2.previousChange = none := by
  cases h : c.2.previousChange <;> simp [h]

end Previous

lemma checkConsistencyLoop_nil (previousChangeDetails : Option (ChangeDetails K)) :
    checkConsistencyLoop vault codec previousChangeDetails [] = .ok [] := rfl

lemma checkConsistencyLoop_cons_eq_ok {previousChangeDetails : Option (ChangeDetails K)}
    {change : Change S} {changes : List (Change S)}
    {toBeVerifiedChanges : List (VerifiedChange Bytes K)} :
    checkConsistencyLoop vault codec previousChangeDetails (change :: changes) =
        .ok toBeVerifiedChanges ↔
      ∃ data rest, Decodes codec change data ∧
        checkPrevious previousChangeDetails (detailsOf vault (change, data)) = .ok () ∧
        checkConsistencyLoop vault codec (some (detailsOf vault (change, data))) changes = .ok rest ∧
        toBeVerifiedChanges = (detailsOf vault (change, data)).verifiedChange :: rest := by
  simp only [checkConsistencyLoop, Except.bind_eq_ok_iff, getChangeDetails_eq_ok]
  constructor
  · rintro ⟨_, ⟨data, hdec, rfl⟩, ⟨⟩, hcheck, rest, hloop, hpure⟩
    exact ⟨data, rest, hdec, hcheck, hloop, (Except.ok.inj hpure).symm⟩
  · rintro ⟨data, rest, hdec, hcheck, hloop, rfl⟩
    exact ⟨_, ⟨data, hdec, rfl⟩, (), hcheck, rest, hloop, rfl⟩

lemma checkConsistencyLoop_some_eq_ok {p : Change S × ChangeData K} {changes : List (Change S)}
    {toBeVerifiedChanges : List (VerifiedChange Bytes K)} :
    checkConsistencyLoop vault codec (some (detailsOf vault p)) changes = .ok toBeVerifiedChanges ↔
      ∃ links : List (Change S × ChangeData K), links.map Prod.fst = changes ∧
        (∀ l ∈ links, Decodes codec l.1 l.2) ∧ (p :: links).IsChain (Consistent vault) ∧
        toBeVerifiedChanges = links.map fun l => (detailsOf vault l).verifiedChange := by
  induction changes generalizing p toBeVerifiedChanges with
  | nil =>
    simp only [checkConsistencyLoop_nil, Except.ok.injEq, List.map_eq_nil_iff]
    constructor
    · rintro rfl
      exact ⟨[], rfl, by simp, .singleton p, rfl⟩
    · rintro ⟨links, rfl, -, -, rfl⟩
      rfl
  | cons c cs ih =>
    rw [checkConsistencyLoop_cons_eq_ok]
    constructor
    · rintro ⟨data, rest, hdec, hcheck, hloop, rfl⟩
      obtain ⟨links, hmap, hdecs, hchain, rfl⟩ := ih.mp hloop
      refine ⟨(c, data) :: links, by simp [hmap], ?_, ?_, rfl⟩
      · exact List.forall_mem_cons.mpr ⟨hdec, hdecs⟩
      · exact .cons_cons ((checkPrevious_some_eq_ok vault p (c, data)).mp hcheck) hchain
    · rintro ⟨_ | ⟨⟨c', data⟩, links⟩, hmap, hdecs, hchain, rfl⟩
      · cases hmap
      · simp only [List.map_cons, List.cons.injEq] at hmap
        obtain ⟨rfl, hmap⟩ := hmap
        rw [List.isChain_cons_cons] at hchain
        have hrest : ∀ l ∈ links, Decodes codec l.1 l.2 := fun l hl => hdecs l (.tail _ hl)
        exact ⟨data, _, hdecs _ (.head _), (checkPrevious_some_eq_ok vault p (c', data)).mpr hchain.1,
          ih.mpr ⟨links, hmap, hrest, hchain.2, rfl⟩, rfl⟩

lemma checkEntireConsistency_eq_ok {changes : List (Change S)}
    {toBeVerifiedChanges : List (VerifiedChange Bytes K)} :
    checkEntireConsistency vault codec changes = .ok toBeVerifiedChanges ↔
      ∃ links : List (Change S × ChangeData K), links.map Prod.fst = changes ∧
        (∀ l ∈ links, Decodes codec l.1 l.2) ∧ (∀ l ∈ links.head?, l.2.previousChange = none) ∧
        links.IsChain (Consistent vault) ∧
        toBeVerifiedChanges = links.map fun l => (detailsOf vault l).verifiedChange := by
  have hentire : checkEntireConsistency vault codec changes =
      checkConsistencyLoop vault codec none changes := rfl
  rw [hentire]
  cases changes with
  | nil =>
    simp only [checkConsistencyLoop_nil, Except.ok.injEq, List.map_eq_nil_iff]
    constructor
    · rintro rfl
      exact ⟨[], rfl, by simp, by simp, .nil, rfl⟩
    · rintro ⟨links, rfl, -, -, -, rfl⟩
      rfl
  | cons c cs =>
    rw [checkConsistencyLoop_cons_eq_ok]
    constructor
    · rintro ⟨data, rest, hdec, hcheck, hloop, rfl⟩
      obtain ⟨links, hmap, hdecs, hchain, rfl⟩ := checkConsistencyLoop_some_eq_ok.mp hloop
      refine ⟨(c, data) :: links, by simp [hmap], ?_, ?_, hchain, rfl⟩
      · exact List.forall_mem_cons.mpr ⟨hdec, hdecs⟩
      · simpa using (checkPrevious_none_eq_ok vault (c, data)).mp hcheck
    · rintro ⟨_ | ⟨⟨c', data⟩, links⟩, hmap, hdecs, hnone, hchain, rfl⟩
      · cases hmap
      · simp only [List.map_cons, List.cons.injEq] at hmap
        obtain ⟨rfl, hmap⟩ := hmap
        have hrest : ∀ l ∈ links, Decodes codec l.1 l.2 := fun l hl => hdecs l (.tail _ hl)
        exact ⟨data, _, hdecs _ (.head _),
          (checkPrevious_none_eq_ok vault (c', data)).mpr (hnone _ rfl),
          checkConsistencyLoop_some_eq_ok.mpr ⟨links, hmap, hrest, hchain, rfl⟩, rfl⟩

end Consistency

section Signatures

variable {K S : Type} {vault : VaultForVerifyingSignatures K S} {codec : ChangeCodec K S}

lemma check_eq_ok (r : Except Error Bool) (e : Error) :
    (r >>= fun ok => if (!ok) = true then throw e else pure ()) = .ok () ↔ r = .ok true := by
  cases r with
  | error e' => simp [bind, Except.bind]
  | ok b => cases b <;> simp [bind, Except.bind, throw, throwThe, MonadExceptOf.throw, pure, Except.pure]

lemma check_then_eq_ok (r : Except Error Bool) (e : Error) (k : Except Error Unit) :
    (r >>= fun ok => if (!ok) = true then (throw e : Except Error PUnit) >>= fun _ => k else k) =
      .ok () ↔
      r = .ok true ∧ k = .ok () := by
  cases r with
  | error e' => simp [bind, Except.bind]
  | ok b => cases b <;> simp [bind, Except.bind, throw, throwThe, MonadExceptOf.throw]

lemma verifyChangeSignatures_eq_ok {l : Change S × ChangeData K} (hl : Decodes codec l.1 l.2)
    (lastVerifiedChange : Option (VerifiedChange Bytes K)) :
    verifyChangeSignatures vault codec lastVerifiedChange l.1 = .ok () ↔
      (∀ v ∈ lastVerifiedChange, ∃ s, l.1.previousSignature = some s ∧
        SignedBy vault v.primaryPublicKey l.1 s) ∧
      SignedBy vault l.2.primaryPublicKey l.1 l.1.signature := by
  have hdetails : getChangeDetails vault codec l.1 = .ok (detailsOf vault l) :=
    getChangeDetails_eq_ok.mpr ⟨l.2, hl, rfl⟩
  rw [verifyChangeSignatures, hdetails, Except.bind_eq_ok_iff]
  simp only [Except.ok.injEq, exists_eq_left']
  cases lastVerifiedChange with
  | none =>
    rw [check_eq_ok]
    simp [SignedBy, verifyChangeSignature, detailsOf]
  | some v =>
    cases hs : l.1.previousSignature with
    | none => simp [throw, throwThe, MonadExceptOf.throw, bind, Except.bind]
    | some s =>
      rw [check_then_eq_ok, check_eq_ok]
      simp [SignedBy, verifyChangeSignature, detailsOf]

lemma verifyAllExistingChanges_eq_ok {toBeVerifiedChanges : List (VerifiedChange Bytes K)}
    {changes : List (Change S)} (hlen : toBeVerifiedChanges.length = changes.length) :
    verifyAllExistingChanges vault codec toBeVerifiedChanges changes = .ok () ↔
      ∀ q ∈ (none :: toBeVerifiedChanges.map some).zip changes,
        verifyChangeSignatures vault codec q.1 q.2 = .ok () := by
  rw [verifyAllExistingChanges, dif_neg (not_not.mpr hlen), Except.forM_eq_ok_iff]
  simp only [List.mem_finRange, forall_const, Fin.forall_iff]
  rw [List.forall_mem_iff_getElem]
  simp only [List.length_zip, List.length_cons, List.length_map, List.getElem_zip,
    List.getElem_cons, List.getElem_map, List.get_eq_getElem]
  constructor
  · intro h i hi
    have := h i (by omega)
    split_ifs at this ⊢ <;> simpa using this
  · intro h i hi
    have := h i (by omega)
    split_ifs at this ⊢ <;> simpa using this

lemma verifyChangeSignatures_zip_some {p : Change S × ChangeData K}
    {links : List (Change S × ChangeData K)} (hdecs : ∀ l ∈ links, Decodes codec l.1 l.2) :
    (∀ q ∈ (some (detailsOf vault p).verifiedChange ::
        (links.map fun l => (detailsOf vault l).verifiedChange).map some).zip (links.map Prod.fst),
        verifyChangeSignatures vault codec q.1 q.2 = .ok ()) ↔
      (∀ l ∈ links, SignedBy vault l.2.primaryPublicKey l.1 l.1.signature) ∧
        (p :: links).IsChain (SignedAfter vault) := by
  induction links generalizing p with
  | nil => simp
  | cons l links ih =>
    have hrest : ∀ l ∈ links, Decodes codec l.1 l.2 := fun l hl => hdecs l (.tail _ hl)
    simp only [List.map_cons, List.zip_cons_cons, List.forall_mem_cons]
    rw [verifyChangeSignatures_eq_ok (hdecs l (.head _)), ih hrest, List.isChain_cons_cons]
    simp only [Option.mem_def, Option.some.injEq, forall_eq']
    constructor
    · rintro ⟨⟨hprev, hown⟩, hown', hchain⟩
      exact ⟨⟨hown, hown'⟩, hprev, hchain⟩
    · rintro ⟨⟨hown, hown'⟩, hprev, hchain⟩
      exact ⟨⟨hprev, hown⟩, hown', hchain⟩

lemma verifyChangeSignatures_zip_none {links : List (Change S × ChangeData K)}
    (hdecs : ∀ l ∈ links, Decodes codec l.1 l.2) :
    (∀ q ∈ (none :: (links.map fun l => (detailsOf vault l).verifiedChange).map some).zip
        (links.map Prod.fst), verifyChangeSignatures vault codec q.1 q.2 = .ok ()) ↔
      (∀ l ∈ links, SignedBy vault l.2.primaryPublicKey l.1 l.1.signature) ∧
        links.IsChain (SignedAfter vault) := by
  cases links with
  | nil => simp
  | cons l links =>
    have hrest : ∀ l ∈ links, Decodes codec l.1 l.2 := fun l hl => hdecs l (.tail _ hl)
    simp only [List.map_cons, List.zip_cons_cons, List.forall_mem_cons]
    rw [verifyChangeSignatures_eq_ok (hdecs l (.head _)), verifyChangeSignatures_zip_some hrest]
    simp only [Option.mem_def, reduceCtorEq, false_implies, implies_true, true_and, and_assoc]

end Signatures

section Accepts

variable {K S : Type} {vault : VaultForVerifyingSignatures K S} {codec : ChangeCodec K S}
  [Inhabited K]

theorem verifyChanges_eq_ok_iff {changes : List (Change S)} :
    (verifier vault codec).verifyChanges changes = .ok () ↔
      ∃ links : List (Change S × ChangeData K), links.map Prod.fst = changes ∧
        (∀ l ∈ links, Decodes codec l.1 l.2 ∧ SignedBy vault l.2.primaryPublicKey l.1 l.1.signature) ∧
        (∀ l ∈ links.head?, l.2.previousChange = none) ∧
        links.IsChain fun p c => Consistent vault p c ∧ SignedAfter vault p c := by
  have hverify : (verifier vault codec).verifyChanges changes =
      checkEntireConsistency vault codec changes >>= fun verifiedChanges =>
        verifyAllExistingChanges vault codec verifiedChanges changes := rfl
  rw [hverify, Except.bind_eq_ok_iff]
  constructor
  · rintro ⟨_, hcheck, hall⟩
    obtain ⟨links, rfl, hdecs, hhead, hconsistent, rfl⟩ := checkEntireConsistency_eq_ok.mp hcheck
    obtain ⟨hown, hsigned⟩ := (verifyChangeSignatures_zip_none hdecs).mp
      ((verifyAllExistingChanges_eq_ok (by simp)).mp hall)
    exact ⟨links, rfl, fun l hl => ⟨hdecs l hl, hown l hl⟩, hhead,
      isChain_and.mpr ⟨hconsistent, hsigned⟩⟩
  · rintro ⟨links, rfl, hlinks, hhead, hchain⟩
    obtain ⟨hconsistent, hsigned⟩ := isChain_and.mp hchain
    have hdecs : ∀ l ∈ links, Decodes codec l.1 l.2 := fun l hl => (hlinks l hl).1
    refine ⟨_, checkEntireConsistency_eq_ok.mpr ⟨links, rfl, hdecs, hhead, hconsistent, rfl⟩, ?_⟩
    exact (verifyAllExistingChanges_eq_ok (by simp)).mpr
      ((verifyChangeSignatures_zip_none hdecs).mpr ⟨fun l hl => (hlinks l hl).2, hsigned⟩)

lemma wellFormed_iff {changes : List (Change S)} :
    WellFormed vault codec changes ↔
      (verifier vault codec).verifyChanges changes = .ok () ∧ changes ≠ [] := by
  rw [verifyChanges_eq_ok_iff]
  constructor
  · rintro ⟨links, rfl, hne, hrest⟩
    exact ⟨⟨links, rfl, hrest⟩, by simpa using hne⟩
  · rintro ⟨⟨links, rfl, hrest⟩, hne⟩
    exact ⟨links, rfl, by simpa using hne, hrest⟩

lemma verifiedChangeOf_of_decodes {l : Change S × ChangeData K} (hl : Decodes codec l.1 l.2) :
    verifiedChangeOf vault codec l.1 = (detailsOf vault l).verifiedChange := by
  rw [verifiedChangeOf, getChangeDetails_eq_ok.mpr ⟨l.2, hl, rfl⟩]

theorem checkEntireConsistency_eq_map {changes : List (Change S)}
    (h : (verifier vault codec).verifyChanges changes = .ok ()) :
    checkEntireConsistency vault codec changes = .ok (changes.map (verifiedChangeOf vault codec)) := by
  obtain ⟨verifiedChanges, hcheck, -⟩ := (Except.bind_eq_ok_iff _ _ _).mp h
  obtain ⟨links, rfl, hdecs, -, -, rfl⟩ := checkEntireConsistency_eq_ok.mp hcheck
  rw [hcheck, List.map_map]
  exact congrArg Except.ok
    (List.map_congr_left fun l hl => (verifiedChangeOf_of_decodes (hdecs l hl)).symm)

lemma verifier_changeHash (change : Change S) :
    (verifier vault codec).changeHash change = changeHashOf vault change := by
  simp only [Verifier.changeHash, verifier, verifiedChangeOf]
  split
  · rename_i changeDetails hdetails
    obtain ⟨data, -, rfl⟩ := getChangeDetails_eq_ok.mp hdetails
    rfl
  · rfl

variable (vault codec) in
theorem importFromChangeHistory_accepts_wellFormed (expected : Option Bytes)
    (changeHistory : List (Change S)) (identity : Identity (verifier vault codec))
    (change : Change S) :
    ((∃ i : Identity (verifier vault codec),
          Identity.importFromChangeHistory expected changeHistory = .ok i) ↔
        WellFormed vault codec changeHistory ∧
          ∀ e ∈ expected, changeHistory.head?.map (changeHashOf vault) = some e) ∧
      ((∃ i, identity.addChange change = .ok i) ↔
        WellFormed vault codec (identity.changeHistory ++ [change])) ∧
      ∀ i, identity.addChange change = .ok i → i.identifier = identity.identifier := by
  have hhash : (verifier vault codec).changeHash = changeHashOf vault := funext verifier_changeHash
  refine ⟨?_, ?_, fun i hi => (Identity.addChange_eq_ok hi).2⟩
  · rw [Identity.importFromChangeHistory_isOk_iff, hhash, wellFormed_iff, and_assoc]
  · rw [Identity.addChange, Identity.importFromChangeHistory_isOk_iff, wellFormed_iff]
    simp

end Accepts

end Ockam.Identities
