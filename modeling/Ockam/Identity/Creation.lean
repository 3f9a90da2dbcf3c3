import Ockam.Core.Error
import Ockam.Lib.StateMonad

/-! Verified identities (`identity.rs`) and the calls of `IdentitiesCreation`
(`identities_creation.rs`) that store their change histories. The only way to build an
`Identity` is `import_from_change_history`, so its fields carry what that verification
established. The change format, the checks of `identity_verification.rs` and the key service
are parameters. -/

namespace Ockam.Identities

structure VerifiedChange (H K : Type) where
  changeHash : H
  primaryPublicKey : K

/-- The change format and the verifying vault, as `import_from_change_history` reads them. -/
structure Verifier (C H K : Type) where
  /-- The change hash of a change's data (the truncated `sha256`) and its primary key. -/
  verifiedChange : C → VerifiedChange H K
  /-- `check_entire_consistency` followed by `verify_all_existing_changes`. -/
  verifyChanges : List C → Except Error Unit
  /-- `ChangeHistory::import`. -/
  importChangeHistory : Bytes → Except Error (List C)

variable {C H K : Type}

def Verifier.changeHash (V : Verifier C H K) (c : C) : H := (V.verifiedChange c).changeHash

structure Identity (V : Verifier C H K) where
  identifier : H
  changes : List (VerifiedChange H K)
  changeHistory : List C
  changes_eq : changes = changeHistory.map V.verifiedChange
  identifier_eq : changes.head?.map (·.changeHash) = some identifier
  verified : V.verifyChanges changeHistory = .ok ()

inductive IdentityHistoryComparison where
  | equal
  | conflict
  | newer
  | older
  deriving DecidableEq, Repr

namespace Identity

variable {V : Verifier C H K} [DecidableEq H]

def changeHashes (i : Identity V) : List H := i.changes.map (·.changeHash)

def importFromChangeHistory (expected : Option H) (changeHistory : List C) :
    Except Error (Identity V) :=
  match hv : V.verifyChanges changeHistory with
  | .error e => .error e
  | .ok () =>
    match hc : changeHistory.map V.verifiedChange with
    | [] => .error (.identity .identityVerificationFailed)
    | first :: _ =>
      if expected.any (fun e => first.changeHash ≠ e) then .error (.identity .identityVerificationFailed)
      else .ok ⟨first.changeHash, changeHistory.map V.verifiedChange, changeHistory, rfl,
        by simp [hc], hv⟩

variable (V) in
def «import» (expected : Option H) (data : Bytes) : Except Error (Identity V) :=
  V.importChangeHistory data >>= importFromChangeHistory expected

def getLatestPublicKey (i : Identity V) : Except Error K :=
  match i.changes.getLast? with
  | some c => .ok c.primaryPublicKey
  | none => .error (.identity .emptyIdentity)

def addChange (i : Identity V) (change : C) : Except Error (Identity V) :=
  importFromChangeHistory none (i.changeHistory ++ [change])

/-- `Identity::compare`: a pair of changes at the same place with different hashes is a conflict;
otherwise the lengths decide. -/
def compare (i known : Identity V) : IdentityHistoryComparison :=
  if (i.changes.zip known.changes).any (fun p => p.1.changeHash ≠ p.2.changeHash) then .conflict
  else
    match Ord.compare i.changes.length known.changes.length with
    | .lt => .older
    | .eq => .equal
    | .gt => .newer

end Identity

/-- `IdentitiesKeys::rotate_key_with_options`: `makeChange` stands for `get_secret_key` and
`make_change` with the options, given the last change. The old key's deletion only logs. -/
def rotateKeyWithOptions {V : Verifier C H K} [DecidableEq H]
    (makeChange : VerifiedChange H K → Except Error C) (identity : Identity V) :
    Except Error (Identity V) := do
  let some lastChange := identity.changes.getLast? | throw (.identity .emptyIdentity)
  let change ← makeChange lastChange
  identity.addChange change

/-- The change history stored for each identifier. -/
abbrev Repo (C H : Type) := H → Option (List C)

def Repo.empty : Repo C H := fun _ => none

namespace Repository

variable [DecidableEq H]

def retrieveIdentity (identifier : H) : EStateM Error (Repo C H) (Option (List C)) := do
  return (← get) identifier

def getIdentity (identifier : H) : EStateM Error (Repo C H) (List C) := do
  match ← retrieveIdentity identifier with
  | some changeHistory => pure changeHistory
  | none => throw (.message "identity not found")

def updateIdentity (identifier : H) (changeHistory : List C) : EStateM Error (Repo C H) Unit :=
  modify fun r => Function.update r identifier (some changeHistory)

end Repository

namespace IdentitiesCreation

variable {V : Verifier C H K} [DecidableEq H] [DecidableEq K]

/-- `update_identity`: store a newer history, refuse an older or conflicting one. -/
def updateIdentity (identity : Identity V) : EStateM Error (Repo C H) Unit := do
  match ← Repository.retrieveIdentity identity.identifier with
  | some knownIdentity =>
    let knownIdentity ← EStateM.ofExcept
      (Identity.importFromChangeHistory (some identity.identifier) knownIdentity)
    match identity.compare knownIdentity with
    | .conflict | .older => throw (.identity .consistencyError)
    | .newer => Repository.updateIdentity identity.identifier identity.changeHistory
    | .equal => pure ()
  | none => Repository.updateIdentity identity.identifier identity.changeHistory

variable (V) in
def «import» (expected : Option H) (data : Bytes) : EStateM Error (Repo C H) (Identity V) := do
  let identity ← EStateM.ofExcept (Identity.import V expected data)
  updateIdentity identity
  pure identity

def importFromChangeHistory (expected : Option H) (changeHistory : List C) :
    EStateM Error (Repo C H) (Identity V) := do
  let identity ← EStateM.ofExcept (Identity.importFromChangeHistory expected changeHistory)
  updateIdentity identity
  pure identity

variable (V) in
def rotateIdentityWithOptions (identifier : H) (makeChange : VerifiedChange H K → Except Error C) :
    EStateM Error (Repo C H) Unit := do
  let changeHistory ← Repository.getIdentity identifier
  let identity ← EStateM.ofExcept
    (Identity.importFromChangeHistory (V := V) (some identifier) changeHistory)
  let identity ← EStateM.ofExcept (rotateKeyWithOptions makeChange identity)
  Repository.updateIdentity identity.identifier identity.changeHistory

variable (V) in
/-- `import_private_identity`: `verifyingPublicKey` is the vault's public key for the secret's
handle. The history is written again after `update_identity`. -/
def importPrivateIdentity (data : Bytes) (verifyingPublicKey : Except Error K) :
    EStateM Error (Repo C H) (Identity V) := do
  let identity ← «import» V none data
  let latest ← EStateM.ofExcept identity.getLatestPublicKey
  let key ← EStateM.ofExcept verifyingPublicKey
  if latest ≠ key then throw (.identity .wrongSecretKey)
  Repository.updateIdentity identity.identifier identity.changeHistory
  pure identity

/-- `create_identity_with_options`: `createInitialKey` is `create_initial_key` with the options.
Its history is written without a comparison. -/
def createIdentityWithOptions (createInitialKey : Except Error (Identity V)) :
    EStateM Error (Repo C H) (Identity V) := do
  let identity ← EStateM.ofExcept createInitialKey
  Repository.updateIdentity identity.identifier identity.changeHistory
  pure identity

end IdentitiesCreation

/-- The calls that present or rotate an identity. -/
inductive Call (V : Verifier C H K) where
  | updateIdentity (identity : Identity V)
  | «import» (expected : Option H) (data : Bytes)
  | importFromChangeHistory (expected : Option H) (changeHistory : List C)
  | rotateIdentity (identifier : H) (makeChange : VerifiedChange H K → Except Error C)
  | importPrivateIdentity (data : Bytes) (verifyingPublicKey : Except Error K)

namespace Call

variable {V : Verifier C H K} [DecidableEq H] [DecidableEq K]

def apply : Call V → EStateM Error (Repo C H) Unit
  | updateIdentity identity => IdentitiesCreation.updateIdentity identity
  | «import» expected data => discard (IdentitiesCreation.«import» V expected data)
  | importFromChangeHistory expected changeHistory =>
    discard (IdentitiesCreation.importFromChangeHistory (V := V) expected changeHistory)
  | rotateIdentity identifier makeChange =>
    IdentitiesCreation.rotateIdentityWithOptions V identifier makeChange
  | importPrivateIdentity data key => discard (IdentitiesCreation.importPrivateIdentity V data key)

end Call

/-- A sequence of calls; a failed call keeps what it wrote before failing. -/
def run [DecidableEq H] [DecidableEq K] {V : Verifier C H K} (calls : List (Call V))
    (r : Repo C H) : Repo C H :=
  calls.foldl (fun r call => (call.apply r).state) r

end Ockam.Identities
