import DkgSubstrate.Dispatch
import DkgSubstrate.Proposals
import DkgSubstrate.StorageMap

/-!
The bridge registry, which groups linked resources into bridges when an anchor update has
been signed.
-/

namespace DkgSubstrate.BridgeRegistry

open DkgSubstrate.Dispatch
open DkgSubstrate.Primitives
open DkgSubstrate.Proposals
open DkgSubstrate.Words

abbrev ResourceId := FixedBytes 32

/-- The bounds of the pallet and the layout of anchor updates, which the proposal library
defines: the length, the source resource and the resource of the header. -/
structure Config where
  maxResources : ℕ
  anchorUpdateLength : ℕ
  decodeAnchorUpdate : Bytes → Option (ResourceId × ResourceId)

structure BridgeMetadata (cfg : Config) (Info : Type) where
  info : Info
  resourceIds : BoundedVec ResourceId cfg.maxResources

structure State (cfg : Config) (Info : Type) where
  nextBridgeIndex : ℕ
  bridges : StorageMap ℕ (BridgeMetadata cfg Info)
  resourceToBridgeIndex : StorageMap ResourceId ℕ

variable {L : Limits} {cfg : Config} {Info : Type}

def assign (resource : ResourceId) (index : ℕ) (s : State cfg Info) : State cfg Info :=
  { s with resourceToBridgeIndex := s.resourceToBridgeIndex.insert resource index }

@[simp] theorem bridges_assign (resource : ResourceId) (index : ℕ) (s : State cfg Info) :
    (assign resource index s).bridges = s.bridges := rfl

@[simp] theorem nextBridgeIndex_assign (resource : ResourceId) (index : ℕ)
    (s : State cfg Info) : (assign resource index s).nextBridgeIndex = s.nextBridgeIndex := rfl

@[simp] theorem lookup_assign (resource r : ResourceId) (index : ℕ) (s : State cfg Info) :
    (assign resource index s).resourceToBridgeIndex.lookup r =
      if r = resource then some index else s.resourceToBridgeIndex.lookup r :=
  StorageMap.lookup_insert_eq

def openBridge [Inhabited Info] (src dest : ResourceId) (s : State cfg Info) :
    State cfg Info × Except DispatchError Unit :=
  let assigned := assign dest s.nextBridgeIndex (assign src s.nextBridgeIndex s)
  match ((default : BoundedVec ResourceId cfg.maxResources).tryPush src).bind
      fun ids => ids.tryPush dest with
  | none => (assigned, .error (.bridgeRegistry .outOfBounds))
  | some resourceIds =>
      ({ assigned with
        bridges := assigned.bridges.insert assigned.nextBridgeIndex ⟨default, resourceIds⟩
        nextBridgeIndex := wrappingAdd 32 assigned.nextBridgeIndex 1 }, .ok ())

/-- Adds a resource to the bridge of another one.  The resource stays assigned when the
bridge cannot be extended. -/
def joinBridge (resource : ResourceId) (index : ℕ) (s : State cfg Info) :
    State cfg Info × Except DispatchError Unit :=
  let assigned := assign resource index s
  match assigned.bridges.lookup index with
  | none => (assigned, .error (.bridgeRegistry .bridgeNotFound))
  | some metadata =>
      match metadata.resourceIds.tryPush resource with
      | none => (assigned, .error (.bridgeRegistry .tooManyResources))
      | some resourceIds =>
          ({ assigned with
            bridges := assigned.bridges.insert index
              { metadata with resourceIds := resourceIds } }, .ok ())

def linkResources [Inhabited Info] (src dest : ResourceId) (s : State cfg Info) :
    State cfg Info × Except DispatchError Unit :=
  let srcIndex := s.resourceToBridgeIndex.getD src 0
  let destIndex := s.resourceToBridgeIndex.getD dest 0
  if srcIndex = 0 ∧ destIndex = 0 then openBridge src dest s
  else if srcIndex = 0 then joinBridge src destIndex s
  else if destIndex = 0 then joinBridge dest srcIndex s
  else if srcIndex = destIndex then (s, .ok ())
  else (s, .error (.bridgeRegistry .bridgeIndexError))

def onSignedProposal [Inhabited Info] (proposal : Proposal L) (s : State cfg Info) :
    Outcome (State cfg Info × Except DispatchError Unit) :=
  if proposal.isSigned = false then .ok (s, .error (.bridgeRegistry .proposalNotSigned))
  else if proposal.kind = .anchorUpdate then
    if proposal.data.length ≠ cfg.anchorUpdateLength then .error .panic
    else match cfg.decodeAnchorUpdate proposal.data with
      | none => .ok (s, .error (.bridgeRegistry .verifyError))
      | some (src, dest) => .ok (linkResources src dest s)
  else .ok (s, .ok ())

def genesisState (bridges : List (BridgeMetadata cfg Info)) : State cfg Info :=
  bridges.foldl (fun s bridge =>
      bridge.resourceIds.toList.foldl (fun t resource => assign resource s.nextBridgeIndex t)
        { s with
          bridges := s.bridges.insert s.nextBridgeIndex bridge
          nextBridgeIndex := wrappingAdd 32 s.nextBridgeIndex 1 })
    ⟨1, ∅, ∅⟩

structure Admin (AccountId Info : Type) where
  forceOrigin : Origin AccountId → Bool
  maxAdditionalFields : ℕ
  additionalFields : Info → ℕ

variable {AccountId : Type}

def setMetadata (admin : Admin AccountId Info) (origin : Origin AccountId) (bridgeIndex : ℕ)
    (info : Info) (s : State cfg Info) : Outcome (State cfg Info) := do
  ensure (admin.forceOrigin origin = true) .badOrigin
  ensure (admin.additionalFields info ≤ admin.maxAdditionalFields)
    (.bridgeRegistry .tooManyFields)
  let metadata : BridgeMetadata cfg Info :=
    match s.bridges.lookup bridgeIndex with
    | some id => { id with info := info }
    | none => ⟨info, default⟩
  .ok { s with bridges := s.bridges.insert bridgeIndex metadata }

def forceResetIndices (admin : Admin AccountId Info) (origin : Origin AccountId)
    (resourceIds : List ResourceId) (bridgeIndex : ℕ) (s : State cfg Info) :
    Outcome (State cfg Info) := do
  ensure (admin.forceOrigin origin = true) .badOrigin
  ensure (resourceIds.length ≤ cfg.maxResources) (.bridgeRegistry .tooManyResources)
  .ok (resourceIds.foldl (fun t resource => assign resource bridgeIndex t) s)

inductive Call (L : Limits) (AccountId Info : Type) where
  | onSignedProposal (proposal : Proposal L)
  | setMetadata (origin : Origin AccountId) (bridgeIndex : ℕ) (info : Info)
  | forceResetIndices (origin : Origin AccountId) (resourceIds : List ResourceId)
      (bridgeIndex : ℕ)

/-- The caller of `onSignedProposal` ignores its result, so what it has written before an error
stays. -/
def step [Inhabited Info] (admin : Admin AccountId Info) (s : State cfg Info) :
    Call L AccountId Info → State cfg Info
  | .onSignedProposal proposal => commit s ((onSignedProposal proposal s).map Prod.fst)
  | .setMetadata origin bridgeIndex info => commit s (setMetadata admin origin bridgeIndex info s)
  | .forceResetIndices origin resourceIds bridgeIndex =>
      commit s (forceResetIndices admin origin resourceIds bridgeIndex s)

def anchorUpdate (cfg : Config) (proposal : Proposal L) : Option (ResourceId × ResourceId) :=
  if proposal.isSigned = true ∧ proposal.kind = .anchorUpdate ∧
      proposal.data.length = cfg.anchorUpdateLength then
    cfg.decodeAnchorUpdate proposal.data
  else none

theorem onSignedProposal_link [Inhabited Info] {proposal : Proposal L} {src dest : ResourceId}
    (h : anchorUpdate cfg proposal = some (src, dest)) (s : State cfg Info) :
    onSignedProposal proposal s = .ok (linkResources src dest s) := by
  rw [anchorUpdate, Option.ite_none_right_eq_some] at h
  obtain ⟨⟨hsigned, hkind, hlength⟩, hdecode⟩ := h
  simp [onSignedProposal, hsigned, hkind, hlength, hdecode]

theorem onSignedProposal_other [Inhabited Info] {proposal : Proposal L}
    (h : anchorUpdate cfg proposal = none) (s : State cfg Info) :
    commit s ((onSignedProposal proposal s).map Prod.fst) = s := by
  rw [onSignedProposal]
  split
  · rfl
  · rename_i hsigned
    split
    · rename_i hkind
      split
      · rfl
      · rename_i hlength
        have hdecode : cfg.decodeAnchorUpdate proposal.data = none := by
          rw [anchorUpdate, if_pos ⟨by simpa using hsigned, hkind, not_not.mp hlength⟩] at h
          exact h
        rw [hdecode]
        rfl
    · rfl

theorem onSignedProposal_refresh [Inhabited Info] {proposal : Proposal L}
    (hsigned : proposal.isSigned = true) (hkind : proposal.kind = .refresh)
    (s : State cfg Info) : onSignedProposal proposal s = .ok (s, .ok ()) := by
  rw [onSignedProposal]
  rw [hsigned, hkind]
  rfl

end DkgSubstrate.BridgeRegistry
