import DkgSubstrate.MetadataCalls

/-!
Refresh proposals, the rotation of the authority set and the pallet as a transition
system.
-/

namespace DkgSubstrate.MetadataRotation

open DkgSubstrate.Dispatch
open DkgSubstrate.Metadata
open DkgSubstrate.MetadataCalls
open DkgSubstrate.Primitives
open DkgSubstrate.Proposals
open DkgSubstrate.VoterTree
open DkgSubstrate.Words

variable {L : Limits} {AccountId World : Type}
variable (cfg : Config L AccountId World)

def decompressPublicKey (crypto : Crypto) (compressed : Bytes) :
    Option (FixedBytes 64) :=
  (crypto.parseCompressed compressed).map List.Vector.tail

def createRefreshProposal (pubKey : Bytes) (nonce : ℕ) (s : State L AccountId World) :
    Outcome (State L AccountId World × Proposal L) := do
  let uncompressedPubKey ← okOr (decompressPublicKey cfg.crypto pubKey)
    (.metadata .invalidPublicKeys)
  let voterMerkleRoot ← expect (getVoterSetTreeRoot cfg.crypto
    cfg.dkgAuthorityToMerkleLeaf s.nextAuthorities.toList)
  let proposal : RefreshProposal :=
    { voterMerkleRoot := voterMerkleRoot
      sessionLength := saturatingMul 64 cfg.averageSessionLength
        (saturatingMul 64 cfg.minimumPeriod 2)
      voterCount := truncate 32 s.nextAuthorities.length
      nonce := nonce
      pubKey := uncompressedPubKey }
  .ok ({ s with pendingRefreshProposal := some proposal },
    .unsigned .refresh ((BoundedVec.tryFrom proposal.encode).getD default))

/-- Hands a refresh proposal to the proposal handler, whose errors are only logged. -/
def submitRefresh (accepted : State L AccountId World → State L AccountId World)
    (proposal : Proposal L) (s : State L AccountId World) :
    Outcome (State L AccountId World) := do
  let (world, result) ← cfg.handleUnsignedProposal s.blockNumber proposal s.world
  let handled := { s with world := world }
  match result with
  | .ok () => .ok (accepted handled)
  | .error _ => .ok handled

def doRefresh (pubKey : Bytes) (s : State L AccountId World) :
    Outcome (State L AccountId World) :=
  match createRefreshProposal cfg pubKey (wrappingAdd 32 s.refreshNonce 1) s with
  | .error (.error _) => .ok s
  | .error .panic => .error .panic
  | .ok (s', proposal) =>
      submitRefresh cfg (fun handled => { handled with refreshInProgress := true })
        proposal s'

def shouldRefresh (s : State L AccountId World) : Bool :=
  s.nextDkgPublicKey.isSome && s.nextPublicKeySignature.isNone

def keygenRetryDue (n : ℕ) (s : State L AccountId World) : Bool :=
  let blocksPassed := wrappingSub 32 n s.lastSessionRotationBlock
  cfg.sessionPeriod ≤ blocksPassed &&
    blocksPassed % blocksToWaitBeforeKeygenRetryTrigger = 0

def onInitialize (n : ℕ) (s : State L AccountId World) :
    Outcome (State L AccountId World) :=
  let cleared := if s.shouldExecuteNewKeygen.1 then (false, false)
    else s.shouldExecuteNewKeygen
  let triggered : State L AccountId World :=
    { s with
      shouldExecuteNewKeygen := if keygenRetryDue cfg n s then (true, false) else cleared }
  match s.nextDkgPublicKey with
  | some pubKey =>
      if shouldRefresh s && !s.refreshInProgress then
        doRefresh cfg pubKey.2.toList triggered
      else .ok triggered
  | none => .ok triggered

def onSignedProposal (proposal : Proposal L) (s : State L AccountId World) :
    Outcome (State L AccountId World) := do
  ensure (proposal.isSigned = true) (.metadata .proposalNotSigned)
  if proposal.kind = .refresh then do
    ensure (s.nextDkgPublicKey.isSome = true) (.metadata .noNextPublicKey)
    ensure (s.nextPublicKeySignature = none) (.metadata .alreadySubmittedSignature)
    let curr ← okOr s.pendingRefreshProposal (.metadata .noRefreshProposal)
    ensure (curr.encode = proposal.data) (.metadata .invalidRefreshProposal)
    let boundedSignature ← okOr (BoundedVec.tryFrom (proposal.signature.getD []))
      (.metadata .invalidSignature)
    ensure (boundedSignature ∉ s.usedSignatures.toList) (.metadata .usedSignature)
    .ok { s with
      nextPublicKeySignature := some boundedSignature
      currentRefreshProposal := some curr
      pendingRefreshProposal := none }
  else .ok s

def repairKeygenThreshold (count threshold : ℕ) : ℕ :=
  if count < threshold then truncate 16 count else threshold

theorem repairKeygenThreshold_fits {count n : ℕ} (hn : n < 2 ^ 16) :
    repairKeygenThreshold count n = min count n := by
  rw [repairKeygenThreshold]
  split
  · rw [truncate_of_lt (by omega)]
    omega
  · omega

theorem repairKeygenThreshold_lt {count n : ℕ} (hn : n < 2 ^ 16) :
    repairKeygenThreshold count n < 2 ^ 16 := by
  rw [repairKeygenThreshold_fits hn]
  omega

def repairSignatureThreshold (count threshold : ℕ) : ℕ :=
  if count ≤ threshold then wrappingSub 16 (truncate 16 count) 1 else threshold

/-- The key and the signature with which a rotation goes through, if it does.  A forced
rotation supplies an empty signature. -/
def rotationKeys (forced : Bool) (s : State L AccountId World) :
    Option ((ℕ × Key L) × Signature L) :=
  match s.nextDkgPublicKey with
  | none => none
  | some nextPubKey =>
      if forced then some (nextPubKey, default)
      else s.nextPublicKeySignature.map fun signature => (nextPubKey, signature)

/-- The part of a rotation that is executed in any case: the pending thresholds become
the next ones, repaired for the size of the new next set, which gets a fresh id. -/
def shiftNext (world : World) (nextAuthorities : BoundedVec Public L.maxAuthorities)
    (nextAccounts : BoundedVec AccountId L.maxAuthorities)
    (nextBest : BoundedVec (ℕ × Public) L.maxAuthorities)
    (s : State L AccountId World) : State L AccountId World :=
  let keygenThreshold :=
    repairKeygenThreshold nextAuthorities.length s.pendingKeygenThreshold
  let signatureThreshold :=
    repairSignatureThreshold nextAuthorities.length s.pendingSignatureThreshold
  { s with
    world := world
    refreshInProgress := false
    nextSignatureThreshold := signatureThreshold
    pendingSignatureThreshold := signatureThreshold
    nextKeygenThreshold := keygenThreshold
    pendingKeygenThreshold := keygenThreshold
    nextAuthorities := nextAuthorities
    nextAuthoritiesAccounts := nextAccounts
    nextAuthoritySetId := saturatingAdd 64 s.nextAuthoritySetId 1
    nextBestAuthorities := nextBest }

def activate (authorities : BoundedVec Public L.maxAuthorities)
    (accounts : BoundedVec AccountId L.maxAuthorities) (nextPubKey : ℕ × Key L)
    (nextPubKeySignature : Signature L) (s shifted : State L AccountId World) :
    State L AccountId World :=
  { shifted with
    signatureThreshold := s.nextSignatureThreshold
    keygenThreshold := s.nextKeygenThreshold
    authorities := authorities
    currentAuthoritiesAccounts := accounts
    bestAuthorities := s.nextBestAuthorities
    authoritySetId := s.nextAuthoritySetId
    digest := s.digest ++ [.authoritiesChange ⟨authorities, s.nextAuthoritySetId⟩
      ⟨shifted.nextAuthorities, saturatingAdd 64 s.nextAuthoritySetId 1⟩]
    nextDkgPublicKey := none
    nextPublicKeySignature := none
    historicalRounds := s.historicalRounds.insert nextPubKey.1
      ⟨s.currentKey.2, nextPubKey.2, nextPubKeySignature⟩
    dkgPublicKey := some nextPubKey
    dkgPublicKeySignature := nextPubKeySignature
    previousPublicKey := s.currentKey
    usedSignatures :=
      (s.usedSignatures.tryPush s.dkgPublicKeySignature).getD s.usedSignatures
    refreshNonce := saturatingAdd 32 s.refreshNonce 1
    currentRefreshProposal := none }

def changeAuthorities (newAuthorityIds nextAuthorityIds : List Public)
    (newAuthoritiesAccounts nextAuthoritiesAccounts : List AccountId) (forced : Bool)
    (s : State L AccountId World) : Outcome (State L AccountId World) := do
  let world ← cfg.onAuthoritySetChanged newAuthoritiesAccounts newAuthorityIds s.world
  let nextAuthorities ← expect (BoundedVec.tryFrom nextAuthorityIds)
  let nextAccounts ← expect (BoundedVec.tryFrom nextAuthoritiesAccounts)
  let nextBest ← expect (BoundedVec.tryFrom (getBestAuthorities s.authorityReputations
    s.jailedKeygenAuthorities
    (repairKeygenThreshold nextAuthorityIds.length s.pendingKeygenThreshold)
    nextAuthorityIds))
  let shifted := shiftNext world nextAuthorities nextAccounts nextBest s
  match rotationKeys forced s with
  | none => .ok shifted
  | some (nextPubKey, nextPubKeySignature) => do
      let authorities ← expect (BoundedVec.tryFrom newAuthorityIds)
      let accounts ← expect (BoundedVec.tryFrom newAuthoritiesAccounts)
      .ok (activate authorities accounts nextPubKey nextPubKeySignature s shifted)

def withoutRefresh (s : State L AccountId World) : State L AccountId World :=
  { s with
    pendingRefreshProposal := none
    currentRefreshProposal := none }

def forceChangeAuthorities (origin : Origin AccountId) (s : State L AccountId World) :
    Outcome (State L AccountId World) := do
  ensure (cfg.forceOrigin origin = true) .badOrigin
  let rotated ← changeAuthorities cfg s.nextAuthorities.toList s.nextAuthorities.toList
    s.nextAuthoritiesAccounts.toList s.nextAuthoritiesAccounts.toList true
    (withoutRefresh s)
  match s.nextDkgPublicKey with
  | none => .ok rotated
  | some pubKey => do
      -- The rotation has already counted the nonce up.
      let nextNonce := rotated.refreshNonce
      let (created, proposal) ← createRefreshProposal cfg pubKey.2.toList nextNonce
        { rotated with shouldSubmitProposerVote := true }
      submitRefresh cfg (fun handled =>
        { handled with
          refreshInProgress := true
          refreshNonce := nextNonce }) proposal created

/-- Clears the next key and its signature, but no refresh proposal. -/
def triggerEmergencyKeygen (origin : Origin AccountId) (s : State L AccountId World) :
    Outcome (State L AccountId World) := do
  ensure (cfg.forceOrigin origin = true) .badOrigin
  .ok { s with
    nextDkgPublicKey := none
    nextPublicKeySignature := none
    shouldExecuteNewKeygen := (true, true) }

def releaseAfter (now sentence : ℕ) (authority : Public) (jail : StorageMap Public ℕ) :
    StorageMap Public ℕ :=
  if saturatingAdd 32 (jail.getD authority 0) sentence < now then jail.erase authority
  else jail

def forceUnjailKeygen (origin : Origin AccountId) (authority : Public)
    (s : State L AccountId World) : Outcome (State L AccountId World) := do
  ensure (cfg.forceOrigin origin = true) .badOrigin
  .ok { s with jailedKeygenAuthorities := s.jailedKeygenAuthorities.erase authority }

def forceUnjailSigning (origin : Origin AccountId) (authority : Public)
    (s : State L AccountId World) : Outcome (State L AccountId World) := do
  ensure (cfg.forceOrigin origin = true) .badOrigin
  .ok { s with jailedSigningAuthorities := s.jailedSigningAuthorities.erase authority }

section Sessions

variable [DecidableEq AccountId]

def unjail (origin : Origin AccountId) (s : State L AccountId World) :
    Outcome (State L AccountId World) := do
  let account ← okOr (match origin with
    | .signed account => some account
    | _ => none) .badOrigin
  let authority ← okOr (s.accountToAuthority.lookup account)
    (.metadata .invalidControllerAccount)
  .ok { s with
    jailedKeygenAuthorities := releaseAfter s.blockNumber cfg.keygenJailSentence
      authority s.jailedKeygenAuthorities
    jailedSigningAuthorities := releaseAfter s.blockNumber cfg.signingJailSentence
      authority s.jailedSigningAuthorities }

def onNewSession (validators queuedValidators : List (AccountId × Public))
    (s : State L AccountId World) : Outcome (State L AccountId World) :=
  changeAuthorities cfg (validators.map Prod.snd) (queuedValidators.map Prod.snd)
    (validators.map Prod.fst) (queuedValidators.map Prod.fst) false
    { s with
      accountToAuthority := (validators ++ queuedValidators).foldl
        (fun acc entry => acc.insert entry.1 entry.2) s.accountToAuthority
      lastSessionRotationBlock := s.blockNumber }

def shouldEndSession (now : ℕ) (s : State L AccountId World) : Bool :=
  s.nextDkgPublicKey.isSome && s.nextPublicKeySignature.isSome &&
    decide (cfg.sessionOffset ≤ now) &&
    decide (0 ≤ (now - cfg.sessionOffset) % cfg.sessionPeriod)

/-- Everything that changes the storage: extrinsics, the start of a block, callbacks
and, for the storage of the other pallets, whatever they do by themselves. -/
inductive Call (L : Limits) (AccountId World : Type) where
  | setSignatureThreshold (origin : Origin AccountId) (newThreshold : UInt16)
  | setKeygenThreshold (origin : Origin AccountId) (newThreshold : UInt16)
  | submitPublicKey (origin : Origin AccountId) (keys : List (Bytes × Bytes))
  | submitNextPublicKey (origin : Origin AccountId) (keys : List (Bytes × Bytes))
  | submitMisbehaviourReports (origin : Origin AccountId)
      (reports : AggregatedMisbehaviourReports L)
  | unjail (origin : Origin AccountId)
  | forceUnjailKeygen (origin : Origin AccountId) (authority : Public)
  | forceUnjailSigning (origin : Origin AccountId) (authority : Public)
  | forceChangeAuthorities (origin : Origin AccountId)
  | triggerEmergencyKeygen (origin : Origin AccountId)
  | initializeBlock (n : ℕ)
  | signedProposal (proposal : Proposal L)
  | newSession (validators queuedValidators : List (AccountId × Public))
  | disabled (index : ℕ)
  | environment (world : World)

def dispatch (s : State L AccountId World) :
    Call L AccountId World → Outcome (State L AccountId World)
  | .setSignatureThreshold origin newThreshold =>
      setSignatureThreshold cfg origin newThreshold.toNat s
  | .setKeygenThreshold origin newThreshold =>
      setKeygenThreshold cfg origin newThreshold.toNat s
  | .submitPublicKey origin keys => submitPublicKey cfg origin keys s
  | .submitNextPublicKey origin keys => submitNextPublicKey cfg origin keys s
  | .submitMisbehaviourReports origin reports =>
      submitMisbehaviourReports cfg origin reports s
  | .unjail origin => unjail cfg origin s
  | .forceUnjailKeygen origin authority => forceUnjailKeygen cfg origin authority s
  | .forceUnjailSigning origin authority => forceUnjailSigning cfg origin authority s
  | .forceChangeAuthorities origin => forceChangeAuthorities cfg origin s
  | .triggerEmergencyKeygen origin => triggerEmergencyKeygen cfg origin s
  | .initializeBlock n =>
      onInitialize cfg n { s with
        blockNumber := n
        digest := [] }
  | .signedProposal proposal => onSignedProposal proposal s
  | .newSession validators queuedValidators =>
      onNewSession cfg validators queuedValidators s
  | .disabled index => .ok { s with digest := s.digest ++ [.onDisabled index] }
  | .environment world => .ok { s with world := world }

def step (s : State L AccountId World) (call : Call L AccountId World) :
    State L AccountId World :=
  commit s (dispatch cfg s call)

end Sessions

end DkgSubstrate.MetadataRotation
