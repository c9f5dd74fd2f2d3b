import DkgSubstrate.Dispatch
import DkgSubstrate.Proposals
import DkgSubstrate.Ranking
import DkgSubstrate.StorageMap
import DkgSubstrate.VoterTree

/-!
Storage and configuration of the metadata pallet, the ranking of authorities and the
genesis state.  The block number and the digest belong to the system pallet, and
`world` is the storage of the pallets that this one calls into.
-/

namespace DkgSubstrate.Metadata

open DkgSubstrate.Dispatch
open DkgSubstrate.Primitives
open DkgSubstrate.Proposals
open DkgSubstrate.Ranking
open DkgSubstrate.Words

def initialReputation : ℕ := 1000000000

def blocksToWaitBeforeKeygenRetryTrigger : ℕ := 20

def reputationIncrement : ℕ := initialReputation / 1000

abbrev Key (L : Limits) := BoundedVec UInt8 L.maxKeyLength

abbrev Signature (L : Limits) := BoundedVec UInt8 L.maxSignatureLength

structure RoundMetadata (L : Limits) where
  currRoundPubKey : Key L
  nextRoundPubKey : Key L
  refreshSignature : Signature L
deriving DecidableEq

structure AuthoritySet (L : Limits) where
  authorities : BoundedVec Public L.maxAuthorities
  id : ℕ
deriving DecidableEq

inductive ConsensusLog (L : Limits) where
  | authoritiesChange (active queued : AuthoritySet L)
  | onDisabled (index : ℕ)
deriving DecidableEq

inductive MisbehaviourType where
  | keygen
  | sign
deriving DecidableEq

structure AggregatedMisbehaviourReports (L : Limits) where
  misbehaviourType : MisbehaviourType
  sessionId : UInt64
  offender : Public
  reporters : BoundedVec Public L.maxReporters
  signatures : BoundedVec (Signature L) L.maxReporters

structure State (L : Limits) (AccountId World : Type) where
  blockNumber : ℕ
  digest : List (ConsensusLog L)
  usedSignatures : BoundedVec (Signature L) L.maxSignatureLength
  refreshNonce : ℕ
  nextUnsignedAt : ℕ
  refreshInProgress : Bool
  shouldExecuteNewKeygen : Bool × Bool
  shouldSubmitProposerVote : Bool
  nextDkgPublicKey : Option (ℕ × Key L)
  nextPublicKeySignature : Option (Signature L)
  dkgPublicKey : Option (ℕ × Key L)
  dkgPublicKeySignature : Signature L
  previousPublicKey : ℕ × Key L
  historicalRounds : StorageMap ℕ (RoundMetadata L)
  signatureThreshold : ℕ
  keygenThreshold : ℕ
  nextSignatureThreshold : ℕ
  nextKeygenThreshold : ℕ
  pendingSignatureThreshold : ℕ
  pendingKeygenThreshold : ℕ
  authorities : BoundedVec Public L.maxAuthorities
  authoritySetId : ℕ
  nextAuthoritySetId : ℕ
  nextAuthorities : BoundedVec Public L.maxAuthorities
  currentAuthoritiesAccounts : BoundedVec AccountId L.maxAuthorities
  nextAuthoritiesAccounts : BoundedVec AccountId L.maxAuthorities
  accountToAuthority : StorageMap AccountId Public
  authorityReputations : StorageMap Public ℕ
  jailedKeygenAuthorities : StorageMap Public ℕ
  jailedSigningAuthorities : StorageMap Public ℕ
  bestAuthorities : BoundedVec (ℕ × Public) L.maxAuthorities
  nextBestAuthorities : BoundedVec (ℕ × Public) L.maxAuthorities
  lastSessionRotationBlock : ℕ
  pendingRefreshProposal : Option RefreshProposal
  currentRefreshProposal : Option RefreshProposal
  world : World

/-- The configuration of the pallet.  The two handlers are other pallets; one of them
may return an error after it has written to its storage. -/
structure Config (L : Limits) (AccountId World : Type) where
  crypto : Crypto
  dkgAuthorityToMerkleLeaf : Public → Bytes
  forceOrigin : Origin AccountId → Bool
  keygenJailSentence : ℕ
  signingJailSentence : ℕ
  decayPercentage : ℕ
  unsignedInterval : ℕ
  sessionPeriod : ℕ
  sessionOffset : ℕ
  averageSessionLength : ℕ
  minimumPeriod : ℕ
  onAuthoritySetChanged : List AccountId → List Public → World → Outcome World
  handleUnsignedProposal :
    ℕ → Proposal L → World → Outcome (World × Except DispatchError Unit)

variable {L : Limits} {AccountId World : Type}

def State.empty (world : World) : State L AccountId World where
  blockNumber := 0
  digest := []
  usedSignatures := default
  refreshNonce := 0
  nextUnsignedAt := 0
  refreshInProgress := false
  shouldExecuteNewKeygen := (false, false)
  shouldSubmitProposerVote := false
  nextDkgPublicKey := none
  nextPublicKeySignature := none
  dkgPublicKey := none
  dkgPublicKeySignature := default
  previousPublicKey := (0, default)
  historicalRounds := ∅
  signatureThreshold := 0
  keygenThreshold := 0
  nextSignatureThreshold := 0
  nextKeygenThreshold := 0
  pendingSignatureThreshold := 0
  pendingKeygenThreshold := 0
  authorities := default
  authoritySetId := 0
  nextAuthoritySetId := 0
  nextAuthorities := default
  currentAuthoritiesAccounts := default
  nextAuthoritiesAccounts := default
  accountToAuthority := ∅
  authorityReputations := ∅
  jailedKeygenAuthorities := ∅
  jailedSigningAuthorities := ∅
  bestAuthorities := default
  nextBestAuthorities := default
  lastSessionRotationBlock := 0
  pendingRefreshProposal := none
  currentRefreshProposal := none
  world := world

namespace State

variable (s : State L AccountId World)

def authoritySet : AuthoritySet L := ⟨s.authorities, s.authoritySetId⟩

def nextAuthoritySet : AuthoritySet L := ⟨s.nextAuthorities, s.nextAuthoritySetId⟩

def currentKey : ℕ × Key L := s.dkgPublicKey.getD (0, default)

def dkgKey : Bytes := s.currentKey.2.toList

def nextBestIds : List Public := s.nextBestAuthorities.toList.map Prod.snd

def bestIds : List Public := s.bestAuthorities.toList.map Prod.snd

end State

section Ranking

variable (reputations jailedKeygen : StorageMap Public ℕ)

def getBestAuthoritiesByReputation (count : ℕ) (authorities : List Public) :
    List (ℕ × Public) :=
  numbered 16 (highest (fun id => reputations.getD id 0) count authorities)

def getBestAuthorities (count : ℕ) (authorities : List Public) : List (ℕ × Public) :=
  let jailed := authorities.filter fun id => jailedKeygen.containsKey id
  let unjailed := authorities.filter fun id => !jailedKeygen.containsKey id
  let best :=
    if unjailed.length < count then
      unjailed ++ (getBestAuthoritiesByReputation reputations
        (count - unjailed.length) jailed).map Prod.snd
    else unjailed
  getBestAuthoritiesByReputation reputations count best

/-- `best` numbers a selection of as many of the ids as there are, up to `count`. -/
def SelectsBest (count : ℕ) (ids : List Public) (best : List (ℕ × Public)) : Prop :=
  ∃ selected : List Public, selected.Subperm ids ∧
    selected.length = min count ids.length ∧ best = numbered 16 selected

theorem selectsBest_getBestAuthorities (count : ℕ) (authorities : List Public) :
    SelectsBest count authorities
      (getBestAuthorities reputations jailedKeygen count authorities) := by
  let jailed := authorities.filter fun id => jailedKeygen.containsKey id
  let unjailed := authorities.filter fun id => !jailedKeygen.containsKey id
  let rank := fun id => reputations.getD id 0
  have hsplit : (unjailed ++ jailed).Perm authorities := by
    have := List.filter_append_perm (fun id => !jailedKeygen.containsKey id) authorities
    simpa [unjailed, jailed] using this
  have hlen : unjailed.length + jailed.length = authorities.length := by
    simpa using hsplit.length_eq
  by_cases hfew : unjailed.length < count
  · let filled := unjailed ++ highest rank (count - unjailed.length) jailed
    have hfilled : filled.Subperm authorities := by
      have hjailed := highest_subperm rank (count - unjailed.length) jailed
      exact ((List.subperm_append_left unjailed).mpr hjailed).trans hsplit.subperm
    refine ⟨highest rank count filled, (highest_subperm rank count filled).trans hfilled,
      ?_, ?_⟩
    · simp only [length_highest, filled, List.length_append]
      omega
    · have hcount : (authorities.filter fun id => !jailedKeygen.containsKey id).length <
          count := hfew
      simp only [getBestAuthorities, getBestAuthoritiesByReputation, if_pos hcount,
        map_snd_numbered]
      rfl
  · refine ⟨highest rank count unjailed,
      (highest_subperm rank count unjailed).trans (List.filter_sublist).subperm, ?_, ?_⟩
    · rw [length_highest]
      omega
    · have hcount : ¬(authorities.filter fun id => !jailedKeygen.containsKey id).length <
          count := hfew
      simp only [getBestAuthorities, getBestAuthoritiesByReputation, if_neg hcount]
      rfl

end Ranking

structure GenesisConfig (AccountId : Type) where
  keygenThreshold : UInt16
  signatureThreshold : UInt16
  authorityIds : List AccountId

def GenesisConfig.build (genesis : GenesisConfig AccountId)
    (s : State L AccountId World) : Outcome (State L AccountId World) :=
  let keygenThreshold := genesis.keygenThreshold.toNat
  let signatureThreshold := genesis.signatureThreshold.toNat
  if signatureThreshold < keygenThreshold ∧ 1 < keygenThreshold ∧
      keygenThreshold ≤ genesis.authorityIds.length then
    .ok { s with
      signatureThreshold := signatureThreshold
      keygenThreshold := keygenThreshold
      nextSignatureThreshold := signatureThreshold
      nextKeygenThreshold := keygenThreshold
      pendingSignatureThreshold := signatureThreshold
      pendingKeygenThreshold := keygenThreshold
      refreshNonce := 0 }
  else .error .panic

variable (cfg : Config L AccountId World)

def initializeAuthorities (authorities : List Public)
    (authorityAccountIds : List AccountId) (s : State L AccountId World) :
    Outcome (State L AccountId World) :=
  if authorities = [] then .ok s
  else do
    let _ ← expect (if s.authorities.toList = [] then some () else none)
    let boundedAuthorities ← expect (BoundedVec.tryFrom authorities)
    let boundedAccountIds ← expect (BoundedVec.tryFrom authorityAccountIds)
    let bestAuthorities ← expect (BoundedVec.tryFrom (getBestAuthorities
      s.authorityReputations s.jailedKeygenAuthorities s.keygenThreshold authorities))
    let world ← cfg.onAuthoritySetChanged authorityAccountIds authorities s.world
    .ok { s with
      authorities := boundedAuthorities
      authoritySetId := 0
      currentAuthoritiesAccounts := boundedAccountIds
      nextAuthorities := boundedAuthorities
      nextAuthoritySetId := 1
      nextAuthoritiesAccounts := boundedAccountIds
      bestAuthorities := bestAuthorities
      nextBestAuthorities := bestAuthorities
      world := world }

def onGenesisSession (validators : List (AccountId × Public))
    (s : State L AccountId World) : Outcome (State L AccountId World) :=
  initializeAuthorities cfg (validators.map Prod.snd) (validators.map Prod.fst) s

def genesisState (genesis : GenesisConfig AccountId)
    (validators : List (AccountId × Public)) (world : World) :
    Outcome (State L AccountId World) := do
  let s ← genesis.build (State.empty world)
  onGenesisSession cfg validators s

end DkgSubstrate.Metadata
