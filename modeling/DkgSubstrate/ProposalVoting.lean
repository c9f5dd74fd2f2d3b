import DkgSubstrate.Dispatch
import DkgSubstrate.Proposals
import DkgSubstrate.Runs
import DkgSubstrate.StorageMap

/-!
The voting on proposals.  The proposers, who follow the authority set of the metadata
pallet, vote on a proposal until it is approved and handed to the proposal handler,
rejected or expired.  The rest of the runtime is `World`.
-/

namespace DkgSubstrate.ProposalVoting

open DkgSubstrate.Dispatch
open DkgSubstrate.Primitives
open DkgSubstrate.Proposals
open DkgSubstrate.Words

structure VotingLimits where
  maxVotes : ℕ
  maxResources : ℕ
  maxProposers : ℕ
  votingKeySize : ℕ
  maxProposers_lt : maxProposers < 2 ^ 32

inductive ProposalStatus where
  | initiated
  | approved
  | rejected
deriving DecidableEq

structure ProposalVotes (AccountId : Type) (maxVotes : ℕ) where
  votesFor : BoundedVec AccountId maxVotes
  votesAgainst : BoundedVec AccountId maxVotes
  status : ProposalStatus
  expiry : ℕ
deriving DecidableEq

namespace ProposalVotes

variable {AccountId : Type} {maxVotes : ℕ}

def tryToComplete (threshold total : ℕ) (votes : ProposalVotes AccountId maxVotes) :
    ProposalVotes AccountId maxVotes × ProposalStatus :=
  if threshold ≤ votes.votesFor.length then ({ votes with status := .approved }, .approved)
  else if threshold ≤ total ∧
      total < wrappingAdd 32 (truncate 32 votes.votesAgainst.length) threshold then
    ({ votes with status := .rejected }, .rejected)
  else (votes, .initiated)

def isComplete (votes : ProposalVotes AccountId maxVotes) : Bool :=
  votes.status ≠ .initiated

def isExpired (now : ℕ) (votes : ProposalVotes AccountId maxVotes) : Bool :=
  votes.expiry ≤ now

def hasVoted [DecidableEq AccountId] (who : AccountId)
    (votes : ProposalVotes AccountId maxVotes) : Bool :=
  who ∈ votes.votesFor.toList || who ∈ votes.votesAgainst.toList

def initiate (expiry : ℕ) : ProposalVotes AccountId maxVotes where
  votesFor := default
  votesAgainst := default
  status := .initiated
  expiry := expiry

def tryVote (who : AccountId) (inFavour : Bool) (votes : ProposalVotes AccountId maxVotes) :
    Option (ProposalVotes AccountId maxVotes) :=
  if inFavour then
    (votes.votesFor.tryPush who).map fun votesFor => { votes with votesFor := votesFor }
  else
    (votes.votesAgainst.tryPush who).map fun votesAgainst =>
      { votes with votesAgainst := votesAgainst }

end ProposalVotes

/-- The chain, the nonce and the proposal under which votes are stored. -/
abbrev VoteKey (L : Limits) := TypedChainId × ℕ × Proposal L

/-- The storage of the pallet, the block number, the proposals that the handler has
accepted from it and everything else. -/
structure State (L : Limits) (V : VotingLimits) (AccountId World : Type) where
  blockNumber : ℕ
  chainNonces : StorageMap TypedChainId ℕ
  proposerThreshold : ℕ
  proposers : BoundedVec AccountId V.maxProposers
  votingKeys : BoundedVec (AccountId × BoundedVec UInt8 V.votingKeySize) V.maxProposers
  proposerCount : ℕ
  votes : StorageMap (VoteKey L) (ProposalVotes AccountId V.maxVotes)
  resources : StorageMap (FixedBytes 32) (BoundedVec UInt8 V.maxResources)
  executed : List (Proposal L)
  world : World

structure Config (L : Limits) (AccountId World : Type) where
  decoders : Decoders
  headerNonce : Bytes → ℕ
  chainIdFromBytes : FixedBytes 6 → TypedChainId
  adminOrigin : Origin AccountId → Bool
  chainIdentifier : TypedChainId
  proposalLifetime : ℕ
  dkgAuthorityToMerkleLeaf : Public → Bytes
  handleUnsignedProposal :
    ℕ → Proposal L → World → Outcome (World × Except DispatchError Unit)

variable {L : Limits} {V : VotingLimits} {AccountId World : Type}
variable (cfg : Config L AccountId World)

def dkgDefaultProposerThreshold : ℕ := 1

def State.empty (world : World) : State L V AccountId World where
  blockNumber := 0
  chainNonces := ∅
  proposerThreshold := dkgDefaultProposerThreshold
  proposers := default
  votingKeys := default
  proposerCount := 0
  votes := ∅
  resources := ∅
  executed := []
  world := world

structure GenesisConfig (AccountId : Type) where
  initialChainIds : List (FixedBytes 6)
  initialRIds : List (FixedBytes 32 × Bytes)
  initialProposers : List AccountId

def insertResources :
    List (FixedBytes 32 × Bytes) → StorageMap (FixedBytes 32) (BoundedVec UInt8 V.maxResources) →
      Outcome (StorageMap (FixedBytes 32) (BoundedVec UInt8 V.maxResources))
  | [], resources => .ok resources
  | (rId, rData) :: rIds, resources => do
      let boundedInput ← expect (BoundedVec.tryFrom rData)
      insertResources rIds (resources.insert rId boundedInput)

/-- The number of proposers is not set. -/
def GenesisConfig.build (genesis : GenesisConfig AccountId) (world : World) :
    Outcome (State L V AccountId World) := do
  let resources ← insertResources genesis.initialRIds ∅
  let boundedProposers ← expect (BoundedVec.tryFrom genesis.initialProposers)
  .ok { State.empty world with
    chainNonces := genesis.initialChainIds.foldl
      (fun chains bytes => chains.insert (cfg.chainIdFromBytes bytes) 0) ∅
    resources := resources
    proposers := boundedProposers }

def setProposerThreshold (threshold : ℕ) (s : State L V AccountId World) :
    Outcome (State L V AccountId World) := do
  ensure (0 < threshold) (.proposals .invalidThreshold)
  ensure (threshold ≤ truncate 32 s.proposers.length) (.proposals .invalidThreshold)
  .ok { s with proposerThreshold := threshold }

def setThreshold (origin : Origin AccountId) (threshold : ℕ)
    (s : State L V AccountId World) : Outcome (State L V AccountId World) := do
  ensure (cfg.adminOrigin origin = true) .badOrigin
  setProposerThreshold threshold s

def setResource (origin : Origin AccountId) (id : FixedBytes 32) (method : Bytes)
    (s : State L V AccountId World) : Outcome (State L V AccountId World) := do
  ensure (cfg.adminOrigin origin = true) .badOrigin
  let boundedMethod ← okOr (BoundedVec.tryFrom method) (.proposals .outOfBounds)
  .ok { s with resources := s.resources.insert id boundedMethod }

def removeResource (origin : Origin AccountId) (id : FixedBytes 32)
    (s : State L V AccountId World) : Outcome (State L V AccountId World) := do
  ensure (cfg.adminOrigin origin = true) .badOrigin
  .ok { s with resources := s.resources.erase id }

def whitelistChain (origin : Origin AccountId) (chainId : TypedChainId)
    (s : State L V AccountId World) : Outcome (State L V AccountId World) := do
  ensure (cfg.adminOrigin origin = true) .badOrigin
  ensure (chainId ≠ cfg.chainIdentifier) (.proposals .invalidChainId)
  ensure (s.chainNonces.containsKey chainId = false) (.proposals .chainAlreadyWhitelisted)
  .ok { s with chainNonces := s.chainNonces.insert chainId 0 }

/-- The account ids become the proposers and the keys their voting keys. -/
def onAuthoritySetChanged (authorities : List AccountId) (authorityIds : List Public)
    (s : State L V AccountId World) : Outcome (State L V AccountId World) := do
  let externalAccounts ← authorityIds.mapM fun id =>
    expect (BoundedVec.tryFrom (cfg.dkgAuthorityToMerkleLeaf id))
  let boundedProposers ← expect (BoundedVec.tryFrom authorities)
  let boundedExternalAccounts ← expect (BoundedVec.tryFrom (authorities.zip externalAccounts))
  .ok { s with
    proposerCount := truncate 32 authorities.length
    proposers := boundedProposers
    votingKeys := boundedExternalAccounts }

def ensureSigned (origin : Origin AccountId) : Outcome AccountId :=
  match origin with
  | .signed who => .ok who
  | _ => .error (.error .badOrigin)

def finalizeExecution (prop : Proposal L) (s : State L V AccountId World) :
    Outcome (State L V AccountId World) := do
  let (world, result) ← cfg.handleUnsignedProposal s.blockNumber prop s.world
  match result with
  | .ok () => .ok { s with
      executed := s.executed ++ [prop]
      world := world }
  | .error e => .error (.error e)

def tryResolveProposal (nonce : ℕ) (srcChainId : TypedChainId) (prop : Proposal L)
    (s : State L V AccountId World) : Outcome (State L V AccountId World) := do
  let votes ← okOr (s.votes.lookup (srcChainId, nonce, prop)) (.proposals .proposalDoesNotExist)
  ensure (votes.isComplete = false) (.proposals .proposalAlreadyComplete)
  ensure (votes.isExpired s.blockNumber = false) (.proposals .proposalExpired)
  let (completed, status) := votes.tryToComplete s.proposerThreshold s.proposerCount
  let stored := { s with votes := s.votes.insert (srcChainId, nonce, prop) completed }
  match status with
  | .approved => finalizeExecution cfg prop stored
  | _ => .ok stored

section Voting

variable [DecidableEq AccountId]

def isProposer (who : AccountId) (s : State L V AccountId World) : Bool :=
  who ∈ s.proposers.toList

def votesOrNew (key : VoteKey L) (s : State L V AccountId World) :
    ProposalVotes AccountId V.maxVotes :=
  s.votes.getD key (.initiate (wrappingAdd 32 s.blockNumber cfg.proposalLifetime))

def commitVote (who : AccountId) (nonce : ℕ) (srcChainId : TypedChainId) (prop : Proposal L)
    (inFavour : Bool) (s : State L V AccountId World) :
    Outcome (State L V AccountId World) := do
  let votes := votesOrNew cfg (srcChainId, nonce, prop) s
  ensure (votes.isComplete = false) (.proposals .proposalAlreadyComplete)
  ensure (votes.isExpired s.blockNumber = false) (.proposals .proposalExpired)
  ensure (votes.hasVoted who = false) (.proposals .proposerAlreadyVoted)
  let voted ← okOr (votes.tryVote who inFavour) (.proposals .outOfBounds)
  .ok { s with votes := s.votes.insert (srcChainId, nonce, prop) voted }

def decodeIdentifier (prop : Proposal L) : Outcome ProposalIdentifier :=
  match decodeProposalIdentifier cfg.decoders prop with
  | .ok identifier => .ok identifier
  | .error (.invalid _) => .error (.error (.proposals .invalidProposal))
  | .error .panic => .error .panic

/-- The votes for and against a proposal differ only in the list that they are added to. -/
def castVote (inFavour : Bool) (origin : Origin AccountId) (prop : Proposal L)
    (s : State L V AccountId World) : Outcome (State L V AccountId World) := do
  let who ← ensureSigned origin
  let identifier ← decodeIdentifier cfg prop
  let resourceId ← okOr (decodeProposalHeader prop.data).toOption (.proposals .invalidProposal)
  ensure (isProposer who s = true) (.proposals .mustBeProposer)
  ensure (s.chainNonces.containsKey identifier.typedChainId = true)
    (.proposals .chainNotWhitelisted)
  ensure (s.resources.containsKey resourceId = true) (.proposals .resourceDoesNotExist)
  let nonce := cfg.headerNonce prop.data
  let voted ← commitVote cfg who nonce identifier.typedChainId prop inFavour s
  tryResolveProposal cfg nonce identifier.typedChainId prop voted

def acknowledgeProposal : Origin AccountId → Proposal L → State L V AccountId World →
    Outcome (State L V AccountId World) :=
  castVote cfg true

def rejectProposal : Origin AccountId → Proposal L → State L V AccountId World →
    Outcome (State L V AccountId World) :=
  castVote cfg false

def evalVoteState (origin : Origin AccountId) (nonce : ℕ) (srcChainId : TypedChainId)
    (prop : Proposal L) (s : State L V AccountId World) :
    Outcome (State L V AccountId World) := do
  let _ ← ensureSigned origin
  tryResolveProposal cfg nonce srcChainId prop s

/-- The calls, the hook, the blocks that pass and whatever else the runtime does. -/
inductive Call (L : Limits) (AccountId World : Type) where
  | setThreshold (origin : Origin AccountId) (threshold : UInt32)
  | setResource (origin : Origin AccountId) (id : FixedBytes 32) (method : Bytes)
  | removeResource (origin : Origin AccountId) (id : FixedBytes 32)
  | whitelistChain (origin : Origin AccountId) (chainId : TypedChainId)
  | acknowledgeProposal (origin : Origin AccountId) (prop : Proposal L)
  | rejectProposal (origin : Origin AccountId) (prop : Proposal L)
  | evalVoteState (origin : Origin AccountId) (nonce : ℕ) (srcChainId : TypedChainId)
      (prop : Proposal L)
  | authoritySetChanged (authorities : List AccountId) (authorityIds : List Public)
  | passBlocks (count : ℕ)
  | environment (world : World)

def dispatch (s : State L V AccountId World) :
    Call L AccountId World → Outcome (State L V AccountId World)
  | .setThreshold origin threshold => setThreshold cfg origin threshold.toNat s
  | .setResource origin id method => setResource cfg origin id method s
  | .removeResource origin id => removeResource cfg origin id s
  | .whitelistChain origin chainId => whitelistChain cfg origin chainId s
  | .acknowledgeProposal origin prop => acknowledgeProposal cfg origin prop s
  | .rejectProposal origin prop => rejectProposal cfg origin prop s
  | .evalVoteState origin nonce srcChainId prop =>
      evalVoteState cfg origin nonce srcChainId prop s
  | .authoritySetChanged authorities authorityIds =>
      onAuthoritySetChanged cfg authorities authorityIds s
  | .passBlocks count => .ok { s with blockNumber := s.blockNumber + count }
  | .environment world => .ok { s with world := world }

def step (s : State L V AccountId World) (call : Call L AccountId World) :
    State L V AccountId World :=
  commit s (dispatch cfg s call)

def Accepted (s : State L V AccountId World) (call : Call L AccountId World) : Prop :=
  (dispatch cfg s call).isOk = true

def resolved (key : VoteKey L) (votes : ProposalVotes AccountId V.maxVotes) (world : World)
    (s : State L V AccountId World) : State L V AccountId World :=
  let completed := votes.tryToComplete s.proposerThreshold s.proposerCount
  { s with
    votes := s.votes.insert key completed.1
    executed := s.executed ++ if completed.2 = .approved then [key.2.2] else []
    world := world }

def Open (now : ℕ) (votes : ProposalVotes AccountId V.maxVotes) : Prop :=
  votes.isComplete = false ∧ votes.isExpired now = false

def KeyOf (key : VoteKey L) : Prop :=
  ∃ payloadKey, decodeProposalIdentifier cfg.decoders key.2.2 = .ok ⟨payloadKey, key.1⟩ ∧
    cfg.headerNonce key.2.2.data = key.2.1

def castCall (inFavour : Bool) (origin : Origin AccountId) (prop : Proposal L) :
    Call L AccountId World :=
  if inFavour then .acknowledgeProposal origin prop else .rejectProposal origin prop

inductive Effect (s : State L V AccountId World) :
    Call L AccountId World → State L V AccountId World → Prop
  | setThreshold {origin} {threshold : UInt32} (hpos : 0 < threshold.toNat)
      (hle : threshold.toNat ≤ s.proposers.length) :
      Effect s (.setThreshold origin threshold)
        { s with proposerThreshold := threshold.toNat }
  | setResource {origin id method} (method' : BoundedVec UInt8 V.maxResources) :
      Effect s (.setResource origin id method)
        { s with resources := s.resources.insert id method' }
  | removeResource {origin id} :
      Effect s (.removeResource origin id) { s with resources := s.resources.erase id }
  | whitelistChain {origin chainId} :
      Effect s (.whitelistChain origin chainId)
        { s with chainNonces := s.chainNonces.insert chainId 0 }
  | voted {who : AccountId} {key : VoteKey L} {votes : ProposalVotes AccountId V.maxVotes}
      (inFavour : Bool) (world : World) (hproposer : who ∈ s.proposers.toList)
      (hkey : KeyOf cfg key) (hopen : Open s.blockNumber (votesOrNew cfg key s))
      (hnew : (votesOrNew cfg key s).hasVoted who = false)
      (hvotes : (votesOrNew cfg key s).tryVote who inFavour = some votes) :
      Effect s (castCall inFavour (.signed who) key.2.2) (resolved key votes world s)
  | evaluated {origin} {key : VoteKey L} {votes : ProposalVotes AccountId V.maxVotes}
      (world : World) (hlookup : s.votes.lookup key = some votes)
      (hopen : Open s.blockNumber votes) :
      Effect s (.evalVoteState origin key.2.1 key.1 key.2.2) (resolved key votes world s)
  | setChanged {authorities authorityIds} {proposers : BoundedVec AccountId V.maxProposers}
      (votingKeys : BoundedVec (AccountId × BoundedVec UInt8 V.votingKeySize) V.maxProposers)
      (hproposers : proposers.toList = authorities) :
      Effect s (.authoritySetChanged authorities authorityIds)
        { s with
          proposerCount := proposers.length
          proposers := proposers
          votingKeys := votingKeys }
  | passBlocks {count} :
      Effect s (.passBlocks count) { s with blockNumber := s.blockNumber + count }
  | environment {world} : Effect s (.environment world) { s with world := world }

variable {cfg} {s s' : State L V AccountId World}

omit [DecidableEq AccountId] in
theorem truncate_length_proposers (proposers : BoundedVec AccountId V.maxProposers) :
    truncate 32 proposers.toList.length = proposers.length :=
  truncate_of_lt (proposers.length_le.trans_lt V.maxProposers_lt)

omit [DecidableEq AccountId] in
theorem decodeIdentifier_eq_ok {prop : Proposal L} {identifier : ProposalIdentifier} :
    decodeIdentifier cfg prop = .ok identifier ↔
      decodeProposalIdentifier cfg.decoders prop = .ok identifier := by
  rw [decodeIdentifier]
  cases decodeProposalIdentifier cfg.decoders prop with
  | ok v => simp
  | error fault => cases fault <;> simp

omit [DecidableEq AccountId] in
theorem ensureSigned_eq_ok {origin : Origin AccountId} {who : AccountId} :
    ensureSigned origin = .ok who ↔ origin = .signed who := by
  cases origin <;> simp [ensureSigned]

omit [DecidableEq AccountId] in
theorem tryResolveProposal_ok {nonce : ℕ} {chain : TypedChainId} {prop : Proposal L}
    (h : tryResolveProposal cfg nonce chain prop s = .ok s') :
    ∃ votes world, s.votes.lookup (chain, nonce, prop) = some votes ∧
      Open s.blockNumber votes ∧ s' = resolved (chain, nonce, prop) votes world s := by
  simp only [tryResolveProposal, bind_eq_ok, okOr_eq_ok, ensure_eq_ok] at h
  obtain ⟨votes, hvotes, _, hincomplete, _, hunexpired, h⟩ := h
  cases hstatus : (votes.tryToComplete s.proposerThreshold s.proposerCount).2 with
  | approved =>
      simp only [hstatus, finalizeExecution, bind_eq_ok] at h
      obtain ⟨⟨world, result⟩, -, h⟩ := h
      refine ⟨votes, world, hvotes, ⟨hincomplete, hunexpired⟩, ?_⟩
      cases result with
      | error e => cases h
      | ok _ =>
          rw [← Except.ok.inj h, resolved, if_pos hstatus]
  | initiated =>
      simp only [hstatus] at h
      refine ⟨votes, s.world, hvotes, ⟨hincomplete, hunexpired⟩, ?_⟩
      rw [← Except.ok.inj h, resolved, hstatus, if_neg (by decide), List.append_nil]
  | rejected =>
      simp only [hstatus] at h
      refine ⟨votes, s.world, hvotes, ⟨hincomplete, hunexpired⟩, ?_⟩
      rw [← Except.ok.inj h, resolved, hstatus, if_neg (by decide), List.append_nil]

theorem castVote_ok {inFavour : Bool} {origin : Origin AccountId} {prop : Proposal L}
    (h : castVote cfg inFavour origin prop s = .ok s') :
    Effect cfg s (castCall inFavour origin prop) s' := by
  simp only [castVote, commitVote, bind_eq_ok, okOr_eq_ok, ensure_eq_ok] at h
  obtain ⟨who, hwho, identifier, hidentifier, resourceId, -, _, hproposer, _, -, _, -, committed,
    ⟨_, hincomplete, _, hunexpired, _, hnew, votes, hvotes, hcommitted⟩, h⟩ := h
  rw [← Except.ok.inj hcommitted] at h
  obtain ⟨votes', world, hlookup, -, rfl⟩ := tryResolveProposal_ok h
  rw [StorageMap.lookup_insert_eq, if_pos rfl] at hlookup
  obtain rfl := Option.some.inj hlookup
  obtain rfl := ensureSigned_eq_ok.mp hwho
  have hkey : KeyOf cfg (identifier.typedChainId, cfg.headerNonce prop.data, prop) :=
    ⟨identifier.key, decodeIdentifier_eq_ok.mp hidentifier, rfl⟩
  have heffect : Effect cfg s _ _ := .voted inFavour world (of_decide_eq_true hproposer) hkey
    ⟨hincomplete, hunexpired⟩ hnew hvotes
  rw [resolved, AList.insert_insert]
  exact heffect

theorem onAuthoritySetChanged_ok {authorities : List AccountId} {authorityIds : List Public}
    (h : onAuthoritySetChanged cfg authorities authorityIds s = .ok s') :
    Effect cfg s (.authoritySetChanged authorities authorityIds) s' := by
  simp only [onAuthoritySetChanged, bind_eq_ok, expect_eq_ok, BoundedVec.tryFrom_eq_some] at h
  obtain ⟨externalAccounts, -, proposers, rfl, votingKeys, -, h⟩ := h
  rw [← Except.ok.inj h, truncate_length_proposers]
  exact .setChanged votingKeys rfl

theorem dispatch_effect {call : Call L AccountId World} (h : dispatch cfg s call = .ok s') :
    Effect cfg s call s' := by
  cases call with
  | setThreshold origin threshold =>
      simp only [dispatch, setThreshold, setProposerThreshold, bind_eq_ok, ensure_eq_ok] at h
      obtain ⟨_, -, _, hpos, _, hle, h⟩ := h
      rw [← Except.ok.inj h]
      exact .setThreshold hpos (hle.trans (truncate_length_proposers s.proposers).le)
  | setResource origin id method =>
      simp only [dispatch, setResource, bind_eq_ok] at h
      obtain ⟨_, -, method', -, h⟩ := h
      rw [← Except.ok.inj h]
      exact .setResource method'
  | removeResource origin id =>
      simp only [dispatch, removeResource, bind_eq_ok] at h
      obtain ⟨_, -, h⟩ := h
      rw [← Except.ok.inj h]
      exact .removeResource
  | whitelistChain origin chainId =>
      simp only [dispatch, whitelistChain, bind_eq_ok] at h
      obtain ⟨_, -, _, -, _, -, h⟩ := h
      rw [← Except.ok.inj h]
      exact .whitelistChain
  | acknowledgeProposal origin prop => exact castVote_ok h
  | rejectProposal origin prop => exact castVote_ok h
  | evalVoteState origin nonce srcChainId prop =>
      simp only [dispatch, evalVoteState, bind_eq_ok] at h
      obtain ⟨_, -, h⟩ := h
      obtain ⟨votes, world, hlookup, hopen, rfl⟩ := tryResolveProposal_ok h
      exact .evaluated world hlookup hopen
  | authoritySetChanged authorities authorityIds => exact onAuthoritySetChanged_ok h
  | passBlocks count =>
      rw [← Except.ok.inj h]
      exact .passBlocks
  | environment world =>
      rw [← Except.ok.inj h]
      exact .environment

theorem step_effect (cfg : Config L AccountId World) (s : State L V AccountId World)
    (call : Call L AccountId World) :
    (¬Accepted cfg s call ∧ step cfg s call = s) ∨
      (Accepted cfg s call ∧ Effect cfg s call (step cfg s call)) := by
  rw [Accepted, step]
  cases hdispatch : dispatch cfg s call with
  | error fault => exact .inl ⟨Bool.false_ne_true, rfl⟩
  | ok s' => exact .inr ⟨rfl, dispatch_effect hdispatch⟩

theorem step_of_effect {P : State L V AccountId World → Prop} {call : Call L AccountId World}
    (h : P s) (heffect : ∀ t, Effect cfg s call t → P t) : P (step cfg s call) :=
  commit_cases h fun t hdispatch => heffect t (dispatch_effect hdispatch)

end Voting

end DkgSubstrate.ProposalVoting
