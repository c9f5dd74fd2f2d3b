import DkgSubstrate.BatchExpiry
import DkgSubstrate.JobLiveness

/-!
The priority of refresh proposals.  The chain of a proposal is read from its first 32 bytes,
which for a refresh proposal are the Merkle root of the voters, and the signing manager starts
the batches for no chain at once.
-/

namespace DkgSubstrate.RefreshPriority

open DkgSubstrate.BatchExpiry
open DkgSubstrate.Dispatch
open DkgSubstrate.JobLiveness
open DkgSubstrate.Metadata (Config State)
open DkgSubstrate.MetadataRotation
open DkgSubstrate.Primitives
open DkgSubstrate.ProposalDecoding
open DkgSubstrate.Proposals
open DkgSubstrate.Runs
open DkgSubstrate.SampleRuntime
open DkgSubstrate.SigningManager (Finalized SigningTask signBatch)
open DkgSubstrate.VoterTree
open DkgSubstrate.WorkManager (Handle Job Remote pushTask)
open DkgSubstrate.Words

variable {L : Limits} {AccountId World : Type}

theorem take_encode (p : RefreshProposal) : p.encode.take 32 = p.voterMerkleRoot.toList := by
  rw [RefreshProposal.encode, List.take_left' p.voterMerkleRoot.toList_length]

theorem typedChainIdOf_eq_none {chainType : Bytes → Option (ℕ → TypedChainId)}
    (hchains : ∀ bytes chain id, chainType bytes = some chain → chain id ≠ .none)
    (resourceId : FixedBytes 32) :
    typedChainIdOf chainType resourceId = .none ↔
      chainType ((resourceId.toList.drop 26).take 2) = none := by
  rw [typedChainIdOf]
  cases hchain : chainType ((resourceId.toList.drop 26).take 2) with
  | none => simp
  | some chain => simpa using hchains _ chain _ hchain

theorem createRefreshProposal_eq_ok {cfg : Config L AccountId World} {pubKey : Bytes}
    {nonce : ℕ} {s s' : State L AccountId World} {proposal : Proposal L}
    (h : createRefreshProposal cfg pubKey nonce s = .ok (s', proposal)) :
    ∃ p : RefreshProposal, getVoterSetTreeRoot cfg.crypto cfg.dkgAuthorityToMerkleLeaf
        s.nextAuthorities.toList = some p.voterMerkleRoot ∧
      proposal = .unsigned .refresh ((BoundedVec.tryFrom p.encode).getD default) := by
  simp only [createRefreshProposal, bind_eq_ok, okOr_eq_ok, expect_eq_ok,
    Except.ok.injEq, Prod.mk.injEq] at h
  obtain ⟨pub, -, root, hroot, -, rfl⟩ := h
  exact ⟨_, hroot, rfl⟩

theorem data_refresh (p : RefreshProposal) :
    (Proposal.unsigned .refresh ((BoundedVec.tryFrom p.encode).getD default) :
      Proposal L).data =
      if RefreshProposal.length ≤ L.maxProposalLength then p.encode else [] := by
  rw [Proposal.data]
  by_cases hfits : RefreshProposal.length ≤ L.maxProposalLength
  · rw [if_pos hfits]
    cases hdata : (BoundedVec.tryFrom p.encode : Option (BoundedVec UInt8 L.maxProposalLength)) with
    | none =>
        rw [BoundedVec.tryFrom_eq_none, p.length_encode] at hdata
        exact absurd hfits (Nat.not_le.mpr hdata)
    | some data => exact BoundedVec.tryFrom_eq_some.mp hdata
  · rw [if_neg hfits]
    have hdata : (BoundedVec.tryFrom p.encode : Option (BoundedVec UInt8 L.maxProposalLength)) =
        none := by
      rw [BoundedVec.tryFrom_eq_none, p.length_encode]
      exact Nat.not_le.mp hfits
    rw [hdata]
    rfl

theorem decodeProposalIdentifier_refresh (D : Decoders) (p : RefreshProposal)
    {id : ProposalIdentifier} :
    decodeProposalIdentifier D (.unsigned .refresh ((BoundedVec.tryFrom p.encode).getD default) :
      Proposal L) = .ok id ↔
      RefreshProposal.length ≤ L.maxProposalLength ∧
        id = ⟨.refreshProposal (ofBeBytes ((p.encode.drop 44).take 4)),
          D.typedChainId p.voterMerkleRoot⟩ := by
  rw [decodeProposalIdentifier_eq_ok_of_ne_evm (by exact ProposalKind.noConfusion), data_refresh]
  by_cases hfits : RefreshProposal.length ≤ L.maxProposalLength
  · have hheader : proposalHeaderLength ≤ p.encode.length := by
      rw [p.length_encode]
      decide
    have hcreate : create D .refresh p.encode =
        .ok (ofBeBytes ((p.encode.drop 44).take 4)) :=
      refreshCreate_eq_ok.mpr ⟨p.length_encode, rfl⟩
    rw [if_pos hfits]
    constructor
    · rintro ⟨resourceId, hresource, key, hkey, nonce, hnonce, rfl⟩
      have hroot := (decodeProposalHeader_eq_ok.mp hresource).2
      rw [take_encode] at hroot
      cases hkey
      rw [show resourceId = p.voterMerkleRoot from Subtype.ext hroot]
      rw [show (Proposal.unsigned .refresh
        ((BoundedVec.tryFrom p.encode).getD default) : Proposal L).kind = .refresh from rfl,
        hcreate] at hnonce
      exact ⟨hfits, by rw [Except.ok.inj hnonce]⟩
    · rintro ⟨-, rfl⟩
      exact ⟨p.voterMerkleRoot, decodeProposalHeader_eq_ok.mpr ⟨hheader, (take_encode p).symm⟩,
        .refreshProposal, rfl, _, hcreate, rfl⟩
  · rw [if_neg hfits]
    constructor
    · rintro ⟨resourceId, hresource, -⟩
      exact absurd (decodeProposalHeader_eq_ok.mp hresource).1 (by decide)
    · exact fun h => absurd h.1 hfits

/-- Every task that the signing manager pushes for the batch gets its start signal at once,
however many tasks are running, and it is among the active ones unless one with the same hash
is. -/
def StartedAtOnce (batch : StoredUnsignedProposalBatch L) : Prop :=
  ∀ (cfg : SigningManager.Config L) (block : Finalized L) (partyI : ℕ)
    (fullUnsignedProposals : List (StoredUnsignedProposalBatch L)) (turn : ℕ)
    (s : SigningManager.State) (task : SigningTask),
    (signBatch cfg block partyI fullUnsignedProposals turn batch s).1.tasks = task :: s.tasks →
    ∀ (work : WorkManager.State) (handle : Handle),
      let pushed := pushTask task.hash task.forceStart handle Remote.new work
      (pushed.remotes work.nextId).startTx = false ∧
        (task.hash ∉ work.activeTasks.jobs.map Job.taskHash →
          ⟨work.nextId, task.hash, handle⟩ ∈ pushed.activeTasks.jobs)

theorem forceStart_signBatch {cfg : SigningManager.Config L} {block : Finalized L} {partyI : ℕ}
    {fullUnsignedProposals : List (StoredUnsignedProposalBatch L)} {turn : ℕ}
    {batch : StoredUnsignedProposalBatch L} {s : SigningManager.State} {task : SigningTask}
    (h : (signBatch cfg block partyI fullUnsignedProposals turn batch s).1.tasks =
      task :: s.tasks) :
    ∃ first ∈ batch.proposals.toList, task.forceStart = decide (first.typedChainId = .none) := by
  have hsame : s.tasks ≠ task :: s.tasks := fun heq => by
    simpa using congrArg List.length heq
  rw [signBatch] at h
  cases hhead : batch.proposals.toList.head? with
  | none =>
      simp only [hhead] at h
      exact absurd h hsame
  | some first =>
      refine ⟨first, List.mem_of_head? hhead, ?_⟩
      simp only [hhead] at h
      split at h
      · exact absurd h hsame
      · split at h
        · exact absurd h hsame
        · split at h
          · exact absurd h hsame
          · split at h
            · exact absurd h hsame
            · split at h
              · exact absurd h hsame
              · split at h
                · rw [← (List.cons.inj h).1]
                · rw [← (List.cons.inj h).1]

theorem startedAtOnce_of_forall {batch : StoredUnsignedProposalBatch L}
    (h : ∀ u ∈ batch.proposals.toList, u.typedChainId = .none) : StartedAtOnce batch := by
  intro cfg block partyI fullUnsignedProposals turn s task hpushed work handle
  obtain ⟨first, hfirst, hforce⟩ := forceStart_signBatch hpushed
  have htrue : task.forceStart = true := by
    rw [hforce, decide_eq_true (h first hfirst)]
  simp only [htrue, pushTask, if_true]
  refine ⟨startTx_startJobUnconditional ⟨work.nextId, task.hash, handle⟩ _, ?_⟩
  intro hnew
  rcases startJobUnconditional_cases ⟨work.nextId, task.hash, handle⟩
    { work.setRemote work.nextId Remote.new with nextId := work.nextId + 1 } with
    ⟨-, hactive, -⟩ | ⟨hold, -⟩
  · rw [hactive]
    exact List.mem_cons_self
  · exact absurd hold hnew

/-- A refresh proposal is decoded to no chain, and the batches that hold it are started at
once, exactly if it fits into a proposal and two bytes of the Merkle root of its voters are no
chain type. -/
theorem refresh_priority_iff (cfg : Config L AccountId World) {R : Type}
    (handler : ProposalHandler.Config L AccountId R)
    {chainType : Bytes → Option (ℕ → TypedChainId)}
    (hdecoders : handler.decoders.typedChainId = typedChainIdOf chainType)
    (hchains : ∀ bytes chain id, chainType bytes = some chain → chain id ≠ .none)
    {pubKey : Bytes} {nonce : ℕ} {s s' : State L AccountId World} {proposal : Proposal L}
    (hcreated : createRefreshProposal cfg pubKey nonce s = .ok (s', proposal)) :
    ((∃ id, decodeProposalIdentifier handler.decoders proposal = .ok id ∧
        id.typedChainId = .none) ∧
      ∀ rest calls key stored, (run (ProposalHandler.step handler)
        (ProposalHandler.State.empty rest) calls).unsignedProposalQueue.lookup key =
          some stored →
        (∃ u ∈ stored.proposals.toList, u.proposal = proposal) → StartedAtOnce stored) ↔
      RefreshProposal.length ≤ L.maxProposalLength ∧
        ∃ root, getVoterSetTreeRoot cfg.crypto cfg.dkgAuthorityToMerkleLeaf
          s.nextAuthorities.toList = some root ∧
          chainType ((root.toList.drop 26).take 2) = none := by
  obtain ⟨p, hroot, rfl⟩ := createRefreshProposal_eq_ok hcreated
  have hchain : handler.decoders.typedChainId p.voterMerkleRoot = .none ↔
      chainType ((p.voterMerkleRoot.toList.drop 26).take 2) = none := by
    rw [hdecoders]
    exact typedChainIdOf_eq_none hchains p.voterMerkleRoot
  constructor
  · rintro ⟨⟨id, hid, hnone⟩, -⟩
    obtain ⟨hfits, rfl⟩ := (decodeProposalIdentifier_refresh handler.decoders p).mp hid
    exact ⟨hfits, p.voterMerkleRoot, hroot, hchain.mp hnone⟩
  · rintro ⟨hfits, root, hroot', htype⟩
    rw [hroot] at hroot'
    obtain rfl := Option.some.inj hroot'
    have hid := (decodeProposalIdentifier_refresh (L := L) handler.decoders p).mpr ⟨hfits, rfl⟩
    refine ⟨⟨_, hid, hchain.mpr htype⟩, ?_⟩
    rintro rest calls ⟨chain, batchId⟩ stored hlookup ⟨u, hu, huprop⟩
    have hdecoded : ∀ v ∈ stored.proposals.toList, v.typedChainId = chain ∧
        decodeProposalIdentifier handler.decoders v.proposal = .ok ⟨v.key, chain⟩ :=
      fun v hv => onlyDecoded_run handler rest calls chain v
        (.inr ⟨batchId, stored, hlookup, hv⟩)
    have hu' := (hdecoded u hu).2
    rw [huprop, hid] at hu'
    have hnone : chain = .none := by
      rw [← hchain.mpr htype]
      exact (congrArg ProposalIdentifier.typedChainId (Except.ok.inj hu')).symm
    refine startedAtOnce_of_forall ?_
    intro v hv
    rw [(hdecoded v hv).1, hnone]

theorem sampleChainType_ne_none (bytes : Bytes) (chain : ℕ → TypedChainId) (id : ℕ)
    (h : sampleChainType bytes = some chain) : chain id ≠ .none := by
  unfold sampleChainType at h
  split at h <;> cases h <;> simp

def sampleVoters (voters : List UInt8) : State runtimeLimits ℕ Unit :=
  { sampleGenesis 2 1 2 with
    nextAuthorities := (BoundedVec.tryFrom (voters.map samplePublic)).getD default }

def sampleCreated (voters : List UInt8) : State runtimeLimits ℕ Unit × Proposal runtimeLimits :=
  commit (sampleVoters voters, sampleTokenAdd 0)
    (createRefreshProposal sampleConfig (samplePublic 9).toList 3 (sampleVoters voters))

theorem createRefreshProposal_sampleVoters (voters : List UInt8)
    (h : (createRefreshProposal sampleConfig (samplePublic 9).toList 3
      (sampleVoters voters)).isOk = true) :
    createRefreshProposal sampleConfig (samplePublic 9).toList 3 (sampleVoters voters) =
      .ok ((sampleCreated voters).1, (sampleCreated voters).2) :=
  eq_ok_commit _ h

theorem refresh_priority_sample :
    (∃ id, decodeProposalIdentifier RefreshCleanup.chainHandler.decoders
        (sampleCreated [1, 2]).2 = .ok id ∧ id.typedChainId = .none) ∧
      ∀ rest calls key stored, (run (ProposalHandler.step RefreshCleanup.chainHandler)
        (ProposalHandler.State.empty rest) calls).unsignedProposalQueue.lookup key =
          some stored →
        (∃ u ∈ stored.proposals.toList, u.proposal = (sampleCreated [1, 2]).2) →
          StartedAtOnce stored :=
  (refresh_priority_iff sampleConfig RefreshCleanup.chainHandler rfl sampleChainType_ne_none
    (createRefreshProposal_sampleVoters [1, 2] (by decide +kernel))).mpr
    ⟨by decide, (getVoterSetTreeRoot sampleCrypto List.Vector.toList
      (sampleVoters [1, 2]).nextAuthorities.toList).getD (List.Vector.replicate 32 0),
      by decide +kernel, by decide +kernel⟩

theorem refresh_for_evm_chain :
    createRefreshProposal sampleConfig (samplePublic 9).toList 3 (sampleVoters [176, 104]) =
        .ok ((sampleCreated [176, 104]).1, (sampleCreated [176, 104]).2) ∧
      decodeProposalIdentifier chainDecoders (sampleCreated [176, 104]).2 =
        .ok ⟨.refreshProposal 3, .evm 2913063928⟩ :=
  ⟨createRefreshProposal_sampleVoters [176, 104] (by decide +kernel), by decide +kernel⟩

end DkgSubstrate.RefreshPriority
