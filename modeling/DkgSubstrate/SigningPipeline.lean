import DkgSubstrate.ProposalSubmission
import DkgSubstrate.VotingStage

/-!
The way of a batch from the votes of its signing set to the chain: a party completes the signature,
the gadget saves the signed batch in the local storage, and the offchain worker submits it.
-/

namespace DkgSubstrate.SigningPipeline

open DkgSubstrate.Dispatch
open DkgSubstrate.HandlerPanics
open DkgSubstrate.IncomingMessages
open DkgSubstrate.Primitives
open DkgSubstrate.ProposalHandler
open DkgSubstrate.ProposalSubmission
open DkgSubstrate.Proposals
open DkgSubstrate.Runs
open DkgSubstrate.Runtime
open DkgSubstrate.SampleRuntime
open DkgSubstrate.SignaturePacking
open DkgSubstrate.SignedBatches
open DkgSubstrate.SignedProposalStore (Codec VoteResult signedProposal processVoteResult
  compareAndSet saveSignedProposalsInStorage)
open DkgSubstrate.VotingStage
open DkgSubstrate.Words

variable {L : Limits}

def content (p : Proposal L) : ProposalKind × Bytes := (p.kind, p.data)

theorem exists_tryFrom_data (p : Proposal L) :
    ∃ data : BoundedVec UInt8 L.maxProposalLength, BoundedVec.tryFrom p.data = some data ∧
      data.toList = p.data := by
  cases p with
  | signed kind data inner => exact ⟨data, BoundedVec.tryFrom_eq_some.mpr rfl, rfl⟩
  | unsigned kind data => exact ⟨data, BoundedVec.tryFrom_eq_some.mpr rfl, rfl⟩

theorem exists_signedProposal (signature : Bytes) (unsignedProposal : UnsignedProposal L) :
    ∃ p, signedProposal signature unsignedProposal = some p ∧
      content p = content unsignedProposal.proposal := by
  obtain ⟨data, hdata, heq⟩ := exists_tryFrom_data unsignedProposal.proposal
  refine ⟨.signed unsignedProposal.proposal.kind data signature, ?_, ?_⟩
  · rw [signedProposal, hdata]
    rfl
  · exact congrArg (unsignedProposal.proposal.kind, ·) heq

theorem exists_mapM_signedProposal (signature : Bytes) (ps : List (UnsignedProposal L)) :
    ∃ out, ps.mapM (signedProposal signature) = some out ∧
      out.map content = ps.map fun u => content u.proposal := by
  induction ps with
  | nil => exact ⟨[], rfl, rfl⟩
  | cons u ps ih =>
      obtain ⟨p, hp, hcontent⟩ := exists_signedProposal signature u
      obtain ⟨out, hout, hrest⟩ := ih
      refine ⟨p :: out, ?_, ?_⟩
      · rw [List.mapM_cons, hp, hout]
        rfl
      · rw [List.map_cons, List.map_cons, hcontent, hrest]

/-- The signed batch has the content of the unsigned one. -/
structure Carries (batch : SignedProposalBatch L) (unsigned : StoredUnsignedProposalBatch L)
    (signature : Bytes) : Prop where
  batchId : batch.batchId = unsigned.batchId
  signature : batch.signature.toList = signature
  proposals : batch.proposals.toList.map content =
    unsigned.proposals.toList.map fun u => content u.proposal

theorem exists_signedProposalBatch (result : VoteResult L)
    (hlength : result.signature.length ≤ L.maxSignatureLength) :
    ∃ batch, result.signedProposalBatch = some batch ∧
      Carries batch result.unsignedProposalBatch result.signature := by
  obtain ⟨out, hout, hcontent⟩ :=
    exists_mapM_signedProposal result.signature result.unsignedProposalBatch.proposals.toList
  have hbound : out.length ≤ L.maxProposalsPerBatch := by
    have heq := congrArg List.length hcontent
    rw [List.length_map, List.length_map] at heq
    exact heq.le.trans result.unsignedProposalBatch.proposals.length_le
  refine ⟨⟨result.unsignedProposalBatch.batchId, ⟨out, hbound⟩, ⟨result.signature, hlength⟩⟩, ?_,
    rfl, rfl, hcontent⟩
  have hproposals : (BoundedVec.tryFrom out : Option (BoundedVec _ L.maxProposalsPerBatch)) =
      some ⟨out, hbound⟩ := BoundedVec.tryFrom_eq_some.mpr rfl
  have hsignature : (BoundedVec.tryFrom result.signature :
      Option (BoundedVec _ L.maxSignatureLength)) = some ⟨result.signature, hlength⟩ :=
    BoundedVec.tryFrom_eq_some.mpr rfl
  rw [VoteResult.signedProposalBatch, hout]
  simp only [bind, Option.bind, hproposals, hsignature]

section Carries

variable {AccountId R : Type} {batch : SignedProposalBatch L}
variable {unsigned : StoredUnsignedProposalBatch L} {signature : Bytes}

theorem Carries.data_eq (h : Carries batch unsigned signature) : batch.data = unsigned.data := by
  have heq := congrArg (List.map Prod.snd) h.proposals
  rw [List.map_map, List.map_map] at heq
  exact congrArg batchData heq

/-- The key under which the chain queues a batch with such a first proposal. -/
def unsignedKey (cfg : Config L AccountId R) (unsigned : StoredUnsignedProposalBatch L) :
    Option (TypedChainId × ℕ) :=
  match unsigned.proposals.toList.head? with
  | none => none
  | some first =>
      match decodeProposalIdentifier cfg.decoders first.proposal with
      | .ok id => some (id.typedChainId, unsigned.batchId)
      | .error _ => none

theorem decodeProposalIdentifier_of_content_eq (D : Decoders) {p p' : Proposal L}
    (h : content p = content p') :
    decodeProposalIdentifier D p = decodeProposalIdentifier D p' := by
  obtain ⟨hkind, hdata⟩ := Prod.mk.inj h
  rw [decodeProposalIdentifier, decodeProposalIdentifier, hkind, hdata]

theorem Carries.batchKey_eq (h : Carries batch unsigned signature)
    (cfg : Config L AccountId R) : batchKey cfg batch = unsignedKey cfg unsigned := by
  have hhead := congrArg List.head? h.proposals
  rw [List.head?_map, List.head?_map] at hhead
  rw [batchKey, unsignedKey]
  cases hfirst : batch.proposals.toList.head? with
  | none =>
      rw [hfirst, Option.map_none] at hhead
      rw [Option.map_eq_none_iff.mp hhead.symm]
  | some first =>
      rw [hfirst, Option.map_some] at hhead
      obtain ⟨u, hu, hcontent⟩ := Option.map_eq_some_iff.mp hhead.symm
      have hsame := decodeProposalIdentifier_of_content_eq cfg.decoders hcontent
      rw [hu, h.batchId]
      cases hdecode : decodeProposalIdentifier cfg.decoders first with
      | ok id => simp only [hsame, hdecode]
      | error fault => simp only [hsame, hdecode]

theorem Carries.exists_unsigned (h : Carries batch unsigned signature) {p : Proposal L}
    (hp : p ∈ batch.proposals.toList) :
    ∃ u ∈ unsigned.proposals.toList, content u.proposal = content p := by
  have hmem : content p ∈ batch.proposals.toList.map content := List.mem_map_of_mem hp
  rw [h.proposals] at hmem
  exact List.mem_map.mp hmem

end Carries

theorem stored_processVoteResult {Value : Type} [DecidableEq Value] (codec : Codec L Value)
    {result : VoteResult L} {batch : SignedProposalBatch L}
    {store : SignedProposalStore.State L Value} {node : SignedProposalStore.Node}
    (hbatch : result.signedProposalBatch = some batch) (hlen : result.batchKey.len = 1)
    (hfresh : store.voteResults result.batchKey = []) (hsaves : store.saves = [])
    (hvalidator : node.authorityPublicKey ∈ node.currentValidatorSet)
    (hready : (node.hasLatestHeader && node.hasOffchainStorage) = true) :
    (compareAndSet codec 0 (processVoteResult node result store)).stored =
      some (codec.encode [batch]) := by
  have hcontains : (!node.currentValidatorSet.contains node.authorityPublicKey) = false := by
    rw [Bool.not_eq_false', List.contains_iff_mem]
    exact hvalidator
  rw [processVoteResult, hbatch]
  simp only [hfresh, List.nil_append, List.length_singleton, hlen, if_true,
    saveSignedProposalsInStorage, List.cons_ne_nil, if_false, hcontains, hready,
    Bool.false_eq_true, hsaves, compareAndSet, List.getElem?_cons_zero]

section Wired

variable {AccountId World Info Value : Type} [DecidableEq AccountId] [Inhabited Info]
variable [DecidableEq Value] {lib : Library} {round : Round lib L} {signature : SignatureRecid}

/-- When a party has heard the votes of the others, the next turn of its node brings the batch to
the chain, with a signature by the DKG. -/
theorem votes_reach_chain (w : Wiring L AccountId World) (codec : Codec L Value) {big : BigInt}
    {encode : DKGMessage → Bytes} (hmax : 1 ≤ L.maxProposalsPerBatch)
    (hbound : 65 ≤ L.maxSignatureLength)
    (signs : round.Signs w.metadata.crypto signature) {sig : FixedBytes 65}
    (hsig : convertSignature big signature = some sig) (hsize : 2 ≤ round.parties.length)
    {i : UInt16} (hi : i ∈ round.parties) {received : List (Node L × SignedDKGMessage)}
    (hheard : Round.Heard signs.toBallots w.metadata.crypto encode i received)
    (hlen : (round.batchKey i).len = 1)
    {store : SignedProposalStore.State L Value} {node : SignedProposalStore.Node}
    (hfresh : store.voteResults (round.batchKey i) = []) (hsaves : store.saves = [])
    (hvalidator : node.authorityPublicKey ∈ node.currentValidatorSet)
    (hready : (node.hasLatestHeader && node.hasOffchainStorage) = true)
    {s : State L (Rest w Info)} {key : TypedChainId × ℕ}
    (hkey : unsignedKey (handler w Info) round.batch = some key)
    (hqueued : s.unsignedProposalQueue.lookup key = some round.batch)
    (hunsigned : s.signedProposals.lookup key = none)
    (hproposals : ∀ u ∈ round.batch.proposals.toList, u.proposal.kind ≠ .refresh ∧
      (u.proposal.kind = .anchorUpdate →
        u.proposal.data.length = w.bridges.anchorUpdateLength))
    (hsigned : SignedByDkg w.metadata.crypto s.rest.metadata.dkgKey sig.toList round.batch.data)
    {account : AccountId} (accounts : List AccountId) {blockNumber : ℕ}
    (hturn : isTurn s.rest.metadata.currentAuthoritiesAccounts.toList blockNumber account = true) :
    ∃ result batch transactions,
      newVoting lib big w.metadata.crypto encode (round.params i) (round.stage i) received =
        .ok result ∧
      Carries batch round.batch sig.toList ∧
      offchainWorker w codec (account :: accounts) blockNumber
        (compareAndSet codec 0 (processVoteResult node result store)).stored s =
          .ok transactions ∧
      (run (step (handler w Info)) s (transactions.map transaction)).signedProposals.lookup key =
        some batch := by
  have hresult := Round.newVoting_eq signs hsig hsize hi hheard
  obtain ⟨batch, hbatch, hcarries⟩ :=
    exists_signedProposalBatch ⟨sig.toList, round.batch, round.batchKey i⟩
      (by rw [List.Vector.toList_length]; exact hbound)
  have hkey' : batchKey (handler w Info) batch = some key := by
    rw [hcarries.batchKey_eq, hkey]
  have hsignature : batch.signature.toList = sig.toList := hcarries.signature
  have hstored := stored_processVoteResult codec hbatch hlen hfresh hsaves hvalidator hready
  have hreadyBatch : Ready (handler w Info) s.rest batch := by
    refine ⟨?_, fun p hp => ?_, fun p hp r => ?_⟩
    · rw [hsignature, hcarries.data_eq]
      exact hsigned
    · obtain ⟨u, hu, hcontent⟩ := hcarries.exists_unsigned hp
      obtain ⟨hkind, -⟩ := Prod.mk.inj hcontent
      exact hkind ▸ (hproposals u hu).1
    · obtain ⟨u, hu, hcontent⟩ := hcarries.exists_unsigned hp
      obtain ⟨hkind, hdata⟩ := Prod.mk.inj hcontent
      refine (panicsUnless_proposalHandler w).returns p r fun _ hanchor => ?_
      rw [← hdata]
      exact (hproposals u hu).2 (hkind.trans hanchor)
  have hdecoded : (compareAndSet codec 0 (processVoteResult node
      ⟨sig.toList, round.batch, round.batchKey i⟩ store)).stored.bind codec.decode =
        some [batch] := by
    rw [hstored, Option.bind_some, codec.decode_encode]
  obtain ⟨transactions, hworker, hdelivered⟩ := exists_delivering codec hmax
    (keepsDkgKey_proposalHandler w) accounts hturn hdecoded
    (List.forall_mem_singleton.mpr hreadyBatch)
    (List.forall_mem_singleton.mpr ⟨key, hkey', .inl
      (StorageMap.containsKey_iff.mpr ⟨_, hqueued⟩)⟩)
    (List.nodup_singleton _)
  obtain ⟨key', hkey'', hlookup⟩ := hdelivered batch List.mem_cons_self
  obtain rfl := Option.some.inj (hkey'.symm.trans hkey'')
  rw [hunsigned, Option.getD_none] at hlookup
  exact ⟨_, batch, transactions, hresult, hcarries, hworker, hlookup⟩

end Wired

def samplePending : State runtimeLimits (Rest sampleWiring Unit) :=
  run (step sampleHandler) (State.empty sampleRest)
    [.forceSubmitUnsignedProposal .root (sampleTokenAdd 241), .onIdle 2 sampleWeight]

def sampleSaver : SignedProposalStore.Node where
  authorityPublicKey := samplePublic 2
  currentValidatorSet := [samplePublic 1, samplePublic 2]
  hasLatestHeader := true
  hasOffchainStorage := true

def sampleStore : SignedProposalStore.State runtimeLimits
    (List (SignedProposalBatch runtimeLimits)) :=
  .initial none

theorem sampleRecid_bytes :
    toBeBytes 32 (sampleRecid sampleKey sampleMessageNumber).r ++
        toBeBytes 32 (sampleRecid sampleKey sampleMessageNumber).s ++
        [(sampleRecid sampleKey sampleMessageNumber).recid + 27] =
      sampleSignature 7 sampleProposals.data := by
  decide +kernel

theorem votes_reach_chain_sample :
    ∃ result batch transactions,
      newVoting sampleLibrary digitBigInt sampleCrypto SenderAuthenticity.sampleEncode
          (sampleRound.params 1) (sampleRound.stage 1) sampleReceived = .ok result ∧
      Carries batch sampleProposals (sampleSignature 7 sampleProposals.data) ∧
      offchainWorker sampleWiring sampleCodec [1] 5
        (compareAndSet sampleCodec 0 (processVoteResult sampleSaver result sampleStore)).stored
          samplePending = .ok transactions ∧
      (run (step (handler sampleWiring Unit)) samplePending
        (transactions.map transaction)).signedProposals.lookup (.evm 1, 0) = some batch := by
  obtain ⟨sig, hsig, hbytes⟩ := convertSignature_eq_some digitBigInt valid_sampleRecid
  rw [sampleRecid_bytes] at hbytes
  rw [← hbytes]
  have hsigned : SignedByDkg sampleCrypto samplePending.rest.metadata.dkgKey sig.toList
      sampleProposals.data := by
    rw [hbytes]
    decide +kernel
  exact votes_reach_chain sampleWiring sampleCodec (by decide) (by decide) sampleSigns hsig
    (by decide) List.mem_cons_self (heard_sampleTraffic sampleSigns.toBallots 1) rfl rfl rfl
    (by decide +kernel) rfl (by decide +kernel) (by decide +kernel) (by decide +kernel)
    (by decide +kernel) hsigned [] (by decide +kernel)

end DkgSubstrate.SigningPipeline
