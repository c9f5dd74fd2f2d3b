import DkgSubstrate.ProposerAgreement
import DkgSubstrate.SignedBatches

/-!
The work of the proposal handler: the proposals that are staged or queued for a signature.
They come from votes, from forced submissions and from the refresh of the DKG key, and the
handler checks only a forced submission for being unsigned.
-/

namespace DkgSubstrate.UnsignedWork

open DkgSubstrate.Dispatch
open DkgSubstrate.Metadata (GenesisConfig genesisState)
open DkgSubstrate.MetadataStep
open DkgSubstrate.MetadataWorld
open DkgSubstrate.Primitives
open DkgSubstrate.ProposalHandler hiding Config Call step dispatch
open DkgSubstrate.ProposalHandlerEffects
open DkgSubstrate.Proposals
open DkgSubstrate.ProposerAgreement
open DkgSubstrate.Runs
open DkgSubstrate.SampleRuntime
open DkgSubstrate.SignedBatches
open DkgSubstrate.VotingSafety

variable {L : Limits} {V : ProposalVoting.VotingLimits} {AccountId R : Type}

section Handler

variable {handler : ProposalHandler.Config L AccountId R} {s s' : State L R}

def Holds (s : State L R) (chain : TypedChainId) (u : UnsignedProposal L) : Prop :=
  (∃ proposals, s.unsignedProposals.lookup chain = some proposals ∧ u ∈ proposals.toList) ∨
    ∃ batchId batch, s.unsignedProposalQueue.lookup (chain, batchId) = some batch ∧
      u ∈ batch.proposals.toList

def Work (P : TypedChainId → UnsignedProposal L → Prop) (s : State L R) : Prop :=
  ∀ chain u, Holds s chain u → P chain u

def Hands : ProposalHandler.Call L AccountId R → Proposal L → Prop
  | .forceSubmitUnsignedProposal _ p, prop => prop = p ∧ p.isUnsigned = true
  | .handleUnsignedProposal p, prop => prop = p
  | _, _ => False

variable {P : TypedChainId → UnsignedProposal L → Prop}

theorem Work.of_lookup (hs : Work P s) (hstaged : ∀ chain proposals,
      s'.unsignedProposals.lookup chain = some proposals →
        s.unsignedProposals.lookup chain = some proposals)
    (hqueued : ∀ key batch, s'.unsignedProposalQueue.lookup key = some batch →
      s.unsignedProposalQueue.lookup key = some batch) : Work P s' := by
  intro chain u hholds
  refine hs chain u ?_
  rcases hholds with ⟨proposals, hlookup, hmem⟩ | ⟨batchId, batch, hlookup, hmem⟩
  · exact .inl ⟨proposals, hstaged chain proposals hlookup, hmem⟩
  · exact .inr ⟨batchId, batch, hqueued _ batch hlookup, hmem⟩

theorem holds_of_mem_getD {chain : TypedChainId} {u : UnsignedProposal L}
    (h : u ∈ (s.unsignedProposals.getD chain default).toList) : Holds s chain u := by
  rw [StorageMap.getD] at h
  cases hlookup : s.unsignedProposals.lookup chain with
  | none =>
      rw [hlookup] at h
      cases h
  | some proposals =>
      rw [hlookup] at h
      exact .inl ⟨proposals, hlookup, h⟩

theorem work_queueBatch {chain : TypedChainId} {proposals : StagedProposals L}
    (batchId nextBatchId : ℕ) (hs : Work P s) (h : ∀ u ∈ proposals.toList, P chain u) :
    Work P (queueBatch handler chain batchId proposals { s with nextBatchId := nextBatchId }) := by
  intro chain' u hholds
  rcases hholds with hstaged | ⟨batchId', batch, hlookup, hmem⟩
  · exact hs chain' u (.inl hstaged)
  · simp only [queueBatch, StorageMap.lookup_insert_eq] at hlookup
    split at hlookup
    · rename_i hkey
      obtain ⟨rfl, rfl⟩ := Prod.mk.inj hkey
      rw [← Option.some.inj hlookup] at hmem
      exact h u hmem
    · exact hs chain' u (.inr ⟨batchId', batch, hlookup, hmem⟩)

theorem work_stage {chain : TypedChainId} {proposals : StagedProposals L} (hs : Work P s)
    (h : ∀ u ∈ proposals.toList, P chain u) : Work P (stage chain proposals s) := by
  intro chain' u hholds
  rcases hholds with ⟨proposals', hlookup, hmem⟩ | hqueued
  · simp only [stage, StorageMap.lookup_insert_eq] at hlookup
    split at hlookup
    · rename_i hkey
      subst hkey
      rw [← Option.some.inj hlookup] at hmem
      exact h u hmem
    · exact hs chain' u (.inl ⟨proposals', hlookup, hmem⟩)
  · exact hs chain' u (.inr hqueued)

theorem work_stores {prop : Proposal L} {id : ProposalIdentifier}
    {out : State L R × Except DispatchError Unit} (hs : Work P s)
    (hnew : P id.typedChainId ⟨id.typedChainId, id.key, prop⟩)
    (h : Stores handler prop id s out) : Work P out.1 := by
  have hstaged : ∀ u ∈ (s.unsignedProposals.getD id.typedChainId default).toList,
      P id.typedChainId u :=
    fun u hmem => hs _ u (holds_of_mem_getD hmem)
  cases h with
  | refused e => exact hs
  | staged hpush =>
      refine work_stage hs ?_
      intro u hmem
      rw [hpush] at hmem
      rcases List.mem_append.mp hmem with hold | hlast
      · exact hstaged u hold
      · rw [List.mem_singleton.mp hlast]
        exact hnew
  | queued hfull hbits hpush =>
      refine work_stage (work_queueBatch _ _ hs hstaged) ?_
      intro u hmem
      rw [hpush] at hmem
      rw [List.mem_singleton.mp hmem]
      exact hnew
  | emptyQueued e hempty hbits => exact work_queueBatch _ _ hs hstaged

theorem work_unqueue (hs : Work P s) (key : TypedChainId × ℕ) :
    Work P { s with unsignedProposalQueue := s.unsignedProposalQueue.erase key } :=
  hs.of_lookup (fun _ _ h => h) fun _ _ => StorageMap.lookup_of_lookup_erase

theorem work_tidy (hs : Work P s) (h : Tidy handler s s') : Work P s' := by
  cases h with
  | unqueue key => exact work_unqueue hs key
  | close hcloses =>
      cases hcloses with
      | @close chain proposals hstaged hbits =>
          -- The batch is queued before its proposals leave the staged ones.
          have hqueued : Work P (queueBatch handler chain s.nextBatchId proposals
              { s with nextBatchId := s.nextBatchId + 1 }) :=
            work_queueBatch _ _ hs fun u hmem => hs chain u (.inl ⟨proposals, hstaged, hmem⟩)
          exact hqueued.of_lookup (fun _ _ => StorageMap.lookup_of_lookup_erase) fun _ _ h => h

theorem work_submitBatches {props : List (SignedProposalBatch L)} (hs : Work P s)
    (h : submitBatches handler props s = .ok s') : Work P s' := by
  obtain ⟨hstaged, hremoved⟩ := submitBatches_removes h
  exact hs.of_lookup (fun _ _ hlookup => hstaged ▸ hlookup) hremoved

theorem work_handleUnsignedProposal {prop : Proposal L}
    {out : State L R × Except DispatchError Unit} (hs : Work P s)
    (h : handleUnsignedProposal handler prop s = .ok out)
    (hnew : ∀ id, decodeProposalIdentifier handler.decoders prop = .ok id →
      P id.typedChainId ⟨id.typedChainId, id.key, prop⟩) : Work P out.1 := by
  rcases handleUnsignedProposal_ok h with ⟨id, hid, rfl⟩ | ⟨e, rfl⟩
  · exact work_stores hs (hnew id hid) (storeUnsignedProposal_stores prop id s)
  · exact hs

theorem work_dispatch {call : ProposalHandler.Call L AccountId R} (hs : Work P s)
    (h : ProposalHandler.dispatch handler s call = .ok s')
    (hnew : ∀ prop id, Hands call prop → decodeProposalIdentifier handler.decoders prop = .ok id →
      P id.typedChainId ⟨id.typedChainId, id.key, prop⟩) : Work P s' := by
  cases call with
  | submitSignedProposals origin props =>
      simp only [ProposalHandler.dispatch, submitSignedProposals, bind_eq_ok] at h
      obtain ⟨_, -, h⟩ := h
      exact work_submitBatches hs h
  | forceSubmitUnsignedProposal origin prop =>
      obtain ⟨hunsigned, id, hid, hstored⟩ := forceSubmitUnsignedProposal_ok h
      have hstores : Stores handler prop id s _ := storeUnsignedProposal_stores prop id s
      rw [hstored] at hstores
      exact work_stores hs (hnew prop id ⟨rfl, hunsigned⟩ hid) hstores
  | handleUnsignedProposal prop =>
      simp only [ProposalHandler.dispatch, map_eq_ok] at h
      obtain ⟨out, hout, rfl⟩ := h
      exact work_handleUnsignedProposal hs hout fun id => hnew prop id rfl
  | onIdle now remaining =>
      simp only [ProposalHandler.dispatch, map_eq_ok] at h
      obtain ⟨out, hout, rfl⟩ := h
      exact invariant_of_reflTransGen (Work P) (fun _ _ => work_tidy) hs (onIdle_tidies hout)
  | submitDkgSigningOffence origin signedData =>
      obtain ⟨offence, rfl⟩ := submitDkgSigningOffence_ok h
      exact hs
  | forceRemoveUnsignedProposalBatch origin chain batchId =>
      simp only [ProposalHandler.dispatch, forceRemoveUnsignedProposalBatch, bind_eq_ok] at h
      obtain ⟨_, -, _, -, h⟩ := h
      rw [← Except.ok.inj h]
      exact work_unqueue hs _
  | environment rest =>
      rw [← Except.ok.inj h]
      exact hs

/-- The work consists of unsigned proposals under their chain and their key. -/
def OnlyUnsigned (handler : ProposalHandler.Config L AccountId R) : State L R → Prop :=
  Work fun chain u => u.proposal.isUnsigned = true ∧ u.typedChainId = chain ∧
    decodeProposalIdentifier handler.decoders u.proposal = .ok ⟨u.key, chain⟩

/-- The proposals stand under their chain and their key. -/
def OnlyDecoded (handler : ProposalHandler.Config L AccountId R) : State L R → Prop :=
  Work fun chain u => u.typedChainId = chain ∧
    decodeProposalIdentifier handler.decoders u.proposal = .ok ⟨u.key, chain⟩

theorem work_empty (rest : R) : Work P (State.empty rest) := by
  rintro chain u (⟨proposals, hlookup, -⟩ | ⟨batchId, batch, hlookup, -⟩)
  · cases hlookup
  · cases hlookup

end Handler

/-- The configurations of the pallets.  Whatever the first two say about the handler of
unsigned proposals, it is the third. -/
structure Pallets (L : Limits) (AccountId R : Type) where
  metadata : Metadata.Config L AccountId (State L R)
  voting : ProposalVoting.Config L AccountId (State L R)
  handler : ProposalHandler.Config L AccountId R

namespace Pallets

def votingConfig (p : Pallets L AccountId R) : ProposalVoting.Config L AccountId (State L R) :=
  { p.voting with
    decoders := p.handler.decoders
    handleUnsignedProposal := fun _ => handleUnsignedProposal p.handler }

def metadataConfig (V : ProposalVoting.VotingLimits) (p : Pallets L AccountId R) :
    Metadata.Config L AccountId (Votes L V AccountId (State L R)) :=
  wired { p.metadata with handleUnsignedProposal := fun _ => handleUnsignedProposal p.handler }
    p.votingConfig

end Pallets

/-- The metadata pallet with the votes, and these with the handler. -/
abbrev Chain (L : Limits) (V : ProposalVoting.VotingLimits) (AccountId R : Type) :=
  Metadata.State L AccountId (Votes L V AccountId (State L R))

inductive Event (L : Limits) (V : ProposalVoting.VotingLimits) (AccountId R : Type) where
  | metadata (call : MetadataRotation.Call L AccountId (Votes L V AccountId (State L R)))
  | voting (call : ProposalVoting.Call L AccountId (State L R))
  | handler (call : ProposalHandler.Call L AccountId R)

/-- The state of a pallet is written by its own calls, and the handler takes proposals of other
pallets only from their calls. -/
def Event.Own : Event L V AccountId R → Prop
  | .metadata (.environment _) => False
  | .voting (.environment _) => False
  | .handler (.handleUnsignedProposal _) => False
  | _ => True

def votedOn {World : Type} : ProposalVoting.Call L AccountId World → Option (Proposal L)
  | .acknowledgeProposal _ prop => some prop
  | .rejectProposal _ prop => some prop
  | .evalVoteState _ _ _ prop => some prop
  | _ => none

def Event.VotesOnUnsigned : Event L V AccountId R → Prop
  | .voting call => ∀ prop ∈ votedOn call, prop.isUnsigned = true
  | _ => True

def Event.Brings : Event L V AccountId R → Proposal L → Prop
  | .metadata _, prop => prop.isUnsigned = true
  | .voting call, prop => votedOn call = some prop
  | .handler call, prop => Hands call prop

theorem Event.isUnsigned_of_brings {event : Event L V AccountId R} {prop : Proposal L}
    (hown : event.Own) (hvotes : event.VotesOnUnsigned) (h : event.Brings prop) :
    prop.isUnsigned = true := by
  cases event with
  | metadata call => exact h
  | voting call => exact hvotes prop h
  | handler call =>
      cases call with
      | forceSubmitUnsignedProposal origin p =>
          obtain ⟨rfl, hunsigned⟩ := h
          exact hunsigned
      | handleUnsignedProposal p => exact hown.elim
      | _ => exact h.elim

section Voting

variable {World : Type} {voting : ProposalVoting.Config L AccountId World}
variable {votes votes' : Votes L V AccountId World}

theorem tryResolveProposal_world {nonce : ℕ} {chain : TypedChainId} {prop : Proposal L}
    (h : ProposalVoting.tryResolveProposal voting nonce chain prop votes = .ok votes') :
    votes'.world = votes.world ∨
      ∃ n, voting.handleUnsignedProposal n prop votes.world = .ok (votes'.world, .ok ()) := by
  simp only [ProposalVoting.tryResolveProposal, bind_eq_ok] at h
  obtain ⟨stored, -, _, -, _, -, h⟩ := h
  split at h
  · simp only [ProposalVoting.finalizeExecution, bind_eq_ok] at h
    obtain ⟨⟨world, result⟩, hhandled, h⟩ := h
    cases result with
    | error e => cases h
    | ok _ =>
        rw [← Except.ok.inj h]
        exact .inr ⟨_, hhandled⟩
  · rw [← Except.ok.inj h]
    exact .inl rfl

theorem onAuthoritySetChanged_world {accounts : List AccountId} {ids : List Public}
    (h : ProposalVoting.onAuthoritySetChanged voting accounts ids votes = .ok votes') :
    votes'.world = votes.world := by
  simp only [ProposalVoting.onAuthoritySetChanged, bind_eq_ok] at h
  obtain ⟨_, -, _, -, _, -, h⟩ := h
  rw [← Except.ok.inj h]

variable [DecidableEq AccountId]

theorem castVote_world {inFavour : Bool} {origin : Origin AccountId} {prop : Proposal L}
    (h : ProposalVoting.castVote voting inFavour origin prop votes = .ok votes') :
    votes'.world = votes.world ∨
      ∃ n, voting.handleUnsignedProposal n prop votes.world = .ok (votes'.world, .ok ()) := by
  simp only [ProposalVoting.castVote, ProposalVoting.commitVote, bind_eq_ok] at h
  obtain ⟨who, -, identifier, -, resourceId, -, _, -, _, -, _, -, committed,
    ⟨_, -, _, -, _, -, voted, -, hcommitted⟩, h⟩ := h
  rw [← Except.ok.inj hcommitted] at h
  have hworld := tryResolveProposal_world h
  exact hworld

theorem dispatch_votedOn {call : ProposalVoting.Call L AccountId World}
    (hcall : ∀ world, call ≠ .environment world)
    (h : ProposalVoting.dispatch voting votes call = .ok votes') :
    votes'.world = votes.world ∨ ∃ n prop, votedOn call = some prop ∧
      voting.handleUnsignedProposal n prop votes.world = .ok (votes'.world, .ok ()) := by
  cases ProposalVoting.dispatch_effect h with
  | @voted who key votes inFavour world hproposer hkey hopen hnew hvotes =>
      cases inFavour with
      | true =>
          exact (castVote_world h).imp_right (Exists.imp fun n hhandled => ⟨_, rfl, hhandled⟩)
      | false =>
          exact (castVote_world h).imp_right (Exists.imp fun n hhandled => ⟨_, rfl, hhandled⟩)
  | evaluated world hlookup hopen =>
      simp only [ProposalVoting.dispatch, ProposalVoting.evalVoteState, bind_eq_ok] at h
      obtain ⟨_, -, h⟩ := h
      exact (tryResolveProposal_world h).imp_right (Exists.imp fun n hhandled => ⟨_, rfl, hhandled⟩)
  | environment => exact absurd rfl (hcall _)
  | _ => exact .inl rfl

end Voting

section System

variable {p : Pallets L AccountId R} {c c' : Chain L V AccountId R}
variable {P : TypedChainId → UnsignedProposal L → Prop}

theorem work_handlesRefresh {votes votes' : Votes L V AccountId (State L R)}
    (hs : Work P votes.world) (h : HandlesRefresh (p.metadataConfig V) votes votes')
    (hnew : ∀ prop id, prop.isUnsigned = true →
      decodeProposalIdentifier p.handler.decoders prop = .ok id →
      P id.typedChainId ⟨id.typedChainId, id.key, prop⟩) : Work P votes'.world := by
  rcases h with rfl | ⟨n, data, result, h⟩
  · exact hs
  · obtain ⟨out, hhandled, hout⟩ := map_eq_ok.mp h
    rw [← (Prod.mk.inj hout).1]
    exact work_handleUnsignedProposal hs hhandled fun id => hnew _ id rfl

variable [DecidableEq AccountId]

def step (p : Pallets L AccountId R) (c : Chain L V AccountId R) :
    Event L V AccountId R → Chain L V AccountId R
  | .metadata call => MetadataRotation.step (p.metadataConfig V) c call
  | .voting call => { c with world := ProposalVoting.step p.votingConfig c.world call }
  | .handler call =>
      { c with world :=
        { c.world with world := ProposalHandler.step p.handler c.world.world call } }

theorem work_voting {votes votes' : Votes L V AccountId (State L R)}
    {call : ProposalVoting.Call L AccountId (State L R)} (hs : Work P votes.world)
    (hcall : ∀ world, call ≠ .environment world)
    (h : ProposalVoting.dispatch p.votingConfig votes call = .ok votes')
    (hnew : ∀ prop id, votedOn call = some prop →
      decodeProposalIdentifier p.handler.decoders prop = .ok id →
      P id.typedChainId ⟨id.typedChainId, id.key, prop⟩) : Work P votes'.world := by
  rcases dispatch_votedOn hcall h with hkept | ⟨n, prop, hprop, hhandled⟩
  · rw [hkept]
    exact hs
  · exact work_handleUnsignedProposal hs hhandled fun id => hnew prop id hprop

theorem work_metadata
    {call : MetadataRotation.Call L AccountId (Votes L V AccountId (State L R))}
    (hs : Work P c.world.world) (hcall : ∀ votes, call ≠ .environment votes)
    (h : MetadataRotation.dispatch (p.metadataConfig V) c call = .ok c')
    (hnew : ∀ prop id, prop.isUnsigned = true →
      decodeProposalIdentifier p.handler.decoders prop = .ok id →
      P id.typedChainId ⟨id.typedChainId, id.key, prop⟩) : Work P c'.world.world := by
  cases call with
  | forceChangeAuthorities origin =>
      obtain ⟨rotated, hrotated, hhandles, -⟩ := forceChangeAuthorities_refreshes h
      refine work_handlesRefresh ?_ hhandles hnew
      rw [onAuthoritySetChanged_world (changeAuthorities_world hrotated).1]
      exact hs
  | newSession validators queued =>
      rw [onAuthoritySetChanged_world (changeAuthorities_world h).1]
      exact hs
  | environment votes => exact absurd rfl (hcall votes)
  | _ => exact work_handlesRefresh hs (dispatch_world h trivial) hnew

theorem work_step {event : Event L V AccountId R} (hs : Work P c.world.world)
    (hown : event.Own)
    (hnew : ∀ prop id, event.Brings prop →
      decodeProposalIdentifier p.handler.decoders prop = .ok id →
      P id.typedChainId ⟨id.typedChainId, id.key, prop⟩) :
    Work P (step p c event).world.world := by
  cases event with
  | metadata call =>
      refine commit_cases (P := fun c' : Chain L V AccountId R => Work P c'.world.world) hs
        fun c' h => work_metadata hs ?_ h hnew
      rintro votes rfl
      exact hown
  | voting call =>
      refine commit_cases
        (P := fun votes : Votes L V AccountId (State L R) => Work P votes.world) hs
        fun votes h => work_voting hs ?_ h hnew
      rintro world rfl
      exact hown
  | handler call => exact commit_cases hs fun s h => work_dispatch hs h hnew

omit [DecidableEq AccountId] in
theorem work_genesis {votingGenesis : ProposalVoting.GenesisConfig AccountId} {rest : R}
    {genesis : GenesisConfig AccountId} {validators : List (AccountId × Public)}
    {votes : Votes L V AccountId (State L R)}
    (hvotes : votingGenesis.build p.votingConfig (State.empty rest) = .ok votes)
    (h : genesisState (p.metadataConfig V) genesis validators votes = .ok c) :
    Work P c.world.world := by
  have hempty : votes.world = State.empty rest := by
    simp only [ProposalVoting.GenesisConfig.build, bind_eq_ok] at hvotes
    obtain ⟨_, -, _, -, hvotes⟩ := hvotes
    rw [← Except.ok.inj hvotes]
    rfl
  have hworld : c.world.world = votes.world := by
    by_cases hvalidators : validators = []
    · subst hvalidators
      rw [genesisState_nil_ok h]
      rfl
    · obtain ⟨votes', authorities, accounts, best, -, -, -, hannounced, rfl⟩ :=
        genesisState_ok hvalidators h
      exact onAuthoritySetChanged_world hannounced
  rw [hworld, hempty]
  exact work_empty rest

/-- The work of the handler always stands under its chain and its key.  If all votes are about
unsigned proposals, it also consists of unsigned proposals only. -/
theorem onlyUnsigned_run (p : Pallets L AccountId R)
    (votingGenesis : ProposalVoting.GenesisConfig AccountId) (rest : R)
    (votes : Votes L V AccountId (State L R)) (genesis : GenesisConfig AccountId)
    (validators : List (AccountId × Public)) (c : Chain L V AccountId R)
    (events : List (Event L V AccountId R))
    (hvotes : votingGenesis.build p.votingConfig (State.empty rest) = .ok votes)
    (hgenesis : genesisState (p.metadataConfig V) genesis validators votes = .ok c)
    (hown : StepsMeet (step p) (fun _ event => event.Own) c events) :
    Always (step p) (fun t => OnlyDecoded p.handler t.world.world) c events ∧
      (StepsMeet (step p) (fun _ event => event.VotesOnUnsigned) c events →
        Always (step p) (fun t => OnlyUnsigned p.handler t.world.world) c events) := by
  constructor
  · refine always_of_invariant _ ?_ (work_genesis hvotes hgenesis) hown
    intro t event ht howned
    exact work_step ht howned fun prop id _ hid => ⟨rfl, hid⟩
  · intro hunsigned
    refine always_of_invariant _ ?_ (work_genesis hvotes hgenesis) (hown.and hunsigned)
    rintro t event ht ⟨howned, hvoted⟩
    exact work_step ht howned fun prop id hbrings hid =>
      ⟨Event.isUnsigned_of_brings howned hvoted hbrings, rfl, hid⟩

end System

abbrev SampleHandler := State runtimeLimits (Runtime.Rest sampleWiring Unit)

def samplePallets : Pallets runtimeLimits ℕ (Runtime.Rest sampleWiring Unit) where
  metadata :=
    { sampleConfig with
      onAuthoritySetChanged := fun _ _ handler => .ok handler
      handleUnsignedProposal := fun _ _ handler => .ok (handler, .ok ()) }
  voting :=
    { sampleVoting with handleUnsignedProposal := fun _ _ handler => .ok (handler, .ok ()) }
  handler := sampleHandler

def samplePalletVotes : Votes runtimeLimits runtimeVotingLimits ℕ SampleHandler :=
  commit (ProposalVoting.State.empty (State.empty sampleRest))
    ((sampleVotingGenesis []).build samplePallets.votingConfig (State.empty sampleRest))

def sampleChain : Chain runtimeLimits runtimeVotingLimits ℕ (Runtime.Rest sampleWiring Unit) :=
  commit (Metadata.State.empty samplePalletVotes)
    (genesisState (samplePallets.metadataConfig runtimeVotingLimits) (sampleGenesisConfig 2 1 2)
      (sampleValidators 2) samplePalletVotes)

abbrev SampleEvent :=
  Event runtimeLimits runtimeVotingLimits ℕ (Runtime.Rest sampleWiring Unit)

def sampleProducers : List SampleEvent :=
  [.voting (.acknowledgeProposal (.signed 0) (sampleTokenAdd 5)),
    .handler (.forceSubmitUnsignedProposal .root (sampleTokenAdd 6)),
    .handler (.onIdle 2 sampleWeight),
    .metadata (.submitPublicKey .none (sampleSubmission 7 2)),
    .metadata (.submitNextPublicKey .none (sampleSubmission 9 2)),
    .metadata (.initializeBlock 1)]

def workOf {R : Type} (s : State runtimeLimits R) :
    List (List (Proposal runtimeLimits)) × List (List (Proposal runtimeLimits)) :=
  (s.unsignedProposalQueue.entries.map fun entry =>
      entry.2.proposals.toList.map UnsignedProposal.proposal,
    s.unsignedProposals.entries.map fun entry => entry.2.toList.map UnsignedProposal.proposal)

theorem onlyUnsigned_sampleProducers :
    workOf (run (step samplePallets) sampleChain sampleProducers).world.world =
        ([[sampleTokenAdd 5, sampleTokenAdd 6]],
          [[.unsigned .refresh ((BoundedVec.tryFrom (sampleRefresh 9 1 2).encode).getD
            default)]]) ∧
      Always (step samplePallets) (fun t => OnlyUnsigned sampleHandler t.world.world) sampleChain
        sampleProducers := by
  refine ⟨by decide +kernel, (onlyUnsigned_run samplePallets (sampleVotingGenesis []) sampleRest
    samplePalletVotes (sampleGenesisConfig 2 1 2) (sampleValidators 2) sampleChain sampleProducers
    rfl rfl ?_).2 ?_⟩
  · exact stepsMeet_of_forall_mem (by simp [sampleProducers, Event.Own]) sampleChain
  · refine stepsMeet_of_forall_mem ?_ sampleChain
    simp [sampleProducers, Event.VotesOnUnsigned, votedOn, sampleTokenAdd, Proposal.isUnsigned]

def sampleSignedTokenAdd : Proposal runtimeLimits :=
  .signed .tokenAdd ((BoundedVec.tryFrom (sampleTokenAdd 5).data).getD default) [1]

theorem signed_proposal_staged :
    workOf (run (step samplePallets) sampleChain
        [.voting (.acknowledgeProposal (.signed 0) sampleSignedTokenAdd)]).world.world =
        ([], [[sampleSignedTokenAdd]]) ∧
      ¬Always (step samplePallets) (fun t => OnlyUnsigned sampleHandler t.world.world) sampleChain
        [.voting (.acknowledgeProposal (.signed 0) sampleSignedTokenAdd)] := by
  refine ⟨by decide +kernel, ?_⟩
  intro h
  have hlast := h [.voting (.acknowledgeProposal (.signed 0) sampleSignedTokenAdd)] [] rfl
  have hstaged : Holds (run (step samplePallets) sampleChain
      [.voting (.acknowledgeProposal (.signed 0) sampleSignedTokenAdd)]).world.world (.evm 1)
      ⟨.evm 1, .tokenAddProposal 5, sampleSignedTokenAdd⟩ := by
    refine holds_of_mem_getD ?_
    decide +kernel
  exact Bool.false_ne_true (hlast _ _ hstaged).1

end DkgSubstrate.UnsignedWork
