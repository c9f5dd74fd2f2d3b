import DkgSubstrate.MetadataWorld
import DkgSubstrate.ProposerCounts

/-!
The proposers and the active authorities.  The metadata pallet announces new authorities
to the voting pallet before it knows whether the rotation goes through.
-/

namespace DkgSubstrate.ProposerAgreement

open DkgSubstrate.Dispatch
open DkgSubstrate.Metadata
open DkgSubstrate.MetadataEffects
open DkgSubstrate.MetadataRotation
open DkgSubstrate.MetadataStep
open DkgSubstrate.MetadataWorld
open DkgSubstrate.Primitives
open DkgSubstrate.ProposerCounts
open DkgSubstrate.Runs
open DkgSubstrate.SampleRuntime
open DkgSubstrate.VotingSafety

variable {L : Limits} {V : ProposalVoting.VotingLimits} {AccountId World : Type}

abbrev Votes (L : Limits) (V : ProposalVoting.VotingLimits) (AccountId World : Type) :=
  ProposalVoting.State L V AccountId World

/-- The metadata pallet with the voting pallet as the handler of its changes. -/
def wired (cfg : Config L AccountId World)
    (voting : ProposalVoting.Config L AccountId World) :
    Config L AccountId (Votes L V AccountId World) where
  crypto := cfg.crypto
  dkgAuthorityToMerkleLeaf := cfg.dkgAuthorityToMerkleLeaf
  forceOrigin := cfg.forceOrigin
  keygenJailSentence := cfg.keygenJailSentence
  signingJailSentence := cfg.signingJailSentence
  decayPercentage := cfg.decayPercentage
  unsignedInterval := cfg.unsignedInterval
  sessionPeriod := cfg.sessionPeriod
  sessionOffset := cfg.sessionOffset
  averageSessionLength := cfg.averageSessionLength
  minimumPeriod := cfg.minimumPeriod
  onAuthoritySetChanged := ProposalVoting.onAuthoritySetChanged voting
  handleUnsignedProposal n proposal votes :=
    (cfg.handleUnsignedProposal n proposal votes.world).map fun out =>
      ({ votes with world := out.1 }, out.2)

def ProposersActive (s : State L AccountId (Votes L V AccountId World)) : Prop :=
  s.world.proposers.toList = s.currentAuthoritiesAccounts.toList

instance [DecidableEq AccountId] (s : State L AccountId (Votes L V AccountId World)) :
    Decidable (ProposersActive s) :=
  inferInstanceAs (Decidable (_ = _))

def RotatesOrKeeps (s : State L AccountId (Votes L V AccountId World)) :
    Call L AccountId (Votes L V AccountId World) → Prop
  | .forceChangeAuthorities _ => s.nextDkgPublicKey.isSome = true ∨
      s.nextAuthoritiesAccounts.toList = s.currentAuthoritiesAccounts.toList
  | .newSession validators _ =>
      (s.nextDkgPublicKey.isSome = true ∧ s.nextPublicKeySignature.isSome = true) ∨
      validators.map Prod.fst = s.currentAuthoritiesAccounts.toList
  | _ => True

variable {cfg : Config L AccountId World}
variable {voting : ProposalVoting.Config L AccountId World}
variable {s s' : State L AccountId (Votes L V AccountId World)}

theorem proposers_onAuthoritySetChanged {accounts : List AccountId} {ids : List Public}
    {votes votes' : Votes L V AccountId World}
    (h : ProposalVoting.onAuthoritySetChanged voting accounts ids votes = .ok votes') :
    votes'.proposers.toList = accounts := by
  simp only [ProposalVoting.onAuthoritySetChanged, bind_eq_ok, expect_eq_ok,
    BoundedVec.tryFrom_eq_some] at h
  obtain ⟨_, -, proposers, hproposers, _, -, h⟩ := h
  rw [← Except.ok.inj h]
  exact hproposers

theorem proposers_of_handles {votes votes' : Votes L V AccountId World}
    (h : Handles (wired cfg voting) votes votes') : votes'.proposers = votes.proposers := by
  rcases h with rfl | ⟨n, proposal, result, h⟩
  · rfl
  · obtain ⟨out, -, hout⟩ := map_eq_ok.mp h
    rw [← (Prod.mk.inj hout).1]

theorem proposers_of_announces {accounts : List AccountId} {ids : List Public} {forced : Bool}
    (h : Announces (wired cfg voting) accounts ids forced s s') :
    s'.world.proposers.toList = accounts := by
  obtain ⟨votes, hannounced, hhandles⟩ := h.announced
  rw [proposers_of_handles hhandles]
  exact proposers_onAuthoritySetChanged hannounced

theorem isSome_rotationKeys_forced :
    (rotationKeys true s).isSome = true ↔ s.nextDkgPublicKey.isSome = true := by
  rw [rotationKeys]
  cases s.nextDkgPublicKey <;> exact Iff.rfl

theorem isSome_rotationKeys :
    (rotationKeys false s).isSome = true ↔
      s.nextDkgPublicKey.isSome = true ∧ s.nextPublicKeySignature.isSome = true := by
  rw [rotationKeys]
  cases s.nextDkgPublicKey <;> simp

theorem proposersActive_of_announces {accounts : List AccountId} {ids : List Public}
    {forced : Bool} (h : Announces (wired cfg voting) accounts ids forced s s') :
    ProposersActive s' ↔
      (rotationKeys forced s).isSome = true ∨ accounts = s.currentAuthoritiesAccounts.toList := by
  rw [ProposersActive, proposers_of_announces h]
  cases hkeys : rotationKeys forced s with
  | some keys =>
      rw [h.rotated (by rw [hkeys]; rfl)]
      exact iff_of_true rfl (.inl rfl)
  | none =>
      rw [h.kept hkeys]
      constructor
      · exact .inr
      · rintro (hsome | haccounts)
        · cases hsome
        · exact haccounts

section Steps

variable [DecidableEq AccountId]

/-- By themselves the other pallets make calls of the voting pallet, but no changes of its
proposers. -/
def OwnVotingCalls (voting : ProposalVoting.Config L AccountId World)
    (s : State L AccountId (Votes L V AccountId World)) :
    Call L AccountId (Votes L V AccountId World) → Prop
  | .environment votes => ∃ call, ¬IsSetChange call ∧
      votes = ProposalVoting.step voting s.world call
  | _ => True

theorem proposers_of_not_isSetChange {votes : Votes L V AccountId World}
    {call : ProposalVoting.Call L AccountId World} (hcall : ¬IsSetChange call) :
    (ProposalVoting.step voting votes call).proposers = votes.proposers :=
  ProposalVoting.step_of_effect (P := fun t => ProposalVoting.State.proposers t = votes.proposers)
    rfl fun _ heffect => (counts_of_not_isSetChange heffect hcall).2

theorem proposersActive_step_iff {call : Call L AccountId (Votes L V AccountId World)}
    (h : ProposersActive s) (hlegal : OwnVotingCalls voting s call) :
    ProposersActive (step (wired cfg voting) s call) ↔
      (Accepted (wired cfg voting) s call → RotatesOrKeeps s call) := by
  rw [Accepted, step]
  cases hdispatch : dispatch (wired cfg voting) s call with
  | error fault => exact iff_of_true h (fun haccepted => by cases haccepted)
  | ok s' =>
      have haccepted : (Except.ok s' : Outcome _).isOk = true := rfl
      rw [commit_ok, forall_prop_of_true haccepted]
      cases call with
      | forceChangeAuthorities origin =>
          rw [RotatesOrKeeps, ← isSome_rotationKeys_forced]
          exact proposersActive_of_announces (forceChangeAuthorities_announces hdispatch)
      | newSession validators queued =>
          rw [RotatesOrKeeps, ← isSome_rotationKeys]
          exact proposersActive_of_announces (onNewSession_announces hdispatch)
      | environment votes =>
          obtain ⟨call, hcall, rfl⟩ := hlegal
          rw [← Except.ok.inj hdispatch]
          refine iff_of_true ?_ trivial
          rw [ProposersActive, proposers_of_not_isSetChange hcall]
          exact h
      | _ =>
          refine iff_of_true ?_ trivial
          rw [ProposersActive, proposers_of_handles (dispatch_world hdispatch trivial).handles,
            dispatch_accounts hdispatch trivial]
          exact h

end Steps

theorem proposersActive_genesis_iff {genesis : GenesisConfig AccountId}
    {validators : List (AccountId × Public)} {votes : Votes L V AccountId World}
    (h : genesisState (wired cfg voting) genesis validators votes = .ok s) :
    ProposersActive s ↔ validators ≠ [] ∨ votes.proposers.toList = [] := by
  by_cases hvalidators : validators = []
  · subst hvalidators
    rw [genesisState_nil_ok h, or_iff_right fun hne => hne rfl]
    exact Iff.rfl
  · obtain ⟨votes', authorities, accounts, best, -, -, haccounts, hannounced, rfl⟩ :=
      genesisState_ok hvalidators h
    rw [ProposersActive, haccounts]
    exact iff_of_true (proposers_onAuthoritySetChanged hannounced) (.inl hvalidators)

/-- The proposers are the active authorities in every state of a run exactly if there is a
genesis session to announce them, and every change of the authorities in the run has its
keys or announces the active authorities again. -/
theorem proposersActive_run_iff [DecidableEq AccountId] (cfg : Config L AccountId World)
    (voting : ProposalVoting.Config L AccountId World) (genesis : GenesisConfig AccountId)
    (validators : List (AccountId × Public)) (votes : Votes L V AccountId World)
    (s : State L AccountId (Votes L V AccountId World))
    (calls : List (Call L AccountId (Votes L V AccountId World)))
    (hgenesis : genesisState (wired cfg voting) genesis validators votes = .ok s)
    (hlegal : StepsMeet (step (wired cfg voting)) (OwnVotingCalls voting) s calls) :
    Always (step (wired cfg voting)) ProposersActive s calls ↔
      (validators ≠ [] ∨ votes.proposers.toList = []) ∧
      StepsMeet (step (wired cfg voting))
        (fun t call => Accepted (wired cfg voting) t call → RotatesOrKeeps t call) s calls := by
  rw [← proposersActive_genesis_iff hgenesis]
  have hiff := fun hactive : ProposersActive s =>
    always_iff_stepsMeet (fun _ => True) (fun _ _ _ _ _ _ => trivial)
      (fun _ _ _ h hcall => proposersActive_step_iff h hcall) trivial hactive hlegal
  constructor
  · intro h
    have hactive := h [] calls rfl
    exact ⟨hactive, (hiff hactive).mp h⟩
  · rintro ⟨hactive, hmeet⟩
    exact (hiff hactive).mpr hmeet

abbrev SampleVotes := Votes runtimeLimits runtimeVotingLimits ℕ Unit

def sampleWired : Config runtimeLimits ℕ SampleVotes := wired sampleConfig sampleVoting

def sampleWiredGenesis : State runtimeLimits ℕ SampleVotes :=
  commit (State.empty (sampleVotes [])) (genesisState sampleWired (sampleGenesisConfig 2 1 2)
    (sampleValidators 2) (sampleVotes []))

def sampleCompleteRotation : List (Call runtimeLimits ℕ SampleVotes) :=
  [.submitPublicKey .none (sampleSubmission 7 2),
    .submitNextPublicKey .none (sampleSubmission 9 2), .initializeBlock 1,
    .signedProposal (sampleSigned (sampleRefresh 9 1 2) 7),
    .newSession (sampleValidators 2) (sampleValidators 3)]

theorem ownVotingCalls_sampleCompleteRotation :
    StepsMeet (step sampleWired) (OwnVotingCalls sampleVoting) sampleWiredGenesis
      sampleCompleteRotation :=
  stepsMeet_of_forall_mem (by simp [sampleCompleteRotation, OwnVotingCalls]) sampleWiredGenesis

theorem proposersActive_sampleCompleteRotation :
    (run (step sampleWired) sampleWiredGenesis sampleCompleteRotation).authoritySetId = 1 ∧
      Always (step sampleWired) ProposersActive sampleWiredGenesis sampleCompleteRotation := by
  refine ⟨by decide +kernel, (proposersActive_run_iff sampleConfig sampleVoting
    (sampleGenesisConfig 2 1 2) (sampleValidators 2) (sampleVotes []) sampleWiredGenesis
    sampleCompleteRotation rfl ownVotingCalls_sampleCompleteRotation).mpr
      ⟨.inl (by decide), ?_⟩⟩
  refine stepsMeet_cons.mpr ⟨fun _ => trivial, stepsMeet_cons.mpr ⟨fun _ => trivial,
    stepsMeet_cons.mpr ⟨fun _ => trivial, stepsMeet_cons.mpr ⟨fun _ => trivial,
    stepsMeet_cons.mpr ⟨fun _ => .inl ?_, stepsMeet_nil⟩⟩⟩⟩⟩
  decide +kernel

theorem proposersActive_fails_without_next_key :
    ¬Always (step sampleWired) ProposersActive sampleWiredGenesis
      (sampleCompleteRotation ++ [.forceChangeAuthorities .root]) := by
  intro h
  have hlast := h (sampleCompleteRotation ++ [.forceChangeAuthorities .root]) [] (by simp)
  revert hlast
  decide +kernel

end DkgSubstrate.ProposerAgreement
