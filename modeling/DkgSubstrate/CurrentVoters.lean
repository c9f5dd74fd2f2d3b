import DkgSubstrate.VotingSafety

/-!
Whether a proposal is approved by proposers of the current set.  Votes stay when their
voters leave the set.
-/

namespace DkgSubstrate.CurrentVoters

open DkgSubstrate.Primitives
open DkgSubstrate.ProposalVoting
open DkgSubstrate.Runs
open DkgSubstrate.SampleRuntime
open DkgSubstrate.VotingSafety

variable {L : Limits} {V : VotingLimits} {AccountId World : Type}

def Approved (s : State L V AccountId World) (key : VoteKey L) : Prop :=
  ∃ votes ∈ s.votes.lookup key, votes.status = .approved

def currentVotersFor [DecidableEq AccountId] (s : State L V AccountId World)
    (votes : ProposalVotes AccountId V.maxVotes) : List AccountId :=
  votes.votesFor.toList.filter fun who => who ∈ s.proposers.toList

/-- A proposal that becomes approved has enough votes of current proposers. -/
def ApprovedByCurrent [DecidableEq AccountId] (s s' : State L V AccountId World) : Prop :=
  ∀ key votes, s'.votes.lookup key = some votes → votes.status = .approved →
    ¬Approved s key → s'.proposerThreshold ≤ (currentVotersFor s' votes).length

def KeepsVoters (s : State L V AccountId World) : Call L AccountId World → Prop
  | .authoritySetChanged authorities _ => ∀ entry ∈ s.votes.entries,
      Open s.blockNumber entry.2 → ∀ who ∈ entry.2.votesFor.toList, who ∈ authorities
  | _ => True

def VotersCurrent (s : State L V AccountId World) : Prop :=
  ∀ key votes, s.votes.lookup key = some votes → Open s.blockNumber votes →
    ∀ who ∈ votes.votesFor.toList, who ∈ s.proposers.toList

variable {cfg : Config L AccountId World} {s t : State L V AccountId World}
variable {call : Call L AccountId World}

theorem votersCurrent_resolved (h : VotersCurrent s) {key : VoteKey L}
    {votes : ProposalVotes AccountId V.maxVotes} {world : World}
    (hvotes : ∀ who ∈ votes.votesFor.toList, who ∈ s.proposers.toList) :
    VotersCurrent (resolved key votes world s) := by
  intro key' votes' hlookup hopen who hwho
  rw [lookup_resolved] at hlookup
  split at hlookup
  · rw [← Option.some.inj hlookup, votesFor_tryToComplete] at hwho
    exact hvotes who hwho
  · exact h key' votes' hlookup hopen who hwho

theorem votesFor_of_voted {key : VoteKey L} {votes : ProposalVotes AccountId V.maxVotes}
    {who : AccountId} {inFavour : Bool} (h : VotersCurrent s)
    (hproposer : who ∈ s.proposers.toList) (hopen : Open s.blockNumber (votesOrNew cfg key s))
    (hvotes : (votesOrNew cfg key s).tryVote who inFavour = some votes) :
    ∀ voter ∈ votes.votesFor.toList, voter ∈ s.proposers.toList := by
  intro voter hvoter
  rw [(tryVote_eq_some hvotes).2.2.1] at hvoter
  rcases List.mem_append.mp hvoter with hold | hnew
  · rcases votesOrNew_cases cfg key s with hlookup | ⟨-, hempty⟩
    · exact h key _ hlookup hopen voter hold
    · rw [voters, List.append_eq_nil_iff] at hempty
      rw [hempty.1] at hold
      cases hold
  · split at hnew
    · rw [List.mem_singleton.mp hnew]
      exact hproposer
    · cases hnew

variable [DecidableEq AccountId]

theorem approvedByCurrent_resolved {key : VoteKey L}
    {votes : ProposalVotes AccountId V.maxVotes} {world : World}
    (hincomplete : votes.isComplete = false)
    (hvotes : ∀ who ∈ votes.votesFor.toList, who ∈ s.proposers.toList) :
    ApprovedByCurrent s (resolved key votes world s) := by
  intro key' votes' hlookup hstatus hold
  rw [lookup_resolved] at hlookup
  split at hlookup
  · obtain rfl := Option.some.inj hlookup
    rw [status_tryToComplete hincomplete] at hstatus
    have hall : currentVotersFor (resolved key votes world s)
        (votes.tryToComplete s.proposerThreshold s.proposerCount).1 =
          votes.votesFor.toList := by
      rw [currentVotersFor, votesFor_tryToComplete]
      exact List.filter_eq_self.mpr fun who hwho => decide_eq_true (hvotes who hwho)
    rw [hall]
    exact tryToComplete_approved_iff.mp hstatus
  · exact absurd ⟨votes', hlookup, hstatus⟩ hold

theorem approvedByCurrent_of_votes_eq (h : t.votes = s.votes) : ApprovedByCurrent s t := by
  intro key votes hlookup hstatus hold
  rw [h] at hlookup
  exact absurd ⟨votes, hlookup, hstatus⟩ hold

theorem votersCurrent_effect (h : VotersCurrent s) (heffect : Effect cfg s call t)
    (hkeeps : KeepsVoters s call) : VotersCurrent t ∧ ApprovedByCurrent s t := by
  cases heffect with
  | voted inFavour world hproposer hkey hopen hnew hvotes =>
      have hcurrent := votesFor_of_voted h hproposer hopen hvotes
      refine ⟨votersCurrent_resolved h hcurrent, approvedByCurrent_resolved ?_ hcurrent⟩
      rw [ProposalVotes.isComplete, (tryVote_eq_some hvotes).1]
      exact hopen.1
  | evaluated world hlookup hopen =>
      have hcurrent := h _ _ hlookup hopen
      exact ⟨votersCurrent_resolved h hcurrent, approvedByCurrent_resolved hopen.1 hcurrent⟩
  | setChanged votingKeys hproposers =>
      refine ⟨?_, approvedByCurrent_of_votes_eq rfl⟩
      intro key votes hlookup hopen who hwho
      rw [hproposers]
      exact hkeeps ⟨key, votes⟩ (AList.mem_lookup_iff.mp hlookup) hopen who hwho
  | passBlocks =>
      refine ⟨?_, approvedByCurrent_of_votes_eq rfl⟩
      rintro key votes hlookup ⟨hincomplete, hunexpired⟩
      refine h key votes hlookup ⟨hincomplete, ?_⟩
      simp only [ProposalVotes.isExpired, decide_eq_false_iff_not, not_le] at hunexpired ⊢
      omega
  | _ => exact ⟨h, approvedByCurrent_of_votes_eq rfl⟩

theorem votersCurrent_step (h : VotersCurrent s)
    (hkeeps : Accepted cfg s call → KeepsVoters s call) :
    VotersCurrent (step cfg s call) ∧ ApprovedByCurrent s (step cfg s call) := by
  rcases step_effect cfg s call with ⟨-, hsame⟩ | ⟨haccepted, heffect⟩
  · rw [hsame]
    exact ⟨h, approvedByCurrent_of_votes_eq rfl⟩
  · exact votersCurrent_effect h heffect (hkeeps haccepted)

/-- In a run whose changes of the proposers keep the voters for open proposals, every
proposal is approved by enough proposers of the set of that moment. -/
theorem approvedByCurrent_run (cfg : Config L AccountId World)
    (genesis : GenesisConfig AccountId) (world : World) (s : State L V AccountId World)
    (calls : List (Call L AccountId World)) (hgenesis : genesis.build cfg world = .ok s)
    (hkeeps : StepsMeet (step cfg) (fun t call => Accepted cfg t call → KeepsVoters t call)
      s calls) :
    StepsMeet (step cfg) (fun t call => ApprovedByCurrent t (step cfg t call)) s calls := by
  have hinit : VotersCurrent s := by
    intro key votes hlookup
    rw [(genesis_votes hgenesis).1] at hlookup
    cases hlookup
  exact stepsMeet_of_invariant VotersCurrent
    (fun _ _ h hcall => (votersCurrent_step h hcall).1)
    (fun _ _ h hcall => (votersCurrent_step h hcall).2) hinit hkeeps

def sampleKeptVoter : List (Call runtimeLimits ℕ Unit) :=
  [.setThreshold .root 2, .acknowledgeProposal (.signed 1) (sampleTokenAdd 5),
    sampleSetChange [1, 3], .acknowledgeProposal (.signed 3) (sampleTokenAdd 5)]

theorem keepsVoters_sampleKeptVoter :
    StepsMeet (step sampleVoting)
      (fun t call => Accepted sampleVoting t call → KeepsVoters t call) (sampleVotes [1, 2])
      sampleKeptVoter := by
  refine stepsMeet_cons.mpr ⟨fun _ => trivial, stepsMeet_cons.mpr ⟨fun _ => trivial,
    stepsMeet_cons.mpr ⟨fun _ => ?_, stepsMeet_cons.mpr ⟨fun _ => trivial, stepsMeet_nil⟩⟩⟩⟩
  rw [sampleSetChange, KeepsVoters]
  have hvoters : ∀ entry ∈ (step sampleVoting (step sampleVoting (sampleVotes [1, 2])
      (.setThreshold .root 2)) (.acknowledgeProposal (.signed 1) (sampleTokenAdd 5))).votes.entries,
      ∀ who ∈ entry.2.votesFor.toList, who ∈ [1, 3] := by
    decide +kernel
  exact fun entry hentry _ => hvoters entry hentry

theorem approvedByCurrent_sampleKeptVoter :
    (run (step sampleVoting) (sampleVotes [1, 2]) sampleKeptVoter).executed =
        [sampleTokenAdd 5] ∧
      StepsMeet (step sampleVoting)
        (fun t call => ApprovedByCurrent t (step sampleVoting t call)) (sampleVotes [1, 2])
        sampleKeptVoter :=
  ⟨by decide +kernel, approvedByCurrent_run sampleVoting (sampleVotingGenesis [1, 2]) ()
    (sampleVotes [1, 2]) sampleKeptVoter rfl keepsVoters_sampleKeptVoter⟩

def sampleDroppedVoter : List (Call runtimeLimits ℕ Unit) :=
  [.setThreshold .root 2, .acknowledgeProposal (.signed 1) (sampleTokenAdd 5),
    sampleSetChange [2, 3]]

theorem approvedByCurrent_fails_for_dropped_voter :
    ¬StepsMeet (step sampleVoting)
      (fun t call => ApprovedByCurrent t (step sampleVoting t call)) (sampleVotes [1, 2])
      (sampleDroppedVoter ++ [.acknowledgeProposal (.signed 2) (sampleTokenAdd 5)]) := by
  intro h
  have hstep := h sampleDroppedVoter (.acknowledgeProposal (.signed 2) (sampleTokenAdd 5)) [] rfl
  have hvotes := hstep (.evm 1, 5, sampleTokenAdd 5)
    { votesFor := ⟨[1, 2], by decide⟩
      votesAgainst := default
      status := .approved
      expiry := 100 } (by decide +kernel) rfl
  have hold : ¬Approved (run (step sampleVoting) (sampleVotes [1, 2]) sampleDroppedVoter)
      (.evm 1, 5, sampleTokenAdd 5) := by
    rintro ⟨votes, hlookup, hstatus⟩
    have hinitiated : ((run (step sampleVoting) (sampleVotes [1, 2])
        sampleDroppedVoter).votes.lookup (.evm 1, 5, sampleTokenAdd 5)).map
          ProposalVotes.status = some .initiated := by decide +kernel
    rw [Option.mem_def.mp hlookup, Option.map_some, hstatus] at hinitiated
    cases hinitiated
  have hthreshold := hvotes hold
  revert hthreshold
  decide +kernel

end DkgSubstrate.CurrentVoters
