import DkgSubstrate.ProposalVoting
import DkgSubstrate.SampleRuntime

/-!
The safety of the voting: who is listed as a voter, when votes can still change and how
often a proposal is executed.
-/

namespace DkgSubstrate.VotingSafety

open DkgSubstrate.Dispatch
open DkgSubstrate.Primitives
open DkgSubstrate.ProposalVoting
open DkgSubstrate.Proposals
open DkgSubstrate.Runs
open DkgSubstrate.SampleRuntime
open DkgSubstrate.Words

variable {L : Limits} {V : VotingLimits} {AccountId World : Type}

section Votes

variable {maxVotes : ℕ} {votes votes' : ProposalVotes AccountId maxVotes}

/-- All voters, for and against. -/
def voters (votes : ProposalVotes AccountId maxVotes) : List AccountId :=
  votes.votesFor.toList ++ votes.votesAgainst.toList

theorem tryVote_eq_some {who : AccountId} {inFavour : Bool}
    (h : votes.tryVote who inFavour = some votes') :
    votes'.status = votes.status ∧ votes'.expiry = votes.expiry ∧
      votes'.votesFor.toList = votes.votesFor.toList ++ (if inFavour then [who] else []) ∧
      votes'.votesAgainst.toList =
        votes.votesAgainst.toList ++ (if inFavour then [] else [who]) := by
  rw [ProposalVotes.tryVote] at h
  cases inFavour with
  | true =>
      obtain ⟨votesFor, hpush, rfl⟩ := Option.map_eq_some_iff.mp h
      exact ⟨rfl, rfl, BoundedVec.tryFrom_eq_some.mp hpush, (List.append_nil _).symm⟩
  | false =>
      obtain ⟨votesAgainst, hpush, rfl⟩ := Option.map_eq_some_iff.mp h
      exact ⟨rfl, rfl, (List.append_nil _).symm, BoundedVec.tryFrom_eq_some.mp hpush⟩

theorem voters_tryVote {who : AccountId} {inFavour : Bool}
    (h : votes.tryVote who inFavour = some votes') :
    (voters votes').Perm (who :: voters votes) := by
  obtain ⟨-, -, hfor, hagainst⟩ := tryVote_eq_some h
  rw [voters, hfor, hagainst]
  cases inFavour with
  | true =>
      rw [if_pos rfl, if_pos rfl, List.append_nil, List.append_assoc]
      exact List.perm_middle
  | false =>
      rw [if_neg Bool.false_ne_true, if_neg Bool.false_ne_true, List.append_nil,
        ← List.append_assoc]
      exact List.perm_append_singleton _ _

theorem hasVoted_eq_false [DecidableEq AccountId] {who : AccountId} :
    votes.hasVoted who = false ↔ who ∉ voters votes := by
  simp [ProposalVotes.hasVoted, voters]

@[simp] theorem votesFor_tryToComplete (threshold total : ℕ) :
    (votes.tryToComplete threshold total).1.votesFor = votes.votesFor := by
  rw [ProposalVotes.tryToComplete]
  split
  · rfl
  · split <;> rfl

@[simp] theorem voters_tryToComplete (threshold total : ℕ) :
    voters (votes.tryToComplete threshold total).1 = voters votes := by
  rw [ProposalVotes.tryToComplete]
  split
  · rfl
  · split <;> rfl

theorem tryToComplete_approved_iff {threshold total : ℕ} :
    (votes.tryToComplete threshold total).2 = .approved ↔
      threshold ≤ votes.votesFor.length := by
  rw [ProposalVotes.tryToComplete]
  split
  · exact iff_of_true rfl ‹_›
  · split <;> exact iff_of_false nofun ‹_›

theorem status_tryToComplete {threshold total : ℕ}
    (h : votes.isComplete = false) :
    (votes.tryToComplete threshold total).1.status =
      (votes.tryToComplete threshold total).2 := by
  have hstatus : votes.status = .initiated := by simpa [ProposalVotes.isComplete] using h
  rw [ProposalVotes.tryToComplete]
  split
  · rfl
  · split
    · rfl
    · exact hstatus

end Votes

variable {cfg : Config L AccountId World}
variable {s t : State L V AccountId World} {call : Call L AccountId World}

theorem KeyOf.ext {key key' : VoteKey L} (h : KeyOf cfg key) (h' : KeyOf cfg key')
    (hprop : key.2.2 = key'.2.2) : key = key' := by
  obtain ⟨chain, nonce, prop⟩ := key
  obtain ⟨chain', nonce', prop'⟩ := key'
  obtain ⟨_, hid, hnonce⟩ := h
  obtain ⟨_, hid', hnonce'⟩ := h'
  dsimp only at hprop hid hid' hnonce hnonce'
  subst hprop
  obtain rfl : chain = chain' :=
    congrArg ProposalIdentifier.typedChainId (Except.ok.inj (hid.symm.trans hid'))
  rw [← hnonce, ← hnonce']

/-- The entries list every voter once and stand under the key that is decoded from their
proposal; what has been executed is approved, and was executed once. -/
structure VotesSound (cfg : Config L AccountId World) (s : State L V AccountId World) :
    Prop where
  distinct : ∀ key votes, s.votes.lookup key = some votes → (voters votes).Nodup
  keyed : ∀ key votes, s.votes.lookup key = some votes → KeyOf cfg key
  executed : s.executed.Nodup
  approved : ∀ prop ∈ s.executed, ∃ key votes, key.2.2 = prop ∧
    s.votes.lookup key = some votes ∧ votes.status = .approved

theorem lookup_resolved {key key' : VoteKey L} {votes : ProposalVotes AccountId V.maxVotes}
    {world : World} :
    (resolved key votes world s).votes.lookup key' =
      if key' = key then
        some (votes.tryToComplete s.proposerThreshold s.proposerCount).1
      else s.votes.lookup key' :=
  StorageMap.lookup_insert_eq

theorem mem_executed_resolved {key : VoteKey L} {votes : ProposalVotes AccountId V.maxVotes}
    {world : World} {prop : Proposal L} :
    prop ∈ (resolved key votes world s).executed ↔ prop ∈ s.executed ∨
      (votes.tryToComplete s.proposerThreshold s.proposerCount).2 = .approved ∧
        prop = key.2.2 := by
  rw [resolved]
  dsimp only
  split
  · rename_i happroved
    simp [happroved]
  · rename_i hother
    simp [hother]

theorem votesSound_resolved (h : VotesSound cfg s) {key : VoteKey L}
    {votes : ProposalVotes AccountId V.maxVotes} (world : World) (hkey : KeyOf cfg key)
    (hdistinct : (voters votes).Nodup) (hincomplete : votes.isComplete = false)
    (hstored : ∀ stored, s.votes.lookup key = some stored → stored.isComplete = false) :
    VotesSound cfg (resolved key votes world s) := by
  have hnew : key.2.2 ∉ s.executed := by
    intro hmem
    obtain ⟨key', stored, hprop, hlookup, hstatus⟩ := h.approved _ hmem
    obtain rfl := KeyOf.ext (h.keyed key' stored hlookup) hkey hprop
    have hopen := hstored stored hlookup
    simp [ProposalVotes.isComplete, hstatus] at hopen
  refine ⟨?_, ?_, ?_, ?_⟩
  · intro key' votes' hlookup
    rw [lookup_resolved] at hlookup
    split at hlookup
    · rw [← Option.some.inj hlookup, voters_tryToComplete]
      exact hdistinct
    · exact h.distinct key' votes' hlookup
  · intro key' votes' hlookup
    rw [lookup_resolved] at hlookup
    split at hlookup
    · rename_i heq
      rw [heq]
      exact hkey
    · exact h.keyed key' votes' hlookup
  · rw [resolved]
    dsimp only
    split
    · exact h.executed.append (List.nodup_singleton _) (List.disjoint_singleton.mpr hnew)
    · rw [List.append_nil]
      exact h.executed
  · intro prop hprop
    rcases mem_executed_resolved.mp hprop with hold | ⟨happroved, rfl⟩
    · obtain ⟨key', stored, hkey', hlookup, hstatus⟩ := h.approved prop hold
      refine ⟨key', stored, hkey', ?_, hstatus⟩
      rw [lookup_resolved, if_neg ?_, hlookup]
      rintro rfl
      rw [hkey'] at hnew
      exact hnew hold
    · refine ⟨key, _, rfl, by rw [lookup_resolved, if_pos rfl], ?_⟩
      rw [status_tryToComplete hincomplete]
      exact happroved

theorem votesOrNew_cases (cfg : Config L AccountId World) (key : VoteKey L)
    (s : State L V AccountId World) :
    s.votes.lookup key = some (votesOrNew cfg key s) ∨
      s.votes.lookup key = none ∧ voters (votesOrNew cfg key s) = [] := by
  rw [votesOrNew, StorageMap.getD]
  cases s.votes.lookup key with
  | some votes => exact .inl rfl
  | none => exact .inr ⟨rfl, rfl⟩

theorem isComplete_of_lookup {key : VoteKey L} {stored : ProposalVotes AccountId V.maxVotes}
    (hopen : Open s.blockNumber (votesOrNew cfg key s))
    (hstored : s.votes.lookup key = some stored) : stored.isComplete = false := by
  rcases votesOrNew_cases cfg key s with hlookup | ⟨hnone, -⟩
  · obtain rfl := Option.some.inj (hlookup.symm.trans hstored)
    exact hopen.1
  · rw [hnone] at hstored
    cases hstored

theorem VotesSound.distinct_votesOrNew (h : VotesSound cfg s) (key : VoteKey L) :
    (voters (votesOrNew cfg key s)).Nodup := by
  rcases votesOrNew_cases cfg key s with hlookup | ⟨-, hempty⟩
  · exact h.distinct key _ hlookup
  · rw [hempty]
    exact List.nodup_nil

/-- Nothing is executed, or one proposal with as many votes as the threshold asks for. -/
def ExecutesApproved (s t : State L V AccountId World) : Prop :=
  t.executed = s.executed ∨ ∃ key votes, t.executed = s.executed ++ [key.2.2] ∧
    t.votes.lookup key = some votes ∧ votes.status = .approved ∧
    t.proposerThreshold = s.proposerThreshold ∧ s.proposerThreshold ≤ votes.votesFor.length

theorem executesApproved_resolved {key : VoteKey L}
    {votes : ProposalVotes AccountId V.maxVotes} {world : World}
    (hincomplete : votes.isComplete = false) :
    ExecutesApproved s (resolved key votes world s) := by
  by_cases hstatus : (votes.tryToComplete s.proposerThreshold s.proposerCount).2 = .approved
  · refine .inr ⟨key, _, ?_, by rw [lookup_resolved, if_pos rfl], ?_, rfl, ?_⟩
    · rw [resolved, if_pos hstatus]
    · rw [status_tryToComplete hincomplete, hstatus]
    · rw [votesFor_tryToComplete]
      exact tryToComplete_approved_iff.mp hstatus
  · left
    rw [resolved, if_neg hstatus, List.append_nil]

theorem genesis_votes {genesis : GenesisConfig AccountId} {world : World}
    (h : genesis.build cfg world = .ok s) :
    (∀ key, s.votes.lookup key = none) ∧ s.executed = [] := by
  simp only [GenesisConfig.build, bind_eq_ok] at h
  obtain ⟨resources, -, proposers, -, h⟩ := h
  rw [← Except.ok.inj h]
  exact ⟨AList.lookup_empty, rfl⟩

variable [DecidableEq AccountId]

theorem votesSound_effect (h : VotesSound cfg s) (heffect : Effect cfg s call t) :
    VotesSound cfg t := by
  cases heffect with
  | voted inFavour world hproposer hkey hopen hnew hvotes =>
      refine votesSound_resolved h world hkey ?_ ?_ fun _ => isComplete_of_lookup hopen
      · rw [(voters_tryVote hvotes).nodup_iff]
        exact List.nodup_cons.mpr ⟨hasVoted_eq_false.mp hnew, h.distinct_votesOrNew _⟩
      · rw [ProposalVotes.isComplete, (tryVote_eq_some hvotes).1]
        exact hopen.1
  | evaluated world hlookup hopen =>
      refine votesSound_resolved h world (h.keyed _ _ hlookup) (h.distinct _ _ hlookup)
        hopen.1 ?_
      intro stored hstored
      obtain rfl := Option.some.inj (hlookup.symm.trans hstored)
      exact hopen.1
  | _ => exact ⟨h.distinct, h.keyed, h.executed, h.approved⟩

theorem votesSound_step (h : VotesSound cfg s) : VotesSound cfg (step cfg s call) :=
  step_of_effect h fun _ => votesSound_effect h

def Listed (s : State L V AccountId World) (key : VoteKey L) (who : AccountId) : Prop :=
  ∃ votes ∈ s.votes.lookup key, who ∈ voters votes

theorem listed_effect {key : VoteKey L} {who : AccountId} (heffect : Effect cfg s call t)
    (h : Listed t key who) :
    Listed s key who ∨ who ∈ s.proposers.toList ∧
      ∃ inFavour, call = castCall inFavour (.signed who) key.2.2 := by
  cases heffect with
  | voted inFavour world hproposer hkey hopen hnew hvotes =>
      obtain ⟨votes, hvotes', hwho⟩ := h
      rw [lookup_resolved] at hvotes'
      split at hvotes'
      · rename_i heq
        rw [← Option.some.inj hvotes', voters_tryToComplete, (voters_tryVote hvotes).mem_iff,
          List.mem_cons] at hwho
        rcases hwho with rfl | hold
        · rw [heq]
          exact .inr ⟨hproposer, inFavour, rfl⟩
        · -- The others were listed before, unless the entry is new and lists nobody.
          refine .inl ⟨_, ?_, hold⟩
          rcases votesOrNew_cases cfg key s with hlookup | ⟨-, hempty⟩
          · rw [heq] at hlookup ⊢
            exact hlookup
          · rw [heq] at hempty
            rw [hempty] at hold
            cases hold
      · exact .inl ⟨votes, hvotes', hwho⟩
  | evaluated world hlookup hopen =>
      obtain ⟨votes, hvotes', hwho⟩ := h
      rw [lookup_resolved] at hvotes'
      split at hvotes'
      · rename_i heq
        rw [← Option.some.inj hvotes', voters_tryToComplete] at hwho
        rw [heq]
        exact .inl ⟨_, hlookup, hwho⟩
      · exact .inl ⟨votes, hvotes', hwho⟩
  | _ => exact .inl h

theorem listed_step {key : VoteKey L} {who : AccountId} (hold : ¬Listed s key who)
    (h : Listed (step cfg s call) key who) :
    who ∈ s.proposers.toList ∧ ∃ inFavour, call = castCall inFavour (.signed who) key.2.2 := by
  rcases step_effect cfg s call with ⟨-, hsame⟩ | ⟨-, heffect⟩
  · rw [hsame] at h
    exact absurd h hold
  · exact (listed_effect heffect h).resolve_left hold

theorem closed_effect {key : VoteKey L} {votes : ProposalVotes AccountId V.maxVotes}
    (heffect : Effect cfg s call t) (hlookup : s.votes.lookup key = some votes)
    (hclosed : ¬Open s.blockNumber votes) :
    t.votes.lookup key = some votes ∧ ¬Open t.blockNumber votes := by
  cases heffect with
  | voted inFavour world hproposer hkey hopen hnew hvotes =>
      refine ⟨?_, hclosed⟩
      rw [lookup_resolved, if_neg ?_, hlookup]
      rintro rfl
      rcases votesOrNew_cases cfg key s with hstored | ⟨hnone, -⟩
      · obtain rfl := Option.some.inj (hstored.symm.trans hlookup)
        exact hclosed hopen
      · rw [hnone] at hlookup
        cases hlookup
  | evaluated world hstored hopen =>
      refine ⟨?_, hclosed⟩
      rw [lookup_resolved, if_neg ?_, hlookup]
      rintro rfl
      obtain rfl := Option.some.inj (hstored.symm.trans hlookup)
      exact hclosed hopen
  | passBlocks =>
      refine ⟨hlookup, ?_⟩
      rintro ⟨hincomplete, hunexpired⟩
      refine hclosed ⟨hincomplete, ?_⟩
      simp only [ProposalVotes.isExpired, decide_eq_false_iff_not, not_le] at hunexpired ⊢
      omega
  | _ => exact ⟨hlookup, hclosed⟩

theorem closed_run {key : VoteKey L} {votes : ProposalVotes AccountId V.maxVotes}
    (hlookup : s.votes.lookup key = some votes) (hclosed : ¬Open s.blockNumber votes)
    (calls : List (Call L AccountId World)) :
    (run (step cfg) s calls).votes.lookup key = some votes := by
  have hinv := invariant_run
    (fun t : State L V AccountId World => t.votes.lookup key = some votes ∧
      ¬Open t.blockNumber votes) ?_ ⟨hlookup, hclosed⟩ (stepsMeet_true (step cfg) s calls)
  · exact hinv.1
  · rintro t call ⟨hlookup, hclosed⟩ -
    exact step_of_effect ⟨hlookup, hclosed⟩ fun _ heffect =>
      closed_effect heffect hlookup hclosed

theorem executesApproved_step (cfg : Config L AccountId World)
    (s : State L V AccountId World) (call : Call L AccountId World) :
    ExecutesApproved s (step cfg s call) := by
  refine step_of_effect (.inl rfl) ?_
  intro t heffect
  cases heffect with
  | voted inFavour world hproposer hkey hopen hnew hvotes =>
      refine executesApproved_resolved ?_
      rw [ProposalVotes.isComplete, (tryVote_eq_some hvotes).1]
      exact hopen.1
  | evaluated world hlookup hopen => exact executesApproved_resolved hopen.1
  | _ => exact .inl rfl

theorem votesSound_run {genesis : GenesisConfig AccountId} {world : World}
    (hgenesis : genesis.build cfg world = .ok s) (calls : List (Call L AccountId World)) :
    VotesSound cfg (run (step cfg) s calls) := by
  obtain ⟨hvotes, hexecuted⟩ := genesis_votes hgenesis
  refine invariant_run (VotesSound cfg) (fun _ _ h _ => votesSound_step h) ?_
    (stepsMeet_true _ _ _)
  refine ⟨?_, ?_, ?_, ?_⟩
  · intro key votes hlookup
    rw [hvotes] at hlookup
    cases hlookup
  · intro key votes hlookup
    rw [hvotes] at hlookup
    cases hlookup
  · rw [hexecuted]
    exact List.nodup_nil
  · intro prop hprop
    rw [hexecuted] at hprop
    cases hprop

theorem listed_run {genesis : GenesisConfig AccountId} {world : World}
    (hgenesis : genesis.build cfg world = .ok s) {calls : List (Call L AccountId World)}
    {key : VoteKey L} {who : AccountId} (h : Listed (run (step cfg) s calls) key who) :
    ∃ pre inFavour post, calls = pre ++ castCall inFavour (.signed who) key.2.2 :: post ∧
      who ∈ (run (step cfg) s pre).proposers.toList := by
  have hinit : ¬Listed s key who := by
    rintro ⟨votes, hlookup, -⟩
    rw [(genesis_votes hgenesis).1] at hlookup
    cases hlookup
  obtain ⟨pre, call, post, hsplit, hold, hnew⟩ :=
    exists_step_of_run (P := fun t => Listed t key who) hinit h
  obtain ⟨hproposer, inFavour, rfl⟩ := listed_step hold hnew
  exact ⟨pre, inFavour, post, hsplit, hproposer⟩

/-- The voting is safe in a run: in its last state, and so in every state, voters are
listed once and voted as proposers, votes that are complete or expired have not changed
since, and every executed proposal was executed once, with enough votes in that call. -/
theorem votingSafety_run (cfg : Config L AccountId World) (genesis : GenesisConfig AccountId)
    (world : World) (s : State L V AccountId World) (calls : List (Call L AccountId World))
    (hgenesis : genesis.build cfg world = .ok s) :
    (∀ key votes, (run (step cfg) s calls).votes.lookup key = some votes →
      votes.votesFor.toList.Nodup ∧ votes.votesAgainst.toList.Nodup ∧
        votes.votesFor.toList.Disjoint votes.votesAgainst.toList) ∧
    (∀ key votes who, (run (step cfg) s calls).votes.lookup key = some votes →
      who ∈ votes.votesFor.toList ∨ who ∈ votes.votesAgainst.toList →
        ∃ pre inFavour post, calls = pre ++ castCall inFavour (.signed who) key.2.2 :: post ∧
          who ∈ (run (step cfg) s pre).proposers.toList) ∧
    (∀ pre post key votes, calls = pre ++ post →
      (run (step cfg) s pre).votes.lookup key = some votes →
      (votes.isComplete = true ∨
        votes.isExpired (run (step cfg) s pre).blockNumber = true) →
      (run (step cfg) s calls).votes.lookup key = some votes) ∧
    (run (step cfg) s calls).executed.Nodup ∧
    StepsMeet (step cfg) (fun t call => ExecutesApproved t (step cfg t call)) s calls := by
  have hsound := votesSound_run hgenesis calls
  refine ⟨?_, ?_, ?_, hsound.executed, fun _ _ _ _ => executesApproved_step cfg _ _⟩
  · intro key votes hlookup
    obtain ⟨hfor, hagainst, hdisjoint⟩ := List.nodup_append.mp (hsound.distinct key votes hlookup)
    refine ⟨hfor, hagainst, ?_⟩
    intro who hwho hwho'
    exact hdisjoint who hwho who hwho' rfl
  · intro key votes who hlookup hwho
    exact listed_run hgenesis ⟨votes, hlookup, List.mem_append.mpr hwho⟩
  · rintro pre post key votes rfl hlookup hclosed
    rw [run_append]
    refine closed_run hlookup ?_ post
    rintro ⟨hincomplete, hunexpired⟩
    rcases hclosed with hcomplete | hexpired
    · rw [hincomplete] at hcomplete
      cases hcomplete
    · rw [hunexpired] at hexpired
      cases hexpired

def runtimeVotingLimits : VotingLimits where
  maxVotes := 100
  maxResources := 1000
  maxProposers := 1000
  votingKeySize := 512
  maxProposers_lt := by decide

def sampleVoting : Config runtimeLimits ℕ Unit where
  decoders := sampleDecoders
  headerNonce data := ofBeBytes ((data.drop 36).take 4)
  chainIdFromBytes bytes := .evm (ofBeBytes (bytes.toList.drop 2))
  adminOrigin origin := origin matches .root
  chainIdentifier := .substrate 1
  proposalLifetime := 100
  dkgAuthorityToMerkleLeaf key := key.toList
  handleUnsignedProposal _ _ world := .ok (world, .ok ())

def sampleVotingGenesis (proposers : List ℕ) : GenesisConfig ℕ where
  initialChainIds := [⟨[1, 0, 0, 0, 0, 1], rfl⟩]
  initialRIds := [(⟨toBeBytes 32 1, length_toBeBytes 32 1⟩, [])]
  initialProposers := proposers

def sampleVotes (proposers : List ℕ) : State runtimeLimits runtimeVotingLimits ℕ Unit :=
  commit (State.empty ()) ((sampleVotingGenesis proposers).build sampleVoting ())

def sampleSetChange (proposers : List ℕ) : Call runtimeLimits ℕ Unit :=
  .authoritySetChanged proposers (proposers.map fun i => samplePublic (UInt8.ofNat i))

def sampleVotingRun : List (Call runtimeLimits ℕ Unit) :=
  [.acknowledgeProposal (.signed 1) (sampleTokenAdd 5),
    .acknowledgeProposal (.signed 2) (sampleTokenAdd 5)]

theorem votingSafety_sampleVotingRun :
    (run (step sampleVoting) (sampleVotes [1, 2]) sampleVotingRun).executed =
        [sampleTokenAdd 5] ∧
      (run (step sampleVoting) (sampleVotes [1, 2]) sampleVotingRun).executed.Nodup :=
  ⟨by decide +kernel, (votingSafety_run sampleVoting (sampleVotingGenesis [1, 2]) ()
    (sampleVotes [1, 2]) sampleVotingRun rfl).2.2.2.1⟩

end DkgSubstrate.VotingSafety
