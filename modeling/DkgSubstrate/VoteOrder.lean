import DkgSubstrate.VotingSafety

/-!
The outcome of a vote does not depend on the order of the votes.  A proposal is approved with
the vote that reaches the threshold and rejected with the one that puts it out of reach, and
all later votes are refused.
-/

namespace DkgSubstrate.VoteOrder

open DkgSubstrate.Dispatch
open DkgSubstrate.Primitives
open DkgSubstrate.ProposalVoting
open DkgSubstrate.Proposals
open DkgSubstrate.Runs
open DkgSubstrate.SampleRuntime
open DkgSubstrate.VotingSafety
open DkgSubstrate.Words

variable {L : Limits} {V : VotingLimits} {AccountId World : Type}

theorem lt_wrappingAdd_iff (threshold : ℕ) {total against before : ℕ} (htotal : total < 2 ^ 32)
    (hagainst : against ≤ total) (hnext : against ≤ before + 1)
    (hbefore : total + 1 < 2 ^ 32 → before + threshold ≤ total) :
    total < wrappingAdd 32 (truncate 32 against) threshold ↔
      total + 1 < 2 ^ 32 ∧ total < against + threshold := by
  rw [truncate_of_lt (hagainst.trans_lt htotal), wrappingAdd]
  by_cases hfits : total + 1 < 2 ^ 32
  · have hsum := hbefore hfits
    rw [Nat.mod_eq_of_lt (by omega)]
    exact ⟨fun h => ⟨hfits, h⟩, fun h => h.2⟩
  · have hmod := Nat.mod_lt (against + threshold) (by decide : 0 < 2 ^ 32)
    exact iff_of_false (by omega) fun h => hfits h.1

theorem countP_add_countP_not (favour : AccountId → Bool) (voted : List AccountId) :
    voted.countP favour + voted.countP (fun who => !favour who) = voted.length := by
  simpa using (List.length_eq_countP_add_countP favour (l := voted)).symm

/-- The votes are open and list the voters of `voted`, in their order.  They expire after the
block `horizon`. -/
structure Recorded (favour : AccountId → Bool) (horizon : ℕ) (voted : List AccountId)
    (votes : ProposalVotes AccountId V.maxVotes) : Prop where
  status : votes.status = .initiated
  votesFor : votes.votesFor.toList = voted.filter favour
  votesAgainst : votes.votesAgainst.toList = voted.filter fun who => !favour who
  expiry : horizon < votes.expiry

/-- What is stored after the votes of `voted`. -/
inductive Tally (favour : AccountId → Bool) (threshold total horizon : ℕ)
    (voted : List AccountId) : Option (ProposalVotes AccountId V.maxVotes) → Prop
  | fresh (hnone : voted = []) : Tally favour threshold total horizon voted none
  | counting {votes : ProposalVotes AccountId V.maxVotes}
      (hrecorded : Recorded favour horizon voted votes)
      (hbelow : votes.votesFor.length < threshold)
      (hopen : total + 1 < 2 ^ 32 → votes.votesAgainst.length + threshold ≤ total) :
      Tally favour threshold total horizon voted (some votes)
  | approved {votes : ProposalVotes AccountId V.maxVotes}
      (hstatus : votes.status = .approved) (hreached : threshold ≤ voted.countP favour) :
      Tally favour threshold total horizon voted (some votes)
  | rejected {votes : ProposalVotes AccountId V.maxVotes}
      (hstatus : votes.status = .rejected) (hfits : total + 1 < 2 ^ 32)
      (hlost : total < voted.countP (fun who => !favour who) + threshold)
      (hhopeless : votes.votesFor.length + (total - (voters votes).length) < threshold) :
      Tally favour threshold total horizon voted (some votes)

variable {favour : AccountId → Bool} {threshold total horizon : ℕ} {voted : List AccountId}

namespace Recorded

variable {votes votes' : ProposalVotes AccountId V.maxVotes}

theorem length_votesFor (h : Recorded favour horizon voted votes) :
    votes.votesFor.length = voted.countP favour := by
  rw [BoundedVec.length_of_toList_eq h.votesFor, List.countP_eq_length_filter]

theorem length_votesAgainst (h : Recorded favour horizon voted votes) :
    votes.votesAgainst.length = voted.countP fun who => !favour who := by
  rw [BoundedVec.length_of_toList_eq h.votesAgainst, List.countP_eq_length_filter]

theorem length_voters (h : Recorded favour horizon voted votes) :
    votes.votesFor.length + votes.votesAgainst.length = voted.length := by
  rw [h.length_votesFor, h.length_votesAgainst, countP_add_countP_not]

theorem notMem_voters (h : Recorded favour horizon voted votes) {who : AccountId}
    (hwho : who ∉ voted) : who ∉ voters votes := by
  rw [voters, h.votesFor, h.votesAgainst]
  intro hmem
  rcases List.mem_append.mp hmem with hmem | hmem
  · exact hwho (List.mem_of_mem_filter hmem)
  · exact hwho (List.mem_of_mem_filter hmem)

theorem tryVote (h : Recorded favour horizon voted votes) {who : AccountId}
    (hvote : votes.tryVote who (favour who) = some votes') :
    Recorded favour horizon (voted ++ [who]) votes' ∧
      votes'.votesAgainst.length ≤ votes.votesAgainst.length + 1 := by
  obtain ⟨hstatus, hexpiry, hfor, hagainst⟩ := tryVote_eq_some hvote
  refine ⟨⟨hstatus.trans h.status, ?_, ?_, hexpiry ▸ h.expiry⟩, ?_⟩
  · rw [hfor, h.votesFor, List.filter_append]
    cases hwho : favour who <;> simp [hwho]
  · rw [hagainst, h.votesAgainst, List.filter_append]
    cases hwho : favour who <;> simp [hwho]
  · rw [BoundedVec.length_of_toList_eq hagainst, List.length_append]
    refine Nat.add_le_add_left ?_ _
    cases favour who <;> simp

theorem exists_tryVote (h : Recorded favour horizon voted votes)
    (hroom : voted.length < V.maxVotes) (who : AccountId) (inFavour : Bool) :
    ∃ votes', votes.tryVote who inFavour = some votes' := by
  have hlength := h.length_voters
  have hpush : ∀ list : BoundedVec AccountId V.maxVotes, list.length ≤ voted.length →
      ∃ list', list.tryPush who = some list' := by
    intro list hlist
    cases hpushed : list.tryPush who with
    | some list' => exact ⟨list', rfl⟩
    | none =>
        rw [BoundedVec.tryPush, BoundedVec.tryFrom_eq_none, List.length_append] at hpushed
        have hfull : V.maxVotes < list.length + 1 := hpushed
        omega
  rw [ProposalVotes.tryVote]
  cases inFavour with
  | true =>
      obtain ⟨list, hlist⟩ := hpush votes.votesFor (by omega)
      exact ⟨_, by rw [if_pos rfl, hlist]; rfl⟩
  | false =>
      obtain ⟨list, hlist⟩ := hpush votes.votesAgainst (by omega)
      exact ⟨_, by rw [if_neg Bool.false_ne_true, hlist]; rfl⟩

theorem tally_tryToComplete {before : ℕ} (h : Recorded favour horizon voted votes)
    (hle : threshold ≤ total) (htotal : total < 2 ^ 32) (hvoted : voted.length ≤ total)
    (hnext : votes.votesAgainst.length ≤ before + 1)
    (hbefore : total + 1 < 2 ^ 32 → before + threshold ≤ total) :
    Tally favour threshold total horizon voted
      (some (votes.tryToComplete threshold total).1) := by
  have hlength := h.length_voters
  have hagainst : votes.votesAgainst.length ≤ total := by omega
  have hreject := lt_wrappingAdd_iff threshold htotal hagainst hnext hbefore
  rw [ProposalVotes.tryToComplete]
  by_cases hreached : threshold ≤ votes.votesFor.length
  · rw [if_pos hreached]
    exact .approved rfl (h.length_votesFor ▸ hreached)
  · rw [if_neg hreached]
    by_cases hlost : total < wrappingAdd 32 (truncate 32 votes.votesAgainst.length) threshold
    · rw [if_pos ⟨hle, hlost⟩]
      obtain ⟨hfits, hover⟩ := hreject.mp hlost
      refine .rejected rfl hfits (h.length_votesAgainst ▸ hover) ?_
      have hvoters : (voters { votes with status := .rejected }).length = voted.length := by
        rw [voters, List.length_append]
        exact hlength
      rw [hvoters]
      change votes.votesFor.length + _ < _
      omega
    · rw [if_neg fun hreject => hlost hreject.2]
      refine .counting h (Nat.not_le.mp hreached) ?_
      intro hfits
      exact Nat.not_lt.mp fun hover => hlost (hreject.mpr ⟨hfits, hover⟩)

end Recorded

theorem Tally.append_of_isComplete {votes : ProposalVotes AccountId V.maxVotes}
    (h : Tally favour threshold total horizon voted (some votes))
    (hcomplete : votes.isComplete = true) (who : AccountId) :
    Tally favour threshold total horizon (voted ++ [who]) (some votes) := by
  cases h with
  | counting hrecorded => simp [ProposalVotes.isComplete, hrecorded.status] at hcomplete
  | approved hstatus hreached =>
      refine .approved hstatus (hreached.trans ?_)
      rw [List.countP_append]
      exact Nat.le_add_right _ _
  | rejected hstatus hfits hlost hhopeless =>
      refine .rejected hstatus hfits (hlost.trans_le ?_) hhopeless
      rw [List.countP_append]
      omega

structure SameRules (s t : State L V AccountId World) : Prop where
  proposers : t.proposers = s.proposers
  proposerThreshold : t.proposerThreshold = s.proposerThreshold
  proposerCount : t.proposerCount = s.proposerCount
  chainNonces : t.chainNonces = s.chainNonces
  resources : t.resources = s.resources

/-- All proposers can vote on the proposal, none has voted yet, and it can be handed over. -/
structure Poll (cfg : Config L AccountId World) (key : VoteKey L)
    (s : State L V AccountId World) : Prop where
  keyed : KeyOf cfg key
  whitelisted : s.chainNonces.containsKey key.1 = true
  resource : ∃ resourceId, decodeProposalHeader key.2.2.data = .ok resourceId ∧
    s.resources.containsKey resourceId = true
  nodup : s.proposers.toList.Nodup
  le_maxVotes : s.proposers.length ≤ V.maxVotes
  proposerCount : s.proposerCount = s.proposers.length
  one_le : 1 ≤ s.proposerThreshold
  threshold_le : s.proposerThreshold ≤ s.proposers.length
  fresh : s.votes.lookup key = none
  succeeds : ∀ block world, ∃ world',
    cfg.handleUnsignedProposal block key.2.2 world = .ok (world', .ok ())

variable {cfg : Config L AccountId World} {key : VoteKey L} {s t : State L V AccountId World}

theorem tryResolveProposal_open (key : VoteKey L) {votes : ProposalVotes AccountId V.maxVotes}
    (hlookup : t.votes.lookup key = some votes) (hopen : Open t.blockNumber votes)
    (hsucceeds : ∀ block world, ∃ world',
      cfg.handleUnsignedProposal block key.2.2 world = .ok (world', .ok ())) :
    ∃ world, tryResolveProposal cfg key.2.1 key.1 key.2.2 t =
      .ok (resolved key votes world t) := by
  simp only [tryResolveProposal, bind_eq_ok, okOr_eq_ok, ensure_eq_ok]
  cases hstatus : (votes.tryToComplete t.proposerThreshold t.proposerCount).2 with
  | approved =>
      obtain ⟨world, hworld⟩ := hsucceeds t.blockNumber t.world
      refine ⟨world, votes, hlookup, (), hopen.1, (), hopen.2, ?_⟩
      simp only [hstatus, finalizeExecution, hworld, resolved, if_true]
      rfl
  | initiated | rejected =>
      refine ⟨t.world, votes, hlookup, (), hopen.1, (), hopen.2, ?_⟩
      simp only [hstatus, resolved, reduceCtorEq, if_false, List.append_nil]

variable [DecidableEq AccountId]

theorem castVote_open {who : AccountId} {inFavour : Bool}
    {votes : ProposalVotes AccountId V.maxVotes} (hpoll : Poll cfg key s) (hsame : SameRules s t)
    (hwho : who ∈ s.proposers.toList) (hopen : Open t.blockNumber (votesOrNew cfg key t))
    (hnew : (votesOrNew cfg key t).hasVoted who = false)
    (hvote : (votesOrNew cfg key t).tryVote who inFavour = some votes) :
    ∃ world, castVote cfg inFavour (.signed who) key.2.2 t =
      .ok (resolved key votes world t) := by
  obtain ⟨chain, nonce, prop⟩ := key
  obtain ⟨payloadKey, hid, hnonce⟩ := hpoll.keyed
  obtain ⟨resourceId, hheader, hresource⟩ := hpoll.resource
  dsimp only at hid hnonce hheader ⊢
  obtain ⟨hstatus, hexpiry, -, -⟩ := tryVote_eq_some hvote
  have hopen' : Open t.blockNumber votes := by
    rw [Open, ProposalVotes.isComplete, ProposalVotes.isExpired, hstatus, hexpiry]
    exact hopen
  obtain ⟨world, hresolved⟩ := tryResolveProposal_open (chain, nonce, prop)
    (t := { t with votes := t.votes.insert (chain, nonce, prop) votes })
    (StorageMap.lookup_insert_eq.trans (if_pos rfl)) hopen' hpoll.succeeds
  refine ⟨world, ?_⟩
  simp only [castVote, commitVote, bind_eq_ok, okOr_eq_ok, ensure_eq_ok]
  subst hnonce
  refine ⟨who, rfl, _, decodeIdentifier_eq_ok.mpr hid, resourceId, by rw [hheader]; rfl, (),
    ?_, (), ?_, (), ?_, _, ⟨(), hopen.1, (), hopen.2, (), hnew, votes, hvote, rfl⟩, ?_⟩
  · rw [isProposer, hsame.proposers]
    exact decide_eq_true hwho
  · rw [hsame.chainNonces]
    exact hpoll.whitelisted
  · rw [hsame.resources]
    exact hresource
  · rw [hresolved, resolved, resolved, AList.insert_insert]

theorem isComplete_of_castVote {inFavour : Bool} {origin : Origin AccountId}
    {t' : State L V AccountId World} (hkey : KeyOf cfg key)
    (h : castVote cfg inFavour origin key.2.2 t = .ok t') :
    (votesOrNew cfg key t).isComplete = false := by
  obtain ⟨chain, nonce, prop⟩ := key
  obtain ⟨payloadKey, hid, hnonce⟩ := hkey
  simp only [castVote, commitVote, bind_eq_ok, ensure_eq_ok] at h
  obtain ⟨who, -, identifier, hidentifier, resourceId, -, _, -, _, -, _, -, committed,
    ⟨_, hincomplete, -⟩, -⟩ := h
  rw [decodeIdentifier_eq_ok, hid] at hidentifier
  rw [← Except.ok.inj hidentifier, hnonce] at hincomplete
  exact hincomplete

theorem step_castCall (inFavour : Bool) (origin : Origin AccountId) (prop : Proposal L)
    (t : State L V AccountId World) :
    step cfg t (castCall inFavour origin prop) =
      commit t (castVote cfg inFavour origin prop t) := by
  cases inFavour <;> rfl

omit [DecidableEq AccountId] in
theorem recorded_votesOrNew (hpoll : Poll cfg key s)
    (hexpiry : voted = [] → horizon < wrappingAdd 32 t.blockNumber cfg.proposalLifetime)
    (h : Tally favour s.proposerThreshold s.proposers.length horizon voted
      (t.votes.lookup key))
    (hincomplete : ∀ votes, t.votes.lookup key = some votes → votes.isComplete = false) :
    Recorded favour horizon voted (votesOrNew cfg key t) ∧
      (s.proposers.length + 1 < 2 ^ 32 → (votesOrNew cfg key t).votesAgainst.length +
        s.proposerThreshold ≤ s.proposers.length) := by
  rw [votesOrNew, StorageMap.getD]
  cases hlookup : t.votes.lookup key with
  | none =>
      rw [hlookup] at h
      cases h with
      | fresh hnone =>
          subst hnone
          refine ⟨⟨rfl, rfl, rfl, hexpiry rfl⟩, fun _ => ?_⟩
          exact (Nat.zero_add _).le.trans hpoll.threshold_le
  | some votes =>
      have hopen := hincomplete votes hlookup
      rw [hlookup] at h
      cases h with
      | counting hrecorded hbelow hopen => exact ⟨hrecorded, hopen⟩
      | approved hstatus => simp [ProposalVotes.isComplete, hstatus] at hopen
      | rejected hstatus => simp [ProposalVotes.isComplete, hstatus] at hopen

theorem tally_vote (hpoll : Poll cfg key s) (hsame : SameRules s t)
    (hexpiry : voted = [] → horizon < wrappingAdd 32 t.blockNumber cfg.proposalLifetime)
    (hblock : t.blockNumber ≤ horizon) {who : AccountId} (hwho : who ∈ s.proposers.toList)
    (hnew : who ∉ voted) (hlength : (voted ++ [who]).length ≤ s.proposers.length)
    (h : Tally favour s.proposerThreshold s.proposers.length horizon voted
      (t.votes.lookup key)) :
    Tally favour s.proposerThreshold s.proposers.length horizon (voted ++ [who])
        ((step cfg t (castCall (favour who) (.signed who) key.2.2)).votes.lookup key) ∧
      SameRules s (step cfg t (castCall (favour who) (.signed who) key.2.2)) ∧
      (step cfg t (castCall (favour who) (.signed who) key.2.2)).blockNumber =
        t.blockNumber := by
  rw [step_castCall]
  by_cases hcomplete : ∃ votes, t.votes.lookup key = some votes ∧ votes.isComplete = true
  · obtain ⟨votes, hlookup, hcomplete⟩ := hcomplete
    have hrefused : commit t (castVote cfg (favour who) (.signed who) key.2.2 t) = t := by
      refine commit_cases (P := fun t' => t' = t) rfl ?_
      intro t' ht'
      have hopen := isComplete_of_castVote hpoll.keyed ht'
      rw [votesOrNew, StorageMap.getD, hlookup] at hopen
      exact absurd (hcomplete.symm.trans hopen) (by decide)
    rw [hlookup] at h
    rw [hrefused, hlookup]
    exact ⟨h.append_of_isComplete hcomplete who, hsame, rfl⟩
  · have hincomplete : ∀ votes, t.votes.lookup key = some votes → votes.isComplete = false :=
      fun votes hlookup => Bool.eq_false_iff.mpr fun hdone => hcomplete ⟨votes, hlookup, hdone⟩
    obtain ⟨hrecorded, hopen⟩ := recorded_votesOrNew hpoll hexpiry h hincomplete
    rw [List.length_append] at hlength
    obtain ⟨votes, hvote⟩ := hrecorded.exists_tryVote (hlength.trans hpoll.le_maxVotes) who
      (favour who)
    obtain ⟨world, hcast⟩ := castVote_open hpoll hsame hwho
      ⟨by simp [ProposalVotes.isComplete, hrecorded.status], by
        simpa [ProposalVotes.isExpired] using hblock.trans_lt hrecorded.expiry⟩
      (hasVoted_eq_false.mpr (hrecorded.notMem_voters hnew)) hvote
    obtain ⟨hvoted, hnext⟩ := hrecorded.tryVote hvote
    rw [hcast, commit, lookup_resolved, if_pos rfl, hsame.proposerThreshold,
      hsame.proposerCount, hpoll.proposerCount]
    refine ⟨?_, ⟨hsame.proposers, hsame.proposerThreshold, hsame.proposerCount,
      hsame.chainNonces, hsame.resources⟩, rfl⟩
    refine hvoted.tally_tryToComplete hpoll.threshold_le ?_ ?_ hnext hopen
    · exact s.proposers.length_le.trans_lt V.maxProposers_lt
    · rw [List.length_append]
      exact hlength

/-- The proposers vote in some order, and blocks pass before each vote. -/
def ballots (prop : Proposal L) (favour : AccountId → Bool) (schedule : List (ℕ × AccountId)) :
    List (Call L AccountId World) :=
  schedule.flatMap fun entry =>
    [.passBlocks entry.1, castCall (favour entry.2) (.signed entry.2) prop]

def blocksPassed (schedule : List (ℕ × AccountId)) : ℕ := (schedule.map Prod.fst).sum

/-- The last vote is cast before the votes expire, the lifetime of which starts with the first
vote. -/
def NoExpiry (cfg : Config L AccountId World) (start : ℕ) (schedule : List (ℕ × AccountId)) :
    Prop :=
  ∀ entry ∈ schedule.head?,
    start + blocksPassed schedule < wrappingAdd 32 (start + entry.1) cfg.proposalLifetime

theorem tally_run (hpoll : Poll cfg key s) (voted : List AccountId)
    (schedule : List (ℕ × AccountId)) (hsame : SameRules s t)
    (hexpiry : voted = [] → ∀ entry ∈ schedule.head?,
      horizon < wrappingAdd 32 (t.blockNumber + entry.1) cfg.proposalLifetime)
    (hblock : t.blockNumber + blocksPassed schedule ≤ horizon)
    (hproposers : ∀ who ∈ schedule.map Prod.snd, who ∈ s.proposers.toList)
    (hnodup : (voted ++ schedule.map Prod.snd).Nodup)
    (hlength : (voted ++ schedule.map Prod.snd).length ≤ s.proposers.length)
    (h : Tally favour s.proposerThreshold s.proposers.length horizon voted
      (t.votes.lookup key)) :
    Tally favour s.proposerThreshold s.proposers.length horizon (voted ++ schedule.map Prod.snd)
      ((run (step cfg) t (ballots key.2.2 favour schedule)).votes.lookup key) := by
  induction schedule generalizing t voted with
  | nil =>
      rw [List.map_nil, List.append_nil]
      exact h
  | cons entry schedule ih =>
      obtain ⟨count, who⟩ := entry
      have hsplit : voted ++ ((count, who) :: schedule).map Prod.snd =
          (voted ++ [who]) ++ schedule.map Prod.snd := by
        simp
      rw [hsplit] at hnodup hlength ⊢
      have hroom : (voted ++ [who]).length ≤ s.proposers.length := by
        rw [List.length_append] at hlength
        exact (Nat.le_add_right _ _).trans hlength
      have hnew : who ∉ voted := by
        intro hmem
        have hdisjoint := (List.nodup_append.mp (List.nodup_append.mp hnodup).1).2.2
        exact hdisjoint who hmem who (List.mem_singleton_self who) rfl
      have hlater : t.blockNumber + count + blocksPassed schedule ≤ horizon := by
        rw [blocksPassed, List.map_cons, List.sum_cons, ← Nat.add_assoc] at hblock
        exact hblock
      have hpassed : SameRules s (step cfg t (.passBlocks count)) :=
        ⟨hsame.proposers, hsame.proposerThreshold, hsame.proposerCount, hsame.chainNonces,
          hsame.resources⟩
      obtain ⟨hvote, hsame', hblock'⟩ := tally_vote hpoll hpassed
        (fun hfirst => hexpiry hfirst _ rfl) ((Nat.le_add_right _ _).trans hlater)
        (hproposers who List.mem_cons_self) hnew hroom h
      change Tally _ _ _ _ _ ((run (step cfg) (step cfg (step cfg t (.passBlocks count))
        (castCall (favour who) (.signed who) key.2.2)) _).votes.lookup key)
      refine ih _ hsame' ?_ ?_ (fun w hw => hproposers w (List.mem_cons_of_mem _ hw)) hnodup
        hlength hvote
      · intro hempty
        exact absurd hempty (List.append_ne_nil_of_right_ne_nil _ (List.cons_ne_nil _ _))
      · rw [hblock']
        exact hlater

theorem tally_of_prefix (hpoll : Poll cfg key s) (favour : AccountId → Bool)
    (before after : List (ℕ × AccountId))
    (hproposers : ((before ++ after).map Prod.snd).Perm s.proposers.toList)
    (hexpiry : NoExpiry cfg s.blockNumber (before ++ after)) :
    Tally favour s.proposerThreshold s.proposers.length
      (s.blockNumber + blocksPassed (before ++ after)) (before.map Prod.snd)
      ((run (step cfg) s (ballots key.2.2 favour before)).votes.lookup key) := by
  have hnodup := hproposers.nodup_iff.mpr hpoll.nodup
  have hlength := hproposers.length_eq
  rw [List.map_append] at hnodup hlength
  have hpassed : blocksPassed before ≤ blocksPassed (before ++ after) := by
    rw [blocksPassed, blocksPassed, List.map_append, List.sum_append]
    exact Nat.le_add_right _ _
  refine tally_run hpoll [] before ⟨rfl, rfl, rfl, rfl, rfl⟩ ?_ ?_ ?_ ?_ ?_ ?_
  · intro _ entry hentry
    refine hexpiry entry ?_
    rw [List.head?_append, Option.mem_def.mp hentry]
    rfl
  · exact Nat.add_le_add_left hpassed _
  · intro who hwho
    refine hproposers.mem_iff.mp ?_
    rw [List.map_append]
    exact List.mem_append_left _ hwho
  · exact (List.nodup_append.mp hnodup).1
  · rw [List.length_append] at hlength
    rw [List.nil_append]
    exact (Nat.le_add_right _ _).trans hlength.le
  · rw [hpoll.fresh]
    exact .fresh rfl

def statusAfter (cfg : Config L AccountId World) (key : VoteKey L) (favour : AccountId → Bool)
    (s : State L V AccountId World) (schedule : List (ℕ × AccountId)) : Option ProposalStatus :=
  ((run (step cfg) s (ballots key.2.2 favour schedule)).votes.lookup key).map (·.status)

theorem statusAfter_eq (hpoll : Poll cfg key s) (favour : AccountId → Bool)
    {schedule : List (ℕ × AccountId)}
    (hproposers : (schedule.map Prod.snd).Perm s.proposers.toList)
    (hexpiry : NoExpiry cfg s.blockNumber schedule) :
    statusAfter cfg key favour s schedule =
      some (if s.proposerThreshold ≤ s.proposers.toList.countP favour then .approved
        else if s.proposers.length + 1 < 2 ^ 32 then .rejected else .initiated) := by
  have htally := tally_of_prefix hpoll favour schedule []
    (by rwa [List.append_nil]) (by rwa [List.append_nil])
  have hfor := hproposers.countP_eq favour
  have hlength := hproposers.length_eq
  have hsplit := countP_add_countP_not favour (schedule.map Prod.snd)
  have htotal : s.proposers.length = s.proposers.toList.length := rfl
  have hone := hpoll.one_le
  have hle := hpoll.threshold_le
  rw [statusAfter]
  generalize (run (step cfg) s (ballots key.2.2 favour schedule)).votes.lookup key = stored
    at htally
  cases htally with
  | fresh hnone =>
      rw [hnone, List.length_nil] at hlength
      omega
  | counting hrecorded hbelow hopen =>
      rw [hrecorded.length_votesFor] at hbelow
      rw [hrecorded.length_votesAgainst] at hopen
      rw [if_neg (by omega), if_neg, Option.map_some, hrecorded.status]
      intro hfits
      have := hopen hfits
      omega
  | approved hstatus hreached => rw [if_pos (by omega), Option.map_some, hstatus]
  | rejected hstatus hfits hlost hhopeless =>
      rw [if_neg (by omega), if_pos hfits, Option.map_some, hstatus]

/-- The outcome of a vote of all proposers.  A rejected proposal has too few votes in favour,
even with those of all proposers that had not voted yet. -/
structure VoteOutcome (cfg : Config L AccountId World) (key : VoteKey L)
    (favour : AccountId → Bool) (s : State L V AccountId World)
    (schedule : List (ℕ × AccountId)) : Prop where
  final : statusAfter cfg key favour s schedule =
    some (if s.proposerThreshold ≤ s.proposers.toList.countP favour then .approved
      else .rejected)
  hopeless : ∀ before after votes, schedule = before ++ after →
    (run (step cfg) s (ballots key.2.2 favour before)).votes.lookup key = some votes →
    votes.status = .rejected →
    votes.votesFor.length + (s.proposers.length - (voters votes).length) < s.proposerThreshold

/-- The outcome is the same for every order of the votes, unless a rejection is due while the
proposers are as many as their type can count. -/
theorem voteOutcome_iff (cfg : Config L AccountId World) (key : VoteKey L)
    (favour : AccountId → Bool) (s : State L V AccountId World)
    (schedule : List (ℕ × AccountId)) (hpoll : Poll cfg key s)
    (hproposers : (schedule.map Prod.snd).Perm s.proposers.toList)
    (hexpiry : NoExpiry cfg s.blockNumber schedule) :
    VoteOutcome cfg key favour s schedule ↔
      s.proposers.length + 1 < 2 ^ 32 ∨
        s.proposerThreshold ≤ s.proposers.toList.countP favour := by
  have hstatus := statusAfter_eq hpoll favour hproposers hexpiry
  constructor
  · intro h
    have hfinal := hstatus.symm.trans h.final
    by_contra hneither
    obtain ⟨hfits, hreached⟩ := not_or.mp hneither
    rw [if_neg hreached, if_neg hreached, if_neg hfits] at hfinal
    cases hfinal
  · intro h
    refine ⟨?_, ?_⟩
    · rw [hstatus]
      split
      · rfl
      · rename_i hreached
        rw [if_pos (h.resolve_right hreached)]
    · rintro before after votes rfl hlookup hrejected
      have htally := tally_of_prefix hpoll favour before after hproposers hexpiry
      rw [hlookup] at htally
      cases htally with
      | counting hrecorded => exact absurd (hrecorded.status.symm.trans hrejected) (by decide)
      | approved hstatus => exact absurd (hstatus.symm.trans hrejected) (by decide)
      | rejected _ _ _ hhopeless => exact hhopeless

def sampleKey : VoteKey runtimeLimits := (.evm 1, 5, sampleTokenAdd 5)

def sampleResource : FixedBytes 32 := List.Vector.ofFn fun i => if i = 31 then 1 else 0

theorem keyOf_sampleKey : KeyOf sampleVoting sampleKey := ⟨.tokenAddProposal 5, rfl, rfl⟩

theorem decodeProposalHeader_sampleKey :
    decodeProposalHeader sampleKey.2.2.data = .ok sampleResource := rfl

def sampleThree : State runtimeLimits runtimeVotingLimits ℕ Unit :=
  run (step sampleVoting) (sampleVotes [1, 2, 3])
    [sampleSetChange [1, 2, 3], .setThreshold .root 2]

theorem poll_sampleThree : Poll sampleVoting sampleKey sampleThree where
  keyed := keyOf_sampleKey
  whitelisted := by decide +kernel
  resource := ⟨sampleResource, decodeProposalHeader_sampleKey, by decide +kernel⟩
  nodup := by decide +kernel
  le_maxVotes := by decide +kernel
  proposerCount := by decide +kernel
  one_le := by decide +kernel
  threshold_le := by decide +kernel
  fresh := by decide +kernel
  succeeds _ world := ⟨world, rfl⟩

theorem voteOutcome_sampleThree :
    VoteOutcome sampleVoting sampleKey (· == 1) sampleThree [(0, 3), (5, 1), (2, 2)] := by
  refine (voteOutcome_iff sampleVoting sampleKey (· == 1) sampleThree
    [(0, 3), (5, 1), (2, 2)] poll_sampleThree ?_ ?_).mpr (Or.inl (by decide +kernel))
  · decide +kernel
  · rintro entry ⟨⟩
    decide +kernel

def manyLimits (n : ℕ) (h : n < 2 ^ 32) : VotingLimits where
  maxVotes := n
  maxResources := 0
  maxProposers := n
  votingKeySize := 0
  maxProposers_lt := h

def sampleMany (n : ℕ) (h : n < 2 ^ 32) : State runtimeLimits (manyLimits n h) ℕ Unit :=
  { State.empty () with
    chainNonces := AList.insert (.evm 1) 0 ∅
    resources := AList.insert sampleResource default ∅
    proposerThreshold := n
    proposers := ⟨List.range n, List.length_range.le⟩
    proposerCount := n }

theorem length_sampleMany {n : ℕ} (h : n < 2 ^ 32) : (sampleMany n h).proposers.length = n :=
  List.length_range

theorem poll_sampleMany {n : ℕ} (h : n < 2 ^ 32) (hpos : 0 < n) :
    Poll sampleVoting sampleKey (sampleMany n h) where
  keyed := keyOf_sampleKey
  whitelisted := rfl
  resource := ⟨sampleResource, decodeProposalHeader_sampleKey, rfl⟩
  nodup := List.nodup_range
  le_maxVotes := (length_sampleMany h).le
  proposerCount := (length_sampleMany h).symm
  one_le := hpos
  threshold_le := (length_sampleMany h).ge
  fresh := rfl
  succeeds _ world := ⟨world, rfl⟩

def sampleSchedule (n : ℕ) : List (ℕ × ℕ) := (List.range n).map fun who => (0, who)

theorem perm_sampleSchedule {n : ℕ} (h : n < 2 ^ 32) :
    ((sampleSchedule n).map Prod.snd).Perm (sampleMany n h).proposers.toList := by
  rw [sampleSchedule, List.map_map]
  exact .of_eq (List.map_id _)

theorem noExpiry_sampleSchedule {n : ℕ} (h : n < 2 ^ 32) :
    NoExpiry sampleVoting (sampleMany n h).blockNumber (sampleSchedule n) := by
  intro entry hentry
  have hzero : ∀ entry ∈ sampleSchedule n, entry.1 = 0 := by
    intro entry hentry
    obtain ⟨who, -, rfl⟩ := List.mem_map.mp hentry
    rfl
  have hpassed : blocksPassed (sampleSchedule n) = 0 := by
    refine List.sum_eq_zero ?_
    intro count hcount
    obtain ⟨entry, hentry, rfl⟩ := List.mem_map.mp hcount
    exact hzero entry hentry
  rw [hpassed, hzero entry (List.mem_of_head? hentry)]
  change 0 < wrappingAdd 32 0 100
  decide

theorem countP_sampleMany {n : ℕ} (h : n < 2 ^ 32) (hpos : 0 < n) :
    ¬(sampleMany n h).proposerThreshold ≤ (sampleMany n h).proposers.toList.countP (· != 0) := by
  intro hreached
  have hall := List.countP_eq_length.mp
    (List.countP_le_length.antisymm (List.length_range.le.trans hreached))
  exact absurd (hall 0 (List.mem_range.mpr hpos)) (by decide)

theorem allProposers_lt : 4294967295 < 2 ^ 32 := by decide

theorem vote_stays_initiated :
    Poll sampleVoting sampleKey (sampleMany 4294967295 allProposers_lt) ∧
      ((sampleSchedule 4294967295).map Prod.snd).Perm
        (sampleMany 4294967295 allProposers_lt).proposers.toList ∧
      NoExpiry sampleVoting 0 (sampleSchedule 4294967295) ∧
      statusAfter sampleVoting sampleKey (· != 0) (sampleMany 4294967295 allProposers_lt)
        (sampleSchedule 4294967295) = some .initiated ∧
      ¬VoteOutcome sampleVoting sampleKey (· != 0) (sampleMany 4294967295 allProposers_lt)
        (sampleSchedule 4294967295) := by
  have hpoll := poll_sampleMany allProposers_lt (by decide)
  have hproposers := perm_sampleSchedule allProposers_lt
  have hexpiry := noExpiry_sampleSchedule allProposers_lt
  have hlost := countP_sampleMany allProposers_lt (by decide)
  have hstatus := statusAfter_eq hpoll (· != 0) hproposers hexpiry
  rw [if_neg hlost, if_neg] at hstatus
  refine ⟨hpoll, hproposers, hexpiry, hstatus, ?_⟩
  · intro h
    have hfinal := hstatus.symm.trans h.final
    rw [if_neg hlost] at hfinal
    cases hfinal
  · rw [length_sampleMany]
    decide

end DkgSubstrate.VoteOrder
