import DkgSubstrate.VotingSafety

/-!
The number of proposers and the threshold.  The genesis state, the administrator and the
changes of the proposers each maintain a part of what relates them.
-/

namespace DkgSubstrate.ProposerCounts

open DkgSubstrate.Dispatch
open DkgSubstrate.Primitives
open DkgSubstrate.ProposalVoting
open DkgSubstrate.Runs
open DkgSubstrate.VotingSafety

variable {L : Limits} {V : VotingLimits} {AccountId World : Type}

def CountsAgree (s : State L V AccountId World) : Prop :=
  s.proposerCount = s.proposers.length ∧
    1 ≤ s.proposerThreshold ∧ s.proposerThreshold ≤ s.proposers.length

instance (s : State L V AccountId World) : Decidable (CountsAgree s) :=
  inferInstanceAs (Decidable (_ ∧ _))

def IsSetChange : Call L AccountId World → Prop
  | .authoritySetChanged _ _ => True
  | _ => False

/-- A change of the proposers brings at least as many as the threshold asks for. -/
def ReachesThreshold (s : State L V AccountId World) : Call L AccountId World → Prop
  | .authoritySetChanged authorities _ => s.proposerThreshold ≤ authorities.length
  | _ => True

variable {cfg : Config L AccountId World}
variable {s t : State L V AccountId World} {call : Call L AccountId World}

theorem genesis_counts {genesis : GenesisConfig AccountId} {world : World}
    (h : genesis.build cfg world = .ok s) :
    s.proposerCount = 0 ∧ s.proposers.toList = genesis.initialProposers ∧
      s.proposerThreshold = 1 := by
  simp only [GenesisConfig.build, bind_eq_ok, expect_eq_ok, BoundedVec.tryFrom_eq_some] at h
  obtain ⟨resources, -, proposers, hproposers, h⟩ := h
  rw [← Except.ok.inj h]
  exact ⟨rfl, hproposers, rfl⟩

variable [DecidableEq AccountId]

def SetChanged (cfg : Config L AccountId World) (s : State L V AccountId World)
    (calls : List (Call L AccountId World)) : Prop :=
  ∃ pre call post, calls = pre ++ call :: post ∧ IsSetChange call ∧
    Accepted cfg (run (step cfg) s pre) call

theorem thresholdPos_step (h : 1 ≤ s.proposerThreshold) :
    1 ≤ (step cfg s call).proposerThreshold := by
  refine step_of_effect (P := fun t => 1 ≤ State.proposerThreshold t) h ?_
  intro t heffect
  cases heffect with
  | setThreshold hpos hle => exact hpos
  | _ => exact h

theorem counts_of_not_isSetChange (heffect : Effect cfg s call t)
    (hcall : ¬IsSetChange call) :
    t.proposerCount = s.proposerCount ∧ t.proposers = s.proposers := by
  cases heffect with
  | setChanged votingKeys hproposers => exact absurd trivial hcall
  | _ => exact ⟨rfl, rfl⟩

theorem countsAgree_step (h : CountsAgree s)
    (hreaches : Accepted cfg s call → ReachesThreshold s call) :
    CountsAgree (step cfg s call) := by
  rcases step_effect cfg s call with ⟨-, hsame⟩ | ⟨haccepted, heffect⟩
  · rw [hsame]
    exact h
  · have hreaches := hreaches haccepted
    generalize step cfg s call = t at heffect ⊢
    cases heffect with
    | setThreshold hpos hle => exact ⟨h.1, hpos, hle⟩
    | setChanged votingKeys hproposers =>
        refine ⟨rfl, h.2.1, ?_⟩
        rw [ReachesThreshold, ← hproposers] at hreaches
        exact hreaches
    | _ => exact h

theorem countsAgree_setChange_iff (hpos : 1 ≤ s.proposerThreshold) (hcall : IsSetChange call)
    (haccepted : Accepted cfg s call) :
    CountsAgree (step cfg s call) ↔ ReachesThreshold s call := by
  rcases step_effect cfg s call with ⟨hrejected, -⟩ | ⟨-, heffect⟩
  · exact absurd haccepted hrejected
  · generalize step cfg s call = t at heffect ⊢
    cases heffect with
    | setChanged votingKeys hproposers =>
        rw [ReachesThreshold, ← hproposers]
        constructor
        · intro h
          exact h.2.2
        · intro h
          exact ⟨rfl, hpos, h⟩
    | voted inFavour world hproposer hkey hopen hnew hvotes =>
        cases inFavour <;> cases hcall
    | _ => cases hcall

theorem not_countsAgree_of_not_setChanged {genesis : GenesisConfig AccountId} {world : World}
    (hproposers : genesis.initialProposers ≠ []) (hgenesis : genesis.build cfg world = .ok s)
    {calls : List (Call L AccountId World)} (h : ¬SetChanged cfg s calls) :
    ¬CountsAgree (run (step cfg) s calls) := by
  obtain ⟨hcount, hinitial, -⟩ := genesis_counts hgenesis
  have hnone : StepsMeet (step cfg) (fun t call => ¬(IsSetChange call ∧ Accepted cfg t call))
      s calls :=
    fun pre call post hsplit hchange => h ⟨pre, call, post, hsplit, hchange⟩
  have hkept := invariant_run
    (fun t : State L V AccountId World => t.proposerCount = 0 ∧ t.proposers = s.proposers)
    ?_ ⟨hcount, rfl⟩ hnone
  · rintro ⟨hagree, -⟩
    rw [hkept.1, hkept.2, BoundedVec.length_of_toList_eq hinitial] at hagree
    exact hproposers (List.eq_nil_of_length_eq_zero hagree.symm)
  · rintro t call ⟨hcount, hsame⟩ hnochange
    rcases step_effect cfg t call with ⟨-, hstep⟩ | ⟨haccepted, heffect⟩
    · rw [hstep]
      exact ⟨hcount, hsame⟩
    · obtain ⟨hcount', hsame'⟩ :=
        counts_of_not_isSetChange heffect fun hchange => hnochange ⟨hchange, haccepted⟩
      exact ⟨hcount'.trans hcount, hsame'.trans hsame⟩

/-- In no state before the first change of the proposers do the counts agree, and in all
states after it they do exactly if every change brings enough proposers. -/
theorem countsAgree_run_iff (cfg : Config L AccountId World)
    (genesis : GenesisConfig AccountId) (world : World) (s : State L V AccountId World)
    (calls : List (Call L AccountId World)) (hproposers : genesis.initialProposers ≠ [])
    (hgenesis : genesis.build cfg world = .ok s) :
    (∀ pre post, calls = pre ++ post → ¬SetChanged cfg s pre →
      ¬CountsAgree (run (step cfg) s pre)) ∧
    ((∀ pre post, calls = pre ++ post → SetChanged cfg s pre →
        CountsAgree (run (step cfg) s pre)) ↔
      StepsMeet (step cfg) (fun t call => Accepted cfg t call → ReachesThreshold t call)
        s calls) := by
  have hpos : ∀ pre : List (Call L AccountId World),
      1 ≤ (run (step cfg) s pre).proposerThreshold := by
    intro pre
    refine invariant_run (fun t : State L V AccountId World => 1 ≤ t.proposerThreshold)
      (fun _ _ h _ => thresholdPos_step h) ?_ (stepsMeet_true (step cfg) s pre)
    exact (genesis_counts hgenesis).2.2.ge
  refine ⟨fun pre _ _ => not_countsAgree_of_not_setChanged hproposers hgenesis, ?_, ?_⟩
  · intro h pre call post hsplit haccepted
    by_cases hcall : IsSetChange call
    · have hagree := h (pre ++ [call]) post (by rw [hsplit, List.append_assoc]; rfl)
        ⟨pre, call, [], rfl, hcall, haccepted⟩
      rw [run_append] at hagree
      exact (countsAgree_setChange_iff (hpos pre) hcall haccepted).mp hagree
    · cases call with
      | authoritySetChanged authorities ids => exact absurd trivial hcall
      | _ => trivial
  · rintro h pre post rfl ⟨before, call, after, rfl, hcall, haccepted⟩
    rw [List.append_assoc] at h
    have hreaches := h before call (after ++ post) rfl haccepted
    rw [run_append, run_cons]
    refine invariant_run CountsAgree (fun _ _ => countsAgree_step) ?_ ?_
    · exact (countsAgree_setChange_iff (hpos before) hcall haccepted).mpr hreaches
    · intro between next rest hsplit
      have hnext := h (before ++ call :: between) next (rest ++ post) (by simp [hsplit])
      rwa [run_append] at hnext

def sampleCountedRun : List (Call runtimeLimits ℕ Unit) :=
  [sampleSetChange [1, 2, 3], .setThreshold .root 3, sampleSetChange [4, 5, 6]]

theorem countsAgree_sampleCountedRun :
    ¬CountsAgree (sampleVotes [1, 2, 3]) ∧
      CountsAgree (run (step sampleVoting) (sampleVotes [1, 2, 3]) sampleCountedRun) := by
  obtain ⟨hbefore, hafter⟩ := countsAgree_run_iff sampleVoting (sampleVotingGenesis [1, 2, 3]) ()
    (sampleVotes [1, 2, 3]) sampleCountedRun (by decide) rfl
  refine ⟨hbefore [] sampleCountedRun rfl ?_, hafter.mpr ?_ sampleCountedRun [] (by simp) ?_⟩
  · rintro ⟨pre, call, post, hsplit, -⟩
    simp at hsplit
  · refine stepsMeet_cons.mpr ⟨fun _ => ?_, stepsMeet_cons.mpr ⟨fun _ => trivial,
      stepsMeet_cons.mpr ⟨fun _ => ?_, stepsMeet_nil⟩⟩⟩
    · change State.proposerThreshold _ ≤ 3
      decide +kernel
    · change State.proposerThreshold _ ≤ 3
      decide +kernel
  · refine ⟨[], _, _, rfl, trivial, ?_⟩
    change Except.isOk _ = true
    decide +kernel

theorem countsAgree_fails_for_smaller_set :
    ¬CountsAgree (sampleVotes [1, 2, 3]) ∧
      ¬CountsAgree (run (step sampleVoting) (sampleVotes [1, 2, 3])
        [sampleSetChange [1, 2, 3], .setThreshold .root 3, sampleSetChange [1, 2]]) := by
  decide +kernel

end DkgSubstrate.ProposerCounts
