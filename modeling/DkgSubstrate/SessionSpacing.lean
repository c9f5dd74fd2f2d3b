import DkgSubstrate.MetadataJails
import DkgSubstrate.RefreshSignature

/-!
How far apart the sessions are that the periodic session manager ends.  The remainder of the
period is compared with zero by `≥`, so the period is not looked at.
-/

namespace DkgSubstrate.SessionSpacing

open DkgSubstrate.Dispatch
open DkgSubstrate.Metadata
open DkgSubstrate.MetadataEffects
open DkgSubstrate.MetadataJails
open DkgSubstrate.MetadataRotation
open DkgSubstrate.MetadataStep
open DkgSubstrate.Primitives
open DkgSubstrate.RefreshSignature
open DkgSubstrate.Runs
open DkgSubstrate.SampleRuntime

variable {L : Limits} {AccountId World : Type}

/-- A block starts with the hooks, or a call is executed in the current one. -/
inductive ChainEvent (L : Limits) (AccountId World : Type) where
  | block (n : ℕ) (validators queuedValidators : List (AccountId × Public))
  | call (call : Call L AccountId World)

variable [DecidableEq AccountId] (cfg : Config L AccountId World)

/-- The hook of the metadata pallet comes before the one of the session pallet, which starts
a new session when the old one is to end. -/
def startBlock (n : ℕ) (validators queuedValidators : List (AccountId × Public))
    (s : State L AccountId World) : Outcome (State L AccountId World) := do
  let s ← dispatch cfg s (.initializeBlock n)
  if shouldEndSession cfg n s then dispatch cfg s (.newSession validators queuedValidators)
  else .ok s

def chainStep (s : State L AccountId World) :
    ChainEvent L AccountId World → State L AccountId World
  | .block n validators queuedValidators =>
      commit s (startBlock cfg n validators queuedValidators s)
  | .call call => step cfg s call

def rotationBlock (s : State L AccountId World) : ChainEvent L AccountId World → Option ℕ
  | .block n validators queuedValidators =>
      if shouldEndSession cfg n s && (startBlock cfg n validators queuedValidators s).isOk then
        some n
      else none
  | .call _ => none

def rotationHistory : State L AccountId World → List (ChainEvent L AccountId World) → List ℕ :=
  trace (chainStep cfg) fun s event => (rotationBlock cfg s event).toList

/-- Block numbers increase, and new blocks and sessions start in no other way. -/
def OnChain (s : State L AccountId World) : ChainEvent L AccountId World → Prop
  | .block n _ _ => s.blockNumber < n
  | .call (.initializeBlock _) => False
  | .call (.newSession _ _) => False
  | .call _ => True

/-- After a rotation no signature of a next key is accepted in so early a block that the next
one is still within the period. -/
def SignsLate (s : State L AccountId World) : ChainEvent L AccountId World → Prop
  | .call (.signedProposal p) => AcceptsRefresh s p → s.lastSessionRotationBlock ≠ 0 →
      s.lastSessionRotationBlock + cfg.sessionPeriod ≤ s.blockNumber + 1
  | _ => True

instance (s : State L AccountId World) (event : ChainEvent L AccountId World) :
    Decidable (OnChain s event) := by
  unfold OnChain
  split <;> infer_instance

instance (s : State L AccountId World) (event : ChainEvent L AccountId World) :
    Decidable (SignsLate cfg s event) := by
  unfold SignsLate AcceptsRefresh
  split <;> infer_instance

structure Spaced (s : State L AccountId World) : Prop where
  past : s.lastSessionRotationBlock ≤ s.blockNumber
  late : s.nextPublicKeySignature.isSome = true → s.lastSessionRotationBlock ≠ 0 →
    s.lastSessionRotationBlock + cfg.sessionPeriod ≤ s.blockNumber + 1

section Step

variable {cfg} {s s' : State L AccountId World}

theorem nextPublicKeySignature_dispatch {call : Call L AccountId World}
    (h : dispatch cfg s call = .ok s') (hsome : s'.nextPublicKeySignature.isSome = true) :
    s.nextPublicKeySignature.isSome = true ∨
      ∃ p, call = .signedProposal p ∧ AcceptsRefresh s p := by
  by_cases hcall : ∃ p, call = .signedProposal p
  · obtain ⟨p, rfl⟩ := hcall
    rcases onSignedProposal_ok_cases h with rfl | haccepts
    · exact .inl hsome
    · exact .inr ⟨p, rfl, haccepts⟩
  · obtain ⟨t, heffect, hcore⟩ := dispatch_effect h
    change (core s').nextPublicKeySignature.isSome = true at hsome
    rw [hcore] at hsome
    cases heffect with
    | signedOther hkind => exact absurd ⟨_, rfl⟩ hcall
    | signedRefresh hsigned hkind hkey hnone hpending hdata hsignature hunused =>
        exact absurd ⟨_, rfl⟩ hcall
    | forcedRotation world hforce hkey hbest hpub hnonce => cases hsome
    | triggerEmergencyKeygen hforce => cases hsome
    | sessionRotation world hkey hsig hnext hbest hactive => cases hsome
    | _ => exact .inl hsome

theorem initializeBlock_keys {n : ℕ} (h : dispatch cfg s (.initializeBlock n) = .ok s') :
    s'.nextDkgPublicKey = s.nextDkgPublicKey ∧
      s'.nextPublicKeySignature = s.nextPublicKeySignature := by
  obtain ⟨t, heffect, hcore⟩ := dispatch_effect h
  change (core s').nextDkgPublicKey = _ ∧ (core s').nextPublicKeySignature = _
  rw [hcore]
  cases heffect with
  | idle hidle => cases hidle
  | blockStarted => exact ⟨rfl, rfl⟩
  | refreshCreated hkey hsig hpub hnonce => exact ⟨rfl, rfl⟩

omit [DecidableEq AccountId] in
theorem shouldEndSession_iff {now : ℕ} :
    shouldEndSession cfg now s = true ↔ s.nextDkgPublicKey.isSome = true ∧
      s.nextPublicKeySignature.isSome = true ∧ cfg.sessionOffset ≤ now := by
  simp [shouldEndSession, and_assoc]

theorem newSession_signature {validators queued : List (AccountId × Public)} {now : ℕ}
    (hends : shouldEndSession cfg now s = true)
    (h : dispatch cfg s (.newSession validators queued) = .ok s') :
    s'.nextPublicKeySignature = none := by
  obtain ⟨hkey, hsig, -⟩ := shouldEndSession_iff.mp hends
  obtain ⟨t, heffect, hcore⟩ := dispatch_effect h
  change (core s').nextPublicKeySignature = none
  rw [hcore]
  cases heffect with
  | idle hidle => cases hidle
  | sessionShift world hkeys hnext hbest =>
      obtain ⟨key, hkey⟩ := Option.isSome_iff_exists.mp hkey
      obtain ⟨signature, hsig⟩ := Option.isSome_iff_exists.mp hsig
      simp [rotationKeys, hkey, hsig] at hkeys
  | sessionRotation world hkey hsig hnext hbest hactive => rfl

theorem outer_initializeBlock {n : ℕ} (h : dispatch cfg s (.initializeBlock n) = .ok s') :
    outer s' = { outer s with blockNumber := n } := by
  have heffect := dispatch_outer h
  generalize outer s' = o at heffect ⊢
  cases heffect with
  | kept hquiet => cases hquiet
  | keySubmitted hsubmits => cases hsubmits
  | blockStarted => rfl

theorem newSession_lastSessionRotationBlock {validators queued : List (AccountId × Public)}
    (h : dispatch cfg s (.newSession validators queued) = .ok s') :
    s'.lastSessionRotationBlock = s.blockNumber ∧ s'.blockNumber = s.blockNumber := by
  have heffect := dispatch_outer h
  change (outer s').lastSessionRotationBlock = _ ∧ (outer s').blockNumber = _
  generalize outer s' = o at heffect ⊢
  cases heffect with
  | kept hquiet => cases hquiet
  | keySubmitted hsubmits => cases hsubmits
  | sessionStarted => exact ⟨rfl, rfl⟩

theorem startBlock_ok {n : ℕ} {validators queued : List (AccountId × Public)}
    (h : startBlock cfg n validators queued s = .ok s') :
    s'.blockNumber = n ∧
      (shouldEndSession cfg n s = true ∧ s'.nextPublicKeySignature = none ∧
          s'.lastSessionRotationBlock = n ∨
        shouldEndSession cfg n s = false ∧
          s'.nextPublicKeySignature = s.nextPublicKeySignature ∧
          s'.lastSessionRotationBlock = s.lastSessionRotationBlock) := by
  simp only [startBlock, bind_eq_ok] at h
  obtain ⟨started, hstarted, h⟩ := h
  obtain ⟨hkey, hsig⟩ := initializeBlock_keys hstarted
  have houter := outer_initializeBlock hstarted
  have hblock : started.blockNumber = n := congrArg Outer.blockNumber houter
  have hlast : started.lastSessionRotationBlock = s.lastSessionRotationBlock :=
    congrArg Outer.lastSessionRotationBlock houter
  have hends : shouldEndSession cfg n started = shouldEndSession cfg n s := by
    rw [shouldEndSession, shouldEndSession, hkey, hsig]
  rw [hends] at h
  split at h
  · rename_i hsession
    obtain ⟨hrotated, hkept⟩ := newSession_lastSessionRotationBlock h
    have hnone := newSession_signature (hends.trans hsession) h
    exact ⟨hkept.trans hblock, .inl ⟨hsession, hnone, hrotated.trans hblock⟩⟩
  · rename_i hsession
    rw [← Except.ok.inj h]
    exact ⟨hblock, .inr ⟨Bool.not_eq_true _ ▸ hsession, hsig, hlast⟩⟩

theorem mem_rotationBlock {event : ChainEvent L AccountId World} {n : ℕ}
    (h : n ∈ rotationBlock cfg s event) :
    ∃ validators queued, event = .block n validators queued ∧
      shouldEndSession cfg n s = true ∧
      startBlock cfg n validators queued s = .ok (chainStep cfg s event) := by
  cases event with
  | call call => cases h
  | block m validators queued =>
      simp only [rotationBlock] at h
      split at h
      · rename_i hok
        obtain rfl : m = n := Option.some.inj h
        simp only [Bool.and_eq_true] at hok
        refine ⟨validators, queued, rfl, hok.1, ?_⟩
        rw [chainStep]
        cases hstart : startBlock cfg m validators queued s with
        | ok s' => rfl
        | error fault =>
            rw [hstart] at hok
            cases hok.2
      · cases h

theorem outer_call {call : Call L AccountId World} (hchain : OnChain s (.call call))
    (h : dispatch cfg s call = .ok s') :
    s'.blockNumber = s.blockNumber ∧
      s'.lastSessionRotationBlock = s.lastSessionRotationBlock := by
  have heffect := dispatch_outer h
  change (outer s').blockNumber = _ ∧ (outer s').lastSessionRotationBlock = _
  generalize outer s' = o at heffect ⊢
  cases heffect with
  | blockStarted => exact hchain.elim
  | sessionStarted => exact hchain.elim
  | _ => exact ⟨rfl, rfl⟩

theorem spaced_chainStep {event : ChainEvent L AccountId World} (hspaced : Spaced cfg s)
    (hchain : OnChain s event) (hlate : SignsLate cfg s event) :
    Spaced cfg (chainStep cfg s event) := by
  have hpast := hspaced.past
  cases event with
  | block n validators queued =>
      refine commit_cases (P := Spaced cfg) hspaced ?_
      intro s' h
      have hlt : s.blockNumber < n := hchain
      obtain ⟨hblock, ⟨-, hnone, hlast⟩ | ⟨-, hsig, hlast⟩⟩ := startBlock_ok h
      · refine ⟨by omega, ?_⟩
        intro hsome
        rw [hnone] at hsome
        cases hsome
      · refine ⟨by omega, ?_⟩
        intro hsome hrotated
        rw [hsig] at hsome
        rw [hlast] at hrotated ⊢
        have hbefore := hspaced.late hsome hrotated
        omega
  | call call =>
      refine commit_cases (P := Spaced cfg) hspaced ?_
      intro s' h
      obtain ⟨hblock, hlast⟩ := outer_call hchain h
      refine ⟨by omega, ?_⟩
      intro hsome hrotated
      rw [hlast] at hrotated
      rw [hblock, hlast]
      rcases nextPublicKeySignature_dispatch h hsome with hbefore | ⟨p, rfl, haccepts⟩
      · exact hspaced.late hbefore hrotated
      · exact hlate haccepts hrotated

theorem lastSessionRotationBlock_le {event : ChainEvent L AccountId World}
    (hchain : OnChain s event) (hpast : s.lastSessionRotationBlock ≤ s.blockNumber) :
    s.lastSessionRotationBlock ≤ (chainStep cfg s event).lastSessionRotationBlock := by
  cases event with
  | block n validators queued =>
      refine commit_cases (P := fun t => s.lastSessionRotationBlock ≤
        State.lastSessionRotationBlock t) le_rfl ?_
      intro s' h
      have hlt : s.blockNumber < n := hchain
      obtain ⟨-, ⟨-, -, hlast⟩ | ⟨-, -, hlast⟩⟩ := startBlock_ok h <;> omega
  | call call =>
      refine commit_cases (P := fun t => s.lastSessionRotationBlock ≤
        State.lastSessionRotationBlock t) le_rfl ?_
      intro s' h
      exact (outer_call hchain h).2.ge

end Step

omit [DecidableEq AccountId] in
theorem genesisState_unsigned {genesis : GenesisConfig AccountId}
    {validators : List (AccountId × Public)} {world : World} {s : State L AccountId World}
    (h : genesisState cfg genesis validators world = .ok s) :
    s.nextPublicKeySignature = none ∧ s.lastSessionRotationBlock = 0 := by
  by_cases hvalidators : validators = []
  · subst hvalidators
    rw [genesisState_nil_ok h]
    exact ⟨rfl, rfl⟩
  · obtain ⟨world', authorities, accounts, best, -, -, -, -, rfl⟩ := genesisState_ok hvalidators h
    exact ⟨rfl, rfl⟩

/-- The rotations of a chain are a period apart when no signature of a next key is accepted
too early. -/
theorem rotations_apart (genesis : GenesisConfig AccountId)
    (validators : List (AccountId × Public)) (world : World) (s : State L AccountId World)
    (events : List (ChainEvent L AccountId World))
    (hgenesis : genesisState cfg genesis validators world = .ok s)
    (hchain : StepsMeet (chainStep cfg) OnChain s events)
    (hlate : StepsMeet (chainStep cfg) (SignsLate cfg) s events) :
    (rotationHistory cfg s events).Pairwise fun earlier later =>
      earlier + cfg.sessionPeriod ≤ later := by
  obtain ⟨hnone, hzero⟩ := genesisState_unsigned cfg hgenesis
  have hinit : Spaced cfg s := by
    refine ⟨hzero ▸ Nat.zero_le _, ?_⟩
    intro hsome
    rw [hnone] at hsome
    cases hsome
  have hspaced : StepsMeet (chainStep cfg) (fun t event => Spaced cfg t ∧ OnChain t event) s
      events :=
    stepsMeet_of_invariant (Spaced cfg)
      (fun t event hinv hevent => spaced_chainStep hinv hevent.1 hevent.2)
      (fun t event hinv hevent => ⟨hinv, hevent.1⟩) hinit (hchain.and hlate)
  -- The state remembers the last rotation, and by it all earlier ones.
  refine (pairwise_trace (rotationBlock cfg)
    (fun earlier later => earlier + cfg.sessionPeriod ≤ later)
    (fun t block => 0 < block ∧ block ≤ t.lastSessionRotationBlock) ?_ ?_ ?_ hspaced).1
  · rintro t event ⟨hinv, hevent⟩ later hlater earlier ⟨hpos, hle⟩
    obtain ⟨active, queued, rfl, hends, -⟩ := mem_rotationBlock hlater
    obtain ⟨-, hsome, -⟩ := shouldEndSession_iff.mp hends
    have hlt : t.blockNumber < later := hevent
    have hperiod := hinv.late hsome (by omega)
    omega
  · rintro t event ⟨hinv, hevent⟩ block ⟨hpos, hle⟩
    exact ⟨hpos, hle.trans (lastSessionRotationBlock_le hevent hinv.past)⟩
  · rintro t event ⟨-, hevent⟩ block hblock
    obtain ⟨active, queued, rfl, hends, hstart⟩ := mem_rotationBlock hblock
    have hlt : t.blockNumber < block := hevent
    obtain ⟨-, ⟨-, -, hlast⟩ | ⟨hnot, -⟩⟩ := startBlock_ok hstart
    · exact ⟨by omega, hlast.ge⟩
    · rw [hends] at hnot
      cases hnot

def sampleSessions (signed : ℕ) : List (ChainEvent runtimeLimits ℕ Unit) :=
  [.block 1 (sampleValidators 2) (sampleValidators 2),
    .call (.submitPublicKey .none (sampleSubmission 7 2)),
    .call (.submitNextPublicKey .none (sampleSubmission 9 2)),
    .block 2 (sampleValidators 2) (sampleValidators 2),
    .call (.signedProposal (sampleSigned (sampleRefresh 9 1 2) 7)),
    .block 3 (sampleValidators 2) (sampleValidators 2),
    .call (.submitNextPublicKey .none (sampleSubmission 11 2)),
    .block signed (sampleValidators 2) (sampleValidators 2),
    .call (.signedProposal (sampleSigned (sampleRefresh 11 2 2) 9)),
    .block (signed + 1) (sampleValidators 2) (sampleValidators 2)]

theorem sampleSessions_apart :
    rotationHistory sampleConfig (sampleGenesis 2 1 2) (sampleSessions 12) = [3, 13] ∧
      (rotationHistory sampleConfig (sampleGenesis 2 1 2) (sampleSessions 12)).Pairwise
        fun earlier later => earlier + sampleConfig.sessionPeriod ≤ later := by
  refine ⟨by decide +kernel, ?_⟩
  exact rotations_apart sampleConfig (sampleGenesisConfig 2 1 2) (sampleValidators 2) ()
    (sampleGenesis 2 1 2) (sampleSessions 12) rfl (by decide +kernel) (by decide +kernel)

theorem sampleSessions_within_period :
    sampleConfig.sessionPeriod = 10 ∧
      StepsMeet (chainStep sampleConfig) OnChain (sampleGenesis 2 1 2) (sampleSessions 4) ∧
      rotationHistory sampleConfig (sampleGenesis 2 1 2) (sampleSessions 4) = [3, 5] := by
  decide +kernel

end DkgSubstrate.SessionSpacing
