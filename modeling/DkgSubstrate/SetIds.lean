import DkgSubstrate.MetadataStep
import DkgSubstrate.SampleRuntime

/-!
The ids of the active and of the next authority set, in the pallet and as the gadget
sees them.
-/

namespace DkgSubstrate.SetIds

open DkgSubstrate.Metadata
open DkgSubstrate.MetadataEffects
open DkgSubstrate.MetadataRotation
open DkgSubstrate.MetadataStep
open DkgSubstrate.Primitives
open DkgSubstrate.Runs
open DkgSubstrate.SampleRuntime
open DkgSubstrate.Words

variable {L : Limits} {AccountId World : Type}

def IdsCoherent (s : State L AccountId World) : Prop :=
  (∀ id key, s.nextDkgPublicKey = some (id, key) → id = s.nextAuthoritySetId) ∧
  (s.nextPublicKeySignature.isSome = true → s.nextDkgPublicKey.isSome = true) ∧
  (∀ id key, s.dkgPublicKey = some (id, key) → id = s.authoritySetId) ∧
  s.authoritySetId < s.nextAuthoritySetId

/-- A new session starts only when the session manager ends the old one. -/
def EndsSessions (cfg : Config L AccountId World) (s : State L AccountId World) :
    Call L AccountId World → Prop
  | .newSession _ _ => shouldEndSession cfg s.blockNumber s = true
  | _ => True

def CoherentUnlessSaturated (s : State L AccountId World) : Prop :=
  s.nextAuthoritySetId = 2 ^ 64 - 1 ∨ IdsCoherent s

theorem coherentUnlessSaturated_withPending {proposal : Proposals.RefreshProposal}
    {s : State L AccountId World} :
    CoherentUnlessSaturated (withPending proposal s) ↔ CoherentUnlessSaturated s :=
  Iff.rfl

theorem saturated_or_lt (id : ℕ) :
    saturatingAdd 64 id 1 = 2 ^ 64 - 1 ∨ id < saturatingAdd 64 id 1 := by
  rw [saturatingAdd]
  omega

theorem coherentUnlessSaturated_shiftNext {s : State L AccountId World} {world : World}
    {next : BoundedVec Public L.maxAuthorities}
    {accounts : BoundedVec AccountId L.maxAuthorities}
    {best : BoundedVec (ℕ × Public) L.maxAuthorities}
    (hkey : s.nextDkgPublicKey = none) (h : CoherentUnlessSaturated s) :
    CoherentUnlessSaturated (shiftNext world next accounts best s) := by
  rw [CoherentUnlessSaturated]
  change saturatingAdd 64 s.nextAuthoritySetId 1 = 2 ^ 64 - 1 ∨ _
  rcases h with hsaturated | ⟨-, hsig, hactive, hlt⟩
  · left
    rw [hsaturated]
    rfl
  · refine (saturated_or_lt s.nextAuthoritySetId).imp_right fun hnext => ?_
    refine ⟨?_, hsig, hactive, Nat.lt_trans hlt hnext⟩
    intro id key hsome
    rw [show (shiftNext world next accounts best s).nextDkgPublicKey =
      s.nextDkgPublicKey from rfl, hkey] at hsome
    cases hsome

theorem coherentUnlessSaturated_activate {s : State L AccountId World} {world : World}
    {next authorities : BoundedVec Public L.maxAuthorities}
    {accounts nextAccounts : BoundedVec AccountId L.maxAuthorities}
    {best : BoundedVec (ℕ × Public) L.maxAuthorities} {key : ℕ × Key L}
    {signature : Signature L} (hkey : s.nextDkgPublicKey = some key)
    (h : CoherentUnlessSaturated s) :
    CoherentUnlessSaturated (activate authorities accounts key signature s
      (shiftNext world next nextAccounts best s)) := by
  rw [CoherentUnlessSaturated]
  change saturatingAdd 64 s.nextAuthoritySetId 1 = 2 ^ 64 - 1 ∨ _
  rcases h with hsaturated | ⟨hnext, -, -, -⟩
  · left
    rw [hsaturated]
    rfl
  · refine (saturated_or_lt s.nextAuthoritySetId).imp_right fun hlt => ⟨?_, ?_, ?_, hlt⟩
    · intro id key' hsome
      cases hsome
    · intro hsome
      cases hsome
    · intro id key' hsome
      obtain rfl := Option.some.inj hsome
      exact hnext _ _ hkey

theorem keys_of_shouldEndSession {cfg : Config L AccountId World}
    {s : State L AccountId World} (h : shouldEndSession cfg s.blockNumber s = true) :
    (rotationKeys false s).isSome = true := by
  simp only [shouldEndSession, Bool.and_eq_true] at h
  obtain ⟨⟨⟨hkey, hsig⟩, -⟩, -⟩ := h
  obtain ⟨key, hkey⟩ := Option.isSome_iff_exists.mp hkey
  obtain ⟨signature, hsig⟩ := Option.isSome_iff_exists.mp hsig
  simp [rotationKeys, hkey, hsig]

theorem coherentUnlessSaturated_step [DecidableEq AccountId]
    {cfg : Config L AccountId World} {s : State L AccountId World}
    {call : Call L AccountId World} (h : CoherentUnlessSaturated s)
    (hlegal : EndsSessions cfg s call) : CoherentUnlessSaturated (step cfg s call) := by
  refine keeps_step_of_effect (Q := CoherentUnlessSaturated) (fun _ => Iff.rfl) h ?_
  intro t heffect
  cases heffect with
  | submitPublicKey hnone =>
      rcases h with hsaturated | ⟨hnext, hsig, -, hlt⟩
      · exact .inl hsaturated
      · refine .inr ⟨hnext, hsig, ?_, hlt⟩
        intro id key hsome
        exact (congrArg Prod.fst (Option.some.inj hsome)).symm
  | submitNextPublicKey hnone =>
      rcases h with hsaturated | ⟨-, -, hactive, hlt⟩
      · exact .inl hsaturated
      · refine .inr ⟨?_, fun _ => rfl, hactive, hlt⟩
        intro id key hsome
        exact (congrArg Prod.fst (Option.some.inj hsome)).symm
  | forcedShift world hforce hkey hbest =>
      exact coherentUnlessSaturated_shiftNext hkey h
  | forcedRotation world hforce hkey hbest hpub hnonce =>
      rw [coherentUnlessSaturated_withPending]
      exact coherentUnlessSaturated_activate hkey h
  | triggerEmergencyKeygen hforce =>
      rcases h with hsaturated | ⟨-, -, hactive, hlt⟩
      · exact .inl hsaturated
      · refine .inr ⟨?_, ?_, hactive, hlt⟩
        · intro id key hsome
          cases hsome
        · intro hsome
          cases hsome
  | signedRefresh hsigned hkind hkey hnone hpending hdata hsignature hunused =>
      rcases h with hsaturated | ⟨hnext, -, hactive, hlt⟩
      · exact .inl hsaturated
      · exact .inr ⟨hnext, fun _ => hkey, hactive, hlt⟩
  | sessionShift world hkeys hnext hbest =>
      have hsome := keys_of_shouldEndSession hlegal
      rw [hkeys] at hsome
      cases hsome
  | sessionRotation world hkey hsig hnext hbest hactive =>
      exact coherentUnlessSaturated_activate hkey h
  | _ => exact h

/-- In every state of a run from genesis in which the id of the next set has not
saturated, the ids are coherent. -/
theorem idsCoherent_run [DecidableEq AccountId] (cfg : Config L AccountId World)
    (genesis : GenesisConfig AccountId) (validators : List (AccountId × Public))
    (world : World) (s : State L AccountId World) (calls : List (Call L AccountId World))
    (hvalidators : validators ≠ [])
    (hgenesis : genesisState cfg genesis validators world = .ok s)
    (hlegal : StepsMeet (step cfg) (EndsSessions cfg) s calls) :
    Always (step cfg)
      (fun t => t.nextAuthoritySetId < 2 ^ 64 - 1 → IdsCoherent t) s calls := by
  have hinit : CoherentUnlessSaturated s := by
    obtain ⟨world', authorities, accounts, best, -, -, -, -, rfl⟩ :=
      genesisState_ok hvalidators hgenesis
    refine .inr ⟨?_, ?_, ?_, Nat.zero_lt_one⟩
    · intro id key hsome
      cases hsome
    · intro hsome
      cases hsome
    · intro id key hsome
      cases hsome
  have halways := always_of_invariant CoherentUnlessSaturated
    (fun t call h hcall => coherentUnlessSaturated_step h hcall) hinit hlegal
  intro pre post hsplit hbelow
  rcases halways pre post hsplit with hsaturated | hcoherent
  · exact absurd hsaturated (Nat.ne_of_lt hbelow)
  · exact hcoherent

def sampleRotationRun : List (Call runtimeLimits ℕ Unit) :=
  [.submitNextPublicKey .none (sampleSubmission 9 1), .initializeBlock 1,
    .signedProposal (sampleSigned (sampleRefresh 9 1 2) 7),
    .newSession (sampleValidators 2) (sampleValidators 2)]

theorem endsSessions_sampleRotationRun :
    StepsMeet (step sampleConfig) (EndsSessions sampleConfig) (sampleGenesis 2 1 2)
      sampleRotationRun := by
  refine stepsMeet_cons.mpr ⟨trivial, stepsMeet_cons.mpr ⟨trivial, stepsMeet_cons.mpr
    ⟨trivial, stepsMeet_cons.mpr ⟨?_, stepsMeet_nil⟩⟩⟩⟩
  change shouldEndSession _ _ _ = true
  decide +kernel

theorem idsCoherent_sampleRotationRun :
    (run (step sampleConfig) (sampleGenesis 2 1 2) sampleRotationRun).authoritySetId = 1 ∧
      IdsCoherent (run (step sampleConfig) (sampleGenesis 2 1 2) sampleRotationRun) := by
  refine ⟨by decide +kernel, ?_⟩
  refine idsCoherent_run sampleConfig (sampleGenesisConfig 2 1 2) (sampleValidators 2) ()
    (sampleGenesis 2 1 2) sampleRotationRun (by decide) rfl
    endsSessions_sampleRotationRun sampleRotationRun [] (by simp) ?_
  decide +kernel

def queuedAuthoritySet (s : State L AccountId World) : AuthoritySet L :=
  ⟨s.nextAuthorities, wrappingAdd 64 s.authoritySetId 1⟩

inductive KeygenRound where
  | genesis
  | next

def keygenAuthoritySet (stage : KeygenRound) (s : State L AccountId World) :
    AuthoritySet L :=
  match stage with
  | .genesis => s.authoritySet
  | .next => queuedAuthoritySet s

def NextSessionAgrees (s : State L AccountId World) : Prop :=
  (keygenAuthoritySet .next s).id = s.nextAuthoritySet.id

instance (s : State L AccountId World) : Decidable (NextSessionAgrees s) :=
  inferInstanceAs (Decidable (_ = _))

def IdFits (s : State L AccountId World) : Prop :=
  s.nextAuthoritySetId ≤ 2 ^ 64 - 1

/-- A change of the authorities finds a next key to rotate in, unless the id has
saturated. -/
def RotatesNextKey (s : State L AccountId World) : Call L AccountId World → Prop
  | .forceChangeAuthorities _ =>
      (rotationKeys true s).isSome = true ↔ s.nextAuthoritySetId ≠ 2 ^ 64 - 1
  | .newSession _ _ =>
      (rotationKeys false s).isSome = true ↔ s.nextAuthoritySetId ≠ 2 ^ 64 - 1
  | _ => True

theorem nextSessionAgrees_withPending {proposal : Proposals.RefreshProposal}
    {s : State L AccountId World} :
    NextSessionAgrees (withPending proposal s) ↔ NextSessionAgrees s :=
  Iff.rfl

section Rotation

variable {s : State L AccountId World} {world : World}
variable {next authorities : BoundedVec Public L.maxAuthorities}
variable {accounts nextAccounts : BoundedVec AccountId L.maxAuthorities}
variable {best : BoundedVec (ℕ × Public) L.maxAuthorities}

theorem nextSessionAgrees_shiftNext (hfits : IdFits s) (h : NextSessionAgrees s) :
    NextSessionAgrees (shiftNext world next accounts best s) ↔
      s.nextAuthoritySetId = 2 ^ 64 - 1 := by
  change wrappingAdd 64 s.authoritySetId 1 = s.nextAuthoritySetId at h
  change wrappingAdd 64 s.authoritySetId 1 = saturatingAdd 64 s.nextAuthoritySetId 1 ↔ _
  rw [IdFits] at hfits
  rw [h]
  rw [saturatingAdd]
  omega

theorem nextSessionAgrees_activate {key : ℕ × Key L} {signature : Signature L}
    (hfits : IdFits s) :
    NextSessionAgrees (activate authorities accounts key signature s
        (shiftNext world next nextAccounts best s)) ↔
      s.nextAuthoritySetId ≠ 2 ^ 64 - 1 := by
  change wrappingAdd 64 s.nextAuthoritySetId 1 =
    saturatingAdd 64 s.nextAuthoritySetId 1 ↔ _
  rw [IdFits] at hfits
  rw [wrappingAdd, saturatingAdd]
  omega

end Rotation

section Steps

variable [DecidableEq AccountId] {cfg : Config L AccountId World}
variable {s : State L AccountId World} {call : Call L AccountId World}

theorem idFits_step (hfits : IdFits s) : IdFits (step cfg s call) := by
  refine keeps_step_of_effect (Q := IdFits) (fun _ => Iff.rfl) hfits ?_
  intro t heffect
  cases heffect with
  | forcedShift world hforce hkey hbest => exact saturatingAdd_le 64 _ 1
  | forcedRotation world hforce hkey hbest hpub hnonce => exact saturatingAdd_le 64 _ 1
  | sessionShift world hkeys hnext hbest => exact saturatingAdd_le 64 _ 1
  | sessionRotation world hkey hsig hnext hbest hactive => exact saturatingAdd_le 64 _ 1
  | _ => exact hfits

theorem nextSessionAgrees_step_iff (hfits : IdFits s) (h : NextSessionAgrees s) :
    NextSessionAgrees (step cfg s call) ↔
      (Accepted cfg s call → RotatesNextKey s call) := by
  refine step_iff_of_effect (Q := NextSessionAgrees) (fun _ => Iff.rfl) h ?_
  intro t heffect
  cases heffect with
  | forcedShift world hforce hkey hbest =>
      have hnone : rotationKeys true s = none := by simp [rotationKeys, hkey]
      refine (nextSessionAgrees_shiftNext (s := withoutRefresh s) hfits h).trans ?_
      simp [RotatesNextKey, hnone, withoutRefresh]
  | forcedRotation world hforce hkey hbest hpub hnonce =>
      have hsome : (rotationKeys true s).isSome = true := by simp [rotationKeys, hkey]
      rw [nextSessionAgrees_withPending]
      refine (nextSessionAgrees_activate (s := withoutRefresh s) hfits).trans ?_
      simp [RotatesNextKey, hsome, withoutRefresh]
  | sessionShift world hkeys hnext hbest =>
      rw [nextSessionAgrees_shiftNext hfits h]
      simp [RotatesNextKey, hkeys]
  | sessionRotation world hkey hsig hnext hbest hactive =>
      have hsome : (rotationKeys false s).isSome = true := by
        simp [rotationKeys, hkey, hsig]
      rw [nextSessionAgrees_activate hfits]
      simp [RotatesNextKey, hsome]
  | idle hidle =>
      refine iff_of_true h ?_
      cases call with
      | forceChangeAuthorities origin => cases hidle
      | newSession validators queued => cases hidle
      | _ => trivial
  | _ => exact iff_of_true h trivial

end Steps

/-- The gadget and the pallet agree on the id of the next session in every state of a
run exactly if every change of the authorities that is executed in it rotates the next
key in. -/
theorem nextSessionAgrees_run_iff [DecidableEq AccountId] (cfg : Config L AccountId World)
    (genesis : GenesisConfig AccountId) (validators : List (AccountId × Public))
    (world : World) (s : State L AccountId World) (calls : List (Call L AccountId World))
    (hvalidators : validators ≠ [])
    (hgenesis : genesisState cfg genesis validators world = .ok s) :
    Always (step cfg) NextSessionAgrees s calls ↔
      StepsMeet (step cfg) (fun t call => Accepted cfg t call → RotatesNextKey t call)
        s calls := by
  obtain ⟨world', authorities, accounts, best, -, -, -, -, rfl⟩ :=
    genesisState_ok hvalidators hgenesis
  refine always_iff_stepsMeet IdFits ?_ ?_ ?_ rfl (stepsMeet_true _ _ calls)
  · intro s call hfits _ _ _
    exact idFits_step hfits
  · intro s call hfits h _
    exact nextSessionAgrees_step_iff hfits h
  · exact (by decide : 1 ≤ 2 ^ 64 - 1)

theorem nextSessionAgrees_sampleRotationRun :
    NextSessionAgrees
      (run (step sampleConfig) (sampleGenesis 2 1 2) sampleRotationRun) := by
  have hrun := nextSessionAgrees_run_iff sampleConfig (sampleGenesisConfig 2 1 2)
    (sampleValidators 2) () (sampleGenesis 2 1 2) sampleRotationRun (by decide) rfl
  refine hrun.mpr ?_ sampleRotationRun [] (by simp)
  refine stepsMeet_cons.mpr ⟨fun _ => trivial, stepsMeet_cons.mpr ⟨fun _ => trivial,
    stepsMeet_cons.mpr ⟨fun _ => trivial, stepsMeet_cons.mpr ⟨fun _ => ?_,
      stepsMeet_nil⟩⟩⟩⟩
  change _ ↔ _
  decide +kernel

theorem nextSessionAgrees_fails_without_key :
    ¬NextSessionAgrees
      (run (step sampleConfig) (sampleGenesis 2 1 2) [.forceChangeAuthorities .root]) := by
  decide +kernel

end DkgSubstrate.SetIds
