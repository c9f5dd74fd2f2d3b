import DkgSubstrate.MetadataStep
import DkgSubstrate.SampleRuntime

/-!
The current, next and pending pairs of thresholds along the runs without misbehaviour
reports.
-/

namespace DkgSubstrate.Thresholds

open DkgSubstrate.Dispatch
open DkgSubstrate.Metadata
open DkgSubstrate.MetadataEffects
open DkgSubstrate.MetadataRotation
open DkgSubstrate.MetadataStep
open DkgSubstrate.Primitives
open DkgSubstrate.Runs
open DkgSubstrate.SampleRuntime
open DkgSubstrate.Words

variable {L : Limits} {AccountId World : Type}

def ValidPair (t n : ℕ) : Prop := 1 ≤ t ∧ t < n

def ThresholdsValid (s : State L AccountId World) : Prop :=
  ValidPair s.signatureThreshold s.keygenThreshold ∧
  ValidPair s.nextSignatureThreshold s.nextKeygenThreshold ∧
  ValidPair s.pendingSignatureThreshold s.pendingKeygenThreshold ∧
  s.nextKeygenThreshold ≤ s.nextAuthorities.length

def PendingFits (s : State L AccountId World) : Prop :=
  s.pendingKeygenThreshold < 2 ^ 16

/-- There are no misbehaviour reports and at least two validators are queued. -/
def NoReports (_ : State L AccountId World) : Call L AccountId World → Prop
  | .submitMisbehaviourReports _ _ => False
  | .newSession _ queued => 2 ≤ queued.length
  | _ => True

/-- A signature threshold that the setter accepts is below the pending keygen
threshold. -/
def SetsBelowPendingKeygen (cfg : Config L AccountId World)
    (s : State L AccountId World) : Call L AccountId World → Prop
  | .setSignatureThreshold origin t =>
      cfg.forceOrigin origin = true → 0 < t.toNat →
        t.toNat < s.nextAuthorities.length → t.toNat < s.pendingKeygenThreshold
  | _ => True

instance (t n : ℕ) : Decidable (ValidPair t n) := inferInstanceAs (Decidable (_ ∧ _))

instance (s : State L AccountId World) : Decidable (ThresholdsValid s) :=
  inferInstanceAs (Decidable (_ ∧ _))

theorem thresholdsValid_withPending {proposal : Proposals.RefreshProposal}
    {s : State L AccountId World} :
    ThresholdsValid (withPending proposal s) ↔ ThresholdsValid s := Iff.rfl

theorem validPair_repair {count t n : ℕ} (hcount : 2 ≤ count) (hn : n < 2 ^ 16)
    (h : ValidPair t n) :
    ValidPair (repairSignatureThreshold count t) (repairKeygenThreshold count n) := by
  obtain ⟨hpos, hlt⟩ := h
  rw [repairKeygenThreshold_fits hn]
  rw [repairSignatureThreshold]
  split
  · rename_i hle
    rw [truncate_of_lt (by omega), wrappingSub_of_le (by omega) (by omega)]
    exact ⟨by omega, by omega⟩
  · exact ⟨hpos, by omega⟩

theorem two_le_nextAuthorities {s : State L AccountId World} (h : ThresholdsValid s) :
    2 ≤ s.nextAuthorities.length := by
  obtain ⟨-, ⟨hpos, hlt⟩, -, hle⟩ := h
  omega

theorem thresholdsValid_shiftNext {s : State L AccountId World} {world : World}
    {next : BoundedVec Public L.maxAuthorities}
    {accounts : BoundedVec AccountId L.maxAuthorities}
    {best : BoundedVec (ℕ × Public) L.maxAuthorities}
    (hcount : 2 ≤ next.length) (hfits : PendingFits s) (h : ThresholdsValid s) :
    ThresholdsValid (shiftNext world next accounts best s) := by
  have hpair := validPair_repair hcount hfits h.2.2.1
  refine ⟨h.1, hpair, hpair, ?_⟩
  change repairKeygenThreshold next.length s.pendingKeygenThreshold ≤ next.length
  rw [repairKeygenThreshold_fits hfits]
  exact Nat.min_le_left _ _

theorem thresholdsValid_activate {s shifted : State L AccountId World}
    {authorities : BoundedVec Public L.maxAuthorities}
    {accounts : BoundedVec AccountId L.maxAuthorities} {key : ℕ × Key L}
    {signature : Signature L} (h : ThresholdsValid s) (hshifted : ThresholdsValid shifted) :
    ThresholdsValid (activate authorities accounts key signature s shifted) :=
  ⟨h.2.1, hshifted.2⟩

section Steps

variable {cfg : Config L AccountId World}
variable {s : State L AccountId World} {call : Call L AccountId World}

theorem setsBelowPendingKeygen_of_idle (h : idle call = true) :
    SetsBelowPendingKeygen cfg s call := by
  cases call <;> trivial

variable [DecidableEq AccountId]

theorem setsBelowPendingKeygen_of_rejected (h : ¬Accepted cfg s call) :
    SetsBelowPendingKeygen cfg s call := by
  cases call with
  | setSignatureThreshold origin t =>
      intro hforce hpos hlt
      refine absurd ?_ h
      simp [Accepted, dispatch, MetadataCalls.setSignatureThreshold, ensure, hforce, hpos,
        hlt, bind, Except.bind, Except.isOk, Except.toBool]
  | _ => trivial

theorem forall_accepted_setsBelowPendingKeygen :
    (Accepted cfg s call → SetsBelowPendingKeygen cfg s call) ↔
      SetsBelowPendingKeygen cfg s call := by
  constructor
  · intro h
    by_cases haccepted : Accepted cfg s call
    · exact h haccepted
    · exact setsBelowPendingKeygen_of_rejected haccepted
  · intro h _
    exact h

theorem pendingFits_step (hfits : PendingFits s) (hlegal : NoReports s call) :
    PendingFits (step cfg s call) := by
  refine keeps_step_of_effect (Q := PendingFits) (fun _ => Iff.rfl) hfits ?_
  intro t heffect
  cases heffect with
  | setKeygenThreshold hforce hone hle => exact UInt16.toNat_lt _
  | forcedShift world hforce hkey hbest => exact repairKeygenThreshold_lt hfits
  | forcedRotation world hforce hkey hbest hpub hnonce =>
      exact repairKeygenThreshold_lt hfits
  | sessionShift world hkeys hnext hbest => exact repairKeygenThreshold_lt hfits
  | sessionRotation world hkey hsig hnext hbest hactive =>
      exact repairKeygenThreshold_lt hfits
  | keygenDropped htype hmem hnone hbest htwo => exact absurd hlegal id
  | _ => exact hfits

theorem thresholdsValid_step_iff (hfits : PendingFits s) (h : ThresholdsValid s)
    (hlegal : NoReports s call) :
    ThresholdsValid (step cfg s call) ↔ SetsBelowPendingKeygen cfg s call := by
  have hforced : 2 ≤ s.nextAuthorities.length := two_le_nextAuthorities h
  rw [← forall_accepted_setsBelowPendingKeygen]
  refine step_iff_of_effect (Q := ThresholdsValid) (fun _ => Iff.rfl) h ?_
  intro t heffect
  cases heffect with
  | idle hidle => exact iff_of_true h (setsBelowPendingKeygen_of_idle hidle)
  | @setSignatureThreshold origin t hforce hpos hlt =>
      obtain ⟨hcurrent, hnext, hpending, hle⟩ := h
      constructor
      · rintro ⟨-, -, ⟨-, hbelow⟩, -⟩ - - -
        exact hbelow
      · intro hbelow
        exact ⟨hcurrent, hnext, ⟨hpos, hbelow hforce hpos hlt⟩, hle⟩
  | @setKeygenThreshold origin t hforce hone hle =>
      obtain ⟨hcurrent, hnext, ⟨hpos, hlt⟩, hnextLe⟩ := h
      refine iff_of_true ⟨hcurrent, hnext, ?_, hnextLe⟩ trivial
      change ValidPair (if t.toNat ≤ s.pendingSignatureThreshold then t.toNat - 1
        else s.pendingSignatureThreshold) t.toNat
      split
      · exact ⟨by omega, by omega⟩
      · exact ⟨hpos, by omega⟩
  | keygenReplaced htype hmem hcandidate hbest => exact absurd hlegal id
  | keygenDropped htype hmem hnone hbest htwo => exact absurd hlegal id
  | keygenOutside htype hmem hbest => exact absurd hlegal id
  | signReport htype => exact absurd hlegal id
  | forcedShift world hforce hkey hbest =>
      exact iff_of_true (thresholdsValid_shiftNext hforced hfits h) trivial
  | forcedRotation world hforce hkey hbest hpub hnonce =>
      have hcleared : ThresholdsValid (withoutRefresh s) := h
      rw [thresholdsValid_withPending]
      exact iff_of_true (thresholdsValid_activate hcleared
        (thresholdsValid_shiftNext hforced hfits hcleared)) trivial
  | @sessionShift validators queued nextAuthorities nextAccounts best world hkeys hnext
      hbest =>
      have hcount : 2 ≤ nextAuthorities.length := by
        rw [BoundedVec.length_of_toList_eq hnext, List.length_map]
        exact hlegal
      exact iff_of_true (thresholdsValid_shiftNext hcount hfits h) trivial
  | @sessionRotation validators queued nextAuthorities nextAccounts best world authorities
      accounts key signature hkey hsig hnext hbest hactive =>
      have hcount : 2 ≤ nextAuthorities.length := by
        rw [BoundedVec.length_of_toList_eq hnext, List.length_map]
        exact hlegal
      exact iff_of_true (thresholdsValid_activate h
        (thresholdsValid_shiftNext hcount hfits h)) trivial
  | _ => exact iff_of_true h trivial

end Steps

/-- Along a run from a valid genesis, all three pairs stay valid exactly if every
signature threshold that was set is below the pending keygen threshold. -/
theorem thresholdsValid_run_iff [DecidableEq AccountId] (cfg : Config L AccountId World)
    (genesis : GenesisConfig AccountId) (validators : List (AccountId × Public))
    (world : World) (s : State L AccountId World) (calls : List (Call L AccountId World))
    (hgenesis : genesisState cfg genesis validators world = .ok s)
    (hpos : 1 ≤ genesis.signatureThreshold.toNat)
    (hcount : genesis.keygenThreshold.toNat ≤ validators.length)
    (hlegal : StepsMeet (step cfg) NoReports s calls) :
    Always (step cfg) ThresholdsValid s calls ↔
      StepsMeet (step cfg) (SetsBelowPendingKeygen cfg) s calls := by
  obtain ⟨hlt, hone⟩ := genesisState_thresholds hgenesis
  have hne : validators ≠ [] := by
    rintro rfl
    simp at hcount
    omega
  obtain ⟨world', authorities, accounts, best, hauthorities, -, -, -, rfl⟩ :=
    genesisState_ok hne hgenesis
  refine always_iff_stepsMeet PendingFits ?_ ?_ ?_ ?_ hlegal
  · intro s call hfits _ hcall _
    exact pendingFits_step hfits hcall
  · intro s call hfits h hcall
    exact thresholdsValid_step_iff hfits h hcall
  · exact UInt16.toNat_lt _
  · refine ⟨⟨hpos, hlt⟩, ⟨hpos, hlt⟩, ⟨hpos, hlt⟩, ?_⟩
    change genesis.keygenThreshold.toNat ≤ authorities.length
    rwa [BoundedVec.length_of_toList_eq hauthorities, List.length_map]

def sampleThresholdRun : List (Call runtimeLimits ℕ Unit) :=
  [.setSignatureThreshold .root 4]

theorem thresholdsValid_run_three_of_five :
    genesisState sampleConfig (sampleGenesisConfig 3 1 5) (sampleValidators 5) () =
        .ok (sampleGenesis 3 1 5) ∧
      StepsMeet (step sampleConfig) NoReports (sampleGenesis 3 1 5)
        [.setSignatureThreshold .root 2] ∧
      (Always (step sampleConfig) ThresholdsValid (sampleGenesis 3 1 5)
          [.setSignatureThreshold .root 2] ↔
        StepsMeet (step sampleConfig) (SetsBelowPendingKeygen sampleConfig)
          (sampleGenesis 3 1 5) [.setSignatureThreshold .root 2]) := by
  have hgenesis : genesisState sampleConfig (sampleGenesisConfig 3 1 5)
      (sampleValidators 5) () = .ok (sampleGenesis 3 1 5) := rfl
  have hlegal : StepsMeet (step sampleConfig) NoReports (sampleGenesis 3 1 5)
      [.setSignatureThreshold .root 2] :=
    stepsMeet_cons.mpr ⟨trivial, stepsMeet_nil⟩
  exact ⟨hgenesis, hlegal, thresholdsValid_run_iff sampleConfig (sampleGenesisConfig 3 1 5)
    (sampleValidators 5) () (sampleGenesis 3 1 5) _ hgenesis (by decide) (by decide) hlegal⟩

theorem thresholdsValid_fails_above_keygen :
    genesisState sampleConfig (sampleGenesisConfig 3 1 5) (sampleValidators 5) () =
        .ok (sampleGenesis 3 1 5) ∧
      StepsMeet (step sampleConfig) NoReports (sampleGenesis 3 1 5) sampleThresholdRun ∧
      ¬ThresholdsValid (run (step sampleConfig) (sampleGenesis 3 1 5)
        sampleThresholdRun) := by
  refine ⟨rfl, stepsMeet_cons.mpr ⟨trivial, stepsMeet_nil⟩, ?_⟩
  decide

end DkgSubstrate.Thresholds
