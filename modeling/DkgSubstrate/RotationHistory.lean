import DkgSubstrate.SetIds
import Mathlib.Data.List.Chain

/-!
The history of the rotations: a chain of rounds to which every rotation appends one.
-/

namespace DkgSubstrate.RotationHistory

open DkgSubstrate.Metadata
open DkgSubstrate.MetadataEffects
open DkgSubstrate.MetadataRotation
open DkgSubstrate.MetadataStep
open DkgSubstrate.Primitives
open DkgSubstrate.Runs
open DkgSubstrate.SampleRuntime
open DkgSubstrate.SetIds
open DkgSubstrate.Words

variable {L : Limits} {AccountId World World' : Type}

def rounds (s : State L AccountId World) : List (ℕ × RoundMetadata L) :=
  s.historicalRounds.iter fun id => id

def BelowSaturation (s : State L AccountId World) : Prop :=
  s.nextAuthoritySetId + 1 < 2 ^ 64 ∧ s.refreshNonce + 1 < 2 ^ 32

def rotationOf (s : State L AccountId World) :
    Call L AccountId World → Option ((ℕ × Key L) × Signature L)
  | .forceChangeAuthorities _ => rotationKeys true s
  | .newSession _ _ => rotationKeys false s
  | _ => none

def Rotates [DecidableEq AccountId] (cfg : Config L AccountId World)
    (s : State L AccountId World) (call : Call L AccountId World) : Prop :=
  Accepted cfg s call ∧ (rotationOf s call).isSome = true

def RoundAppended (s : State L AccountId World) (s' : State L AccountId World') : Prop :=
  ∃ round : ℕ × RoundMetadata L,
    rounds s' = rounds s ++ [round] ∧
    (∀ earlier ∈ rounds s, earlier.1 < round.1) ∧
    round.2.currRoundPubKey = s.currentKey.2 ∧
    (∀ last ∈ (rounds s).getLast?, round.2.currRoundPubKey = last.2.nextRoundPubKey) ∧
    s'.dkgPublicKey = some (round.1, round.2.nextRoundPubKey) ∧
    s'.refreshNonce = s.refreshNonce + 1

def RoundsKept (s : State L AccountId World) (s' : State L AccountId World') : Prop :=
  rounds s' = rounds s ∧ s'.refreshNonce = s.refreshNonce

/-- A round follows on another with a larger id and from the key that the other led to. -/
def Follows (earlier later : ℕ × RoundMetadata L) : Prop :=
  earlier.1 < later.1 ∧ earlier.2.nextRoundPubKey = later.2.currRoundPubKey

/-- The rounds are a chain that leads to the active key, and the ids that can still be
used are larger than theirs. -/
structure HistoryChain (s : State L AccountId World) : Prop where
  chain : (rounds s).IsChain Follows
  last : ∀ last ∈ (rounds s).getLast?, s.dkgPublicKey = some (last.1, last.2.nextRoundPubKey)
  below : ∀ round ∈ rounds s, round.1 < s.nextAuthoritySetId
  next : ∀ key, s.nextDkgPublicKey = some key →
    key.1 ≤ s.nextAuthoritySetId ∧ ∀ round ∈ rounds s, round.1 < key.1

theorem HistoryChain.congr {s : State L AccountId World} {t : State L AccountId World'}
    (h : HistoryChain s) (hrounds : t.historicalRounds = s.historicalRounds)
    (hkey : t.dkgPublicKey = s.dkgPublicKey) (hnextKey : t.nextDkgPublicKey = s.nextDkgPublicKey)
    (hid : t.nextAuthoritySetId = s.nextAuthoritySetId) : HistoryChain t := by
  have heq : rounds t = rounds s := congrArg (StorageMap.iter fun id => id) hrounds
  refine ⟨?_, ?_, ?_, ?_⟩
  · rw [heq]
    exact h.chain
  · rw [heq, hkey]
    exact h.last
  · rw [heq, hid]
    exact h.below
  · rw [heq, hnextKey, hid]
    exact h.next

section Rotation

variable {s : State L AccountId World} {world : World}
variable {next authorities : BoundedVec Public L.maxAuthorities}
variable {accounts nextAccounts : BoundedVec AccountId L.maxAuthorities}
variable {best : BoundedVec (ℕ × Public) L.maxAuthorities}

theorem historyChain_withPending {proposal : Proposals.RefreshProposal}
    (h : HistoryChain s) : HistoryChain (withPending proposal s) :=
  h.congr rfl rfl rfl rfl

theorem roundAppended_withPending {proposal : Proposals.RefreshProposal}
    {t : State L AccountId World} :
    RoundAppended s (withPending proposal t) ↔ RoundAppended s t :=
  Iff.rfl

theorem historyChain_shiftNext (hbelow : BelowSaturation s) (h : HistoryChain s) :
    HistoryChain (shiftNext world next accounts best s) := by
  have hnext : (shiftNext world next accounts best s).nextAuthoritySetId =
      s.nextAuthoritySetId + 1 := saturatingAdd_of_lt hbelow.1
  refine ⟨h.chain, h.last, ?_, ?_⟩
  · intro round hround
    rw [hnext]
    exact Nat.lt_succ_of_lt (h.below round hround)
  · intro key hkey
    obtain ⟨hle, hlt⟩ := h.next key hkey
    rw [hnext]
    exact ⟨Nat.le_succ_of_le hle, hlt⟩

theorem rounds_activate {key : ℕ × Key L} {signature : Signature L}
    (h : ∀ round ∈ rounds s, round.1 < key.1) :
    rounds (activate authorities accounts key signature s
        (shiftNext world next nextAccounts best s)) =
      rounds s ++ [(key.1, ⟨s.currentKey.2, key.2, signature⟩)] := by
  refine StorageMap.iter_insert_of_lt _ ?_
  intro id hid
  obtain ⟨round, hround⟩ := Option.ne_none_iff_exists'.mp hid
  exact h (id, round) (StorageMap.mem_iter.mpr hround)

theorem HistoryChain.currentKey_of_last (h : HistoryChain s) :
    ∀ last ∈ (rounds s).getLast?, s.currentKey.2 = last.2.nextRoundPubKey := by
  intro last hlast
  rw [State.currentKey, h.last last hlast]
  rfl

theorem roundAppended_activate {key : ℕ × Key L} {signature : Signature L}
    (hbelow : BelowSaturation s) (h : HistoryChain s) (hkey : s.nextDkgPublicKey = some key) :
    RoundAppended s (activate authorities accounts key signature s
      (shiftNext world next nextAccounts best s)) := by
  have hlt := (h.next key hkey).2
  exact ⟨_, rounds_activate hlt, hlt, rfl, h.currentKey_of_last, rfl,
    saturatingAdd_of_lt hbelow.2⟩

theorem historyChain_activate {key : ℕ × Key L} {signature : Signature L}
    (hbelow : BelowSaturation s) (h : HistoryChain s) (hkey : s.nextDkgPublicKey = some key) :
    HistoryChain (activate authorities accounts key signature s
      (shiftNext world next nextAccounts best s)) := by
  obtain ⟨hle, hlt⟩ := h.next key hkey
  have hrounds : rounds (activate authorities accounts key signature s
      (shiftNext world next nextAccounts best s)) =
      rounds s ++ [(key.1, ⟨s.currentKey.2, key.2, signature⟩)] := rounds_activate hlt
  refine ⟨?_, ?_, ?_, ?_⟩
  · rw [hrounds]
    refine List.isChain_append.mpr ⟨h.chain, List.isChain_singleton _, ?_⟩
    intro last hlast round hround
    obtain rfl := Option.some.inj hround
    exact ⟨hlt last (List.mem_of_mem_getLast? hlast), (h.currentKey_of_last last hlast).symm⟩
  · rw [hrounds, List.getLast?_concat]
    intro last hlast
    obtain rfl := Option.some.inj hlast
    rfl
  · rw [hrounds]
    intro round hround
    change round.1 < saturatingAdd 64 s.nextAuthoritySetId 1
    rw [saturatingAdd_of_lt hbelow.1]
    rcases List.mem_append.mp hround with hold | hnew
    · exact Nat.lt_succ_of_lt (h.below round hold)
    · rw [List.mem_singleton.mp hnew]
      exact Nat.lt_succ_of_le hle
  · intro key' hkey'
    cases hkey'

end Rotation

section Steps

variable [DecidableEq AccountId] {cfg : Config L AccountId World}
variable {s t : State L AccountId World} {call : Call L AccountId World}

def HistoryStep (cfg : Config L AccountId World) (s : State L AccountId World)
    (call : Call L AccountId World) (s' : State L AccountId World') : Prop :=
  (Rotates cfg s call → RoundAppended s s') ∧ (¬Rotates cfg s call → RoundsKept s s')

theorem historyStep_of_kept {t : State L AccountId World'}
    (hnone : rotationOf s call = none) (h : RoundsKept s t) : HistoryStep cfg s call t := by
  refine ⟨?_, fun _ => h⟩
  rintro ⟨-, hsome⟩
  rw [hnone] at hsome
  cases hsome

theorem historyStep_of_appended {t : State L AccountId World'}
    (haccepted : Accepted cfg s call) (hsome : (rotationOf s call).isSome = true)
    (h : RoundAppended s t) : HistoryStep cfg s call t :=
  ⟨fun _ => h, fun hrotates => absurd ⟨haccepted, hsome⟩ hrotates⟩

theorem historyStep_effect (haccepted : Accepted cfg s call) (hbelow : BelowSaturation s)
    (h : HistoryChain s) (heffect : Effect cfg s call t) :
    HistoryChain t ∧ HistoryStep cfg s call t := by
  have hcleared : HistoryChain (withoutRefresh s) := h.congr rfl rfl rfl rfl
  cases heffect with
  | idle hidle =>
      refine ⟨h, historyStep_of_kept ?_ ⟨rfl, rfl⟩⟩
      cases call with
      | forceChangeAuthorities origin => cases hidle
      | newSession validators queued => cases hidle
      | _ => rfl
  | submitPublicKey hnone =>
      refine ⟨⟨h.chain, ?_, h.below, h.next⟩, historyStep_of_kept rfl ⟨rfl, rfl⟩⟩
      -- The key is only submitted before the first rotation.
      intro last hlast
      rw [h.last last hlast] at hnone
      cases hnone
  | submitNextPublicKey hnone =>
      refine ⟨⟨h.chain, h.last, h.below, ?_⟩, historyStep_of_kept rfl ⟨rfl, rfl⟩⟩
      intro key hkey
      obtain rfl := Option.some.inj hkey
      exact ⟨le_rfl, h.below⟩
  | forcedShift world hforce hkey hbest =>
      have hnone : rotationKeys true s = none := by simp [rotationKeys, hkey]
      exact ⟨historyChain_shiftNext hbelow hcleared, historyStep_of_kept hnone ⟨rfl, rfl⟩⟩
  | forcedRotation world hforce hkey hbest hpub hnonce =>
      have hsome : (rotationKeys true s).isSome = true := by simp [rotationKeys, hkey]
      refine ⟨historyChain_withPending ?_, historyStep_of_appended haccepted hsome ?_⟩
      · exact historyChain_activate (s := withoutRefresh s) hbelow hcleared hkey
      · rw [roundAppended_withPending]
        exact roundAppended_activate (s := withoutRefresh s) hbelow hcleared hkey
  | triggerEmergencyKeygen hforce =>
      refine ⟨⟨h.chain, h.last, h.below, ?_⟩, historyStep_of_kept rfl ⟨rfl, rfl⟩⟩
      intro key hkey
      cases hkey
  | sessionShift world hkeys hnext hbest =>
      exact ⟨historyChain_shiftNext hbelow h, historyStep_of_kept hkeys ⟨rfl, rfl⟩⟩
  | sessionRotation world hkey hsig hnext hbest hactive =>
      have hsome : (rotationKeys false s).isSome = true := by
        simp [rotationKeys, hkey, hsig]
      exact ⟨historyChain_activate hbelow h hkey,
        historyStep_of_appended haccepted hsome (roundAppended_activate hbelow h hkey)⟩
  | _ => exact ⟨h.congr rfl rfl rfl rfl, historyStep_of_kept rfl ⟨rfl, rfl⟩⟩

theorem historyStep_step (hbelow : BelowSaturation s) (h : HistoryChain s) :
    HistoryChain (step cfg s call) ∧ HistoryStep cfg s call (step cfg s call) := by
  rcases step_effect cfg s call with ⟨hrejected, hsame⟩ | ⟨haccepted, t, heffect, hcore⟩
  · rw [hsame]
    exact ⟨h, fun hrotates => absurd hrotates.1 hrejected, fun _ => ⟨rfl, rfl⟩⟩
  · obtain ⟨hchain, hstep⟩ := historyStep_effect haccepted hbelow h heffect
    have hcoreChain : HistoryChain (core t) := hchain.congr rfl rfl rfl rfl
    have hcoreStep : HistoryStep cfg s call (core t) := hstep
    rw [← hcore] at hcoreChain hcoreStep
    exact ⟨hcoreChain.congr rfl rfl rfl rfl, hcoreStep⟩

end Steps

theorem historyChain_of_rounds_nil {s : State L AccountId World} (hrounds : rounds s = [])
    (hkey : s.nextDkgPublicKey = none) : HistoryChain s := by
  refine ⟨?_, ?_, ?_, ?_⟩
  · rw [hrounds]
    exact .nil
  · rw [hrounds]
    intro last hlast
    cases hlast
  · rw [hrounds]
    intro round hround
    cases hround
  · rw [hkey]
    intro key hsome
    cases hsome

theorem historyChain_genesis {cfg : Config L AccountId World}
    {genesis : GenesisConfig AccountId} {validators : List (AccountId × Public)}
    {world : World} {s : State L AccountId World}
    (h : genesisState cfg genesis validators world = .ok s) : HistoryChain s := by
  by_cases hvalidators : validators = []
  · subst hvalidators
    rw [genesisState_nil_ok h]
    exact historyChain_of_rounds_nil rfl rfl
  · obtain ⟨world', authorities, accounts, best, -, -, -, -, rfl⟩ := genesisState_ok hvalidators h
    exact historyChain_of_rounds_nil rfl rfl

/-- In a run below saturation the history is an append-only chain: a rotation appends one
round that leads from the active key to the next one and counts the nonce up, and nothing
else changes either. -/
theorem historyChain_run [DecidableEq AccountId] (cfg : Config L AccountId World)
    (genesis : GenesisConfig AccountId) (validators : List (AccountId × Public))
    (world : World) (s : State L AccountId World) (calls : List (Call L AccountId World))
    (hgenesis : genesisState cfg genesis validators world = .ok s)
    (hbelow : StepsMeet (step cfg) (fun t _ => BelowSaturation t) s calls) :
    Always (step cfg) HistoryChain s calls ∧
      StepsMeet (step cfg) (fun t call => HistoryStep cfg t call (step cfg t call)) s calls := by
  have hkept : ∀ t call, HistoryChain t → BelowSaturation t → HistoryChain (step cfg t call) :=
    fun _ _ h hbelow => (historyStep_step hbelow h).1
  have hinit := historyChain_genesis hgenesis
  exact ⟨always_of_invariant HistoryChain hkept hinit hbelow,
    stepsMeet_of_invariant HistoryChain hkept (fun _ _ h hbelow => (historyStep_step hbelow h).2)
      hinit hbelow⟩

theorem belowSaturation_sampleRotationRun :
    StepsMeet (step sampleConfig) (fun t _ => BelowSaturation t) (sampleGenesis 2 1 2)
      sampleRotationRun := by
  refine stepsMeet_cons.mpr ⟨?_, stepsMeet_cons.mpr ⟨?_, stepsMeet_cons.mpr
    ⟨?_, stepsMeet_cons.mpr ⟨?_, stepsMeet_nil⟩⟩⟩⟩ <;> exact ⟨by decide +kernel, by decide +kernel⟩

theorem historyChain_sampleRotationRun :
    HistoryChain (run (step sampleConfig) (sampleGenesis 2 1 2) sampleRotationRun) ∧
      (rounds (run (step sampleConfig) (sampleGenesis 2 1 2) sampleRotationRun)).length = 1 :=
  ⟨(historyChain_run sampleConfig (sampleGenesisConfig 2 1 2) (sampleValidators 2) ()
      (sampleGenesis 2 1 2) sampleRotationRun rfl belowSaturation_sampleRotationRun).1
      sampleRotationRun [] (by simp), by decide +kernel⟩

end DkgSubstrate.RotationHistory
