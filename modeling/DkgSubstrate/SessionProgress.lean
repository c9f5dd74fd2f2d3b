import DkgSubstrate.ProposalHandler
import DkgSubstrate.SampleRuntime

/-!
The progress of a session as the periodic session manager estimates it.  The estimate counts
from the offset of all sessions until the period is over, and from the last rotation
afterwards.
-/

namespace DkgSubstrate.SessionProgress

open DkgSubstrate.Metadata
open DkgSubstrate.Primitives
open DkgSubstrate.ProposalHandler (Weight)
open DkgSubstrate.SampleRuntime

abbrev Permill : Type := Fin 1000001

def Permill.full : Permill := Fin.last 1000000

/-- The ratio of two numbers in parts per million. -/
structure Ratio where
  fromRational : ℕ → ℕ → Permill
  fromRational_self : ∀ q, 0 < q → fromRational q q = Permill.full
  fromRational_one_lt : ∀ q, 1 < q → fromRational 1 q < Permill.full
  fromRational_le : ∀ p p' q, p ≤ p' → p' ≤ q → fromRational p q ≤ fromRational p' q

variable {L : Limits} {AccountId World : Type} (ratio : Ratio)
  (cfg : Config L AccountId World)

def estimateCurrentSessionProgress (now : ℕ) (s : State L AccountId World) :
    Option Permill × Weight :=
  let offset := cfg.sessionOffset
  let period := cfg.sessionPeriod
  let progress :=
    if offset ≤ now then
      let currentElapsedTime := now - s.lastSessionRotationBlock
      if period < currentElapsedTime then Permill.full
      else ratio.fromRational ((now - offset) % period + 1) period
    else ratio.fromRational (now + 1) offset
  (some progress, ⟨0, 0⟩)

/-- The progress in the blocks of a session that starts at its rotation and ends before
`sessionEnd` does not decrease, and it is complete when the period is over. -/
structure ProgressAdvances (s : State L AccountId World) (sessionEnd : ℕ) : Prop where
  monotone : ∀ now now', s.lastSessionRotationBlock ≤ now → now ≤ now' → now' < sessionEnd →
    ∀ progress ∈ (estimateCurrentSessionProgress ratio cfg now s).1,
      ∀ progress' ∈ (estimateCurrentSessionProgress ratio cfg now' s).1, progress ≤ progress'
  complete : ∃ now, s.lastSessionRotationBlock ≤ now ∧
    now ≤ s.lastSessionRotationBlock + cfg.sessionPeriod ∧
    (estimateCurrentSessionProgress ratio cfg now s).1 = some Permill.full

def blocksToMultiple (s : State L AccountId World) : ℕ :=
  cfg.sessionPeriod - (s.lastSessionRotationBlock - cfg.sessionOffset) % cfg.sessionPeriod

variable {ratio cfg} {s : State L AccountId World}

theorem blocksToMultiple_pos (hperiod : 1 ≤ cfg.sessionPeriod) : 0 < blocksToMultiple cfg s :=
  Nat.sub_pos_of_lt (Nat.mod_lt _ hperiod)

theorem blocksToMultiple_le (cfg : Config L AccountId World) (s : State L AccountId World) :
    blocksToMultiple cfg s ≤ cfg.sessionPeriod :=
  Nat.sub_le _ _

theorem estimate_of_le {elapsed : ℕ} (hoffset : cfg.sessionOffset ≤ s.lastSessionRotationBlock)
    (helapsed : elapsed ≤ cfg.sessionPeriod) :
    (estimateCurrentSessionProgress ratio cfg (s.lastSessionRotationBlock + elapsed) s).1 =
      some (ratio.fromRational ((s.lastSessionRotationBlock - cfg.sessionOffset + elapsed) %
        cfg.sessionPeriod + 1) cfg.sessionPeriod) := by
  have hnow : cfg.sessionOffset ≤ s.lastSessionRotationBlock + elapsed := by omega
  have hpassed : ¬cfg.sessionPeriod <
      s.lastSessionRotationBlock + elapsed - s.lastSessionRotationBlock := by omega
  have hsub : s.lastSessionRotationBlock + elapsed - cfg.sessionOffset =
      s.lastSessionRotationBlock - cfg.sessionOffset + elapsed := by omega
  simp only [estimateCurrentSessionProgress, if_pos hnow, if_neg hpassed, hsub]

theorem count_before {elapsed : ℕ} (h : elapsed < blocksToMultiple cfg s) :
    (s.lastSessionRotationBlock - cfg.sessionOffset + elapsed) % cfg.sessionPeriod =
      (s.lastSessionRotationBlock - cfg.sessionOffset) % cfg.sessionPeriod + elapsed := by
  rw [blocksToMultiple] at h
  rw [Nat.add_mod]
  have hlt : (s.lastSessionRotationBlock - cfg.sessionOffset) % cfg.sessionPeriod + elapsed <
      cfg.sessionPeriod := by omega
  rw [Nat.mod_eq_of_lt (a := elapsed) (by omega), Nat.mod_eq_of_lt hlt]

theorem count_at (hperiod : 1 ≤ cfg.sessionPeriod) :
    (s.lastSessionRotationBlock - cfg.sessionOffset + blocksToMultiple cfg s) %
      cfg.sessionPeriod = 0 := by
  have hlt := Nat.mod_lt (s.lastSessionRotationBlock - cfg.sessionOffset) hperiod
  have hdiv := Nat.mod_add_div (s.lastSessionRotationBlock - cfg.sessionOffset)
    cfg.sessionPeriod
  have hsum : s.lastSessionRotationBlock - cfg.sessionOffset + blocksToMultiple cfg s =
      cfg.sessionPeriod * ((s.lastSessionRotationBlock - cfg.sessionOffset) /
        cfg.sessionPeriod + 1) := by
    rw [blocksToMultiple, Nat.mul_add, Nat.mul_one]
    omega
  rw [hsum, Nat.mul_mod_right]

theorem estimate_before_multiple (ratio : Ratio) (hperiod : 1 ≤ cfg.sessionPeriod)
    (hoffset : cfg.sessionOffset ≤ s.lastSessionRotationBlock) :
    (estimateCurrentSessionProgress ratio cfg
      (s.lastSessionRotationBlock + (blocksToMultiple cfg s - 1)) s).1 =
        some Permill.full := by
  have hpos := blocksToMultiple_pos (s := s) hperiod
  have hle := blocksToMultiple_le cfg s
  rw [estimate_of_le hoffset (by omega), count_before (by omega)]
  have hcount : (s.lastSessionRotationBlock - cfg.sessionOffset) % cfg.sessionPeriod +
      (blocksToMultiple cfg s - 1) + 1 = cfg.sessionPeriod := by
    rw [blocksToMultiple] at hpos ⊢
    omega
  rw [hcount, ratio.fromRational_self _ hperiod]

theorem estimate_at_multiple (hperiod : 1 ≤ cfg.sessionPeriod)
    (hoffset : cfg.sessionOffset ≤ s.lastSessionRotationBlock) :
    (estimateCurrentSessionProgress ratio cfg
      (s.lastSessionRotationBlock + blocksToMultiple cfg s) s).1 =
        some (ratio.fromRational 1 cfg.sessionPeriod) := by
  rw [estimate_of_le hoffset (blocksToMultiple_le cfg s), count_at hperiod]

theorem estimate_of_period_one (hone : cfg.sessionPeriod = 1)
    (hoffset : cfg.sessionOffset ≤ s.lastSessionRotationBlock) {now : ℕ}
    (hnow : s.lastSessionRotationBlock ≤ now) :
    (estimateCurrentSessionProgress ratio cfg now s).1 = some Permill.full := by
  simp only [estimateCurrentSessionProgress, if_pos (hoffset.trans hnow), hone, Nat.mod_one,
    Nat.zero_add, ratio.fromRational_self 1 one_pos, ite_self]

theorem estimate_mono
    (hoffset : cfg.sessionOffset ≤ s.lastSessionRotationBlock) {elapsed elapsed' : ℕ}
    (hle : elapsed ≤ elapsed') (hbefore : elapsed' < blocksToMultiple cfg s) :
    ∀ progress ∈ (estimateCurrentSessionProgress ratio cfg
        (s.lastSessionRotationBlock + elapsed) s).1,
      ∀ progress' ∈ (estimateCurrentSessionProgress ratio cfg
        (s.lastSessionRotationBlock + elapsed') s).1, progress ≤ progress' := by
  have hmax := blocksToMultiple_le cfg s
  rw [estimate_of_le hoffset (by omega), estimate_of_le hoffset (by omega),
    count_before (hle.trans_lt hbefore), count_before hbefore]
  rintro progress ⟨⟩ progress' ⟨⟩
  refine ratio.fromRational_le _ _ _ (by omega) ?_
  rw [blocksToMultiple] at hbefore
  omega

/-- The progress of a session advances exactly if the period is a single block, or the session
ends by the next multiple of the period after the offset. -/
theorem progressAdvances_iff (ratio : Ratio) (cfg : Config L AccountId World)
    (s : State L AccountId World) (hperiod : 1 ≤ cfg.sessionPeriod)
    (hoffset : cfg.sessionOffset ≤ s.lastSessionRotationBlock) (sessionEnd : ℕ) :
    ProgressAdvances ratio cfg s sessionEnd ↔
      cfg.sessionPeriod = 1 ∨
        sessionEnd ≤ s.lastSessionRotationBlock + blocksToMultiple cfg s := by
  have hpos := blocksToMultiple_pos (s := s) hperiod
  have hmax := blocksToMultiple_le cfg s
  have hfull := estimate_before_multiple ratio hperiod hoffset
  constructor
  · intro h
    by_contra hlate
    obtain ⟨hlong, hlate⟩ := not_or.mp hlate
    have hdrop := h.monotone _ _ (Nat.le_add_right _ _)
      (Nat.add_le_add_left (Nat.sub_le _ 1) _) (Nat.not_le.mp hlate) Permill.full
      (by rw [hfull]; rfl) _ (by rw [estimate_at_multiple hperiod hoffset]; rfl)
    exact absurd (ratio.fromRational_one_lt cfg.sessionPeriod (by omega)) (not_lt.mpr hdrop)
  · intro h
    refine ⟨?_, _, Nat.le_add_right _ _, by omega, hfull⟩
    intro now now' hstart hle hend
    rcases h with hone | hshort
    · rw [estimate_of_period_one hone hoffset hstart,
        estimate_of_period_one hone hoffset (hstart.trans hle)]
      rintro progress ⟨⟩ progress' ⟨⟩
      exact le_rfl
    · obtain ⟨elapsed, rfl⟩ := Nat.exists_eq_add_of_le hstart
      obtain ⟨elapsed', rfl⟩ := Nat.exists_eq_add_of_le (hstart.trans hle)
      exact estimate_mono hoffset (by omega) (by omega)

def floorRational (p q : ℕ) : Permill := Fin.ofNat 1000001 (min (p * 1000000 / q) 1000000)

theorem val_floorRational (p q : ℕ) :
    (floorRational p q).val = min (p * 1000000 / q) 1000000 :=
  Nat.mod_eq_of_lt (by omega)

theorem floorRational_self (q : ℕ) (hq : 0 < q) : floorRational q q = Permill.full := by
  refine Fin.ext ?_
  rw [val_floorRational, Nat.mul_div_cancel_left _ hq]
  rfl

theorem floorRational_one_lt (q : ℕ) (hq : 1 < q) : floorRational 1 q < Permill.full := by
  refine Fin.lt_def.mpr ?_
  have hdiv : 1 * 1000000 / q < 1000000 := Nat.div_lt_self (by decide) hq
  rw [val_floorRational]
  exact lt_of_le_of_lt (min_le_left _ _) hdiv

theorem floorRational_le (p p' q : ℕ) (hle : p ≤ p') (_ : p' ≤ q) :
    floorRational p q ≤ floorRational p' q := by
  refine Fin.le_def.mpr ?_
  rw [val_floorRational, val_floorRational]
  exact min_le_min_right _ (Nat.div_le_div_right (Nat.mul_le_mul_right _ hle))

def floorRatio : Ratio :=
  ⟨floorRational, floorRational_self, floorRational_one_lt, floorRational_le⟩

def sampleRotated (block : ℕ) : State runtimeLimits ℕ Unit :=
  { sampleGenesis 2 1 2 with lastSessionRotationBlock := block }

theorem progressAdvances_sample :
    ProgressAdvances floorRatio sampleConfig (sampleRotated 10) 20 :=
  (progressAdvances_iff floorRatio sampleConfig (sampleRotated 10) (by decide) (by decide)
    20).mpr (.inr (by decide))

theorem progress_drops :
    1 ≤ sampleConfig.sessionPeriod ∧
      sampleConfig.sessionOffset ≤ (sampleRotated 5).lastSessionRotationBlock ∧
      ¬ProgressAdvances floorRatio sampleConfig (sampleRotated 5) 16 := by
  refine ⟨by decide, by decide, ?_⟩
  intro h
  have hdrop := h.monotone 9 10 (by decide) (by decide) (by decide) (floorRational 10 10) rfl
    (floorRational 1 10) rfl
  revert hdrop
  decide

end DkgSubstrate.SessionProgress
