import DkgSubstrate.MetadataJails
import DkgSubstrate.MisbehaviourReports
import DkgSubstrate.NextBest
import DkgSubstrate.Thresholds

/-!
What a submission of misbehaviour reports comes to: when it panics, and what becomes of the
thresholds and of the offender when it is accepted.
-/

namespace DkgSubstrate.ReportOutcomes

open DkgSubstrate.Dispatch
open DkgSubstrate.Metadata
open DkgSubstrate.MetadataCalls
open DkgSubstrate.MetadataEffects
open DkgSubstrate.MetadataJails
open DkgSubstrate.MetadataRotation
open DkgSubstrate.MetadataStep
open DkgSubstrate.MisbehaviourReports
open DkgSubstrate.NextBest
open DkgSubstrate.Primitives
open DkgSubstrate.SampleRuntime
open DkgSubstrate.Thresholds
open DkgSubstrate.Words

variable {L : Limits} {AccountId World : Type} {cfg : Config L AccountId World}
variable {s s' : State L AccountId World}

def Admitted (origin : Origin AccountId) (reports : AggregatedMisbehaviourReports L)
    (s : State L AccountId World) : Prop :=
  origin = .none ∧ s.jailedKeygenAuthorities.containsKey reports.offender = false ∧
    s.jailedSigningAuthorities.containsKey reports.offender = false ∧
    reports.offender ∈ (reportingAuthorities reports.misbehaviourType s).1

def IndexesReporters (crypto : Crypto) (reports : AggregatedMisbehaviourReports L)
    (authorities : List Public) : Prop :=
  ∀ (i : ℕ) (signature : Signature L), reports.signatures.toList[i]? = some signature →
    SignedByMember crypto reports authorities signature → i < reports.reporters.length

theorem setNextBestAuthorities_ne_panic (ids : List Public) (s : State L AccountId World) :
    setNextBestAuthorities ids s ≠ .error .panic := by
  rw [setNextBestAuthorities]
  simp [bind_eq_error]

theorem punishKeygen_ne_panic (cfg : Config L AccountId World) (offender : Public)
    (s : State L AccountId World) : punishKeygen cfg offender s ≠ .error .panic := by
  rw [punishKeygen]
  dsimp only
  split
  · split
    · exact setNextBestAuthorities_ne_panic _ _
    · rw [Ne, map_eq_error]
      exact setNextBestAuthorities_ne_panic _ _
  · rw [Ne, map_eq_error]
    exact setNextBestAuthorities_ne_panic _ _

theorem collectReporters_error {payload : Bytes} {verifyingSet reporters : List Public}
    {entries : List (Signature L × ℕ)} {valid : List Public} {fault : Fault}
    (h : collectReporters cfg payload verifyingSet reporters entries valid = .error fault) :
    fault = .panic := by
  induction entries generalizing valid with
  | nil => cases h
  | cons entry entries ih =>
      obtain ⟨signature, inx⟩ := entry
      rw [collectReporters] at h
      split at h
      · cases hreporter : reporters[inx]? with
        | none =>
            simp only [hreporter] at h
            exact (Except.error.inj h).symm
        | some found =>
            simp only [hreporter] at h
            exact ih h
      · exact ih h

theorem processMisbehaviourReports_panics_iff
    {reports : AggregatedMisbehaviourReports L} {authorities : List Public} :
    processMisbehaviourReports cfg reports authorities = .error .panic ↔
      ¬IndexesReporters cfg.crypto reports authorities := by
  rw [IndexesReporters, ← processMisbehaviourReports_ok]
  cases hprocess : processMisbehaviourReports cfg reports authorities with
  | ok out => simp
  | error fault => simp [collectReporters_error hprocess]

theorem submitMisbehaviourReports_panics_iff {origin : Origin AccountId}
    {reports : AggregatedMisbehaviourReports L} :
    submitMisbehaviourReports cfg origin reports s = .error .panic ↔
      Admitted origin reports s ∧ processMisbehaviourReports cfg reports
        (reportingAuthorities reports.misbehaviourType s).1 = .error .panic := by
  unfold submitMisbehaviourReports Admitted
  cases htype : reports.misbehaviourType with
  | keygen =>
      simp only [bind_eq_error, ensure_ne_panic, ensure_eq_ok, false_or, punishKeygen_ne_panic,
        reportingAuthorities, and_false, or_false, exists_and_left, exists_const, and_assoc]
      exact and_congr_left' ⟨origin_eq_none, fun h => h ▸ rfl⟩
  | sign =>
      simp only [bind_eq_error, ensure_ne_panic, ensure_eq_ok, false_or, reduceCtorEq,
        reportingAuthorities, and_false, or_false, exists_and_left, exists_const, and_assoc]
      exact and_congr_left' ⟨origin_eq_none, fun h => h ▸ rfl⟩

/-- A submission returns exactly if every signature by an authority stands at the index of a
reporter, or the offender is refused before. -/
theorem submitMisbehaviourReports_returns_iff (cfg : Config L AccountId World)
    (origin : Origin AccountId) (reports : AggregatedMisbehaviourReports L)
    (s : State L AccountId World) :
    submitMisbehaviourReports cfg origin reports s ≠ .error .panic ↔
      (Admitted origin reports s → IndexesReporters cfg.crypto reports
        (reportingAuthorities reports.misbehaviourType s).1) := by
  rw [Ne, submitMisbehaviourReports_panics_iff, processMisbehaviourReports_panics_iff, not_and,
    not_not]

theorem submitMisbehaviourReports_panics :
    submitMisbehaviourReports sampleConfig .none (sampleReport .keygen 1 [] [2])
      (sampleGenesis 3 1 4) = .error .panic := by
  rw [submitMisbehaviourReports_panics_iff]
  refine ⟨⟨rfl, ?_, ?_, ?_⟩, ?_⟩ <;> decide +kernel

def remainingSigners (offender : Public) (s : State L AccountId World) : List Public :=
  s.bestIds.filter fun id => decide (id ≠ offender) && !s.jailedSigningAuthorities.containsKey id

/-- What a sign report is for: the thresholds come down to the number of signers that are left,
if it is below the threshold, and the offender is jailed. -/
def SignReportHandled (offender : Public) (s s' : State L AccountId World) : Prop :=
  let remaining := (remainingSigners offender s).length
  (1 ≤ remaining ∧ remaining < s.signatureThreshold →
    (1 ≤ s'.nextSignatureThreshold ∧ s'.nextSignatureThreshold ≤ remaining) ∧
    (1 ≤ s'.pendingSignatureThreshold ∧ s'.pendingSignatureThreshold ≤ remaining) ∧
    s'.jailedSigningAuthorities.containsKey offender = true) ∧
  (s.signatureThreshold ≤ remaining →
    s'.nextSignatureThreshold = s.nextSignatureThreshold ∧
    s'.pendingSignatureThreshold = s.pendingSignatureThreshold ∧
    s'.jailedSigningAuthorities.containsKey offender = true)

def CountsRemaining (offender : Public) (s : State L AccountId World) : Prop :=
  let remaining := (remainingSigners offender s).length
  1 ≤ remaining → remaining < s.signatureThreshold →
    if s.signatureThreshold ≤ s.bestIds.length then
      (1 ≤ s.nextSignatureThreshold ∧ s.nextSignatureThreshold ≤ remaining) ∧
        1 ≤ s.pendingSignatureThreshold ∧ s.pendingSignatureThreshold ≤ remaining
    else 2 ≤ s.bestIds.length ∧ s.bestIds.length ≤ remaining + 1

theorem length_remainingSigners_le (offender : Public) (s : State L AccountId World) :
    (remainingSigners offender s).length ≤ s.bestIds.length :=
  List.length_filter_le _ _

theorem punishSigning_few {offender : Public}
    (hfree : s.jailedSigningAuthorities.containsKey offender = false)
    (hbits : s.signatureThreshold < 2 ^ 16) (hpos : 1 ≤ s.bestIds.length)
    (hfew : s.bestIds.length < s.signatureThreshold) :
    punishSigning cfg offender s =
      { s with
        jailedSigningAuthorities := s.jailedSigningAuthorities.insert offender s.blockNumber
        nextSignatureThreshold := s.bestIds.length - 1
        pendingSignatureThreshold := s.bestIds.length - 1
        nextUnsignedAt := nextUnsignedBlock cfg s } := by
  have hlength : s.bestAuthorities.toList.length = s.bestIds.length := by simp [State.bestIds]
  have hsome : s.bestAuthorities.toList ≠ [] := List.ne_nil_of_length_pos (by omega)
  have hu16 : tryIntoU16 (s.bestIds.length - 1) = s.bestIds.length - 1 := if_pos (by omega)
  rw [punishSigning]
  rw [filter_unjailedSigning hfree, hlength, if_pos hfew, if_neg hsome, hu16]

theorem punishSigning_enough {offender : Public}
    (hfree : s.jailedSigningAuthorities.containsKey offender = false)
    (henough : s.signatureThreshold ≤ s.bestIds.length) :
    punishSigning cfg offender s =
      { s with
        jailedSigningAuthorities := s.jailedSigningAuthorities.insert offender s.blockNumber
        nextUnsignedAt := nextUnsignedBlock cfg s } := by
  have hlength : s.bestAuthorities.toList.length = s.bestIds.length := by simp [State.bestIds]
  rw [punishSigning]
  rw [filter_unjailedSigning hfree, hlength, if_neg (Nat.not_lt.mpr henough)]

theorem punishSigning_handled_iff {offender : Public}
    (hfree : s.jailedSigningAuthorities.containsKey offender = false)
    (hbits : s.signatureThreshold < 2 ^ 16) :
    SignReportHandled offender s (punishSigning cfg offender s) ↔ CountsRemaining offender s := by
  have hle := length_remainingSigners_le offender s
  rw [SignReportHandled, CountsRemaining]
  by_cases henough : s.signatureThreshold ≤ s.bestIds.length
  · -- The thresholds stay as they are.
    rw [punishSigning_enough hfree henough, if_pos henough]
    simp
  · rw [if_neg henough]
    by_cases hpos : 1 ≤ s.bestIds.length
    · rw [punishSigning_few hfree hbits hpos (Nat.not_le.mp henough)]
      simp only [StorageMap.containsKey_insert, decide_true, Bool.true_or, and_true]
      omega
    · -- Nobody is left to be counted.
      refine iff_of_true ⟨?_, ?_⟩ ?_
      · omega
      · omega
      · omega

/-- A sign report has its effect exactly if it counts the signers that remain. -/
theorem signReport_handled_iff (cfg : Config L AccountId World) (origin : Origin AccountId)
    (reports : AggregatedMisbehaviourReports L) (s s' : State L AccountId World)
    (hbits : s.signatureThreshold < 2 ^ 16) (htype : reports.misbehaviourType = .sign)
    (haccepted : submitMisbehaviourReports cfg origin reports s = .ok s') :
    SignReportHandled reports.offender s s' ↔ CountsRemaining reports.offender s := by
  obtain ⟨-, -, hfree, reputations, ⟨hkeygen, -⟩ | ⟨-, rfl⟩⟩ :=
    submitMisbehaviourReports_cases haccepted
  · rw [htype] at hkeygen
    cases hkeygen
  · exact punishSigning_handled_iff (s := { s with authorityReputations := reputations }) hfree
      hbits

def sampleReported (misbehaviourType : MisbehaviourType) (offender : UInt8)
    (reporters : List UInt8) (s : State runtimeLimits ℕ Unit) : State runtimeLimits ℕ Unit :=
  commit s (submitMisbehaviourReports sampleConfig .none
    (sampleReport misbehaviourType offender reporters reporters) s)

theorem signReport_handled_once :
    CountsRemaining (samplePublic 1) (sampleGenesis 3 2 5) ∧
      SignReportHandled (samplePublic 1) (sampleGenesis 3 2 5)
        (sampleReported .sign 1 [3, 4, 5] (sampleGenesis 3 2 5)) := by
  have haccepted := eq_ok_commit (sampleGenesis 3 2 5) (show (submitMisbehaviourReports
    sampleConfig .none (sampleReport .sign 1 [3, 4, 5] [3, 4, 5])
      (sampleGenesis 3 2 5)).isOk = true by decide +kernel)
  have hcounts : CountsRemaining (samplePublic 1) (sampleGenesis 3 2 5) := by
    rw [CountsRemaining]
    decide +kernel
  exact ⟨hcounts, (signReport_handled_iff sampleConfig .none _ _ _ (by decide +kernel) rfl
    haccepted).mpr hcounts⟩

theorem signReport_not_handled_twice :
    let first := sampleReported .sign 1 [3, 4, 5] (sampleGenesis 3 2 5)
    let second := sampleReported .sign 2 [3, 4, 5] first
    (submitMisbehaviourReports sampleConfig .none (sampleReport .sign 2 [3, 4, 5] [3, 4, 5])
        first).isOk = true ∧
      remainingSigners (samplePublic 2) first = [samplePublic 3] ∧
      first.signatureThreshold = 2 ∧ second.nextSignatureThreshold = 2 ∧
      ¬SignReportHandled (samplePublic 2) first second := by
  simp only [SignReportHandled]
  decide +kernel

def ThresholdsKept {World' : Type} (s : State L AccountId World)
    (s' : State L AccountId World') : Prop :=
  (ValidPair s'.nextSignatureThreshold s'.nextKeygenThreshold ∧ 2 ≤ s'.nextKeygenThreshold) ∧
  (ValidPair s'.pendingSignatureThreshold s'.pendingKeygenThreshold ∧
    2 ≤ s'.pendingKeygenThreshold) ∧
  s'.signatureThreshold ≤ s.signatureThreshold ∧ s'.keygenThreshold ≤ s.keygenThreshold ∧
  s'.nextSignatureThreshold ≤ s.nextSignatureThreshold ∧
  s'.nextKeygenThreshold ≤ s.nextKeygenThreshold ∧
  s'.pendingSignatureThreshold ≤ s.pendingSignatureThreshold ∧
  s'.pendingKeygenThreshold ≤ s.pendingKeygenThreshold

def FitsRemaining (s : State L AccountId World) : Prop :=
  let remaining := (unjailedNextBest s).length - 1
  remaining ≤ s.pendingKeygenThreshold ∧
    if remaining ≤ s.nextSignatureThreshold then
      s.nextSignatureThreshold = remaining ∧
        s.nextSignatureThreshold ≤ s.pendingSignatureThreshold + 1
    else s.pendingSignatureThreshold < remaining

theorem thresholdsKept_of_core {t : State L AccountId World} (h : core s' = core t) :
    ThresholdsKept s s' ↔ ThresholdsKept s t := by
  change ThresholdsKept s (core s') ↔ ThresholdsKept s (core t)
  rw [h]

theorem thresholdsKept_dropped (best : BoundedVec (ℕ × Public) L.maxAuthorities)
    (hbits : s.nextKeygenThreshold < 2 ^ 16)
    (hnext : ValidPair s.nextSignatureThreshold s.nextKeygenThreshold)
    (hpending : ValidPair s.pendingSignatureThreshold s.pendingKeygenThreshold)
    (hle : (unjailedNextBest s).length ≤ s.nextKeygenThreshold)
    (htwo : 2 < (unjailedNextBest s).length) :
    ThresholdsKept s
        (let dropped := dropThresholds (unjailedNextBest s).length s
        { s with
          nextKeygenThreshold := dropped.nextKeygenThreshold
          pendingKeygenThreshold := dropped.pendingKeygenThreshold
          nextSignatureThreshold := dropped.nextSignatureThreshold
          pendingSignatureThreshold := dropped.pendingSignatureThreshold
          nextBestAuthorities := best }) ↔ FitsRemaining s := by
  rw [dropThresholds_eq_ite hbits hle htwo, FitsRemaining]
  obtain ⟨hpos, hlt⟩ := hnext
  obtain ⟨hpos', hlt'⟩ := hpending
  split
  · rename_i hdrop
    rw [wrappingSub_of_le (by omega) hpos, if_pos hdrop.1]
    simp only [ThresholdsKept, ValidPair]
    omega
  · rename_i hkeep
    rw [if_neg (by omega)]
    simp only [ThresholdsKept, ValidPair]
    omega

/-- A keygen report keeps the thresholds valid exactly if it finds a replacement, concerns
somebody outside, or the thresholds fit the members that remain. -/
theorem keygenReport_thresholds_iff [DecidableEq AccountId] (cfg : Config L AccountId World)
    (origin : Origin AccountId) (reports : AggregatedMisbehaviourReports L)
    (s s' : State L AccountId World) (hbits : s.nextKeygenThreshold < 2 ^ 16)
    (hnext : ValidPair s.nextSignatureThreshold s.nextKeygenThreshold)
    (hpending : ValidPair s.pendingSignatureThreshold s.pendingKeygenThreshold)
    (hnodup : s.nextBestIds.Nodup) (hlength : s.nextBestIds.length = s.nextKeygenThreshold)
    (htype : reports.misbehaviourType = .keygen)
    (haccepted : submitMisbehaviourReports cfg origin reports s = .ok s') :
    ThresholdsKept s s' ↔
      (reports.offender ∈ unjailedNextBest s →
        replacementCandidates (unjailedNextBest s) s = [] → FitsRemaining s) := by
  obtain ⟨t, heffect, hcore⟩ := submitMisbehaviourReports_ok haccepted
  rw [thresholdsKept_of_core hcore]
  have hkept : ∀ best, ThresholdsKept s { s with nextBestAuthorities := best } := by
    intro best
    obtain ⟨hpos, hlt⟩ := hnext
    obtain ⟨hpos', hlt'⟩ := hpending
    simp only [ThresholdsKept, ValidPair]
    omega
  cases heffect with
  | idle h => cases h
  | keygenReplaced _ hmem hcandidate hbest =>
      refine iff_of_true (hkept _) ?_
      intro _ hnone
      rw [hnone] at hcandidate
      cases hcandidate
  | keygenDropped _ hmem hnone hbest htwo =>
      have hle : (unjailedNextBest s).length ≤ s.nextKeygenThreshold := by
        rw [← hlength, unjailedNextBest_eq]
        exact List.length_filter_le _ _
      have hids : (unjailedNextBest s).Nodup := by
        rw [unjailedNextBest_eq]
        exact hnodup.filter _
      have hlt := two_lt_length_of_selectsBest hids hmem hbest htwo
      refine (thresholdsKept_dropped _ hbits hnext hpending hle hlt).trans ?_
      simp only [hmem, hnone, forall_const]
  | keygenOutside _ hmem hbest =>
      exact iff_of_true (hkept _) fun h => absurd h hmem
  | signReport hsign =>
      rw [htype] at hsign
      cases hsign

theorem keygenReport_thresholds_one_of_two :
    FitsRemaining (sampleGenesis 3 1 3) ∧
      ThresholdsKept (sampleGenesis 3 1 3)
        (sampleReported .keygen 1 [2, 3] (sampleGenesis 3 1 3)) := by
  have haccepted := eq_ok_commit (sampleGenesis 3 1 3) (show (submitMisbehaviourReports
    sampleConfig .none (sampleReport .keygen 1 [2, 3] [2, 3])
      (sampleGenesis 3 1 3)).isOk = true by decide +kernel)
  have hfits : FitsRemaining (sampleGenesis 3 1 3) := by
    rw [FitsRemaining]
    decide +kernel
  exact ⟨hfits, (keygenReport_thresholds_iff sampleConfig .none _ _ _ (by decide +kernel)
    (by decide +kernel) (by decide +kernel) (by decide +kernel) (by decide +kernel) rfl
    haccepted).mpr fun _ _ => hfits⟩

theorem keygenReport_thresholds_two_of_two :
    let s := step sampleConfig (sampleGenesis 3 1 3) (.setSignatureThreshold .root 2)
    let s' := sampleReported .keygen 1 [2, 3] s
    ValidPair s.nextSignatureThreshold s.nextKeygenThreshold ∧
      ValidPair s.pendingSignatureThreshold s.pendingKeygenThreshold ∧
      s.nextBestIds.Nodup ∧ s.nextBestIds.length = s.nextKeygenThreshold ∧
      (submitMisbehaviourReports sampleConfig .none (sampleReport .keygen 1 [2, 3] [2, 3])
        s).isOk = true ∧
      s'.pendingSignatureThreshold = 2 ∧ s'.pendingKeygenThreshold = 2 ∧
      ¬ThresholdsKept s s' := by
  simp only [ThresholdsKept]
  decide +kernel

end DkgSubstrate.ReportOutcomes
