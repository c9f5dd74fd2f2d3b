import DkgSubstrate.MetadataJails
import DkgSubstrate.SampleRuntime

/-!
How often the same misbehaviour reports are applied.  Nothing records them but the jails: the
reports map of the pallet is only read.
-/

namespace DkgSubstrate.ReportReplay

open DkgSubstrate.Dispatch
open DkgSubstrate.Metadata
open DkgSubstrate.MetadataCalls
open DkgSubstrate.MetadataJails
open DkgSubstrate.MetadataRotation
open DkgSubstrate.Primitives
open DkgSubstrate.Runs
open DkgSubstrate.SampleRuntime
open DkgSubstrate.Words

variable {L : Limits} {AccountId World : Type} [DecidableEq AccountId]

abbrev ReportKey := MisbehaviourType × UInt64 × Public

def reportKey (reports : AggregatedMisbehaviourReports L) : ReportKey :=
  (reports.misbehaviourType, reports.sessionId, reports.offender)

def appliedReports (cfg : Config L AccountId World) (s : State L AccountId World) :
    Call L AccountId World → Option ReportKey
  | .submitMisbehaviourReports origin reports =>
      if (submitMisbehaviourReports cfg origin reports s).isOk then some (reportKey reports)
      else none
  | _ => none

/-- The reports that are applied in a run, in their order. -/
def reportHistory (cfg : Config L AccountId World) :
    State L AccountId World → List (Call L AccountId World) → List ReportKey :=
  trace (step cfg) fun s call => (appliedReports cfg s call).toList

def jailed (s : State L AccountId World) (authority : Public) : Bool :=
  s.jailedKeygenAuthorities.containsKey authority ||
    s.jailedSigningAuthorities.containsKey authority

def Serves (now sentence : ℕ) (authority : Public) (jail : StorageMap Public ℕ) : Prop :=
  ∀ since ∈ jail.lookup authority, now ≤ saturatingAdd 32 since sentence

/-- Reports with the key put the offender into a jail, unless it is in one, and no call
releases the offender. -/
def Confines (cfg : Config L AccountId World) (key : ReportKey)
    (s : State L AccountId World) : Call L AccountId World → Prop
  | .submitMisbehaviourReports _ reports =>
      reportKey reports = key → jailed s reports.offender = true ∨ jails reports s = true
  | .unjail (.signed account) =>
      s.accountToAuthority.lookup account = some key.2.2 →
        Serves s.blockNumber cfg.keygenJailSentence key.2.2 s.jailedKeygenAuthorities ∧
        Serves s.blockNumber cfg.signingJailSentence key.2.2 s.jailedSigningAuthorities
  | .forceUnjailKeygen _ authority => authority ≠ key.2.2
  | .forceUnjailSigning _ authority => authority ≠ key.2.2
  | _ => True

theorem containsKey_releaseAfter {now sentence : ℕ} {authority other : Public}
    {jail : StorageMap Public ℕ} (hserves : other = authority → Serves now sentence other jail)
    (h : jail.containsKey other = true) :
    (releaseAfter now sentence authority jail).containsKey other = true := by
  rw [releaseAfter]
  split
  · rename_i hover
    obtain ⟨since, hsince⟩ := StorageMap.containsKey_iff.mp h
    have hne : other ≠ authority := by
      rintro rfl
      have hlate := hserves rfl since hsince
      rw [StorageMap.getD, hsince, Option.getD_some] at hover
      omega
    rw [StorageMap.containsKey, StorageMap.lookup_erase_eq, if_neg hne]
    exact h
  · exact h

theorem containsKey_erase_of_ne {authority other : Public} {jail : StorageMap Public ℕ}
    (hne : authority ≠ other) :
    StorageMap.containsKey (jail.erase authority) other = jail.containsKey other := by
  rw [StorageMap.containsKey, StorageMap.lookup_erase_eq, if_neg hne.symm]
  rfl

omit [DecidableEq AccountId] in
theorem jailed_eq_outer (s : State L AccountId World) (authority : Public) :
    jailed s authority = ((outer s).jailedKeygenAuthorities.containsKey authority ||
      (outer s).jailedSigningAuthorities.containsKey authority) :=
  rfl

section Step

variable {cfg : Config L AccountId World} {s s' : State L AccountId World} {key : ReportKey}

theorem jailed_dispatch {call : Call L AccountId World} (h : dispatch cfg s call = .ok s')
    (hconfines : Confines cfg key s call) (hjailed : jailed s key.2.2 = true) :
    jailed s' key.2.2 = true := by
  have heffect := dispatch_outer h
  rw [jailed_eq_outer]
  rw [jailed, Bool.or_eq_true] at hjailed
  generalize outer s' = o at heffect ⊢
  rw [Bool.or_eq_true]
  cases heffect with
  | kept hquiet => exact hjailed
  | keySubmitted hsubmits => exact hjailed
  | reported hkeygen hsigning =>
      rename_i origin reports
      simp only [afterReports]
      refine hjailed.imp ?_ ?_
      · intro hkey
        split
        · simp [hkey]
        · exact hkey
      · intro hkey
        split
        · simp [hkey]
        · exact hkey
  | unjailed hcontroller =>
      rename_i account authority
      have hserves : key.2.2 = authority → _ := fun heq => hconfines (heq ▸ hcontroller)
      exact hjailed.imp (containsKey_releaseAfter fun heq => (hserves heq).1)
        (containsKey_releaseAfter fun heq => (hserves heq).2)
  | forcedKeygen =>
      rw [containsKey_erase_of_ne hconfines]
      exact hjailed
  | forcedSigning =>
      rw [containsKey_erase_of_ne hconfines]
      exact hjailed
  | blockStarted => exact hjailed
  | sessionStarted => exact hjailed

theorem jailed_step {call : Call L AccountId World} (hconfines : Confines cfg key s call)
    (hjailed : jailed s key.2.2 = true) : jailed (step cfg s call) key.2.2 = true :=
  commit_cases (P := fun t => jailed t key.2.2 = true) hjailed
    fun _ h => jailed_dispatch h hconfines hjailed

theorem mem_appliedReports {call : Call L AccountId World}
    (h : key ∈ appliedReports cfg s call) :
    ∃ origin reports s', call = .submitMisbehaviourReports origin reports ∧
      reportKey reports = key ∧ dispatch cfg s call = .ok s' := by
  cases call with
  | submitMisbehaviourReports origin reports =>
      simp only [appliedReports] at h
      split at h
      · rename_i hok
        have hdispatch : (dispatch cfg s (.submitMisbehaviourReports origin reports)).isOk =
            true := hok
        cases hresult : dispatch cfg s (.submitMisbehaviourReports origin reports) with
        | ok s' => exact ⟨origin, reports, s', rfl, Option.some.inj h, rfl⟩
        | error fault =>
            rw [hresult] at hdispatch
            cases hdispatch
      · cases h
  | _ => cases h

theorem jailed_of_applied {call : Call L AccountId World} (hconfines : Confines cfg key s call)
    (h : key ∈ appliedReports cfg s call) :
    jailed s key.2.2 = false ∧ jailed (step cfg s call) key.2.2 = true := by
  obtain ⟨origin, reports, s', rfl, rfl, hok⟩ := mem_appliedReports h
  obtain ⟨hkeygen, hsigning, houter⟩ := submitMisbehaviourReports_outer hok
  have hfree : jailed s reports.offender = false := by
    rw [jailed, hkeygen, hsigning]
    rfl
  have hstep : step cfg s (.submitMisbehaviourReports origin reports) = s' :=
    congrArg (commit s) hok
  have hjails : jails reports s = true := by
    rcases hconfines rfl with hjailed | hjails
    · rw [hfree] at hjailed
      cases hjailed
    · exact hjails
  refine ⟨hfree, ?_⟩
  rw [hstep, jailed_eq_outer, houter]
  cases htype : reports.misbehaviourType with
  | keygen => simp [afterReports, reportKey, htype, hjails]
  | sign => simp [afterReports, reportKey, htype, hjails]

end Step

theorem count_le_one_of_pairwise {α : Type} [BEq α] [LawfulBEq α] {a : α} {l : List α}
    (h : l.Pairwise fun x y => x = a → y ≠ a) : l.count a ≤ 1 := by
  induction h with
  | nil => simp
  | @cons x l hhead _ ih =>
      by_cases hx : x = a
      · have hnone : l.count a = 0 :=
          List.count_eq_zero.mpr fun hmem => hhead a hmem hx rfl
        rw [hx, List.count_cons_self, hnone]
      · rw [List.count_cons_of_ne hx]
        exact ih

/-- The same reports are applied at most once when, from the first time on, they put the
offender into a jail and the offender is not released. -/
theorem reports_applied_once (cfg : Config L AccountId World) (s : State L AccountId World)
    (key : ReportKey) (calls later : List (Call L AccountId World))
    (hfirst : key ∉ reportHistory cfg s calls)
    (hconfines : StepsMeet (step cfg) (Confines cfg key) (run (step cfg) s calls) later) :
    (reportHistory cfg s (calls ++ later)).count key ≤ 1 := by
  have hfresh : ∀ t call, Confines cfg key t call → ∀ b ∈ appliedReports cfg t call,
      ∀ a, (a = key → jailed t key.2.2 = true) → a = key → b ≠ key := by
    rintro t call hcall b hb a hseen rfl rfl
    have hfree := (jailed_of_applied hcall hb).1
    rw [hseen rfl] at hfree
    cases hfree
  have hrecorded : ∀ t call, Confines cfg key t call → ∀ b ∈ appliedReports cfg t call,
      b = key → jailed (step cfg t call) key.2.2 = true := by
    rintro t call hcall b hb rfl
    exact (jailed_of_applied hcall hb).2
  have hlater := (pairwise_trace (appliedReports cfg)
    (fun a b : ReportKey => a = key → b ≠ key)
    (fun t a => a = key → jailed t key.2.2 = true) hfresh
    (fun t call hcall a hseen ha => jailed_step hcall (hseen ha)) hrecorded hconfines).1
  have hcount : (reportHistory cfg s (calls ++ later)).count key =
      (reportHistory cfg (run (step cfg) s calls) later).count key := by
    rw [reportHistory, trace_append, List.count_append, ← reportHistory,
      List.count_eq_zero.mpr hfirst, Nat.zero_add]
  rw [hcount]
  exact count_le_one_of_pairwise hlater

def sampleReports : AggregatedMisbehaviourReports runtimeLimits :=
  sampleReport .keygen 1 [2, 3] [2, 3]

def sampleReporting : Call runtimeLimits ℕ Unit :=
  .submitMisbehaviourReports .none sampleReports

theorem sampleReports_applied_once :
    let calls := [.submitPublicKey .none (sampleSubmission 7 2)]
    reportHistory sampleConfig (sampleGenesis 2 1 3)
        (calls ++ [sampleReporting, sampleReporting]) = [reportKey sampleReports] ∧
      (reportHistory sampleConfig (sampleGenesis 2 1 3)
        (calls ++ [sampleReporting, sampleReporting])).count (reportKey sampleReports) ≤ 1 := by
  refine ⟨by decide +kernel, reports_applied_once _ _ _ _ _ (by decide +kernel) ?_⟩
  refine stepsMeet_cons.mpr ⟨fun _ => .inr ?_,
    stepsMeet_cons.mpr ⟨fun _ => .inl ?_, stepsMeet_nil⟩⟩
  · decide +kernel
  · decide +kernel

theorem sampleReports_applied_again :
    let calls := [.submitPublicKey .none (sampleSubmission 7 2), sampleReporting,
      .forceUnjailKeygen .root (samplePublic 1), sampleReporting, sampleReporting]
    (reportHistory sampleConfig (sampleGenesis 2 1 3) calls).count
        (reportKey sampleReports) = 3 ∧
      (run (step sampleConfig) (sampleGenesis 2 1 3) calls).authorityReputations.getD
        (samplePublic 1) 0 = initialReputation / 8 ∧
      jailed (run (step sampleConfig) (sampleGenesis 2 1 3) calls) (samplePublic 1) =
        false := by
  decide +kernel

end DkgSubstrate.ReportReplay
