import DkgSubstrate.MetadataRotation
import DkgSubstrate.SampleRuntime

/-!
Who signed a misbehaviour report that is accepted.
-/

namespace DkgSubstrate.MisbehaviourReports

open DkgSubstrate.Dispatch
open DkgSubstrate.Metadata
open DkgSubstrate.MetadataCalls
open DkgSubstrate.MetadataRotation
open DkgSubstrate.Primitives
open DkgSubstrate.SampleRuntime
open DkgSubstrate.Words

variable {L : Limits} {AccountId World : Type}

def SignedReport (crypto : Crypto) (reports : AggregatedMisbehaviourReports L)
    (authority : Public) : Prop :=
  ∃ signature ∈ reports.signatures.toList,
    recoversTo crypto (misbehaviourPayload reports) signature.toList
      (xCoordinate authority) = true

instance (crypto : Crypto) (reports : AggregatedMisbehaviourReports L)
    (authority : Public) : Decidable (SignedReport crypto reports authority) := by
  unfold SignedReport
  infer_instance

def SignedByMember (crypto : Crypto) (reports : AggregatedMisbehaviourReports L)
    (verifyingSet : List Public) (signature : Signature L) : Prop :=
  ∃ signer ∈ verifyingSet, signer ≠ List.Vector.replicate 33 0 ∧
    recoversTo crypto (misbehaviourPayload reports) signature.toList
      (xCoordinate signer) = true

/-- Every signature by a member stands at the index of a reporter who is a member and has
signed, unless one of them stands at the index of no reporter. -/
def ListsSigners (crypto : Crypto) (reports : AggregatedMisbehaviourReports L)
    (verifyingSet : List Public) : Prop :=
  (∀ (i : ℕ) signature, reports.signatures.toList[i]? = some signature →
    SignedByMember crypto reports verifyingSet signature →
      i < reports.reporters.length) →
  ∀ (i : ℕ) signature reporter, reports.signatures.toList[i]? = some signature →
    SignedByMember crypto reports verifyingSet signature →
      reports.reporters.toList[i]? = some reporter →
        reporter ∈ verifyingSet ∧ SignedReport crypto reports reporter

/-- The authorities who may report a misbehaviour, and how many of them are not
enough. -/
def reportingAuthorities (misbehaviourType : MisbehaviourType)
    (s : State L AccountId World) : List Public × ℕ :=
  match misbehaviourType with
  | .keygen => (s.nextAuthorities.toList, s.nextSignatureThreshold)
  | .sign => (s.authorities.toList, s.signatureThreshold)

section Collect

variable {cfg : Config L AccountId World} {payload : Bytes}
variable {verifyingSet reporters : List Public}

theorem mem_collectReporters {entries : List (Signature L × ℕ)} {valid out : List Public}
    (h : collectReporters cfg payload verifyingSet reporters entries valid = .ok out)
    {reporter : Public} :
    reporter ∈ out ↔ reporter ∈ valid ∨ ∃ entry ∈ entries,
      (verifySignerFromSetEcdsa cfg.crypto verifyingSet payload entry.1.toList).2 = true ∧
        reporters[entry.2]? = some reporter := by
  induction entries generalizing valid with
  | nil =>
      obtain rfl := Except.ok.inj h
      simp
  | cons entry entries ih =>
      obtain ⟨signature, inx⟩ := entry
      rw [collectReporters] at h
      split at h
      · rename_i hverified
        cases hreporter : reporters[inx]? with
        | none => simp [hreporter] at h
        | some found =>
            simp only [hreporter] at h
            rw [ih h]
            simp only [List.mem_cons, exists_eq_or_imp, hverified, hreporter, true_and,
              Option.some.injEq, ← or_assoc]
            refine or_congr_left ?_
            split
            · rename_i hmem
              constructor
              · exact .inl
              · rintro (hvalid | rfl)
                · exact hvalid
                · exact hmem
            · rw [List.mem_append, List.mem_singleton, eq_comm (a := reporter)]
      · rename_i hrejected
        rw [ih h]
        simp only [List.mem_cons, exists_eq_or_imp, hrejected, Bool.false_eq_true, false_and,
          false_or]

theorem nodup_collectReporters {entries : List (Signature L × ℕ)}
    {valid out : List Public} (hnodup : valid.Nodup)
    (h : collectReporters cfg payload verifyingSet reporters entries valid = .ok out) :
    out.Nodup := by
  induction entries generalizing valid with
  | nil =>
      obtain rfl := Except.ok.inj h
      exact hnodup
  | cons entry entries ih =>
      obtain ⟨signature, inx⟩ := entry
      rw [collectReporters] at h
      split at h
      · cases hreporter : reporters[inx]? with
        | none => simp [hreporter] at h
        | some found =>
            simp only [hreporter] at h
            refine ih ?_ h
            split
            · exact hnodup
            · rename_i hnew
              refine hnodup.append (List.nodup_singleton found) ?_
              rwa [List.disjoint_singleton]
      · exact ih hnodup h

theorem collectReporters_ok {entries : List (Signature L × ℕ)} {valid : List Public} :
    (∃ out, collectReporters cfg payload verifyingSet reporters entries valid = .ok out) ↔
      ∀ entry ∈ entries,
        (verifySignerFromSetEcdsa cfg.crypto verifyingSet payload entry.1.toList).2 = true →
          entry.2 < reporters.length := by
  induction entries generalizing valid with
  | nil => simp [collectReporters]
  | cons entry entries ih =>
      obtain ⟨signature, inx⟩ := entry
      rw [collectReporters]
      rw [List.forall_mem_cons]
      split
      · rename_i hverified
        cases hreporter : reporters[inx]? with
        | none =>
            have hge := List.getElem?_eq_none_iff.mp hreporter
            simp only [hverified, reduceCtorEq, exists_false, forall_const, false_iff]
            rintro ⟨hlt, -⟩
            omega
        | some found =>
            obtain ⟨hlt, -⟩ := List.getElem?_eq_some_iff.mp hreporter
            simp only [ih, hlt, implies_true, true_and]
      · rename_i hrejected
        simp only [ih, hrejected, Bool.false_eq_true, false_implies, true_and]

end Collect

section Process

variable {cfg : Config L AccountId World} {reports : AggregatedMisbehaviourReports L}
variable {verifyingSet : List Public}

theorem verified_iff_signedByMember {signature : Signature L} :
    (verifySignerFromSetEcdsa cfg.crypto
        (verifyingSet.filter fun x => x ≠ List.Vector.replicate 33 0)
        (misbehaviourPayload reports) signature.toList).2 = true ↔
      SignedByMember cfg.crypto reports verifyingSet signature := by
  rw [verifySignerFromSetEcdsa_success]
  simp only [List.mem_filter, decide_eq_true_eq, and_assoc, SignedByMember]

theorem mem_processMisbehaviourReports {out : List Public}
    (h : processMisbehaviourReports cfg reports verifyingSet = .ok out)
    {reporter : Public} :
    reporter ∈ out ↔ ∃ (i : ℕ) (signature : Signature L),
      reports.signatures.toList[i]? = some signature ∧
        SignedByMember cfg.crypto reports verifyingSet signature ∧
        reports.reporters.toList[i]? = some reporter := by
  rw [mem_collectReporters h]
  simp only [List.not_mem_nil, false_or, verified_iff_signedByMember]
  constructor
  · rintro ⟨⟨signature, i⟩, hentry, hmember, hreporter⟩
    exact ⟨i, signature, List.mem_zipIdx_iff_getElem?.mp hentry, hmember, hreporter⟩
  · rintro ⟨i, signature, hentry, hmember, hreporter⟩
    exact ⟨(signature, i), List.mem_zipIdx_iff_getElem?.mpr hentry, hmember, hreporter⟩

theorem processMisbehaviourReports_ok :
    (∃ out, processMisbehaviourReports cfg reports verifyingSet = .ok out) ↔
      ∀ (i : ℕ) signature, reports.signatures.toList[i]? = some signature →
        SignedByMember cfg.crypto reports verifyingSet signature →
          i < reports.reporters.length := by
  rw [processMisbehaviourReports]
  rw [collectReporters_ok]
  simp only [verified_iff_signedByMember]
  constructor
  · intro h i signature hentry hmember
    exact h (signature, i) (List.mem_zipIdx_iff_getElem?.mpr hentry) hmember
  · rintro h ⟨signature, i⟩ hentry hmember
    exact h i signature (List.mem_zipIdx_iff_getElem?.mp hentry) hmember

theorem nodup_processMisbehaviourReports {out : List Public}
    (h : processMisbehaviourReports cfg reports verifyingSet = .ok out) : out.Nodup :=
  nodup_collectReporters List.nodup_nil h

theorem reporters_signed_iff :
    (∀ out, processMisbehaviourReports cfg reports verifyingSet = .ok out →
        ∀ reporter ∈ out, reporter ∈ verifyingSet ∧
          SignedReport cfg.crypto reports reporter) ↔
      ListsSigners cfg.crypto reports verifyingSet := by
  constructor
  · intro h hindices i signature reporter hentry hmember hreporter
    obtain ⟨out, hout⟩ := processMisbehaviourReports_ok.mpr hindices
    refine h out hout reporter ?_
    exact (mem_processMisbehaviourReports hout).mpr
      ⟨i, signature, hentry, hmember, hreporter⟩
  · intro h out hout reporter hmem
    obtain ⟨i, signature, hentry, hmember, hreporter⟩ :=
      (mem_processMisbehaviourReports hout).mp hmem
    have hindices := processMisbehaviourReports_ok.mp ⟨out, hout⟩
    exact h hindices i signature reporter hentry hmember hreporter

theorem submitMisbehaviourReports_reporters {s s' : State L AccountId World}
    {origin : Origin AccountId}
    (h : submitMisbehaviourReports cfg origin reports s = .ok s') :
    ∃ out, processMisbehaviourReports cfg reports
        (reportingAuthorities reports.misbehaviourType s).1 = .ok out ∧
      (reportingAuthorities reports.misbehaviourType s).2 < out.length := by
  simp only [submitMisbehaviourReports, bind_eq_ok, ensure_eq_ok] at h
  obtain ⟨_, -, _, -, _, -, _, -, out, hout, _, hlt, -⟩ := h
  cases htype : reports.misbehaviourType with
  | keygen =>
      rw [htype] at hout hlt
      exact ⟨out, hout, hlt⟩
  | sign =>
      rw [htype] at hout hlt
      exact ⟨out, hout, hlt⟩

end Process

/-- The reporters that are counted have signed the report exactly if the list of reporters
names signers, and then an accepted report is signed by more different authorities than
the threshold. -/
theorem accepted_report_signed_iff (cfg : Config L AccountId World)
    (reports : AggregatedMisbehaviourReports L) :
    (∀ verifyingSet : List Public,
      (∀ out, processMisbehaviourReports cfg reports verifyingSet = .ok out →
        ∀ reporter ∈ out, reporter ∈ verifyingSet ∧
          SignedReport cfg.crypto reports reporter) ↔
      ListsSigners cfg.crypto reports verifyingSet) ∧
    ∀ (origin : Origin AccountId) (s s' : State L AccountId World),
      submitMisbehaviourReports cfg origin reports s = .ok s' →
      ListsSigners cfg.crypto reports
        (reportingAuthorities reports.misbehaviourType s).1 →
      ∃ signers : List Public, signers.Nodup ∧
        (reportingAuthorities reports.misbehaviourType s).2 < signers.length ∧
        ∀ signer ∈ signers,
          signer ∈ (reportingAuthorities reports.misbehaviourType s).1 ∧
            SignedReport cfg.crypto reports signer := by
  refine ⟨fun verifyingSet => reporters_signed_iff, ?_⟩
  intro origin s s' hok hlists
  obtain ⟨out, hout, hlt⟩ := submitMisbehaviourReports_reporters hok
  refine ⟨out, nodup_processMisbehaviourReports hout, hlt, ?_⟩
  exact reporters_signed_iff.mpr hlists out hout

theorem accepted_report_signed_by_two :
    ∃ signers : List Public, signers.Nodup ∧ 1 < signers.length ∧
      ∀ signer ∈ signers, signer ∈ (sampleGenesis 3 1 4).nextAuthorities.toList ∧
        SignedReport sampleCrypto (sampleReport .keygen 1 [2, 3] [3, 2]) signer := by
  have hok : (submitMisbehaviourReports sampleConfig .none
      (sampleReport .keygen 1 [2, 3] [3, 2]) (sampleGenesis 3 1 4)).isOk = true := by
    decide +kernel
  have hlists : ∀ reporter ∈ (sampleReport .keygen 1 [2, 3] [3, 2]).reporters.toList,
      reporter ∈ (sampleGenesis 3 1 4).nextAuthorities.toList ∧
        SignedReport sampleCrypto (sampleReport .keygen 1 [2, 3] [3, 2]) reporter := by
    rw [← List.forall_iff_forall_mem]
    decide +kernel
  cases hsubmit : submitMisbehaviourReports sampleConfig .none
      (sampleReport .keygen 1 [2, 3] [3, 2]) (sampleGenesis 3 1 4) with
  | error fault =>
      rw [hsubmit] at hok
      cases hok
  | ok s' =>
      refine (accepted_report_signed_iff sampleConfig
        (sampleReport .keygen 1 [2, 3] [3, 2])).2 .none (sampleGenesis 3 1 4) s' hsubmit ?_
      intro _ i signature reporter _ _ hreporter
      exact hlists reporter (List.mem_of_getElem? hreporter)

theorem accepted_report_signed_by_one :
    let reports := sampleReport .keygen 1 [2, 3] [4, 4]
    let authorities := (sampleGenesis 3 1 4).nextAuthorities.toList
    (processMisbehaviourReports sampleConfig reports authorities).toOption =
        some [samplePublic 2, samplePublic 3] ∧
      ¬SignedReport sampleCrypto reports (samplePublic 2) ∧
      (authorities.filter fun id => SignedReport sampleCrypto reports id) =
        [samplePublic 4] ∧
      (sampleGenesis 3 1 4).nextSignatureThreshold = 1 ∧
      (step sampleConfig (sampleGenesis 3 1 4)
        (.submitMisbehaviourReports .none reports)).jailedKeygenAuthorities.containsKey
          (samplePublic 1) = true := by
  decide +kernel

end DkgSubstrate.MisbehaviourReports
