import DkgSubstrate.SignedBatches

/-!
The signature that is stored for the next key when a signed batch carries its refresh
proposal.
-/

namespace DkgSubstrate.RefreshSignature

open DkgSubstrate.Dispatch
open DkgSubstrate.Metadata
open DkgSubstrate.MetadataRotation
open DkgSubstrate.Primitives
open DkgSubstrate.Proposals
open DkgSubstrate.Runs
open DkgSubstrate.Runtime
open DkgSubstrate.SampleRuntime
open DkgSubstrate.SignedBatches

variable {L : Limits} {AccountId World Info : Type}

def carriesRefresh (m : Metadata.State L AccountId World) (p : Proposal L) : Bool :=
  p.isSigned && decide (p.kind = .refresh) &&
    m.pendingRefreshProposal.any (fun curr => curr.encode = p.data) &&
    (BoundedVec.tryFrom (p.signature.getD []) : Option (Signature L)).any
      fun signature => signature ∉ m.usedSignatures.toList

section Metadata

variable {m : Metadata.State L AccountId World}

theorem onSignedProposal_carriesRefresh {p : Proposal L}
    (hkey : m.nextDkgPublicKey.isSome = true) (hnone : m.nextPublicKeySignature = none)
    (h : carriesRefresh m p = true) :
    ∃ (curr : RefreshProposal) (signature : Signature L), curr.encode = p.data ∧
      signature.toList = p.signature.getD [] ∧
      onSignedProposal p m = .ok { m with
        nextPublicKeySignature := some signature
        currentRefreshProposal := some curr
        pendingRefreshProposal := none } := by
  simp only [carriesRefresh, Bool.and_eq_true, decide_eq_true_eq, Option.any_eq_true] at h
  obtain ⟨⟨⟨hsigned, hkind⟩, curr, hcurr, hdata⟩, signature, hsignature, hunused⟩ := h
  refine ⟨curr, signature, hdata, BoundedVec.tryFrom_eq_some.mp hsignature, ?_⟩
  simp [onSignedProposal, ensure, okOr, bind, Except.bind, hsigned, hkind, hkey, hnone, hcurr,
    hdata, hsignature, hunused]

def AcceptsRefresh (m : Metadata.State L AccountId World) (p : Proposal L) : Prop :=
  m.nextDkgPublicKey.isSome = true ∧ m.nextPublicKeySignature = none ∧
    carriesRefresh m p = true

theorem onSignedProposal_ok_cases {p : Proposal L} {m' : Metadata.State L AccountId World}
    (h : onSignedProposal p m = .ok m') : m' = m ∨ AcceptsRefresh m p := by
  simp only [onSignedProposal, bind_eq_ok, ensure_eq_ok] at h
  obtain ⟨_, hsigned, h⟩ := h
  split at h
  · simp only [bind_eq_ok, ensure_eq_ok, okOr_eq_ok] at h
    obtain ⟨_, hkey, _, hnone, curr, hcurr, _, hdata, signature, hsignature, _, hunused, -⟩ := h
    refine .inr ⟨hkey, hnone, ?_⟩
    simp only [carriesRefresh, Bool.and_eq_true, decide_eq_true_eq, Option.any_eq_true]
    exact ⟨⟨⟨hsigned, ‹_›⟩, curr, hcurr, hdata⟩, signature, hsignature, hunused⟩
  · exact .inl (Except.ok.inj h).symm

variable [DecidableEq AccountId] (cfg : Metadata.Config L AccountId World)

theorem step_signedProposal_eq_self {p : Proposal L} (h : ¬AcceptsRefresh m p) :
    step cfg m (.signedProposal p) = m := by
  change commit m (onSignedProposal p m) = m
  cases hsigned : onSignedProposal p m with
  | error fault => rfl
  | ok m' =>
      rcases onSignedProposal_ok_cases hsigned with rfl | haccepts
      · rfl
      · exact absurd haccepts h

theorem run_signedProposals_eq_self {ps : List (Proposal L)}
    (h : ∀ p ∈ ps, ¬AcceptsRefresh m p) :
    run (step cfg) m (ps.map .signedProposal) = m := by
  induction ps with
  | nil => rfl
  | cons p ps ih =>
      rw [List.map_cons, run_cons, step_signedProposal_eq_self cfg (h p List.mem_cons_self)]
      exact ih fun q hq => h q (List.mem_cons_of_mem p hq)

theorem run_signedProposals_first {ps : List (Proposal L)} {p : Proposal L}
    (hkey : m.nextDkgPublicKey.isSome = true) (hnone : m.nextPublicKeySignature = none)
    (hfind : ps.find? (carriesRefresh m) = some p) :
    ∃ (curr : RefreshProposal) (signature : Signature L), curr.encode = p.data ∧
      signature.toList = p.signature.getD [] ∧
      run (step cfg) m (ps.map .signedProposal) = { m with
        nextPublicKeySignature := some signature
        currentRefreshProposal := some curr
        pendingRefreshProposal := none } := by
  obtain ⟨hcarries, pre, post, rfl, hpre⟩ := List.find?_eq_some_iff_append.mp hfind
  obtain ⟨curr, signature, hdata, hsignature, hstored⟩ :=
    onSignedProposal_carriesRefresh hkey hnone hcarries
  refine ⟨curr, signature, hdata, hsignature, ?_⟩
  have hbefore : run (step cfg) m (pre.map .signedProposal) = m := by
    refine run_signedProposals_eq_self cfg ?_
    rintro q hq ⟨-, -, hcarries'⟩
    simpa [hcarries'] using hpre q hq
  have hstep : step cfg m (.signedProposal p) = _ := congrArg (commit m) hstored
  rw [List.map_append, List.map_cons, run_append, hbefore, run_cons, hstep]
  refine run_signedProposals_eq_self cfg ?_
  rintro q - ⟨-, hsome, -⟩
  cases hsome

end Metadata

/-- A signature that becomes stored is by the DKG, over the current refresh proposal. -/
def StoresDkgSignature (crypto : Crypto) (m m' : Metadata.State L AccountId World) : Prop :=
  m.nextPublicKeySignature = none → ∀ signature ∈ m'.nextPublicKeySignature,
    ∃ curr ∈ m'.currentRefreshProposal,
      SignedByDkg crypto m'.dkgKey signature.toList curr.encode

instance (crypto : Crypto) (m m' : Metadata.State L AccountId World) :
    Decidable (StoresDkgSignature crypto m m') := by
  unfold StoresDkgSignature
  infer_instance

def SubmitsDkgSignature [Inhabited Info] (w : Wiring L AccountId World)
    (r : Rest w Info) (props : List (SignedProposalBatch L)) : Prop :=
  r.metadata.nextDkgPublicKey.isSome = true → r.metadata.nextPublicKeySignature = none →
    ∀ p ∈ ((signedBatches (proposalHandler w) r props).flatMap
        fun batch => batch.proposals.toList).find? (carriesRefresh r.metadata),
      SignedByDkg w.metadata.crypto r.metadata.dkgKey (p.signature.getD []) p.data

section Wired

variable [DecidableEq AccountId] [Inhabited Info]

theorem storesDkgSignature_run_iff (cfg : Metadata.Config L AccountId World)
    (m : Metadata.State L AccountId World) (ps : List (Proposal L)) :
    StoresDkgSignature cfg.crypto m (run (step cfg) m (ps.map .signedProposal)) ↔
      (m.nextDkgPublicKey.isSome = true → m.nextPublicKeySignature = none →
        ∀ p ∈ ps.find? (carriesRefresh m),
          SignedByDkg cfg.crypto m.dkgKey (p.signature.getD []) p.data) := by
  have hself : (∀ p ∈ ps, ¬AcceptsRefresh m p) →
      StoresDkgSignature cfg.crypto m (run (step cfg) m (ps.map .signedProposal)) := by
    intro hnever hnone signature hsignature
    rw [run_signedProposals_eq_self cfg hnever, hnone] at hsignature
    cases hsignature
  by_cases hready : m.nextDkgPublicKey.isSome = true ∧ m.nextPublicKeySignature = none
  · obtain ⟨hkey, hnone⟩ := hready
    simp only [hkey, hnone, forall_const]
    cases hfind : ps.find? (carriesRefresh m) with
    | none =>
        refine iff_of_true (hself ?_) nofun
        rintro p hp ⟨-, -, hcarries⟩
        exact List.find?_eq_none.mp hfind p hp hcarries
    | some p =>
        obtain ⟨curr, signature, hdata, hsignature, hrun⟩ :=
          run_signedProposals_first cfg hkey hnone hfind
        rw [hrun]
        constructor
        · intro hstores q hq
          obtain rfl := Option.some.inj hq
          obtain ⟨curr', hcurr', hsigned⟩ := hstores hnone signature rfl
          obtain rfl := Option.some.inj hcurr'
          rw [← hsignature, ← hdata]
          exact hsigned
        · intro hsubmits _ signature' hsignature'
          obtain rfl := Option.some.inj hsignature'
          refine ⟨curr, rfl, ?_⟩
          rw [hsignature, hdata]
          exact hsubmits p rfl
  · refine iff_of_true (hself ?_) (fun hkey hnone => absurd ⟨hkey, hnone⟩ hready)
    rintro p - ⟨hkey, hnone, -⟩
    exact hready ⟨hkey, hnone⟩

/-- A submission stores only signatures by the DKG exactly if, in an accepted one, the
proposal that carries the refresh proposal has such a signature. -/
theorem storesDkgSignature_submit_iff (w : Wiring L AccountId World)
    (s : ProposalHandler.State L (Rest w Info)) (origin : Origin AccountId)
    (props : List (SignedProposalBatch L)) :
    StoresDkgSignature w.metadata.crypto s.rest.metadata
        (ProposalHandler.step (proposalHandler w) s
          (.submitSignedProposals origin props)).rest.metadata ↔
      (ProposalHandler.Accepted (proposalHandler w) s (.submitSignedProposals origin props) →
        SubmitsDkgSignature w s.rest props) := by
  rcases ProposalHandler.step_cases (proposalHandler w) s
    (.submitSignedProposals origin props) with ⟨hrejected, hsame⟩ | ⟨haccepted, hdispatch⟩
  · rw [hsame]
    refine iff_of_true ?_ (fun haccepted => absurd haccepted hrejected)
    intro hnone signature hsignature
    rw [hnone] at hsignature
    cases hsignature
  · have hsubmitted := submitSignedProposals_ok (keepsDkgKey_proposalHandler w) origin hdispatch
    rw [notifySigned_metadata hsubmitted.notified, forall_prop_of_true haccepted]
    exact storesDkgSignature_run_iff w.metadata s.rest.metadata _

end Wired

def sampleRefreshQueued : ProposalHandler.State runtimeLimits (Rest sampleWiring Unit) :=
  run (ProposalHandler.step sampleHandler) (ProposalHandler.State.empty sampleRest)
    [.environment { sampleRest with
        metadata := run (step sampleConfig) sampleRest.metadata
          [.submitNextPublicKey .none (sampleSubmission 9 1), .initializeBlock 1] },
      .handleUnsignedProposal (.unsigned .refresh
        ((BoundedVec.tryFrom (sampleRefresh 9 1 2).encode).getD default)),
      .onIdle 2 sampleWeight]

theorem storesDkgSignature_fails_with_inner_signature :
    ¬StoresDkgSignature sampleCrypto sampleRefreshQueued.rest.metadata
      (ProposalHandler.step sampleHandler sampleRefreshQueued
        (.submitSignedProposals .none
          [sampleBatch 0 [sampleSigned (sampleRefresh 9 1 2) 8] 7])).rest.metadata := by
  decide +kernel

end DkgSubstrate.RefreshSignature
