import DkgSubstrate.MetadataStep
import DkgSubstrate.RefreshSignature

/-!
Whether a signature of a refresh proposal is accepted again.  A rotation records the signature
of the key that it replaces, not the one that it makes active, and only as long as there is
room for it.
-/

namespace DkgSubstrate.SignatureReplay

open DkgSubstrate.Dispatch
open DkgSubstrate.Metadata
open DkgSubstrate.MetadataEffects
open DkgSubstrate.MetadataRotation
open DkgSubstrate.MetadataStep
open DkgSubstrate.Primitives
open DkgSubstrate.Proposals
open DkgSubstrate.RefreshSignature
open DkgSubstrate.Runs
open DkgSubstrate.SampleRuntime
open DkgSubstrate.Words

variable {L : Limits} {AccountId World : Type}

def acceptedSignature (s : State L AccountId World) :
    Call L AccountId World → Option (Signature L)
  | .signedProposal p =>
      if p.kind = .refresh then
        match onSignedProposal p s with
        | .ok s' => s'.nextPublicKeySignature
        | .error _ => none
      else none
  | _ => none

/-- There is room for the signature of the active key, or it is recorded. -/
def HasRoom (s : State L AccountId World) : Prop :=
  s.usedSignatures.length < L.maxSignatureLength ∨
    s.dkgPublicKeySignature ∈ s.usedSignatures.toList

instance (s : State L AccountId World) : Decidable (HasRoom s) :=
  inferInstanceAs (Decidable (_ ∨ _))

section Step

variable [DecidableEq AccountId] (cfg : Config L AccountId World)

def signatureHistory : State L AccountId World → List (Call L AccountId World) →
    List (Signature L) :=
  trace (step cfg) fun s call => (acceptedSignature s call).toList

/-- The signature of the active key is not submitted again, no stored signature is dropped,
and a rotation can record the signature of the active key. -/
def Recalls (s : State L AccountId World) : Call L AccountId World → Prop
  | .signedProposal p => AcceptsRefresh s p →
      p.signature.getD [] ≠ s.dkgPublicKeySignature.toList
  | .forceChangeAuthorities origin => cfg.forceOrigin origin = true →
      s.nextDkgPublicKey.isSome = true → s.nextPublicKeySignature = none ∧ HasRoom s
  | .triggerEmergencyKeygen origin => cfg.forceOrigin origin = true →
      s.nextPublicKeySignature = none
  | .newSession _ _ => (rotationKeys false s).isSome = true → HasRoom s
  | _ => True

instance (s : State L AccountId World) (call : Call L AccountId World) :
    Decidable (Recalls cfg s call) := by
  unfold Recalls AcceptsRefresh
  split <;> infer_instance

def Remembered (s : State L AccountId World) (signature : Signature L) : Prop :=
  signature ∈ s.usedSignatures.toList ∨ signature = s.dkgPublicKeySignature ∨
    s.nextPublicKeySignature = some signature

variable {cfg} {s s' : State L AccountId World}

omit [DecidableEq AccountId] in
theorem mem_recorded {signature : Signature L} (hroom : HasRoom s)
    (h : signature ∈ s.usedSignatures.toList ∨ signature = s.dkgPublicKeySignature) :
    signature ∈ ((s.usedSignatures.tryPush s.dkgPublicKeySignature).getD
      s.usedSignatures).toList := by
  rw [BoundedVec.tryPush]
  cases hpush : (BoundedVec.tryFrom (s.usedSignatures.toList ++ [s.dkgPublicKeySignature]) :
      Option (BoundedVec (Signature L) L.maxSignatureLength)) with
  | some used =>
      rw [Option.getD_some, BoundedVec.tryFrom_eq_some.mp hpush, List.mem_append,
        List.mem_singleton]
      exact h
  | none =>
      rw [Option.getD_none]
      have hfull := BoundedVec.tryFrom_eq_none.mp hpush
      rw [List.length_append, List.length_singleton] at hfull
      rcases hroom with hroom | hrecorded
      · have hlength : s.usedSignatures.toList.length < L.maxSignatureLength := hroom
        omega
      · rcases h with h | rfl
        · exact h
        · exact hrecorded

theorem remembered_dispatch {call : Call L AccountId World} {signature : Signature L}
    (h : dispatch cfg s call = .ok s') (hrecalls : Recalls cfg s call)
    (hremembered : Remembered s signature) : Remembered s' signature := by
  obtain ⟨t, heffect, hcore⟩ := dispatch_effect h
  change Remembered (core s') signature
  rw [hcore]
  cases heffect with
  | forcedRotation world hforce hkey hbest hpub hnonce =>
      obtain ⟨hnone, hroom⟩ := hrecalls hforce (hkey ▸ rfl)
      refine .inl (mem_recorded hroom ?_)
      rcases hremembered with hused | hactive | hnext
      · exact .inl hused
      · exact .inr hactive
      · rw [hnone] at hnext
        cases hnext
  | triggerEmergencyKeygen hforce =>
      rcases hremembered with hused | hactive | hnext
      · exact .inl hused
      · exact .inr (.inl hactive)
      · rw [hrecalls hforce] at hnext
        cases hnext
  | signedRefresh hsigned hkind hkey hnone hpending hdata hsignature hunused =>
      rcases hremembered with hused | hactive | hnext
      · exact .inl hused
      · exact .inr (.inl hactive)
      · rw [hnone] at hnext
        cases hnext
  | @sessionRotation _ _ _ _ _ _ _ _ key signature' hkey hsig hnext hbest hactive =>
      have hroom : HasRoom s := hrecalls (by simp [rotationKeys, hkey, hsig])
      rcases hremembered with hused | hactive | hnext
      · exact .inl (mem_recorded hroom (.inl hused))
      · exact .inl (mem_recorded hroom (.inr hactive))
      · rw [hsig] at hnext
        exact .inr (.inl (Option.some.inj hnext).symm)
  | _ => exact hremembered

theorem remembered_step {call : Call L AccountId World} {signature : Signature L}
    (hrecalls : Recalls cfg s call) (hremembered : Remembered s signature) :
    Remembered (step cfg s call) signature :=
  commit_cases (P := fun t => Remembered t signature) hremembered
    fun _ h => remembered_dispatch h hrecalls hremembered

variable (cfg) in
theorem mem_acceptedSignature {call : Call L AccountId World} {signature : Signature L}
    (h : signature ∈ acceptedSignature s call) :
    ∃ p, call = .signedProposal p ∧ AcceptsRefresh s p ∧
      signature.toList = p.signature.getD [] ∧ signature ∉ s.usedSignatures.toList ∧
      s.nextPublicKeySignature = none ∧
      (step cfg s call).nextPublicKeySignature = some signature := by
  cases call with
  | signedProposal p =>
      simp only [acceptedSignature] at h
      split at h
      · rename_i hkind
        cases hsigned : onSignedProposal p s with
        | error fault =>
            rw [hsigned] at h
            cases h
        | ok s' =>
            rw [hsigned] at h
            have hstep : step cfg s (.signedProposal p) = s' := congrArg (commit s) hsigned
            have heffect : Effect cfg s (.signedProposal p) s' := onSignedProposal_ok hsigned
            cases heffect with
            | idle hidle => cases hidle
            | signedOther hother => exact absurd hkind hother
            | @signedRefresh _ curr stored hproposal _ hkey hnone hpending hdata hstored hunused =>
                obtain rfl : stored = signature := Option.some.inj h
                refine ⟨p, rfl, ?_, hstored, hunused, hnone, by rw [hstep]⟩
                rcases onSignedProposal_ok_cases hsigned with heq | haccepts
                · have hsome := congrArg State.nextPublicKeySignature heq
                  rw [hnone] at hsome
                  cases hsome
                · exact haccepts
      · cases h
  | _ => cases h

end Step

/-- No signature is accepted twice in a run that recalls them. -/
theorem signatures_accepted_once [DecidableEq AccountId] (cfg : Config L AccountId World)
    (s : State L AccountId World) (calls : List (Call L AccountId World))
    (hrecalls : StepsMeet (step cfg) (Recalls cfg) s calls) :
    (signatureHistory cfg s calls).Nodup := by
  refine (pairwise_trace acceptedSignature (· ≠ ·) Remembered ?_ ?_ ?_ hrecalls).1
  · rintro t call hcall signature haccepted earlier hremembered rfl
    obtain ⟨p, rfl, haccepts, hsignature, hunused, hnone, -⟩ :=
      mem_acceptedSignature cfg haccepted
    rcases hremembered with hused | hactive | hnext
    · exact hunused hused
    · exact hcall haccepts (hactive ▸ hsignature.symm)
    · rw [hnone] at hnext
      cases hnext
  · intro t call hcall signature hremembered
    exact remembered_step hcall hremembered
  · intro t call hcall signature haccepted
    obtain ⟨p, -, -, -, -, -, hstored⟩ := mem_acceptedSignature cfg haccepted
    exact .inr (.inr hstored)

def sampleSignedWith (proposal : RefreshProposal) (signature : Bytes) : Proposal runtimeLimits :=
  .signed .refresh ((BoundedVec.tryFrom proposal.encode).getD default) signature

def sampleRefreshes (first second : Bytes) : List (Call runtimeLimits ℕ Unit) :=
  [.submitPublicKey .none (sampleSubmission 7 2),
    .submitNextPublicKey .none (sampleSubmission 9 2), .initializeBlock 1,
    .signedProposal (sampleSignedWith (sampleRefresh 9 1 2) first),
    .newSession (sampleValidators 2) (sampleValidators 2),
    .submitNextPublicKey .none (sampleSubmission 11 2), .initializeBlock 2,
    .signedProposal (sampleSignedWith (sampleRefresh 11 2 2) second),
    .newSession (sampleValidators 2) (sampleValidators 2)]

def sampleTwoSignatures : List (Call runtimeLimits ℕ Unit) :=
  sampleRefreshes (sampleSignature 7 (sampleRefresh 9 1 2).encode)
    (sampleSignature 9 (sampleRefresh 11 2 2).encode)

theorem sampleRefreshes_once :
    (signatureHistory sampleConfig (sampleGenesis 2 1 2) sampleTwoSignatures).length = 2 ∧
      (signatureHistory sampleConfig (sampleGenesis 2 1 2) sampleTwoSignatures).Nodup :=
  ⟨by decide +kernel, signatures_accepted_once _ _ _ (by decide +kernel)⟩

theorem sampleRefreshes_replayed :
    let signature := sampleSignature 7 (sampleRefresh 9 1 2).encode
    (signatureHistory sampleConfig (sampleGenesis 2 1 2)
      (sampleRefreshes signature signature)).map BoundedVec.toList = [signature, signature] := by
  decide +kernel

end DkgSubstrate.SignatureReplay
