import DkgSubstrate.MetadataStep
import DkgSubstrate.SampleRuntime

/-!
The refresh proposal that the stored signature belongs to.
-/

namespace DkgSubstrate.RefreshCoherence

open DkgSubstrate.Metadata
open DkgSubstrate.MetadataEffects
open DkgSubstrate.MetadataRotation
open DkgSubstrate.MetadataStep
open DkgSubstrate.Primitives
open DkgSubstrate.Proposals
open DkgSubstrate.Runs
open DkgSubstrate.SampleRuntime
open DkgSubstrate.Words

variable {L : Limits} {AccountId World : Type}

def HandsOver (crypto : Crypto) (s : State L AccountId World) (proposal : RefreshProposal) :
    Prop :=
  ∃ key ∈ s.nextDkgPublicKey,
    decompressPublicKey crypto key.2.toList = some proposal.pubKey ∧
    proposal.nonce = s.refreshNonce + 1

/-- If there is a signature for the next key, then the current refresh proposal is one
for that key. -/
def RefreshCoherent (crypto : Crypto) (s : State L AccountId World) : Prop :=
  s.nextPublicKeySignature.isSome = true →
    ∃ proposal ∈ s.currentRefreshProposal, HandsOver crypto s proposal

instance (crypto : Crypto) (s : State L AccountId World) (proposal : RefreshProposal) :
    Decidable (HandsOver crypto s proposal) := by
  unfold HandsOver
  infer_instance

instance (crypto : Crypto) (s : State L AccountId World) :
    Decidable (RefreshCoherent crypto s) := by
  unfold RefreshCoherent
  infer_instance

def PendingCoherent (crypto : Crypto) (s : State L AccountId World) : Prop :=
  ∀ curr, s.pendingRefreshProposal = some curr → s.nextDkgPublicKey.isSome = true →
    HandsOver crypto s curr

/-- A signed refresh proposal comes back while the pending one is for the next key. -/
def ReturnsInTime (crypto : Crypto) (s : State L AccountId World) :
    Call L AccountId World → Prop
  | .signedProposal proposal => proposal.kind = .refresh → PendingCoherent crypto s
  | _ => True

def SubmitsWithoutPending (s : State L AccountId World) : Call L AccountId World → Prop
  | .submitNextPublicKey _ _ => s.pendingRefreshProposal = none
  | .initializeBlock _ => s.refreshNonce + 1 < 2 ^ 32
  | _ => True

section Coherent

variable {crypto : Crypto} {s : State L AccountId World}

theorem refreshCoherent_of_unsigned (h : s.nextPublicKeySignature = none) :
    RefreshCoherent crypto s := by
  intro hsome
  rw [h] at hsome
  cases hsome

theorem pendingCoherent_of_no_key (h : s.nextDkgPublicKey = none) :
    PendingCoherent crypto s := by
  intro curr _ hsome
  rw [h] at hsome
  cases hsome

theorem RefreshCoherent.unsigned (h : RefreshCoherent crypto s)
    (hkey : s.nextDkgPublicKey = none) : s.nextPublicKeySignature = none := by
  cases hsig : s.nextPublicKeySignature with
  | none => rfl
  | some signature =>
      obtain ⟨proposal, -, key, hsome, -⟩ := h (by rw [hsig]; rfl)
      rw [hkey] at hsome
      cases hsome

theorem RefreshCoherent.unsigned_of_no_keys (h : RefreshCoherent crypto s)
    (hkeys : rotationKeys false s = none) : s.nextPublicKeySignature = none := by
  cases hkey : s.nextDkgPublicKey with
  | none => exact h.unsigned hkey
  | some key => simpa [rotationKeys, hkey] using hkeys

theorem returnsInTime_of_pendingCoherent {call : Call L AccountId World}
    (h : PendingCoherent crypto s) : ReturnsInTime crypto s call := by
  cases call with
  | signedProposal proposal => exact fun _ => h
  | _ => trivial

end Coherent

section Steps

variable [DecidableEq AccountId] {cfg : Config L AccountId World}
variable {s : State L AccountId World} {call : Call L AccountId World}

theorem refreshCoherent_step_iff (h : RefreshCoherent cfg.crypto s) :
    RefreshCoherent cfg.crypto (step cfg s call) ↔
      (Accepted cfg s call → ReturnsInTime cfg.crypto s call) := by
  refine step_iff_of_effect (Q := RefreshCoherent cfg.crypto) (fun _ => Iff.rfl) h ?_
  intro t heffect
  cases heffect with
  | submitNextPublicKey hnone =>
      exact iff_of_true (refreshCoherent_of_unsigned (h.unsigned hnone)) trivial
  | forcedShift world hforce hkey hbest =>
      exact iff_of_true (refreshCoherent_of_unsigned (h.unsigned hkey)) trivial
  | forcedRotation world hforce hkey hbest hpub hnonce =>
      exact iff_of_true (refreshCoherent_of_unsigned rfl) trivial
  | triggerEmergencyKeygen hforce =>
      exact iff_of_true (refreshCoherent_of_unsigned rfl) trivial
  | sessionShift world hkeys hnext hbest =>
      exact iff_of_true (refreshCoherent_of_unsigned (h.unsigned_of_no_keys hkeys)) trivial
  | sessionRotation world hkey hsig hnext hbest hactive =>
      exact iff_of_true (refreshCoherent_of_unsigned rfl) trivial
  | signedOther hkind => exact iff_of_true h (fun hrefresh => absurd hrefresh hkind)
  | signedRefresh hsigned hkind hkey hnone hpending hdata hsignature hunused =>
      constructor
      · intro hcoherent _ curr hcurr _
        obtain ⟨proposal, hproposal, hover⟩ := hcoherent rfl
        rw [hpending] at hcurr
        obtain rfl := Option.some.inj hcurr
        obtain rfl := Option.some.inj hproposal
        exact hover
      · intro hintime _
        exact ⟨_, rfl, hintime hkind _ hpending hkey⟩
  | idle hidle =>
      refine iff_of_true h ?_
      cases call with
      | signedProposal proposal => cases hidle
      | _ => trivial
  | _ => exact iff_of_true h trivial

theorem pendingCoherent_step (hpending : PendingCoherent cfg.crypto s)
    (hcall : SubmitsWithoutPending s call) :
    PendingCoherent cfg.crypto (step cfg s call) := by
  refine keeps_step_of_effect (Q := PendingCoherent cfg.crypto) (fun _ => Iff.rfl) hpending ?_
  intro t heffect
  cases heffect with
  | submitNextPublicKey hnone =>
      intro curr hcurr
      rw [show s.pendingRefreshProposal = none from hcall] at hcurr
      cases hcurr
  | forcedShift world hforce hkey hbest => exact pendingCoherent_of_no_key hkey
  | forcedRotation world hforce hkey hbest hpub hnonce =>
      exact pendingCoherent_of_no_key rfl
  | triggerEmergencyKeygen hforce => exact pendingCoherent_of_no_key rfl
  | sessionRotation world hkey hsig hnext hbest hactive =>
      exact pendingCoherent_of_no_key rfl
  | refreshCreated hkey hsig hpub hnonce =>
      intro curr hcurr _
      obtain rfl := Option.some.inj hcurr
      refine ⟨_, hkey, hpub, ?_⟩
      rw [hnonce]
      exact wrappingAdd_of_lt hcall
  | signedRefresh hsigned hkind hkey hnone hpending' hdata hsignature hunused =>
      intro curr hcurr
      cases hcurr
  | _ => exact hpending

end Steps

/-- A run keeps the refresh coherent exactly if every signed refresh proposal that is
accepted in it comes back in time.  They all do when no next key is submitted while a
refresh proposal is pending. -/
theorem refreshCoherent_run [DecidableEq AccountId] (cfg : Config L AccountId World)
    (genesis : GenesisConfig AccountId) (validators : List (AccountId × Public))
    (world : World) (s : State L AccountId World) (calls : List (Call L AccountId World))
    (hvalidators : validators ≠ [])
    (hgenesis : genesisState cfg genesis validators world = .ok s) :
    (StepsMeet (step cfg) SubmitsWithoutPending s calls →
      Always (step cfg) (RefreshCoherent cfg.crypto) s calls) ∧
    (Always (step cfg) (RefreshCoherent cfg.crypto) s calls ↔
      StepsMeet (step cfg)
        (fun t call => Accepted cfg t call → ReturnsInTime cfg.crypto t call) s calls) := by
  obtain ⟨hkey, hsig⟩ : s.nextDkgPublicKey = none ∧ s.nextPublicKeySignature = none := by
    obtain ⟨world', authorities, accounts, best, -, -, -, -, rfl⟩ :=
      genesisState_ok hvalidators hgenesis
    exact ⟨rfl, rfl⟩
  have hstep : ∀ t call, True → RefreshCoherent cfg.crypto t → True →
      (RefreshCoherent cfg.crypto (step cfg t call) ↔
        (Accepted cfg t call → ReturnsInTime cfg.crypto t call)) :=
    fun t call _ h _ => refreshCoherent_step_iff h
  have hiff := always_iff_stepsMeet (fun _ => True) (fun _ _ _ _ _ _ => trivial) hstep
    trivial (refreshCoherent_of_unsigned hsig) (stepsMeet_true _ s calls)
  refine ⟨?_, hiff⟩
  intro hsubmits
  have hpending := always_of_invariant (PendingCoherent cfg.crypto)
    (fun t call h hcall => pendingCoherent_step h hcall)
    (pendingCoherent_of_no_key hkey) hsubmits
  refine hiff.mpr ?_
  intro pre call post hsplit _
  exact returnsInTime_of_pendingCoherent (hpending pre (call :: post) hsplit)

def sampleRefreshRun : List (Call runtimeLimits ℕ Unit) :=
  [.submitNextPublicKey .none (sampleSubmission 9 1), .initializeBlock 1,
    .signedProposal (sampleSigned (sampleRefresh 9 1 2) 7)]

theorem refreshCoherent_sampleRefreshRun :
    (run (step sampleConfig) (sampleGenesis 2 1 2)
        sampleRefreshRun).nextPublicKeySignature.isSome = true ∧
      RefreshCoherent sampleCrypto
        (run (step sampleConfig) (sampleGenesis 2 1 2) sampleRefreshRun) := by
  refine ⟨by decide +kernel, ?_⟩
  refine (refreshCoherent_run sampleConfig (sampleGenesisConfig 2 1 2)
    (sampleValidators 2) () (sampleGenesis 2 1 2) sampleRefreshRun (by decide) rfl).1 ?_
    sampleRefreshRun [] (by simp)
  refine stepsMeet_cons.mpr ⟨rfl, stepsMeet_cons.mpr ⟨?_, stepsMeet_cons.mpr
    ⟨trivial, stepsMeet_nil⟩⟩⟩
  change _ < _
  decide +kernel

theorem refreshCoherent_fails_after_emergency :
    ¬RefreshCoherent sampleCrypto (run (step sampleConfig) (sampleGenesis 2 1 2)
      [.submitNextPublicKey .none (sampleSubmission 9 1), .initializeBlock 1,
        .triggerEmergencyKeygen .root, .submitNextPublicKey .none (sampleSubmission 8 1),
        .signedProposal (sampleSigned (sampleRefresh 9 1 2) 7)]) := by
  decide +kernel

end DkgSubstrate.RefreshCoherence
