import DkgSubstrate.BridgeRegistry
import DkgSubstrate.MetadataRotation
import DkgSubstrate.ProposalHandler
import DkgSubstrate.Runs

/-!
The wiring of the pallets in the runtime: the proposal handler reads the DKG key from the
metadata pallet and hands signed proposals first to the bridge registry and then to the
metadata pallet.
-/

namespace DkgSubstrate.Runtime

open DkgSubstrate.Dispatch
open DkgSubstrate.Metadata
open DkgSubstrate.MetadataRotation
open DkgSubstrate.Primitives
open DkgSubstrate.Proposals
open DkgSubstrate.Runs
open DkgSubstrate.Words

structure Wiring (L : Limits) (AccountId World : Type) where
  metadata : Metadata.Config L AccountId World
  bridges : BridgeRegistry.Config
  decoders : Decoders
  unsignedProposalExpiry : ℕ
  chainBytes : TypedChainId → Bytes
  dbRead : ℕ
  dbWrite : ℕ
  reportOffence : ProposalHandler.DKGMisbehaviorOffenceType → World → World

structure Rest {L : Limits} {AccountId World : Type} (w : Wiring L AccountId World)
    (Info : Type) where
  metadata : Metadata.State L AccountId World
  bridges : BridgeRegistry.State w.bridges Info

variable {L : Limits} {AccountId World Info : Type} (w : Wiring L AccountId World)

/-- The handlers of a signed proposal in their order; the first error ends the calls. -/
def onSigned [Inhabited Info] (proposal : Proposal L) (r : Rest w Info) :
    Outcome (Rest w Info × Except DispatchError Unit) :=
  match BridgeRegistry.onSignedProposal proposal r.bridges with
  | .error fault => .error fault
  | .ok (bridges, .error e) => .ok ({ r with bridges := bridges }, .error e)
  | .ok (bridges, .ok ()) =>
      match MetadataRotation.onSignedProposal proposal r.metadata with
      | .ok metadata => .ok (⟨metadata, bridges⟩, .ok ())
      | .error (.error e) => .ok ({ r with bridges := bridges }, .error e)
      | .error .panic => .error .panic

def proposalHandler [Inhabited Info] :
    ProposalHandler.Config L AccountId (Rest w Info) where
  crypto := w.metadata.crypto
  decoders := w.decoders
  forceOrigin := w.metadata.forceOrigin
  unsignedProposalExpiry := w.unsignedProposalExpiry
  chainBytes := w.chainBytes
  dbRead := w.dbRead
  dbWrite := w.dbWrite
  blockNumber r := r.metadata.blockNumber
  dkgKey r := r.metadata.dkgKey
  signedProposalHandler := onSigned w
  reportOffence offence r :=
    { r with metadata :=
      { r.metadata with world := w.reportOffence offence r.metadata.world } }

variable {w} [DecidableEq AccountId] [Inhabited Info]

theorem step_signedProposal (p : Proposal L) (m : Metadata.State L AccountId World) :
    step w.metadata m (.signedProposal p) = commit m (onSignedProposal p m) :=
  rfl

/-- A proposal that is not a signed refresh proposal does nothing in the metadata
pallet. -/
theorem step_signedProposal_other {p : Proposal L} (m : Metadata.State L AccountId World)
    (h : p.isSigned = true → p.kind ≠ .refresh) :
    step w.metadata m (.signedProposal p) = m := by
  rw [step_signedProposal]
  rw [onSignedProposal]
  by_cases hsigned : p.isSigned = true
  · simp [ensure, hsigned, h hsigned, bind, Except.bind]
  · simp [ensure, hsigned, bind, Except.bind]

theorem onSigned_metadata {p : Proposal L} {r r' : Rest w Info}
    {result : Except DispatchError Unit} (h : onSigned w p r = .ok (r', result)) :
    r'.metadata = step w.metadata r.metadata (.signedProposal p) := by
  rw [onSigned] at h
  cases hbridges : BridgeRegistry.onSignedProposal p r.bridges with
  | error fault => simp [hbridges] at h
  | ok outcome =>
      obtain ⟨bridges, bridgesResult⟩ := outcome
      cases bridgesResult with
      | error e =>
          have hother : p.isSigned = true → p.kind ≠ .refresh := by
            intro hsigned hkind
            rw [BridgeRegistry.onSignedProposal_refresh hsigned hkind] at hbridges
            cases hbridges
          rw [step_signedProposal_other r.metadata hother]
          simp only [hbridges, Except.ok.injEq, Prod.mk.injEq] at h
          rw [← h.1]
      | ok _ =>
          rw [step_signedProposal]
          cases hmetadata : onSignedProposal p r.metadata with
          | ok metadata =>
              simp only [hbridges, hmetadata, Except.ok.injEq, Prod.mk.injEq] at h
              rw [← h.1]
              rfl
          | error fault =>
              cases fault with
              | error e =>
                  simp only [hbridges, hmetadata, Except.ok.injEq, Prod.mk.injEq] at h
                  rw [← h.1]
                  rfl
              | panic => simp [hbridges, hmetadata] at h

theorem notifySigned_metadata {ps : List (Proposal L)} {r r' : Rest w Info}
    (h : ProposalHandler.notifySigned (proposalHandler w) ps r = .ok r') :
    r'.metadata = run (step w.metadata) r.metadata (ps.map .signedProposal) := by
  induction ps generalizing r with
  | nil =>
      rw [← Except.ok.inj h]
      rfl
  | cons p ps ih =>
      simp only [ProposalHandler.notifySigned, bind_eq_ok] at h
      obtain ⟨⟨next, result⟩, hnext, hrest⟩ := h
      rw [ih hrest, onSigned_metadata hnext]
      rfl

theorem dkgKey_signedProposal (p : Proposal L) (m : Metadata.State L AccountId World) :
    (step w.metadata m (.signedProposal p)).dkgKey = m.dkgKey := by
  rw [step_signedProposal]
  refine commit_cases (P := fun t => State.dkgKey t = m.dkgKey) rfl ?_
  intro m' h
  simp only [onSignedProposal, bind_eq_ok] at h
  obtain ⟨_, -, h⟩ := h
  split at h
  · simp only [bind_eq_ok] at h
    obtain ⟨_, -, _, -, curr, -, _, -, signature, -, _, -, h⟩ := h
    rw [← Except.ok.inj h]
    rfl
  · rw [← Except.ok.inj h]

end DkgSubstrate.Runtime
