import DkgSubstrate.SignedBatches

/-!
When a submission of signed batches panics.  The handlers of signed proposals get all proposals
of a batch, of which only the first one has been decoded.
-/

namespace DkgSubstrate.HandlerPanics

open DkgSubstrate.Dispatch
open DkgSubstrate.Primitives
open DkgSubstrate.ProposalHandler
open DkgSubstrate.Proposals
open DkgSubstrate.Runs
open DkgSubstrate.Runtime
open DkgSubstrate.SampleRuntime
open DkgSubstrate.SignedBatches
open DkgSubstrate.Words

section Handler

variable {L : Limits} {AccountId R : Type} (cfg : Config L AccountId R)

/-- The handler returns for the proposals that fit, and panics for all others. -/
structure PanicsUnless (Fits : Proposal L → Prop) : Prop where
  returns : ∀ p r, Fits p → ∃ out, cfg.signedProposalHandler p r = .ok out
  panics : ∀ p r, ¬Fits p → cfg.signedProposalHandler p r = .error .panic

def admits (batch : SignedProposalBatch L) (queue : ProposalQueue L)
    (signed : StorageMap (TypedChainId × ℕ) (SignedProposalBatch L)) :
    Option (TypedChainId × ℕ) :=
  (batchKey cfg batch).filter fun key =>
    queue.containsKey key &&
      validateEcdsaSignature cfg.crypto batch.data batch.signature.toList &&
      (signed.lookup key).isNone

/-- The batches of a submission that pass the checks, one after the other.  Those that are not
signed by the DKG are skipped, and the first one that fails ends the submission. -/
def checkedBatches (dkgKey : Bytes) : List (SignedProposalBatch L) → ProposalQueue L →
    StorageMap (TypedChainId × ℕ) (SignedProposalBatch L) → List (SignedProposalBatch L)
  | [], _, _ => []
  | batch :: props, queue, signed =>
      if SignedByDkg cfg.crypto dkgKey batch.signature.toList batch.data then
        match admits cfg batch queue signed with
        | none => []
        | some key => batch :: checkedBatches dkgKey props
            (removeRefreshBatches cfg key.1 batch.proposals.toList (queue.erase key))
            (signed.insert key batch)
      else checkedBatches dkgKey props queue signed

variable {cfg} {Fits : Proposal L → Prop}

theorem notifySigned_returns (hfits : PanicsUnless cfg Fits) {ps : List (Proposal L)}
    (h : ∀ p ∈ ps, Fits p) (r : R) : ∃ r', notifySigned cfg ps r = .ok r' := by
  induction ps generalizing r with
  | nil => exact ⟨r, rfl⟩
  | cons p ps ih =>
      obtain ⟨hp, hps⟩ := List.forall_mem_cons.mp h
      obtain ⟨⟨next, result⟩, hnext⟩ := hfits.returns p r hp
      obtain ⟨r', hr'⟩ := ih hps next
      refine ⟨r', ?_⟩
      rw [notifySigned, hnext]
      exact hr'

theorem notifySigned_panics (hfits : PanicsUnless cfg Fits) {ps : List (Proposal L)}
    {p : Proposal L} (hmem : p ∈ ps) (hp : ¬Fits p) (r : R) :
    notifySigned cfg ps r = .error .panic := by
  induction ps generalizing r with
  | nil => cases hmem
  | cons q ps ih =>
      by_cases hq : Fits q
      · obtain ⟨⟨next, result⟩, hnext⟩ := hfits.returns q r hq
        have hrest : p ∈ ps := by
          rcases List.mem_cons.mp hmem with rfl | hrest
          · exact absurd hq hp
          · exact hrest
        rw [notifySigned, hnext]
        exact ih hrest next
      · rw [notifySigned, hfits.panics q r hq]
        rfl

theorem handleSignedProposalBatch_eq
    (hdecode : ∀ p : Proposal L, decodeProposalIdentifier cfg.decoders p ≠ .error .panic)
    (batch : SignedProposalBatch L) (s : State L R) :
    match admits cfg batch s.unsignedProposalQueue s.signedProposals with
    | none => ∃ e, handleSignedProposalBatch cfg batch s = .error (.error e)
    | some key => handleSignedProposalBatch cfg batch s =
        (notifySigned cfg batch.proposals.toList s.rest).map fun rest =>
          { s with
            signedProposals := s.signedProposals.insert key batch
            unsignedProposalQueue := removeRefreshBatches cfg key.1 batch.proposals.toList
              (s.unsignedProposalQueue.erase key)
            rest := rest } := by
  rw [handleSignedProposalBatch, admits, batchKey]
  cases batch.proposals.toList.head? with
  | none => exact ⟨_, rfl⟩
  | some first =>
      simp only [decodeIdentifier, okOr, bind, Except.bind]
      cases hid : decodeProposalIdentifier cfg.decoders first with
      | error fault =>
          cases fault with
          | invalid e => exact ⟨_, rfl⟩
          | panic => exact absurd hid (hdecode first)
      | ok id =>
          by_cases hqueued : s.unsignedProposalQueue.containsKey (id.typedChainId,
            batch.batchId) = true
          · by_cases hvalid : validateEcdsaSignature cfg.crypto batch.data
              batch.signature.toList = true
            · by_cases hnew : s.signedProposals.lookup (id.typedChainId, batch.batchId) = none
              · simp only [ensure, hqueued, hvalid, hnew, Option.filter, if_true]
                rfl
              · have hsome : (s.signedProposals.lookup
                  (id.typedChainId, batch.batchId)).isNone = false := by
                  simpa [Option.isSome_iff_ne_none] using hnew
                simp [ensure, hqueued, hvalid, hnew, hsome, Option.filter]
            · simp [ensure, hqueued, hvalid, Option.filter]
          · simp [ensure, hqueued, Option.filter]

theorem ensureSignedByDkg_error {crypto : Crypto} {dkgKey signature data : Bytes}
    (h : ¬SignedByDkg crypto dkgKey signature data) :
    ∃ e, ensureSignedByDkg crypto dkgKey signature data = .error e := by
  cases hensure : ensureSignedByDkg crypto dkgKey signature data with
  | ok _ => exact absurd (ensureSignedByDkg_eq_ok.mp hensure) h
  | error e => exact ⟨e, rfl⟩

theorem submitBatches_panics_iff (hfits : PanicsUnless cfg Fits) (hkeeps : KeepsDkgKey cfg)
    (hdecode : ∀ p : Proposal L, decodeProposalIdentifier cfg.decoders p ≠ .error .panic)
    (props : List (SignedProposalBatch L)) (s : State L R) :
    submitBatches cfg props s = .error .panic ↔
      ∃ batch ∈ checkedBatches cfg (cfg.dkgKey s.rest) props s.unsignedProposalQueue
        s.signedProposals, ∃ p ∈ batch.proposals.toList, ¬Fits p := by
  induction props generalizing s with
  | nil =>
      refine iff_of_false (fun h => by cases h) ?_
      rintro ⟨batch, hbatch, -⟩
      cases hbatch
  | cons batch props ih =>
      rw [submitBatches, checkedBatches]
      by_cases hsigned : SignedByDkg cfg.crypto (cfg.dkgKey s.rest) batch.signature.toList
        batch.data
      · rw [if_pos hsigned]
        have hensure := ensureSignedByDkg_eq_ok.mpr hsigned
        simp only [hensure]
        have hbatch := handleSignedProposalBatch_eq hdecode batch s
        cases hadmits : admits cfg batch s.unsignedProposalQueue s.signedProposals with
        | none =>
            rw [hadmits] at hbatch
            obtain ⟨e, he⟩ := hbatch
            rw [he]
            refine iff_of_false (fun h => by cases h) ?_
            rintro ⟨batch, hbatch, -⟩
            cases hbatch
        | some key =>
            rw [hadmits] at hbatch
            dsimp only at hbatch ⊢
            by_cases hall : ∀ p ∈ batch.proposals.toList, Fits p
            · obtain ⟨rest, hrest⟩ := notifySigned_returns hfits hall s.rest
              rw [hbatch, hrest]
              refine (ih _).trans ?_
              rw [show cfg.dkgKey rest = cfg.dkgKey s.rest from
                notifySigned_dkgKey hkeeps hrest]
              rw [List.exists_mem_cons_iff, or_iff_right]
              rintro ⟨p, hp, hnot⟩
              exact hnot (hall p hp)
            · push Not at hall
              obtain ⟨p, hp, hnot⟩ := hall
              rw [hbatch, notifySigned_panics hfits hp hnot s.rest]
              exact iff_of_true rfl ⟨batch, List.mem_cons_self, p, hp, hnot⟩
      · rw [if_neg hsigned]
        obtain ⟨e, he⟩ := ensureSignedByDkg_error hsigned
        simp only [he]
        exact ih s

end Handler

section Wired

variable {L : Limits} {AccountId World Info : Type} [Inhabited Info]

/-- The data of a signed anchor update has the length of the buffer that it is copied to. -/
def FitsBuffer (cfg : BridgeRegistry.Config) (p : Proposal L) : Prop :=
  p.isSigned = true → p.kind = .anchorUpdate → p.data.length = cfg.anchorUpdateLength

instance (cfg : BridgeRegistry.Config) (p : Proposal L) : Decidable (FitsBuffer cfg p) := by
  unfold FitsBuffer
  infer_instance

theorem bridges_onSignedProposal_returns {cfg : BridgeRegistry.Config} {p : Proposal L}
    (h : FitsBuffer cfg p) (s : BridgeRegistry.State cfg Info) :
    ∃ out, BridgeRegistry.onSignedProposal p s = .ok out := by
  rw [BridgeRegistry.onSignedProposal]
  split
  · exact ⟨_, rfl⟩
  · rename_i hsigned
    split
    · rename_i hkind
      have hlength := h (by simpa using hsigned) hkind
      rw [if_neg (not_not.mpr hlength)]
      split
      · exact ⟨_, rfl⟩
      · exact ⟨_, rfl⟩
    · exact ⟨_, rfl⟩

theorem bridges_onSignedProposal_panics {cfg : BridgeRegistry.Config} {p : Proposal L}
    (h : ¬FitsBuffer cfg p) (s : BridgeRegistry.State cfg Info) :
    BridgeRegistry.onSignedProposal p s = .error .panic := by
  rw [FitsBuffer] at h
  push Not at h
  obtain ⟨hsigned, hkind, hlength⟩ := h
  simp [BridgeRegistry.onSignedProposal, hsigned, hkind, hlength]

theorem metadata_onSignedProposal_ne_panic (p : Proposal L)
    (m : Metadata.State L AccountId World) :
    MetadataRotation.onSignedProposal p m ≠ .error .panic := by
  rw [MetadataRotation.onSignedProposal]
  by_cases hkind : p.kind = .refresh
  · simp [hkind, bind_eq_error]
  · simp [hkind, bind_eq_error]

theorem panicsUnless_proposalHandler (w : Wiring L AccountId World) :
    PanicsUnless (proposalHandler w : Config L AccountId (Rest w Info))
      (FitsBuffer w.bridges) where
  returns p r h := by
    change ∃ out, onSigned w p r = .ok out
    obtain ⟨⟨bridges, result⟩, hbridges⟩ := bridges_onSignedProposal_returns h r.bridges
    rw [onSigned, hbridges]
    cases result with
    | error e => exact ⟨_, rfl⟩
    | ok _ =>
        cases hmetadata : MetadataRotation.onSignedProposal p r.metadata with
        | ok metadata => exact ⟨_, rfl⟩
        | error fault =>
            cases fault with
            | error e => exact ⟨_, rfl⟩
            | panic => exact absurd hmetadata (metadata_onSignedProposal_ne_panic p r.metadata)
  panics p r h := by
    change onSigned w p r = .error .panic
    rw [onSigned, bridges_onSignedProposal_panics h]

/-- A submission of signed batches panics unless every signed anchor update in the batches that
pass the checks fits into the buffer of the bridge registry. -/
theorem submitSignedProposals_ne_panic_iff [DecidableEq AccountId] (w : Wiring L AccountId World)
    (hdecode : ∀ p : Proposal L, decodeProposalIdentifier w.decoders p ≠ .error .panic)
    (origin : Origin AccountId) (props : List (SignedProposalBatch L))
    (s : State L (Rest w Info)) :
    submitSignedProposals (proposalHandler w) origin props s ≠ .error .panic ↔
      (props.length ≤ L.maxProposalsPerBatch →
        ∀ batch ∈ checkedBatches (proposalHandler w : Config L AccountId (Rest w Info))
            s.rest.metadata.dkgKey props s.unsignedProposalQueue s.signedProposals,
          ∀ p ∈ batch.proposals.toList, FitsBuffer w.bridges p) := by
  rw [submitSignedProposals]
  by_cases hlength : props.length ≤ L.maxProposalsPerBatch
  · have hpanics := submitBatches_panics_iff (panicsUnless_proposalHandler w)
      (keepsDkgKey_proposalHandler w) hdecode props s
    rw [show ensure (props.length ≤ L.maxProposalsPerBatch)
      (.proposalHandler .proposalsLengthOverflow) = .ok () from if_pos hlength]
    refine (not_congr hpanics).trans ?_
    push Not
    exact ⟨fun hfits _ => hfits, fun hfits => hfits hlength⟩
  · rw [show ensure (props.length ≤ L.maxProposalsPerBatch)
      (.proposalHandler .proposalsLengthOverflow) =
        .error (.error (.proposalHandler .proposalsLengthOverflow)) from if_neg hlength]
    exact iff_of_true (fun h => by cases h) fun hle => absurd hle hlength

end Wired

theorem sampleDecoders_ne_panic (p : Proposal runtimeLimits) :
    decodeProposalIdentifier sampleDecoders p ≠ .error .panic := by
  rw [decodeProposalIdentifier]
  split
  · simp [evmTxCreate, sampleDecoders, Except.map]
  · split
    · simp
    · dsimp only
      split <;> simp

def sampleQueuedPair (w : Wiring runtimeLimits ℕ Unit) (rest : Rest w Unit) :
    State runtimeLimits (Rest w Unit) :=
  run (step (proposalHandler w)) (State.empty rest)
    [.handleUnsignedProposal (sampleTokenAdd 5), .handleUnsignedProposal (sampleTokenAdd 6),
      .onIdle 2 sampleWeight]

theorem submission_of_pair_ne_panic :
    (∀ p : Proposal runtimeLimits, decodeProposalIdentifier sampleDecoders p ≠ .error .panic) ∧
      submitSignedProposals sampleHandler (.none : Origin ℕ)
        [sampleBatch 0 [sampleTokenAdd 5, sampleTokenAdd 6] 7]
        (sampleQueuedPair sampleWiring sampleRest) ≠ .error .panic := by
  refine ⟨sampleDecoders_ne_panic, ?_⟩
  refine (submitSignedProposals_ne_panic_iff sampleWiring sampleDecoders_ne_panic _ _ _).mpr ?_
  decide +kernel

def anchorWiring : Wiring runtimeLimits ℕ Unit :=
  { sampleWiring with
    bridges := ⟨10, 104, fun _ => none⟩
    decoders := { sampleDecoders with
      length := fun kind => if kind = .anchorUpdate then 104 else 41 } }

def anchorRest : Rest anchorWiring Unit where
  metadata := sampleRest.metadata
  bridges := ⟨1, ∅, ∅⟩

def asAnchorUpdate (p : Proposal runtimeLimits) : Proposal runtimeLimits :=
  .signed .anchorUpdate ((BoundedVec.tryFrom p.data).getD default) []

theorem submission_of_pair_panics :
    decodeProposalIdentifier anchorWiring.decoders (sampleTokenAdd 5) =
        .ok ⟨.tokenAddProposal 5, .evm 1⟩ ∧
      (submitSignedProposals (proposalHandler anchorWiring) (.none : Origin ℕ)
        [sampleBatch 0 [sampleTokenAdd 5, asAnchorUpdate (sampleTokenAdd 6)] 7]
        (sampleQueuedPair anchorWiring anchorRest) matches .error .panic) = true := by
  decide +kernel

end DkgSubstrate.HandlerPanics
