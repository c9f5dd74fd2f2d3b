import DkgSubstrate.BatchLifecycle

/-!
What a submission takes from the queue.  The signature of a batch does not cover its id, so that
what is signed is what waits under the id only if the two belong together already.
-/

namespace DkgSubstrate.SignedContent

open DkgSubstrate.BatchLifecycle
open DkgSubstrate.Dispatch
open DkgSubstrate.Primitives
open DkgSubstrate.ProposalHandler
open DkgSubstrate.ProposalHandlerEffects
open DkgSubstrate.Proposals
open DkgSubstrate.RefreshCleanup
open DkgSubstrate.Runs
open DkgSubstrate.Runtime
open DkgSubstrate.SampleRuntime
open DkgSubstrate.SignedBatches

section Handler

variable {L : Limits} {AccountId R : Type} {cfg : Config L AccountId R} {s t : State L R}

def SameProposals (stored : StoredUnsignedProposalBatch L) (batch : SignedProposalBatch L) :
    Prop :=
  stored.proposals.toList.map (fun u => (u.proposal.kind, u.proposal.data)) =
    batch.proposals.toList.map (fun p => (p.kind, p.data))

instance decidableSameProposals (stored : StoredUnsignedProposalBatch L)
    (batch : SignedProposalBatch L) : Decidable (SameProposals stored batch) :=
  inferInstanceAs (Decidable (_ = _))

/-- While a batch has waited with an id, nothing else can wait with it any more. -/
theorem confined_of_queued (h : Placed s) {chain : TypedChainId} {batchId : ℕ}
    {stored : StoredUnsignedProposalBatch L}
    (hqueued : s.unsignedProposalQueue.lookup (chain, batchId) = some stored) :
    Confined (fun _ other => other = stored) batchId s := by
  refine ⟨h.queued_lt hqueued, ?_⟩
  intro chain' other hother
  obtain rfl := h.chain_eq hqueued hother
  exact Option.some.inj (hother.symm.trans hqueued)

/-- At some point of the run the batch has waited in the queue, with its id and its
proposals. -/
def WasQueued (cfg : Config L AccountId R) (s : State L R) (calls : List (Call L AccountId R))
    (batch : SignedProposalBatch L) : Prop :=
  ∃ earlier later chain, ∃ stored : StoredUnsignedProposalBatch L, calls = earlier ++ later ∧
    (run (step cfg) s earlier).unsignedProposalQueue.lookup (chain, batch.batchId) =
      some stored ∧ SameProposals stored batch

theorem sameProposals_of_wasQueued (hmax : 1 ≤ L.maxProposalsPerBatch) {rest : R}
    {calls : List (Call L AccountId R)} {batch : SignedProposalBatch L}
    (h : WasQueued cfg (State.empty rest) calls batch) {chain : TypedChainId}
    {stored : StoredUnsignedProposalBatch L}
    (hstored : (run (step cfg) (State.empty rest) calls).unsignedProposalQueue.lookup
      (chain, batch.batchId) = some stored) : SameProposals stored batch := by
  obtain ⟨earlier, later, chain', queued, rfl, hqueued, hsame⟩ := h
  have hconfined : Confined (fun _ other => other = queued) batch.batchId
      (run (step cfg) (State.empty rest) (earlier ++ later)) := by
    rw [run_append]
    refine invariant_run (Confined (fun _ other => other = queued) batch.batchId) ?_
      (confined_of_queued (placed_run cfg hmax rest earlier) hqueued) (stepsMeet_true _ _ _)
    intro u call hu _
    exact invariant_step _ (fun _ _ => confined_edit)
      (fun _ _ _ hu hhandled => confined_handleSignedProposalBatch hu hhandled) hu call
  rw [hconfined.waiting chain stored hstored]
  exact hsame

def SignsRefresh (batch : SignedProposalBatch L) : Prop :=
  ∃ p ∈ batch.proposals.toList, p.kind = .refresh

theorem batchKey_snd {batch : SignedProposalBatch L} {key : TypedChainId × ℕ}
    (h : batchKey cfg batch = some key) : key.2 = batch.batchId := by
  rw [batchKey] at h
  split at h
  · cases h
  · split at h
    · rw [← Option.some.inj h]
    · cases h

/-- What may happen to a batch in the queue when this batch is signed. -/
def Takes (cfg : Config L AccountId R) (batch : SignedProposalBatch L)
    (key : TypedChainId × ℕ) (stored : StoredUnsignedProposalBatch L) : Prop :=
  ∃ own ∈ batchKey cfg batch,
    key = own ∨ SignsRefresh batch ∧ HoldsRefresh stored ∧ key.1 = own.1

theorem takes_of_handled (hone : OneChain s.unsignedProposalQueue)
    {batch : SignedProposalBatch L} (hhandled : handleSignedProposalBatch cfg batch s = .ok t)
    {key : TypedChainId × ℕ} {stored : StoredUnsignedProposalBatch L}
    (hstored : s.unsignedProposalQueue.lookup key = some stored)
    (hgone : t.unsignedProposalQueue.lookup key ≠ some stored) : Takes cfg batch key stored := by
  obtain ⟨own, hmoves⟩ := handleSignedProposalBatch_ok hhandled
  refine ⟨own, hmoves.keyEq, ?_⟩
  by_contra hkept
  obtain ⟨hne, hother⟩ := not_or.mp hkept
  by_cases hrefresh : SignsRefresh batch
  · refine hgone ((lookup_handleSignedProposalBatch hone hhandled hmoves.keyEq hrefresh key
      stored).mpr ⟨hstored, hne, ?_⟩)
    rintro ⟨hchain, hholds⟩
    exact hother ⟨hrefresh, hholds, hchain⟩
  · refine hgone ?_
    have hkey := hmoves.keyEq
    simp only [handleSignedProposalBatch, bind_eq_ok, okOr_eq_ok] at hhandled
    obtain ⟨first, hfirst, id, hid, _, -, _, -, _, -, _, -, h⟩ := hhandled
    obtain rfl := Option.some.inj ((batchKey_eq_some hfirst hid).symm.trans hkey)
    rw [← Except.ok.inj h]
    rw [removeRefreshBatches_of_forall_ne _ fun p hp hkind => hrefresh ⟨p, hp, hkind⟩]
    rw [StorageMap.lookup_erase_eq, if_neg hne]
    exact hstored

theorem mem_signedBatches {r : R} {props : List (SignedProposalBatch L)}
    {batch : SignedProposalBatch L} :
    batch ∈ signedBatches cfg r props ↔
      batch ∈ props ∧ SignedByDkg cfg.crypto (cfg.dkgKey r) batch.signature.toList batch.data := by
  rw [signedBatches, List.mem_filter, decide_eq_true_iff]

theorem takes_of_submitted (hkeeps : KeepsDkgKey cfg) {props : List (SignedProposalBatch L)}
    (hone : OneChain s.unsignedProposalQueue) (hsubmitted : submitBatches cfg props s = .ok t)
    {key : TypedChainId × ℕ} {stored : StoredUnsignedProposalBatch L}
    (hstored : s.unsignedProposalQueue.lookup key = some stored)
    (hgone : t.unsignedProposalQueue.lookup key ≠ some stored) :
    ∃ batch ∈ signedBatches cfg s.rest props, Takes cfg batch key stored := by
  induction props generalizing s with
  | nil =>
      rw [← Except.ok.inj hsubmitted] at hgone
      exact absurd hstored hgone
  | cons batch props ih =>
      rw [submitBatches] at hsubmitted
      cases hsigned : ensureSignedByDkg cfg.crypto (cfg.dkgKey s.rest)
          batch.signature.toList batch.data with
      | error e =>
          simp only [hsigned] at hsubmitted
          obtain ⟨other, hother, htakes⟩ := ih hone hsubmitted hstored
          obtain ⟨hmem, hdkg⟩ := mem_signedBatches.mp hother
          exact ⟨other, mem_signedBatches.mpr ⟨List.mem_cons_of_mem batch hmem, hdkg⟩, htakes⟩
      | ok _ =>
          simp only [hsigned, bind_eq_ok] at hsubmitted
          obtain ⟨u, hhandled, hrest⟩ := hsubmitted
          have hown : batch ∈ signedBatches cfg s.rest (batch :: props) :=
            mem_signedBatches.mpr ⟨List.mem_cons_self, ensureSignedByDkg_eq_ok.mp hsigned⟩
          by_cases hleft : u.unsignedProposalQueue.lookup key = some stored
          · obtain ⟨own, hmoves⟩ := handleSignedProposalBatch_ok hhandled
            have honeLeft : OneChain u.unsignedProposalQueue := by
              intro c c' batchId left left' hlookup hlookup'
              exact hone c c' batchId left left' (hmoves.removed _ _ hlookup)
                (hmoves.removed _ _ hlookup')
            obtain ⟨other, hother, htakes⟩ := ih honeLeft hrest hleft
            obtain ⟨hmem, hdkg⟩ := mem_signedBatches.mp hother
            rw [notifySigned_dkgKey hkeeps hmoves.notified] at hdkg
            exact ⟨other, mem_signedBatches.mpr ⟨List.mem_cons_of_mem batch hmem, hdkg⟩, htakes⟩
          · exact ⟨batch, hown, takes_of_handled hone hhandled hstored hleft⟩

/-- What becomes signed is what waited under the same key, and what a submission removes from
the queue becomes signed. -/
structure MovesQueued (call : Call L AccountId R) (s t : State L R) : Prop where
  signed : ∀ key batch, s.signedProposals.lookup key = none →
    t.signedProposals.lookup key = some batch →
      ∃ stored, s.unsignedProposalQueue.lookup key = some stored ∧ SameProposals stored batch
  removed : ∀ origin props, call = .submitSignedProposals origin props → ∀ key stored,
    s.unsignedProposalQueue.lookup key = some stored →
      t.unsignedProposalQueue.lookup key ≠ some stored →
        ∃ batch, t.signedProposals.lookup key = some batch ∧ SameProposals stored batch

/-- Whatever of a submission the DKG has signed has waited in the queue under the id that it is
submitted with, and a refresh proposal in it is not one of several that wait for its chain. -/
structure SubmitsOwn (cfg : Config L AccountId R) (s : State L R)
    (calls : List (Call L AccountId R)) (props : List (SignedProposalBatch L)) : Prop where
  wasQueued : ∀ batch ∈ signedBatches cfg (run (step cfg) s calls).rest props,
    WasQueued cfg s calls batch
  oneRefresh : ∀ batch ∈ signedBatches cfg (run (step cfg) s calls).rest props,
    SignsRefresh batch → ∀ own ∈ batchKey cfg batch, ∀ key stored,
      (run (step cfg) s calls).unsignedProposalQueue.lookup key = some stored →
        HoldsRefresh stored → key.1 = own.1 → key = own

theorem movesQueued_of_signed_eq {call : Call L AccountId R}
    (hcall : ∀ origin props, call ≠ .submitSignedProposals origin props)
    (h : t.signedProposals = s.signedProposals) : MovesQueued call s t := by
  refine ⟨?_, fun origin props heq => absurd heq (hcall origin props)⟩
  intro key batch hunsigned hsigned
  rw [h, hunsigned] at hsigned
  cases hsigned

theorem movesQueued_submitSignedProposals (hkeeps : KeepsDkgKey cfg)
    (hmax : 1 ≤ L.maxProposalsPerBatch) {rest : R} {calls : List (Call L AccountId R)}
    {origin : Origin AccountId} {props : List (SignedProposalBatch L)}
    (h : SubmitsOwn cfg (State.empty rest) calls props)
    (haccepted : submitSignedProposals cfg origin props
      (run (step cfg) (State.empty rest) calls) = .ok t) :
    MovesQueued (.submitSignedProposals origin props)
      (run (step cfg) (State.empty rest) calls) t := by
  have hsubmitted := submitSignedProposals_ok hkeeps origin haccepted
  have hsigned : ∀ batch ∈ signedBatches cfg (run (step cfg) (State.empty rest) calls).rest props,
      ∀ own ∈ batchKey cfg batch, ∃ stored,
        (run (step cfg) (State.empty rest) calls).unsignedProposalQueue.lookup own =
          some stored ∧ SameProposals stored batch ∧ t.signedProposals.lookup own = some batch := by
    intro batch hbatch own hown
    obtain ⟨key, hkey, hqueued, -, hmoved⟩ := hsubmitted.moved batch hbatch
    obtain rfl := Option.some.inj (hkey.symm.trans hown)
    obtain ⟨stored, hstored⟩ := StorageMap.containsKey_iff.mp hqueued
    refine ⟨stored, hstored, ?_, hmoved⟩
    rw [← Prod.mk.eta (p := key), batchKey_snd hkey] at hstored
    exact sameProposals_of_wasQueued hmax (h.wasQueued batch hbatch) hstored
  refine ⟨?_, ?_⟩
  · intro key batch hunsigned hnew
    obtain ⟨hbatch, hkey⟩ := hsubmitted.new key batch hunsigned hnew
    obtain ⟨stored, hstored, hsame, -⟩ := hsigned batch hbatch key hkey
    exact ⟨stored, hstored, hsame⟩
  · rintro - - - key stored hstored hgone
    simp only [submitSignedProposals, bind_eq_ok] at haccepted
    obtain ⟨_, -, haccepted⟩ := haccepted
    have hone := oneChain_of_queueInvariant (placed_run cfg hmax rest calls).queue
    obtain ⟨batch, hbatch, own, hown, htakes⟩ :=
      takes_of_submitted hkeeps hone haccepted hstored hgone
    have hkey : key = own := by
      rcases htakes with heq | ⟨hrefresh, hholds, hchain⟩
      · exact heq
      · exact h.oneRefresh batch hbatch hrefresh own hown key stored hstored hholds hchain
    subst hkey
    obtain ⟨stored', hstored', hsame, hmoved⟩ := hsigned batch hbatch key hown
    obtain rfl := Option.some.inj (hstored.symm.trans hstored')
    exact ⟨batch, hmoved, hsame⟩

end Handler

section Wired

variable {L : Limits} {AccountId World Info : Type} [DecidableEq AccountId]
variable [Inhabited Info]

/-- After any run a call moves queued batches only, if what it submits belongs to its ids. -/
theorem movesQueued_run (w : Wiring L AccountId World) (hmax : 1 ≤ L.maxProposalsPerBatch)
    (rest : Rest w Info) (calls : List (Call L AccountId (Rest w Info)))
    (call : Call L AccountId (Rest w Info))
    (hown : ∀ origin props, call = .submitSignedProposals origin props →
      SubmitsOwn (proposalHandler w) (State.empty rest) calls props) :
    MovesQueued call (run (step (proposalHandler w)) (State.empty rest) calls)
      (run (step (proposalHandler w)) (State.empty rest) (calls ++ [call])) := by
  rw [run_append]
  change MovesQueued call _ (step (proposalHandler w) _ call)
  rcases step_cases (proposalHandler w) (run (step (proposalHandler w)) (State.empty rest) calls)
    call with ⟨-, hsame⟩ | ⟨-, hdispatch⟩
  · rw [hsame]
    refine ⟨fun key batch hunsigned hsigned => ?_, fun _ _ _ key stored h h' => absurd h h'⟩
    rw [hunsigned] at hsigned
    cases hsigned
  · cases call with
    | submitSignedProposals origin props =>
        exact movesQueued_submitSignedProposals (keepsDkgKey_proposalHandler w) hmax
          (hown origin props rfl) hdispatch
    | _ =>
        have hwrites := dispatch_writes (fun _ _ hcall => by cases hcall) hdispatch
        exact movesQueued_of_signed_eq (fun _ _ hcall => by cases hcall)
          (writes_signedProposals hwrites)

end Wired

/-- A signature over the proposals of batch 0. -/
def sampleSubmission (batchId : ℕ) : Call runtimeLimits ℕ (Rest sampleWiring Unit) :=
  .submitSignedProposals .none [sampleBatch batchId [sampleTokenAdd 5] 7]

theorem movesQueued_run_sample :
    MovesQueued (sampleSubmission 0)
      (run (step sampleHandler) (State.empty sampleRest) sampleQueueing)
      (run (step sampleHandler) (State.empty sampleRest)
        (sampleQueueing ++ [sampleSubmission 0])) := by
  refine movesQueued_run sampleWiring (by decide) sampleRest sampleQueueing _ ?_
  intro origin props hcall
  obtain ⟨-, rfl⟩ := Call.submitSignedProposals.inj hcall
  have honly : ∀ batch ∈ signedBatches sampleHandler (run (step sampleHandler)
      (State.empty sampleRest) sampleQueueing).rest [sampleBatch 0 [sampleTokenAdd 5] 7],
      batch = sampleBatch 0 [sampleTokenAdd 5] 7 := by
    intro batch hbatch
    exact List.mem_singleton.mp (mem_signedBatches.mp hbatch).1
  refine ⟨?_, ?_⟩
  · intro batch hbatch
    rw [honly batch hbatch]
    have hqueued : ((run (step sampleHandler) (State.empty sampleRest)
        sampleQueueing).unsignedProposalQueue.lookup (.evm 1, 0)).any
          (fun stored => SameProposals stored (sampleBatch 0 [sampleTokenAdd 5] 7)) = true := by
      decide +kernel
    obtain ⟨stored, hstored, hsame⟩ := (Option.any_eq_true _ _).mp hqueued
    exact ⟨sampleQueueing, [], .evm 1, stored, (List.append_nil _).symm, hstored,
      of_decide_eq_true hsame⟩
  · intro batch hbatch hrefresh
    rw [honly batch hbatch] at hrefresh
    obtain ⟨p, hp, hkind⟩ := hrefresh
    have hnone : ∀ p ∈ (sampleBatch 0 [sampleTokenAdd 5] 7).proposals.toList,
        p.kind ≠ .refresh := by
      decide +kernel
    exact absurd hkind (hnone p hp)

theorem movesQueued_fails_with_other_id :
    ¬MovesQueued (sampleSubmission 1)
      (run (step sampleHandler) (State.empty sampleRest) sampleQueueing)
      (run (step sampleHandler) (State.empty sampleRest)
        (sampleQueueing ++ [sampleSubmission 1])) := by
  intro h
  obtain ⟨stored, hstored, hsame⟩ := h.signed (.evm 1, 1) (sampleBatch 1 [sampleTokenAdd 5] 7)
    (by decide +kernel) (by decide +kernel)
  have hother : ((run (step sampleHandler) (State.empty sampleRest)
      sampleQueueing).unsignedProposalQueue.lookup (.evm 1, 1)).all
        (fun stored => !decide (SameProposals stored (sampleBatch 1 [sampleTokenAdd 5] 7))) =
          true := by
    decide +kernel
  rw [hstored] at hother
  simp [hsame] at hother

end DkgSubstrate.SignedContent
