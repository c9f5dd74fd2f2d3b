import DkgSubstrate.ProposalHandlerEffects
import DkgSubstrate.SampleRuntime

/-!
What a submission of signed batches does: the batches that are signed by the DKG are moved
from the queue to the signed proposals, under the key that their first proposal and the
submitted batch id determine.
-/

namespace DkgSubstrate.SignedBatches

open DkgSubstrate.Dispatch
open DkgSubstrate.Primitives
open DkgSubstrate.ProposalHandler
open DkgSubstrate.ProposalHandlerEffects
open DkgSubstrate.Proposals
open DkgSubstrate.Runs
open DkgSubstrate.Runtime
open DkgSubstrate.SampleRuntime

section Handler

variable {L : Limits} {AccountId R : Type} {cfg : Config L AccountId R}

/-- The signed proposal handler does not change the DKG key. -/
def KeepsDkgKey (cfg : Config L AccountId R) : Prop :=
  ∀ p r r' result, cfg.signedProposalHandler p r = .ok (r', result) →
    cfg.dkgKey r' = cfg.dkgKey r

def batchKey (cfg : Config L AccountId R) (batch : SignedProposalBatch L) :
    Option (TypedChainId × ℕ) :=
  match batch.proposals.toList.head? with
  | none => none
  | some first =>
      match decodeProposalIdentifier cfg.decoders first with
      | .ok id => some (id.typedChainId, batch.batchId)
      | .error _ => none

/-- The batches of a submission that are not skipped. -/
def signedBatches (cfg : Config L AccountId R) (r : R)
    (props : List (SignedProposalBatch L)) : List (SignedProposalBatch L) :=
  props.filter fun batch =>
    SignedByDkg cfg.crypto (cfg.dkgKey r) batch.signature.toList batch.data

theorem batchKey_eq_some {batch : SignedProposalBatch L} {first : Proposal L}
    {id : ProposalIdentifier} (hfirst : batch.proposals.toList.head? = some first)
    (hid : decodeIdentifier cfg first = .ok id) :
    batchKey cfg batch = some (id.typedChainId, batch.batchId) := by
  rw [batchKey]
  rw [hfirst]
  simp only [decodeIdentifier_eq_ok.mp hid]

theorem notifySigned_dkgKey (hkey : KeepsDkgKey cfg) {ps : List (Proposal L)} {r r' : R}
    (h : notifySigned cfg ps r = .ok r') : cfg.dkgKey r' = cfg.dkgKey r := by
  induction ps generalizing r with
  | nil => rw [Except.ok.inj h]
  | cons p ps ih =>
      simp only [notifySigned, bind_eq_ok] at h
      obtain ⟨⟨next, result⟩, hnext, hrest⟩ := h
      rw [ih hrest, hkey p r next result hnext]

theorem notifySigned_append {ps qs : List (Proposal L)} {r r' r'' : R}
    (hps : notifySigned cfg ps r = .ok r') (hqs : notifySigned cfg qs r' = .ok r'') :
    notifySigned cfg (ps ++ qs) r = .ok r'' := by
  induction ps generalizing r with
  | nil =>
      rw [Except.ok.inj hps]
      exact hqs
  | cons p ps ih =>
      simp only [notifySigned, bind_eq_ok] at hps
      obtain ⟨⟨next, result⟩, hnext, hrest⟩ := hps
      simp only [List.cons_append, notifySigned, bind_eq_ok]
      exact ⟨(next, result), hnext, ih hrest⟩

theorem lookup_of_lookup_foldl_erase {keys : List ℕ} {chain : TypedChainId}
    {queue : ProposalQueue L} {key : TypedChainId × ℕ} {batch : StoredUnsignedProposalBatch L}
    (h : (keys.foldl (fun queue id => queue.erase (chain, id)) queue).lookup key =
      some batch) : queue.lookup key = some batch := by
  rw [StorageMap.lookup_foldl_erase fun id => (chain, id)] at h
  exact (Option.ite_none_left_eq_some.mp h).2

theorem lookup_of_lookup_removeRefreshBatches {chain : TypedChainId}
    {ps : List (Proposal L)} {queue : ProposalQueue L} {key : TypedChainId × ℕ}
    {batch : StoredUnsignedProposalBatch L}
    (h : (removeRefreshBatches cfg chain ps queue).lookup key = some batch) :
    queue.lookup key = some batch := by
  induction ps generalizing queue with
  | nil => exact h
  | cons p ps ih =>
      have hlookup := ih h
      dsimp only at hlookup
      split at hlookup
      · exact lookup_of_lookup_foldl_erase hlookup
      · exact hlookup

structure Moves (cfg : Config L AccountId R) (batch : SignedProposalBatch L)
    (key : TypedChainId × ℕ) (s s' : State L R) : Prop where
  keyEq : batchKey cfg batch = some key
  queued : s.unsignedProposalQueue.containsKey key = true
  unsigned : s.signedProposals.lookup key = none
  signed : s'.signedProposals = s.signedProposals.insert key batch
  removed : ∀ key' stored, s'.unsignedProposalQueue.lookup key' = some stored →
    s.unsignedProposalQueue.lookup key' = some stored
  staged : s'.unsignedProposals = s.unsignedProposals
  notified : notifySigned cfg batch.proposals.toList s.rest = .ok s'.rest

theorem handleSignedProposalBatch_ok {batch : SignedProposalBatch L} {s s' : State L R}
    (h : handleSignedProposalBatch cfg batch s = .ok s') :
    ∃ key, Moves cfg batch key s s' := by
  simp only [handleSignedProposalBatch, bind_eq_ok, okOr_eq_ok, ensure_eq_ok] at h
  obtain ⟨first, hfirst, id, hid, _, hqueued, _, -, _, hunsigned, rest, hrest, h⟩ := h
  refine ⟨(id.typedChainId, batch.batchId), ?_⟩
  rw [← Except.ok.inj h]
  refine ⟨batchKey_eq_some hfirst hid, hqueued, hunsigned, rfl, ?_, rfl, hrest⟩
  intro key' stored hlookup
  exact StorageMap.lookup_of_lookup_erase (lookup_of_lookup_removeRefreshBatches hlookup)

structure Submitted (cfg : Config L AccountId R) (batches : List (SignedProposalBatch L))
    (s s' : State L R) : Prop where
  moved : ∀ batch ∈ batches, ∃ key, batchKey cfg batch = some key ∧
    s.unsignedProposalQueue.containsKey key = true ∧
    s.signedProposals.lookup key = none ∧ s'.signedProposals.lookup key = some batch
  kept : ∀ key batch, s.signedProposals.lookup key = some batch →
    s'.signedProposals.lookup key = some batch
  new : ∀ key batch, s.signedProposals.lookup key = none →
    s'.signedProposals.lookup key = some batch →
      batch ∈ batches ∧ batchKey cfg batch = some key
  notified : notifySigned cfg (batches.flatMap fun batch => batch.proposals.toList) s.rest =
    .ok s'.rest

theorem Submitted.nil {s : State L R} : Submitted cfg [] s s where
  moved _ h := by cases h
  kept _ _ h := h
  new _ _ hnone hsome := by
    rw [hnone] at hsome
    cases hsome
  notified := rfl

theorem Submitted.cons {batch : SignedProposalBatch L} {key : TypedChainId × ℕ}
    {batches : List (SignedProposalBatch L)} {s t s' : State L R}
    (hmoves : Moves cfg batch key s t) (h : Submitted cfg batches t s') :
    Submitted cfg (batch :: batches) s s' := by
  have hsigned : ∀ key', t.signedProposals.lookup key' =
      if key' = key then some batch else s.signedProposals.lookup key' := by
    intro key'
    rw [hmoves.signed, StorageMap.lookup_insert_eq]
  refine ⟨?_, ?_, ?_, ?_⟩
  · intro other hmem
    rcases List.mem_cons.mp hmem with rfl | hmem
    · refine ⟨key, hmoves.keyEq, hmoves.queued, hmoves.unsigned, h.kept key other ?_⟩
      rw [hsigned, if_pos rfl]
    · obtain ⟨key', hkey', hqueued, hunsigned, hlookup⟩ := h.moved other hmem
      obtain ⟨stored, hstored⟩ := StorageMap.containsKey_iff.mp hqueued
      have hne : key' ≠ key := by
        rintro rfl
        rw [hsigned, if_pos rfl] at hunsigned
        cases hunsigned
      rw [hsigned, if_neg hne] at hunsigned
      refine ⟨key', hkey', ?_, hunsigned, hlookup⟩
      exact StorageMap.containsKey_iff.mpr ⟨stored, hmoves.removed key' stored hstored⟩
  · intro key' other hlookup
    have hne : key' ≠ key := by
      rintro rfl
      rw [hmoves.unsigned] at hlookup
      cases hlookup
    refine h.kept key' other ?_
    rw [hsigned, if_neg hne, hlookup]
  · intro key' other hnone hlookup
    by_cases heq : key' = key
    · subst heq
      have hkept := h.kept key' batch (by rw [hsigned, if_pos rfl])
      obtain rfl := Option.some.inj (hkept.symm.trans hlookup)
      exact ⟨List.mem_cons_self, hmoves.keyEq⟩
    · have hnew := h.new key' other (by rw [hsigned, if_neg heq, hnone]) hlookup
      exact ⟨List.mem_cons_of_mem batch hnew.1, hnew.2⟩
  · exact notifySigned_append hmoves.notified h.notified

theorem submitBatches_handles {props : List (SignedProposalBatch L)} {s s' : State L R}
    (h : submitBatches cfg props s = .ok s') :
    Relation.ReflTransGen (fun t t' => ∃ batch, handleSignedProposalBatch cfg batch t = .ok t')
      s s' := by
  induction props generalizing s with
  | nil =>
      rw [← Except.ok.inj h]
  | cons batch props ih =>
      rw [submitBatches] at h
      split at h
      · exact ih h
      · rw [bind_eq_ok] at h
        obtain ⟨next, hnext, hrest⟩ := h
        exact .head ⟨batch, hnext⟩ (ih hrest)

theorem submitBatches_removes {props : List (SignedProposalBatch L)} {s s' : State L R}
    (h : submitBatches cfg props s = .ok s') :
    s'.unsignedProposals = s.unsignedProposals ∧
      ∀ key stored, s'.unsignedProposalQueue.lookup key = some stored →
        s.unsignedProposalQueue.lookup key = some stored := by
  refine invariant_of_reflTransGen (fun t : State L R =>
    t.unsignedProposals = s.unsignedProposals ∧
      ∀ key stored, t.unsignedProposalQueue.lookup key = some stored →
        s.unsignedProposalQueue.lookup key = some stored) ?_ ⟨rfl, fun _ _ h => h⟩
    (submitBatches_handles h)
  rintro t t' ⟨hstaged, hqueued⟩ ⟨batch, hhandled⟩
  obtain ⟨key, hmoves⟩ := handleSignedProposalBatch_ok hhandled
  refine ⟨hmoves.staged.trans hstaged, ?_⟩
  intro key stored hlookup
  exact hqueued key stored (hmoves.removed key stored hlookup)

theorem submitBatches_ok (hkeeps : KeepsDkgKey cfg) {props : List (SignedProposalBatch L)}
    {s s' : State L R} (h : submitBatches cfg props s = .ok s') :
    Submitted cfg (signedBatches cfg s.rest props) s s' := by
  induction props generalizing s with
  | nil =>
      rw [← Except.ok.inj h]
      exact Submitted.nil
  | cons batch props ih =>
      rw [submitBatches] at h
      rw [signedBatches]
      cases hsigned : ensureSignedByDkg cfg.crypto (cfg.dkgKey s.rest)
          batch.signature.toList batch.data with
      | error e =>
          have hskip : ¬SignedByDkg cfg.crypto (cfg.dkgKey s.rest)
              batch.signature.toList batch.data := by
            rw [← ensureSignedByDkg_eq_ok, hsigned]
            exact nofun
          simp only [hsigned] at h
          rw [List.filter_cons_of_neg (by simpa using hskip)]
          exact ih h
      | ok _ =>
          simp only [hsigned, bind_eq_ok] at h
          obtain ⟨t, ht, hrest⟩ := h
          obtain ⟨key, hmoves⟩ := handleSignedProposalBatch_ok ht
          rw [List.filter_cons_of_pos
            (by simpa using ensureSignedByDkg_eq_ok.mp hsigned)]
          -- The later batches are checked against the same key.
          have hkey := notifySigned_dkgKey hkeeps hmoves.notified
          have hsubmitted := ih hrest
          rw [signedBatches] at hsubmitted
          rw [hkey] at hsubmitted
          exact hsubmitted.cons hmoves

theorem submitSignedProposals_ok (hkeeps : KeepsDkgKey cfg) (origin : Origin AccountId)
    {props : List (SignedProposalBatch L)} {s s' : State L R}
    (h : submitSignedProposals cfg origin props s = .ok s') :
    Submitted cfg (signedBatches cfg s.rest props) s s' := by
  simp only [submitSignedProposals, bind_eq_ok] at h
  obtain ⟨_, -, h⟩ := h
  exact submitBatches_ok hkeeps h

theorem writes_signedProposals {s s' : State L R} (h : Writes cfg s s') :
    s'.signedProposals = s.signedProposals := by
  refine invariant_of_reflTransGen (fun t : State L R => t.signedProposals = s.signedProposals)
    ?_ rfl h
  intro t t' hkept hwrite
  rw [← hkept]
  cases hwrite <;> rfl

end Handler

section Wired

variable {L : Limits} {AccountId World Info : Type} [DecidableEq AccountId]
variable [Inhabited Info]

theorem keepsDkgKey_proposalHandler (w : Wiring L AccountId World) :
    KeepsDkgKey (proposalHandler w : Config L AccountId (Rest w Info)) := by
  intro p r r' result h
  change r'.metadata.dkgKey = r.metadata.dkgKey
  rw [onSigned_metadata h]
  exact dkgKey_signedProposal p r.metadata

end Wired

def sampleQueueing : List (Call runtimeLimits ℕ (Rest sampleWiring Unit)) :=
  [.forceSubmitUnsignedProposal .root (sampleTokenAdd 5), .onIdle 2 sampleWeight,
    .forceSubmitUnsignedProposal .root (sampleTokenAdd 6), .onIdle 4 sampleWeight]

end DkgSubstrate.SignedBatches
