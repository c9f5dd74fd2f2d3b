import DkgSubstrate.SignedBatches

/-!
The invariant of the proposal queue, which spans the queue, the staged and the signed
proposals and the counter of the batch ids, and what it means for the expiry of batches.
-/

namespace DkgSubstrate.ProposalQueue

open DkgSubstrate.Dispatch
open DkgSubstrate.Primitives
open DkgSubstrate.ProposalHandler
open DkgSubstrate.ProposalHandlerEffects
open DkgSubstrate.Proposals
open DkgSubstrate.Runs
open DkgSubstrate.SampleRuntime
open DkgSubstrate.SignedBatches

variable {L : Limits} {AccountId R : Type}

/-- The proposals are between one and a full batch, all for the chain. -/
structure BatchFor (chain : TypedChainId) (proposals : StagedProposals L) : Prop where
  one_le : 1 ≤ proposals.length
  le_max : proposals.length ≤ L.maxProposalsPerBatch
  chain_eq : ∀ u ∈ proposals.toList, u.typedChainId = chain

structure QueueInvariant (s : State L R) : Prop where
  queued : ∀ chain batchId stored,
    s.unsignedProposalQueue.lookup (chain, batchId) = some stored →
      stored.batchId = batchId ∧ batchId < s.nextBatchId ∧ BatchFor chain stored.proposals
  oneChain : ∀ chain chain' batchId,
    s.unsignedProposalQueue.containsKey (chain, batchId) = true →
      s.unsignedProposalQueue.containsKey (chain', batchId) = true → chain = chain'
  signed : ∀ chain batchId, s.signedProposals.containsKey (chain, batchId) = true →
    batchId < s.nextBatchId ∧ s.unsignedProposalQueue.containsKey (chain, batchId) = false
  staged : ∀ chain proposals, s.unsignedProposals.lookup chain = some proposals →
    BatchFor chain proposals

section Edits

variable {cfg : Config L AccountId R} {s t : State L R}

theorem BatchFor.of_toList_eq_append {chain : TypedChainId} {proposals : StagedProposals L}
    {staged : List (UnsignedProposal L)} {u : UnsignedProposal L}
    (h : proposals.toList = staged ++ [u]) (hstaged : ∀ u ∈ staged, u.typedChainId = chain)
    (hu : u.typedChainId = chain) : BatchFor chain proposals where
  one_le := by
    rw [BoundedVec.length_of_toList_eq h, List.length_append]
    exact Nat.le_add_left 1 _
  le_max := proposals.length_le
  chain_eq := by
    intro v hv
    rw [h] at hv
    rcases List.mem_append.mp hv with hold | hnew
    · exact hstaged v hold
    · rw [List.mem_singleton.mp hnew]
      exact hu

theorem queueInvariant_empty (rest : R) : QueueInvariant (State.empty rest : State L R) where
  queued _ _ _ h := by cases h
  oneChain _ _ _ h := by cases h
  signed _ _ h := by cases h
  staged _ _ h := by cases h

theorem QueueInvariant.of_removed (h : QueueInvariant s)
    (hqueue : ∀ key stored, t.unsignedProposalQueue.lookup key = some stored →
      s.unsignedProposalQueue.lookup key = some stored)
    (hsigned : ∀ key, t.signedProposals.containsKey key = true →
      s.signedProposals.containsKey key = true ∨
        s.unsignedProposalQueue.containsKey key = true ∧
          t.unsignedProposalQueue.containsKey key = false)
    (hnext : t.nextBatchId = s.nextBatchId)
    (hstaged : t.unsignedProposals = s.unsignedProposals) : QueueInvariant t := by
  have hcontains : ∀ key, t.unsignedProposalQueue.containsKey key = true →
      s.unsignedProposalQueue.containsKey key = true := by
    intro key hkey
    obtain ⟨stored, hstored⟩ := StorageMap.containsKey_iff.mp hkey
    exact StorageMap.containsKey_iff.mpr ⟨stored, hqueue key stored hstored⟩
  refine ⟨?_, ?_, ?_, ?_⟩
  · intro chain batchId stored hlookup
    rw [hnext]
    exact h.queued chain batchId stored (hqueue _ _ hlookup)
  · intro chain chain' batchId hkey hkey'
    exact h.oneChain chain chain' batchId (hcontains _ hkey) (hcontains _ hkey')
  · intro chain batchId hkey
    rw [hnext]
    rcases hsigned _ hkey with hold | ⟨hold, hremoved⟩
    · obtain ⟨hlt, habsent⟩ := h.signed chain batchId hold
      refine ⟨hlt, Bool.eq_false_iff.mpr ?_⟩
      intro hpresent
      rw [hcontains _ hpresent] at habsent
      cases habsent
    · obtain ⟨stored, hstored⟩ := StorageMap.containsKey_iff.mp hold
      exact ⟨(h.queued chain batchId stored hstored).2.1, hremoved⟩
  · rw [hstaged]
    exact h.staged

theorem QueueInvariant.queueBatch (cfg : Config L AccountId R) (h : QueueInvariant s)
    {chain : TypedChainId} {proposals : StagedProposals L} (hbatch : BatchFor chain proposals) :
    QueueInvariant (queueBatch cfg chain s.nextBatchId proposals
      { s with nextBatchId := s.nextBatchId + 1 }) := by
  have hqueued : ∀ chain' batchId,
      s.unsignedProposalQueue.containsKey (chain', batchId) = true → batchId < s.nextBatchId := by
    intro chain' batchId hkey
    obtain ⟨stored, hstored⟩ := StorageMap.containsKey_iff.mp hkey
    exact (h.queued chain' batchId stored hstored).2.1
  refine ⟨?_, ?_, ?_, h.staged⟩
  · intro chain' batchId stored hlookup
    simp only [ProposalHandler.queueBatch, StorageMap.lookup_insert_eq] at hlookup ⊢
    split at hlookup
    · rename_i hkey
      obtain ⟨rfl, rfl⟩ := Prod.mk.inj hkey
      rw [← Option.some.inj hlookup]
      exact ⟨rfl, Nat.lt_succ_self _, hbatch⟩
    · obtain ⟨hid, hlt, hstored⟩ := h.queued chain' batchId stored hlookup
      exact ⟨hid, Nat.lt_succ_of_lt hlt, hstored⟩
  · intro chain' chain'' batchId hkey hkey'
    simp only [ProposalHandler.queueBatch, StorageMap.containsKey_insert, Bool.or_eq_true,
      decide_eq_true_eq, Prod.mk.injEq] at hkey hkey'
    rcases hkey with ⟨rfl, hid⟩ | hkey <;> rcases hkey' with ⟨rfl, hid'⟩ | hkey'
    · rfl
    · exact absurd hid (hqueued _ _ hkey').ne
    · exact absurd hid' (hqueued _ _ hkey).ne
    · exact h.oneChain _ _ _ hkey hkey'
  · intro chain' batchId hkey
    obtain ⟨hlt, habsent⟩ := h.signed chain' batchId hkey
    simp only [ProposalHandler.queueBatch, StorageMap.containsKey_insert, habsent,
      Bool.or_false, decide_eq_false_iff_not, Prod.mk.injEq, not_and]
    exact ⟨Nat.lt_succ_of_lt hlt, fun _ => hlt.ne⟩

theorem QueueInvariant.stage (h : QueueInvariant s) {chain : TypedChainId}
    {proposals : StagedProposals L} (hbatch : BatchFor chain proposals) :
    QueueInvariant (stage chain proposals s) := by
  refine ⟨h.queued, h.oneChain, h.signed, ?_⟩
  intro chain' proposals' hlookup
  rw [ProposalHandler.stage, StorageMap.lookup_insert_eq] at hlookup
  split at hlookup
  · rename_i hchain
    rw [← Option.some.inj hlookup, hchain]
    exact hbatch
  · exact h.staged chain' proposals' hlookup

theorem QueueInvariant.staged_default (h : QueueInvariant s) (chain : TypedChainId) :
    ∀ u ∈ (s.unsignedProposals.getD chain default).toList, u.typedChainId = chain := by
  rw [StorageMap.getD]
  cases hlookup : s.unsignedProposals.lookup chain with
  | none =>
      intro u hu
      cases hu
  | some proposals => exact (h.staged chain proposals hlookup).chain_eq

theorem queueInvariant_stores (hmax : 1 ≤ L.maxProposalsPerBatch) (h : QueueInvariant s)
    {prop : Proposal L} {id : ProposalIdentifier}
    {out : State L R × Except DispatchError Unit} (hstores : Stores cfg prop id s out) :
    QueueInvariant out.1 := by
  have hstaged := h.staged_default id.typedChainId
  cases hstores with
  | refused e => exact h
  | staged hpush => exact h.stage (.of_toList_eq_append hpush hstaged rfl)
  | queued hfull hbits hpush =>
      have hbatch : BatchFor id.typedChainId
          (s.unsignedProposals.getD id.typedChainId default) :=
        ⟨hmax.trans hfull.ge, hfull.le, hstaged⟩
      refine (h.queueBatch cfg hbatch).stage ?_
      exact .of_toList_eq_append (hpush.trans (List.nil_append _).symm)
        (fun _ hu => by cases hu) rfl
  | emptyQueued e hempty hbits =>
      rw [hempty] at hmax
      exact absurd hmax (Nat.not_succ_le_zero 0)

theorem queueInvariant_closes (h : QueueInvariant s) (hcloses : Closes cfg s t) :
    QueueInvariant t := by
  obtain ⟨hlookup, hbits⟩ := hcloses
  have hqueued := h.queueBatch cfg (h.staged _ _ hlookup)
  refine ⟨hqueued.queued, hqueued.oneChain, hqueued.signed, ?_⟩
  intro chain' proposals' hlookup'
  exact hqueued.staged chain' proposals' (StorageMap.lookup_of_lookup_erase hlookup')

theorem queueInvariant_edit (hmax : 1 ≤ L.maxProposalsPerBatch) (h : QueueInvariant s)
    (hedit : Edit cfg s t) : QueueInvariant t := by
  cases hedit with
  | store hid hstores => exact queueInvariant_stores hmax h hstores
  | close hcloses => exact queueInvariant_closes h hcloses
  | unqueue key =>
      refine h.of_removed ?_ (fun _ => .inl) rfl rfl
      exact fun _ _ => StorageMap.lookup_of_lookup_erase
  | offence offence => exact h.of_removed (fun _ _ => id) (fun _ => .inl) rfl rfl
  | environment rest => exact h.of_removed (fun _ _ => id) (fun _ => .inl) rfl rfl

theorem queueInvariant_handleSignedProposalBatch (h : QueueInvariant s)
    {prop : SignedProposalBatch L} (hsigned : handleSignedProposalBatch cfg prop s = .ok t) :
    QueueInvariant t := by
  simp only [handleSignedProposalBatch, bind_eq_ok, ensure_eq_ok] at hsigned
  obtain ⟨first, -, id, -, _, hqueued, _, -, _, -, rest, -, hsigned⟩ := hsigned
  rw [← Except.ok.inj hsigned]
  have hremoved : ∀ key stored,
      (removeRefreshBatches cfg id.typedChainId prop.proposals.toList
        (s.unsignedProposalQueue.erase (id.typedChainId, prop.batchId))).lookup key =
          some stored →
      key ≠ (id.typedChainId, prop.batchId) ∧
        s.unsignedProposalQueue.lookup key = some stored := by
    intro key stored hlookup
    have herased := lookup_of_lookup_removeRefreshBatches hlookup
    rw [StorageMap.lookup_erase_eq] at herased
    split at herased
    · cases herased
    · exact ⟨‹_›, herased⟩
  refine h.of_removed (fun key stored hlookup => (hremoved key stored hlookup).2) ?_ rfl rfl
  intro key hkey
  simp only [StorageMap.containsKey_insert, Bool.or_eq_true, decide_eq_true_eq] at hkey
  rcases hkey with rfl | hold
  · refine .inr ⟨hqueued, Bool.eq_false_iff.mpr ?_⟩
    intro hpresent
    obtain ⟨stored, hstored⟩ := StorageMap.containsKey_iff.mp hpresent
    exact (hremoved _ stored hstored).1 rfl
  · exact .inl hold

theorem queueInvariant_submitBatches {props : List (SignedProposalBatch L)}
    (h : QueueInvariant s) (hsubmitted : submitBatches cfg props s = .ok t) :
    QueueInvariant t := by
  refine invariant_of_reflTransGen QueueInvariant ?_ h (submitBatches_handles hsubmitted)
  rintro s t h ⟨batch, hhandled⟩
  exact queueInvariant_handleSignedProposalBatch h hhandled

theorem queueInvariant_step (hmax : 1 ≤ L.maxProposalsPerBatch) (h : QueueInvariant s)
    (call : Call L AccountId R) : QueueInvariant (step cfg s call) := by
  refine commit_cases h ?_
  intro t hdispatch
  cases call with
  | submitSignedProposals origin props =>
      simp only [dispatch, submitSignedProposals, bind_eq_ok] at hdispatch
      obtain ⟨_, -, hsubmitted⟩ := hdispatch
      exact queueInvariant_submitBatches h hsubmitted
  | _ =>
      exact invariant_of_reflTransGen QueueInvariant (fun _ _ => queueInvariant_edit hmax) h
        (dispatch_edits (fun _ _ hcall => by cases hcall) hdispatch)

end Edits

section Expiry

variable {cfg : Config L AccountId R} {s : State L R}

theorem expired_ok (cfg : Config L AccountId R) (now : ℕ) {batch : StoredUnsignedProposalBatch L}
    (h : batch.proposals.toList ≠ []) : ∃ past, expired cfg now batch = .ok past := by
  obtain ⟨first, rest, hcons⟩ := List.exists_cons_of_ne_nil h
  rw [expired, hcons]
  simp only [List.head?_cons, expect, bind, Except.bind]
  split <;> exact ⟨_, rfl⟩

theorem removeExpired_ok {now : ℕ}
    {batches : List ((TypedChainId × ℕ) × StoredUnsignedProposalBatch L)}
    (h : ∀ entry ∈ batches, entry.2.proposals.toList ≠ []) (remaining : Weight) :
    ∃ out, removeExpired cfg now batches remaining s = .ok out := by
  induction batches generalizing remaining s with
  | nil => exact ⟨_, rfl⟩
  | cons entry batches ih =>
      obtain ⟨hentry, hrest⟩ := List.forall_mem_cons.mp h
      obtain ⟨past, hpast⟩ := expired_ok cfg now hentry
      rw [removeExpired, hpast]
      cases past with
      | false => exact ih hrest remaining
      | true =>
          dsimp only
          split
          · exact ⟨_, rfl⟩
          · exact ih hrest _

theorem QueueInvariant.queued_ne_nil (h : QueueInvariant s) :
    ∀ entry ∈ s.unsignedProposalQueue.iter (batchOrder cfg),
      entry.2.proposals.toList ≠ [] := by
  rintro ⟨⟨chain, batchId⟩, stored⟩ hentry
  have hbatch := (h.queued chain batchId stored (StorageMap.mem_iter.mp hentry)).2.2
  exact List.ne_nil_of_length_pos hbatch.one_le

theorem QueueInvariant.onIdle_ok (h : QueueInvariant s) (now : ℕ) (remaining : Weight) :
    ∃ out, onIdle cfg now remaining s = .ok out := by
  rw [onIdle]
  split
  · exact ⟨_, rfl⟩
  · have hcreated : QueueInvariant (onIdleCreateProposalBatches cfg remaining s).1 :=
      invariant_of_reflTransGen QueueInvariant (fun _ _ => queueInvariant_closes) h
        (onIdleCreateProposalBatches_closes remaining)
    dsimp only
    rw [onIdleRemoveExpiredBatches]
    split
    · exact ⟨_, rfl⟩
    · exact removeExpired_ok hcreated.queued_ne_nil _

end Expiry

/-- In every state of a run the queue is well formed and the hook for the rest of a block
does not panic. -/
theorem queueInvariant_run (cfg : Config L AccountId R) (hmax : 1 ≤ L.maxProposalsPerBatch)
    (rest : R) (calls : List (Call L AccountId R)) :
    Always (step cfg) (fun s => QueueInvariant s ∧
      ∀ now remaining, ∃ out, onIdle cfg now remaining s = .ok out)
      (State.empty rest) calls := by
  intro pre post hsplit
  have hinv : QueueInvariant (run (step cfg) (State.empty rest) pre) :=
    invariant_run QueueInvariant (fun s call h _ => queueInvariant_step hmax h call)
      (queueInvariant_empty rest) (stepsMeet_true _ _ _)
  exact ⟨hinv, hinv.onIdle_ok⟩

theorem queueInvariant_run_sample :
    1 ≤ runtimeLimits.maxProposalsPerBatch ∧
      Always (step sampleHandler) (fun s => QueueInvariant s ∧
        ∀ now remaining, ∃ out, onIdle sampleHandler now remaining s = .ok out)
        (State.empty sampleRest)
        (sampleQueueing ++
          [.submitSignedProposals .none [sampleBatch 0 [sampleTokenAdd 5] 7],
            .onIdle 200 sampleWeight]) :=
  ⟨by decide, queueInvariant_run sampleHandler (by decide) sampleRest _⟩

end DkgSubstrate.ProposalQueue
