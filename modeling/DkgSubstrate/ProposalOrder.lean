import DkgSubstrate.ProposalHandlerEffects

/-!
The order of the proposals.  Where no batch leaves the queue, the batches of a chain and
the proposals that are staged for it are together the sequence of the proposals that were
accepted for it.
-/

namespace DkgSubstrate.ProposalOrder

open DkgSubstrate.Dispatch
open DkgSubstrate.Primitives
open DkgSubstrate.ProposalHandler
open DkgSubstrate.ProposalHandlerEffects
open DkgSubstrate.Proposals
open DkgSubstrate.Runs

variable {L : Limits} {AccountId R : Type}

/-- The entries for new proposals, the creation of batches and whatever the rest of the
runtime does. -/
inductive Intake (L : Limits) (AccountId R : Type) where
  | handleUnsignedProposal (prop : Proposal L)
  | forceSubmitUnsignedProposal (origin : Origin AccountId) (prop : Proposal L)
  | onIdleCreateProposalBatches (remaining : Weight)
  | environment (rest : R)

def intakeStep (cfg : Config L AccountId R) (s : State L R) : Intake L AccountId R → State L R
  | .handleUnsignedProposal prop =>
      commit s ((handleUnsignedProposal cfg prop s).map Prod.fst)
  | .forceSubmitUnsignedProposal origin prop =>
      commit s (forceSubmitUnsignedProposal cfg origin prop s)
  | .onIdleCreateProposalBatches remaining => (onIdleCreateProposalBatches cfg remaining s).1
  | .environment rest => { s with rest := rest }

def identified (D : Decoders) (prop : Proposal L) : List (UnsignedProposal L) :=
  match decodeProposalIdentifier D prop with
  | .ok id => [⟨id.typedChainId, id.key, prop⟩]
  | .error _ => []

/-- The proposal of a call that succeeds. -/
def accepted (cfg : Config L AccountId R) (s : State L R) :
    Intake L AccountId R → List (UnsignedProposal L)
  | .handleUnsignedProposal prop =>
      match handleUnsignedProposal cfg prop s with
      | .ok (_, .ok ()) => identified cfg.decoders prop
      | _ => []
  | .forceSubmitUnsignedProposal origin prop =>
      match forceSubmitUnsignedProposal cfg origin prop s with
      | .ok _ => identified cfg.decoders prop
      | .error _ => []
  | _ => []

def batchesOf (chain : TypedChainId) (s : State L R) : List (StoredUnsignedProposalBatch L) :=
  ((s.unsignedProposalQueue.iter Prod.snd).filter fun entry => entry.1.1 = chain).map Prod.snd

def stagedFor (chain : TypedChainId) (s : State L R) : List (UnsignedProposal L) :=
  (s.unsignedProposals.getD chain default).toList

def held (chain : TypedChainId) (s : State L R) : List (UnsignedProposal L) :=
  ((batchesOf chain s).flatMap fun batch => batch.proposals.toList) ++ stagedFor chain s

def ofChain (chain : TypedChainId) (us : List (UnsignedProposal L)) : List (UnsignedProposal L) :=
  us.filter fun u => u.typedChainId = chain

def IdsBelowNext (s : State L R) : Prop :=
  ∀ key, s.unsignedProposalQueue.lookup key ≠ none → key.2 < s.nextBatchId

section Steps

variable {cfg : Config L AccountId R} {s t : State L R} {chain chain' : TypedChainId}
variable {proposals : StagedProposals L}

theorem idsBelowNext_queueBatch (h : IdsBelowNext s) :
    IdsBelowNext (queueBatch cfg chain s.nextBatchId proposals
      { s with nextBatchId := s.nextBatchId + 1 }) := by
  intro key hkey
  rw [queueBatch, StorageMap.lookup_insert_eq] at hkey
  split at hkey
  · rename_i heq
    rw [heq]
    exact Nat.lt_succ_self _
  · exact Nat.lt_succ_of_lt (h key hkey)

theorem batchesOf_queueBatch (h : IdsBelowNext s) :
    batchesOf chain' (queueBatch cfg chain s.nextBatchId proposals
        { s with nextBatchId := s.nextBatchId + 1 }) =
      batchesOf chain' s ++ if chain = chain' then
        [⟨s.nextBatchId, proposals, cfg.blockNumber s.rest⟩] else [] := by
  have hiter : StorageMap.iter Prod.snd (s.unsignedProposalQueue.insert (chain, s.nextBatchId)
      ⟨s.nextBatchId, proposals, cfg.blockNumber s.rest⟩) =
      s.unsignedProposalQueue.iter Prod.snd ++
        [((chain, s.nextBatchId), ⟨s.nextBatchId, proposals, cfg.blockNumber s.rest⟩)] :=
    StorageMap.iter_insert_of_lt _ h
  simp only [batchesOf, queueBatch]
  rw [hiter, List.filter_append, List.map_append]
  by_cases heq : chain = chain' <;> simp [heq]

theorem stagedFor_stage :
    stagedFor chain' (stage chain proposals s) =
      if chain' = chain then proposals.toList else stagedFor chain' s := by
  rw [stagedFor, stage, StorageMap.getD_insert]
  split <;> rfl

theorem stagedFor_of_lookup (h : s.unsignedProposals.lookup chain = some proposals) :
    stagedFor chain s = proposals.toList := by
  rw [stagedFor, StorageMap.getD, h]
  rfl

theorem ofChain_singleton (u : UnsignedProposal L) :
    ofChain chain [u] = if u.typedChainId = chain then [u] else [] := by
  by_cases h : u.typedChainId = chain <;> simp [ofChain, h]

theorem held_stores (chain : TypedChainId) {prop : Proposal L} {id : ProposalIdentifier}
    {out : State L R × Except DispatchError Unit} (h : IdsBelowNext s)
    (hstores : Stores cfg prop id s out) :
    IdsBelowNext out.1 ∧ held chain out.1 = held chain s ++
      ofChain chain (if out.2 = .ok () then [⟨id.typedChainId, id.key, prop⟩] else []) := by
  cases hstores with
  | refused e => exact ⟨h, by simp [ofChain]⟩
  | staged hpush =>
      refine ⟨h, ?_⟩
      rw [if_pos rfl, ofChain_singleton, held, stagedFor_stage]
      by_cases hchain : chain = id.typedChainId
      · rw [if_pos hchain, if_pos hchain.symm, hpush, held, List.append_assoc, hchain]
        rfl
      · rw [if_neg hchain, if_neg (Ne.symm hchain), List.append_nil]
        rfl
  | queued hfull hbits hpush =>
      refine ⟨idsBelowNext_queueBatch h, ?_⟩
      rw [if_pos rfl, ofChain_singleton, held, stagedFor_stage]
      change List.flatMap _ (batchesOf chain (queueBatch cfg _ _ _ _)) ++ _ = _
      rw [batchesOf_queueBatch h]
      by_cases hchain : chain = id.typedChainId
      · rw [if_pos hchain, if_pos hchain.symm, if_pos hchain.symm, hpush, List.flatMap_append,
          List.flatMap_singleton, held, hchain]
        rfl
      · rw [if_neg hchain, if_neg (Ne.symm hchain), if_neg (Ne.symm hchain), List.append_nil,
          List.append_nil]
        rfl
  | emptyQueued e hempty hbits =>
      refine ⟨idsBelowNext_queueBatch h, ?_⟩
      have hnil : (s.unsignedProposals.getD id.typedChainId default).toList = [] :=
        List.eq_nil_of_length_eq_zero
          (Nat.le_zero.mp (hempty ▸ (s.unsignedProposals.getD id.typedChainId default).length_le))
      have hbatch : (if id.typedChainId = chain then
          [(⟨s.nextBatchId, s.unsignedProposals.getD id.typedChainId default,
            cfg.blockNumber s.rest⟩ : StoredUnsignedProposalBatch L)] else []).flatMap
          (fun batch => batch.proposals.toList) = [] := by
        split
        · rw [List.flatMap_singleton, hnil]
        · rfl
      rw [if_neg (by simp), held, batchesOf_queueBatch h, List.flatMap_append, hbatch,
        List.append_nil]
      exact (List.append_nil _).symm

theorem held_closes (chain : TypedChainId) (h : IdsBelowNext s) (hcloses : Closes cfg s t) :
    IdsBelowNext t ∧ held chain t = held chain s := by
  obtain ⟨hstaged, hbits⟩ := hcloses
  rename_i closed proposals
  refine ⟨idsBelowNext_queueBatch h, ?_⟩
  have hafter : stagedFor chain (closeBatch cfg closed proposals s) =
      if chain = closed then [] else stagedFor chain s := by
    rw [stagedFor, closeBatch, StorageMap.getD_erase]
    split <;> rfl
  rw [held, hafter]
  change List.flatMap _ (batchesOf chain (queueBatch cfg _ _ _ _)) ++ _ = _
  rw [batchesOf_queueBatch h, held, List.flatMap_append]
  by_cases hchain : chain = closed
  · rw [if_pos hchain, if_pos hchain.symm, hchain, stagedFor_of_lookup hstaged,
      List.flatMap_singleton, List.append_nil]
  · rw [if_neg hchain, if_neg (Ne.symm hchain), List.flatMap_nil, List.append_nil]

theorem held_onIdleCreateProposalBatches (chain : TypedChainId) (h : IdsBelowNext s)
    (remaining : Weight) :
    IdsBelowNext (onIdleCreateProposalBatches cfg remaining s).1 ∧
      held chain (onIdleCreateProposalBatches cfg remaining s).1 = held chain s := by
  refine invariant_of_reflTransGen (fun t => IdsBelowNext t ∧ held chain t = held chain s) ?_
    ⟨h, rfl⟩ (onIdleCreateProposalBatches_closes remaining)
  rintro t t' ⟨ht, hheld⟩ hcloses
  obtain ⟨ht', hheld'⟩ := held_closes chain ht hcloses
  exact ⟨ht', hheld'.trans hheld⟩

theorem held_intakeStep (chain : TypedChainId) (h : IdsBelowNext s)
    (call : Intake L AccountId R) :
    IdsBelowNext (intakeStep cfg s call) ∧ held chain (intakeStep cfg s call) =
      held chain s ++ ofChain chain (accepted cfg s call) := by
  cases call with
  | handleUnsignedProposal prop =>
      rw [intakeStep, accepted]
      cases hout : handleUnsignedProposal cfg prop s with
      | error fault => exact ⟨h, (List.append_nil _).symm⟩
      | ok out =>
          rcases handleUnsignedProposal_ok hout with ⟨id, hid, hstored⟩ | ⟨e, rfl⟩
          · have hstores := held_stores chain h
              (hstored ▸ storeUnsignedProposal_stores prop id s)
            obtain ⟨t, result⟩ := out
            cases result with
            | ok _ =>
                rw [identified, hid]
                exact hstores
            | error e => exact hstores
          · exact ⟨h, (List.append_nil _).symm⟩
  | forceSubmitUnsignedProposal origin prop =>
      rw [intakeStep, accepted]
      cases hout : forceSubmitUnsignedProposal cfg origin prop s with
      | error fault => exact ⟨h, (List.append_nil _).symm⟩
      | ok t =>
          obtain ⟨-, id, hid, hstored⟩ := forceSubmitUnsignedProposal_ok hout
          rw [identified, hid]
          exact held_stores chain h (hstored ▸ storeUnsignedProposal_stores prop id s)
  | onIdleCreateProposalBatches remaining =>
      obtain ⟨hids, hheld⟩ := held_onIdleCreateProposalBatches chain h remaining
      exact ⟨hids, hheld.trans (List.append_nil _).symm⟩
  | environment rest => exact ⟨h, (List.append_nil _).symm⟩

end Steps

/-- Nothing is lost, duplicated or reordered: the batches of a chain in the order of their
ids and then its staged proposals are the proposals that were accepted for it, in the order
in which they were accepted. -/
theorem held_run (cfg : Config L AccountId R) (rest : R) (calls : List (Intake L AccountId R))
    (chain : TypedChainId) :
    held chain (run (intakeStep cfg) (State.empty rest) calls) =
      ofChain chain (trace (intakeStep cfg) (accepted cfg) (State.empty rest) calls) := by
  rw [ofChain, filter_trace]
  refine (log_run IdsBelowNext (fun s call h => (held_intakeStep chain h call).1)
    (fun s call h => (held_intakeStep chain h call).2) ?_ calls).trans (List.nil_append _)
  exact fun key hkey => absurd rfl hkey

end DkgSubstrate.ProposalOrder
