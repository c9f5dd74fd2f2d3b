import DkgSubstrate.ProposalDecoding
import DkgSubstrate.ProposalQueue

/-!
The clean-up after a signed refresh proposal.  The batches with a refresh proposal are
collected from the whole queue, and their ids are removed under the chain of the signed batch
only.
-/

namespace DkgSubstrate.RefreshCleanup

open DkgSubstrate.Dispatch
open DkgSubstrate.Primitives
open DkgSubstrate.ProposalDecoding
open DkgSubstrate.ProposalHandler
open DkgSubstrate.ProposalQueue
open DkgSubstrate.Proposals
open DkgSubstrate.Runs
open DkgSubstrate.Runtime
open DkgSubstrate.SampleRuntime
open DkgSubstrate.SignedBatches
open DkgSubstrate.Words

variable {L : Limits} {AccountId R : Type} {cfg : Config L AccountId R}

def HoldsRefresh (stored : StoredUnsignedProposalBatch L) : Prop :=
  ∃ u ∈ stored.proposals.toList, u.proposal.kind = .refresh

instance decidableHoldsRefresh (stored : StoredUnsignedProposalBatch L) :
    Decidable (HoldsRefresh stored) :=
  List.decidableBEx _ _

def OneChain (queue : ProposalQueue L) : Prop :=
  ∀ chain chain' batchId stored stored', queue.lookup (chain, batchId) = some stored →
    queue.lookup (chain', batchId) = some stored' → chain = chain'

def Pruned (chain : TypedChainId) (queue queue' : ProposalQueue L) : Prop :=
  ∀ key stored, queue'.lookup key = some stored ↔
    queue.lookup key = some stored ∧ ¬(key.1 = chain ∧ HoldsRefresh stored)

theorem Pruned.trans {chain : TypedChainId} {queue queue' queue'' : ProposalQueue L}
    (h : Pruned chain queue queue') (h' : Pruned chain queue' queue'') :
    Pruned chain queue queue'' := by
  intro key stored
  rw [h' key stored, h key stored, and_assoc, and_self_iff]

theorem Pruned.oneChain {chain : TypedChainId} {queue queue' : ProposalQueue L}
    (h : Pruned chain queue queue') (hone : OneChain queue) : OneChain queue' := by
  intro c c' batchId stored stored' hlookup hlookup'
  exact hone c c' batchId stored stored' ((h _ _).mp hlookup).1 ((h _ _).mp hlookup').1

theorem lookup_foldl_erase (chain : TypedChainId) (ids : List ℕ) (queue : ProposalQueue L)
    (key : TypedChainId × ℕ) :
    (ids.foldl (fun queue batchId => queue.erase (chain, batchId)) queue).lookup key =
      if key.1 = chain ∧ key.2 ∈ ids then none else queue.lookup key := by
  rw [StorageMap.lookup_foldl_erase fun batchId => (chain, batchId)]
  refine if_congr ?_ rfl rfl
  constructor
  · rintro ⟨batchId, hmem, rfl⟩
    exact ⟨rfl, hmem⟩
  · rintro ⟨rfl, hmem⟩
    exact ⟨key.2, hmem, rfl⟩

theorem mem_refreshBatchIds {queue : ProposalQueue L} {batchId : ℕ} :
    batchId ∈ refreshBatchIds cfg queue ↔
      ∃ chain stored, queue.lookup (chain, batchId) = some stored ∧ HoldsRefresh stored := by
  simp only [refreshBatchIds, List.mem_flatMap, List.mem_map, List.mem_filter,
    decide_eq_true_eq]
  constructor
  · rintro ⟨⟨⟨chain, id⟩, stored⟩, hentry, u, ⟨hu, hkind⟩, rfl⟩
    exact ⟨chain, stored, StorageMap.mem_iter.mp hentry, u, hu, hkind⟩
  · rintro ⟨chain, stored, hlookup, u, hu, hkind⟩
    exact ⟨((chain, batchId), stored), StorageMap.mem_iter.mpr hlookup, u, ⟨hu, hkind⟩, rfl⟩

theorem pruned_foldl_erase (cfg : Config L AccountId R) {queue : ProposalQueue L}
    (hone : OneChain queue) (chain : TypedChainId) :
    Pruned chain queue ((refreshBatchIds cfg queue).foldl
      (fun queue batchId => queue.erase (chain, batchId)) queue) := by
  rintro ⟨chain', batchId⟩ stored
  rw [lookup_foldl_erase]
  dsimp only
  constructor
  · intro h
    split at h
    · cases h
    · rename_i hkept
      refine ⟨h, ?_⟩
      rintro ⟨hchain, hrefresh⟩
      exact hkept ⟨hchain, mem_refreshBatchIds.mpr ⟨chain', stored, h, hrefresh⟩⟩
  · rintro ⟨hlookup, hkept⟩
    rw [if_neg, hlookup]
    rintro ⟨rfl, hmem⟩
    obtain ⟨c, stored', hlookup', hrefresh⟩ := mem_refreshBatchIds.mp hmem
    obtain rfl := hone chain' c batchId stored stored' hlookup hlookup'
    rw [hlookup] at hlookup'
    exact hkept ⟨rfl, Option.some.inj hlookup' ▸ hrefresh⟩

theorem removeRefreshBatches_of_forall_ne (chain : TypedChainId) {ps : List (Proposal L)}
    (h : ∀ p ∈ ps, p.kind ≠ .refresh) (queue : ProposalQueue L) :
    removeRefreshBatches cfg chain ps queue = queue := by
  induction ps with
  | nil => rfl
  | cons p ps ih =>
      obtain ⟨hp, hps⟩ := List.forall_mem_cons.mp h
      rw [removeRefreshBatches, List.foldl_cons, if_neg hp]
      exact ih hps

theorem pruned_removeRefreshBatches (cfg : Config L AccountId R) (chain : TypedChainId)
    {ps : List (Proposal L)} (h : ∃ p ∈ ps, p.kind = .refresh) {queue : ProposalQueue L}
    (hone : OneChain queue) :
    Pruned chain queue (removeRefreshBatches cfg chain ps queue) := by
  induction ps generalizing queue with
  | nil => simp at h
  | cons p ps ih =>
      rw [removeRefreshBatches, List.foldl_cons]
      change Pruned chain queue (removeRefreshBatches cfg chain ps _)
      have hpruned := pruned_foldl_erase cfg hone chain
      by_cases hmore : ∃ p ∈ ps, p.kind = .refresh
      · by_cases hp : p.kind = .refresh
        · rw [if_pos hp]
          exact hpruned.trans (ih hmore (hpruned.oneChain hone))
        · rw [if_neg hp]
          exact ih hmore hone
      · have hp : p.kind = .refresh := by
          obtain ⟨q, hq, hkind⟩ := h
          rcases List.mem_cons.mp hq with rfl | hq
          · exact hkind
          · exact absurd ⟨q, hq, hkind⟩ hmore
        rw [if_pos hp, removeRefreshBatches_of_forall_ne]
        · exact hpruned
        · exact fun q hq hkind => hmore ⟨q, hq, hkind⟩

theorem lookup_handleSignedProposalBatch {prop : SignedProposalBatch L} {s s' : State L R}
    {key : TypedChainId × ℕ} (hone : OneChain s.unsignedProposalQueue)
    (haccepted : handleSignedProposalBatch cfg prop s = .ok s')
    (hkey : batchKey cfg prop = some key)
    (hrefresh : ∃ p ∈ prop.proposals.toList, p.kind = .refresh) (key' : TypedChainId × ℕ)
    (stored : StoredUnsignedProposalBatch L) :
    s'.unsignedProposalQueue.lookup key' = some stored ↔
      s.unsignedProposalQueue.lookup key' = some stored ∧ key' ≠ key ∧
        ¬(key'.1 = key.1 ∧ HoldsRefresh stored) := by
  simp only [handleSignedProposalBatch, bind_eq_ok, okOr_eq_ok, ensure_eq_ok] at haccepted
  obtain ⟨first, hfirst, id, hid, _, -, _, -, _, -, rest, -, h⟩ := haccepted
  have hkeyEq : key = (id.typedChainId, prop.batchId) :=
    Option.some.inj (hkey.symm.trans (batchKey_eq_some hfirst hid))
  have herased : ∀ k batch, (s.unsignedProposalQueue.erase key).lookup k = some batch ↔
      s.unsignedProposalQueue.lookup k = some batch ∧ k ≠ key := by
    intro k batch
    rw [StorageMap.lookup_erase_eq]
    by_cases hk : k = key
    · simp [hk]
    · simp [hk]
  have honeErased : OneChain (s.unsignedProposalQueue.erase key) := by
    intro c c' batchId batch batch' hlookup hlookup'
    exact hone c c' batchId batch batch' ((herased _ _).mp hlookup).1
      ((herased _ _).mp hlookup').1
  rw [← Except.ok.inj h]
  have hpruned := pruned_removeRefreshBatches cfg key.1 hrefresh honeErased key' stored
  rw [hkeyEq] at hpruned herased ⊢
  rw [hpruned, herased, and_assoc]

/-- The states of the pallet, those between the batches of one submission included. -/
def Reachable (cfg : Config L AccountId R) (s : State L R) : Prop :=
  ∃ rest calls, Relation.ReflTransGen
    (fun t t' => ∃ batch, handleSignedProposalBatch cfg batch t = .ok t')
    (run (step cfg) (State.empty rest) calls) s

theorem Reachable.queueInvariant (hmax : 1 ≤ L.maxProposalsPerBatch) {s : State L R}
    (h : Reachable cfg s) : QueueInvariant s := by
  obtain ⟨rest, calls, hreach⟩ := h
  refine invariant_of_reflTransGen QueueInvariant ?_
    (queueInvariant_run cfg hmax rest calls calls [] (List.append_nil calls).symm).1 hreach
  rintro t t' ht ⟨batch, hhandled⟩
  exact queueInvariant_handleSignedProposalBatch ht hhandled

theorem oneChain_of_queueInvariant {s : State L R} (h : QueueInvariant s) :
    OneChain s.unsignedProposalQueue := by
  intro chain chain' batchId stored stored' hlookup hlookup'
  exact h.oneChain chain chain' batchId (StorageMap.containsKey_iff.mpr ⟨stored, hlookup⟩)
    (StorageMap.containsKey_iff.mpr ⟨stored', hlookup'⟩)

/-- All queued refresh proposals are gone, and no other batch is, apart from the accepted
one. -/
structure CleansUp (key : TypedChainId × ℕ) (s s' : State L R) : Prop where
  noRefresh : ∀ key' stored, s'.unsignedProposalQueue.lookup key' = some stored →
    ¬HoldsRefresh stored
  kept : ∀ key' stored, s.unsignedProposalQueue.lookup key' = some stored → key' ≠ key →
    ¬HoldsRefresh stored → s'.unsignedProposalQueue.lookup key' = some stored

/-- An accepted refresh proposal cleans up exactly if the other queued batches with a refresh
proposal stand under the chain of the accepted batch. -/
theorem cleansUp_iff (cfg : Config L AccountId R) {s s' : State L R} (hreach : Reachable cfg s)
    {prop : SignedProposalBatch L} (haccepted : handleSignedProposalBatch cfg prop s = .ok s')
    (hrefresh : ∃ p ∈ prop.proposals.toList, p.kind = .refresh) {key : TypedChainId × ℕ}
    (hkey : batchKey cfg prop = some key) :
    CleansUp key s s' ↔
      ∀ key' stored, s.unsignedProposalQueue.lookup key' = some stored → key' ≠ key →
        HoldsRefresh stored → key'.1 = key.1 := by
  have hmax : 1 ≤ L.maxProposalsPerBatch := by
    obtain ⟨p, hp, -⟩ := hrefresh
    exact (List.length_pos_of_mem hp).trans_le prop.proposals.length_le
  have hone := oneChain_of_queueInvariant (hreach.queueInvariant hmax)
  have hleft := lookup_handleSignedProposalBatch hone haccepted hkey hrefresh
  constructor
  · intro hclean key' stored hlookup hne hholds
    by_contra hchain
    refine hclean.noRefresh key' stored ?_ hholds
    exact (hleft key' stored).mpr ⟨hlookup, hne, fun h => hchain h.1⟩
  · intro hchains
    refine ⟨?_, ?_⟩
    · intro key' stored hlookup hholds
      obtain ⟨hbefore, hne, hkept⟩ := (hleft key' stored).mp hlookup
      exact hkept ⟨hchains key' stored hbefore hne hholds, hholds⟩
    · intro key' stored hlookup hne hholds
      exact (hleft key' stored).mpr ⟨hlookup, hne, fun h => hholds h.2⟩

def chainHandler : Config runtimeLimits ℕ (Rest sampleWiring Unit) :=
  { sampleHandler with decoders := chainDecoders }

def sampleRefreshes (rootEnd : Bytes) : State runtimeLimits (Rest sampleWiring Unit) :=
  run (step chainHandler) (State.empty sampleRest)
    [.forceSubmitUnsignedProposal .root (refreshWithRootEnd [0, 0, 0, 0, 0, 5] 3),
      .onIdle 2 sampleWeight,
      .forceSubmitUnsignedProposal .root (refreshWithRootEnd rootEnd 4),
      .onIdle 4 sampleWeight]

theorem reachable_sampleRefreshes (rootEnd : Bytes) :
    Reachable chainHandler (sampleRefreshes rootEnd) :=
  ⟨sampleRest, _, .refl⟩

def sampleRefreshBatch : SignedProposalBatch runtimeLimits :=
  sampleBatch 0 [refreshWithRootEnd [0, 0, 0, 0, 0, 5] 3] 7

def sampleCleaned (rootEnd : Bytes) : State runtimeLimits (Rest sampleWiring Unit) :=
  commit (sampleRefreshes rootEnd)
    (handleSignedProposalBatch chainHandler sampleRefreshBatch (sampleRefreshes rootEnd))

theorem sampleRefreshBatch_holds_refresh :
    ∃ p ∈ sampleRefreshBatch.proposals.toList, p.kind = .refresh :=
  ⟨refreshWithRootEnd [0, 0, 0, 0, 0, 5] 3, by decide +kernel, by decide +kernel⟩

theorem cleansUp_sampleCleaned :
    CleansUp (.none, 0) (sampleRefreshes [0, 0, 0, 0, 0, 6])
      (sampleCleaned [0, 0, 0, 0, 0, 6]) := by
  refine (cleansUp_iff chainHandler (reachable_sampleRefreshes _)
    (eq_ok_commit _ (by decide +kernel)) sampleRefreshBatch_holds_refresh
    (by decide +kernel)).mpr ?_
  intro key' stored hlookup _ _
  have hkeys : ∀ entry ∈ (sampleRefreshes [0, 0, 0, 0, 0, 6]).unsignedProposalQueue.iter
      (batchOrder chainHandler), entry.1.1 = .none := by
    decide +kernel
  exact hkeys (key', stored) (StorageMap.mem_iter.mpr hlookup)

theorem refresh_of_other_chain_stays :
    Reachable chainHandler (sampleRefreshes [1, 0, 0, 0, 0, 6]) ∧
      handleSignedProposalBatch chainHandler sampleRefreshBatch
        (sampleRefreshes [1, 0, 0, 0, 0, 6]) = .ok (sampleCleaned [1, 0, 0, 0, 0, 6]) ∧
      (∃ p ∈ sampleRefreshBatch.proposals.toList, p.kind = .refresh) ∧
      ∃ stored, (sampleCleaned [1, 0, 0, 0, 0, 6]).unsignedProposalQueue.lookup (.evm 6, 1) =
        some stored ∧ HoldsRefresh stored := by
  refine ⟨reachable_sampleRefreshes _, eq_ok_commit _ (by decide +kernel),
    sampleRefreshBatch_holds_refresh, ?_⟩
  have hstays : ((sampleCleaned [1, 0, 0, 0, 0, 6]).unsignedProposalQueue.lookup
      (.evm 6, 1)).any (fun stored => HoldsRefresh stored) = true := by
    decide +kernel
  generalize (sampleCleaned [1, 0, 0, 0, 0, 6]).unsignedProposalQueue.lookup (.evm 6, 1) =
    found at hstays
  cases found with
  | none => cases hstays
  | some stored => exact ⟨stored, rfl, of_decide_eq_true hstays⟩

end DkgSubstrate.RefreshCleanup
