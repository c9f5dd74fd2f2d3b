import DkgSubstrate.RefreshCleanup
import DkgSubstrate.UnsignedWork
import Mathlib.Data.List.Induction

/-!
The expiry of batches.  Whether a batch may expire is read off its first proposal.
-/

namespace DkgSubstrate.BatchExpiry

open DkgSubstrate.Dispatch
open DkgSubstrate.Primitives
open DkgSubstrate.ProposalDecoding
open DkgSubstrate.ProposalHandler
open DkgSubstrate.ProposalHandlerEffects
open DkgSubstrate.ProposalQueue
open DkgSubstrate.Proposals
open DkgSubstrate.RefreshCleanup
open DkgSubstrate.Runs
open DkgSubstrate.Runtime
open DkgSubstrate.SampleRuntime
open DkgSubstrate.SignedBatches
open DkgSubstrate.UnsignedWork hiding step

variable {L : Limits} {AccountId R : Type} {cfg : Config L AccountId R} {s s' : State L R}

/-- Staged proposals were submitted by now, and queued ones by the timestamp of their
batch. -/
structure Dated (cfg : Config L AccountId R) (submitted : Proposal L → ℕ → Prop)
    (s : State L R) : Prop where
  staged : ∀ chain proposals, s.unsignedProposals.lookup chain = some proposals →
    ∀ u ∈ proposals.toList, ∃ block ≤ cfg.blockNumber s.rest, submitted u.proposal block
  queued : ∀ key stored, s.unsignedProposalQueue.lookup key = some stored →
    ∀ u ∈ stored.proposals.toList, ∃ block ≤ stored.timestamp, submitted u.proposal block

variable {submitted submitted' : Proposal L → ℕ → Prop}

theorem Dated.mono (hs : Dated cfg submitted s)
    (h : ∀ prop block, submitted prop block → submitted' prop block) :
    Dated cfg submitted' s := by
  refine ⟨?_, ?_⟩
  · intro chain proposals hlookup u hu
    obtain ⟨block, hle, hblock⟩ := hs.staged chain proposals hlookup u hu
    exact ⟨block, hle, h _ _ hblock⟩
  · intro key stored hlookup u hu
    obtain ⟨block, hle, hblock⟩ := hs.queued key stored hlookup u hu
    exact ⟨block, hle, h _ _ hblock⟩

theorem Dated.of_lookup (hs : Dated cfg submitted s)
    (hblock : cfg.blockNumber s.rest ≤ cfg.blockNumber s'.rest)
    (hstaged : ∀ chain proposals, s'.unsignedProposals.lookup chain = some proposals →
      s.unsignedProposals.lookup chain = some proposals)
    (hqueued : ∀ key stored, s'.unsignedProposalQueue.lookup key = some stored →
      s.unsignedProposalQueue.lookup key = some stored) : Dated cfg submitted s' := by
  refine ⟨?_, ?_⟩
  · intro chain proposals hlookup u hu
    obtain ⟨block, hle, hsubmitted⟩ :=
      hs.staged chain proposals (hstaged chain proposals hlookup) u hu
    exact ⟨block, hle.trans hblock, hsubmitted⟩
  · intro key stored hlookup
    exact hs.queued key stored (hqueued key stored hlookup)

theorem dated_queueBatch {chain : TypedChainId} {proposals : StagedProposals L}
    (batchId nextBatchId : ℕ) (hs : Dated cfg submitted s)
    (h : ∀ u ∈ proposals.toList,
      ∃ block ≤ cfg.blockNumber s.rest, submitted u.proposal block) :
    Dated cfg submitted
      (queueBatch cfg chain batchId proposals { s with nextBatchId := nextBatchId }) := by
  refine ⟨hs.staged, ?_⟩
  intro key stored hlookup
  simp only [queueBatch, StorageMap.lookup_insert_eq] at hlookup
  split at hlookup
  · rw [← Option.some.inj hlookup]
    exact h
  · exact hs.queued key stored hlookup

theorem dated_stage {chain : TypedChainId} {proposals : StagedProposals L}
    (hs : Dated cfg submitted s)
    (h : ∀ u ∈ proposals.toList,
      ∃ block ≤ cfg.blockNumber s.rest, submitted u.proposal block) :
    Dated cfg submitted (stage chain proposals s) := by
  refine ⟨?_, hs.queued⟩
  intro chain' proposals' hlookup
  simp only [stage, StorageMap.lookup_insert_eq] at hlookup
  split at hlookup
  · rw [← Option.some.inj hlookup]
    exact h
  · exact hs.staged chain' proposals' hlookup

theorem Dated.staged_default (hs : Dated cfg submitted s) (chain : TypedChainId) :
    ∀ u ∈ (s.unsignedProposals.getD chain default).toList,
      ∃ block ≤ cfg.blockNumber s.rest, submitted u.proposal block := by
  rw [StorageMap.getD]
  cases hlookup : s.unsignedProposals.lookup chain with
  | none =>
      intro u hu
      cases hu
  | some proposals => exact hs.staged chain proposals hlookup

theorem dated_stores {prop : Proposal L} {id : ProposalIdentifier}
    {out : State L R × Except DispatchError Unit} (hs : Dated cfg submitted s)
    (hnew : submitted prop (cfg.blockNumber s.rest)) (h : Stores cfg prop id s out) :
    Dated cfg submitted out.1 := by
  have hstaged := hs.staged_default id.typedChainId
  cases h with
  | refused e => exact hs
  | staged hpush =>
      refine dated_stage hs ?_
      intro u hu
      rw [hpush] at hu
      rcases List.mem_append.mp hu with hold | hlast
      · exact hstaged u hold
      · rw [List.mem_singleton.mp hlast]
        exact ⟨_, le_rfl, hnew⟩
  | queued hfull hbits hpush =>
      refine dated_stage (dated_queueBatch _ _ hs hstaged) ?_
      intro u hu
      rw [hpush] at hu
      rw [List.mem_singleton.mp hu]
      exact ⟨_, le_rfl, hnew⟩
  | emptyQueued e hempty hbits => exact dated_queueBatch _ _ hs hstaged

theorem dated_tidy (hs : Dated cfg submitted s) (h : Tidy cfg s s') :
    Dated cfg submitted s' := by
  cases h with
  | unqueue key =>
      exact hs.of_lookup le_rfl (fun _ _ h => h) fun _ _ => StorageMap.lookup_of_lookup_erase
  | close hcloses =>
      cases hcloses with
      | @close chain proposals hstaged hbits =>
          have hqueued : Dated cfg submitted (queueBatch cfg chain s.nextBatchId proposals
              { s with nextBatchId := s.nextBatchId + 1 }) :=
            dated_queueBatch _ _ hs (hs.staged chain proposals hstaged)
          exact hqueued.of_lookup le_rfl (fun _ _ => StorageMap.lookup_of_lookup_erase)
            fun _ _ h => h

theorem dated_dispatch {call : Call L AccountId R} (hs : Dated cfg submitted s)
    (h : dispatch cfg s call = .ok s')
    (hblock : cfg.blockNumber s.rest ≤ cfg.blockNumber s'.rest)
    (hnew : ∀ prop, Hands call prop → submitted prop (cfg.blockNumber s.rest)) :
    Dated cfg submitted s' := by
  cases call with
  | submitSignedProposals origin props =>
      simp only [dispatch, submitSignedProposals, bind_eq_ok] at h
      obtain ⟨_, -, h⟩ := h
      -- The rest of the runtime may pass through earlier blocks while batches are handled.
      obtain ⟨hstaged, hremoved⟩ := submitBatches_removes h
      exact hs.of_lookup hblock (fun _ _ hlookup => hstaged ▸ hlookup) hremoved
  | forceSubmitUnsignedProposal origin prop =>
      obtain ⟨hunsigned, id, hid, hstored⟩ := forceSubmitUnsignedProposal_ok h
      have hstores : Stores cfg prop id s _ := storeUnsignedProposal_stores prop id s
      rw [hstored] at hstores
      exact dated_stores hs (hnew prop ⟨rfl, hunsigned⟩) hstores
  | handleUnsignedProposal prop =>
      simp only [dispatch, map_eq_ok] at h
      obtain ⟨out, hout, rfl⟩ := h
      rcases handleUnsignedProposal_ok hout with ⟨id, hid, rfl⟩ | ⟨e, rfl⟩
      · exact dated_stores hs (hnew prop rfl) (storeUnsignedProposal_stores prop id s)
      · exact hs
  | onIdle now remaining =>
      simp only [dispatch, map_eq_ok] at h
      obtain ⟨out, hout, rfl⟩ := h
      exact invariant_of_reflTransGen (Dated cfg submitted) (fun _ _ => dated_tidy) hs
        (onIdle_tidies hout)
  | submitDkgSigningOffence origin signedData =>
      obtain ⟨offence, rfl⟩ := submitDkgSigningOffence_ok h
      exact hs.of_lookup hblock (fun _ _ h => h) fun _ _ h => h
  | forceRemoveUnsignedProposalBatch origin chain batchId =>
      simp only [dispatch, forceRemoveUnsignedProposalBatch, bind_eq_ok] at h
      obtain ⟨_, -, _, -, h⟩ := h
      rw [← Except.ok.inj h]
      exact hs.of_lookup le_rfl (fun _ _ h => h) fun _ _ => StorageMap.lookup_of_lookup_erase
  | environment rest =>
      rw [← Except.ok.inj h] at hblock ⊢
      exact hs.of_lookup hblock (fun _ _ h => h) fun _ _ h => h

/-- A call of the run has submitted the proposal at the block. -/
def SubmittedAt (cfg : Config L AccountId R) (rest : R) (calls : List (Call L AccountId R))
    (prop : Proposal L) (block : ℕ) : Prop :=
  ∃ pre call post, calls = pre ++ call :: post ∧ Hands call prop ∧
    Accepted cfg (run (step cfg) (State.empty rest) pre) call ∧
    cfg.blockNumber (run (step cfg) (State.empty rest) pre).rest = block

/-- The block number does not go back. -/
def BlocksAdvance (cfg : Config L AccountId R) (rest : R) (calls : List (Call L AccountId R)) :
    Prop :=
  StepsMeet (step cfg) (fun s call => cfg.blockNumber s.rest ≤
    cfg.blockNumber (step cfg s call).rest) (State.empty rest) calls

theorem dated_run {rest : R} {calls : List (Call L AccountId R)}
    (hblocks : BlocksAdvance cfg rest calls) :
    Dated cfg (SubmittedAt cfg rest calls) (run (step cfg) (State.empty rest) calls) := by
  induction calls using List.reverseRecOn with
  | nil =>
      refine ⟨?_, ?_⟩
      · intro chain proposals hlookup
        cases hlookup
      · intro key stored hlookup
        cases hlookup
  | append_singleton calls call ih =>
      have hprev : BlocksAdvance cfg rest calls := by
        intro pre c post hsplit
        refine hblocks pre c (post ++ [call]) ?_
        rw [hsplit, List.append_assoc, List.cons_append]
      have hs : Dated cfg (SubmittedAt cfg rest (calls ++ [call]))
          (run (step cfg) (State.empty rest) calls) := by
        refine (ih hprev).mono ?_
        rintro prop block ⟨pre, c, post, hsplit, hrest⟩
        exact ⟨pre, c, post ++ [call], by rw [hsplit, List.append_assoc, List.cons_append],
          hrest⟩
      rw [run_append]
      rcases step_cases cfg (run (step cfg) (State.empty rest) calls) call with
        ⟨-, hsame⟩ | ⟨haccepted, hdispatch⟩
      · rw [run_cons, hsame]
        exact hs
      · refine dated_dispatch hs hdispatch (hblocks calls call [] rfl) ?_
        intro prop hhands
        exact ⟨calls, call, [], rfl, hhands, haccepted, rfl⟩

theorem expired_eq_true {now : ℕ} {batch : StoredUnsignedProposalBatch L} :
    expired cfg now batch = .ok true ↔
      cfg.unsignedProposalExpiry < now - batch.timestamp ∧
        ∃ first, batch.proposals.toList.head? = some first ∧
          ∀ nonce, first.key ≠ .refreshProposal nonce := by
  rw [expired]
  cases batch.proposals.toList.head? with
  | none => simp [expect, bind, Except.bind]
  | some first =>
      simp only [expect, bind, Except.bind, Option.some.injEq, exists_eq_left']
      cases hkey : first.key <;> simp

theorem removeExpired_lookup {now : ℕ}
    {batches : List ((TypedChainId × ℕ) × StoredUnsignedProposalBatch L)} {remaining : Weight}
    {out : State L R × Weight} (h : removeExpired cfg now batches remaining s = .ok out)
    (key : TypedChainId × ℕ) :
    out.1.unsignedProposalQueue.lookup key = s.unsignedProposalQueue.lookup key ∨
      ∃ batch, (key, batch) ∈ batches ∧ expired cfg now batch = .ok true := by
  induction batches generalizing remaining s with
  | nil =>
      rw [← Except.ok.inj h]
      exact .inl rfl
  | cons entry batches ih =>
      obtain ⟨key', batch⟩ := entry
      rw [removeExpired] at h
      cases hexpired : expired cfg now batch with
      | error fault => simp [hexpired] at h
      | ok past =>
          have hlater : ∀ {t : State L R},
              (out.1.unsignedProposalQueue.lookup key = t.unsignedProposalQueue.lookup key ∨
                ∃ batch, (key, batch) ∈ batches ∧ expired cfg now batch = .ok true) →
              out.1.unsignedProposalQueue.lookup key = t.unsignedProposalQueue.lookup key ∨
                ∃ b, (key, b) ∈ (key', batch) :: batches ∧ expired cfg now b = .ok true := by
            rintro t (hsame | ⟨b, hmem, hb⟩)
            · exact .inl hsame
            · exact .inr ⟨b, List.mem_cons_of_mem _ hmem, hb⟩
          cases past with
          | false =>
              simp only [hexpired] at h
              exact hlater (ih h)
          | true =>
              simp only [hexpired] at h
              split at h
              · rw [← Except.ok.inj h]
                exact .inl rfl
              · by_cases hkey : key = key'
                · subst hkey
                  exact .inr ⟨batch, List.mem_cons_self, hexpired⟩
                · have hrest := hlater (ih h)
                  rwa [StorageMap.lookup_erase_eq, if_neg hkey] at hrest

/-- The proof size is never used up, and as long as some is left every batch that is past
its expiry is removed. -/
theorem removeExpired_removes {now : ℕ}
    {batches : List ((TypedChainId × ℕ) × StoredUnsignedProposalBatch L)} {remaining : Weight}
    {out : State L R × Weight} (hsize : 0 < remaining.proofSize)
    (h : removeExpired cfg now batches remaining s = .ok out) {key : TypedChainId × ℕ}
    {batch : StoredUnsignedProposalBatch L} (hmem : (key, batch) ∈ batches)
    (hexpired : expired cfg now batch = .ok true) :
    out.1.unsignedProposalQueue.lookup key = none := by
  induction batches generalizing remaining s batch with
  | nil => cases hmem
  | cons entry batches ih =>
      obtain ⟨key', batch'⟩ := entry
      rw [removeExpired] at h
      cases hexpired' : expired cfg now batch' with
      | error fault => simp [hexpired'] at h
      | ok past =>
          cases past with
          | false =>
              simp only [hexpired'] at h
              rcases List.mem_cons.mp hmem with heq | hmem
              · obtain ⟨rfl, rfl⟩ := Prod.mk.inj heq
                rw [hexpired] at hexpired'
                cases hexpired'
              · exact ih hsize h hmem hexpired
          | true =>
              simp only [hexpired'] at h
              have hleft : 0 < (remaining.saturatingSub (readsWrites cfg 0 1)).proofSize := hsize
              rw [if_neg (not_isZero_of_proofSize hleft)] at h
              rcases List.mem_cons.mp hmem with heq | hmem
              · obtain ⟨rfl, rfl⟩ := Prod.mk.inj heq
                rcases removeExpired_lookup h key with hsame | ⟨b, hlater, hb⟩
                · rw [hsame, StorageMap.lookup_erase_eq, if_pos rfl]
                · exact ih hleft h hlater hb
              · exact ih hleft h hmem hexpired

def StartsWithRefresh (stored : StoredUnsignedProposalBatch L) : Prop :=
  ∃ first, stored.proposals.toList.head? = some first ∧ first.proposal.kind = .refresh

/-- With any weight the hook only removes batches whose proposals were all submitted longer
ago than the expiry, and none of them is a refresh proposal. -/
def RemovesOnlyStale (cfg : Config L AccountId R) (submitted : Proposal L → ℕ → Prop) (now : ℕ)
    (s : State L R) : Prop :=
  ∀ remaining out, onIdleRemoveExpiredBatches cfg now remaining s = .ok out →
    ∀ key stored, s.unsignedProposalQueue.lookup key = some stored →
      out.1.unsignedProposalQueue.lookup key = none →
      ∀ u ∈ stored.proposals.toList, u.proposal.kind ≠ .refresh ∧
        ∃ block, submitted u.proposal block ∧ cfg.unsignedProposalExpiry < now - block

theorem onIdleRemoveExpiredBatches_removed {now : ℕ} {remaining : Weight}
    {out : State L R × Weight} (h : onIdleRemoveExpiredBatches cfg now remaining s = .ok out)
    {key : TypedChainId × ℕ} {stored : StoredUnsignedProposalBatch L}
    (hlookup : s.unsignedProposalQueue.lookup key = some stored)
    (hremoved : out.1.unsignedProposalQueue.lookup key = none) :
    expired cfg now stored = .ok true := by
  rw [onIdleRemoveExpiredBatches] at h
  split at h
  · rw [← Except.ok.inj h, hlookup] at hremoved
    cases hremoved
  · rcases removeExpired_lookup h key with hsame | ⟨batch, hmem, hexpired⟩
    · rw [hsame, hlookup] at hremoved
      cases hremoved
    · rw [StorageMap.mem_iter, hlookup] at hmem
      rw [Option.some.inj hmem]
      exact hexpired

def KeysMatch (s : State L R) : Prop :=
  ∀ key stored, s.unsignedProposalQueue.lookup key = some stored →
    ∀ u ∈ stored.proposals.toList,
      (u.proposal.kind = .refresh ↔ ∃ nonce, u.key = .refreshProposal nonce)

theorem keysMatch_of_onlyDecoded (h : OnlyDecoded cfg s) : KeysMatch s := by
  rintro ⟨chain, batchId⟩ stored hlookup u hu
  exact kind_eq_refresh_iff (h chain u (.inr ⟨batchId, stored, hlookup, hu⟩)).2

theorem expired_iff (hkeys : KeysMatch s) {now : ℕ} {key : TypedChainId × ℕ}
    {stored : StoredUnsignedProposalBatch L}
    (hlookup : s.unsignedProposalQueue.lookup key = some stored) :
    expired cfg now stored = .ok true ↔
      cfg.unsignedProposalExpiry < now - stored.timestamp ∧ stored.proposals.toList ≠ [] ∧
        ¬StartsWithRefresh stored := by
  rw [expired_eq_true]
  refine and_congr_right fun _ => ?_
  have hmatch := hkeys key stored hlookup
  rw [StartsWithRefresh]
  cases hproposals : stored.proposals.toList with
  | nil => simp
  | cons first us =>
      have hfirst := hmatch first (hproposals ▸ List.mem_cons_self)
      simp [hfirst]

theorem removesOnlyStale_iff_of_dated (hdated : Dated cfg submitted s) (hkeys : KeysMatch s)
    (hreturns : 1 ≤ L.maxProposalsPerBatch →
      ∀ entry ∈ s.unsignedProposalQueue.iter (batchOrder cfg), entry.2.proposals.toList ≠ [])
    (now : ℕ) :
    RemovesOnlyStale cfg submitted now s ↔
      ∀ key stored, s.unsignedProposalQueue.lookup key = some stored →
        cfg.unsignedProposalExpiry < now - stored.timestamp → HoldsRefresh stored →
          StartsWithRefresh stored := by
  constructor
  · rintro hstale key stored hlookup hpast ⟨u, hu, hkind⟩
    by_contra hfirst
    have hmax : 1 ≤ L.maxProposalsPerBatch :=
      (List.length_pos_of_mem hu).trans_le stored.proposals.length_le
    -- With some proof size left the hook goes through the whole queue.
    have hremaining : ¬(⟨0, 1⟩ : Weight).isZero = true := not_isZero_of_proofSize one_pos
    obtain ⟨out, hout⟩ : ∃ out, removeExpired cfg now
        (s.unsignedProposalQueue.iter (batchOrder cfg)) ((⟨0, 1⟩ : Weight).saturatingSub
          (readsWrites cfg (s.unsignedProposalQueue.iter (batchOrder cfg)).length 0)) s = .ok out :=
      removeExpired_ok (hreturns hmax) _
    have hhook : onIdleRemoveExpiredBatches cfg now ⟨0, 1⟩ s = .ok out := by
      rw [onIdleRemoveExpiredBatches, if_neg hremaining]
      exact hout
    have hexpired : expired cfg now stored = .ok true :=
      (expired_iff hkeys hlookup).mpr ⟨hpast, List.ne_nil_of_mem hu, hfirst⟩
    have hremoved : out.1.unsignedProposalQueue.lookup key = none :=
      removeExpired_removes (by exact one_pos) hout (StorageMap.mem_iter.mpr hlookup) hexpired
    exact (hstale ⟨0, 1⟩ out hhook key stored hlookup hremoved u hu).1 hkind
  · intro hfirst remaining out hout key stored hlookup hremoved u hu
    obtain ⟨hpast, -, hstart⟩ :=
      (expired_iff hkeys hlookup).mp (onIdleRemoveExpiredBatches_removed hout hlookup hremoved)
    refine ⟨?_, ?_⟩
    · intro hkind
      exact hstart (hfirst key stored hlookup hpast ⟨u, hu, hkind⟩)
    · obtain ⟨block, hle, hsubmitted⟩ := hdated.queued key stored hlookup u hu
      exact ⟨block, hsubmitted, hpast.trans_le (Nat.sub_le_sub_left hle now)⟩

theorem onlyDecoded_run (cfg : Config L AccountId R) (rest : R)
    (calls : List (Call L AccountId R)) :
    OnlyDecoded cfg (run (step cfg) (State.empty rest) calls) := by
  refine invariant_run (OnlyDecoded cfg) ?_ (work_empty rest) (stepsMeet_true _ _ _)
  intro s call hs _
  refine commit_cases hs ?_
  intro t hdispatch
  exact work_dispatch hs hdispatch fun prop id _ hid => ⟨rfl, hid⟩

/-- In the queue that the first half of the hook leaves, the second half removes only stale
batches without refresh proposals exactly if every batch past its expiry with a refresh
proposal starts with one. -/
theorem removesOnlyStale_iff (cfg : Config L AccountId R) (rest : R)
    (calls : List (Call L AccountId R)) (hblocks : BlocksAdvance cfg rest calls)
    (weight : Weight) (now : ℕ) :
    RemovesOnlyStale cfg (SubmittedAt cfg rest calls) now
        (onIdleCreateProposalBatches cfg weight (run (step cfg) (State.empty rest) calls)).1 ↔
      ∀ key stored, (onIdleCreateProposalBatches cfg weight
        (run (step cfg) (State.empty rest) calls)).1.unsignedProposalQueue.lookup key =
          some stored →
        cfg.unsignedProposalExpiry < now - stored.timestamp → HoldsRefresh stored →
          StartsWithRefresh stored := by
  have htidies : Relation.ReflTransGen (Tidy cfg) (run (step cfg) (State.empty rest) calls)
      (onIdleCreateProposalBatches cfg weight (run (step cfg) (State.empty rest) calls)).1 :=
    (onIdleCreateProposalBatches_closes weight).lift id fun _ _ => Tidy.close
  refine removesOnlyStale_iff_of_dated ?_ ?_ ?_ now
  · exact invariant_of_reflTransGen (Dated cfg (SubmittedAt cfg rest calls))
      (fun _ _ => dated_tidy) (dated_run hblocks) htidies
  · exact keysMatch_of_onlyDecoded (invariant_of_reflTransGen (OnlyDecoded cfg)
      (fun _ _ => work_tidy) (onlyDecoded_run cfg rest calls) htidies)
  · intro hmax
    have hqueue : QueueInvariant (run (step cfg) (State.empty rest) calls) :=
      (queueInvariant_run cfg hmax rest calls calls [] (List.append_nil calls).symm).1
    exact (invariant_of_reflTransGen QueueInvariant (fun _ _ => queueInvariant_closes) hqueue
      (onIdleCreateProposalBatches_closes weight)).queued_ne_nil

def sampleOrder (refreshFirst : Bool) : List (Call runtimeLimits ℕ (Rest sampleWiring Unit)) :=
  let refresh := .forceSubmitUnsignedProposal .root (refreshWithRootEnd [0, 0, 0, 0, 0, 5] 3)
  let tokenAdd := .forceSubmitUnsignedProposal .root (sampleTokenAdd 5)
  if refreshFirst then [refresh, tokenAdd] else [tokenAdd, refresh]

def sampleMixed (refreshFirst : Bool) : State runtimeLimits (Rest sampleWiring Unit) :=
  (onIdleCreateProposalBatches chainHandler sampleWeight
    (run (step chainHandler) (State.empty sampleRest) (sampleOrder refreshFirst))).1

theorem removesOnlyStale_sampleMixed :
    RemovesOnlyStale chainHandler (SubmittedAt chainHandler sampleRest (sampleOrder true)) 200
      (sampleMixed true) := by
  refine (removesOnlyStale_iff chainHandler sampleRest (sampleOrder true) ?_ sampleWeight
    200).mpr ?_
  · rw [BlocksAdvance]
    decide +kernel
  · rw [← sampleMixed]
    intro key stored hlookup _ _
    have hstart : ∀ entry ∈ (sampleMixed true).unsignedProposalQueue.iter
        (batchOrder chainHandler), (entry.2.proposals.toList.head?.any fun first =>
          first.proposal.kind = .refresh) = true := by
      decide +kernel
    have hany := hstart (key, stored) (StorageMap.mem_iter.mpr hlookup)
    rw [StartsWithRefresh]
    cases hhead : stored.proposals.toList.head? with
    | none => simp [hhead] at hany
    | some first => exact ⟨first, rfl, by simpa [hhead] using hany⟩

theorem refresh_expires :
    BlocksAdvance chainHandler sampleRest (sampleOrder false) ∧
      ¬RemovesOnlyStale chainHandler (SubmittedAt chainHandler sampleRest (sampleOrder false))
        200 (sampleMixed false) := by
  refine ⟨by rw [BlocksAdvance]; decide +kernel, ?_⟩
  intro hstale
  have hhook : (onIdleRemoveExpiredBatches chainHandler 200 sampleWeight
      (sampleMixed false)).isOk = true := by
    decide +kernel
  have hbatch : ((sampleMixed false).unsignedProposalQueue.lookup (.none, 0)).any
      (fun stored => HoldsRefresh stored) = true := by
    decide +kernel
  have hremoved : (commit (sampleMixed false, sampleWeight)
      (onIdleRemoveExpiredBatches chainHandler 200 sampleWeight
        (sampleMixed false))).1.unsignedProposalQueue.lookup (.none, 0) = none := by
    decide +kernel
  have hkept := hstale sampleWeight _ (eq_ok_commit (sampleMixed false, sampleWeight) hhook)
    (.none, 0)
  generalize (sampleMixed false).unsignedProposalQueue.lookup (.none, 0) = found
    at hbatch hkept
  cases found with
  | none => cases hbatch
  | some stored =>
      obtain ⟨u, hu, hkind⟩ := of_decide_eq_true hbatch
      exact (hkept stored rfl hremoved u hu).1 hkind

end DkgSubstrate.BatchExpiry
