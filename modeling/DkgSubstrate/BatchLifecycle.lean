import DkgSubstrate.BatchExpiry

/-!
The life of a batch id.  It is handed out once, to a batch that then waits in the queue until it
is either signed or gone, and stays so.
-/

namespace DkgSubstrate.BatchLifecycle

open DkgSubstrate.BatchExpiry
open DkgSubstrate.Dispatch
open DkgSubstrate.Primitives
open DkgSubstrate.ProposalHandler
open DkgSubstrate.ProposalHandlerEffects
open DkgSubstrate.ProposalQueue
open DkgSubstrate.Proposals
open DkgSubstrate.Runs
open DkgSubstrate.Runtime
open DkgSubstrate.SampleRuntime
open DkgSubstrate.SignedBatches

inductive Stage (L : Limits) where
  | unborn
  | queued (chain : TypedChainId) (stored : StoredUnsignedProposalBatch L)
  | signed (chain : TypedChainId) (batch : SignedProposalBatch L)
  | gone

variable {L : Limits} {AccountId R : Type}

/-- What one call can make of a stage.  Only a batch that waits can be signed or dropped. -/
inductive Stage.Advances : Stage L → Stage L → Prop
  | rest (stage : Stage L) : Advances stage stage
  | queue (chain : TypedChainId) (stored : StoredUnsignedProposalBatch L) :
      Advances .unborn (.queued chain stored)
  | sign (chain : TypedChainId) (stored : StoredUnsignedProposalBatch L)
      (batch : SignedProposalBatch L) : Advances (.queued chain stored) (.signed chain batch)
  | drop (chain : TypedChainId) (stored : StoredUnsignedProposalBatch L) :
      Advances (.queued chain stored) .gone

def IsAt (s : State L R) (batchId : ℕ) : Stage L → Prop
  | .unborn => s.nextBatchId ≤ batchId
  | .queued chain stored => s.unsignedProposalQueue.lookup (chain, batchId) = some stored
  | .signed chain batch => s.signedProposals.lookup (chain, batchId) = some batch
  | .gone => batchId < s.nextBatchId ∧ ∀ chain,
      s.unsignedProposalQueue.lookup (chain, batchId) = none ∧
        s.signedProposals.lookup (chain, batchId) = none

structure Placed (s : State L R) : Prop where
  queue : QueueInvariant s
  signedOnly : ∀ chain chain' batchId batch,
    s.signedProposals.lookup (chain, batchId) = some batch →
      s.unsignedProposalQueue.lookup (chain', batchId) = none
  oneSigned : ∀ chain chain' batchId batch batch',
    s.signedProposals.lookup (chain, batchId) = some batch →
      s.signedProposals.lookup (chain', batchId) = some batch' → chain = chain'

section Stages

variable {cfg : Config L AccountId R} {s t : State L R} {batchId : ℕ} {stage stage' : Stage L}
variable {chain chain' : TypedChainId} {stored stored' : StoredUnsignedProposalBatch L}

theorem placed_empty (rest : R) : Placed (State.empty rest : State L R) where
  queue := queueInvariant_empty rest
  signedOnly _ _ _ _ h := by cases h
  oneSigned _ _ _ _ _ h := by cases h

theorem Placed.chain_eq (h : Placed s)
    (hlookup : s.unsignedProposalQueue.lookup (chain, batchId) = some stored)
    (hlookup' : s.unsignedProposalQueue.lookup (chain', batchId) = some stored') :
    chain = chain' :=
  h.queue.oneChain chain chain' batchId (StorageMap.containsKey_iff.mpr ⟨stored, hlookup⟩)
    (StorageMap.containsKey_iff.mpr ⟨stored', hlookup'⟩)

theorem Placed.queued_lt (h : Placed s)
    (hlookup : s.unsignedProposalQueue.lookup (chain, batchId) = some stored) :
    batchId < s.nextBatchId :=
  (h.queue.queued chain batchId stored hlookup).2.1

theorem Placed.signed_lt (h : Placed s) {batch : SignedProposalBatch L}
    (hlookup : s.signedProposals.lookup (chain, batchId) = some batch) :
    batchId < s.nextBatchId :=
  (h.queue.signed chain batchId (StorageMap.containsKey_iff.mpr ⟨batch, hlookup⟩)).1

theorem Placed.unique (h : Placed s) (hstage : IsAt s batchId stage)
    (hstage' : IsAt s batchId stage') : stage = stage' := by
  cases stage with
  | unborn =>
      cases stage' with
      | unborn => rfl
      | queued chain stored => exact absurd (h.queued_lt hstage') (Nat.not_lt.mpr hstage)
      | signed chain batch => exact absurd (h.signed_lt hstage') (Nat.not_lt.mpr hstage)
      | gone => exact absurd hstage'.1 (Nat.not_lt.mpr hstage)
  | queued chain stored =>
      cases stage' with
      | unborn => exact absurd (h.queued_lt hstage) (Nat.not_lt.mpr hstage')
      | queued chain' stored' =>
          obtain rfl := h.chain_eq hstage hstage'
          rw [Option.some.inj (hstage.symm.trans hstage')]
      | signed chain' batch =>
          exact absurd (hstage.symm.trans (h.signedOnly chain' chain batchId batch hstage'))
            (Option.some_ne_none stored)
      | gone =>
          exact absurd (hstage.symm.trans (hstage'.2 chain).1) (Option.some_ne_none stored)
  | signed chain batch =>
      cases stage' with
      | unborn => exact absurd (h.signed_lt hstage) (Nat.not_lt.mpr hstage')
      | queued chain' stored =>
          exact absurd (hstage'.symm.trans (h.signedOnly chain chain' batchId batch hstage))
            (Option.some_ne_none stored)
      | signed chain' batch' =>
          obtain rfl := h.oneSigned chain chain' batchId batch batch' hstage hstage'
          rw [Option.some.inj (hstage.symm.trans hstage')]
      | gone =>
          exact absurd (hstage.symm.trans (hstage'.2 chain).2) (Option.some_ne_none batch)
  | gone =>
      cases stage' with
      | unborn => exact absurd hstage.1 (Nat.not_lt.mpr hstage')
      | queued chain stored =>
          exact absurd (hstage'.symm.trans (hstage.2 chain).1) (Option.some_ne_none stored)
      | signed chain batch =>
          exact absurd (hstage'.symm.trans (hstage.2 chain).2) (Option.some_ne_none batch)
      | gone => rfl

theorem exists_isAt (s : State L R) (batchId : ℕ) : ∃ stage, IsAt s batchId stage := by
  by_cases hnext : batchId < s.nextBatchId
  · by_cases hfound : ∀ chain, s.unsignedProposalQueue.lookup (chain, batchId) = none ∧
        s.signedProposals.lookup (chain, batchId) = none
    · exact ⟨.gone, hnext, hfound⟩
    · obtain ⟨chain, hchain⟩ := not_forall.mp hfound
      cases hqueued : s.unsignedProposalQueue.lookup (chain, batchId) with
      | some stored => exact ⟨.queued chain stored, hqueued⟩
      | none =>
          cases hsigned : s.signedProposals.lookup (chain, batchId) with
          | some batch => exact ⟨.signed chain batch, hsigned⟩
          | none => exact absurd ⟨hqueued, hsigned⟩ hchain
  · exact ⟨.unborn, Nat.le_of_not_lt hnext⟩

/-- Batches may have been removed from the queue. -/
structure Shrunk (s t : State L R) : Prop where
  signed : t.signedProposals = s.signedProposals
  next : t.nextBatchId = s.nextBatchId
  queued : ∀ key stored, t.unsignedProposalQueue.lookup key = some stored →
    s.unsignedProposalQueue.lookup key = some stored

/-- The batch has got the next id. -/
structure Grown (chain : TypedChainId) (stored : StoredUnsignedProposalBatch L)
    (s t : State L R) : Prop where
  signed : t.signedProposals = s.signedProposals
  next : t.nextBatchId = s.nextBatchId + 1
  queued : ∀ key, t.unsignedProposalQueue.lookup key =
    if key = (chain, s.nextBatchId) then some stored else s.unsignedProposalQueue.lookup key

theorem Shrunk.refl (s : State L R) : Shrunk s s := ⟨rfl, rfl, fun _ _ h => h⟩

theorem Shrunk.trans {u : State L R} (hst : Shrunk s t) (htu : Shrunk t u) : Shrunk s u :=
  ⟨htu.signed.trans hst.signed, htu.next.trans hst.next,
    fun key stored h => hst.queued key stored (htu.queued key stored h)⟩

theorem grown_queueBatch (cfg : Config L AccountId R) (chain : TypedChainId)
    (proposals : StagedProposals L) (s : State L R) :
    Grown chain ⟨s.nextBatchId, proposals, cfg.blockNumber s.rest⟩ s
      (queueBatch cfg chain s.nextBatchId proposals
        { s with nextBatchId := s.nextBatchId + 1 }) :=
  ⟨rfl, rfl, fun _ => StorageMap.lookup_insert_eq ..⟩

theorem grown_closes (h : Closes cfg s t) : ∃ chain stored, Grown chain stored s t ∧
    stored.timestamp = cfg.blockNumber s.rest := by
  obtain ⟨hstaged, hbits⟩ := h
  obtain ⟨hsigned, hnext, hqueued⟩ := grown_queueBatch cfg _ _ s
  exact ⟨_, _, ⟨hsigned, hnext, hqueued⟩, rfl⟩

theorem shrunk_or_grown (hedit : Edit cfg s t) :
    Shrunk s t ∨ ∃ chain stored, Grown chain stored s t := by
  cases hedit with
  | store hid hstores =>
      cases hstores with
      | refused e => exact .inl (.refl s)
      | staged hpush => exact .inl ⟨rfl, rfl, fun _ _ h => h⟩
      | queued hfull hbits hpush =>
          obtain ⟨hsigned, hnext, hqueued⟩ := grown_queueBatch cfg _ _ s
          exact .inr ⟨_, _, hsigned, hnext, hqueued⟩
      | emptyQueued e hempty hbits => exact .inr ⟨_, _, grown_queueBatch cfg _ _ s⟩
  | close hcloses =>
      obtain ⟨chain, stored, hgrown, -⟩ := grown_closes hcloses
      exact .inr ⟨chain, stored, hgrown⟩
  | unqueue key =>
      exact .inl ⟨rfl, rfl, fun _ _ => StorageMap.lookup_of_lookup_erase⟩
  | offence offence => exact .inl ⟨rfl, rfl, fun _ _ h => h⟩
  | environment rest => exact .inl ⟨rfl, rfl, fun _ _ h => h⟩

theorem Placed.of_shrunk (h : Placed s) (hshrunk : Shrunk s t) (hqueue : QueueInvariant t) :
    Placed t where
  queue := hqueue
  signedOnly chain chain' batchId batch hsigned := by
    rw [hshrunk.signed] at hsigned
    rw [Option.eq_none_iff_forall_ne_some]
    intro stored hstored
    have hold := hshrunk.queued _ _ hstored
    rw [h.signedOnly chain chain' batchId batch hsigned] at hold
    cases hold
  oneSigned := by
    rw [hshrunk.signed]
    exact h.oneSigned

theorem Placed.of_grown (h : Placed s) (hgrown : Grown chain stored s t)
    (hqueue : QueueInvariant t) : Placed t where
  queue := hqueue
  signedOnly chain chain' batchId batch hsigned := by
    rw [hgrown.signed] at hsigned
    rw [hgrown.queued, if_neg]
    · exact h.signedOnly chain chain' batchId batch hsigned
    · rintro hkey
      exact (h.signed_lt hsigned).ne (Prod.mk.inj hkey).2
  oneSigned := by
    rw [hgrown.signed]
    exact h.oneSigned

theorem placed_edit (hmax : 1 ≤ L.maxProposalsPerBatch) (h : Placed s) (hedit : Edit cfg s t) :
    Placed t := by
  have hqueue := queueInvariant_edit hmax h.queue hedit
  rcases shrunk_or_grown hedit with hshrunk | ⟨chain, stored, hgrown⟩
  · exact h.of_shrunk hshrunk hqueue
  · exact h.of_grown hgrown hqueue

theorem placed_handleSignedProposalBatch (h : Placed s) {batch : SignedProposalBatch L}
    (hhandled : handleSignedProposalBatch cfg batch s = .ok t) : Placed t := by
  have hqueue := queueInvariant_handleSignedProposalBatch h.queue hhandled
  obtain ⟨key, hmoves⟩ := handleSignedProposalBatch_ok hhandled
  obtain ⟨stored, hstored⟩ := StorageMap.containsKey_iff.mp hmoves.queued
  have hsigned : ∀ key', t.signedProposals.lookup key' =
      if key' = key then some batch else s.signedProposals.lookup key' := by
    intro key'
    rw [hmoves.signed, StorageMap.lookup_insert_eq]
  refine ⟨hqueue, ?_, ?_⟩
  · intro chain chain' batchId other hother
    rw [Option.eq_none_iff_forall_ne_some]
    intro left hleft
    have hold := hmoves.removed _ _ hleft
    rw [hsigned] at hother
    split at hother
    · rename_i hkey
      subst hkey
      obtain rfl := h.chain_eq hstored hold
      have habsent := (hqueue.signed chain batchId (StorageMap.containsKey_iff.mpr
        ⟨batch, by rw [hsigned, if_pos rfl]⟩)).2
      rw [StorageMap.containsKey_iff.mpr ⟨left, hleft⟩] at habsent
      cases habsent
    · rw [h.signedOnly chain chain' batchId other hother] at hold
      cases hold
  · intro chain chain' batchId other other' hother hother'
    rw [hsigned] at hother hother'
    -- A key that is signed now was queued, so its id was nowhere else.
    have hnew : ∀ c c' b, (c, batchId) = key →
        s.signedProposals.lookup (c', batchId) = some b → False := by
      rintro c c' b rfl hb
      rw [h.signedOnly c' c batchId b hb] at hstored
      cases hstored
    split at hother
    · split at hother'
      · rename_i hkey hkey'
        exact (Prod.mk.inj (hkey.trans hkey'.symm)).1
      · exact (hnew _ _ _ ‹_› hother').elim
    · split at hother'
      · exact (hnew _ _ _ ‹_› hother).elim
      · exact h.oneSigned chain chain' batchId other other' hother hother'

/-- What happens to the stage of an id that has been handed out before. -/
def Stage.Settles (stage stage' : Stage L) : Prop :=
  stage.Advances stage' ∧ (stage = .unborn → stage' = .unborn)

theorem Stage.Settles.trans {stage'' : Stage L} (h : stage.Settles stage')
    (h' : stage'.Settles stage'') : stage.Settles stage'' := by
  obtain ⟨hadvances, hunborn⟩ := h
  refine ⟨?_, fun heq => h'.2 (hunborn heq)⟩
  cases hadvances with
  | rest => exact h'.1
  | queue chain stored => cases hunborn rfl
  | sign chain stored batch =>
      cases h'.1
      exact .sign chain stored batch
  | drop chain stored =>
      cases h'.1
      exact .drop chain stored

theorem settles_shrunk (h : Placed s) (hshrunk : Shrunk s t) (hstage : IsAt s batchId stage) :
    ∃ stage', IsAt t batchId stage' ∧ stage.Settles stage' := by
  cases stage with
  | unborn => exact ⟨.unborn, hshrunk.next.trans_le hstage, .rest _, id⟩
  | signed chain batch =>
      refine ⟨.signed chain batch, ?_, .rest _, id⟩
      rw [IsAt, hshrunk.signed]
      exact hstage
  | gone =>
      refine ⟨.gone, ⟨hstage.1.trans_eq hshrunk.next.symm, fun chain => ⟨?_, ?_⟩⟩, .rest _, id⟩
      · rw [Option.eq_none_iff_forall_ne_some]
        intro stored hstored
        have hold := hshrunk.queued _ _ hstored
        rw [(hstage.2 chain).1] at hold
        cases hold
      · rw [hshrunk.signed]
        exact (hstage.2 chain).2
  | queued chain stored =>
      cases hleft : t.unsignedProposalQueue.lookup (chain, batchId) with
      | some left =>
          obtain rfl := Option.some.inj ((hshrunk.queued _ _ hleft).symm.trans hstage)
          exact ⟨.queued chain left, hleft, .rest _, id⟩
      | none =>
          refine ⟨.gone, ⟨(h.queued_lt hstage).trans_eq hshrunk.next.symm, fun chain' => ⟨?_, ?_⟩⟩,
            .drop chain stored, nofun⟩
          · rw [Option.eq_none_iff_forall_ne_some]
            intro other hother
            obtain rfl := h.chain_eq hstage (hshrunk.queued _ _ hother)
            rw [hleft] at hother
            cases hother
          · rw [hshrunk.signed, Option.eq_none_iff_forall_ne_some]
            intro batch hbatch
            exact absurd (hstage.symm.trans (h.signedOnly chain' chain batchId batch hbatch))
              (Option.some_ne_none stored)

theorem isAt_grown (h : Placed s) (hgrown : Grown chain stored s t)
    (hstage : IsAt s batchId stage) : IsAt t batchId stage ∨
      stage = .unborn ∧ IsAt t batchId (.queued chain stored) := by
  have hold : ∀ chain', batchId < s.nextBatchId →
      t.unsignedProposalQueue.lookup (chain', batchId) =
        s.unsignedProposalQueue.lookup (chain', batchId) := by
    intro chain' hlt
    rw [hgrown.queued, if_neg]
    intro hkey
    exact hlt.ne (Prod.mk.inj hkey).2
  cases stage with
  | unborn =>
      rcases Nat.eq_or_lt_of_le hstage with heq | hlt
      · refine .inr ⟨rfl, ?_⟩
        rw [IsAt, hgrown.queued, heq, if_pos rfl]
      · exact .inl (hgrown.next.trans_le hlt)
  | queued chain' stored' => exact .inl ((hold chain' (h.queued_lt hstage)).trans hstage)
  | signed chain' batch =>
      refine .inl ?_
      rw [IsAt, hgrown.signed]
      exact hstage
  | gone =>
      refine .inl ⟨(hstage.1.trans (Nat.lt_succ_self _)).trans_eq hgrown.next.symm,
        fun chain' => ⟨(hold chain' hstage.1).trans (hstage.2 chain').1, ?_⟩⟩
      rw [hgrown.signed]
      exact (hstage.2 chain').2

theorem advances_edit (h : Placed s) (hedit : Edit cfg s t) (hstage : IsAt s batchId stage) :
    ∃ stage', IsAt t batchId stage' ∧ stage.Advances stage' := by
  rcases shrunk_or_grown hedit with hshrunk | ⟨chain, stored, hgrown⟩
  · obtain ⟨stage', hstage', hsettles⟩ := settles_shrunk h hshrunk hstage
    exact ⟨stage', hstage', hsettles.1⟩
  · rcases isAt_grown h hgrown hstage with hsame | ⟨rfl, hqueued⟩
    · exact ⟨stage, hsame, .rest stage⟩
    · exact ⟨.queued chain stored, hqueued, .queue chain stored⟩

theorem handleSignedProposalBatch_nextBatchId {batch : SignedProposalBatch L}
    (h : handleSignedProposalBatch cfg batch s = .ok t) : t.nextBatchId = s.nextBatchId := by
  simp only [handleSignedProposalBatch, bind_eq_ok] at h
  obtain ⟨_, -, _, -, _, -, _, -, _, -, _, -, h⟩ := h
  rw [← Except.ok.inj h]

theorem settles_handleSignedProposalBatch (h : Placed s) {batch : SignedProposalBatch L}
    (hhandled : handleSignedProposalBatch cfg batch s = .ok t) (hstage : IsAt s batchId stage) :
    ∃ stage', IsAt t batchId stage' ∧ stage.Settles stage' := by
  obtain ⟨key, hmoves⟩ := handleSignedProposalBatch_ok hhandled
  obtain ⟨stored, hstored⟩ := StorageMap.containsKey_iff.mp hmoves.queued
  by_cases hid : batchId = key.2
  · -- The id is the one of the batch, which waits under the chain of its key.
    subst hid
    have hqueued : IsAt s key.2 (.queued key.1 stored) := hstored
    obtain rfl := h.unique hstage hqueued
    refine ⟨.signed key.1 batch, ?_, .sign key.1 stored batch, nofun⟩
    rw [IsAt, hmoves.signed, StorageMap.lookup_insert_eq, if_pos rfl]
  · have hnext := handleSignedProposalBatch_nextBatchId hhandled
    have hother : Shrunk s { t with signedProposals := s.signedProposals } :=
      ⟨rfl, hnext, hmoves.removed⟩
    have hsigned : ∀ chain, t.signedProposals.lookup (chain, batchId) =
        s.signedProposals.lookup (chain, batchId) := by
      intro chain
      rw [hmoves.signed, StorageMap.lookup_insert_eq, if_neg]
      rintro rfl
      exact hid rfl
    obtain ⟨stage', hstage', hsettles⟩ := settles_shrunk h hother hstage
    refine ⟨stage', ?_, hsettles⟩
    cases stage' with
    | unborn => exact hstage'
    | queued chain stored => exact hstage'
    | signed chain other => exact (hsigned chain).trans hstage'
    | gone =>
        exact ⟨hstage'.1, fun chain =>
          ⟨(hstage'.2 chain).1, (hsigned chain).trans (hstage'.2 chain).2⟩⟩

theorem advances_submitBatches {props : List (SignedProposalBatch L)} (h : Placed s)
    (hsubmitted : submitBatches cfg props s = .ok t) (hstage : IsAt s batchId stage) :
    ∃ stage', IsAt t batchId stage' ∧ stage.Advances stage' := by
  have hsettles : Placed t ∧ ∃ stage', IsAt t batchId stage' ∧ stage.Settles stage' := by
    refine invariant_of_reflTransGen (fun u : State L R =>
      Placed u ∧ ∃ stage', IsAt u batchId stage' ∧ stage.Settles stage') ?_
      ⟨h, stage, hstage, .rest stage, id⟩ (submitBatches_handles hsubmitted)
    rintro u v ⟨hplaced, stage', hstage', hsettles⟩ ⟨batch, hhandled⟩
    obtain ⟨stage'', hstage'', hsettles'⟩ :=
      settles_handleSignedProposalBatch hplaced hhandled hstage'
    exact ⟨placed_handleSignedProposalBatch hplaced hhandled, stage'', hstage'',
      hsettles.trans hsettles'⟩
  obtain ⟨-, stage', hstage', hadvances, -⟩ := hsettles
  exact ⟨stage', hstage', hadvances⟩

theorem isAt_closes (h : Placed s) (hcloses : Relation.ReflTransGen (Closes cfg) s t)
    (hstage : IsAt s batchId stage) : Placed t ∧ (IsAt t batchId stage ∨ stage = .unborn ∧
      ∃ chain stored, IsAt t batchId (.queued chain stored) ∧
        stored.timestamp = cfg.blockNumber s.rest) := by
  refine (invariant_of_reflTransGen (fun u : State L R => (Placed u ∧ u.rest = s.rest) ∧
    (IsAt u batchId stage ∨ stage = .unborn ∧ ∃ chain stored,
      IsAt u batchId (.queued chain stored) ∧ stored.timestamp = cfg.blockNumber s.rest))
    ?_ ⟨⟨h, rfl⟩, .inl hstage⟩ hcloses).imp_left And.left
  rintro u v ⟨⟨hplaced, hrest⟩, hbefore⟩ hclose
  obtain ⟨chain, stored, hgrown, hstamp⟩ := grown_closes hclose
  have hplaced' := hplaced.of_grown hgrown (queueInvariant_closes hplaced.queue hclose)
  have hrest' : v.rest = s.rest := by
    obtain ⟨hstaged, hbits⟩ := hclose
    exact hrest
  refine ⟨⟨hplaced', hrest'⟩, ?_⟩
  rcases hbefore with hsame | ⟨rfl, chain', stored', hqueued, hstamp'⟩
  · rcases isAt_grown hplaced hgrown hsame with hstays | ⟨rfl, hnew⟩
    · exact .inl hstays
    · exact .inr ⟨rfl, chain, stored, hnew, hstamp.trans (by rw [hrest])⟩
  · rcases isAt_grown hplaced hgrown hqueued with hstays | ⟨hfalse, -⟩
    · exact .inr ⟨rfl, chain', stored', hstays, hstamp'⟩
    · cases hfalse

theorem shrunk_removeExpired {now : ℕ}
    {batches : List ((TypedChainId × ℕ) × StoredUnsignedProposalBatch L)} {remaining : Weight}
    {out : State L R × Weight} (h : removeExpired cfg now batches remaining s = .ok out) :
    Shrunk s out.1 := by
  induction batches generalizing remaining s with
  | nil =>
      rw [← Except.ok.inj h]
      exact .refl s
  | cons entry batches ih =>
      obtain ⟨key, batch⟩ := entry
      rw [removeExpired] at h
      split at h
      · cases h
      · exact ih h
      · dsimp only at h
        split at h
        · rw [← Except.ok.inj h]
          exact .refl s
        · have herased : Shrunk s
              { s with unsignedProposalQueue := s.unsignedProposalQueue.erase key } :=
            ⟨rfl, rfl, fun _ _ => StorageMap.lookup_of_lookup_erase⟩
          exact herased.trans (ih h)

theorem shrunk_onIdleRemoveExpiredBatches {now : ℕ} {remaining : Weight}
    {out : State L R × Weight} (h : onIdleRemoveExpiredBatches cfg now remaining s = .ok out) :
    Shrunk s out.1 := by
  rw [onIdleRemoveExpiredBatches] at h
  split at h
  · rw [← Except.ok.inj h]
    exact .refl s
  · exact shrunk_removeExpired h

/-- A batch that the hook creates has the current block for its timestamp, so that the hook does
not remove it at once. -/
theorem advances_onIdle (h : Placed s) {now : ℕ} {remaining : Weight} {out : State L R × Weight}
    (htime : now = cfg.blockNumber s.rest) (hidle : onIdle cfg now remaining s = .ok out)
    (hstage : IsAt s batchId stage) :
    ∃ stage', IsAt out.1 batchId stage' ∧ stage.Advances stage' := by
  rw [onIdle] at hidle
  split at hidle
  · rw [← Except.ok.inj hidle]
    exact ⟨stage, hstage, .rest stage⟩
  · dsimp only at hidle
    have hshrunk := shrunk_onIdleRemoveExpiredBatches hidle
    have hcloses : Relation.ReflTransGen (Closes cfg) s
        (onIdleCreateProposalBatches cfg remaining s).1 :=
      onIdleCreateProposalBatches_closes remaining
    obtain ⟨hplaced, hsame | ⟨rfl, chain, stored, hqueued, hstamp⟩⟩ := isAt_closes h hcloses hstage
    · obtain ⟨stage', hstage', hsettles⟩ := settles_shrunk hplaced hshrunk hsame
      exact ⟨stage', hstage', hsettles.1⟩
    · refine ⟨.queued chain stored, ?_, .queue chain stored⟩
      cases hleft : out.1.unsignedProposalQueue.lookup (chain, batchId) with
      | none =>
          have hexpired := onIdleRemoveExpiredBatches_removed hidle hqueued hleft
          have hlate := (expired_eq_true.mp hexpired).1
          rw [hstamp, htime, Nat.sub_self] at hlate
          exact absurd hlate (Nat.not_lt_zero _)
      | some left =>
          rw [IsAt, hleft]
          exact (hshrunk.queued _ _ hleft).symm.trans hqueued

/-- The hook is called with the number of the block. -/
def OnTime (cfg : Config L AccountId R) (s : State L R) : Call L AccountId R → Prop
  | .onIdle now _ => now = cfg.blockNumber s.rest
  | _ => True

/-- The step lemma. -/
theorem advances_step (h : Placed s) {call : Call L AccountId R} (htime : OnTime cfg s call)
    (hstage : IsAt s batchId stage) :
    ∃ stage', IsAt (step cfg s call) batchId stage' ∧ stage.Advances stage' := by
  rw [step]
  refine commit_cases (P := fun t => ∃ stage', IsAt t batchId stage' ∧ stage.Advances stage')
    ⟨stage, hstage, .rest stage⟩ fun t hdispatch => ?_
  cases call with
  | submitSignedProposals origin props =>
      simp only [dispatch, submitSignedProposals, bind_eq_ok] at hdispatch
      obtain ⟨_, -, hsubmitted⟩ := hdispatch
      exact advances_submitBatches h hsubmitted hstage
  | onIdle now remaining =>
      simp only [dispatch, map_eq_ok] at hdispatch
      obtain ⟨out, hidle, rfl⟩ := hdispatch
      exact advances_onIdle h htime hidle hstage
  | _ =>
      cases dispatch_edit (fun _ _ hcall => by cases hcall) (fun _ _ hcall => by cases hcall)
        hdispatch with
      | refl => exact ⟨stage, hstage, .rest stage⟩
      | single hedit => exact advances_edit h hedit hstage

/-- Whatever waits with the id, which has been handed out, is as told. -/
structure Confined (P : TypedChainId → StoredUnsignedProposalBatch L → Prop) (batchId : ℕ)
    (s : State L R) : Prop where
  handedOut : batchId < s.nextBatchId
  waiting : ∀ chain stored, s.unsignedProposalQueue.lookup (chain, batchId) = some stored →
    P chain stored

section Confined

variable {P : TypedChainId → StoredUnsignedProposalBatch L → Prop}

theorem Confined.of_removed (h : Confined P batchId s) (hnext : t.nextBatchId = s.nextBatchId)
    (hqueued : ∀ key stored, t.unsignedProposalQueue.lookup key = some stored →
      s.unsignedProposalQueue.lookup key = some stored) : Confined P batchId t :=
  ⟨h.handedOut.trans_eq hnext.symm, fun chain stored hstored =>
    h.waiting chain stored (hqueued _ _ hstored)⟩

theorem confined_edit (h : Confined P batchId s) (hedit : Edit cfg s t) :
    Confined P batchId t := by
  rcases shrunk_or_grown hedit with hshrunk | ⟨chain, new, hgrown⟩
  · exact h.of_removed hshrunk.next hshrunk.queued
  · refine ⟨(h.handedOut.trans (Nat.lt_succ_self _)).trans_eq hgrown.next.symm, ?_⟩
    intro chain' stored hstored
    rw [hgrown.queued, if_neg] at hstored
    · exact h.waiting chain' stored hstored
    · intro hkey
      exact h.handedOut.ne (Prod.mk.inj hkey).2

theorem confined_handleSignedProposalBatch (h : Confined P batchId s)
    {batch : SignedProposalBatch L} (hhandled : handleSignedProposalBatch cfg batch s = .ok t) :
    Confined P batchId t := by
  obtain ⟨key, hmoves⟩ := handleSignedProposalBatch_ok hhandled
  exact h.of_removed (handleSignedProposalBatch_nextBatchId hhandled) hmoves.removed

end Confined

/-- A call is a sequence of edits and signed batches. -/
theorem invariant_step (Inv : State L R → Prop) (hedit : ∀ u v, Inv u → Edit cfg u v → Inv v)
    (hhandle : ∀ u v batch, Inv u → handleSignedProposalBatch cfg batch u = .ok v → Inv v)
    (h : Inv s) (call : Call L AccountId R) : Inv (step cfg s call) := by
  refine commit_cases h fun t hdispatch => ?_
  cases call with
  | submitSignedProposals origin props =>
      simp only [dispatch, submitSignedProposals, bind_eq_ok] at hdispatch
      obtain ⟨_, -, hsubmitted⟩ := hdispatch
      refine invariant_of_reflTransGen Inv ?_ h (submitBatches_handles hsubmitted)
      rintro u v hu ⟨batch, hhandled⟩
      exact hhandle u v batch hu hhandled
  | _ =>
      exact invariant_of_reflTransGen Inv hedit h
        (dispatch_edits (fun _ _ hcall => by cases hcall) hdispatch)

theorem placed_step (hmax : 1 ≤ L.maxProposalsPerBatch) (h : Placed s)
    (call : Call L AccountId R) : Placed (step cfg s call) :=
  invariant_step Placed (fun _ _ => placed_edit hmax)
    (fun _ _ _ hu hhandled => placed_handleSignedProposalBatch hu hhandled) h call

theorem placed_run (cfg : Config L AccountId R) (hmax : 1 ≤ L.maxProposalsPerBatch) (rest : R)
    (calls : List (Call L AccountId R)) : Placed (run (step cfg) (State.empty rest) calls) :=
  invariant_run Placed (fun _ call h _ => placed_step hmax h call) (placed_empty rest)
    (stepsMeet_true _ _ _)

/-- The id has been handed out, and no batch has the key any more. -/
structure Gone (key : TypedChainId × ℕ) (s : State L R) : Prop where
  confined : Confined (fun chain _ => chain ≠ key.1) key.2 s
  unsigned : s.signedProposals.lookup key = none

theorem Gone.unqueued {key : TypedChainId × ℕ} (h : Gone key s) :
    s.unsignedProposalQueue.lookup key = none := by
  rw [Option.eq_none_iff_forall_ne_some]
  intro stored hstored
  exact h.confined.waiting key.1 stored hstored rfl

theorem gone_step {key : TypedChainId × ℕ} (h : Gone key s) (call : Call L AccountId R) :
    Gone key (step cfg s call) := by
  refine invariant_step (Gone key) ?_ ?_ h call
  · intro u v hgone hedit
    refine ⟨confined_edit hgone.confined hedit, ?_⟩
    rcases shrunk_or_grown hedit with hshrunk | ⟨chain, new, hgrown⟩
    · rw [hshrunk.signed, hgone.unsigned]
    · rw [hgrown.signed, hgone.unsigned]
  · intro u v batch hgone hhandled
    refine ⟨confined_handleSignedProposalBatch hgone.confined hhandled, ?_⟩
    obtain ⟨key', hmoves⟩ := handleSignedProposalBatch_ok hhandled
    obtain ⟨stored, hstored⟩ := StorageMap.containsKey_iff.mp hmoves.queued
    rw [hmoves.signed, StorageMap.lookup_insert_eq, if_neg, hgone.unsigned]
    rintro rfl
    rw [hgone.unqueued] at hstored
    cases hstored

theorem gone_run {key : TypedChainId × ℕ} (h : Gone key s) (calls : List (Call L AccountId R)) :
    Gone key (run (step cfg) s calls) :=
  invariant_run (Gone key) (fun _ call h _ => gone_step h call) h (stepsMeet_true _ _ _)

end Stages

/-- In every reachable state a batch id is at exactly one stage, and a call takes it at most one
stage further: from unborn into the queue of one chain, and from there to the signed batches of
this chain or away. -/
theorem stage_advances (cfg : Config L AccountId R) (hmax : 1 ≤ L.maxProposalsPerBatch) (rest : R)
    (calls : List (Call L AccountId R)) (call : Call L AccountId R)
    (htime : OnTime cfg (run (step cfg) (State.empty rest) calls) call) (batchId : ℕ) :
    ∃ stage stage' : Stage L,
      (∀ other, IsAt (run (step cfg) (State.empty rest) calls) batchId other ↔ other = stage) ∧
      (∀ other, IsAt (run (step cfg) (State.empty rest) (calls ++ [call])) batchId other ↔
        other = stage') ∧
      stage.Advances stage' := by
  have hplaced := placed_run cfg hmax rest calls
  have hplaced' := placed_run cfg hmax rest (calls ++ [call])
  obtain ⟨stage, hstage⟩ := exists_isAt (run (step cfg) (State.empty rest) calls) batchId
  obtain ⟨stage', hstage', hadvances⟩ := advances_step hplaced htime hstage
  have hlast : IsAt (run (step cfg) (State.empty rest) (calls ++ [call])) batchId stage' := by
    rw [run_append]
    exact hstage'
  refine ⟨stage, stage', fun other => ⟨fun h => hplaced.unique h hstage, ?_⟩,
    fun other => ⟨fun h => hplaced'.unique h hlast, ?_⟩, hadvances⟩
  · rintro rfl
    exact hstage
  · rintro rfl
    exact hlast

theorem stage_advances_sample :
    1 ≤ runtimeLimits.maxProposalsPerBatch ∧ ∃ stage stage' : Stage runtimeLimits,
      (∀ other, IsAt (run (step sampleHandler) (State.empty sampleRest) sampleQueueing) 0 other ↔
        other = stage) ∧
      (∀ other, IsAt (run (step sampleHandler) (State.empty sampleRest) (sampleQueueing ++
        [.submitSignedProposals .none [sampleBatch 0 [sampleTokenAdd 5] 7]])) 0 other ↔
          other = stage') ∧
      stage.Advances stage' :=
  ⟨by decide, stage_advances sampleHandler (by decide) sampleRest sampleQueueing
    (.submitSignedProposals .none [sampleBatch 0 [sampleTokenAdd 5] 7]) trivial 0⟩

end DkgSubstrate.BatchLifecycle
