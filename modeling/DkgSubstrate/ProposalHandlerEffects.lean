import DkgSubstrate.ProposalHandler

/-!
The writes that the calls of the proposal handler are made of, apart from the submission of
signed batches.
-/

namespace DkgSubstrate.ProposalHandlerEffects

open DkgSubstrate.Dispatch
open DkgSubstrate.Primitives
open DkgSubstrate.ProposalHandler
open DkgSubstrate.Proposals

variable {L : Limits} {AccountId R : Type} (cfg : Config L AccountId R)

/-- A write.  A batch is made of the proposals that are staged for its chain, and a
proposal is staged for the chain that is decoded from it. -/
inductive Write (s : State L R) : State L R → Prop
  | queueBatch {chain : TypedChainId} {proposals : StagedProposals L}
      (hstaged : s.unsignedProposals.getD chain default = proposals)
      (hbits : s.nextBatchId + 1 < 2 ^ 32) :
      Write s (queueBatch cfg chain s.nextBatchId proposals
        { s with nextBatchId := s.nextBatchId + 1 })
  | stage {prop : Proposal L} {id : ProposalIdentifier} {proposals : StagedProposals L}
      (hid : decodeProposalIdentifier cfg.decoders prop = .ok id)
      (hmem : ∀ u ∈ proposals.toList, u = ⟨id.typedChainId, id.key, prop⟩ ∨
        u ∈ (s.unsignedProposals.getD id.typedChainId default).toList) :
      Write s (stage id.typedChainId proposals s)
  | unstage (chain : TypedChainId) :
      Write s { s with unsignedProposals := s.unsignedProposals.erase chain }
  | unqueue (key : TypedChainId × ℕ) :
      Write s { s with unsignedProposalQueue := s.unsignedProposalQueue.erase key }
  | offence (offence : DKGMisbehaviorOffenceType) : Write s (reportOffence cfg offence s)
  | environment (rest : R) : Write s { s with rest := rest }

abbrev Writes : State L R → State L R → Prop := Relation.ReflTransGen (Write cfg)

/-- The outcomes of storing a proposal.  Only where a batch cannot hold any proposal does a
refusal leave something behind, an empty batch. -/
inductive Stores (prop : Proposal L) (id : ProposalIdentifier) (s : State L R) :
    State L R × Except DispatchError Unit → Prop
  | refused (e : DispatchError) : Stores prop id s (s, .error e)
  | staged {proposals : StagedProposals L}
      (hpush : proposals.toList = (s.unsignedProposals.getD id.typedChainId default).toList ++
        [⟨id.typedChainId, id.key, prop⟩]) :
      Stores prop id s (stage id.typedChainId proposals s, .ok ())
  | queued {proposals : StagedProposals L}
      (hfull : (s.unsignedProposals.getD id.typedChainId default).length =
        L.maxProposalsPerBatch)
      (hbits : s.nextBatchId + 1 < 2 ^ 32)
      (hpush : proposals.toList = [⟨id.typedChainId, id.key, prop⟩]) :
      Stores prop id s (stage id.typedChainId proposals
        (queueBatch cfg id.typedChainId s.nextBatchId
          (s.unsignedProposals.getD id.typedChainId default)
          { s with nextBatchId := s.nextBatchId + 1 }), .ok ())
  | emptyQueued (e : DispatchError) (hempty : L.maxProposalsPerBatch = 0)
      (hbits : s.nextBatchId + 1 < 2 ^ 32) :
      Stores prop id s (queueBatch cfg id.typedChainId s.nextBatchId
        (s.unsignedProposals.getD id.typedChainId default)
        { s with nextBatchId := s.nextBatchId + 1 }, .error e)

def closeBatch (chain : TypedChainId) (proposals : StagedProposals L) (s : State L R) :
    State L R :=
  let queued := queueBatch cfg chain s.nextBatchId proposals
    { s with nextBatchId := s.nextBatchId + 1 }
  { queued with unsignedProposals := queued.unsignedProposals.erase chain }

inductive Closes (s : State L R) : State L R → Prop
  | close {chain : TypedChainId} {proposals : StagedProposals L}
      (hstaged : s.unsignedProposals.lookup chain = some proposals)
      (hbits : s.nextBatchId + 1 < 2 ^ 32) : Closes s (closeBatch cfg chain proposals s)

/-- What the hook on idle is made of. -/
inductive Tidy (s : State L R) : State L R → Prop
  | close {t : State L R} (h : Closes cfg s t) : Tidy s t
  | unqueue (key : TypedChainId × ℕ) :
      Tidy s { s with unsignedProposalQueue := s.unsignedProposalQueue.erase key }

/-- What the calls are made of, apart from the submission of signed batches. -/
inductive Edit (s : State L R) : State L R → Prop
  | store {prop : Proposal L} {id : ProposalIdentifier}
      {out : State L R × Except DispatchError Unit}
      (hid : decodeProposalIdentifier cfg.decoders prop = .ok id)
      (h : Stores cfg prop id s out) : Edit s out.1
  | close {t : State L R} (h : Closes cfg s t) : Edit s t
  | unqueue (key : TypedChainId × ℕ) :
      Edit s { s with unsignedProposalQueue := s.unsignedProposalQueue.erase key }
  | offence (offence : DKGMisbehaviorOffenceType) : Edit s (reportOffence cfg offence s)
  | environment (rest : R) : Edit s { s with rest := rest }

abbrev Edits : State L R → State L R → Prop := Relation.ReflTransGen (Edit cfg)

variable {cfg} {s : State L R}

theorem generateNextBatchId_ok {batchId : ℕ} {t : State L R}
    (h : generateNextBatchId s = .ok (batchId, t)) :
    s.nextBatchId + 1 < 2 ^ 32 ∧ batchId = s.nextBatchId ∧
      t = { s with nextBatchId := s.nextBatchId + 1 } := by
  rw [generateNextBatchId] at h
  split at h
  · obtain ⟨rfl, rfl⟩ := Prod.mk.inj (Except.ok.inj h)
    exact ⟨‹_›, rfl, rfl⟩
  · cases h

theorem generateNextBatchId_error {e : DispatchError} (h : generateNextBatchId s = .error e) :
    ¬s.nextBatchId + 1 < 2 ^ 32 := by
  intro hbits
  rw [generateNextBatchId, if_pos hbits] at h
  cases h

theorem storeUnsignedProposal_stores (prop : Proposal L) (id : ProposalIdentifier)
    (s : State L R) : Stores cfg prop id s (storeUnsignedProposal cfg prop id s) := by
  rw [storeUnsignedProposal]
  split
  · rename_i hfull
    rw [createBatchAndAddToStorage]
    cases hnext : generateNextBatchId s with
    | error e => exact .refused e
    | ok next =>
        obtain ⟨batchId, t⟩ := next
        obtain ⟨hbits, rfl, rfl⟩ := generateNextBatchId_ok hnext
        simp only [bind, Except.bind]
        split
        · rename_i hpush
          refine .emptyQueued _ ?_ hbits
          rw [BoundedVec.tryPush, BoundedVec.tryFrom_eq_none] at hpush
          exact Nat.lt_one_iff.mp hpush
        · rename_i proposals hpush
          exact .queued hfull hbits (BoundedVec.tryFrom_eq_some.mp hpush)
  · split
    · exact .refused _
    · rename_i proposals hpush
      exact .staged (BoundedVec.tryFrom_eq_some.mp hpush)

theorem isZero_iff {w : Weight} : w.isZero = true ↔ w.refTime = 0 ∧ w.proofSize = 0 := by
  obtain ⟨refTime, proofSize⟩ := w
  simp [Weight.isZero]

theorem not_isZero_of_proofSize {w : Weight} (h : 0 < w.proofSize) : ¬w.isZero = true :=
  fun hzero => h.ne' (isZero_iff.mp hzero).2

theorem createBatches_closes {staged : List (TypedChainId × StagedProposals L)}
    {remaining : Weight} (hnodup : (staged.map Prod.fst).Nodup)
    (hstaged : ∀ entry ∈ staged, s.unsignedProposals.lookup entry.1 = some entry.2) :
    Relation.ReflTransGen (Closes cfg) s (createBatches cfg staged remaining s).1 := by
  induction staged generalizing s remaining with
  | nil => exact .refl
  | cons entry staged ih =>
      obtain ⟨chain, proposals⟩ := entry
      rw [List.map_cons, List.nodup_cons] at hnodup
      rw [createBatches]
      dsimp only
      split
      · exact .refl
      · cases hnext : generateNextBatchId s with
        | error e => exact .refl
        | ok next =>
            obtain ⟨batchId, t⟩ := next
            obtain ⟨hbits, rfl, rfl⟩ := generateNextBatchId_ok hnext
            refine .head (.close (hstaged (chain, proposals) List.mem_cons_self) hbits) ?_
            refine ih hnodup.2 ?_
            intro entry hentry
            have hne : entry.1 ≠ chain := by
              rintro rfl
              exact hnodup.1 (List.mem_map.mpr ⟨entry, hentry, rfl⟩)
            change (s.unsignedProposals.erase chain).lookup entry.1 = some entry.2
            rw [StorageMap.lookup_erase_eq, if_neg hne]
            exact hstaged entry (List.mem_cons_of_mem _ hentry)

theorem onIdleCreateProposalBatches_closes (remaining : Weight) :
    Relation.ReflTransGen (Closes cfg) s (onIdleCreateProposalBatches cfg remaining s).1 := by
  refine createBatches_closes (StorageMap.nodup_keys_iter _ _) ?_
  intro entry hentry
  exact StorageMap.mem_iter.mp hentry

theorem removeExpired_tidies {now : ℕ}
    {batches : List ((TypedChainId × ℕ) × StoredUnsignedProposalBatch L)}
    {remaining : Weight} {out : State L R × Weight}
    (h : removeExpired cfg now batches remaining s = .ok out) :
    Relation.ReflTransGen (Tidy cfg) s out.1 := by
  induction batches generalizing remaining s with
  | nil =>
      rw [← Except.ok.inj h]
  | cons entry batches ih =>
      obtain ⟨key, batch⟩ := entry
      rw [removeExpired] at h
      cases hexpired : expired cfg now batch with
      | error fault => simp [hexpired] at h
      | ok past =>
          cases past with
          | false =>
              simp only [hexpired] at h
              exact ih h
          | true =>
              simp only [hexpired] at h
              split at h
              · rw [← Except.ok.inj h]
              · exact .head (.unqueue key) (ih h)

theorem onIdle_tidies {now : ℕ} {remaining : Weight} {out : State L R × Weight}
    (h : onIdle cfg now remaining s = .ok out) :
    Relation.ReflTransGen (Tidy cfg) s out.1 := by
  rw [onIdle] at h
  split at h
  · rw [← Except.ok.inj h]
  · have hcreated : Relation.ReflTransGen (Tidy cfg) s
        (onIdleCreateProposalBatches cfg remaining s).1 :=
      (onIdleCreateProposalBatches_closes remaining).lift id fun _ _ => .close
    refine hcreated.trans ?_
    dsimp only at h
    rw [onIdleRemoveExpiredBatches] at h
    split at h
    · rw [← Except.ok.inj h]
    · exact removeExpired_tidies h

theorem Tidy.edit {t : State L R} (h : Tidy cfg s t) : Edit cfg s t := by
  cases h with
  | close hcloses => exact .close hcloses
  | unqueue key => exact .unqueue key

theorem handleUnsignedProposal_ok {prop : Proposal L}
    {out : State L R × Except DispatchError Unit}
    (h : handleUnsignedProposal cfg prop s = .ok out) :
    (∃ id, decodeProposalIdentifier cfg.decoders prop = .ok id ∧
        out = storeUnsignedProposal cfg prop id s) ∨ ∃ e, out = (s, .error e) := by
  rw [handleUnsignedProposal] at h
  cases hid : decodeProposalIdentifier cfg.decoders prop with
  | ok id =>
      simp only [hid] at h
      exact .inl ⟨id, rfl, (Except.ok.inj h).symm⟩
  | error fault =>
      cases fault with
      | invalid e =>
          simp only [hid] at h
          exact .inr ⟨_, (Except.ok.inj h).symm⟩
      | panic => simp [hid] at h

theorem forceSubmitUnsignedProposal_ok {origin : Origin AccountId} {prop : Proposal L}
    {s' : State L R} (h : forceSubmitUnsignedProposal cfg origin prop s = .ok s') :
    prop.isUnsigned = true ∧ ∃ id, decodeProposalIdentifier cfg.decoders prop = .ok id ∧
      storeUnsignedProposal cfg prop id s = (s', .ok ()) := by
  simp only [forceSubmitUnsignedProposal, bind_eq_ok, ensure_eq_ok] at h
  obtain ⟨_, -, _, hunsigned, id, hid, h⟩ := h
  refine ⟨hunsigned, id, decodeIdentifier_eq_ok.mp hid, ?_⟩
  split at h
  · rename_i stored hstored
    rw [hstored, Except.ok.inj h]
  · cases h

theorem storeUnsignedProposal_edit {prop : Proposal L} {id : ProposalIdentifier}
    (hid : decodeProposalIdentifier cfg.decoders prop = .ok id) :
    Edit cfg s (storeUnsignedProposal cfg prop id s).1 :=
  .store hid (storeUnsignedProposal_stores prop id s)

theorem submitDkgSigningOffence_ok {origin : Origin AccountId}
    {signedData : SignedProposalBatch L} {s' : State L R}
    (h : submitDkgSigningOffence cfg origin signedData s = .ok s') :
    ∃ offence, s' = reportOffence cfg offence s := by
  simp only [submitDkgSigningOffence, bind_eq_ok] at h
  obtain ⟨_, -, first, -, _, -, common, -, same, -, h⟩ := h
  split at h
  · simp only [bind_eq_ok] at h
    obtain ⟨_, -, _, -, h⟩ := h
    exact ⟨_, (Except.ok.inj h).symm⟩
  · exact ⟨_, (Except.ok.inj h).symm⟩

/-- Apart from submissions and the hook a call makes one edit, if any. -/
theorem dispatch_edit {call : Call L AccountId R} {s' : State L R}
    (hcall : ∀ origin props, call ≠ .submitSignedProposals origin props)
    (hidle : ∀ now remaining, call ≠ .onIdle now remaining)
    (h : dispatch cfg s call = .ok s') : Relation.ReflGen (Edit cfg) s s' := by
  cases call with
  | submitSignedProposals origin props => exact absurd rfl (hcall origin props)
  | forceSubmitUnsignedProposal origin prop =>
      obtain ⟨-, id, hid, hstored⟩ := forceSubmitUnsignedProposal_ok h
      have hedit := storeUnsignedProposal_edit (s := s) hid
      rw [hstored] at hedit
      exact .single hedit
  | submitDkgSigningOffence origin signedData =>
      obtain ⟨offence, rfl⟩ := submitDkgSigningOffence_ok h
      exact .single (.offence offence)
  | forceRemoveUnsignedProposalBatch origin chain batchId =>
      simp only [dispatch, forceRemoveUnsignedProposalBatch, bind_eq_ok] at h
      obtain ⟨_, -, _, -, h⟩ := h
      rw [← Except.ok.inj h]
      exact .single (.unqueue _)
  | handleUnsignedProposal prop =>
      simp only [dispatch, map_eq_ok] at h
      obtain ⟨out, hout, rfl⟩ := h
      rcases handleUnsignedProposal_ok hout with ⟨id, hid, rfl⟩ | ⟨e, rfl⟩
      · exact .single (storeUnsignedProposal_edit hid)
      · exact .refl
  | onIdle now remaining => exact absurd rfl (hidle now remaining)
  | environment rest =>
      rw [← Except.ok.inj h]
      exact .single (.environment rest)

theorem dispatch_edits {call : Call L AccountId R} {s' : State L R}
    (hcall : ∀ origin props, call ≠ .submitSignedProposals origin props)
    (h : dispatch cfg s call = .ok s') : Edits cfg s s' := by
  by_cases hidle : ∃ now remaining, call = .onIdle now remaining
  · obtain ⟨now, remaining, rfl⟩ := hidle
    simp only [dispatch, map_eq_ok] at h
    obtain ⟨out, hout, rfl⟩ := h
    exact (onIdle_tidies hout).lift id fun _ _ => Tidy.edit
  · refine (dispatch_edit hcall ?_ h).to_reflTransGen
    intro now remaining heq
    exact hidle ⟨now, remaining, heq⟩

theorem Stores.writes {prop : Proposal L} {id : ProposalIdentifier}
    {out : State L R × Except DispatchError Unit} (h : Stores cfg prop id s out)
    (hid : decodeProposalIdentifier cfg.decoders prop = .ok id) : Writes cfg s out.1 := by
  cases h with
  | refused e => exact .refl
  | staged hpush =>
      refine .single (.stage hid ?_)
      intro u hu
      rw [hpush] at hu
      rcases List.mem_append.mp hu with hold | hnew
      · exact .inr hold
      · exact .inl (by simpa using hnew)
  | queued hfull hbits hpush =>
      refine .head (.queueBatch rfl hbits) (.single (.stage hid ?_))
      intro u hu
      rw [hpush] at hu
      exact .inl (by simpa using hu)
  | emptyQueued e hempty hbits => exact .single (.queueBatch rfl hbits)

theorem Edit.writes {t : State L R} (h : Edit cfg s t) : Writes cfg s t := by
  cases h with
  | store hid hstores => exact hstores.writes hid
  | close hcloses =>
      obtain ⟨hstaged, hbits⟩ := hcloses
      refine .head (.queueBatch ?_ hbits) (.single (.unstage _))
      rw [StorageMap.getD, hstaged]
      rfl
  | unqueue key => exact .single (.unqueue key)
  | offence offence => exact .single (.offence offence)
  | environment rest => exact .single (.environment rest)

theorem dispatch_writes {call : Call L AccountId R} {s' : State L R}
    (hcall : ∀ origin props, call ≠ .submitSignedProposals origin props)
    (h : dispatch cfg s call = .ok s') : Writes cfg s s' := by
  refine Runs.invariant_of_reflTransGen (Writes cfg s) ?_ .refl (dispatch_edits hcall h)
  exact fun _ _ hwrites hedit => hwrites.trans hedit.writes

end DkgSubstrate.ProposalHandlerEffects
