import DkgSubstrate.SignedBatches

/-!
When a report of a signing offence is accepted although the signed batch is known to the
pallet.
-/

namespace DkgSubstrate.SigningOffence

open DkgSubstrate.Dispatch
open DkgSubstrate.Primitives
open DkgSubstrate.ProposalHandler
open DkgSubstrate.ProposalHandlerEffects
open DkgSubstrate.Proposals
open DkgSubstrate.Runs
open DkgSubstrate.Runtime
open DkgSubstrate.SampleRuntime
open DkgSubstrate.SignedBatches
open DkgSubstrate.Words

variable {L : Limits} {AccountId R : Type}

/-- The data of the batch is that of a batch which is queued or signed for the chain of its
first proposal. -/
def KnownBatch (cfg : Config L AccountId R) (s : State L R)
    (signedData : SignedProposalBatch L) : Prop :=
  ∃ first id batchId, signedData.proposals.toList.head? = some first ∧
    decodeProposalIdentifier cfg.decoders first = .ok id ∧
    ((∃ stored ∈ s.unsignedProposalQueue.lookup (id.typedChainId, batchId),
        stored.data = signedData.data) ∨
      ∃ stored ∈ s.signedProposals.lookup (id.typedChainId, batchId),
        stored.data = signedData.data)

/-- The first of the proposals that has not the common identifier has another one, or makes
the decoder panic. -/
def DeviatesFrom (D : Decoders) (common : ProposalIdentifier)
    (proposals : List (Proposal L)) : Prop :=
  ∃ pre p post, proposals = pre ++ p :: post ∧
    (∀ q ∈ pre, decodeProposalIdentifier D q = .ok common) ∧
    (decodeProposalIdentifier D p = .error .panic ∨
      ∃ other, decodeProposalIdentifier D p = .ok other ∧ other ≠ common)

def Deviates (D : Decoders) (proposals : List (Proposal L)) : Prop :=
  ∃ first id, proposals.head? = some first ∧ decodeProposalIdentifier D first = .ok id ∧
    DeviatesFrom D id proposals

/-- The report is by a signed origin, on a batch that the DKG has signed. -/
def Reportable (cfg : Config L AccountId R) (s : State L R) (origin : Origin AccountId)
    (signedData : SignedProposalBatch L) : Prop :=
  (∃ account, origin = .signed account) ∧
    SignedByDkg cfg.crypto (cfg.dkgKey s.rest) signedData.signature.toList signedData.data

/-- The call returns an error, and so changes nothing. -/
def ReturnsError {α : Type} (outcome : Outcome α) : Prop :=
  ∃ e, outcome = .error (.error e)

section Loop

variable {cfg : Config L AccountId R} {common : ProposalIdentifier}

theorem deviatesFrom_cons {D : Decoders} {p : Proposal L} {ps : List (Proposal L)} :
    DeviatesFrom D common (p :: ps) ↔
      (decodeProposalIdentifier D p = .error .panic ∨
        ∃ other, decodeProposalIdentifier D p = .ok other ∧ other ≠ common) ∨
      (decodeProposalIdentifier D p = .ok common ∧ DeviatesFrom D common ps) := by
  constructor
  · rintro ⟨pre, q, post, hsplit, hpre, hq⟩
    rcases pre with _ | ⟨p', pre⟩
    · obtain ⟨rfl, -⟩ := List.cons.inj hsplit
      exact .inl hq
    · obtain ⟨rfl, htail⟩ := List.cons.inj hsplit
      obtain ⟨hhead, hpre⟩ := List.forall_mem_cons.mp hpre
      exact .inr ⟨hhead, pre, q, post, htail, hpre, hq⟩
  · rintro (hp | ⟨hhead, pre, q, post, rfl, hpre, hq⟩)
    · exact ⟨[], p, ps, rfl, by simp, hp⟩
    · exact ⟨p :: pre, q, post, rfl, List.forall_mem_cons.mpr ⟨hhead, hpre⟩, hq⟩

theorem haveIdentifier_iff {ps : List (Proposal L)} :
    (haveIdentifier cfg common ps = .ok true ∨
        ReturnsError (haveIdentifier cfg common ps)) ↔
      ¬DeviatesFrom cfg.decoders common ps := by
  induction ps with
  | nil =>
      refine iff_of_true (.inl rfl) ?_
      rintro ⟨pre, p, post, hsplit, -⟩
      simp at hsplit
  | cons p ps ih =>
      rw [deviatesFrom_cons]
      rw [haveIdentifier, decodeIdentifier]
      cases hdecode : decodeProposalIdentifier cfg.decoders p with
      | ok id =>
          by_cases hid : id = common
          · simp [hid, bind, Except.bind, ih]
          · simp [hid, bind, Except.bind, ReturnsError]
      | error fault =>
          cases fault with
          | invalid v => simp [bind, Except.bind, ReturnsError]
          | panic => simp [bind, Except.bind, ReturnsError]

end Loop

section Report

variable {cfg : Config L AccountId R} {s : State L R}

theorem existsWithData_of_known {chain : TypedChainId} {batchId : ℕ} {data : Bytes}
    (h : (∃ stored ∈ s.unsignedProposalQueue.lookup (chain, batchId), stored.data = data) ∨
      ∃ stored ∈ s.signedProposals.lookup (chain, batchId), stored.data = data) :
    existsWithData chain data s = true := by
  rw [existsWithData]
  rw [Bool.or_eq_true, List.any_eq_true, List.any_eq_true]
  rcases h with ⟨stored, hstored, hdata⟩ | ⟨stored, hstored, hdata⟩
  · exact .inr ⟨⟨(chain, batchId), stored⟩, AList.mem_lookup_iff.mp hstored, by simp [hdata]⟩
  · exact .inl ⟨⟨(chain, batchId), stored⟩, AList.mem_lookup_iff.mp hstored, by simp [hdata]⟩

theorem returnsError_of_not_reportable {origin : Origin AccountId}
    {signedData : SignedProposalBatch L} (h : ¬Reportable cfg s origin signedData) :
    ReturnsError (submitDkgSigningOffence cfg origin signedData s) := by
  simp only [submitDkgSigningOffence]
  cases origin with
  | signed account =>
      have hunsigned : ¬SignedByDkg cfg.crypto (cfg.dkgKey s.rest)
          signedData.signature.toList signedData.data :=
        fun hsigned => h ⟨⟨account, rfl⟩, hsigned⟩
      rw [← ensureSignedByDkg_eq_ok] at hunsigned
      cases signedData.proposals.toList.head? with
      | none => simp [ensure, okOr, bind, Except.bind, ReturnsError]
      | some first => simp [ensure, okOr, bind, Except.bind, ReturnsError, hunsigned]
  | root => simp [ensure, bind, Except.bind, ReturnsError]
  | none => simp [ensure, bind, Except.bind, ReturnsError]

theorem returnsError_known_iff {origin : Origin AccountId}
    {signedData : SignedProposalBatch L} (hknown : KnownBatch cfg s signedData) :
    ReturnsError (submitDkgSigningOffence cfg origin signedData s) ↔
      ¬(Reportable cfg s origin signedData ∧
        Deviates cfg.decoders signedData.proposals.toList) := by
  by_cases hreportable : Reportable cfg s origin signedData
  · obtain ⟨first, id, batchId, hfirst, hid, hstored⟩ := hknown
    have hdeviates : Deviates cfg.decoders signedData.proposals.toList ↔
        DeviatesFrom cfg.decoders id signedData.proposals.toList := by
      constructor
      · rintro ⟨first', id', hfirst', hid', h⟩
        obtain rfl := Option.some.inj (hfirst.symm.trans hfirst')
        obtain rfl := Except.ok.inj (hid.symm.trans hid')
        exact h
      · exact fun h => ⟨first, id, hfirst, hid, h⟩
    have hexists := existsWithData_of_known hstored
    have hdecode := decodeIdentifier_eq_ok.mpr hid
    obtain ⟨⟨account, rfl⟩, hsigned⟩ := hreportable
    have hdkg := ensureSignedByDkg_eq_ok.mpr hsigned
    rw [hdeviates, and_iff_right ⟨⟨account, rfl⟩, hsigned⟩, ← haveIdentifier_iff]
    rw [submitDkgSigningOffence]
    cases hsame : haveIdentifier cfg id signedData.proposals.toList with
    | error fault =>
        simp [ensure, okOr, bind, Except.bind, ReturnsError, hfirst, hdkg, hdecode, hsame]
    | ok same =>
        cases same with
        | false =>
            simp [ensure, okOr, bind, Except.bind, ReturnsError, hfirst, hdkg, hdecode, hsame]
        | true =>
            by_cases hlookup :
                s.signedProposals.lookup (id.typedChainId, signedData.batchId) = none <;>
              simp [ensure, okOr, bind, Except.bind, ReturnsError, hfirst, hdkg, hdecode, hsame,
                hexists, hlookup]
  · exact iff_of_true (returnsError_of_not_reportable hreportable)
      (fun h => hreportable h.1)

theorem returnsError_of_empty {origin : Origin AccountId}
    {signedData : SignedProposalBatch L} (h : signedData.proposals.toList = []) :
    ReturnsError (submitDkgSigningOffence cfg origin signedData s) := by
  simp only [submitDkgSigningOffence]
  rw [h]
  cases origin <;> simp [ensure, okOr, bind, Except.bind, ReturnsError]

end Report

section Queue

variable {cfg : Config L AccountId R} {s : State L R}

def Decodes (cfg : Config L AccountId R) (chain : TypedChainId) (u : UnsignedProposal L) :
    Prop :=
  decodeProposalIdentifier cfg.decoders u.proposal = .ok ⟨u.key, chain⟩

structure QueueSound (cfg : Config L AccountId R) (s : State L R) : Prop where
  queued : ∀ key stored, s.unsignedProposalQueue.lookup key = some stored →
    ∀ u ∈ stored.proposals.toList, Decodes cfg key.1 u
  staged : ∀ chain, ∀ u ∈ (s.unsignedProposals.getD chain default).toList,
    Decodes cfg chain u

theorem queueSound_empty (rest : R) : QueueSound cfg (State.empty rest) where
  queued _ _ hlookup := by cases hlookup
  staged _ _ hmem := by cases hmem

theorem queueSound_write {t : State L R} (h : QueueSound cfg s) (hwrite : Write cfg s t) :
    QueueSound cfg t := by
  obtain ⟨hqueued, hstaged⟩ := h
  cases hwrite with
  | @queueBatch chain proposals hproposals hbits =>
      refine ⟨?_, hstaged⟩
      intro key stored hlookup
      change (s.unsignedProposalQueue.insert _ _).lookup key = some stored at hlookup
      rw [StorageMap.lookup_insert_eq] at hlookup
      split at hlookup
      · subst key
        rw [← Option.some.inj hlookup]
        subst proposals
        exact hstaged chain
      · exact hqueued key stored hlookup
  | @stage prop id proposals hid hmem =>
      refine ⟨hqueued, ?_⟩
      intro chain u hu
      change u ∈ (StorageMap.getD (s.unsignedProposals.insert _ _) chain default).toList at hu
      rw [StorageMap.getD_insert] at hu
      split at hu
      · subst chain
        rcases hmem u hu with rfl | hold
        · exact hid
        · exact hstaged _ u hold
      · exact hstaged chain u hu
  | unstage chain' =>
      refine ⟨hqueued, ?_⟩
      intro chain u hu
      change u ∈ (StorageMap.getD (s.unsignedProposals.erase _) chain default).toList at hu
      rw [StorageMap.getD_erase] at hu
      split at hu
      · cases hu
      · exact hstaged chain u hu
  | unqueue key' =>
      refine ⟨?_, hstaged⟩
      intro key stored hlookup
      exact hqueued key stored (StorageMap.lookup_of_lookup_erase hlookup)
  | offence _ => exact ⟨hqueued, hstaged⟩
  | environment _ => exact ⟨hqueued, hstaged⟩

theorem queueSound_writes {t : State L R} (h : QueueSound cfg s) (hwrites : Writes cfg s t) :
    QueueSound cfg t :=
  invariant_of_reflTransGen (QueueSound cfg) (fun _ _ => queueSound_write) h hwrites

theorem queueSound_submitBatches {props : List (SignedProposalBatch L)} {s' : State L R}
    (h : QueueSound cfg s) (hsubmit : submitBatches cfg props s = .ok s') :
    QueueSound cfg s' := by
  induction props generalizing s with
  | nil =>
      rw [← Except.ok.inj hsubmit]
      exact h
  | cons batch props ih =>
      rw [submitBatches] at hsubmit
      split at hsubmit
      · exact ih h hsubmit
      · rw [bind_eq_ok] at hsubmit
        obtain ⟨t, ht, hrest⟩ := hsubmit
        obtain ⟨key, hmoves⟩ := handleSignedProposalBatch_ok ht
        refine ih ⟨?_, ?_⟩ hrest
        · intro key' stored hlookup
          exact h.queued key' stored (hmoves.removed key' stored hlookup)
        · rw [hmoves.staged]
          exact h.staged

theorem queueSound_step {call : Call L AccountId R} (h : QueueSound cfg s) :
    QueueSound cfg (step cfg s call) := by
  rcases step_cases cfg s call with ⟨-, hsame⟩ | ⟨-, hdispatch⟩
  · rw [hsame]
    exact h
  cases call with
  | submitSignedProposals origin props =>
      simp only [dispatch, submitSignedProposals, bind_eq_ok] at hdispatch
      obtain ⟨_, -, hsubmit⟩ := hdispatch
      exact queueSound_submitBatches h hsubmit
  | _ =>
      exact queueSound_writes h (dispatch_writes (fun _ _ hcall => by cases hcall) hdispatch)

theorem queueSound_run (cfg : Config L AccountId R) (rest : R)
    (calls : List (Call L AccountId R)) :
    QueueSound cfg (run (step cfg) (State.empty rest) calls) :=
  invariant_run (QueueSound cfg) (fun _ _ h _ => queueSound_step h) (queueSound_empty rest)
    (stepsMeet_true _ _ calls)

theorem deviatesFrom_iff_of_decoded {D : Decoders} {common : ProposalIdentifier}
    {ps : List (Proposal L)}
    (hdecoded : ∀ p ∈ ps, ∃ id, decodeProposalIdentifier D p = .ok id) :
    DeviatesFrom D common ps ↔
      ∃ p ∈ ps, ∃ id, decodeProposalIdentifier D p = .ok id ∧ id ≠ common := by
  induction ps with
  | nil =>
      refine iff_of_false ?_ (by simp)
      rintro ⟨pre, p, post, hsplit, -⟩
      simp at hsplit
  | cons p ps ih =>
      obtain ⟨⟨id, hid⟩, hrest⟩ := List.forall_mem_cons.mp hdecoded
      rw [deviatesFrom_cons, ih hrest, hid]
      by_cases hcommon : id = common
      · simp [hid, hcommon]
      · simp [hid, hcommon]

theorem deviates_queued_iff {key : TypedChainId × ℕ}
    {stored : StoredUnsignedProposalBatch L} (h : QueueSound cfg s)
    (hstored : s.unsignedProposalQueue.lookup key = some stored) :
    Deviates cfg.decoders (stored.proposals.toList.map UnsignedProposal.proposal) ↔
      ∃ u ∈ stored.proposals.toList, ∃ v ∈ stored.proposals.toList, u.key ≠ v.key := by
  have hdecodes := h.queued key stored hstored
  have hdecoded : ∀ p ∈ stored.proposals.toList.map UnsignedProposal.proposal,
      ∃ id, decodeProposalIdentifier cfg.decoders p = .ok id := by
    intro p hp
    obtain ⟨u, hu, rfl⟩ := List.mem_map.mp hp
    exact ⟨_, hdecodes u hu⟩
  rw [Deviates]
  cases hproposals : stored.proposals.toList with
  | nil => simp
  | cons first us =>
      rw [hproposals] at hdecodes hdecoded
      have hfirst := hdecodes first List.mem_cons_self
      constructor
      · rintro ⟨p, id, hp, hid, hdeviates⟩
        obtain rfl := Option.some.inj hp
        obtain rfl := Except.ok.inj (hid.symm.trans hfirst)
        obtain ⟨q, hq, other, hother, hne⟩ :=
          (deviatesFrom_iff_of_decoded hdecoded).mp hdeviates
        obtain ⟨u, hu, rfl⟩ := List.mem_map.mp hq
        obtain rfl := Except.ok.inj (hother.symm.trans (hdecodes u hu))
        refine ⟨u, hu, first, List.mem_cons_self, ?_⟩
        intro hkey
        exact hne (by rw [hkey])
      · rintro ⟨u, hu, v, hv, hne⟩
        refine ⟨first.proposal, ⟨first.key, key.1⟩, rfl, hfirst, ?_⟩
        rw [deviatesFrom_iff_of_decoded hdecoded]
        by_cases hkey : u.key = first.key
        · refine ⟨v.proposal, List.mem_map_of_mem hv, _, hdecodes v hv, ?_⟩
          intro heq
          exact hne (hkey.trans (congrArg ProposalIdentifier.key heq).symm)
        · refine ⟨u.proposal, List.mem_map_of_mem hu, _, hdecodes u hu, ?_⟩
          intro heq
          exact hkey (congrArg ProposalIdentifier.key heq)

theorem returnsError_queued_iff {origin : Origin AccountId} {key : TypedChainId × ℕ}
    {stored : StoredUnsignedProposalBatch L} {signedData : SignedProposalBatch L}
    (h : QueueSound cfg s) (hstored : s.unsignedProposalQueue.lookup key = some stored)
    (hproposals : signedData.proposals.toList =
      stored.proposals.toList.map UnsignedProposal.proposal) :
    ReturnsError (submitDkgSigningOffence cfg origin signedData s) ↔
      ¬(Reportable cfg s origin signedData ∧
        ∃ u ∈ stored.proposals.toList, ∃ v ∈ stored.proposals.toList, u.key ≠ v.key) := by
  rw [← deviates_queued_iff h hstored, ← hproposals]
  cases hlist : stored.proposals.toList with
  | nil =>
      rw [hlist] at hproposals
      refine iff_of_true (returnsError_of_empty hproposals) ?_
      rw [hproposals]
      rintro ⟨-, first, id, hfirst, -⟩
      cases hfirst
  | cons first us =>
      refine returnsError_known_iff ?_
      have hfirst := h.queued key stored hstored first (by rw [hlist]; exact List.mem_cons_self)
      refine ⟨first.proposal, _, key.2, ?_, hfirst, .inl ⟨stored, hstored, ?_⟩⟩
      · rw [hproposals, hlist]
        rfl
      · rw [StoredUnsignedProposalBatch.data, SignedProposalBatch.data]
        rw [hproposals, List.map_map]
        rfl

end Queue

/-- In every reachable state a report on a batch that the pallet knows returns an error
exactly if the batch is not reportable or its proposals have the identifier of the first
one.  For a queued batch this means that their keys are all the same. -/
theorem returnsError_run_iff (cfg : Config L AccountId R) (rest : R)
    (calls : List (Call L AccountId R)) (origin : Origin AccountId)
    (signedData : SignedProposalBatch L) :
    (KnownBatch cfg (run (step cfg) (State.empty rest) calls) signedData →
      (ReturnsError (submitDkgSigningOffence cfg origin signedData
          (run (step cfg) (State.empty rest) calls)) ↔
        ¬(Reportable cfg (run (step cfg) (State.empty rest) calls) origin signedData ∧
          Deviates cfg.decoders signedData.proposals.toList))) ∧
    ∀ key stored,
      (run (step cfg) (State.empty rest) calls).unsignedProposalQueue.lookup key =
        some stored →
      signedData.proposals.toList = stored.proposals.toList.map UnsignedProposal.proposal →
      (ReturnsError (submitDkgSigningOffence cfg origin signedData
          (run (step cfg) (State.empty rest) calls)) ↔
        ¬(Reportable cfg (run (step cfg) (State.empty rest) calls) origin signedData ∧
          ∃ u ∈ stored.proposals.toList, ∃ v ∈ stored.proposals.toList, u.key ≠ v.key)) := by
  refine ⟨returnsError_known_iff, ?_⟩
  intro key stored hstored hproposals
  exact returnsError_queued_iff (queueSound_run cfg rest calls) hstored hproposals

def sampleQueuedRun (nonces : List ℕ) :
    List (Call runtimeLimits ℕ (Rest sampleWiring Unit)) :=
  nonces.map (fun nonce => .forceSubmitUnsignedProposal .root (sampleTokenAdd nonce)) ++
    [.onIdle 2 sampleWeight]

theorem returnsError_run_single :
    ReturnsError (submitDkgSigningOffence sampleHandler (.signed 3)
      (sampleBatch 0 [sampleTokenAdd 5] 7)
      (run (step sampleHandler) (State.empty sampleRest) (sampleQueuedRun [5]))) := by
  refine ((returnsError_run_iff sampleHandler sampleRest (sampleQueuedRun [5]) (.signed 3)
    (sampleBatch 0 [sampleTokenAdd 5] 7)).2 (.evm 1, 0)
    { batchId := 0
      proposals := (BoundedVec.tryFrom
        [⟨.evm 1, .tokenAddProposal 5, sampleTokenAdd 5⟩]).getD default
      timestamp := 0 } (by decide +kernel) (by decide +kernel)).mpr ?_
  rintro ⟨-, hkeys⟩
  revert hkeys
  decide +kernel

theorem returnsError_fails_with_two_nonces :
    KnownBatch sampleHandler
        (run (step sampleHandler) (State.empty sampleRest) (sampleQueuedRun [5, 6]))
        (sampleBatch 0 [sampleTokenAdd 5, sampleTokenAdd 6] 7) ∧
      ¬ReturnsError (submitDkgSigningOffence sampleHandler (.signed 3)
        (sampleBatch 0 [sampleTokenAdd 5, sampleTokenAdd 6] 7)
        (run (step sampleHandler) (State.empty sampleRest) (sampleQueuedRun [5, 6]))) ∧
      (step sampleHandler
        (run (step sampleHandler) (State.empty sampleRest) (sampleQueuedRun [5, 6]))
        (.submitDkgSigningOffence (.signed 3)
          (sampleBatch 0 [sampleTokenAdd 5, sampleTokenAdd 6] 7))).offences =
        [.signedMalformedProposal] := by
  refine ⟨⟨sampleTokenAdd 5, ⟨.tokenAddProposal 5, .evm 1⟩, 0, by decide +kernel,
    by decide +kernel, .inl (by decide +kernel)⟩, ?_, by decide +kernel⟩
  rintro ⟨e, he⟩
  have hok : (submitDkgSigningOffence sampleHandler (.signed 3)
      (sampleBatch 0 [sampleTokenAdd 5, sampleTokenAdd 6] 7)
      (run (step sampleHandler) (State.empty sampleRest)
        (sampleQueuedRun [5, 6]))).isOk = true := by
    decide +kernel
  rw [he] at hok
  cases hok

end DkgSubstrate.SigningOffence
