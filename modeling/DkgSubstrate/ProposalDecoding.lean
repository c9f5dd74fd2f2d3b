import DkgSubstrate.SampleRuntime

/-!
What the bytes of a proposal decode to.  The source runs twelve decoders one after the other
on an identifier that they share, and takes the first result.  The kind of the proposal alone
decides which of them that is.
-/

namespace DkgSubstrate.ProposalDecoding

open DkgSubstrate.Primitives
open DkgSubstrate.Proposals
open DkgSubstrate.SampleRuntime
open DkgSubstrate.Words

variable {L : Limits}

abbrev Format : Type :=
  ProposalKind × (ℕ → DKGPayloadKey) × (Bytes → Except ValidationError ℕ)

def decodeFormat (kind : ProposalKind) (data : Bytes) (identifier : ProposalIdentifier)
    (format : Format) : ProposalIdentifier × Except ValidationError ProposalIdentifier :=
  match format.2.2 data with
  | .error e => (identifier, .error e)
  | .ok nonce =>
      let identifier := { identifier with key := format.2.1 nonce }
      (identifier, matchesKind kind format.1 identifier)

def decodeFormats (kind : ProposalKind) (data : Bytes) :
    List Format → ProposalIdentifier → List (Except ValidationError ProposalIdentifier)
  | [], _ => []
  | format :: formats, identifier =>
      let attempt := decodeFormat kind data identifier format
      attempt.2 :: decodeFormats kind data formats attempt.1

def firstOk : List (Except ValidationError ProposalIdentifier) →
    Except ValidationError ProposalIdentifier
  | [] => .error .unimplementedProposalKind
  | .ok identifier :: _ => .ok identifier
  | .error _ :: results => firstOk results

def headerNonce (data : Bytes) : ℕ :=
  ofBeBytes ((data.drop 36).take 4)

def decodeInSequence (D : Decoders) (p : Proposal L) :
    Except DecodeFault ProposalIdentifier :=
  if p.kind = .evm then
    (evmTxCreate D p.data).map fun tx => ⟨.evmProposal tx.2, .evm tx.1⟩
  else
    match decodeProposalHeader p.data with
    | .error e => .error (.invalid e)
    | .ok resourceId =>
        let placeholder : ProposalIdentifier :=
          ⟨.evmProposal (headerNonce p.data), D.typedChainId resourceId⟩
        match firstOk (decodeFormats p.kind p.data (proposalFormats D) placeholder) with
        | .ok identifier => .ok identifier
        | .error _ => .error (.invalid .unimplementedProposalKind)

/-- A decoder on its own, on an identifier that only names the chain. -/
def attempt (kind : ProposalKind) (data : Bytes) (chain : TypedChainId) (format : Format) :
    Option ProposalIdentifier :=
  match format.2.2 data with
  | .error _ => none
  | .ok nonce => (matchesKind kind format.1 ⟨format.2.1 nonce, chain⟩).toOption

theorem attempt_eq_some {kind : ProposalKind} {data : Bytes} {chain : TypedChainId}
    {format : Format} {id : ProposalIdentifier} :
    attempt kind data chain format = some id ↔
      format.1 = kind ∧ ∃ nonce, format.2.2 data = .ok nonce ∧ id = ⟨format.2.1 nonce, chain⟩ := by
  rw [attempt]
  cases format.2.2 data with
  | error e => simp
  | ok nonce =>
      simp only [matchesKind]
      by_cases hkind : kind = format.1
      · simp [hkind, Except.toOption, eq_comm]
      · simp [hkind, Except.toOption, Ne.symm hkind]

theorem firstOk_decodeFormats (kind : ProposalKind) (data : Bytes) (formats : List Format)
    (identifier : ProposalIdentifier) :
    (firstOk (decodeFormats kind data formats identifier)).toOption =
      formats.findSome? (attempt kind data identifier.typedChainId) := by
  induction formats generalizing identifier with
  | nil => rfl
  | cons format formats ih =>
      rw [decodeFormats, List.findSome?_cons, decodeFormat, attempt]
      cases format.2.2 data with
      | error e => exact ih identifier
      | ok nonce =>
          simp only [matchesKind]
          by_cases hkind : kind = format.1
          · simp [hkind, firstOk, Except.toOption]
          · simp only [hkind, if_false, firstOk]
            exact ih _

theorem decodeInSequence_eq (D : Decoders) (p : Proposal L) :
    decodeInSequence D p = decodeProposalIdentifier D p := by
  rw [decodeInSequence, decodeProposalIdentifier]
  by_cases hkind : p.kind = .evm
  · rw [if_pos hkind, if_pos hkind]
  · rw [if_neg hkind, if_neg hkind]
    cases decodeProposalHeader p.data with
    | error e => rfl
    | ok resourceId =>
        have hfirst := firstOk_decodeFormats p.kind p.data (proposalFormats D)
          ⟨.evmProposal (headerNonce p.data), D.typedChainId resourceId⟩
        dsimp only
        cases hresult : firstOk (decodeFormats p.kind p.data (proposalFormats D)
          ⟨.evmProposal (headerNonce p.data), D.typedChainId resourceId⟩) with
        | ok identifier =>
            rw [hresult] at hfirst
            dsimp only
            split
            · rename_i found hfound
              rw [Option.some.inj (hfirst.trans hfound)]
            · rename_i hfound
              cases hfirst.trans hfound
        | error e =>
            rw [hresult] at hfirst
            dsimp only
            split
            · rename_i found hfound
              cases hfirst.trans hfound
            · rfl

def payloadKey : ProposalKind → Option (ℕ → DKGPayloadKey)
  | .refresh => some .refreshProposal
  | .anchorUpdate => some .anchorUpdateProposal
  | .tokenAdd => some .tokenAddProposal
  | .tokenRemove => some .tokenRemoveProposal
  | .wrappingFeeUpdate => some .wrappingFeeUpdateProposal
  | .resourceIdUpdate => some .resourceIdUpdateProposal
  | .rescueTokens => some .rescueTokensProposal
  | .maxDepositLimitUpdate => some .maxDepositLimitUpdateProposal
  | .minWithdrawalLimitUpdate => some .minWithdrawalLimitUpdateProposal
  | .setVerifier => some .setVerifierProposal
  | .setTreasuryHandler => some .setTreasuryHandlerProposal
  | .feeRecipientUpdate => some .feeRecipientUpdateProposal
  | .proposerSetUpdate | .evm | .anchorCreate => none

def encodedLength (D : Decoders) : ProposalKind → ℕ
  | .refresh => RefreshProposal.length
  | kind => D.length kind

def nonceOf : ProposalKind → Bytes → ℕ
  | .refresh, data => ofBeBytes ((data.drop 44).take 4)
  | _, data => headerNonce data

structure FixedLayouts (D : Decoders) : Prop where
  header_le : ∀ kind, kind ≠ .refresh → payloadKey kind ≠ none →
    proposalHeaderLength ≤ D.length kind
  fromSlice_eq : ∀ kind, kind ≠ .refresh → payloadKey kind ≠ none → ∀ data : Bytes,
    data.length = D.length kind → D.fromSlice kind data = .ok (headerNonce data)

def create (D : Decoders) : ProposalKind → Bytes → Except ValidationError ℕ
  | .refresh => refreshCreate
  | kind => proposalCreate D kind

theorem mem_proposalFormats {D : Decoders} {format : Format} :
    format ∈ proposalFormats D ↔
      payloadKey format.1 = some format.2.1 ∧ format.2.2 = create D format.1 := by
  obtain ⟨kind, key, decoder⟩ := format
  cases kind <;> simp [proposalFormats, payloadKey, create, eq_comm]

theorem refreshCreate_eq_ok {data : Bytes} {nonce : ℕ} :
    refreshCreate data = .ok nonce ↔
      data.length = RefreshProposal.length ∧ nonce = ofBeBytes ((data.drop 44).take 4) := by
  rw [refreshCreate]
  by_cases hlen : data.length = RefreshProposal.length
  · simp [hlen, eq_comm]
  · simp [hlen]

theorem proposalCreate_eq_ok {D : Decoders} {kind : ProposalKind} {data : Bytes} {nonce : ℕ} :
    proposalCreate D kind data = .ok nonce ↔
      data.length = D.length kind ∧ D.fromSlice kind data = .ok nonce := by
  rw [proposalCreate]
  by_cases hlen : data.length = D.length kind
  · rw [if_pos hlen]
    cases D.fromSlice kind data <;> simp [hlen]
  · simp [hlen]

theorem create_of_ne_refresh (D : Decoders) {kind : ProposalKind} (h : kind ≠ .refresh) :
    create D kind = proposalCreate D kind := by
  cases kind
  case refresh => exact absurd rfl h
  all_goals rfl

theorem encodedLength_of_ne_refresh (D : Decoders) {kind : ProposalKind}
    (h : kind ≠ .refresh) : encodedLength D kind = D.length kind := by
  cases kind
  case refresh => exact absurd rfl h
  all_goals rfl

theorem nonceOf_of_ne_refresh {kind : ProposalKind} (h : kind ≠ .refresh) (data : Bytes) :
    nonceOf kind data = headerNonce data := by
  cases kind
  case refresh => exact absurd rfl h
  all_goals rfl

theorem create_eq_ok {D : Decoders} (hD : FixedLayouts D) {kind : ProposalKind}
    (hkey : payloadKey kind ≠ none) {data : Bytes} {nonce : ℕ} :
    create D kind data = .ok nonce ↔
      data.length = encodedLength D kind ∧ nonce = nonceOf kind data := by
  by_cases hkind : kind = .refresh
  · subst hkind
    exact refreshCreate_eq_ok
  · rw [create_of_ne_refresh D hkind, encodedLength_of_ne_refresh D hkind,
      nonceOf_of_ne_refresh hkind, proposalCreate_eq_ok]
    constructor
    · rintro ⟨hlen, hparse⟩
      rw [hD.fromSlice_eq kind hkind hkey data hlen] at hparse
      exact ⟨hlen, (Except.ok.inj hparse).symm⟩
    · rintro ⟨hlen, rfl⟩
      exact ⟨hlen, hD.fromSlice_eq kind hkind hkey data hlen⟩

theorem header_le_encodedLength {D : Decoders} (hD : FixedLayouts D) {kind : ProposalKind}
    (hkey : payloadKey kind ≠ none) : proposalHeaderLength ≤ encodedLength D kind := by
  by_cases hkind : kind = .refresh
  · subst hkind
    exact (by decide : proposalHeaderLength ≤ RefreshProposal.length)
  · rw [encodedLength_of_ne_refresh D hkind]
    exact hD.header_le kind hkind hkey

theorem decodeProposalHeader_eq_ok {data : Bytes} {resourceId : FixedBytes 32} :
    decodeProposalHeader data = .ok resourceId ↔
      proposalHeaderLength ≤ data.length ∧ resourceId.toList = data.take 32 := by
  rw [decodeProposalHeader]
  by_cases hlen : data.length < proposalHeaderLength
  · rw [dif_pos hlen]
    simp [Nat.not_le.mpr hlen]
  · rw [dif_neg hlen]
    constructor
    · intro h
      cases h
      exact ⟨Nat.not_lt.mp hlen, rfl⟩
    · rintro ⟨-, hid⟩
      exact congrArg Except.ok (Subtype.ext hid.symm)

theorem findSome?_attempt {D : Decoders} {kind : ProposalKind} {data : Bytes}
    {chain : TypedChainId} {id : ProposalIdentifier} :
    (proposalFormats D).findSome? (attempt kind data chain) = some id ↔
      ∃ key, payloadKey kind = some key ∧ ∃ nonce, create D kind data = .ok nonce ∧
        id = ⟨key nonce, chain⟩ := by
  have hanswer : ∀ format ∈ proposalFormats D, ∀ out,
      attempt kind data chain format = some out →
      payloadKey kind = some format.2.1 ∧
        ∃ nonce, create D kind data = .ok nonce ∧ out = ⟨format.2.1 nonce, chain⟩ := by
    intro format hmem out hout
    obtain ⟨rfl, nonce, hparse, rfl⟩ := attempt_eq_some.mp hout
    obtain ⟨hkey, hcreate⟩ := mem_proposalFormats.mp hmem
    exact ⟨hkey, nonce, hcreate ▸ hparse, rfl⟩
  constructor
  · intro h
    obtain ⟨format, hmem, hout⟩ := List.exists_of_findSome?_eq_some h
    exact ⟨format.2.1, hanswer format hmem id hout⟩
  · rintro ⟨key, hkey, nonce, hparse, rfl⟩
    have hmem : (kind, key, create D kind) ∈ proposalFormats D :=
      mem_proposalFormats.mpr ⟨hkey, rfl⟩
    have hout : attempt kind data chain (kind, key, create D kind) =
        some ⟨key nonce, chain⟩ := attempt_eq_some.mpr ⟨rfl, nonce, hparse, rfl⟩
    cases hfound : (proposalFormats D).findSome? (attempt kind data chain) with
    | none =>
        rw [List.findSome?_eq_none_iff.mp hfound _ hmem] at hout
        exact absurd hout (by simp)
    | some out =>
        obtain ⟨format, hmem', hout'⟩ := List.exists_of_findSome?_eq_some hfound
        obtain ⟨hkey', nonce', hparse', rfl⟩ := hanswer format hmem' out hout'
        rw [hkey] at hkey'
        rw [hparse] at hparse'
        rw [Option.some.inj hkey', Except.ok.inj hparse']

theorem decodeProposalIdentifier_eq_ok_of_ne_evm {D : Decoders} {p : Proposal L}
    (hkind : p.kind ≠ .evm) {id : ProposalIdentifier} :
    decodeProposalIdentifier D p = .ok id ↔
      ∃ resourceId, decodeProposalHeader p.data = .ok resourceId ∧
        ∃ key, payloadKey p.kind = some key ∧ ∃ nonce, create D p.kind p.data = .ok nonce ∧
          id = ⟨key nonce, D.typedChainId resourceId⟩ := by
  rw [decodeProposalIdentifier, if_neg hkind]
  cases decodeProposalHeader p.data with
  | error e => simp
  | ok resourceId =>
      simp only [Except.ok.injEq, exists_eq_left', ← findSome?_attempt]
      split
      · rename_i identifier hfound
        have hattempt : (proposalFormats D).findSome?
            (attempt p.kind p.data (D.typedChainId resourceId)) = some identifier := hfound
        rw [hattempt, Except.ok.injEq, Option.some.injEq]
      · rename_i hfound
        have hattempt : (proposalFormats D).findSome?
            (attempt p.kind p.data (D.typedChainId resourceId)) = none := hfound
        rw [hattempt]
        simp

theorem kind_eq_refresh_iff {D : Decoders} {p : Proposal L} {id : ProposalIdentifier}
    (hid : decodeProposalIdentifier D p = .ok id) :
    p.kind = .refresh ↔ ∃ nonce, id.key = .refreshProposal nonce := by
  by_cases hevm : p.kind = .evm
  · rw [decodeProposalIdentifier, if_pos hevm] at hid
    cases htx : evmTxCreate D p.data with
    | error e =>
        rw [htx] at hid
        cases hid
    | ok tx =>
        rw [htx] at hid
        cases hid
        simp [hevm]
  · obtain ⟨resourceId, -, key, hkey, nonce, -, rfl⟩ :=
      (decodeProposalIdentifier_eq_ok_of_ne_evm hevm).mp hid
    generalize p.kind = kind at hkey
    cases kind <;> cases hkey <;> simp

/-- A proposal that starts with a header decodes exactly if its kind is supported and its
length is that of the kind.  Its key is that of the kind, with the nonce at the place where
the kind has it, although the decoders of other kinds of that length have overwritten the
shared key before. -/
theorem decodeProposalIdentifier_by_kind {D : Decoders} (hD : FixedLayouts D)
    (p : Proposal L) (hkind : p.kind ≠ .evm) (id : ProposalIdentifier) :
    decodeInSequence D p = decodeProposalIdentifier D p ∧
      (decodeInSequence D p = .ok id ↔
        ∃ key, payloadKey p.kind = some key ∧ p.data.length = encodedLength D p.kind ∧
          id.key = key (nonceOf p.kind p.data) ∧
          ∃ resourceId : FixedBytes 32, resourceId.toList = p.data.take 32 ∧
            id.typedChainId = D.typedChainId resourceId) := by
  refine ⟨decodeInSequence_eq D p, ?_⟩
  rw [decodeInSequence_eq, decodeProposalIdentifier_eq_ok_of_ne_evm hkind]
  constructor
  · rintro ⟨resourceId, hheader, key, hkey, nonce, hcreate, rfl⟩
    have hsupported : payloadKey p.kind ≠ none := by simp [hkey]
    obtain ⟨hlen, rfl⟩ := (create_eq_ok hD hsupported).mp hcreate
    exact ⟨key, hkey, hlen, rfl, resourceId, (decodeProposalHeader_eq_ok.mp hheader).2, rfl⟩
  · rintro ⟨key, hkey, hlen, hidkey, resourceId, hresource, hchain⟩
    have hsupported : payloadKey p.kind ≠ none := by simp [hkey]
    have hheader : proposalHeaderLength ≤ p.data.length :=
      hlen ▸ header_le_encodedLength hD hsupported
    refine ⟨resourceId, decodeProposalHeader_eq_ok.mpr ⟨hheader, hresource⟩, key, hkey,
      nonceOf p.kind p.data, (create_eq_ok hD hsupported).mpr ⟨hlen, rfl⟩, ?_⟩
    rw [← hidkey, ← hchain]

theorem fixedLayouts_sampleDecoders : FixedLayouts sampleDecoders where
  header_le _ _ _ := (by decide : proposalHeaderLength ≤ 41)
  fromSlice_eq _ _ _ _ _ := rfl

theorem decodeInSequence_sampleTokenAdd :
    decodeInSequence sampleDecoders (sampleTokenAdd 5) =
      .ok ⟨.tokenAddProposal 5, .evm 1⟩ :=
  (decodeProposalIdentifier_by_kind fixedLayouts_sampleDecoders (sampleTokenAdd 5)
    (by decide) _).2.mpr ⟨.tokenAddProposal, rfl, by decide, by decide,
      (toFixed 32 (toBeBytes 32 1)).getD (List.Vector.replicate 32 0), by decide, by decide⟩

/-- The last six bytes of a resource id are a chain type of two bytes and the id of a chain.
A type that is not in the table stands for no chain. -/
def typedChainIdOf (chainType : Bytes → Option (ℕ → TypedChainId))
    (resourceId : FixedBytes 32) : TypedChainId :=
  match chainType ((resourceId.toList.drop 26).take 2) with
  | some chain => chain (ofBeBytes (resourceId.toList.drop 28))
  | none => .none

def sampleChainType : Bytes → Option (ℕ → TypedChainId)
  | [1, 0] => some .evm
  | [2, 0] => some .substrate
  | _ => none

def chainDecoders : Decoders :=
  { sampleDecoders with typedChainId := typedChainIdOf sampleChainType }

def refreshWithRootEnd (rootEnd : Bytes) (nonce : ℕ) : Proposal runtimeLimits :=
  .unsigned .refresh ((BoundedVec.tryFrom (RefreshProposal.encode
    { sampleRefresh 8 nonce 2 with
      voterMerkleRoot := (toFixed 32 (List.replicate (32 - rootEnd.length) 9 ++ rootEnd)).getD
        (List.Vector.replicate 32 0) })).getD default)

example : decodeProposalIdentifier chainDecoders (refreshWithRootEnd [1, 0, 0, 0, 0, 5] 3) =
    .ok ⟨.refreshProposal 3, .evm 5⟩ := by
  decide

/-- The nonces that are read fit into 32 bits.  The nonce of a transaction with too large a
chain id is not read. -/
def NonceFits : EthereumTransaction → Prop
  | .legacy nonce => nonce < 2 ^ 32
  | .eip2930 chainId nonce | .eip1559 chainId nonce => chainId < 2 ^ 32 → nonce < 2 ^ 32

theorem asU32_map_ne_panic {α : Type} (n : ℕ) (f : ℕ → α) :
    (asU32 n).map f ≠ .error .panic ↔ n < 2 ^ 32 := by
  rw [asU32]
  by_cases hn : n < 2 ^ 32
  · rw [if_pos hn]
    exact ⟨fun _ => hn, fun _ => by simp [Except.map]⟩
  · rw [if_neg hn]
    exact ⟨fun h => absurd rfl h, fun h => absurd h hn⟩

theorem decodeEvmTransaction_ne_panic (tx : EthereumTransaction) :
    decodeEvmTransaction tx ≠ .error .panic ↔ NonceFits tx := by
  cases tx with
  | legacy nonce => exact asU32_map_ne_panic nonce _
  | eip2930 chainId nonce | eip1559 chainId nonce =>
      rw [decodeEvmTransaction, NonceFits]
      by_cases hchain : chainId < 2 ^ 32
      · rw [if_pos hchain, asU32_map_ne_panic]
        exact ⟨fun h _ => h, fun h => h hchain⟩
      · rw [if_neg hchain]
        exact ⟨fun _ h => absurd h hchain, fun _ => by simp⟩

theorem map_ne_panic {α β : Type} (r : Except DecodeFault α) (f : α → β) :
    r.map f ≠ .error .panic ↔ r ≠ .error .panic := by
  cases r <;> simp [Except.map]

theorem evmTxCreate_ne_panic (D : Decoders) (data : Bytes) :
    evmTxCreate D data ≠ .error .panic ↔
      ∀ tx, D.decodeTransaction data = some tx → NonceFits tx := by
  rw [evmTxCreate]
  cases D.decodeTransaction data with
  | none => simp
  | some tx => simpa using decodeEvmTransaction_ne_panic tx

theorem decodeProposalIdentifier_ne_panic_of_ne_evm (D : Decoders) {p : Proposal L}
    (hkind : p.kind ≠ .evm) : decodeProposalIdentifier D p ≠ .error .panic := by
  rw [decodeProposalIdentifier, if_neg hkind]
  cases decodeProposalHeader p.data with
  | error e => simp
  | ok resourceId =>
      dsimp only
      split <;> simp

/-- Decoding does not panic exactly if the nonce of a transaction that it reads fits into 32
bits. -/
theorem decodeProposalIdentifier_ne_panic_iff (D : Decoders) (p : Proposal L) :
    decodeProposalIdentifier D p ≠ .error .panic ↔
      (p.kind = .evm → ∀ tx, D.decodeTransaction p.data = some tx → NonceFits tx) := by
  by_cases hkind : p.kind = .evm
  · rw [decodeProposalIdentifier, if_pos hkind, map_ne_panic, evmTxCreate_ne_panic]
    exact ⟨fun h _ => h, fun h => h hkind⟩
  · exact ⟨fun _ h => absurd h hkind,
      fun _ => decodeProposalIdentifier_ne_panic_of_ne_evm D hkind⟩

def nonceDecoders : Decoders where
  __ := sampleDecoders
  decodeTransaction data := some (.legacy (ofBeBytes (data.take 32)))

theorem decodeProposalIdentifier_panics :
    decodeProposalIdentifier nonceDecoders
      (.unsigned .evm ((BoundedVec.tryFrom [1, 0, 0, 0, 0]).getD default) :
        Proposal runtimeLimits) = .error .panic := by
  decide

end DkgSubstrate.ProposalDecoding
