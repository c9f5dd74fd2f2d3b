import DkgSubstrate.EthAbi
import DkgSubstrate.Primitives

/-!
Proposals, batches of them and the identifiers that are decoded from their bytes.
The layouts that the proposal and transaction libraries define are parameters.
-/

namespace DkgSubstrate.Proposals

open DkgSubstrate.Words
open DkgSubstrate.Primitives

inductive TypedChainId where
  | none
  | evm (id : ℕ)
  | substrate (id : ℕ)
  | polkadotParachain (id : ℕ)
  | kusamaParachain (id : ℕ)
  | rococoParachain (id : ℕ)
  | cosmos (id : ℕ)
  | solana (id : ℕ)
  | ink (id : ℕ)
deriving DecidableEq

inductive ProposalKind where
  | refresh
  | proposerSetUpdate
  | evm
  | anchorCreate
  | anchorUpdate
  | tokenAdd
  | tokenRemove
  | wrappingFeeUpdate
  | resourceIdUpdate
  | rescueTokens
  | maxDepositLimitUpdate
  | minWithdrawalLimitUpdate
  | setVerifier
  | setTreasuryHandler
  | feeRecipientUpdate
deriving DecidableEq

inductive Proposal (L : Limits) where
  | signed (kind : ProposalKind) (data : BoundedVec UInt8 L.maxProposalLength)
      (signature : Bytes)
  | unsigned (kind : ProposalKind) (data : BoundedVec UInt8 L.maxProposalLength)
deriving DecidableEq

namespace Proposal

variable {L : Limits}

def kind : Proposal L → ProposalKind
  | .signed kind _ _ => kind
  | .unsigned kind _ => kind

def data : Proposal L → Bytes
  | .signed _ data _ => data.toList
  | .unsigned _ data => data.toList

def signature : Proposal L → Option Bytes
  | .signed _ _ signature => some signature
  | .unsigned _ _ => none

def isSigned : Proposal L → Bool
  | .signed _ _ _ => true
  | .unsigned _ _ => false

def isUnsigned : Proposal L → Bool
  | .signed _ _ _ => false
  | .unsigned _ _ => true

end Proposal

/-- The proposal by which the DKG signs over to its next key.  The key is stored
uncompressed without its format byte. -/
structure RefreshProposal where
  voterMerkleRoot : FixedBytes 32
  sessionLength : ℕ
  voterCount : ℕ
  nonce : ℕ
  pubKey : FixedBytes 64
deriving DecidableEq

namespace RefreshProposal

def length : ℕ := 32 + 8 + 4 + 4 + 64

def encode (p : RefreshProposal) : Bytes :=
  p.voterMerkleRoot.toList ++ (toBeBytes 8 p.sessionLength ++
    (toBeBytes 4 p.voterCount ++ (toBeBytes 4 p.nonce ++ p.pubKey.toList)))

theorem length_encode (p : RefreshProposal) : p.encode.length = length := by
  simp [encode, length]

end RefreshProposal

inductive DKGPayloadKey where
  | evmProposal (nonce : ℕ)
  | refreshProposal (nonce : ℕ)
  | anchorCreateProposal (nonce : ℕ)
  | anchorUpdateProposal (nonce : ℕ)
  | tokenAddProposal (nonce : ℕ)
  | tokenRemoveProposal (nonce : ℕ)
  | wrappingFeeUpdateProposal (nonce : ℕ)
  | resourceIdUpdateProposal (nonce : ℕ)
  | rescueTokensProposal (nonce : ℕ)
  | maxDepositLimitUpdateProposal (nonce : ℕ)
  | minWithdrawalLimitUpdateProposal (nonce : ℕ)
  | setVerifierProposal (nonce : ℕ)
  | setTreasuryHandlerProposal (nonce : ℕ)
  | feeRecipientUpdateProposal (nonce : ℕ)
deriving DecidableEq

structure ProposalIdentifier where
  key : DKGPayloadKey
  typedChainId : TypedChainId
deriving DecidableEq

structure UnsignedProposal (L : Limits) where
  typedChainId : TypedChainId
  key : DKGPayloadKey
  proposal : Proposal L
deriving DecidableEq

structure StoredUnsignedProposalBatch (L : Limits) where
  batchId : ℕ
  proposals : BoundedVec (UnsignedProposal L) L.maxProposalsPerBatch
  timestamp : ℕ
deriving DecidableEq

structure SignedProposalBatch (L : Limits) where
  batchId : ℕ
  proposals : BoundedVec (Proposal L) L.maxProposalsPerBatch
  signature : BoundedVec UInt8 L.maxSignatureLength
deriving DecidableEq

def batchData : List Bytes → Bytes
  | [item] => item
  | items => EthAbi.encodeArray items

variable {L : Limits}

def StoredUnsignedProposalBatch.data (batch : StoredUnsignedProposalBatch L) : Bytes :=
  batchData (batch.proposals.toList.map fun p => p.proposal.data)

def SignedProposalBatch.data (batch : SignedProposalBatch L) : Bytes :=
  batchData (batch.proposals.toList.map Proposal.data)

theorem batchData_of_length_ne_one {items : List Bytes} (h : items.length ≠ 1) :
    batchData items = EthAbi.encodeArray items := by
  rcases items with _ | ⟨a, _ | ⟨b, items⟩⟩
  · rfl
  · simp at h
  · rfl

theorem batchData_injective {as bs : List Bytes}
    (hlen : as.map List.length = bs.map List.length)
    (h : batchData as = batchData bs) : as = bs := by
  have hcount : as.length = bs.length := by
    simpa using congrArg List.length hlen
  by_cases hone : as.length = 1
  · obtain ⟨a, rfl⟩ := List.length_eq_one_iff.mp hone
    obtain ⟨b, rfl⟩ := List.length_eq_one_iff.mp (hcount.symm.trans hone)
    exact congrArg (fun item => [item]) h
  · rw [batchData_of_length_ne_one hone,
      batchData_of_length_ne_one (hcount ▸ hone)] at h
    exact EthAbi.encodeArray_injective hlen h

inductive EthereumTransaction where
  | legacy (nonce : ℕ)
  | eip2930 (chainId nonce : ℕ)
  | eip1559 (chainId nonce : ℕ)

/-- The decoders of the proposal and transaction libraries. -/
structure Decoders where
  typedChainId : FixedBytes 32 → TypedChainId
  length : ProposalKind → ℕ
  fromSlice : ProposalKind → Bytes → Except String ℕ
  decodeTransaction : Bytes → Option EthereumTransaction

inductive ValidationError where
  | invalidDecoding (text : String)
  | invalidParameter (text : String)
  | unimplementedProposalKind
  | invalidProposalBytesLength
deriving DecidableEq

/-- Decoding returns an error or, on a nonce of an EVM transaction that does not fit,
panics. -/
inductive DecodeFault where
  | invalid (error : ValidationError)
  | panic
deriving DecidableEq

def asU32 (n : ℕ) : Except DecodeFault ℕ :=
  if n < 2 ^ 32 then .ok n else .error .panic

def decodeEvmTransaction : EthereumTransaction → Except DecodeFault (ℕ × ℕ)
  | .legacy nonce => (asU32 nonce).map fun nonce => (0, nonce)
  | .eip2930 chainId nonce | .eip1559 chainId nonce =>
      if chainId < 2 ^ 32 then (asU32 nonce).map fun nonce => (chainId, nonce)
      else .error (.invalid
        (.invalidParameter "Invalid chain id (could not fit into u32)"))

variable (D : Decoders)

def evmTxCreate (data : Bytes) : Except DecodeFault (ℕ × ℕ) :=
  match D.decodeTransaction data with
  | none => .error (.invalid (.invalidParameter "Invalid transaction"))
  | some tx => decodeEvmTransaction tx

def proposalHeaderLength : ℕ := 40

def decodeProposalHeader (data : Bytes) : Except ValidationError (FixedBytes 32) :=
  if h : data.length < proposalHeaderLength then .error .invalidProposalBytesLength
  else .ok ⟨data.take 32, by
    have hlen : 40 ≤ data.length := Nat.not_lt.mp h
    rw [List.length_take]
    omega⟩

def refreshCreate (data : Bytes) : Except ValidationError ℕ :=
  if data.length = RefreshProposal.length then
    .ok (ofBeBytes ((data.drop 44).take 4))
  else .error .invalidProposalBytesLength

theorem refreshCreate_encode (p : RefreshProposal) (h : p.nonce < 2 ^ 32) :
    refreshCreate p.encode = .ok p.nonce := by
  have hfields : p.encode = (p.voterMerkleRoot.toList ++ toBeBytes 8 p.sessionLength ++
      toBeBytes 4 p.voterCount) ++ (toBeBytes 4 p.nonce ++ p.pubKey.toList) := by
    simp only [RefreshProposal.encode, List.append_assoc]
  have hnonce : (p.encode.drop 44).take 4 = toBeBytes 4 p.nonce := by
    rw [hfields, List.drop_left' (by simp), List.take_left' (length_toBeBytes 4 p.nonce)]
  rw [refreshCreate, if_pos p.length_encode, hnonce]
  exact congrArg Except.ok (ofBeBytes_toBeBytes h)

def proposalCreate (kind : ProposalKind) (data : Bytes) : Except ValidationError ℕ :=
  if data.length = D.length kind then
    match D.fromSlice kind data with
    | .ok nonce => .ok nonce
    | .error e => .error (.invalidDecoding e)
  else .error .invalidProposalBytesLength

def proposalFormats :
    List (ProposalKind × (ℕ → DKGPayloadKey) × (Bytes → Except ValidationError ℕ)) :=
  [(.refresh, .refreshProposal, refreshCreate),
   (.anchorUpdate, .anchorUpdateProposal, proposalCreate D .anchorUpdate),
   (.tokenAdd, .tokenAddProposal, proposalCreate D .tokenAdd),
   (.tokenRemove, .tokenRemoveProposal, proposalCreate D .tokenRemove),
   (.wrappingFeeUpdate, .wrappingFeeUpdateProposal,
     proposalCreate D .wrappingFeeUpdate),
   (.resourceIdUpdate, .resourceIdUpdateProposal, proposalCreate D .resourceIdUpdate),
   (.rescueTokens, .rescueTokensProposal, proposalCreate D .rescueTokens),
   (.maxDepositLimitUpdate, .maxDepositLimitUpdateProposal,
     proposalCreate D .maxDepositLimitUpdate),
   (.minWithdrawalLimitUpdate, .minWithdrawalLimitUpdateProposal,
     proposalCreate D .minWithdrawalLimitUpdate),
   (.setTreasuryHandler, .setTreasuryHandlerProposal,
     proposalCreate D .setTreasuryHandler),
   (.setVerifier, .setVerifierProposal, proposalCreate D .setVerifier),
   (.feeRecipientUpdate, .feeRecipientUpdateProposal,
     proposalCreate D .feeRecipientUpdate)]

def matchesKind (propKind expectedKind : ProposalKind) (out : ProposalIdentifier) :
    Except ValidationError ProposalIdentifier :=
  if propKind = expectedKind then .ok out else .error .unimplementedProposalKind

def decodeProposalIdentifier (p : Proposal L) :
    Except DecodeFault ProposalIdentifier :=
  if p.kind = .evm then
    (evmTxCreate D p.data).map fun tx => ⟨.evmProposal tx.2, .evm tx.1⟩
  else
    match decodeProposalHeader p.data with
    | .error e => .error (.invalid e)
    | .ok resourceId =>
        let attempt := fun (format : ProposalKind × (ℕ → DKGPayloadKey) ×
            (Bytes → Except ValidationError ℕ)) =>
          match format.2.2 p.data with
          | .error _ => none
          | .ok nonce =>
              (matchesKind p.kind format.1
                ⟨format.2.1 nonce, D.typedChainId resourceId⟩).toOption
        match (proposalFormats D).findSome? attempt with
        | some identifier => .ok identifier
        | none => .error (.invalid .unimplementedProposalKind)

end DkgSubstrate.Proposals
