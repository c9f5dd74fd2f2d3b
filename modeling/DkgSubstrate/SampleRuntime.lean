import DkgSubstrate.Runtime

/-!
A concrete runtime with a transparent signature scheme, on which the model is run.
-/

namespace DkgSubstrate.SampleRuntime

open DkgSubstrate.Dispatch
open DkgSubstrate.Metadata
open DkgSubstrate.MetadataCalls
open DkgSubstrate.MetadataRotation
open DkgSubstrate.Primitives
open DkgSubstrate.Proposals
open DkgSubstrate.Runs
open DkgSubstrate.Runtime
open DkgSubstrate.VoterTree
open DkgSubstrate.Words

def sampleCrypto : Crypto where
  keccak256 data := ⟨toBeBytes 32 (data.foldl (fun acc b => acc * 257 + b.toNat + 1) 0),
    length_toBeBytes 32 _⟩
  blake2128 _ := List.Vector.replicate 16 0
  secp256k1EcdsaRecover signature hash :=
    if signature.toList.drop 33 = hash.toList then
      some (List.Vector.replicate 64 signature.head)
    else none
  parseCompressed key := toFixed 65 (0 :: key ++ List.replicate 31 0)

def samplePublic (i : UInt8) : Public := List.Vector.replicate 33 i

def sampleSignature (i : UInt8) (msg : Bytes) : Bytes :=
  (samplePublic i).toList ++ (sampleCrypto.keccak256 msg).toList

theorem secp256k1EcdsaRecover_sampleCrypto {signature : FixedBytes 65} {hash : FixedBytes 32}
    (h : signature.toList.drop 33 = hash.toList) :
    sampleCrypto.secp256k1EcdsaRecover signature hash =
      some (List.Vector.replicate 64 signature.head) :=
  if_pos h

theorem recoversTo_sampleSignature (i : UInt8) (msg : Bytes) :
    recoversTo sampleCrypto msg (sampleSignature i msg) (xCoordinate (samplePublic i)) =
      true := by
  rw [sampleSignature]
  generalize hhash : sampleCrypto.keccak256 msg = hash
  have hlen : ((samplePublic i).toList ++ hash.toList).length = signatureLength := by
    simp [signatureLength]
  have hsig : toFixed signatureLength ((samplePublic i).toList ++ hash.toList) =
      some ⟨_, hlen⟩ := dif_pos hlen
  rw [recoversTo_iff]
  refine ⟨List.Vector.replicate 64 i, ?_, rfl⟩
  simp only [recoverEcdsaPubKey, hsig, hhash]
  exact secp256k1EcdsaRecover_sampleCrypto rfl

def sampleConfig : Config runtimeLimits ℕ Unit where
  crypto := sampleCrypto
  dkgAuthorityToMerkleLeaf key := key.toList
  forceOrigin origin := origin matches .root
  keygenJailSentence := 10
  signingJailSentence := 10
  decayPercentage := 50
  unsignedInterval := 0
  sessionPeriod := 10
  sessionOffset := 0
  averageSessionLength := 10
  minimumPeriod := 3000
  onAuthoritySetChanged _ _ world := .ok world
  handleUnsignedProposal _ _ world := .ok (world, .ok ())

def sampleValidators (n : ℕ) : List (ℕ × Public) :=
  (List.range n).map fun i => (i, samplePublic (UInt8.ofNat (i + 1)))

def sampleGenesisConfig (keygenThreshold signatureThreshold : UInt16) (n : ℕ) :
    GenesisConfig ℕ :=
  ⟨keygenThreshold, signatureThreshold, List.range n⟩

def sampleGenesis (keygenThreshold signatureThreshold : UInt16) (n : ℕ) :
    State runtimeLimits ℕ Unit :=
  commit (State.empty ()) (genesisState sampleConfig
    (sampleGenesisConfig keygenThreshold signatureThreshold n) (sampleValidators n) ())

def sampleSubmission (key : UInt8) (n : ℕ) : List (Bytes × Bytes) :=
  (List.range n).map fun i =>
    ((samplePublic key).toList,
      sampleSignature (UInt8.ofNat (i + 1)) (samplePublic key).toList)

def sampleRefresh (key : UInt8) (nonce n : ℕ) : RefreshProposal where
  voterMerkleRoot := (getVoterSetTreeRoot sampleCrypto List.Vector.toList
    ((sampleValidators n).map Prod.snd)).getD (List.Vector.replicate 32 0)
  sessionLength := 60000
  voterCount := n
  nonce := nonce
  pubKey := ⟨List.replicate 33 key ++ List.replicate 31 0, by simp⟩

def sampleSigned (proposal : RefreshProposal) (signer : UInt8) : Proposal runtimeLimits :=
  .signed .refresh ((BoundedVec.tryFrom proposal.encode).getD default)
    (sampleSignature signer proposal.encode)

def sampleReport (misbehaviourType : MisbehaviourType) (offender : UInt8)
    (reporters signers : List UInt8) : AggregatedMisbehaviourReports runtimeLimits :=
  let unsigned : AggregatedMisbehaviourReports runtimeLimits :=
    { misbehaviourType := misbehaviourType
      sessionId := 1
      offender := samplePublic offender
      reporters := (BoundedVec.tryFrom (reporters.map samplePublic)).getD default
      signatures := default }
  { unsigned with
    signatures := (BoundedVec.tryFrom (signers.map fun i =>
      (BoundedVec.tryFrom (sampleSignature i (misbehaviourPayload unsigned))).getD
        default)).getD default }

def sampleDecoders : Decoders where
  typedChainId resourceId := .evm (ofBeBytes (resourceId.toList.drop 28))
  length _ := 41
  fromSlice _ data := .ok (ofBeBytes ((data.drop 36).take 4))
  decodeTransaction _ := none

def sampleWiring : Wiring runtimeLimits ℕ Unit where
  metadata := sampleConfig
  bridges := ⟨10, 41, fun _ => none⟩
  decoders := sampleDecoders
  unsignedProposalExpiry := 100
  chainBytes
    | .evm id => 1 :: toBeBytes 4 id
    | _ => [0]
  dbRead := 1
  dbWrite := 1
  reportOffence _ world := world

def sampleRest : Rest sampleWiring Unit where
  metadata := run (step sampleConfig) (sampleGenesis 2 1 2)
    [.submitPublicKey .none (sampleSubmission 7 2)]
  bridges := ⟨1, ∅, ∅⟩

def sampleHandler : ProposalHandler.Config runtimeLimits ℕ (Rest sampleWiring Unit) :=
  proposalHandler sampleWiring

def sampleTokenAdd (nonce : ℕ) : Proposal runtimeLimits :=
  .unsigned .tokenAdd ((BoundedVec.tryFrom
    (toBeBytes 32 1 ++ List.replicate 4 0 ++ toBeBytes 4 nonce ++ [0])).getD default)

def sampleBatch (batchId : ℕ) (proposals : List (Proposal runtimeLimits)) (signer : UInt8) :
    SignedProposalBatch runtimeLimits :=
  let unsigned : SignedProposalBatch runtimeLimits :=
    { batchId := batchId
      proposals := (BoundedVec.tryFrom proposals).getD default
      signature := default }
  { unsigned with
    signature := (BoundedVec.tryFrom (sampleSignature signer unsigned.data)).getD default }

def sampleWeight : ProposalHandler.Weight := ⟨1000000, 1000000⟩

end DkgSubstrate.SampleRuntime
