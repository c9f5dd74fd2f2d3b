import DkgSubstrate.SampleRuntime

/-!
What the bytes that the DKG signs say about the proposals of a batch.  A batch of several
proposals is encoded as an array of fixed byte strings, in which the lengths of the
proposals are lost.
-/

namespace DkgSubstrate.BatchData

open DkgSubstrate.Primitives
open DkgSubstrate.ProposalHandler
open DkgSubstrate.Proposals
open DkgSubstrate.Runs
open DkgSubstrate.SampleRuntime
open DkgSubstrate.Words

variable {L : Limits}

inductive Batch (L : Limits) where
  | unsigned (batch : StoredUnsignedProposalBatch L)
  | signed (batch : SignedProposalBatch L)

namespace Batch

def data : Batch L → Bytes
  | .unsigned batch => batch.data
  | .signed batch => batch.data

/-- The byte strings of the proposals, in order. -/
def items : Batch L → List Bytes
  | .unsigned batch => batch.proposals.toList.map fun p => p.proposal.data
  | .signed batch => batch.proposals.toList.map Proposal.data

theorem data_eq (batch : Batch L) : batch.data = batchData batch.items := by
  cases batch <;> rfl

theorem length_items_le (batch : Batch L) : batch.items.length ≤ L.maxProposalsPerBatch := by
  cases batch with
  | unsigned batch => simpa [items] using batch.proposals.length_le
  | signed batch => simpa [items] using batch.proposals.length_le

end Batch

def CutDifferently (as bs : List Bytes) : Prop :=
  as.length = bs.length ∧ as.length ≠ 1 ∧ EthAbi.words as = EthAbi.words bs ∧
    as.map List.length ≠ bs.map List.length

def ReadsAsArray (as bs : List Bytes) : Prop :=
  bs.length ≠ 1 ∧
    as = [toBeBytes 32 32 ++ (toBeBytes 32 bs.length ++ EthAbi.words bs)]

def Ambiguous (as bs : List Bytes) : Prop :=
  CutDifferently as bs ∨ ReadsAsArray as bs ∨ ReadsAsArray bs as

theorem batchData_of_readsAsArray {as bs : List Bytes} (h : ReadsAsArray as bs) :
    batchData as = batchData bs := by
  obtain ⟨hbs, rfl⟩ := h
  rw [batchData_of_length_ne_one hbs]
  rfl

theorem readsAsArray_of_batchData {as bs : List Bytes} (has : as.length = 1)
    (hbs : bs.length ≠ 1) (h : batchData as = batchData bs) : ReadsAsArray as bs := by
  obtain ⟨a, rfl⟩ := List.length_eq_one_iff.mp has
  rw [batchData_of_length_ne_one hbs] at h
  exact ⟨hbs, congrArg (fun item => [item]) h⟩

theorem length_ne_of_readsAsArray {as bs : List Bytes} (h : ReadsAsArray as bs) :
    as.length ≠ bs.length := by
  obtain ⟨hbs, rfl⟩ := h
  exact fun hlen => hbs hlen.symm

theorem ambiguous_iff {as bs : List Bytes} (has : as.length < 256 ^ 32)
    (hbs : bs.length < 256 ^ 32) :
    Ambiguous as bs ↔ batchData as = batchData bs ∧ as ≠ bs := by
  constructor
  · rintro (⟨hcount, hone, hwords, hlengths⟩ | hreads | hreads)
    · refine ⟨?_, fun h => hlengths (congrArg (List.map List.length) h)⟩
      rw [batchData_of_length_ne_one hone, batchData_of_length_ne_one (hcount ▸ hone)]
      exact (EthAbi.encodeArray_eq_iff has hbs).mpr ⟨hcount, hwords⟩
    · exact ⟨batchData_of_readsAsArray hreads,
        fun h => length_ne_of_readsAsArray hreads (congrArg List.length h)⟩
    · exact ⟨(batchData_of_readsAsArray hreads).symm,
        fun h => length_ne_of_readsAsArray hreads (congrArg List.length h).symm⟩
  · rintro ⟨hdata, hne⟩
    have hlengths : as.map List.length ≠ bs.map List.length :=
      fun h => hne (batchData_injective h hdata)
    by_cases hone : as.length = 1
    · by_cases hother : bs.length = 1
      · obtain ⟨a, rfl⟩ := List.length_eq_one_iff.mp hone
        obtain ⟨b, rfl⟩ := List.length_eq_one_iff.mp hother
        exact absurd (congrArg (fun item => [item]) hdata) hne
      · exact .inr (.inl (readsAsArray_of_batchData hone hother hdata))
    · by_cases hother : bs.length = 1
      · exact .inr (.inr (readsAsArray_of_batchData hother hone hdata.symm))
      · rw [batchData_of_length_ne_one hone, batchData_of_length_ne_one hother] at hdata
        obtain ⟨hcount, hwords⟩ := (EthAbi.encodeArray_eq_iff has hbs).mp hdata
        exact .inl ⟨hcount, hone, hwords, hlengths⟩

/-- The signed bytes determine the proposals of two batches exactly if these do not fill
the same words with other lengths, and neither batch is a single proposal that reads as
the array of the other. -/
theorem data_determines_iff (hmax : L.maxProposalsPerBatch < 2 ^ 32) (a b : Batch L) :
    (a.data = b.data → a.items = b.items) ↔ ¬Ambiguous a.items b.items := by
  have hcount : ∀ batch : Batch L, batch.items.length < 256 ^ 32 := by
    intro batch
    calc batch.items.length ≤ L.maxProposalsPerBatch := batch.length_items_le
      _ < 2 ^ 32 := hmax
      _ ≤ 256 ^ 32 := by decide
  rw [ambiguous_iff (hcount a) (hcount b), a.data_eq, b.data_eq]
  tauto

def sampleSignedBatch (proposals : List (Proposal runtimeLimits)) : Batch runtimeLimits :=
  .signed (sampleBatch 0 proposals 7)

theorem data_determines_sampleTokens :
    runtimeLimits.maxProposalsPerBatch < 2 ^ 32 ∧
      ((sampleSignedBatch [sampleTokenAdd 5, sampleTokenAdd 6]).data =
          (sampleSignedBatch [sampleTokenAdd 6, sampleTokenAdd 5]).data →
        (sampleSignedBatch [sampleTokenAdd 5, sampleTokenAdd 6]).items =
          (sampleSignedBatch [sampleTokenAdd 6, sampleTokenAdd 5]).items) := by
  refine ⟨by decide, (data_determines_iff (by decide) _ _).mpr ?_⟩
  rintro (⟨-, -, -, hlengths⟩ | ⟨-, hreads⟩ | ⟨-, hreads⟩)
  · exact hlengths (by decide +kernel)
  · exact absurd (congrArg List.length hreads) (by decide +kernel)
  · exact absurd (congrArg List.length hreads) (by decide +kernel)

def headerDecoders : Decoders :=
  { sampleDecoders with
    length := fun kind =>
      match kind with
      | .wrappingFeeUpdate => 42
      | .tokenAdd => 60
      | _ => 41 }

def sampleProposal (kind : ProposalKind) (nonce : ℕ) (payload : Bytes) :
    Proposal runtimeLimits :=
  .unsigned kind ((BoundedVec.tryFrom
    (toBeBytes 32 1 ++ List.replicate 4 0 ++ toBeBytes 4 nonce ++ payload)).getD default)

def sampleQueued (proposals : List (Proposal runtimeLimits)) :
    Option (StoredUnsignedProposalBatch runtimeLimits) :=
  let queued := run (step { sampleHandler with decoders := headerDecoders })
    (State.empty sampleRest) (proposals.map .handleUnsignedProposal ++ [.onIdle 2 sampleWeight])
  queued.unsignedProposalQueue.lookup (.evm 1, 0)

theorem data_determines_fails_for_padding :
    ∃ a b,
      sampleQueued [sampleProposal .wrappingFeeUpdate 5 [0, 9],
        sampleProposal .tokenAdd 6 (List.replicate 20 1)] = some a ∧
      sampleQueued [sampleProposal .tokenAdd 5 ([0, 9] ++ List.replicate 18 0),
        sampleProposal .tokenAdd 6 (List.replicate 20 1)] = some b ∧
      ¬((Batch.unsigned a).data = (Batch.unsigned b).data →
        (Batch.unsigned a).items = (Batch.unsigned b).items) := by
  refine ⟨_, _, (Option.some_get (by decide +kernel)).symm,
    (Option.some_get (by decide +kernel)).symm, ?_⟩
  decide +kernel

end DkgSubstrate.BatchData
