import DkgSubstrate.Proposals
import DkgSubstrate.Runs

/-!
The signed batches in the local storage of a node.  The gadget puts a batch there when its
signature is complete, and the offchain worker reads the batches and submits them.  A value is
read and compared before it is replaced, and others can write in between.
-/

namespace DkgSubstrate.SignedProposalStore

open DkgSubstrate.Primitives
open DkgSubstrate.Proposals
open DkgSubstrate.Runs
open DkgSubstrate.Words

def storageSetRetryNum : ℕ := 5

structure BatchKey where
  len : ℕ
  id : ℕ
deriving DecidableEq

structure VoteResult (L : Limits) where
  signature : Bytes
  unsignedProposalBatch : StoredUnsignedProposalBatch L
  batchKey : BatchKey

structure Codec (L : Limits) (Value : Type) where
  encode : List (SignedProposalBatch L) → Value
  decode : Value → Option (List (SignedProposalBatch L))
  decode_encode : ∀ batches, decode (encode batches) = some batches

/-- What a call of the gadget finds: its own key, the current validators, and whether there
are a header and a storage. -/
structure Node where
  authorityPublicKey : Public
  currentValidatorSet : List Public
  hasLatestHeader : Bool
  hasOffchainStorage : Bool
deriving DecidableEq

structure Save (L : Limits) (Value : Type) where
  oldVal : Option Value
  signedProposals : List (SignedProposalBatch L)
  triesLeft : ℕ

/-- `handed` are the batches of all calls by a current validator that have returned. -/
structure State (L : Limits) (Value : Type) where
  stored : Option Value
  voteResults : BatchKey → List (SignedProposalBatch L)
  saves : List (Save L Value)
  workerReads : List Value
  handed : List (SignedProposalBatch L)
  onChain : List (SignedProposalBatch L)

variable {L : Limits} {Value : Type}

def State.initial (stored : Option Value) : State L Value where
  stored := stored
  voteResults _ := []
  saves := []
  workerReads := []
  handed := []
  onChain := []

def saveSignedProposalsInStorage (node : Node) (signedProposals : List (SignedProposalBatch L))
    (s : State L Value) : State L Value :=
  if signedProposals = [] then s
  else if !node.currentValidatorSet.contains node.authorityPublicKey then s
  else if node.hasLatestHeader && node.hasOffchainStorage then
    { s with saves := s.saves ++ [⟨s.stored, signedProposals, storageSetRetryNum - 1⟩] }
  else { s with handed := s.handed ++ signedProposals }

def signedProposal (signature : Bytes) (unsignedProposal : UnsignedProposal L) :
    Option (Proposal L) := do
  let data ← BoundedVec.tryFrom unsignedProposal.proposal.data
  some (.signed unsignedProposal.proposal.kind data signature)

def VoteResult.signedProposalBatch (result : VoteResult L) : Option (SignedProposalBatch L) := do
  let signedProposals ←
    result.unsignedProposalBatch.proposals.toList.mapM (signedProposal result.signature)
  let proposals ← BoundedVec.tryFrom signedProposals
  let signature ← BoundedVec.tryFrom result.signature
  some ⟨result.unsignedProposalBatch.batchId, proposals, signature⟩

def processVoteResult (node : Node) (result : VoteResult L) (s : State L Value) :
    State L Value :=
  match result.signedProposalBatch with
  | none => s
  | some batch =>
      let proposals := s.voteResults result.batchKey ++ [batch]
      if proposals.length = result.batchKey.len then
        saveSignedProposalsInStorage node proposals
          { s with voteResults := Function.update s.voteResults result.batchKey [] }
      else { s with voteResults := Function.update s.voteResults result.batchKey proposals }

variable [DecidableEq Value] (codec : Codec L Value)

/-- The stored list is replaced by the list of the call alone, and what was read is not read
again. -/
def compareAndSet (inx : ℕ) (s : State L Value) : State L Value :=
  match s.saves[inx]? with
  | none => s
  | some save =>
      if s.stored = save.oldVal then
        { s with
          stored := some (codec.encode save.signedProposals)
          saves := s.saves.eraseIdx inx
          handed := s.handed ++ save.signedProposals }
      else if save.triesLeft ≤ 1 then
        { s with
          saves := s.saves.eraseIdx inx
          handed := s.handed ++ save.signedProposals }
      else { s with saves := s.saves.set inx { save with triesLeft := save.triesLeft - 1 } }

def workerRead (s : State L Value) : State L Value :=
  match s.stored with
  | some value =>
      if (codec.decode value).isSome then { s with workerReads := s.workerReads ++ [value] }
      else s
  | none => s

def workerWrite (inx : ℕ) (s : State L Value) : State L Value :=
  match s.workerReads[inx]? with
  | none => s
  | some value =>
      match codec.decode value with
      | none => s
      | some batches =>
          if s.stored = some value then
            { s with
              stored := some (codec.encode batches)
              workerReads := s.workerReads.eraseIdx inx }
          else { s with workerReads := s.workerReads.eraseIdx inx }

inductive Event (L : Limits) (Value : Type) where
  | processVoteResult (node : Node) (result : VoteResult L)
  | save (node : Node) (signedProposals : List (SignedProposalBatch L))
  | compareAndSet (inx : ℕ)
  | workerRead
  | workerWrite (inx : ℕ)
  | otherWrite (value : Option Value)
  | appears (batch : SignedProposalBatch L)

def step (s : State L Value) : Event L Value → State L Value
  | .processVoteResult node result => processVoteResult node result s
  | .save node signedProposals => saveSignedProposalsInStorage node signedProposals s
  | .compareAndSet inx => compareAndSet codec inx s
  | .workerRead => workerRead codec s
  | .workerWrite inx => workerWrite codec inx s
  | .otherWrite value => { s with stored := value }
  | .appears batch => { s with onChain := batch :: s.onChain }

def batchesIn (value : Option Value) : List (SignedProposalBatch L) :=
  (value.bind codec.decode).getD []

def Holds (s : State L Value) (value : Option Value) (batches : List (SignedProposalBatch L)) :
    Prop :=
  ∀ batch ∈ batches, batch ∉ s.onChain → batch ∈ batchesIn codec value

def HandedKept (s : State L Value) : Prop := Holds codec s s.stored s.handed

def SaveKeeps (node : Node) (signedProposals : List (SignedProposalBatch L))
    (s : State L Value) : Prop :=
  node.authorityPublicKey ∈ node.currentValidatorSet →
    (node.hasLatestHeader && node.hasOffchainStorage) = false →
    Holds codec s s.stored signedProposals

def KeepsHanded (s : State L Value) : Event L Value → Prop
  | .processVoteResult node result =>
      ∀ batch, result.signedProposalBatch = some batch →
        (s.voteResults result.batchKey ++ [batch]).length = result.batchKey.len →
        SaveKeeps codec node (s.voteResults result.batchKey ++ [batch]) s
  | .save node signedProposals => SaveKeeps codec node signedProposals s
  | .compareAndSet inx =>
      ∀ save, s.saves[inx]? = some save →
        if s.stored = save.oldVal then
          ∀ batch ∈ s.handed, batch ∉ s.onChain → batch ∈ save.signedProposals
        else save.triesLeft ≤ 1 → Holds codec s s.stored save.signedProposals
  | .otherWrite value =>
      ∀ batch ∈ batchesIn codec s.stored, batch ∈ s.handed → batch ∉ s.onChain →
        batch ∈ batchesIn codec value
  | .workerRead | .workerWrite _ | .appears _ => True

section Keeps

variable {codec} {s : State L Value}

omit [DecidableEq Value] in
theorem batchesIn_encode (batches : List (SignedProposalBatch L)) :
    batchesIn codec (some (codec.encode batches)) = batches := by
  rw [batchesIn, Option.bind_some, codec.decode_encode, Option.getD_some]

omit [DecidableEq Value] in
theorem holds_append {value : Option Value} {batches batches' : List (SignedProposalBatch L)} :
    Holds codec s value (batches ++ batches') ↔
      Holds codec s value batches ∧ Holds codec s value batches' := by
  simp only [Holds, List.mem_append, or_imp, forall_and]

omit [DecidableEq Value] in
theorem handedKept_save (h : HandedKept codec s) (node : Node)
    (signedProposals : List (SignedProposalBatch L)) :
    HandedKept codec (saveSignedProposalsInStorage node signedProposals s) ↔
      SaveKeeps codec node signedProposals s := by
  rw [saveSignedProposalsInStorage]
  split
  · rename_i hempty
    refine iff_of_true h fun _ _ => ?_
    rw [hempty]
    exact fun batch hbatch => absurd hbatch List.not_mem_nil
  · split
    · rename_i hforeign
      rw [Bool.not_eq_true', ← Bool.not_eq_true, List.contains_iff_mem] at hforeign
      exact iff_of_true h fun hvalidator => absurd hvalidator hforeign
    · rename_i hvalidator
      rw [Bool.not_eq_true', Bool.not_eq_false, List.contains_iff_mem] at hvalidator
      split
      · rename_i hready
        refine iff_of_true h fun _ hmissing => ?_
        rw [hready] at hmissing
        cases hmissing
      · rename_i hmissing
        have hkept : HandedKept codec { s with handed := s.handed ++ signedProposals } ↔
            HandedKept codec s ∧ Holds codec s s.stored signedProposals := holds_append
        rw [hkept, SaveKeeps, forall_prop_of_true hvalidator,
          forall_prop_of_true (Bool.eq_false_of_not_eq_true hmissing), and_iff_right h]

theorem handedKept_processVoteResult (h : HandedKept codec s) (node : Node)
    (result : VoteResult L) :
    HandedKept codec (processVoteResult node result s) ↔
      KeepsHanded codec s (.processVoteResult node result) := by
  rw [processVoteResult, KeepsHanded]
  cases result.signedProposalBatch with
  | none => exact iff_of_true h nofun
  | some batch =>
      simp only [Option.some.injEq, forall_eq']
      split
      · rename_i hfull
        rw [forall_prop_of_true hfull]
        have hremoved : HandedKept codec
            { s with voteResults := Function.update s.voteResults result.batchKey [] } := h
        exact handedKept_save hremoved node _
      · rename_i hmore
        exact iff_of_true h fun hfull => absurd hfull hmore

theorem handedKept_compareAndSet (h : HandedKept codec s) (inx : ℕ) :
    HandedKept codec (compareAndSet codec inx s) ↔
      KeepsHanded codec s (.compareAndSet inx) := by
  rw [compareAndSet, KeepsHanded]
  cases s.saves[inx]? with
  | none => exact iff_of_true h nofun
  | some save =>
      simp only [Option.some.injEq, forall_eq']
      split
      · -- The batches of the call itself are in what it writes.
        simp only [HandedKept, Holds, batchesIn_encode, List.mem_append, or_imp, forall_and]
        exact and_iff_left fun batch hbatch _ => hbatch
      · split
        · rename_i hlast
          have hkept : HandedKept codec { s with
              saves := s.saves.eraseIdx inx
              handed := s.handed ++ save.signedProposals } ↔
              HandedKept codec s ∧ Holds codec s s.stored save.signedProposals := holds_append
          rw [hkept, forall_prop_of_true hlast, and_iff_right h]
        · rename_i hmore
          exact iff_of_true h fun hlast => absurd hlast hmore

omit [DecidableEq Value] in
theorem handedKept_workerRead (h : HandedKept codec s) :
    HandedKept codec (workerRead codec s) := by
  rw [workerRead]
  split
  · split
    · exact h
    · exact h
  · exact h

theorem handedKept_workerWrite (h : HandedKept codec s) (inx : ℕ) :
    HandedKept codec (workerWrite codec inx s) := by
  rw [workerWrite]
  split
  · exact h
  · split
    · exact h
    · rename_i value _ batches hdecode
      split
      · rename_i hstored
        have hsame : batchesIn codec (some (codec.encode batches)) =
            batchesIn codec s.stored := by
          rw [batchesIn_encode, hstored, batchesIn, Option.bind_some, hdecode,
            Option.getD_some]
        intro batch hbatch hwaiting
        rw [hsame]
        exact h batch hbatch hwaiting
      · exact h

theorem handedKept_step (h : HandedKept codec s) (e : Event L Value) :
    HandedKept codec (step codec s e) ↔ KeepsHanded codec s e := by
  cases e with
  | processVoteResult node result => exact handedKept_processVoteResult h node result
  | save node signedProposals => exact handedKept_save h node signedProposals
  | compareAndSet inx => exact handedKept_compareAndSet h inx
  | workerRead => exact iff_of_true (handedKept_workerRead h) trivial
  | workerWrite inx => exact iff_of_true (handedKept_workerWrite h inx) trivial
  | otherWrite value =>
      constructor
      · intro hkept batch _ hhanded hwaiting
        exact hkept batch hhanded hwaiting
      · intro hkeeps batch hhanded hwaiting
        exact hkeeps batch (h batch hhanded hwaiting) hhanded hwaiting
  | appears batch =>
      refine iff_of_true ?_ trivial
      intro batch' hbatch' hwaiting
      exact h batch' hbatch' fun hmem => hwaiting (List.mem_cons_of_mem _ hmem)

end Keeps

/-- The batches that were handed over stay in the storage until they are on the chain, exactly
if no write leaves one of them out and no call gives up. -/
theorem handedKept_iff (codec : Codec L Value) (stored : Option Value)
    (es : List (Event L Value)) :
    Always (step codec) (HandedKept codec) (State.initial stored) es ↔
      StepsMeet (step codec) (KeepsHanded codec) (State.initial stored) es := by
  refine always_iff_stepsMeet (fun _ => True) (fun _ _ _ _ _ _ => trivial) ?_ trivial ?_
    (stepsMeet_true _ _ _)
  · intro s e _ hkept _
    exact handedKept_step hkept e
  · intro batch hbatch
    cases hbatch

def sampleCodec : Codec runtimeLimits (List (SignedProposalBatch runtimeLimits)) where
  encode batches := batches
  decode batches := some batches
  decode_encode _ := rfl

def sampleNode : Node :=
  ⟨List.Vector.replicate 33 1, [List.Vector.replicate 33 1], true, true⟩

def sampleVote (id : ℕ) : VoteResult runtimeLimits := ⟨[], ⟨id, default, 0⟩, ⟨1, id⟩⟩

def sampleRun : List (Event runtimeLimits (List (SignedProposalBatch runtimeLimits))) :=
  [.processVoteResult sampleNode (sampleVote 0), .compareAndSet 0,
    .processVoteResult sampleNode (sampleVote 1), .compareAndSet 0]

theorem first_batch_overwritten :
    ¬HandedKept sampleCodec (run (step sampleCodec) (State.initial none) sampleRun) := by
  intro h
  have hfirst := h ⟨0, default, default⟩ (by decide) (by decide)
  revert hfirst
  decide

end DkgSubstrate.SignedProposalStore
