import DkgSubstrate.Dispatch
import DkgSubstrate.Proposals
import DkgSubstrate.Runs
import DkgSubstrate.StorageMap

/-!
The proposal handler: unsigned proposals are staged by chain, collected into batches that
wait in a queue for their signature, and moved to the signed proposals when it arrives.
The rest of the runtime, which the handler reads and notifies, is `R`.
-/

namespace DkgSubstrate.ProposalHandler

open DkgSubstrate.Dispatch
open DkgSubstrate.Primitives
open DkgSubstrate.Proposals
open DkgSubstrate.Words

inductive DKGMisbehaviorOffenceType where
  | signedProposalNotInQueue
  | signedMalformedProposal
deriving DecidableEq

abbrev StagedProposals (L : Limits) := BoundedVec (UnsignedProposal L) L.maxProposalsPerBatch

abbrev ProposalQueue (L : Limits) :=
  StorageMap (TypedChainId × ℕ) (StoredUnsignedProposalBatch L)

/-- The storage of the pallet, the offences that it has reported and everything else. -/
structure State (L : Limits) (R : Type) where
  unsignedProposalQueue : ProposalQueue L
  nextBatchId : ℕ
  unsignedProposals : StorageMap TypedChainId (StagedProposals L)
  signedProposals : StorageMap (TypedChainId × ℕ) (SignedProposalBatch L)
  offences : List DKGMisbehaviorOffenceType
  rest : R

structure Weight where
  refTime : ℕ
  proofSize : ℕ
deriving DecidableEq

namespace Weight

def saturatingSub (a b : Weight) : Weight :=
  ⟨a.refTime - b.refTime, a.proofSize - b.proofSize⟩

def isZero (w : Weight) : Bool := w = ⟨0, 0⟩

end Weight

structure Config (L : Limits) (AccountId R : Type) where
  crypto : Crypto
  decoders : Decoders
  forceOrigin : Origin AccountId → Bool
  unsignedProposalExpiry : ℕ
  chainBytes : TypedChainId → Bytes
  dbRead : ℕ
  dbWrite : ℕ
  blockNumber : R → ℕ
  dkgKey : R → Bytes
  signedProposalHandler : Proposal L → R → Outcome (R × Except DispatchError Unit)
  reportOffence : DKGMisbehaviorOffenceType → R → R

variable {L : Limits} {AccountId R : Type} (cfg : Config L AccountId R)

def State.empty (rest : R) : State L R := ⟨∅, 0, ∅, ∅, [], rest⟩

def readsWrites (reads writes : ℕ) : Weight :=
  ⟨min (cfg.dbRead * reads + cfg.dbWrite * writes) (2 ^ 64 - 1), 0⟩

def chainOrder (chain : TypedChainId) : Bytes :=
  (cfg.crypto.blake2128 (cfg.chainBytes chain)).toList ++ cfg.chainBytes chain

def batchOrder (key : TypedChainId × ℕ) : Bytes :=
  let batchBytes := (toBeBytes 4 key.2).reverse
  chainOrder cfg key.1 ++ ((cfg.crypto.blake2128 batchBytes).toList ++ batchBytes)

def handleValidationError : ValidationError → DispatchError
  | .invalidParameter _ => .proposalHandler .proposalFormatInvalid
  | .unimplementedProposalKind => .proposalHandler .proposalFormatInvalid
  | .invalidProposalBytesLength => .proposalHandler .invalidProposalBytesLength
  | .invalidDecoding _ => .proposalHandler .proposalFormatInvalid

def decodeIdentifier (p : Proposal L) : Outcome ProposalIdentifier :=
  match decodeProposalIdentifier cfg.decoders p with
  | .ok v => .ok v
  | .error (.invalid e) => .error (.error (handleValidationError e))
  | .error .panic => .error .panic

theorem decodeIdentifier_eq_ok {cfg : Config L AccountId R} {p : Proposal L}
    {id : ProposalIdentifier} :
    decodeIdentifier cfg p = .ok id ↔ decodeProposalIdentifier cfg.decoders p = .ok id := by
  rw [decodeIdentifier]
  cases decodeProposalIdentifier cfg.decoders p with
  | ok v => simp
  | error fault => cases fault <;> simp

def generateNextBatchId (s : State L R) : Except DispatchError (ℕ × State L R) :=
  if s.nextBatchId + 1 < 2 ^ 32 then
    .ok (s.nextBatchId, { s with nextBatchId := s.nextBatchId + 1 })
  else .error (.proposalHandler .arithmeticOverflow)

def queueBatch (chain : TypedChainId) (batchId : ℕ) (proposals : StagedProposals L)
    (s : State L R) : State L R :=
  { s with
    unsignedProposalQueue := s.unsignedProposalQueue.insert (chain, batchId)
      { batchId := batchId
        proposals := proposals
        timestamp := cfg.blockNumber s.rest } }

def createBatchAndAddToStorage (proposals : StagedProposals L)
    (identifier : ProposalIdentifier) (s : State L R) :
    Except DispatchError (State L R) := do
  let (batchId, s) ← generateNextBatchId s
  .ok (queueBatch cfg identifier.typedChainId batchId proposals s)

def stage (chain : TypedChainId) (proposals : StagedProposals L) (s : State L R) :
    State L R :=
  { s with unsignedProposals := s.unsignedProposals.insert chain proposals }

/-- Adds a proposal to those that are staged for its chain.  A full list is queued as a
batch first, and stays queued when the proposal itself cannot be added. -/
def storeUnsignedProposal (prop : Proposal L) (identifier : ProposalIdentifier)
    (s : State L R) : State L R × Except DispatchError Unit :=
  let chain := identifier.typedChainId
  let newUnsignedProposal : UnsignedProposal L := ⟨chain, identifier.key, prop⟩
  let proposals := s.unsignedProposals.getD chain default
  let overflow := .error (.proposalHandler .unsignedProposalQueueOverflow)
  if proposals.length = L.maxProposalsPerBatch then
    match createBatchAndAddToStorage cfg proposals identifier s with
    | .error e => (s, .error e)
    | .ok queued =>
        match (default : StagedProposals L).tryPush newUnsignedProposal with
        | none => (queued, overflow)
        | some newProposals => (stage chain newProposals queued, .ok ())
  else
    match proposals.tryPush newUnsignedProposal with
    | none => (s, overflow)
    | some newProposals => (stage chain newProposals s, .ok ())

def handleUnsignedProposal (prop : Proposal L) (s : State L R) :
    Outcome (State L R × Except DispatchError Unit) :=
  match decodeProposalIdentifier cfg.decoders prop with
  | .ok v => .ok (storeUnsignedProposal cfg prop v s)
  | .error (.invalid e) => .ok (s, .error (handleValidationError e))
  | .error .panic => .error .panic

def forceSubmitUnsignedProposal (origin : Origin AccountId) (prop : Proposal L)
    (s : State L R) : Outcome (State L R) := do
  ensure (cfg.forceOrigin origin = true) .badOrigin
  ensure (prop.isUnsigned = true) (.proposalHandler .proposalMustBeUnsigned)
  let v ← decodeIdentifier cfg prop
  match storeUnsignedProposal cfg prop v s with
  | (s', .ok ()) => .ok s'
  | (_, .error e) => .error (.error e)

def forceRemoveUnsignedProposalBatch (origin : Origin AccountId) (chain : TypedChainId)
    (batchId : ℕ) (s : State L R) : Outcome (State L R) := do
  ensure (cfg.forceOrigin origin = true) .badOrigin
  ensure (s.unsignedProposalQueue.containsKey (chain, batchId) = true)
    (.proposalHandler .proposalBatchNotFound)
  .ok { s with unsignedProposalQueue := s.unsignedProposalQueue.erase (chain, batchId) }

def createBatches : List (TypedChainId × StagedProposals L) → Weight → State L R →
    State L R × Weight
  | [], remaining, s => (s, remaining)
  | (chain, proposals) :: staged, remaining, s =>
      let remaining := remaining.saturatingSub (readsWrites cfg 1 3)
      if remaining.isZero then (s, remaining)
      else match generateNextBatchId s with
        | .error _ => (s, remaining)
        | .ok (batchId, s) =>
            let queued := queueBatch cfg chain batchId proposals s
            createBatches staged remaining
              { queued with unsignedProposals := queued.unsignedProposals.erase chain }

def onIdleCreateProposalBatches (remaining : Weight) (s : State L R) :
    State L R × Weight :=
  let staged := s.unsignedProposals.iter (chainOrder cfg)
  createBatches cfg staged (remaining.saturatingSub (readsWrites cfg staged.length 0)) s

/-- Whether a batch is past its expiry.  A batch that starts with a refresh proposal does
not expire. -/
def expired (now : ℕ) (batch : StoredUnsignedProposalBatch L) : Outcome Bool := do
  let first ← expect batch.proposals.toList.head?
  match first.key with
  | .refreshProposal _ => .ok false
  | _ => .ok (cfg.unsignedProposalExpiry < now - batch.timestamp)

def removeExpired (now : ℕ) :
    List ((TypedChainId × ℕ) × StoredUnsignedProposalBatch L) → Weight → State L R →
      Outcome (State L R × Weight)
  | [], remaining, s => .ok (s, remaining)
  | (key, batch) :: batches, remaining, s =>
      match expired cfg now batch with
      | .error fault => .error fault
      | .ok false => removeExpired now batches remaining s
      | .ok true =>
          let remaining := remaining.saturatingSub (readsWrites cfg 0 1)
          if remaining.isZero then .ok (s, remaining)
          else removeExpired now batches remaining
            { s with unsignedProposalQueue := s.unsignedProposalQueue.erase key }

def onIdleRemoveExpiredBatches (now : ℕ) (remaining : Weight) (s : State L R) :
    Outcome (State L R × Weight) :=
  if remaining.isZero then .ok (s, remaining)
  else
    let batches := s.unsignedProposalQueue.iter (batchOrder cfg)
    removeExpired cfg now batches
      (remaining.saturatingSub (readsWrites cfg batches.length 0)) s

def onIdle (now : ℕ) (remaining : Weight) (s : State L R) :
    Outcome (State L R × Weight) :=
  if now % 2 ≠ 0 then .ok (s, remaining)
  else
    let (created, remaining) := onIdleCreateProposalBatches cfg remaining s
    onIdleRemoveExpiredBatches cfg now remaining created

def refreshBatchIds (queue : ProposalQueue L) : List ℕ :=
  (queue.iter (batchOrder cfg)).flatMap fun entry =>
    (entry.2.proposals.toList.filter fun p => p.proposal.kind = .refresh).map fun _ =>
      entry.1.2

def removeRefreshBatches (chain : TypedChainId) (proposals : List (Proposal L))
    (queue : ProposalQueue L) : ProposalQueue L :=
  proposals.foldl (fun queue p =>
    if p.kind = .refresh then
      (refreshBatchIds cfg queue).foldl (fun queue batchId => queue.erase (chain, batchId))
        queue
    else queue) queue

/-- Hands the proposals to the handler, whose errors are ignored. -/
def notifySigned : List (Proposal L) → R → Outcome R
  | [], r => .ok r
  | p :: proposals, r => do
      let (r, _) ← cfg.signedProposalHandler p r
      notifySigned proposals r

def handleSignedProposalBatch (prop : SignedProposalBatch L) (s : State L R) :
    Outcome (State L R) := do
  let first ← okOr prop.proposals.toList.head? (.proposalHandler .emptyBatch)
  let id ← decodeIdentifier cfg first
  let key := (id.typedChainId, prop.batchId)
  ensure (s.unsignedProposalQueue.containsKey key = true)
    (.proposalHandler .proposalDoesNotExists)
  ensure (validateEcdsaSignature cfg.crypto prop.data prop.signature.toList = true)
    (.proposalHandler .proposalSignatureInvalid)
  ensure (s.signedProposals.lookup key = none)
    (.proposalHandler .cannotOverwriteSignedProposal)
  let rest ← notifySigned cfg prop.proposals.toList s.rest
  .ok { s with
    signedProposals := s.signedProposals.insert key prop
    unsignedProposalQueue := removeRefreshBatches cfg id.typedChainId
      prop.proposals.toList (s.unsignedProposalQueue.erase key)
    rest := rest }

/-- Batches that are not signed by the DKG are skipped. -/
def submitBatches : List (SignedProposalBatch L) → State L R → Outcome (State L R)
  | [], s => .ok s
  | prop :: props, s =>
      match ensureSignedByDkg cfg.crypto (cfg.dkgKey s.rest) prop.signature.toList
          prop.data with
      | .error _ => submitBatches props s
      | .ok () => do
          let s ← handleSignedProposalBatch cfg prop s
          submitBatches props s

/-- The origin is not checked. -/
def submitSignedProposals (_origin : Origin AccountId) (props : List (SignedProposalBatch L))
    (s : State L R) : Outcome (State L R) := do
  ensure (props.length ≤ L.maxProposalsPerBatch)
    (.proposalHandler .proposalsLengthOverflow)
  submitBatches cfg props s

def reportOffence (offence : DKGMisbehaviorOffenceType) (s : State L R) : State L R :=
  { s with
    offences := s.offences ++ [offence]
    rest := cfg.reportOffence offence s.rest }

def haveIdentifier (common : ProposalIdentifier) : List (Proposal L) → Outcome Bool
  | [] => .ok true
  | p :: proposals => do
      let identifier ← decodeIdentifier cfg p
      if identifier ≠ common then .ok false else haveIdentifier common proposals

def existsWithData (chain : TypedChainId) (data : Bytes) (s : State L R) : Bool :=
  (s.signedProposals.entries.any fun e => e.1.1 = chain && e.2.data = data) ||
    (s.unsignedProposalQueue.entries.any fun e => e.1.1 = chain && e.2.data = data)

def submitDkgSigningOffence (origin : Origin AccountId) (signedData : SignedProposalBatch L)
    (s : State L R) : Outcome (State L R) := do
  ensure (origin matches .signed _) .badOrigin
  let first ← okOr signedData.proposals.toList.head? (.proposalHandler .invalidSignedData)
  ensure (ensureSignedByDkg cfg.crypto (cfg.dkgKey s.rest) signedData.signature.toList
    signedData.data = .ok ()) (.proposalHandler .notSignedByCurrentDKG)
  let common ← decodeIdentifier cfg first
  if ← haveIdentifier cfg common signedData.proposals.toList then
    ensure (s.signedProposals.lookup (common.typedChainId, signedData.batchId) = none)
      (.proposalHandler .proposalExistsAndIsValid)
    ensure (existsWithData common.typedChainId signedData.data s = false)
      (.proposalHandler .proposalExistsAndIsValid)
    .ok (reportOffence cfg .signedProposalNotInQueue s)
  else .ok (reportOffence cfg .signedMalformedProposal s)

/-- The calls, the hook, the entry for other pallets and whatever else the runtime
does. -/
inductive Call (L : Limits) (AccountId R : Type) where
  | submitSignedProposals (origin : Origin AccountId) (props : List (SignedProposalBatch L))
  | forceSubmitUnsignedProposal (origin : Origin AccountId) (prop : Proposal L)
  | submitDkgSigningOffence (origin : Origin AccountId) (signedData : SignedProposalBatch L)
  | forceRemoveUnsignedProposalBatch (origin : Origin AccountId) (chain : TypedChainId)
      (batchId : ℕ)
  | handleUnsignedProposal (prop : Proposal L)
  | onIdle (now : ℕ) (remaining : Weight)
  | environment (rest : R)

def dispatch (s : State L R) : Call L AccountId R → Outcome (State L R)
  | .submitSignedProposals origin props => submitSignedProposals cfg origin props s
  | .forceSubmitUnsignedProposal origin prop => forceSubmitUnsignedProposal cfg origin prop s
  | .submitDkgSigningOffence origin signedData =>
      submitDkgSigningOffence cfg origin signedData s
  | .forceRemoveUnsignedProposalBatch origin chain batchId =>
      forceRemoveUnsignedProposalBatch cfg origin chain batchId s
  | .handleUnsignedProposal prop => (handleUnsignedProposal cfg prop s).map Prod.fst
  | .onIdle now remaining => (onIdle cfg now remaining s).map Prod.fst
  | .environment rest => .ok { s with rest := rest }

def step (s : State L R) (call : Call L AccountId R) : State L R :=
  commit s (dispatch cfg s call)

def Accepted (s : State L R) (call : Call L AccountId R) : Prop :=
  (dispatch cfg s call).isOk = true

theorem step_cases (s : State L R) (call : Call L AccountId R) :
    (¬Accepted cfg s call ∧ step cfg s call = s) ∨
      (Accepted cfg s call ∧ dispatch cfg s call = .ok (step cfg s call)) := by
  rw [Accepted, step]
  cases dispatch cfg s call with
  | error fault => exact .inl ⟨Bool.false_ne_true, rfl⟩
  | ok s' => exact .inr ⟨rfl, rfl⟩

end DkgSubstrate.ProposalHandler
