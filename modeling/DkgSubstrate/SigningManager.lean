import DkgSubstrate.Combinations
import DkgSubstrate.Proposals
import DkgSubstrate.StorageMap
import Mathlib.Data.List.Sort

/-!
The signing manager of a node.  For every queued batch it goes through signing sets, one
after the other, until the batch is signed.  What a call reads from the chain and what the
work manager and the signing protocol answer is given with the finalized block.
-/

namespace DkgSubstrate.SigningManager

open DkgSubstrate.Primitives
open DkgSubstrate.Proposals
open DkgSubstrate.Words

structure Sampler where
  chooseMultiple : FixedBytes 32 → List (List ℕ) → ℕ → List (List ℕ)
  chooseMultiple_perm : ∀ seed items amount, items.length ≤ amount →
    (chooseMultiple seed items amount).Perm items

structure Config (L : Limits) where
  crypto : Crypto
  sampler : Sampler
  authorityPublicKey : Public
  encode : StoredUnsignedProposalBatch L → Bytes

structure ProposedSigningSet where
  ssid : ℕ
  locallyStartedAt : Option ℕ
  signingSet : List ℕ
deriving DecidableEq

structure SigningSetHistoryTracker where
  ssidsAttempted : List ℕ
  sets : List ProposedSigningSet
deriving DecidableEq, Inhabited

structure SigningTask where
  hash : FixedBytes 32
  ssid : ℕ
  forceStart : Bool
deriving DecidableEq

/-- The history of the signing sets, and the tasks that are under way. -/
structure State where
  lock : Bool
  ssidHistory : StorageMap (FixedBytes 32) SigningSetHistoryTracker
  tasks : List SigningTask

def State.initial : State := ⟨false, ∅, []⟩

/-- The entry of a hash, which is made up if there is none. -/
def State.tracker (s : State) (hash : FixedBytes 32) : SigningSetHistoryTracker :=
  s.ssidHistory.getD hash default

structure Finalized (L : Limits) where
  number : ℕ
  dkgPubKey : Bytes
  bestAuthorities : List (ℕ × Public)
  threshold : ℕ
  unsignedProposals : Option (List (StoredUnsignedProposalBatch L))
  jobExists : FixedBytes 32 → Bool
  canSubmitMoreTasks : ℕ → Bool
  initialized : ℕ → Bool
  pushed : ℕ → Bool

inductive CallResult where
  | ok
  | error
  | panic
deriving DecidableEq

inductive Turn where
  | next
  | finish (result : CallResult)
deriving DecidableEq

def signTimeout : ℕ := 10

def maxSigningSets : ℕ := 256

variable {L : Limits} (cfg : Config L)

def partyNumber (index : ℕ) : ℕ := wrappingAdd 16 (truncate 16 index) 1

def generateSigningSets (dkgPubKey unsignedProposalBytes : Bytes)
    (bestAuthorities : List (ℕ × Public)) (threshold : ℕ) : List ProposedSigningSet :=
  let seed := cfg.crypto.keccak256 (dkgPubKey ++ unsignedProposalBytes)
  let parties := bestAuthorities.zipIdx.map fun r => partyNumber r.2
  -- The generator chooses from the sets that are left, which are no more than it may take.
  let signingSets := cfg.sampler.chooseMultiple seed
    ((combinations (threshold + 1) parties).take maxSigningSets) maxSigningSets
  signingSets.zipIdx.map fun r =>
    { ssid := truncate 16 r.2, locallyStartedAt := none, signingSet := r.1 }

namespace SigningSetHistoryTracker

def latestAttempt (tracker : SigningSetHistoryTracker) : Option ℕ :=
  (tracker.sets.filterMap fun r => r.locallyStartedAt).max?

def isWaiting (now : ℕ) (tracker : SigningSetHistoryTracker) : Bool :=
  match tracker.latestAttempt with
  | some initTime => decide (now < initTime + signTimeout)
  | none => false

def nextSsid (tracker : SigningSetHistoryTracker) : ℕ :=
  match tracker.ssidsAttempted.max? with
  | some r => wrappingAdd 16 r 1
  | none => 0

/-- Takes the next signing set, if there is one, and marks it as started.  The sets are
generated for the first attempt only. -/
def advance (now : ℕ) (generated : List ProposedSigningSet)
    (tracker : SigningSetHistoryTracker) :
    SigningSetHistoryTracker × Option (ℕ × List ℕ) :=
  let nextSsid := tracker.nextSsid
  let sets := if nextSsid = 0 then generated else tracker.sets
  let restart := sets.length ≤ nextSsid
  let ssidsAttempted := if restart then [] else tracker.ssidsAttempted
  let nextSsid := if restart then 0 else nextSsid
  let ssidsAttempted := ssidsAttempted.insert nextSsid
  match sets[nextSsid]? with
  | none => (⟨ssidsAttempted, sets⟩, none)
  | some signingSet =>
      let started := { signingSet with locallyStartedAt := some now }
      (⟨ssidsAttempted, sets.set nextSsid started⟩, some (nextSsid, signingSet.signingSet))

end SigningSetHistoryTracker

def batchHash (batch : StoredUnsignedProposalBatch L) : FixedBytes 32 :=
  cfg.crypto.keccak256 batch.data

def keygenPartyId (value : ℕ) : Option ℕ := if value = 0 then none else some value

def getPartyIndex (block : Finalized L) : Option ℕ :=
  (block.bestAuthorities.find? fun elt => elt.2 = cfg.authorityPublicKey).map Prod.fst

def keygenParties (block : Finalized L) : List (ℕ × Public) :=
  block.bestAuthorities.filterMap fun elt => (keygenPartyId elt.1).map fun i => (i, elt.2)

def visit (block : Finalized L) (batch : StoredUnsignedProposalBatch L)
    (tracker : SigningSetHistoryTracker) :
    SigningSetHistoryTracker × Option (ℕ × List ℕ) :=
  if tracker.isWaiting block.number then (tracker, none)
  else tracker.advance block.number (generateSigningSets cfg block.dkgPubKey
    (cfg.encode batch) (keygenParties block) block.threshold)

def signBatch (block : Finalized L) (partyI : ℕ)
    (fullUnsignedProposals : List (StoredUnsignedProposalBatch L)) (turn : ℕ)
    (batch : StoredUnsignedProposalBatch L) (s : State) : State × Turn :=
  match batch.proposals.toList.head? with
  | none => (s, .finish .panic)
  | some first =>
      let hash := batchHash cfg batch
      if block.canSubmitMoreTasks turn = false then (s, .finish .ok)
      else if (fullUnsignedProposals.any fun p => batchHash cfg p = hash) = false then
        ({ s with ssidHistory := s.ssidHistory.erase hash }, .next)
      else
        let visited := visit cfg block batch (s.tracker hash)
        let s := { s with ssidHistory := s.ssidHistory.insert hash visited.1 }
        match visited.2 with
        | none => (s, .next)
        | some (ssid, signingSet) =>
            -- A set without this party is left to the others.
            if partyI ∉ signingSet then (s, .next)
            else if block.initialized turn = false then (s, .finish .error)
            else
              let task := ⟨hash, ssid, decide (first.typedChainId = .none)⟩
              let s := { s with tasks := task :: s.tasks }
              if block.pushed turn then (s, .next) else (s, .finish .error)

def signBatches (block : Finalized L) (partyI : ℕ)
    (fullUnsignedProposals : List (StoredUnsignedProposalBatch L)) :
    ℕ → List (StoredUnsignedProposalBatch L) → State → State × CallResult
  | _, [], s => (s, .ok)
  | turn, batch :: batches, s =>
      match signBatch cfg block partyI fullUnsignedProposals turn batch s with
      | (s, .next) => signBatches block partyI fullUnsignedProposals (turn + 1) batches s
      | (s, .finish result) => (s, result)

def sortedProposals (batches : List (StoredUnsignedProposalBatch L)) :
    List (StoredUnsignedProposalBatch L) :=
  batches.insertionSort fun a b => a.timestamp ≤ b.timestamp

def waitingProposals (block : Finalized L)
    (batches : List (StoredUnsignedProposalBatch L)) :
    List (StoredUnsignedProposalBatch L) :=
  (sortedProposals batches).filter fun p => !block.jobExists (batchHash cfg p)

def onBlockFinalized (block : Finalized L) (s : State) : State × CallResult :=
  if s.lock then (s, .ok)
  else match getPartyIndex cfg block with
  | none => (s, .ok)
  | some index =>
      match keygenPartyId index, block.unsignedProposals with
      | none, _ => (s, .error)
      | some _, none => (s, .error)
      | some partyI, some batches =>
          signBatches cfg block partyI (sortedProposals batches) 0
            (waitingProposals cfg block batches) s

inductive SigningResult where
  | success (unsignedProposalHash : FixedBytes 32)
  | failure (unsignedProposalHash : FixedBytes 32) (ssid : ℕ)

def updateLocalSigningSetState (update : SigningResult) (s : State) : State :=
  match update with
  | .success hash => { s with ssidHistory := s.ssidHistory.erase hash }
  | .failure hash ssid =>
      let tracker := s.tracker hash
      { s with
        ssidHistory := s.ssidHistory.insert hash
          { tracker with ssidsAttempted := tracker.ssidsAttempted.insert ssid } }

/-- The result that a task reports when it comes to its end. -/
def SigningTask.result (task : SigningTask) (succeeded : Bool) : SigningResult :=
  if succeeded then .success task.hash else .failure task.hash task.ssid

inductive Event (L : Limits) where
  | blockFinalized (block : Finalized L)
  | taskFinished (task : SigningTask) (succeeded : Bool)
  | keygenLock
  | keygenUnlock

def step (s : State) : Event L → State
  | .blockFinalized block => (onBlockFinalized cfg block s).1
  | .taskFinished task succeeded =>
      if task ∈ s.tasks then
        updateLocalSigningSetState (task.result succeeded)
          { s with tasks := s.tasks.erase task }
      else s
  | .keygenLock => { s with lock := true }
  | .keygenUnlock => { s with lock := false }

end DkgSubstrate.SigningManager
