import DkgSubstrate.ReportReplay

/-!
The offchain worker of the metadata pallet.  A node stores keys that it has aggregated in its
local storage, together with the block from which on they may be submitted, and the worker hands
them to the transaction pool.
-/

namespace DkgSubstrate.OffchainWorker

open DkgSubstrate.Metadata
open DkgSubstrate.Primitives
open DkgSubstrate.ReportReplay
open DkgSubstrate.SampleRuntime
open DkgSubstrate.Words

variable {L : Limits} {AccountId World : Type}

inductive Entry (α : Type) where
  | absent
  | undecodable
  | value (a : α)
deriving DecidableEq

abbrev AggregatedPublicKeys := List (Bytes × Bytes)

structure KeyStorage where
  aggregatedKeys : Entry AggregatedPublicKeys
  submitAt : Entry ℕ
deriving DecidableEq

structure LocalStorage (L : Limits) where
  genesisKeys : KeyStorage
  nextKeys : KeyStorage
  misbehaviourReports : Entry (AggregatedMisbehaviourReports L)

structure Submission (σ α : Type) where
  storage : σ
  attempted : Option α
  result : Except String Unit

def submitKeysOnchain (keyOnChain : Bool) (failure : String) (nextUnsignedAt blockNumber : ℕ)
    (poolAccepts : Bool) (storage : KeyStorage) : Submission KeyStorage AggregatedPublicKeys :=
  if blockNumber < nextUnsignedAt then
    ⟨storage, none, .error "Too early to send unsigned transaction"⟩
  else match storage.aggregatedKeys with
    | .absent => ⟨storage, none, .ok ()⟩
    | aggregatedKeys =>
        match storage.submitAt with
        | .value submitAt =>
            if blockNumber < submitAt then ⟨storage, none, .ok ()⟩
            -- The block is cleared before it is known whether the keys can be submitted.
            else if keyOnChain then ⟨⟨.absent, .absent⟩, none, .ok ()⟩
            else match aggregatedKeys with
              | .value keys =>
                  if poolAccepts then ⟨⟨.absent, .absent⟩, some keys, .ok ()⟩
                  else ⟨⟨aggregatedKeys, .absent⟩, some keys, .error failure⟩
              | _ => ⟨⟨aggregatedKeys, .absent⟩, none, .ok ()⟩
        | _ => ⟨storage, none, .error "Already submitted a key in this session"⟩

def submitGenesisPublicKeyOnchain (chain : State L AccountId World) :
    ℕ → Bool → KeyStorage → Submission KeyStorage AggregatedPublicKeys :=
  submitKeysOnchain (chain.dkgKey ≠ []) "Failed to submit the public key, will retry later"
    chain.nextUnsignedAt

def submitNextPublicKeyOnchain (chain : State L AccountId World) :
    ℕ → Bool → KeyStorage → Submission KeyStorage AggregatedPublicKeys :=
  submitKeysOnchain chain.nextDkgPublicKey.isSome
    "Failed to submit the next public key, will retry later" chain.nextUnsignedAt

/-- The map of the reports on the chain is never written, so no report is known there. -/
def submitMisbehaviourReportsOnchain (chain : State L AccountId World)
    (reported : StorageMap ReportKey (AggregatedMisbehaviourReports L)) (canSign : Bool)
    (blockNumber : ℕ) (poolAccepts : Bool)
    (storage : Entry (AggregatedMisbehaviourReports L)) :
    Submission (Entry (AggregatedMisbehaviourReports L)) (AggregatedMisbehaviourReports L) :=
  if blockNumber < chain.nextUnsignedAt then
    ⟨storage, none, .error "Too early to send unsigned transaction"⟩
  else if !canSign then
    ⟨storage, none, .error
      "No local accounts available. Consider adding one via `author_insertKey` RPC."⟩
  else match storage with
    | .value reports =>
        if reported.containsKey (reportKey reports) then ⟨.absent, none, .ok ()⟩
        else if poolAccepts then ⟨.absent, some reports, .ok ()⟩
        else ⟨storage, some reports,
          .error "Failed to submit the misbehaviour reports, will retry later"⟩
    | _ => ⟨storage, none, .ok ()⟩

/-- What a run of the worker finds: the state at its block, the local accounts and the answers
of the pool. -/
structure WorkerRun (L : Limits) (AccountId World : Type) where
  blockNumber : ℕ
  chain : State L AccountId World
  reported : StorageMap ReportKey (AggregatedMisbehaviourReports L)
  canSign : Bool
  acceptsGenesisKey : Bool
  acceptsNextKey : Bool
  acceptsReports : Bool

structure WorkerResult (L : Limits) where
  genesisKey : Submission KeyStorage AggregatedPublicKeys
  nextKey : Submission KeyStorage AggregatedPublicKeys
  reports : Submission (Entry (AggregatedMisbehaviourReports L)) (AggregatedMisbehaviourReports L)

/-- The three submissions, whose results are only logged. -/
def offchainWorker (run : WorkerRun L AccountId World) (storage : LocalStorage L) :
    WorkerResult L where
  genesisKey := submitGenesisPublicKeyOnchain run.chain run.blockNumber run.acceptsGenesisKey
    storage.genesisKeys
  nextKey := submitNextPublicKeyOnchain run.chain run.blockNumber run.acceptsNextKey
    storage.nextKeys
  reports := submitMisbehaviourReportsOnchain run.chain run.reported run.canSign run.blockNumber
    run.acceptsReports storage.misbehaviourReports

def WorkerResult.storage (result : WorkerResult L) : LocalStorage L :=
  ⟨result.genesisKey.storage, result.nextKey.storage, result.reports.storage⟩

def performStoringOfAggregatedPublicKeys (keys : AggregatedPublicKeys) (submitAt : Option ℕ)
    (storage : KeyStorage) : KeyStorage where
  aggregatedKeys := .value keys
  submitAt := match submitAt with
    | some block => .value block
    | none => storage.submitAt

inductive Round where
  | genesis
  | next
deriving DecidableEq

def WorkerResult.keys (round : Round) (result : WorkerResult L) :
    Submission KeyStorage AggregatedPublicKeys :=
  match round with
  | .genesis => result.genesisKey
  | .next => result.nextKey

def LocalStorage.keys (round : Round) (storage : LocalStorage L) : KeyStorage :=
  match round with
  | .genesis => storage.genesisKeys
  | .next => storage.nextKeys

variable (runs : ℕ → WorkerRun L AccountId World) (storage : LocalStorage L)

def storageAt : ℕ → LocalStorage L
  | 0 => storage
  | i + 1 => (offchainWorker (runs i) (storageAt i)).storage

def submissionAt (round : Round) (i : ℕ) : Submission KeyStorage AggregatedPublicKeys :=
  (offchainWorker (runs i) (storageAt runs storage i)).keys round

def Attempts (round : Round) (i : ℕ) : Prop :=
  (submissionAt runs storage round i).attempted.isSome = true

def AttemptFails (round : Round) (i : ℕ) : Prop :=
  Attempts runs storage round i ∧ (submissionAt runs storage round i).result.isOk = false

instance (round : Round) (i : ℕ) : Decidable (AttemptFails runs storage round i) := by
  unfold AttemptFails Attempts
  infer_instance

def Retries (round : Round) : Prop :=
  ∀ i, AttemptFails runs storage round i →
    ∃ j, i < j ∧ (runs j).chain.nextUnsignedAt ≤ (runs j).blockNumber ∧
      Attempts runs storage round j

section Submission

variable {keyOnChain poolAccepts : Bool} {failure : String} {nextUnsignedAt blockNumber : ℕ}
variable {keys : KeyStorage}

theorem submitKeysOnchain_absent (h : keys.submitAt = .absent) :
    let submission := submitKeysOnchain keyOnChain failure nextUnsignedAt blockNumber
      poolAccepts keys
    submission.storage.submitAt = .absent ∧ submission.attempted = none := by
  dsimp only
  rw [submitKeysOnchain]
  split
  · exact ⟨h, rfl⟩
  · rw [h]
    split
    · exact ⟨h, rfl⟩
    · exact ⟨h, rfl⟩

theorem submitKeysOnchain_attempted {attempted : AggregatedPublicKeys}
    (h : (submitKeysOnchain keyOnChain failure nextUnsignedAt blockNumber poolAccepts
      keys).attempted = some attempted) :
    (submitKeysOnchain keyOnChain failure nextUnsignedAt blockNumber poolAccepts
      keys).storage.submitAt = .absent := by
  rw [submitKeysOnchain] at h ⊢
  grind

end Submission

theorem submitAt_of_attempts {round : Round} {i : ℕ} (h : Attempts runs storage round i) :
    ((storageAt runs storage (i + 1)).keys round).submitAt = .absent := by
  obtain ⟨attempted, hattempted⟩ := Option.isSome_iff_exists.mp h
  cases round with
  | genesis => exact submitKeysOnchain_attempted hattempted
  | next => exact submitKeysOnchain_attempted hattempted

theorem submitAt_succ {round : Round} {i : ℕ}
    (h : ((storageAt runs storage i).keys round).submitAt = .absent) :
    ((storageAt runs storage (i + 1)).keys round).submitAt = .absent ∧
      ¬Attempts runs storage round i := by
  have hsubmission : (submissionAt runs storage round i).storage.submitAt = .absent ∧
      (submissionAt runs storage round i).attempted = none := by
    cases round with
    | genesis => exact submitKeysOnchain_absent h
    | next => exact submitKeysOnchain_absent h
  refine ⟨?_, ?_⟩
  · cases round with
    | genesis => exact hsubmission.1
    | next => exact hsubmission.1
  · intro hattempts
    rw [Attempts, hsubmission.2] at hattempts
    cases hattempts

theorem submitAt_of_le {round : Round} {i j : ℕ} (hle : i ≤ j)
    (h : ((storageAt runs storage i).keys round).submitAt = .absent) :
    ((storageAt runs storage j).keys round).submitAt = .absent := by
  induction hle with
  | refl => exact h
  | step _ ih => exact (submitAt_succ runs storage ih).1

theorem not_attempts_after {round : Round} {i j : ℕ} (hlt : i < j)
    (h : Attempts runs storage round i) : ¬Attempts runs storage round j :=
  (submitAt_succ runs storage
    (submitAt_of_le runs storage hlt (submitAt_of_attempts runs storage h))).2

theorem not_retries {round : Round} {i : ℕ} (hfails : AttemptFails runs storage round i) :
    ¬Retries runs storage round := by
  intro hretries
  obtain ⟨j, hlt, -, hattempts⟩ := hretries i hfails
  exact not_attempts_after runs storage hlt hfails.1 hattempts

/-- Submissions are retried only as long as none fails. -/
theorem retries_iff (round : Round) :
    Retries runs storage round ↔ ∀ i, ¬AttemptFails runs storage round i := by
  constructor
  · intro hretries i hfails
    exact not_retries runs storage hfails hretries
  · intro h i hfails
    exact absurd hfails (h i)

def sampleRuns (i : ℕ) : WorkerRun runtimeLimits ℕ Unit where
  blockNumber := i + 1
  chain := sampleGenesis 2 1 2
  reported := ∅
  canSign := true
  acceptsGenesisKey := false
  acceptsNextKey := false
  acceptsReports := false

def sampleStorage : LocalStorage runtimeLimits where
  genesisKeys := performStoringOfAggregatedPublicKeys (sampleSubmission 7 2) (some 1)
    ⟨.absent, .absent⟩
  nextKeys := performStoringOfAggregatedPublicKeys (sampleSubmission 9 2) (some 1)
    ⟨.absent, .absent⟩
  misbehaviourReports := .absent

theorem sampleRuns_not_retried :
    (sampleGenesis 2 1 2).dkgKey = [] ∧ (sampleGenesis 2 1 2).nextDkgPublicKey = none ∧
      AttemptFails sampleRuns sampleStorage .genesis 0 ∧
      AttemptFails sampleRuns sampleStorage .next 0 ∧
      ¬Retries sampleRuns sampleStorage .genesis ∧ ¬Retries sampleRuns sampleStorage .next := by
  have hgenesis : AttemptFails sampleRuns sampleStorage .genesis 0 := by decide +kernel
  have hnext : AttemptFails sampleRuns sampleStorage .next 0 := by decide +kernel
  exact ⟨by decide +kernel, by decide +kernel, hgenesis, hnext, not_retries _ _ hgenesis,
    not_retries _ _ hnext⟩

end DkgSubstrate.OffchainWorker
