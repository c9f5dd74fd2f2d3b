import DkgSubstrate.MetadataJails
import DkgSubstrate.SampleRuntime

/-!
The validation of unsigned calls of the metadata pallet, and how far apart the unsigned calls
are that go through.
-/

namespace DkgSubstrate.UnsignedCalls

open DkgSubstrate.Dispatch
open DkgSubstrate.Metadata
open DkgSubstrate.MetadataCalls
open DkgSubstrate.MetadataJails
open DkgSubstrate.MetadataRotation
open DkgSubstrate.MetadataStep
open DkgSubstrate.Primitives
open DkgSubstrate.Runs
open DkgSubstrate.SampleRuntime
open DkgSubstrate.Words

variable {L : Limits} {AccountId World : Type}

inductive TransactionSource where
  | inBlock
  | fromLocal
  | fromExternal
deriving DecidableEq

inductive InvalidTransaction where
  | call
  | stale
deriving DecidableEq

structure ValidTransaction where
  tag : String
  priority : ℕ
  longevity : ℕ
  provides : ℕ
  propagate : Bool
deriving DecidableEq

def isValidCall : Call L AccountId World → Bool
  | .submitPublicKey _ _ => true
  | .submitNextPublicKey _ _ => true
  | .submitMisbehaviourReports _ _ => true
  | _ => false

def validateUnsigned (unsignedPriority : ℕ) (source : TransactionSource)
    (call : Call L AccountId World) (s : State L AccountId World) :
    Except InvalidTransaction ValidTransaction :=
  match source with
  | .fromExternal => .error .call
  | _ =>
      if s.blockNumber < s.nextUnsignedAt then .error .stale
      else if isValidCall call then
        .ok { tag := "DKG", priority := unsignedPriority, longevity := 5,
              provides := s.blockNumber, propagate := true }
      else .error .call

def callOrigin : Call L AccountId World → Option (Origin AccountId)
  | .setSignatureThreshold origin _ => some origin
  | .setKeygenThreshold origin _ => some origin
  | .submitPublicKey origin _ => some origin
  | .submitNextPublicKey origin _ => some origin
  | .submitMisbehaviourReports origin _ => some origin
  | .unjail origin => some origin
  | .forceUnjailKeygen origin _ => some origin
  | .forceUnjailSigning origin _ => some origin
  | .forceChangeAuthorities origin => some origin
  | .triggerEmergencyKeygen origin => some origin
  | _ => none

def isUnsigned (call : Call L AccountId World) : Bool :=
  callOrigin call matches some .none

variable [DecidableEq AccountId] (cfg : Config L AccountId World) (unsignedPriority : ℕ)

/-- An unsigned call is validated once more in the block, before it is dispatched. -/
def execute (s : State L AccountId World) (call : Call L AccountId World) :
    State L AccountId World :=
  if isUnsigned call then
    match validateUnsigned unsignedPriority .inBlock call s with
    | .ok _ => step cfg s call
    | .error _ => s
  else step cfg s call

def unsignedBlock (s : State L AccountId World) (call : Call L AccountId World) : Option ℕ :=
  if isUnsigned call && (validateUnsigned unsignedPriority .inBlock call s).isOk &&
      (dispatch cfg s call).isOk then some s.blockNumber
  else none

def unsignedHistory : State L AccountId World → List (Call L AccountId World) → List ℕ :=
  trace (execute cfg unsignedPriority) fun s call =>
    (unsignedBlock cfg unsignedPriority s call).toList

/-- Whether a call that goes through moves the block of the next unsigned call.  Reports that
replace an offender do not. -/
def setsNextUnsigned (s : State L AccountId World) : Call L AccountId World → Bool
  | .submitPublicKey _ _ => true
  | .submitNextPublicKey _ _ => true
  | .submitMisbehaviourReports _ reports => !replaces reports s
  | _ => false

/-- An unsigned call that is due moves the block of the next one, which does not overflow. -/
def Delays (s : State L AccountId World) (call : Call L AccountId World) : Prop :=
  isUnsigned call = true → isValidCall call = true → s.nextUnsignedAt ≤ s.blockNumber →
    setsNextUnsigned s call = true ∧ s.blockNumber + cfg.unsignedInterval < 2 ^ 32

instance (s : State L AccountId World) (call : Call L AccountId World) :
    Decidable (Delays cfg s call) := by
  unfold Delays
  infer_instance

omit [DecidableEq AccountId] in
theorem validateUnsigned_isOk {s : State L AccountId World} {call : Call L AccountId World} :
    (validateUnsigned unsignedPriority .inBlock call s).isOk = true ↔
      s.nextUnsignedAt ≤ s.blockNumber ∧ isValidCall call = true := by
  simp only [validateUnsigned, ← not_lt]
  split
  · simp_all [Except.isOk, Except.toBool]
  · split <;> simp_all [Except.isOk, Except.toBool]

section Step

variable {cfg unsignedPriority} {s s' : State L AccountId World}

theorem isUnsigned_of_dispatch {call : Call L AccountId World}
    (h : dispatch cfg s call = .ok s') (hvalid : isValidCall call = true) :
    isUnsigned call = true := by
  cases call with
  | submitPublicKey origin keys =>
      rw [(submitPublicKey_ok h).1]
      rfl
  | submitNextPublicKey origin keys =>
      rw [(submitNextPublicKey_ok h).1]
      rfl
  | submitMisbehaviourReports origin reports =>
      rw [(submitMisbehaviourReports_cases h).1]
      rfl
  | _ => cases hvalid

theorem nextUnsignedAt_dispatch {call : Call L AccountId World}
    (h : dispatch cfg s call = .ok s') :
    s'.nextUnsignedAt =
      if setsNextUnsigned s call then nextUnsignedBlock cfg s else s.nextUnsignedAt := by
  have heffect := dispatch_outer h
  change (outer s').nextUnsignedAt = _
  generalize outer s' = o at heffect ⊢
  cases heffect with
  | kept hquiet => cases call <;> first | rfl | cases hquiet
  | keySubmitted hsubmits => cases call <;> first | rfl | cases hsubmits
  | @reported origin reports hkeygen hsigning =>
      simp only [afterReports, setsNextUnsigned]
      by_cases hreplaces : replaces reports s = true <;> simp [hreplaces]
  | _ => rfl

omit [DecidableEq AccountId] in
theorem isValidCall_of_setsNextUnsigned {call : Call L AccountId World}
    (h : setsNextUnsigned s call = true) : isValidCall call = true := by
  cases call <;> first | rfl | cases h

theorem mem_unsignedBlock {call : Call L AccountId World} {block : ℕ}
    (h : block ∈ unsignedBlock cfg unsignedPriority s call) :
    block = s.blockNumber ∧ isUnsigned call = true ∧ isValidCall call = true ∧
      s.nextUnsignedAt ≤ s.blockNumber ∧
      dispatch cfg s call = .ok (execute cfg unsignedPriority s call) := by
  rw [unsignedBlock] at h
  split at h
  · rename_i hok
    simp only [Bool.and_eq_true] at hok
    obtain ⟨⟨hunsigned, hvalidated⟩, hdispatched⟩ := hok
    obtain ⟨hdue, hvalid⟩ := (validateUnsigned_isOk unsignedPriority).mp hvalidated
    refine ⟨(Option.some.inj h).symm, hunsigned, hvalid, hdue, ?_⟩
    rw [execute, if_pos hunsigned]
    cases hvalidate : validateUnsigned unsignedPriority .inBlock call s with
    | error e =>
        rw [hvalidate] at hvalidated
        cases hvalidated
    | ok valid =>
        dsimp only
        rw [step]
        cases hdispatch : dispatch cfg s call with
        | ok s' => rfl
        | error fault =>
            rw [hdispatch] at hdispatched
            cases hdispatched
  · cases h

theorem nextUnsignedAt_le_step {call : Call L AccountId World}
    (hdue : isValidCall call = true → isUnsigned call = true →
      s.nextUnsignedAt ≤ s.blockNumber) (hdelays : Delays cfg s call) :
    s.nextUnsignedAt ≤ (step cfg s call).nextUnsignedAt := by
  refine commit_cases (P := fun t => s.nextUnsignedAt ≤ State.nextUnsignedAt t) le_rfl ?_
  intro s' h
  rw [nextUnsignedAt_dispatch h]
  split
  · rename_i hsets
    have hvalid := isValidCall_of_setsNextUnsigned hsets
    have hunsigned := isUnsigned_of_dispatch h hvalid
    have hblock := hdue hvalid hunsigned
    obtain ⟨-, hlt⟩ := hdelays hunsigned hvalid hblock
    rw [nextUnsignedBlock, wrappingAdd_of_lt hlt]
    omega
  · exact le_rfl

theorem nextUnsignedAt_le_execute {call : Call L AccountId World}
    (hdelays : Delays cfg s call) :
    s.nextUnsignedAt ≤ (execute cfg unsignedPriority s call).nextUnsignedAt := by
  rw [execute]
  split
  · cases hvalidate : validateUnsigned unsignedPriority .inBlock call s with
    | error e => exact le_rfl
    | ok valid =>
        have hok : (validateUnsigned unsignedPriority .inBlock call s).isOk = true := by
          rw [hvalidate]
          rfl
        obtain ⟨hdue, -⟩ := (validateUnsigned_isOk unsignedPriority).mp hok
        exact nextUnsignedAt_le_step (fun _ _ => hdue) hdelays
  · rename_i hsigned
    exact nextUnsignedAt_le_step (fun _ hunsigned => absurd hunsigned hsigned) hdelays

end Step

/-- The unsigned calls of a run that go through are at least the interval apart when each of
them moves the block of the next one. -/
theorem unsigned_calls_apart (s : State L AccountId World) (calls : List (Call L AccountId World))
    (hdelays : StepsMeet (execute cfg unsignedPriority) (Delays cfg) s calls) :
    (unsignedHistory cfg unsignedPriority s calls).Pairwise fun earlier later =>
      earlier + cfg.unsignedInterval ≤ later := by
  refine (pairwise_trace (unsignedBlock cfg unsignedPriority)
    (fun earlier later => earlier + cfg.unsignedInterval ≤ later)
    (fun t block => block + cfg.unsignedInterval ≤ t.nextUnsignedAt) ?_ ?_ ?_ hdelays).1
  · intro t call _ later hlater earlier hseen
    obtain ⟨rfl, -, -, hdue, -⟩ := mem_unsignedBlock hlater
    exact hseen.trans hdue
  · intro t call hcall earlier hseen
    exact hseen.trans (nextUnsignedAt_le_execute hcall)
  · intro t call hcall block hblock
    obtain ⟨rfl, hunsigned, hvalid, hdue, hdispatch⟩ := mem_unsignedBlock hblock
    obtain ⟨hsets, hlt⟩ := hcall hunsigned hvalid hdue
    rw [nextUnsignedAt_dispatch hdispatch, if_pos hsets, nextUnsignedBlock,
      wrappingAdd_of_lt hlt]

def delayingConfig : Config runtimeLimits ℕ Unit :=
  { sampleConfig with unsignedInterval := 3 }

theorem sampleSubmissions_apart :
    unsignedHistory delayingConfig 0 (sampleGenesis 2 1 2)
        [.initializeBlock 1, .submitPublicKey .none (sampleSubmission 7 2),
          .submitNextPublicKey .none (sampleSubmission 9 2), .initializeBlock 4,
          .submitNextPublicKey .none (sampleSubmission 9 2)] = [1, 4] ∧
      (unsignedHistory delayingConfig 0 (sampleGenesis 2 1 2)
        [.initializeBlock 1, .submitPublicKey .none (sampleSubmission 7 2),
          .submitNextPublicKey .none (sampleSubmission 9 2), .initializeBlock 4,
          .submitNextPublicKey .none (sampleSubmission 9 2)]).Pairwise
        fun earlier later => earlier + delayingConfig.unsignedInterval ≤ later := by
  exact ⟨by decide +kernel, unsigned_calls_apart _ _ _ _ (by decide +kernel)⟩

theorem sampleReports_in_one_block :
    unsignedHistory delayingConfig 0 (sampleGenesis 2 1 4)
      [.initializeBlock 1,
        .submitMisbehaviourReports .none (sampleReport .keygen 1 [2, 3] [2, 3]),
        .submitMisbehaviourReports .none (sampleReport .keygen 2 [3, 4] [3, 4])] = [1, 1] := by
  decide +kernel

end DkgSubstrate.UnsignedCalls
