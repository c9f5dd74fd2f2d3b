import DkgSubstrate.KeygenManager
import DkgSubstrate.SigningTasks

/-!
What the success of a task means.  A signing task reports a success only with a signature,
because the signing manager never drops a task that runs.  The keygen manager does, and a
dropped keygen task counts as a success.
-/

namespace DkgSubstrate.TaskResults

open DkgSubstrate.KeygenManager
open DkgSubstrate.Primitives
open DkgSubstrate.Runs
open DkgSubstrate.SigningSets
open DkgSubstrate.WorkManager (ShutdownReason)

variable {L : Limits}

/-- Both managers of a node. -/
structure Node (L : Limits) where
  keygen : KeygenManager.State L
  signing : SigningTasks.State

def Node.new : Node L := ⟨KeygenManager.State.new, SigningTasks.State.new⟩

inductive Event (L : Limits) where
  | keygen (e : KeygenManager.Event L)
  | signing (e : SigningTasks.Event L)

/-- The keygen manager writes the lock of the signing manager. -/
def step (keygenCfg : KeygenManager.Config) (signingCfg : SigningManager.Config L)
    (n : Node L) : Event L → Node L
  | .keygen e =>
      let keygen := KeygenManager.step keygenCfg n.keygen e
      { keygen := keygen
        signing := { n.signing with signing := { n.signing.signing with lock := keygen.lock } } }
  | .signing e => { n with signing := SigningTasks.step signingCfg n.signing e }

def KeygenResults (s : KeygenManager.State L) : Prop :=
  ∀ id, (s.tasks id).stage.succeeded = true →
    (s.tasks id).stored = true ∧ (s.tasks id).gossiped = true

def SigningResults (s : SigningTasks.State) : Prop :=
  ∀ id, (s.tasks id).stage = .reported true → (s.tasks id).processed = true

def Results (n : Node L) : Prop := KeygenResults n.keygen ∧ SigningResults n.signing

def EndsWithKey (s : KeygenManager.State L) (id : ℕ) : TaskEvent → Prop
  | .stop =>
      s.spawned id = true → (s.tasks id).stage = .beginning ∨ (s.tasks id).stage = .running →
        (s.work.remotes id).stop = some .dropCode →
          (s.tasks id).stored = true ∧ (s.tasks id).gossiped = true
  | .report =>
      s.spawned id = true → (s.tasks id).stage = .complete → (s.tasks id).gossiped = true
  | .begins | .produce _ | .complete | .fail | .count | .unlock => True

def KeygensEndWithKey (n : Node L) : Event L → Prop
  | .keygen (.task id e) => EndsWithKey n.keygen id e
  | .keygen (.blockFinalized _) | .keygen .advance | .keygen (.deliverMessage _)
  | .signing _ => True

def CompleteStored (s : KeygenManager.State L) : Prop :=
  ∀ id, (s.tasks id).stage = .complete → (s.tasks id).stored = true

section Keygen

variable {s : KeygenManager.State L} {cfg : KeygenManager.Config} {id : ℕ} {e : TaskEvent}
  {t t' : Task} {signal : Option ShutdownReason}

theorem stored_of_next (h : t.next signal e = some t') :
    t'.stage = .complete → t'.stored = true := by
  cases e with
  | complete =>
      rw [Task.next, Option.ite_none_right_eq_some] at h
      obtain ⟨⟨-, hstored⟩, h⟩ := h
      cases h
      exact fun _ => hstored
  | produce gossips =>
      rw [Task.next, Option.ite_none_right_eq_some] at h
      obtain ⟨-, h⟩ := h
      cases h
      exact fun _ => rfl
  | begins | fail | report | count =>
      rw [Task.next, Option.ite_none_right_eq_some] at h
      obtain ⟨-, h⟩ := h
      cases h
      intro hstage
      cases hstage
  | stop =>
      rw [Task.next, Option.ite_none_right_eq_some, Option.map_eq_some_iff] at h
      obtain ⟨-, reason, -, rfl⟩ := h
      intro hstage
      cases hstage
  | unlock =>
      rw [Task.next] at h
      split at h <;> cases h <;> intro hstage <;> cases hstage

theorem completeStored_step (h : CompleteStored s) (e : KeygenManager.Event L) :
    CompleteStored (KeygenManager.step cfg s e) :=
  invariant_tasks (P := fun t => t.stage = .complete → t.stored = true)
    (fun _ _ _ _ _ hnext => stored_of_next hnext) (fun _ hstage => by cases hstage) cfg e h

theorem succeeded_of_next (h : t.next signal e = some t') (hstop : e ≠ .stop)
    (hreport : e ≠ .report) (hsucceeded : t'.stage.succeeded = true) :
    t.stage.succeeded = true ∧ t'.stored = t.stored ∧ t'.gossiped = t.gossiped := by
  cases e with
  | stop => exact absurd rfl hstop
  | report => exact absurd rfl hreport
  | begins | complete | fail =>
      rw [Task.next, Option.ite_none_right_eq_some] at h
      obtain ⟨-, h⟩ := h
      cases h
      cases hsucceeded
  | produce gossips =>
      rw [Task.next, Option.ite_none_right_eq_some] at h
      obtain ⟨⟨hstage, -⟩, h⟩ := h
      cases h
      rw [hstage] at hsucceeded
      cases hsucceeded
  | count =>
      rw [Task.next, Option.ite_none_right_eq_some] at h
      obtain ⟨hstage, h⟩ := h
      cases h
      rw [hstage]
      exact ⟨rfl, rfl, rfl⟩
  | unlock =>
      rw [Task.next] at h
      split at h <;> cases h
      · rename_i hstage
        rw [hstage]
        exact ⟨rfl, rfl, rfl⟩
      · cases hsucceeded

theorem keygenResults_update_iff (h : KeygenResults s) (work : WorkManager.State) (t : Task) :
    KeygenResults ({ s with work := work, tasks := Function.update s.tasks id t }.record t) ↔
      (t.stage.succeeded = true → t.stored = true ∧ t.gossiped = true) := by
  rw [KeygenResults, tasks_record]
  refine (Function.forall_update_iff s.tasks fun _ t =>
    t.stage.succeeded = true → t.stored = true ∧ t.gossiped = true).trans ?_
  exact and_iff_left fun id' _ => h id'

theorem keygenResults_taskStep_iff (hstored : CompleteStored s) (h : KeygenResults s) :
    KeygenResults (s.taskStep id e) ↔ EndsWithKey s id e := by
  rw [State.taskStep]
  by_cases hspawned : s.spawned id = true
  · rw [if_pos hspawned]
    cases hnext : (s.tasks id).next (s.work.remotes id).stop e with
    | none =>
        refine iff_of_true h ?_
        cases e with
        | stop =>
            intro _ hstage hdrop
            rw [Task.next, if_pos hstage, hdrop] at hnext
            cases hnext
        | report =>
            intro _ hstage
            rw [Task.next, if_pos hstage] at hnext
            cases hnext
        | begins | produce | complete | fail | count | unlock => trivial
    | some t =>
        dsimp only
        rw [keygenResults_update_iff h]
        cases e with
        | stop =>
            rw [Task.next, Option.ite_none_right_eq_some, Option.map_eq_some_iff] at hnext
            obtain ⟨hstage, reason, hreason, rfl⟩ := hnext
            simp [EndsWithKey, hspawned, hstage, hreason, Stage.succeeded]
        | report =>
            rw [Task.next, Option.ite_none_right_eq_some] at hnext
            obtain ⟨hstage, hnext⟩ := hnext
            cases hnext
            simp [EndsWithKey, hspawned, hstage, hstored id hstage, Stage.succeeded]
        | begins | produce | complete | fail | count | unlock =>
            refine iff_of_true (fun hsucceeded => ?_) trivial
            obtain ⟨hold, hst, hgo⟩ := succeeded_of_next hnext (by simp) (by simp) hsucceeded
            rw [hst, hgo]
            exact h id hold
  · rw [if_neg hspawned]
    refine iff_of_true h ?_
    cases e with
    | stop | report => exact fun htrue => absurd htrue hspawned
    | begins | produce | complete | fail | count | unlock => trivial

theorem keygenResults_of_push {s' : KeygenManager.State L} {start : Start} (h : KeygenResults s)
    (htasks : s'.tasks = Function.update s.tasks id ⟨start, false, false, .beginning⟩) :
    KeygenResults s' := by
  rw [KeygenResults, htasks]
  refine (Function.forall_update_iff s.tasks fun _ t =>
    t.stage.succeeded = true → t.stored = true ∧ t.gossiped = true).mpr ⟨?_, fun id' _ => h id'⟩
  intro hsucceeded
  cases hsucceeded

theorem keygenResults_step_iff (hstored : CompleteStored s) (h : KeygenResults s)
    (signing : SigningTasks.State) (e : KeygenManager.Event L) :
    KeygenResults (KeygenManager.step cfg s e) ↔
      KeygensEndWithKey ⟨s, signing⟩ (.keygen e) := by
  cases e with
  | task id event => exact keygenResults_taskStep_iff hstored h
  | blockFinalized header | advance | deliverMessage message =>
      refine iff_of_true ?_ trivial
      rcases tasks_step cfg s _ with hsame | ⟨id, event, t, heq, -⟩ | ⟨start, -, -, htasks⟩
      · intro id
        rw [hsame]
        exact h id
      · cases heq
      · exact keygenResults_of_push h htasks

end Keygen

section Node

variable {keygenCfg : KeygenManager.Config} {signingCfg : SigningManager.Config L} {n : Node L}
  {e : Event L}

def Sound (n : Node L) : Prop := CompleteStored n.keygen ∧ SigningTasks.Backed n.signing

theorem sound_step (h : Sound n) : Sound (step keygenCfg signingCfg n e) := by
  cases e with
  | keygen e =>
      refine ⟨completeStored_step h.1 e, ?_⟩
      exact ⟨h.2.signals, h.2.apart, h.2.waiting, h.2.results⟩
  | signing e => exact ⟨h.1, SigningTasks.backed_step signingCfg h.2 e⟩

theorem signingResults_of_backed {s : SigningTasks.State} (h : SigningTasks.Backed s) :
    SigningResults s := by
  intro id hreported
  refine h.results id ?_
  rw [hreported]
  rfl

theorem results_step_iff (hsound : Sound n) (h : Results n) :
    Results (step keygenCfg signingCfg n e) ↔ KeygensEndWithKey n e := by
  have hsigning : SigningResults (step keygenCfg signingCfg n e).signing :=
    signingResults_of_backed (sound_step hsound).2
  rw [Results, and_iff_left hsigning]
  cases e with
  | keygen e => exact keygenResults_step_iff hsound.1 h.1 n.signing e
  | signing e => exact iff_of_true h.1 trivial

end Node

/-- In a run of a node every reported success has a result, exactly if no keygen task that runs
is dropped before its key is stored and gossiped, and no key fails to be gossiped. -/
theorem results_run_iff (keygenCfg : KeygenManager.Config)
    (signingCfg : SigningManager.Config L) (events : List (Event L)) :
    Always (step keygenCfg signingCfg) Results Node.new events ↔
      StepsMeet (step keygenCfg signingCfg) KeygensEndWithKey Node.new events := by
  have hlegal := stepsMeet_true (step keygenCfg signingCfg) Node.new events
  refine always_iff_stepsMeet Sound (fun _ _ h _ _ _ => sound_step h)
    (fun _ _ hsound h _ => results_step_iff hsound h) ?_ ?_ hlegal
  · exact ⟨fun id hstage => (by cases hstage), SigningTasks.backed_new⟩
  · exact ⟨fun id hsucceeded => (by cases hsucceeded), fun id hreported => by cases hreported⟩

def sampleDrop : List (KeygenManager.Event runtimeLimits) :=
  handled (sampleHeader 100 1 true false) ++ [.task 0 .begins] ++
    handled (sampleHeader 101 1 true true) ++ [.task 0 .stop, .task 0 .count]

def sampleDropped : Node runtimeLimits :=
  run (step sampleNode sampleSigning) Node.new (sampleDrop.map Event.keygen)

theorem dropped_keygen_counts :
    sampleDropped.keygen.keygenState = .keygenCompleted 2 ∧
      sampleDropped.keygen.finishedCount = 1 ∧ ¬Results sampleDropped := by
  refine ⟨by decide +kernel, by decide +kernel, fun h => ?_⟩
  have hstored := (h.1 0 (by decide +kernel)).1
  revert hstored
  decide +kernel

end DkgSubstrate.TaskResults
