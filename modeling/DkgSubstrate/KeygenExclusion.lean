import DkgSubstrate.KeygenManager

/-!
Keygen excludes signing.  The lock of the signing manager is one flag for all keygen tasks, and
every task that ends clears it, also a task that has been superseded.
-/

namespace DkgSubstrate.KeygenExclusion

open DkgSubstrate.JobLiveness
open DkgSubstrate.KeygenManager
open DkgSubstrate.Primitives
open DkgSubstrate.Runs

variable {L : Limits}

def latestTask (s : State L) : Option ℕ :=
  ((List.range s.work.nextId).filter s.spawned).getLast?

def SigningSkips (L : Limits) (lock : Bool) : Prop :=
  ∀ (cfg : SigningManager.Config L) (block : SigningManager.Finalized L)
    (signing : SigningManager.State), signing.lock = lock →
      SigningManager.onBlockFinalized cfg block signing = (signing, .ok)

/-- While the latest task has neither completed nor failed, signing is locked, and the manager
knows that a keygen runs unless it is just being started. -/
def Excludes (s : State L) : Prop :=
  ∀ id ∈ latestTask s, (s.tasks id).stage.isOpen = true →
    s.lock = true ∧ SigningSkips L s.lock ∧
      (s.handler.startsTask = false → s.keygenState.isRunning = true)

def Settled (s : State L) (id : ℕ) : Prop :=
  (s.tasks id).stage.isUnlocked = true ∨ Dormant id s.work

instance (s : State L) (id : ℕ) : Decidable (Settled s id) :=
  have : Decidable (Dormant id s.work) := decidable_of_iff
    (id < s.work.nextId ∧ (s.work.remotes id).startTx = true ∧
      ∀ job ∈ s.work.enqueuedTasks, id ≠ job.id)
    ⟨fun h => ⟨h.1, h.2.1, h.2.2⟩, fun h => ⟨h.pushed, h.unstarted, h.dropped⟩⟩
  inferInstanceAs (Decidable (_ ∨ _))

/-- The lock is taken when all earlier tasks are settled. -/
def LocksAlone (s : State L) : Event L → Prop
  | .advance =>
      match s.handler with
      | .locking _ => ∀ id < s.work.nextId, Settled s id
      | _ => True
  | .blockFinalized _ | .task .. | .deliverMessage _ => True

instance (s : State L) : (e : Event L) → Decidable (LocksAlone s e)
  | .advance =>
      match h : s.handler with
      | .locking _ => decidable_of_iff (∀ id < s.work.nextId, Settled s id)
          (by rw [LocksAlone, h])
      | .idle | .polling _ | .reading _ | .loading .. | .checking .. | .shutting _
      | .pushing _ | .starting _ | .recording _ => isTrue (by rw [LocksAlone, h]; trivial)
  | .blockFinalized _ | .task .. | .deliverMessage _ => isTrue trivial

variable {cfg : Config} {s : State L} {e : Event L} {id : ℕ}

theorem signingSkips_true : SigningSkips L true := by
  intro cfg block signing hlock
  rw [SigningManager.onBlockFinalized, hlock, if_pos rfl]

theorem spawned_of_mem_latestTask (h : id ∈ latestTask s) : s.spawned id = true :=
  (List.mem_filter.mp (List.mem_of_getLast? h)).2

theorem not_dormant_of_spawned (hspawned : s.spawned id = true) : ¬Dormant id s.work := by
  intro hdormant
  have hstarted := (spawned_iff.mp hspawned).2
  rw [hdormant.unstarted] at hstarted
  cases hstarted

theorem not_settled_of_isOpen (hspawned : s.spawned id = true)
    (hopen : (s.tasks id).stage.isOpen = true) : ¬Settled s id := by
  rintro (hunlocked | hdormant)
  · cases hstage : (s.tasks id).stage with
    | beginning | running | complete =>
        rw [hstage] at hunlocked
        cases hunlocked
    | reported | counted | unlocked =>
        rw [hstage] at hopen
        cases hopen
  · exact not_dormant_of_spawned hspawned hdormant

theorem settled_step (h : Settled s id) (hid : id < s.work.nextId) :
    Settled (step cfg s e) id := by
  rcases h with hunlocked | hdormant
  · left
    rcases tasks_step cfg s e with hsame | ⟨id', event, t, -, -, hnext, htasks⟩ |
      ⟨start, -, -, htasks⟩
    · rw [hsame]
      exact hunlocked
    · have hne : id ≠ id' := by
        rintro rfl
        rw [next_of_isUnlocked hunlocked] at hnext
        cases hnext
      rw [htasks, Function.update_of_ne hne]
      exact hunlocked
    · rw [htasks, Function.update_of_ne (Nat.ne_of_lt hid)]
      exact hunlocked
  · exact Or.inr (invariant_work _ (fun _ _ h => dormant_step h) cfg e hdormant)

/-- All tasks but the last are settled, and the last one keeps signing locked as long as it is
open. -/
structure Guarded (s : State L) : Prop where
  earlier : ∀ id, id + 1 < s.work.nextId → Settled s id
  last : ∀ id, id + 1 = s.work.nextId → (s.tasks id).stage.isOpen = true →
    Settled s id ∨
      s.lock = true ∧ (s.handler.startsTask = false → s.keygenState.isRunning = true)
  pushing : ∀ start, s.handler = .pushing start →
    s.lock = true ∧ ∀ id < s.work.nextId, Settled s id

theorem guarded_new : Guarded (State.new : State L) where
  earlier _ hid := absurd hid (Nat.not_lt_zero _)
  last _ hid := absurd hid (Nat.succ_ne_zero _)
  pushing _ hhandler := by cases hhandler

theorem Guarded.succ_eq_nextId (h : Guarded s) (hid : id < s.work.nextId)
    (hactive : ¬Settled s id) : id + 1 = s.work.nextId := by
  by_contra hne
  exact hactive (h.earlier id (by omega))

theorem Guarded.excludes (h : Guarded s) : Excludes s := by
  intro id hid hopen
  have hspawned := spawned_of_mem_latestTask hid
  have hopened := not_settled_of_isOpen hspawned hopen
  have hlast := h.succ_eq_nextId (spawned_iff.mp hspawned).1 hopened
  obtain ⟨hlock, hrunning⟩ := (h.last id hlast hopen).resolve_left hopened
  rw [hlock]
  exact ⟨rfl, signingSkips_true, hrunning⟩

theorem Guarded.of_same (h : Guarded s) (hnext : (step cfg s e).work.nextId = s.work.nextId)
    (htasks : (step cfg s e).tasks = s.tasks) (hlock : (step cfg s e).lock = s.lock)
    (hstate : (step cfg s e).keygenState = s.keygenState)
    (hstarts : (step cfg s e).handler.startsTask = s.handler.startsTask)
    (hpushing : ∀ start, (step cfg s e).handler = .pushing start → s.handler = .pushing start) :
    Guarded (step cfg s e) where
  earlier id hid := by
    rw [hnext] at hid
    exact settled_step (h.earlier id hid) (by omega)
  last id hid hopen := by
    rw [hnext] at hid
    rw [htasks] at hopen
    rw [hlock, hstate, hstarts]
    exact (h.last id hid hopen).imp_left fun hsettled => settled_step hsettled (by omega)
  pushing start hhandler := by
    obtain ⟨hlocked, hsettled⟩ := h.pushing start (hpushing start hhandler)
    rw [hlock, hnext]
    exact ⟨hlocked, fun id hid => settled_step (hsettled id hid) hid⟩

theorem guarded_task (h : Guarded s) (event : TaskEvent) :
    Guarded (step cfg s (.task id event)) := by
  rcases taskStep_cases id event s with hsame | ⟨t, hspawned, hnext, heq⟩
  · rw [step, hsame]
    exact h
  · have hlt := (spawned_iff.mp hspawned).1
    have hactive : ¬Settled s id := by
      rintro (hunlocked | hdormant)
      · rw [next_of_isUnlocked hunlocked] at hnext
        cases hnext
      · exact not_dormant_of_spawned hspawned hdormant
    have hlast := h.succ_eq_nextId hlt hactive
    have hwork : (step cfg s (.task id event)).work.nextId = s.work.nextId := by
      rw [step, heq, work_record]
      rfl
    have hhandler : (step cfg s (.task id event)).handler = s.handler := by
      rw [step, heq, handler_record]
    refine ⟨?_, ?_, ?_⟩
    · intro id' hid'
      rw [hwork] at hid'
      exact settled_step (h.earlier id' hid') (by omega)
    · intro id' hid' hopen
      obtain rfl : id' = id := by omega
      right
      have htask : (step cfg s (.task id' event)).tasks id' = t := by
        rw [step, heq, tasks_record]
        exact Function.update_self _ _ _
      rw [htask] at hopen
      rw [hhandler, step, heq, record_of_isOpen hopen]
      exact (h.last id' hlast (isOpen_of_next hnext hopen)).resolve_left hactive
    · intro start hpushing
      rw [hhandler] at hpushing
      exact absurd ((h.pushing start hpushing).2 id hlt) hactive

theorem guarded_locking {start : Start} (hhandler : s.handler = .locking start)
    (hcond : LocksAlone s .advance) : Guarded (step cfg s .advance) := by
  rw [LocksAlone, hhandler] at hcond
  have hstep : step cfg s .advance = { s with lock := true, handler := .pushing start } := by
    rw [step, State.advance, hhandler]
  rw [hstep]
  refine ⟨fun id hid => hcond id (Nat.lt_of_succ_lt hid), fun id hid _ =>
    Or.inl (hcond id ?_), ?_⟩
  · exact Nat.lt_of_lt_of_eq (Nat.lt_succ_self id) hid
  · intro _ _
    exact ⟨rfl, hcond⟩

theorem guarded_pushing {start : Start} (h : Guarded s) (hhandler : s.handler = .pushing start) :
    Guarded (step cfg s .advance) := by
  obtain ⟨hlock, hsettled⟩ := h.pushing start hhandler
  have hnext : (step cfg s .advance).work.nextId = s.work.nextId + 1 := by
    rw [step, State.advance, hhandler]
    rfl
  have hstarting : (step cfg s .advance).handler = .starting start := by
    rw [step, State.advance, hhandler]
  refine ⟨?_, ?_, ?_⟩
  · intro id hid
    have hlt : id < s.work.nextId := by omega
    exact settled_step (hsettled id hlt) hlt
  · intro id _ _
    right
    rw [hstarting]
    refine ⟨?_, fun hstarts => by cases hstarts⟩
    rw [step, State.advance, hhandler]
    exact hlock
  · intro start' hpushing
    rw [hstarting] at hpushing
    cases hpushing

theorem guarded_recording {start : Start} (h : Guarded s)
    (hhandler : s.handler = .recording start) : Guarded (step cfg s .advance) := by
  have hstep : step cfg s .advance = { s with
      keygenState := State.runningState start.stage
      latestExecutedSessionId := some start.sessionId
      handler := .idle } := by
    rw [step, State.advance, hhandler]
  rw [hstep]
  refine ⟨h.earlier, fun id hid hopen => (h.last id hid hopen).imp_right ?_, ?_⟩
  · rintro ⟨hlock, -⟩
    refine ⟨hlock, fun _ => ?_⟩
    cases start.stage <;> rfl
  · intro start' hpushing
    cases hpushing

theorem guarded_advance (h : Guarded s) (hcond : LocksAlone s .advance) :
    Guarded (step cfg s .advance) := by
  cases hhandler : s.handler with
  | idle =>
      rw [step, State.advance, hhandler]
      exact h
  | polling | reading | loading | starting =>
      refine h.of_same ?_ ?_ ?_ ?_ ?_ ?_
      all_goals simp [step, State.advance, hhandler, Handler.startsTask]
  | checking header current state =>
      refine h.of_same ?_ ?_ ?_ ?_ ?_ ?_
      all_goals
        simp only [step, State.advance, hhandler]
        split <;> simp [Handler.startsTask]
  | shutting start =>
      refine h.of_same ?_ ?_ ?_ ?_ ?_ ?_
      · simp only [step, State.advance, hhandler]
        split <;> rfl
      all_goals simp [step, State.advance, hhandler, Handler.startsTask]
  | locking start => exact guarded_locking hhandler hcond
  | pushing start => exact guarded_pushing h hhandler
  | recording start => exact guarded_recording h hhandler

theorem guarded_step (h : Guarded s) (hcond : LocksAlone s e) : Guarded (step cfg s e) := by
  cases e with
  | blockFinalized header =>
      refine h.of_same ?_ ?_ ?_ ?_ ?_ ?_
      all_goals
        simp only [step]
        split <;> simp_all [Handler.startsTask]
  | advance => exact guarded_advance h hcond
  | task id event => exact guarded_task h event
  | deliverMessage message =>
      refine h.of_same ?_ ?_ ?_ ?_ ?_ ?_
      all_goals
        simp only [step, State.deliverMessage]
        split <;> simp

/-- In every run in which the lock is taken only when all earlier tasks are settled, keygen
excludes signing. -/
theorem excludes_run (cfg : Config) (events : List (Event L))
    (h : StepsMeet (step cfg) LocksAlone (State.new : State L) events) :
    Always (step cfg) Excludes (State.new : State L) events := by
  have hguarded := always_of_invariant Guarded (fun _ _ => guarded_step) guarded_new h
  exact fun pre post hsplit => (hguarded pre post hsplit).excludes

def sampleAttempts : List (Event runtimeLimits) :=
  handled (sampleHeader 100 1 true false) ++
    [.task 0 .begins, .task 0 (.produce true), .task 0 .complete, .task 0 .report,
      .task 0 .count, .task 0 .unlock] ++
    handled (sampleHeader 110 2 true false)

theorem excludes_sampleAttempts :
    StepsMeet (step sampleNode) LocksAlone State.new sampleAttempts ∧
      Always (step sampleNode) Excludes State.new sampleAttempts := by
  have hlocks : StepsMeet (step sampleNode) LocksAlone State.new sampleAttempts := by
    decide +kernel
  exact ⟨hlocks, excludes_run sampleNode sampleAttempts hlocks⟩

def sampleForced : List (Event runtimeLimits) :=
  handled (sampleHeader 100 1 true false) ++ [.task 0 .begins] ++
    handled (sampleHeader 101 1 true true) ++
    [.task 1 .begins, .task 0 .stop, .task 0 .count, .task 0 .unlock]

theorem superseded_task_unlocks :
    ¬Excludes (run (step sampleNode) State.new sampleForced) := by
  intro h
  have hlock := (h 1 (by decide +kernel) (by decide +kernel)).1
  revert hlock
  decide +kernel

end DkgSubstrate.KeygenExclusion
