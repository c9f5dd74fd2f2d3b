import DkgSubstrate.JobLiveness
import DkgSubstrate.SigningRetries

/-!
The signing manager next to its work manager and its tasks.  A finalized block selects tasks,
which are pushed one after the other, while the work manager polls and the tasks run and end.
-/

namespace DkgSubstrate.SigningTasks

open DkgSubstrate.IncomingMessages
open DkgSubstrate.JobLiveness
open DkgSubstrate.Primitives
open DkgSubstrate.Proposals
open DkgSubstrate.SigningManager hiding State step Event
open DkgSubstrate.SigningRetries
open DkgSubstrate.WorkManager hiding State State.new step

/-- How far a task has come.  The result is reported when the history is free. -/
inductive Stage where
  | beginning
  | running
  | ended (succeeded : Bool)
  | reported (succeeded : Bool)
deriving DecidableEq

def Stage.isOpen : Stage → Bool
  | .beginning | .running => true
  | .ended _ | .reported _ => false

/-- A task, and whether it has produced a signature and processed it. -/
structure Task where
  task : SigningTask
  processed : Bool
  stage : Stage

inductive TaskEvent where
  | begins
  | process
  | complete (succeeded : Bool)
  | stop
  | report
deriving DecidableEq

/-- What becomes of a task whose handle has got the signal `signal`, if the event can happen.
A protocol succeeds after its signature has been processed, and a dropped protocol ends
well. -/
def Task.next (signal : Option ShutdownReason) (t : Task) : TaskEvent → Option Task
  | .begins => if t.stage = .beginning then some { t with stage := .running } else none
  | .process => if t.stage = .running then some { t with processed := true } else none
  | .complete succeeded =>
      if t.stage.isOpen = true ∧ succeeded = t.processed then
        some { t with stage := .ended succeeded }
      else none
  | .stop =>
      if t.stage.isOpen then
        signal.map fun reason => { t with stage := .ended (decide (reason = .dropCode)) }
      else none
  | .report =>
      match t.stage with
      | .ended succeeded => some { t with stage := .reported succeeded }
      | .beginning | .running | .reported _ => none

def TaskEvent.onRemote : TaskEvent → Remote → Remote
  | .begins, r => { r with status := .offlineAndVoting, startRx := false }
  | .complete _, r =>
      { r with status := .complete, stopRx := false, rxKeygenSigning := false, rxVoting := false }
  | .stop, r => { r with stopRx := false }
  | .process, r | .report, r => r

/-- The managers, the selected tasks that have not been pushed yet, and the tasks by the
numbers of their jobs. -/
structure State where
  work : WorkManager.State
  signing : SigningManager.State
  pending : List SigningTask
  tasks : ℕ → Task

namespace State

def new : State where
  work := WorkManager.State.new
  signing := SigningManager.State.initial
  pending := []
  tasks _ := ⟨⟨List.Vector.replicate 32 0, 0, false⟩, false, .beginning⟩

def spawned (s : State) (id : ℕ) : Bool :=
  decide (id < s.work.nextId) && !(s.work.remotes id).startTx

def report (task : Task) (s : State) : State :=
  match task.stage with
  | .reported succeeded =>
      { s with signing := updateLocalSigningSetState (task.task.result succeeded) s.signing }
  | .beginning | .running | .ended _ => s

def taskStep (id : ℕ) (e : TaskEvent) (s : State) : State :=
  if s.spawned id && (s.pending.isEmpty || e != .report) then
    match (s.tasks id).next (s.work.remotes id).stop e with
    | none => s
    | some task =>
        { s with
          work := s.work.setRemote id (e.onRemote (s.work.remotes id))
          tasks := Function.update s.tasks id task }.report task
  else s

def push (handle : Handle) (s : State) : State :=
  match s.pending with
  | [] => s
  | task :: pending =>
      { s with
        work := pushTask task.hash task.forceStart handle Remote.new s.work
        pending := pending
        tasks := Function.update s.tasks s.work.nextId ⟨task, false, .beginning⟩ }

end State

variable {L : Limits}

def selected (cfg : Config L) (block : Finalized L) (signing : SigningManager.State) :
    List SigningTask :=
  let tasks := (onBlockFinalized cfg block signing).1.tasks
  (tasks.take (tasks.length - signing.tasks.length)).reverse

inductive Event (L : Limits) where
  | blockFinalized (block : Finalized L)
  | push (handle : Handle)
  | poll (now : ℕ)
  | clearEnqueuedTasks
  | deliverMessage (message : SignedDKGMessage) (messageTaskHash : TaskHash)
  | keygenLock
  | keygenUnlock
  | task (id : ℕ) (e : TaskEvent)

def maxRunningTasks : ℕ := 1

/-- A block is handled when the tasks of the last one have been pushed.  The batches with a job
are left out. -/
def step (cfg : Config L) (s : State) : Event L → State
  | .blockFinalized block =>
      if s.pending.isEmpty then
        let block := { block with jobExists := fun hash => jobExists hash s.work }
        { s with
          signing := (onBlockFinalized cfg block s.signing).1
          pending := selected cfg block s.signing }
      else s
  | .push handle => s.push handle
  | .poll now => { s with work := poll maxRunningTasks now s.work }
  | .clearEnqueuedTasks => { s with work := clearEnqueuedTasks s.work }
  | .deliverMessage message messageTaskHash =>
      { s with work := deliverMessage message messageTaskHash s.work }
  | .keygenLock => { s with signing := { s.signing with lock := true } }
  | .keygenUnlock => { s with signing := { s.signing with lock := false } }
  | .task id e => s.taskStep id e

section Selected

variable {cfg : Config L} {block : Finalized L} {signing : SigningManager.State}

theorem startedAt_of_advance {now : ℕ} {generated : List ProposedSigningSet}
    {tracker : SigningSetHistoryTracker} {x : ℕ × List ℕ}
    (h : (tracker.advance now generated).2 = some x) :
    StartedAt now (tracker.advance now generated).1 := by
  rw [SigningSetHistoryTracker.advance] at h ⊢
  dsimp only at h ⊢
  split at h
  · cases h
  · rename_i set hset
    obtain ⟨hindex, -⟩ := List.getElem?_eq_some_iff.mp hset
    exact ⟨_, List.mem_set hindex _, rfl⟩

theorem startedAt_of_visit {batch : StoredUnsignedProposalBatch L}
    {tracker : SigningSetHistoryTracker} {x : ℕ × List ℕ}
    (h : (visit cfg block batch tracker).2 = some x) :
    ¬StartedAt block.number tracker ∧ StartedAt block.number (visit cfg block batch tracker).1 := by
  rw [visit] at h ⊢
  split at h
  · cases h
  · rename_i hwaiting
    refine ⟨fun hstarted => hwaiting (isWaiting_of_startedAt hstarted), ?_⟩
    rw [if_neg hwaiting]
    exact startedAt_of_advance h

/-- The tasks that are new in a state have different hashes, which are hashes of the batches,
and an attempt for none of them had been started before. -/
def SelectsApart (cfg : Config L) (block : Finalized L)
    (batches : List (StoredUnsignedProposalBatch L)) (s s' : SigningManager.State) : Prop :=
  ∃ new : List SigningTask, s'.tasks = new ++ s.tasks ∧ (new.map SigningTask.hash).Nodup ∧
    ∀ task ∈ new, (∃ batch ∈ batches, batchHash cfg batch = task.hash) ∧
      ¬StartedAt block.number (s.tracker task.hash)

theorem selectsApart_refl (batches : List (StoredUnsignedProposalBatch L))
    (s : SigningManager.State) : SelectsApart cfg block batches s s :=
  ⟨[], rfl, List.nodup_nil, fun _ hmem => absurd hmem List.not_mem_nil⟩

theorem startedAt_of_visited {batch : StoredUnsignedProposalBatch L}
    {s s' : SigningManager.State} (h : Visited cfg block batch s s') {hash : FixedBytes 32}
    (hstarted : StartedAt block.number (s.tracker hash)) :
    StartedAt block.number (s'.tracker hash) := by
  rw [tracker_of_visited h]
  split
  · exact startedAt_visit_of_startedAt hstarted
  · exact hstarted

theorem SelectsApart.of_visited {batch : StoredUnsignedProposalBatch L}
    {batches : List (StoredUnsignedProposalBatch L)} {s s' s'' : SigningManager.State}
    (hvisited : Visited cfg block batch s s') (hlater : SelectsApart cfg block batches s' s'') :
    SelectsApart cfg block (batch :: batches) s s'' := by
  obtain ⟨new, htasks, hnodup, hnew⟩ := hlater
  have hold : ∀ task ∈ new, (∃ b ∈ batch :: batches, batchHash cfg b = task.hash) ∧
      ¬StartedAt block.number (s.tracker task.hash) := by
    intro task hmem
    obtain ⟨⟨b, hb, hhash⟩, hstarted⟩ := hnew task hmem
    exact ⟨⟨b, List.mem_cons_of_mem batch hb, hhash⟩,
      fun hbefore => hstarted (startedAt_of_visited hvisited hbefore)⟩
  rcases hvisited.tasks with hsame | ⟨ssid, signingSet, forceStart, hvisit, hpushed⟩
  · exact ⟨new, htasks.trans (by rw [hsame]), hnodup, hold⟩
  · obtain ⟨hbefore, hafter⟩ := startedAt_of_visit hvisit
    have htracker := tracker_of_visited hvisited (batchHash cfg batch)
    rw [if_pos rfl] at htracker
    refine ⟨new ++ [⟨batchHash cfg batch, ssid, forceStart⟩], ?_, ?_, ?_⟩
    · rw [htasks, hpushed, List.append_assoc, List.singleton_append]
    · rw [List.map_append, List.map_singleton, List.nodup_append']
      refine ⟨hnodup, List.nodup_singleton _, ?_⟩
      intro hash hmem hlast
      obtain ⟨task, htask, rfl⟩ := List.mem_map.mp hmem
      refine (hnew task htask).2 ?_
      rw [List.mem_singleton.mp hlast, htracker]
      exact hafter
    · intro task hmem
      rcases List.mem_append.mp hmem with hmem | hmem
      · exact hold task hmem
      · rw [List.mem_singleton.mp hmem]
        exact ⟨⟨batch, List.mem_cons_self, rfl⟩, hbefore⟩

theorem selectsApart_signBatches (cfg : Config L) {partyI : ℕ}
    {full batches : List (StoredUnsignedProposalBatch L)}
    (hfull : ∀ batch ∈ batches, batch ∈ full) (turn : ℕ) (s : SigningManager.State) :
    SelectsApart cfg block batches s (signBatches cfg block partyI full turn batches s).1 := by
  induction batches generalizing turn s with
  | nil => exact selectsApart_refl [] s
  | cons batch batches ih =>
      obtain ⟨hbatch, hbatches⟩ := List.forall_mem_cons.mp hfull
      have hturn : (signBatch cfg block partyI full turn batch s).1 = s ∨
          Visited cfg block batch s (signBatch cfg block partyI full turn batch s).1 :=
        signBatch_visited partyI turn hbatch s
      have hlater : SelectsApart cfg block batches
          (signBatch cfg block partyI full turn batch s).1
          (signBatches cfg block partyI full turn (batch :: batches) s).1 := by
        rw [signBatches]
        split
        · rename_i next hnext
          rw [hnext]
          exact ih hbatches (turn + 1) next
        · rename_i last result hlast
          rw [hlast]
          exact selectsApart_refl batches last
      rcases hturn with hsame | hvisited
      · rw [hsame] at hlater
        obtain ⟨new, htasks, hnodup, hnew⟩ := hlater
        refine ⟨new, htasks, hnodup, fun task hmem => ?_⟩
        obtain ⟨⟨b, hb, hhash⟩, hstarted⟩ := hnew task hmem
        exact ⟨⟨b, List.mem_cons_of_mem batch hb, hhash⟩, hstarted⟩
      · exact .of_visited hvisited hlater

theorem selected_apart (cfg : Config L) (block : Finalized L) (signing : SigningManager.State) :
    ((selected cfg block signing).map SigningTask.hash).Nodup ∧
      ∀ task ∈ selected cfg block signing, block.jobExists task.hash = false := by
  have hselects : ∃ new, (onBlockFinalized cfg block signing).1.tasks = new ++ signing.tasks ∧
      (new.map SigningTask.hash).Nodup ∧
      ∀ task ∈ new, block.jobExists task.hash = false := by
    have hnone : ∃ new, signing.tasks = new ++ signing.tasks ∧
        (new.map SigningTask.hash).Nodup ∧
        ∀ task ∈ new, block.jobExists task.hash = false :=
      ⟨[], rfl, List.nodup_nil, fun _ hmem => absurd hmem List.not_mem_nil⟩
    rw [onBlockFinalized]
    split
    · exact hnone
    · split
      · exact hnone
      · split
        · exact hnone
        · exact hnone
        · obtain ⟨new, htasks, hnodup, hnew⟩ := selectsApart_signBatches cfg
            (fun batch hbatch => (List.mem_filter.mp hbatch).1) 0 signing
          refine ⟨new, htasks, hnodup, fun task hmem => ?_⟩
          obtain ⟨⟨batch, hbatch, hhash⟩, -⟩ := hnew task hmem
          have hwaiting := (List.mem_filter.mp hbatch).2
          rw [← hhash]
          exact Bool.not_eq_true' _ ▸ hwaiting
  obtain ⟨new, htasks, hnodup, hnew⟩ := hselects
  have hselected : selected cfg block signing = new.reverse := by
    rw [selected, htasks, List.length_append, Nat.add_sub_cancel, List.take_left']
    rfl
  rw [hselected]
  refine ⟨?_, fun task hmem => hnew task (List.mem_reverse.mp hmem)⟩
  rw [List.map_reverse]
  exact List.nodup_reverse.mpr hnodup

end Selected

section Signals

variable {isOpen : ℕ → Bool} {w w' : WorkManager.State} {now maxTasks : ℕ} {job : Job}
  {remotes : ℕ → Remote} {id : ℕ}

def signalPart (r : Remote) : Option ShutdownReason × Bool × Bool := (r.stop, r.stopTx, r.isDone)

theorem signalPart_deliverMessage (r : Remote) (e : Envelope) :
    signalPart (r.deliverMessage e) = signalPart r := by
  rw [Remote.deliverMessage]
  split
  · rfl
  · split <;> rfl

/-- No signal has been sent, and the protocol is not done. -/
def Fresh (r : Remote) : Prop := signalPart r = (none, true, false)

/-- A signal has been sent, and not the one of a drop. -/
def Warned (r : Remote) : Prop := r.stopTx = false ∧ r.stop ≠ some .dropCode

theorem shutdown_of_warned {r : Remote} (h : Warned r) (reason : ShutdownReason) :
    r.shutdown reason = r := by
  rw [Remote.shutdown, h.1, if_neg Bool.false_ne_true]

theorem warned_shutdown_of_fresh {r : Remote} (h : Fresh r) : Warned (r.shutdown .stalled) := by
  simp only [Fresh, signalPart, Prod.mk.injEq] at h
  rw [Remote.shutdown, if_pos h.2.1]
  refine ⟨rfl, ?_⟩
  dsimp only
  split
  · decide
  · rw [h.1]
    intro hdrop
    cases hdrop

theorem warned_drop {r : Remote} (h : Warned r) : Warned r.drop := by
  rw [Remote.drop, shutdown_of_warned h]
  split
  · rw [shutdown_of_warned h]
    exact h
  · rw [shutdown_of_warned (r := { r with status := .terminated }) h]
    exact h

theorem warned_update {r : Remote} (h : Warned (remotes id)) {id' : ℕ}
    (hr : Warned (remotes id') → Warned r) : Warned (Function.update remotes id' r id) := by
  by_cases hid : id = id'
  · subst hid
    rw [Function.update_self]
    exact hr h
  · rw [Function.update_of_ne hid]
    exact h

theorem warned_dropJobs (jobs : List Job) (h : Warned (remotes id)) :
    Warned (dropJobs jobs remotes id) := by
  induction jobs generalizing remotes with
  | nil => exact h
  | cons job jobs ih =>
      rw [dropJobs, List.foldl_cons, ← dropJobs]
      exact ih (warned_update h warned_drop)

theorem warned_shutdownStalled_of_warned (jobs : List Job) (h : Warned (remotes id)) :
    Warned (shutdownStalled now jobs remotes id) := by
  induction jobs generalizing remotes with
  | nil => exact h
  | cons job jobs ih =>
      rw [shutdownStalled, List.foldl_cons, ← shutdownStalled]
      split
      · exact ih (warned_update h fun hold => (shutdown_of_warned hold _).symm ▸ hold)
      · exact ih h

theorem warned_shutdownStalled {jobs : List Job} (hjob : job ∈ jobs)
    (hfresh : Fresh (remotes job.id))
    (hstalled : signingHasStalled now job (remotes job.id) = true) :
    Warned (shutdownStalled now jobs remotes job.id) := by
  induction jobs generalizing remotes with
  | nil => cases hjob
  | cons first jobs ih =>
      rw [shutdownStalled, List.foldl_cons, ← shutdownStalled]
      by_cases hid : job.id = first.id
      · by_cases hfirst : signingHasStalled now first (remotes first.id) = true
        · rw [if_pos hfirst, hid]
          refine warned_shutdownStalled_of_warned jobs ?_
          rw [Function.update_self, ← hid]
          exact warned_shutdown_of_fresh hfresh
        · rw [if_neg hfirst]
          refine ih ?_ hfresh hstalled
          rcases List.mem_cons.mp hjob with rfl | hjob
          · exact absurd hstalled hfirst
          · exact hjob
      · have hmem : job ∈ jobs := by
          rcases List.mem_cons.mp hjob with rfl | hjob
          · exact absurd rfl hid
          · exact hjob
        split
        · refine ih hmem ?_ ?_ <;> rw [Function.update_of_ne hid]
          · exact hfresh
          · exact hstalled
        · exact ih hmem hfresh hstalled

/-- The jobs differ in their numbers and hashes, no job has got a signal as long as its task is
open, and a task that is dropped has not been spawned. -/
structure Signals (isOpen : ℕ → Bool) (w : WorkManager.State) : Prop where
  distinct : Distinct w
  apart : HashesApart w
  queued : ∀ job ∈ w.enqueuedTasks,
    Fresh (w.remotes job.id) ∧ (w.remotes job.id).startTx = true
  active : ∀ job ∈ w.activeTasks.jobs, isOpen job.id = true → Fresh (w.remotes job.id)
  dropped : ∀ id, isOpen id = true → (w.remotes id).stop = some .dropCode →
    (w.remotes id).startTx = true

theorem Signals.of_countP_le (h : Signals isOpen w) (w' : WorkManager.State)
    (hnext : w'.nextId = w.nextId)
    (hle : ∀ p : Job → Bool, (jobs w').countP p ≤ (jobs w).countP p) :
    Distinct w' ∧ HashesApart w' := by
  refine ⟨fun id => ?_, hashesApart_iff.mpr fun hash => ?_⟩
  · rw [hnext]
    exact (hle _).trans (h.distinct id)
  · exact (hle _).trans (hashesApart_iff.mp h.apart hash)

theorem remotes_retainActive_of_ne (h : ∀ job ∈ w.activeTasks.jobs, id ≠ job.id) :
    (retainActive now w).remotes id = w.remotes id := by
  refine (dropJobs_of_ne fun job hjob => h job (List.mem_filter.mp hjob).1).trans ?_
  exact shutdownStalled_of_not_stalled fun job hjob hid => absurd hid (h job hjob)

theorem warned_retainActive (h : Signals isOpen w) (hjob : job ∈ w.activeTasks.jobs)
    (hopen : isOpen job.id = true) (hends : ends now w job = true) :
    Warned ((retainActive now w).remotes job.id) := by
  have hfresh := h.active job hjob hopen
  have hstalled : signingHasStalled now job (w.remotes job.id) = true := by
    simp only [Fresh, signalPart, Prod.mk.injEq] at hfresh
    rw [ends, hfresh.2.2, Bool.or_false] at hends
    exact hends
  exact warned_dropJobs _ (warned_shutdownStalled hjob hfresh hstalled)

theorem signals_retainActive (h : Signals isOpen w) (now : ℕ) :
    Signals isOpen (retainActive now w) := by
  obtain ⟨hdistinct, hapart⟩ := h.of_countP_le (retainActive now w) rfl fun p => by
    rw [jobs, jobs, List.countP_append, List.countP_append]
    exact Nat.add_le_add_right List.filter_sublist.countP_le _
  refine ⟨hdistinct, hapart, ?_, ?_, ?_⟩
  · intro job hjob
    rw [remotes_retainActive_of_ne fun job' hjob' =>
      (h.distinct.ne_of_active_enqueued hjob' hjob).symm]
    exact h.queued job hjob
  · intro job hjob hopen
    obtain ⟨hactive, hruns⟩ := List.mem_filter.mp hjob
    rw [remotes_retainActive h.distinct hactive (Bool.not_eq_true' _ ▸ hruns)]
    exact h.active job hactive hopen
  · intro id hopen hstop
    by_cases hactive : ∃ job ∈ w.activeTasks.jobs, id = job.id
    · obtain ⟨job, hjob, rfl⟩ := hactive
      cases hends : ends now w job with
      | true => exact absurd hstop (warned_retainActive h hjob hopen hends).2
      | false =>
          rw [remotes_retainActive h.distinct hjob hends] at hstop ⊢
          exact h.dropped job.id hopen hstop
    · push Not at hactive
      rw [remotes_retainActive_of_ne hactive] at hstop ⊢
      exact h.dropped id hopen hstop

theorem fresh_beforeInsert (h : Fresh (w.remotes job.id)) :
    Fresh ((beforeInsert job w).remotes job.id) := by
  rw [beforeInsert]
  split
  · simp only [deliverEnqueued, State.setQueue, remotes_setRemote, Function.update_self]
    exact (apply_drain signalPart signalPart_deliverMessage job _ _).trans h
  · rw [remotes_setRemote, Function.update_self]
    exact h

theorem signals_startJobUnconditional {rest : List Job} (h : Signals isOpen w)
    (htasks : w.enqueuedTasks = job :: rest) :
    Signals isOpen (startJobUnconditional job { w with enqueuedTasks := rest }) := by
  have hjob : job ∈ w.enqueuedTasks := htasks ▸ List.mem_cons_self
  have hnew := h.apart.notMem_active htasks
  obtain ⟨hdistinct, hapart⟩ := h.of_countP_le
    (startJobUnconditional job { w with enqueuedTasks := rest })
    (nextId_startJobUnconditional job _) fun p => by
      refine (countP_startJobUnconditional p job { w with enqueuedTasks := rest }).trans ?_
      simp only [jobs, htasks, List.countP_append, List.countP_cons, List.countP_nil]
      omega
  have hfresh : Fresh
      ((startJobUnconditional job { w with enqueuedTasks := rest }).remotes job.id) := by
    rw [remotes_startJobUnconditional_self (s := { w with enqueuedTasks := rest }) hnew]
    exact fresh_beforeInsert (h.queued job hjob).1
  refine ⟨hdistinct, hapart, ?_, ?_, ?_⟩
  · intro job' hjob'
    rw [enqueuedTasks_startJobUnconditional] at hjob'
    rw [remotes_startJobUnconditional (h.distinct.ne_of_mem_rest htasks hjob')]
    exact h.queued job' (htasks ▸ List.mem_cons_of_mem job hjob')
  · intro job' hjob' hopen
    rcases startJobUnconditional_cases job { w with enqueuedTasks := rest } with
      ⟨-, hactive, -⟩ | ⟨hold, -⟩
    · rw [hactive] at hjob'
      rcases List.mem_cons.mp hjob' with rfl | hjob'
      · exact hfresh
      · rw [remotes_startJobUnconditional (h.distinct.ne_of_active_enqueued hjob' hjob)]
        exact h.active job' hjob' hopen
    · exact absurd hold hnew
  · intro id hopen hstop
    by_cases hid : id = job.id
    · subst hid
      simp only [Fresh, signalPart, Prod.mk.injEq] at hfresh
      rw [hfresh.1] at hstop
      cases hstop
    · rw [remotes_startJobUnconditional hid] at hstop ⊢
      exact h.dropped id hopen hstop

theorem signals_startEnqueued (h : Signals isOpen w) (n : ℕ) :
    Signals isOpen (startEnqueued n w) :=
  invariant_startEnqueued (fun _ _ _ ht htasks => signals_startJobUnconditional ht htasks) n h

theorem signals_poll (h : Signals isOpen w) (maxTasks now : ℕ) :
    Signals isOpen (poll maxTasks now w) := by
  obtain ⟨hdistinct, hapart, hqueued, hactive, hdropped⟩ :=
    signals_startEnqueued (signals_retainActive h now)
      (tasksToStart maxTasks (retainActive now w))
  exact ⟨hdistinct, hapart, hqueued, hactive, hdropped⟩

theorem signals_enqueue (h : Signals isOpen w) {isOpen' : ℕ → Bool}
    (himp : ∀ id, id ≠ w.nextId → isOpen' id = true → isOpen id = true) {hash : TaskHash}
    {handle : Handle} (hnew : jobExists hash w = false) (hactive : w'.activeTasks = w.activeTasks)
    (hqueue : w'.enqueuedTasks.Perm (⟨w.nextId, hash, handle⟩ :: w.enqueuedTasks))
    (hremotes : w'.remotes = Function.update w.remotes w.nextId Remote.new)
    (hnext : w'.nextId = w.nextId + 1) : Signals isOpen' w' := by
  have hne : ∀ job ∈ jobs w, job.id ≠ w.nextId :=
    fun job hjob => Nat.ne_of_lt (h.distinct.lt_of_mem hjob)
  have hsame : ∀ job ∈ jobs w, w'.remotes job.id = w.remotes job.id := by
    intro job hjob
    rw [hremotes]
    exact Function.update_of_ne (hne job hjob) _ _
  have hperm : (jobs w').Perm (⟨w.nextId, hash, handle⟩ :: jobs w) := by
    rw [jobs, hactive]
    exact (hqueue.append_left _).trans List.perm_middle
  refine ⟨?_, ?_, ?_, ?_, ?_⟩
  · intro id
    rw [hperm.countP_eq, List.countP_cons, hnext]
    have hid := h.distinct id
    by_cases heq : w.nextId = id
    · subst heq
      simp only [Nat.lt_irrefl, if_false, beq_self_eq_true, if_true, Nat.lt_succ_self] at hid ⊢
      omega
    · rw [if_neg (by simpa using heq)]
      split at hid <;> split <;> omega
  · rw [HashesApart, (hperm.map Job.taskHash).nodup_iff, List.map_cons, List.nodup_cons]
    refine ⟨?_, h.apart⟩
    intro hmem
    obtain ⟨job, hjob, heq⟩ := List.mem_map.mp hmem
    exact jobExists_eq_false_iff.mp hnew job hjob heq
  · intro job hjob
    rcases List.mem_cons.mp (hqueue.mem_iff.mp hjob) with rfl | hjob
    · rw [hremotes, Function.update_self]
      exact ⟨rfl, rfl⟩
    · rw [hsame job (List.mem_append_right _ hjob)]
      exact h.queued job hjob
  · intro job hjob hopen
    rw [hactive] at hjob
    have hold := List.mem_append_left w.enqueuedTasks hjob
    rw [hsame job hold]
    exact h.active job hjob (himp job.id (hne job hold) hopen)
  · intro id hopen hstop
    rw [hremotes] at hstop ⊢
    by_cases hid : id = w.nextId
    · rw [hid, Function.update_self]
      rfl
    · rw [Function.update_of_ne hid] at hstop ⊢
      exact h.dropped id (himp id hid hopen) hstop

theorem signals_pushTask (h : Signals isOpen w) {isOpen' : ℕ → Bool}
    (himp : ∀ id, id ≠ w.nextId → isOpen' id = true → isOpen id = true) {hash : TaskHash}
    (hnew : jobExists hash w = false) (forceStart : Bool) (handle : Handle) :
    Signals isOpen' (pushTask hash forceStart handle Remote.new w) := by
  cases forceStart with
  | false =>
      exact signals_enqueue h himp hnew rfl (List.perm_append_singleton _ _) rfl rfl
  | true =>
      have hqueued : Signals isOpen' { w.setRemote w.nextId Remote.new with
          nextId := w.nextId + 1
          enqueuedTasks := ⟨w.nextId, hash, handle⟩ :: w.enqueuedTasks } :=
        signals_enqueue h himp hnew rfl (List.Perm.refl _) rfl rfl
      exact signals_startJobUnconditional hqueued rfl

theorem signals_setRemote (h : Signals isOpen w) {r : Remote}
    (hstop : r.stop = (w.remotes id).stop) (hstart : r.startTx = (w.remotes id).startTx)
    (hfresh : isOpen id = true ∨ (w.remotes id).startTx = true →
      Fresh (w.remotes id) → Fresh r) : Signals isOpen (w.setRemote id r) := by
  have hstops : ∀ id', ((w.setRemote id r).remotes id').stop = (w.remotes id').stop :=
    fun id' => apply_update_remote Remote.stop hstop id'
  have hstarts : ∀ id', ((w.setRemote id r).remotes id').startTx = (w.remotes id').startTx :=
    fun id' => apply_update_remote Remote.startTx hstart id'
  have hkept : ∀ id', isOpen id' = true ∨ (w.remotes id').startTx = true →
      Fresh (w.remotes id') → Fresh ((w.setRemote id r).remotes id') :=
    (Function.forall_update_iff w.remotes fun id' r' =>
      isOpen id' = true ∨ (w.remotes id').startTx = true → Fresh (w.remotes id') → Fresh r').mpr
        ⟨hfresh, fun _ _ _ hold => hold⟩
  refine ⟨h.distinct, h.apart, ?_, ?_, ?_⟩
  · intro job hjob
    obtain ⟨hold, hunstarted⟩ := h.queued job hjob
    rw [hstarts]
    exact ⟨hkept job.id (Or.inr hunstarted) hold, hunstarted⟩
  · intro job hjob hopen
    exact hkept job.id (Or.inl hopen) (h.active job hjob hopen)
  · intro id' hopen hdrop
    rw [hstops] at hdrop
    rw [hstarts]
    exact h.dropped id' hopen hdrop

theorem signals_deliverMessage (h : Signals isOpen w) (message : SignedDKGMessage)
    (hash : TaskHash) : Signals isOpen (deliverMessage message hash w) := by
  rw [deliverMessage]
  dsimp only
  split
  · rename_i job _
    exact signals_setRemote (w := { w with nextTag := w.nextTag + 1 })
      ⟨h.distinct, h.apart, h.queued, h.active, h.dropped⟩ (Remote.stop_deliverMessage _ _)
      (Remote.startTx_deliverMessage _ _)
      (fun _ hfresh => (signalPart_deliverMessage _ _).trans hfresh)
  · exact ⟨h.distinct, h.apart, h.queued, h.active, h.dropped⟩

theorem signals_clearEnqueuedTasks (h : Signals isOpen w) :
    Signals isOpen (clearEnqueuedTasks w) := by
  obtain ⟨hdistinct, hapart⟩ := h.of_countP_le (clearEnqueuedTasks w) rfl fun p => by
    rw [jobs, jobs, List.countP_append, List.countP_append]
    exact Nat.add_le_add_left (Nat.zero_le _) _
  refine ⟨hdistinct, hapart, fun job hjob => absurd hjob List.not_mem_nil, ?_, ?_⟩
  · intro job hjob hopen
    have hsame : (clearEnqueuedTasks w).remotes job.id = w.remotes job.id :=
      dropJobs_of_ne fun job' hjob' => h.distinct.ne_of_active_enqueued hjob hjob'
    rw [hsame]
    exact h.active job hjob hopen
  · intro id hopen hstop
    refine (apply_dropJobs Remote.startTx Remote.startTx_drop _ _ id).trans ?_
    by_cases hqueued : ∃ job ∈ w.enqueuedTasks, id = job.id
    · obtain ⟨job, hjob, rfl⟩ := hqueued
      exact (h.queued job hjob).2
    · push Not at hqueued
      refine h.dropped id hopen ?_
      rw [← hstop]
      exact congrArg Remote.stop (dropJobs_of_ne hqueued).symm

theorem Signals.mono (h : Signals isOpen w) {isOpen' : ℕ → Bool}
    (himp : ∀ id, isOpen' id = true → isOpen id = true) : Signals isOpen' w where
  distinct := h.distinct
  apart := h.apart
  queued := h.queued
  active job hjob hopen := h.active job hjob (himp job.id hopen)
  dropped id hopen := h.dropped id (himp id hopen)

end Signals

section Results

variable {cfg : Config L} {s : State} {id : ℕ} {t t' : Task} {e : TaskEvent}
  {signal : Option ShutdownReason}

namespace Stage

def succeeded : Stage → Bool
  | .ended succeeded | .reported succeeded => succeeded
  | .beginning | .running => false

end Stage

@[simp] theorem work_report (task : Task) (s : State) : (s.report task).work = s.work := by
  unfold State.report
  split <;> rfl

@[simp] theorem tasks_report (task : Task) (s : State) : (s.report task).tasks = s.tasks := by
  unfold State.report
  split <;> rfl

@[simp] theorem pending_report (task : Task) (s : State) :
    (s.report task).pending = s.pending := by
  unfold State.report
  split <;> rfl

theorem isOpen_of_next (h : t.next signal e = some t') (hopen : t'.stage.isOpen = true) :
    t.stage.isOpen = true := by
  cases e with
  | begins | process =>
      rw [Task.next, Option.ite_none_right_eq_some] at h
      obtain ⟨hstage, -⟩ := h
      simp [hstage, Stage.isOpen]
  | complete succeeded =>
      rw [Task.next, Option.ite_none_right_eq_some] at h
      exact h.1.1
  | stop =>
      rw [Task.next, Option.ite_none_right_eq_some] at h
      exact h.1
  | report =>
      rw [Task.next] at h
      split at h <;> cases h
      cases hopen

theorem fresh_onRemote (h : t.next signal e = some t') (hopen : t'.stage.isOpen = true)
    {r : Remote} (hfresh : Fresh r) : Fresh (e.onRemote r) := by
  simp only [Fresh, signalPart, Prod.mk.injEq] at hfresh
  cases e with
  | begins => simp [TaskEvent.onRemote, Fresh, signalPart, Remote.isDone, hfresh.1, hfresh.2.1]
  | process | report => simpa [TaskEvent.onRemote, Fresh, signalPart] using hfresh
  | complete succeeded =>
      rw [Task.next, Option.ite_none_right_eq_some] at h
      obtain ⟨-, h⟩ := h
      cases h
      cases hopen
  | stop =>
      rw [Task.next, Option.ite_none_right_eq_some, Option.map_eq_some_iff] at h
      obtain ⟨-, reason, -, rfl⟩ := h
      cases hopen

theorem processed_of_next (h : t.next signal e = some t')
    (hold : t.stage.succeeded = true → t.processed = true)
    (hsignal : t.stage.isOpen = true → signal ≠ some .dropCode) :
    t'.stage.succeeded = true → t'.processed = true := by
  cases e with
  | begins =>
      rw [Task.next, Option.ite_none_right_eq_some] at h
      obtain ⟨-, h⟩ := h
      cases h
      exact nofun
  | process =>
      rw [Task.next, Option.ite_none_right_eq_some] at h
      obtain ⟨-, h⟩ := h
      cases h
      exact fun _ => rfl
  | complete succeeded =>
      rw [Task.next, Option.ite_none_right_eq_some] at h
      obtain ⟨⟨-, hprocessed⟩, h⟩ := h
      cases h
      exact fun hsucceeded => hprocessed ▸ hsucceeded
  | stop =>
      rw [Task.next, Option.ite_none_right_eq_some, Option.map_eq_some_iff] at h
      obtain ⟨hopen, reason, hreason, rfl⟩ := h
      intro hdrop
      rw [Stage.succeeded, decide_eq_true_eq] at hdrop
      rw [hdrop] at hreason
      exact absurd hreason (hsignal hopen)
  | report =>
      rw [Task.next] at h
      split at h <;> cases h
      rename_i succeeded hstage
      intro hsucceeded
      refine hold ?_
      rw [hstage]
      exact hsucceeded

theorem jobExists_step {w : WorkManager.State} {hash : TaskHash} (call : Call)
    (h : jobExists hash w = false) (hpushed : ∀ job ∈ pushedJobs w call, job.taskHash ≠ hash) :
    jobExists hash (WorkManager.step maxRunningTasks w call) = false := by
  rw [jobExists_eq_false_iff] at h ⊢
  have hcount := countP_step (fun job => job.taskHash == hash) maxRunningTasks w call
  have hold : (jobs w).countP (fun job => job.taskHash == hash) = 0 := by simpa using h
  have hnew : (pushedJobs w call).countP (fun job => job.taskHash == hash) = 0 := by
    simpa using hpushed
  rw [hold, hnew, Nat.add_zero, Nat.le_zero, List.countP_eq_zero] at hcount
  simpa using hcount

/-- The selected tasks are new, and every task that has ended well has processed a
signature. -/
structure Backed (s : State) : Prop where
  signals : Signals (fun id => (s.tasks id).stage.isOpen) s.work
  apart : (s.pending.map SigningTask.hash).Nodup
  waiting : ∀ task ∈ s.pending, jobExists task.hash s.work = false
  results : ∀ id, (s.tasks id).stage.succeeded = true → (s.tasks id).processed = true

theorem backed_new : Backed State.new where
  signals := by
    refine ⟨fun _ => Nat.zero_le _, List.nodup_nil, ?_, ?_, ?_⟩
    · exact fun job hjob => absurd hjob List.not_mem_nil
    · exact fun job hjob => absurd hjob List.not_mem_nil
    · exact fun _ _ hstop => by cases hstop
  apart := List.nodup_nil
  waiting task hmem := absurd hmem List.not_mem_nil
  results id hsucceeded := by cases hsucceeded

theorem Backed.of_call (h : Backed s) (call : Call) (hpushed : pushedJobs s.work call = [])
    (hsignals : Signals (fun id => (s.tasks id).stage.isOpen)
      (WorkManager.step maxRunningTasks s.work call)) :
    Backed { s with work := WorkManager.step maxRunningTasks s.work call } where
  signals := hsignals
  apart := h.apart
  waiting task hmem := jobExists_step call (h.waiting task hmem) fun job hjob => by
    rw [hpushed] at hjob
    cases hjob
  results := h.results

theorem backed_push (h : Backed s) (handle : Handle) : Backed (s.push handle) := by
  rw [State.push]
  split
  · exact h
  · rename_i task pending hpending
    have hnew : jobExists task.hash s.work = false :=
      h.waiting task (hpending ▸ List.mem_cons_self)
    have hapart := h.apart
    rw [hpending, List.map_cons, List.nodup_cons] at hapart
    refine ⟨signals_pushTask h.signals ?_ hnew task.forceStart handle, hapart.2, ?_, ?_⟩
    · intro id hid hopen
      dsimp only at hopen
      rw [Function.update_of_ne hid] at hopen
      exact hopen
    · intro other hmem
      refine jobExists_step (.pushTask task.hash task.forceStart handle Remote.new
        Remote.received_new) (h.waiting other (hpending ▸ List.mem_cons_of_mem task hmem)) ?_
      intro job hjob heq
      rw [List.mem_singleton.mp hjob] at heq
      have hhash : task.hash = other.hash := heq
      exact hapart.1 (hhash ▸ List.mem_map_of_mem hmem)
    · refine (Function.forall_update_iff s.tasks fun _ t =>
        t.stage.succeeded = true → t.processed = true).mpr ⟨fun hsucceeded => ?_, ?_⟩
      · cases hsucceeded
      · exact fun id _ => h.results id

theorem backed_taskStep (h : Backed s) (id : ℕ) (e : TaskEvent) : Backed (s.taskStep id e) := by
  rw [State.taskStep]
  split
  · rename_i hspawned
    split
    · exact h
    · rename_i task hnext
      rw [Bool.and_eq_true, State.spawned, Bool.and_eq_true, Bool.not_eq_true'] at hspawned
      have hstarted := hspawned.1.2
      have hopened : ∀ id', (Function.update s.tasks id task id').stage.isOpen = true →
          (s.tasks id').stage.isOpen = true := by
        refine (Function.forall_update_iff s.tasks fun id' t =>
          t.stage.isOpen = true → (s.tasks id').stage.isOpen = true).mpr ?_
        exact ⟨isOpen_of_next hnext, fun _ _ hopen => hopen⟩
      refine ⟨?_, ?_, ?_, ?_⟩
      · rw [tasks_report, work_report]
        refine signals_setRemote (h.signals.mono hopened) (by cases e <;> rfl)
          (by cases e <;> rfl) fun hcond => ?_
        rw [hstarted, Function.update_self] at hcond
        exact fresh_onRemote hnext (hcond.resolve_right Bool.false_ne_true)
      · rw [pending_report]
        exact h.apart
      · rw [pending_report, work_report]
        exact h.waiting
      · rw [tasks_report]
        refine (Function.forall_update_iff s.tasks fun _ t =>
          t.stage.succeeded = true → t.processed = true).mpr ⟨?_, fun id' _ => h.results id'⟩
        refine processed_of_next hnext (h.results id) (fun hopen hdrop => ?_)
        rw [h.signals.dropped id hopen hdrop] at hstarted
        cases hstarted
  · exact h

theorem backed_step (cfg : Config L) (h : Backed s) (event : Event L) :
    Backed (step cfg s event) := by
  cases event with
  | blockFinalized block =>
      rw [step]
      split
      · obtain ⟨hapart, hwaiting⟩ := selected_apart cfg
          { block with jobExists := fun hash => jobExists hash s.work } s.signing
        exact ⟨h.signals, hapart, hwaiting, h.results⟩
      · exact h
  | push handle => exact backed_push h handle
  | poll now => exact h.of_call (.poll now) rfl (signals_poll h.signals _ now)
  | clearEnqueuedTasks =>
      exact h.of_call .clearEnqueuedTasks rfl (signals_clearEnqueuedTasks h.signals)
  | deliverMessage message hash =>
      exact h.of_call (.deliverMessage message hash) rfl
        (signals_deliverMessage h.signals message hash)
  | keygenLock | keygenUnlock => exact ⟨h.signals, h.apart, h.waiting, h.results⟩
  | task id e => exact backed_taskStep h id e

end Results

end DkgSubstrate.SigningTasks
