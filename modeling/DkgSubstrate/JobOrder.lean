import DkgSubstrate.JobLiveness

/-!
The queue of the work manager over whole runs: the order in which its jobs are started, and what
becomes of a job that has waited for long.
-/

namespace DkgSubstrate.JobOrder

open DkgSubstrate.JobLiveness
open DkgSubstrate.Runs
open DkgSubstrate.SigningManager (signTimeout)
open DkgSubstrate.StoredMessages (sampleJob)
open DkgSubstrate.WorkManager

/-- The job that a call puts into the queue. -/
def enqueued (s : State) : Call → Option Job
  | .pushTask taskHash forceStart handle _ _ =>
      if forceStart then none else some ⟨s.nextId, taskHash, handle⟩
  | _ => none

def dequeued (maxTasks : ℕ) (s : State) : Call → List Job
  | .poll now => s.enqueuedTasks.take (tasksToStart maxTasks (retainActive now s))
  | _ => []

def startedFromQueue (maxTasks : ℕ) (s : State) : Call → List Job
  | .poll now => (startedJobs maxTasks s (.poll now)).map Prod.fst
  | _ => []

def discards : Call → Bool
  | .clearEnqueuedTasks | .forceShutdownAll => true
  | _ => false

variable {maxTasks : ℕ} {s : State} {call : Call} {calls : List Call}

theorem enqueuedTasks_startEnqueued (n : ℕ) (s : State) :
    (startEnqueued n s).enqueuedTasks = s.enqueuedTasks.drop n := by
  induction n generalizing s with
  | zero => rfl
  | succ n ih =>
      rw [startEnqueued]
      split
      · rename_i htasks
        rw [htasks, List.drop_nil]
      · rename_i job rest htasks
        rw [ih, enqueuedTasks_startJobUnconditional, htasks, List.drop_succ_cons]

theorem enqueuedTasks_poll (maxTasks now : ℕ) (s : State) :
    (step maxTasks s (.poll now)).enqueuedTasks =
      s.enqueuedTasks.drop (tasksToStart maxTasks (retainActive now s)) :=
  enqueuedTasks_startEnqueued _ (retainActive now s)

theorem startedEnqueued_sublist (n : ℕ) (s : State) :
    ((startedEnqueued n s).map Prod.fst).Sublist (s.enqueuedTasks.take n) := by
  induction n generalizing s with
  | zero => exact List.nil_sublist _
  | succ n ih =>
      rw [startedEnqueued]
      split
      · exact List.nil_sublist _
      · rename_i job rest htasks
        have hrest := ih (startJobUnconditional job { s with enqueuedTasks := rest })
        rw [enqueuedTasks_startJobUnconditional] at hrest
        rw [htasks, List.take_succ_cons, List.map_append]
        split
        · exact hrest.cons_cons job
        · exact hrest.cons job

theorem startedFromQueue_sublist (maxTasks : ℕ) (s : State) (call : Call) :
    (startedFromQueue maxTasks s call).Sublist (dequeued maxTasks s call) := by
  cases call with
  | poll now => exact startedEnqueued_sublist _ (retainActive now s)
  | pushTask | deliverMessage | clearEnqueuedTasks | forceShutdownAll | protocol =>
      exact List.Sublist.refl _

theorem queue_step (h : discards call = false) :
    dequeued maxTasks s call ++ (step maxTasks s call).enqueuedTasks =
      s.enqueuedTasks ++ (enqueued s call).toList := by
  cases call with
  | pushTask taskHash forceStart handle r hempty =>
      cases forceStart with
      | false => rfl
      | true =>
          have hstart : (step maxTasks s (.pushTask taskHash true handle r hempty)).enqueuedTasks =
              s.enqueuedTasks := enqueuedTasks_startJobUnconditional _ _
          rw [hstart]
          exact (List.append_nil _).symm
  | deliverMessage message messageTaskHash =>
      have hkept : (step maxTasks s (.deliverMessage message messageTaskHash)).enqueuedTasks =
          s.enqueuedTasks := by
        rw [step, deliverMessage]
        dsimp only
        split <;> rfl
      rw [hkept]
      exact (List.append_nil _).symm
  | poll now =>
      rw [enqueuedTasks_poll, dequeued, List.take_append_drop]
      exact (List.append_nil _).symm
  | clearEnqueuedTasks | forceShutdownAll => cases h
  | protocol id p => exact (List.append_nil _).symm

theorem queue_step_sublist (maxTasks : ℕ) (s : State) (call : Call) :
    (dequeued maxTasks s call ++ (step maxTasks s call).enqueuedTasks).Sublist
      (s.enqueuedTasks ++ (enqueued s call).toList) := by
  cases h : discards call with
  | false => rw [queue_step h]
  | true =>
      cases call with
      | clearEnqueuedTasks | forceShutdownAll => exact List.nil_sublist _
      | pushTask | deliverMessage | poll | protocol => cases h

theorem queue_run (h : ∀ call ∈ calls, discards call = false) :
    trace (step maxTasks) (dequeued maxTasks) s calls ++
        (run (step maxTasks) s calls).enqueuedTasks =
      s.enqueuedTasks ++
        trace (step maxTasks) (fun s call => (enqueued s call).toList) s calls := by
  induction calls generalizing s with
  | nil => exact (List.append_nil _).symm
  | cons call calls ih =>
      obtain ⟨hfirst, hrest⟩ := List.forall_mem_cons.mp h
      rw [trace, trace, run_cons, List.append_assoc, ih hrest, ← List.append_assoc,
        queue_step hfirst, List.append_assoc]

theorem queue_run_sublist (maxTasks : ℕ) (s : State) (calls : List Call) :
    (trace (step maxTasks) (dequeued maxTasks) s calls ++
        (run (step maxTasks) s calls).enqueuedTasks).Sublist
      (s.enqueuedTasks ++
        trace (step maxTasks) (fun s call => (enqueued s call).toList) s calls) := by
  induction calls generalizing s with
  | nil => rw [trace, trace, List.nil_append, List.append_nil]; exact List.Sublist.refl _
  | cons call calls ih =>
      rw [trace, trace, run_cons, List.append_assoc, ← List.append_assoc s.enqueuedTasks]
      refine ((List.Sublist.refl _).append (ih (step maxTasks s call))).trans ?_
      rw [← List.append_assoc]
      exact (queue_step_sublist maxTasks s call).append (List.Sublist.refl _)

theorem trace_started_sublist (maxTasks : ℕ) (s : State) (calls : List Call) :
    (trace (step maxTasks) (startedFromQueue maxTasks) s calls).Sublist
      (trace (step maxTasks) (dequeued maxTasks) s calls) := by
  induction calls generalizing s with
  | nil => exact List.Sublist.refl _
  | cons call calls ih =>
      rw [trace, trace]
      exact (startedFromQueue_sublist maxTasks s call).append (ih _)

theorem enqueued_pairwise (maxTasks : ℕ) (s : State) (calls : List Call) :
    (trace (step maxTasks) (fun s call => (enqueued s call).toList) s calls).Pairwise
      fun job job' => job.id < job'.id := by
  have hid : ∀ s call, ∀ job ∈ enqueued s call, job.id = s.nextId ∧ call.isPush = true := by
    intro s call job hjob
    cases call with
    | pushTask taskHash forceStart handle r hempty =>
        cases forceStart with
        | false =>
            obtain rfl := Option.some.inj hjob
            exact ⟨rfl, rfl⟩
        | true => cases hjob
    | deliverMessage | poll | clearEnqueuedTasks | forceShutdownAll | protocol => cases hjob
  refine (pairwise_trace enqueued (fun job job' => job.id < job'.id)
    (fun s job => job.id < s.nextId) ?_ ?_ ?_
    (stepsMeet_true _ s calls)).1
  · intro s call _ job hjob past hpast
    rw [(hid s call job hjob).1]
    exact hpast
  · intro s call _ past hpast
    rw [nextId_step]
    exact Nat.lt_add_right _ hpast
  · intro s call _ job hjob
    rw [nextId_step, (hid s call job hjob).1, (hid s call job hjob).2]
    exact Nat.lt_succ_self _

/-- Whatever is called in between, the jobs of the queue are started in the order in which they
were pushed, each of them once.  Unless the queue is dropped, no job gets lost. -/
theorem queue_fifo (maxTasks : ℕ) (calls : List Call) :
    (trace (step maxTasks) (startedFromQueue maxTasks) State.new calls).Sublist
        (trace (step maxTasks) (fun s call => (enqueued s call).toList) State.new calls) ∧
      (trace (step maxTasks) (fun s call => (enqueued s call).toList) State.new calls).Pairwise
        (fun job job' => job.id < job'.id) ∧
      ((∀ call ∈ calls, discards call = false) →
        trace (step maxTasks) (dequeued maxTasks) State.new calls ++
            (run (step maxTasks) State.new calls).enqueuedTasks =
          trace (step maxTasks) (fun s call => (enqueued s call).toList) State.new calls) := by
  refine ⟨?_, enqueued_pairwise maxTasks State.new calls, fun h => queue_run h⟩
  exact ((trace_started_sublist maxTasks State.new calls).trans
    (List.sublist_append_left _ _)).trans (queue_run_sublist maxTasks State.new calls)

theorem queue_fifo_samplePair :
    trace (step 1) (dequeued 1) State.new (samplePair ++ [.poll 100]) ++
        (run (step 1) State.new (samplePair ++ [.poll 100])).enqueuedTasks =
      trace (step 1) (fun s call => (enqueued s call).toList) State.new
        (samplePair ++ [.poll 100]) :=
  (queue_fifo 1 (samplePair ++ [.poll 100])).2.2 (by decide)

variable {now : ℕ} {job : Job}

theorem mem_enqueuedTasks_of_expired
    (hjob : job ∈ (step maxTasks s (.poll now)).activeTasks.jobs)
    (hexpired : job.handle.startedAt + signTimeout ≤ now) : job ∈ s.enqueuedTasks := by
  have hactive : job ∈ jobs (startEnqueued (tasksToStart maxTasks (retainActive now s))
      (retainActive now s)) := List.mem_append_left _ hjob
  have hcount := countP_startEnqueued (· == job) (tasksToStart maxTasks (retainActive now s))
    (retainActive now s)
  have hpos : 0 < (jobs (retainActive now s)).countP (· == job) :=
    hcount.trans_lt' (List.countP_pos_iff.mpr ⟨job, hactive, beq_self_eq_true job⟩)
  obtain ⟨other, hother, heq⟩ := List.countP_pos_iff.mp hpos
  obtain rfl := beq_iff_eq.mp heq
  rcases List.mem_append.mp hother with hkept | hwaiting
  · have hends : ends now s other = true := by
      rw [ends, signingHasStalled, decide_eq_true hexpired, Bool.or_true, Bool.true_or]
    have hruns := (List.mem_filter.mp hkept).2
    rw [hends] at hruns
    cases hruns
  · exact hwaiting

structure Left (id : ℕ) (s : State) : Prop where
  pushed : id < s.nextId
  left : ∀ job ∈ s.enqueuedTasks, id ≠ job.id

theorem left_step {id : ℕ} (h : Left id s) : Left id (step maxTasks s call) where
  pushed := by
    rw [nextId_step]
    exact Nat.lt_add_right _ h.pushed
  left := ne_of_mem_enqueuedTasks_step (Nat.ne_of_lt h.pushed) h.left

theorem left_of_dequeued (hids : Distinct s) (hjob : job ∈ dequeued maxTasks s (.poll now)) :
    Left job.id (step maxTasks s (.poll now)) where
  pushed := by
    rw [nextId_step]
    exact Nat.lt_add_right _
      (hids.lt_of_mem (List.mem_append_right _ (List.mem_of_mem_take hjob)))
  left := by
    have hnodup : (s.enqueuedTasks.map Job.id).Nodup := by
      have hall := hids.nodup
      rw [jobs, List.map_append] at hall
      exact hall.of_append_right
    rw [← List.take_append_drop (tasksToStart maxTasks (retainActive now s)) s.enqueuedTasks,
      List.map_append] at hnodup
    intro other hother
    have hdropped : other ∈ s.enqueuedTasks.drop (tasksToStart maxTasks (retainActive now s)) := by
      rw [← enqueuedTasks_poll]
      exact hother
    exact fun heq => List.disjoint_of_nodup_append hnodup (List.mem_map_of_mem hjob)
      (heq ▸ List.mem_map_of_mem hdropped)

/-- The time of a job runs from its creation.  When it is up, the next poll ends the job, however
long it has waited in the queue before it was started. -/
theorem expired_job_removed (maxTasks : ℕ) (before later : List Call) {started now : ℕ} {job : Job}
    (hstarted : job ∈ dequeued maxTasks (run (step maxTasks) State.new before) (.poll started))
    (hexpired : job.handle.startedAt + signTimeout ≤ now) :
    job ∉ (run (step maxTasks) State.new
      (before ++ .poll started :: (later ++ [.poll now]))).activeTasks.jobs := by
  rw [run_append, run_cons, run_append, run_cons, run_nil]
  intro hactive
  have hleft := left_of_dequeued (distinct_run maxTasks before) hstarted
  have hrun : Left job.id (run (step maxTasks)
      (step maxTasks (run (step maxTasks) State.new before) (.poll started)) later) :=
    invariant_run (Left job.id) (fun _ _ h _ => left_step h) hleft (stepsMeet_true _ _ later)
  exact hrun.left job (mem_enqueuedTasks_of_expired hactive hexpired) rfl

theorem expired_job_removed_samplePair :
    sampleJob 0 1 ∈ dequeued 1 (run (step 1) State.new samplePair) (.poll 130) ∧
      sampleJob 0 1 ∉ (run (step 1) State.new
        (samplePair ++ .poll 130 :: ([] ++ [.poll 130]))).activeTasks.jobs := by
  have hstarted : sampleJob 0 1 ∈ dequeued 1 (run (step 1) State.new samplePair) (.poll 130) := by
    decide +kernel
  exact ⟨hstarted, expired_job_removed 1 samplePair [] hstarted (by decide)⟩

end DkgSubstrate.JobOrder
