import DkgSubstrate.StoredMessages

/-!
Started jobs stay alive.  A job is active until its protocol is done or has stalled, unless
another job with the same task hash was active when it was started.
-/

namespace DkgSubstrate.JobLiveness

open DkgSubstrate.IncomingMessages
open DkgSubstrate.Runs
open DkgSubstrate.StoredMessages
open DkgSubstrate.WorkManager

/-- All jobs that have not been dropped. -/
def jobs (s : State) : List Job := s.activeTasks.jobs ++ s.enqueuedTasks

def pushedJobs (s : State) : Call → List Job
  | .pushTask taskHash _ handle _ _ => [⟨s.nextId, taskHash, handle⟩]
  | .deliverMessage .. | .poll _ | .clearEnqueuedTasks | .forceShutdownAll | .protocol .. => []

variable {maxTasks n : ℕ} {s : State} {job : Job} {call : Call}

theorem insert_eq_some {set set' : JobSet} (h : set.insert job = some set') :
    set'.jobs = job :: set.jobs := by
  rw [JobSet.insert] at h
  split at h
  · cases h
  · cases h
    rfl

theorem insert_eq_none {set : JobSet} (h : set.insert job = none) :
    job.taskHash ∈ set.jobs.map Job.taskHash := by
  rw [JobSet.insert] at h
  split at h
  · assumption
  · cases h

/-- The state in which a job is inserted. -/
def beforeInsert (job : Job) (s : State) : State :=
  let started := s.setRemote job.id (s.remotes job.id).start
  if (s.remotes job.id).starts then deliverEnqueued job started else started

theorem startJobUnconditional_eq (job : Job) (s : State) :
    startJobUnconditional job s = insertActive job (beforeInsert job s) := rfl

theorem activeTasks_beforeInsert (job : Job) (s : State) :
    (beforeInsert job s).activeTasks = s.activeTasks := by
  rw [beforeInsert]
  split <;> rfl

theorem apply_drain {β : Type} (f : Remote → β)
    (h : ∀ (r : Remote) (e : Envelope), f (r.deliverMessage e) = f r) (job : Job)
    (queue : List Envelope) (r : Remote) : f (drain job queue r) = f r := by
  induction queue generalizing r with
  | nil => rfl
  | cons e queue ih =>
      rw [drain, List.foldl_cons, ← drain, ih]
      split
      · exact h r e
      · rfl

theorem stop_drain (job : Job) (queue : List Envelope) (r : Remote) :
    (drain job queue r).stop = r.stop :=
  apply_drain Remote.stop Remote.stop_deliverMessage job queue r

theorem stop_beforeInsert (job : Job) (s : State) :
    ((beforeInsert job s).remotes job.id).stop = (s.remotes job.id).stop := by
  rw [beforeInsert]
  split
  · simp [deliverEnqueued, State.setQueue, stop_drain]
  · simp

theorem startTx_beforeInsert (job : Job) (s : State) :
    ((beforeInsert job s).remotes job.id).startTx = false := by
  rw [beforeInsert]
  split
  · simp only [deliverEnqueued, State.setQueue, remotes_setRemote, Function.update_self]
    exact apply_drain Remote.startTx Remote.startTx_deliverMessage job _ _
  · simp [Remote.start]

theorem remotes_beforeInsert {id : ℕ} (hid : id ≠ job.id) :
    (beforeInsert job s).remotes id = s.remotes id := by
  rw [beforeInsert]
  split
  · simp [deliverEnqueued, State.setQueue, hid]
  · simp [hid]

theorem startTx_startJobUnconditional (job : Job) (s : State) :
    ((startJobUnconditional job s).remotes job.id).startTx = false := by
  rw [startJobUnconditional_eq]
  refine Eq.trans ?_ (startTx_beforeInsert job s)
  rcases insertActive_eq job (beforeInsert job s) with ⟨set, -, heq⟩ | ⟨-, heq⟩
  · rw [heq]
  · rw [heq, remotes_setRemote]
    exact apply_update_remote Remote.startTx (Remote.startTx_drop _) job.id

theorem startJobUnconditional_cases (job : Job) (s : State) :
    (job.taskHash ∉ s.activeTasks.jobs.map Job.taskHash ∧
      (startJobUnconditional job s).activeTasks.jobs = job :: s.activeTasks.jobs ∧
      ((startJobUnconditional job s).remotes job.id).stop = (s.remotes job.id).stop) ∨
    (job.taskHash ∈ s.activeTasks.jobs.map Job.taskHash ∧
      (startJobUnconditional job s).activeTasks.jobs = s.activeTasks.jobs) := by
  rw [startJobUnconditional_eq]
  have hactive := activeTasks_beforeInsert job s
  rcases insertActive_eq job (beforeInsert job s) with ⟨set, hinsert, heq⟩ | ⟨hinsert, heq⟩
  · left
    rw [hactive] at hinsert
    rw [heq]
    refine ⟨?_, insert_eq_some hinsert, stop_beforeInsert job s⟩
    have hnodup := set.nodup
    rw [insert_eq_some hinsert, List.map_cons] at hnodup
    exact (List.nodup_cons.mp hnodup).1
  · right
    rw [hactive] at hinsert
    rw [heq]
    exact ⟨insert_eq_none hinsert, congrArg JobSet.jobs hactive⟩

theorem remotes_startJobUnconditional_self
    (hnew : job.taskHash ∉ s.activeTasks.jobs.map Job.taskHash) :
    (startJobUnconditional job s).remotes job.id = (beforeInsert job s).remotes job.id := by
  rw [startJobUnconditional_eq]
  rcases insertActive_eq job (beforeInsert job s) with ⟨set, -, heq⟩ | ⟨hinsert, -⟩
  · rw [heq]
  · rw [activeTasks_beforeInsert] at hinsert
    exact absurd (insert_eq_none hinsert) hnew

theorem remotes_startJobUnconditional {id : ℕ} (hid : id ≠ job.id) :
    (startJobUnconditional job s).remotes id = s.remotes id := by
  rw [startJobUnconditional_eq]
  refine Eq.trans ?_ (remotes_beforeInsert hid)
  rcases insertActive_eq job (beforeInsert job s) with ⟨set, -, heq⟩ | ⟨-, heq⟩
  · rw [heq]
  · rw [heq, remotes_setRemote, Function.update_of_ne hid]

theorem mem_active_startJobUnconditional {job' : Job} (h : job' ∈ s.activeTasks.jobs) :
    job' ∈ (startJobUnconditional job s).activeTasks.jobs := by
  rcases startJobUnconditional_cases job s with ⟨-, heq, -⟩ | ⟨-, heq⟩
  · rw [heq]
    exact List.mem_cons_of_mem job h
  · rw [heq]
    exact h

theorem countP_startJobUnconditional (p : Job → Bool) (job : Job) (s : State) :
    (jobs (startJobUnconditional job s)).countP p ≤ (jobs s).countP p + [job].countP p := by
  rw [jobs, jobs, enqueuedTasks_startJobUnconditional, List.countP_append, List.countP_append]
  rcases startJobUnconditional_cases job s with ⟨-, heq, -⟩ | ⟨-, heq⟩
  · rw [heq, List.countP_cons, List.countP_singleton]
    omega
  · rw [heq]
    omega

theorem countP_startEnqueued (p : Job → Bool) (n : ℕ) (s : State) :
    (jobs (startEnqueued n s)).countP p ≤ (jobs s).countP p := by
  refine invariant_startEnqueued (P := fun t => (jobs t).countP p ≤ (jobs s).countP p) ?_ n le_rfl
  intro t job rest ht htasks
  have hstart := countP_startJobUnconditional p job { t with enqueuedTasks := rest }
  refine (hstart.trans (Nat.le_of_eq ?_)).trans ht
  simp only [jobs, htasks, List.countP_append, List.countP_cons, List.countP_nil]
  omega

theorem countP_step (p : Job → Bool) (maxTasks : ℕ) (s : State) (call : Call) :
    (jobs (step maxTasks s call)).countP p ≤
      (jobs s).countP p + (pushedJobs s call).countP p := by
  cases call with
  | pushTask taskHash forceStart handle r hempty =>
      simp only [step, pushTask, pushedJobs]
      split
      · exact countP_startJobUnconditional p ⟨s.nextId, taskHash, handle⟩
          { s.setRemote s.nextId r with nextId := s.nextId + 1 }
      · simp [jobs, Nat.add_assoc]
  | deliverMessage message messageTaskHash =>
      simp only [step, deliverMessage, pushedJobs]
      split <;> exact Nat.le_refl _
  | poll now =>
      refine (countP_startEnqueued p _ (retainActive now s)).trans ?_
      rw [jobs, jobs, List.countP_append, List.countP_append]
      exact Nat.add_le_add_right List.filter_sublist.countP_le _
  | clearEnqueuedTasks => simp [step, clearEnqueuedTasks, jobs, Nat.add_assoc]
  | forceShutdownAll => simp [step, forceShutdownAll, jobs, JobSet.empty]
  | protocol id p => exact Nat.le_refl _

def Distinct (s : State) : Prop :=
  ∀ id, (jobs s).countP (fun job => job.id == id) ≤ if id < s.nextId then 1 else 0

theorem distinct_step (h : Distinct s) : Distinct (step maxTasks s call) := by
  intro id
  have hcount := countP_step (fun job => job.id == id) maxTasks s call
  refine uses_step (h id) (hcount.trans (Nat.add_le_add_left ?_ _))
  cases call with
  | pushTask taskHash forceStart handle r hempty =>
      exact Nat.le_of_eq (List.countP_singleton)
  | deliverMessage | poll | clearEnqueuedTasks | forceShutdownAll | protocol =>
      exact Nat.zero_le _

theorem Distinct.ne_of_active_enqueued (h : Distinct s) {job job' : Job}
    (hactive : job ∈ s.activeTasks.jobs) (henqueued : job' ∈ s.enqueuedTasks) :
    job.id ≠ job'.id := by
  intro heq
  have hcount := h job.id
  rw [jobs, List.countP_append] at hcount
  have hfirst : 0 < s.activeTasks.jobs.countP (fun j => j.id == job.id) :=
    List.countP_pos_iff.mpr ⟨job, hactive, beq_self_eq_true _⟩
  have hsecond : 0 < s.enqueuedTasks.countP (fun j => j.id == job.id) :=
    List.countP_pos_iff.mpr ⟨job', henqueued, by rw [heq]; exact beq_self_eq_true _⟩
  split at hcount <;> omega

theorem Distinct.lt_of_mem (h : Distinct s) {job : Job} (hjob : job ∈ jobs s) :
    job.id < s.nextId := by
  have hcount := h job.id
  have hpos : 0 < (jobs s).countP (fun j => j.id == job.id) :=
    List.countP_pos_iff.mpr ⟨job, hjob, beq_self_eq_true _⟩
  split at hcount
  · assumption
  · omega

theorem Distinct.nodup (h : Distinct s) : ((jobs s).map Job.id).Nodup := by
  rw [List.nodup_iff_count_le_one]
  intro id
  have hid := h id
  rw [List.count, List.countP_map]
  split at hid
  · exact hid
  · exact Nat.le_trans hid (Nat.zero_le 1)

theorem Distinct.ne_of_mem_rest {job job' : Job} {rest : List Job} (h : Distinct s)
    (htasks : s.enqueuedTasks = job :: rest) (hjob' : job' ∈ rest) : job'.id ≠ job.id := by
  have hnodup := h.nodup
  rw [jobs, htasks, List.map_append, List.map_cons] at hnodup
  have hrest := (List.nodup_cons.mp hnodup.of_append_right).1
  intro heq
  exact hrest (heq ▸ List.mem_map_of_mem hjob')

theorem Distinct.eq_of_id_eq (h : Distinct s) {job job' : Job} (hjob : job ∈ jobs s)
    (hjob' : job' ∈ jobs s) (heq : job.id = job'.id) : job = job' :=
  List.inj_on_of_nodup_map h.nodup hjob hjob' heq

/-- The job is active, and its handle has got no other signal than `stop`. -/
structure Alive (job : Job) (stop : Option ShutdownReason) (s : State) : Prop where
  active : job ∈ s.activeTasks.jobs
  signal : (s.remotes job.id).stop = stop

variable {stop : Option ShutdownReason}

theorem alive_startEnqueued (h : Alive job stop s)
    (hids : ∀ job' ∈ s.enqueuedTasks, job.id ≠ job'.id) : Alive job stop (startEnqueued n s) := by
  refine (invariant_startEnqueued (P := fun t => Alive job stop t ∧
    ∀ job' ∈ t.enqueuedTasks, job.id ≠ job'.id) ?_ n ⟨h, hids⟩).1
  rintro t first rest ⟨ht, hids⟩ htasks
  rw [htasks] at hids
  refine ⟨⟨mem_active_startJobUnconditional ht.active, ?_⟩, ?_⟩
  · rw [remotes_startJobUnconditional (hids first List.mem_cons_self)]
    exact ht.signal
  · rw [enqueuedTasks_startJobUnconditional]
    exact fun job' hjob' => hids job' (List.mem_cons_of_mem first hjob')

/-- The jobs that are started have different task hashes, and no active job has one of them. -/
def StartsApart (n : ℕ) (s : State) : Prop :=
  ((s.activeTasks.jobs ++ s.enqueuedTasks.take n).map Job.taskHash).Nodup

theorem alive_of_started (hids : (s.enqueuedTasks.map Job.id).Nodup) (hapart : StartsApart n s)
    {x : Job × Remote} (hx : x ∈ startedEnqueued n s) :
    Alive x.1 x.2.stop (startEnqueued n s) := by
  induction n generalizing s with
  | zero => cases hx
  | succ n ih =>
      rw [startedEnqueued] at hx
      rw [startEnqueued]
      cases htasks : s.enqueuedTasks with
      | nil =>
          rw [htasks] at hx
          cases hx
      | cons first rest =>
          rw [htasks] at hx hids
          rw [List.map_cons, List.nodup_cons] at hids
          rw [StartsApart, htasks, List.take_succ_cons] at hapart
          have hperm : (s.activeTasks.jobs ++ first :: rest.take n).Perm
              (first :: (s.activeTasks.jobs ++ rest.take n)) := List.perm_middle
          have hnodup := (hperm.map Job.taskHash).nodup hapart
          rcases startJobUnconditional_cases first { s with enqueuedTasks := rest } with
            ⟨hnew, hactive, hstop⟩ | ⟨hold, -⟩
          · rcases List.mem_append.mp hx with hfirst | hlater
            · have heq : x = (first, s.remotes first.id) := by
                split at hfirst
                · exact List.mem_singleton.mp hfirst
                · cases hfirst
              rw [heq]
              refine alive_startEnqueued ⟨?_, hstop⟩ ?_
              · rw [hactive]
                exact List.mem_cons_self
              · rw [enqueuedTasks_startJobUnconditional]
                intro job' hjob' hid
                exact hids.1 (hid ▸ List.mem_map_of_mem hjob')
            · refine ih ?_ ?_ hlater
              · rw [enqueuedTasks_startJobUnconditional]
                exact hids.2
              · rw [StartsApart, hactive, enqueuedTasks_startJobUnconditional]
                exact hnodup
          · -- No active job has the task hash.
            rw [List.map_append, List.map_cons, List.nodup_append'] at hapart
            exact absurd List.mem_cons_self (hapart.2.2 hold)

theorem dropJobs_of_ne {id : ℕ} {dropped : List Job} {remotes : ℕ → Remote}
    (h : ∀ job ∈ dropped, id ≠ job.id) : dropJobs dropped remotes id = remotes id := by
  induction dropped generalizing remotes with
  | nil => rfl
  | cons job dropped ih =>
      rw [dropJobs, List.foldl_cons, ← dropJobs]
      rw [ih fun job' hjob' => h job' (List.mem_cons_of_mem job hjob')]
      exact Function.update_of_ne (h job List.mem_cons_self) _ _

theorem shutdownStalled_of_not_stalled {now id : ℕ} {active : List Job} {remotes : ℕ → Remote}
    (h : ∀ job ∈ active, id = job.id → signingHasStalled now job (remotes id) = false) :
    shutdownStalled now active remotes id = remotes id := by
  induction active generalizing remotes with
  | nil => rfl
  | cons job active ih =>
      have hrest := fun job' hjob' => h job' (List.mem_cons_of_mem job hjob')
      rw [shutdownStalled, List.foldl_cons, ← shutdownStalled]
      split
      · rename_i hstalled
        have hne : id ≠ job.id := by
          rintro rfl
          rw [h job List.mem_cons_self rfl] at hstalled
          cases hstalled
        have hupdate : Function.update remotes job.id ((remotes job.id).shutdown .stalled) id =
            remotes id := Function.update_of_ne hne _ _
        rw [ih, hupdate]
        rw [hupdate]
        exact hrest
      · exact ih hrest

theorem remotes_retainActive (hids : Distinct s) (hactive : job ∈ s.activeTasks.jobs) {now : ℕ}
    (hruns : ends now s job = false) :
    (retainActive now s).remotes job.id = s.remotes job.id := by
  have hsame : ∀ job' ∈ s.activeTasks.jobs, job.id = job'.id → job' = job := by
    intro job' hjob' hid
    exact hids.eq_of_id_eq (List.mem_append_left _ hjob') (List.mem_append_left _ hactive)
      hid.symm
  rw [retainActive]
  dsimp only
  rw [dropJobs_of_ne, shutdownStalled_of_not_stalled]
  · intro job' hjob' hid
    rw [hsame job' hjob' hid]
    rw [ends, Bool.or_eq_false_iff] at hruns
    exact hruns.1
  · intro job' hjob' hid
    obtain ⟨hactive', hends⟩ := List.mem_filter.mp hjob'
    rw [hsame job' hactive' hid, hruns] at hends
    cases hends

theorem alive_retainActive (h : Alive job stop s) (hids : Distinct s) {now : ℕ}
    (hruns : ends now s job = false) : Alive job stop (retainActive now s) where
  active := by
    refine List.mem_filter.mpr ⟨h.active, ?_⟩
    rw [hruns]
    rfl
  signal := by
    rw [remotes_retainActive hids h.active hruns]
    exact h.signal

/-- A poll that finds the protocol of the job done or stalled, or a forced shutdown. -/
def endsIn (job : Job) (s : State) : Call → Bool
  | .poll now => ends now s job
  | .forceShutdownAll => true
  | _ => false

theorem alive_step (h : Alive job stop s) (hids : Distinct s)
    (hruns : endsIn job s call = false) : Alive job stop (step maxTasks s call) := by
  have hid : job.id ≠ s.nextId :=
    Nat.ne_of_lt (hids.lt_of_mem (List.mem_append_left _ h.active))
  have henqueued : ∀ job' ∈ s.enqueuedTasks, job.id ≠ job'.id :=
    fun job' hjob' => hids.ne_of_active_enqueued h.active hjob'
  cases call with
  | pushTask taskHash forceStart handle r hempty =>
      have hpushed : Alive job stop { s.setRemote s.nextId r with nextId := s.nextId + 1 } := by
        refine ⟨h.active, ?_⟩
        rw [← h.signal, remotes_setRemote, Function.update_of_ne hid]
      rw [step, pushTask]
      split
      · refine ⟨mem_active_startJobUnconditional hpushed.active, ?_⟩
        rw [remotes_startJobUnconditional hid]
        exact hpushed.signal
      · exact ⟨hpushed.active, hpushed.signal⟩
  | deliverMessage message messageTaskHash =>
      rw [step, deliverMessage]
      dsimp only
      split
      · rename_i job' hjob'
        refine ⟨h.active, ?_⟩
        rw [← h.signal, remotes_setRemote]
        exact apply_update_remote Remote.stop (Remote.stop_deliverMessage _ _) job.id
      · exact ⟨h.active, h.signal⟩
  | poll now =>
      have hstarted := alive_startEnqueued (n := tasksToStart maxTasks (retainActive now s))
        (alive_retainActive h hids hruns) henqueued
      exact ⟨hstarted.active, hstarted.signal⟩
  | clearEnqueuedTasks =>
      exact ⟨h.active, (congrArg Remote.stop (dropJobs_of_ne henqueued)).trans h.signal⟩
  | forceShutdownAll => cases hruns
  | protocol id p =>
      refine ⟨h.active, ?_⟩
      rw [← h.signal, step, remotes_setRemote]
      refine apply_update_remote Remote.stop ?_ job.id
      rfl

/-- No job is started while an active one has the same task hash, and no message is for an
enqueued job and for an active one. -/
def KeepsApart (maxTasks : ℕ) (s : State) : Call → Prop
  | .pushTask taskHash forceStart _ _ _ =>
      forceStart = true → taskHash ∉ s.activeTasks.jobs.map Job.taskHash
  | .deliverMessage message messageTaskHash =>
      ∀ job ∈ s.activeTasks.jobs, shouldDeliver job message messageTaskHash = true →
        ∀ job' ∈ s.enqueuedTasks, shouldDeliver job' message messageTaskHash = false
  | .poll now => StartsApart (tasksToStart maxTasks (retainActive now s)) (retainActive now s)
  | .clearEnqueuedTasks | .forceShutdownAll | .protocol .. => True

instance (maxTasks : ℕ) (s : State) : (call : Call) → Decidable (KeepsApart maxTasks s call)
  | .pushTask .. => inferInstanceAs (Decidable (_ → _))
  | .deliverMessage .. => inferInstanceAs (Decidable (∀ job ∈ _, _ → ∀ job' ∈ _, _))
  | .poll _ => inferInstanceAs (Decidable (List.Nodup _))
  | .clearEnqueuedTasks | .forceShutdownAll | .protocol .. => isTrue trivial

theorem alive_of_startedJobs (hids : Distinct s) (hapart : KeepsApart maxTasks s call)
    {x : Job × Remote} (hx : x ∈ startedJobs maxTasks s call) :
    Alive x.1 x.2.stop (step maxTasks s call) := by
  cases call with
  | pushTask taskHash forceStart handle r hempty =>
      cases forceStart with
      | false => cases hx
      | true =>
          have heq : x = (⟨s.nextId, taskHash, handle⟩, r) := by
            rw [startedJobs] at hx
            split at hx
            · exact List.mem_singleton.mp hx
            · cases hx
          rw [heq]
          rcases startJobUnconditional_cases ⟨s.nextId, taskHash, handle⟩
              { s.setRemote s.nextId r with nextId := s.nextId + 1 } with
            ⟨-, hactive, hstop⟩ | ⟨hold, -⟩
          · refine ⟨?_, ?_⟩
            · exact hactive ▸ List.mem_cons_self
            · refine hstop.trans ?_
              rw [remotes_setRemote, Function.update_self]
          · exact absurd hold (hapart rfl)
  | poll now =>
      have henqueued : ((retainActive now s).enqueuedTasks.map Job.id).Nodup :=
        hids.nodup.sublist ((List.sublist_append_right _ _).map Job.id)
      have hstarted := alive_of_started henqueued hapart hx
      exact ⟨hstarted.active, hstarted.signal⟩
  | deliverMessage | clearEnqueuedTasks | forceShutdownAll | protocol => cases hx

theorem taskHash_eq_of_shouldDeliver {message : SignedDKGMessage} {messageTaskHash : TaskHash}
    (h : shouldDeliver job message messageTaskHash = true) : job.taskHash = messageTaskHash := by
  simp only [shouldDeliver, Bool.and_eq_true, beq_iff_eq] at h
  exact h.1.1.2

theorem deliverMessage_of_active {message : SignedDKGMessage} {messageTaskHash : TaskHash}
    (hactive : job ∈ s.activeTasks.jobs)
    (hfor : shouldDeliver job message messageTaskHash = true)
    (hapart : KeepsApart maxTasks s (.deliverMessage message messageTaskHash)) :
    (deliverMessage message messageTaskHash s).remotes job.id =
      (s.remotes job.id).deliverMessage ⟨s.nextTag, message⟩ := by
  have henqueued : s.enqueuedTasks.find?
      (fun job => shouldDeliver job message messageTaskHash) = none := by
    rw [List.find?_eq_none]
    intro job' hjob'
    rw [hapart job hactive hfor job' hjob']
    exact Bool.false_ne_true
  have hfind : s.activeTasks.jobs.find?
      (fun job => shouldDeliver job message messageTaskHash) = some job := by
    have hsome : (s.activeTasks.jobs.find?
        fun job => shouldDeliver job message messageTaskHash).isSome = true :=
      List.find?_isSome.mpr ⟨job, hactive, hfor⟩
    obtain ⟨job', hjob'⟩ := Option.isSome_iff_exists.mp hsome
    -- Active jobs have different task hashes, and the message has one.
    have hfor' : shouldDeliver job' message messageTaskHash = true := by
      simpa using List.find?_some hjob'
    have hhash : job'.taskHash = job.taskHash :=
      (taskHash_eq_of_shouldDeliver hfor').trans (taskHash_eq_of_shouldDeliver hfor).symm
    rw [hjob', List.inj_on_of_nodup_map s.activeTasks.nodup
      (List.mem_of_find?_eq_some hjob') hactive hhash]
  simp only [deliverMessage, List.find?_append, henqueued, hfind, Option.none_or]
  exact Function.update_self _ _ _

theorem mem_received_deliverMessage {r : Remote} {e : Envelope} (h : r.takes e = true) :
    e ∈ (r.deliverMessage e).received := by
  rw [← List.count_pos_iff, Remote.count_received_deliverMessage, if_pos ⟨h, rfl⟩]
  exact Nat.succ_pos _

theorem distinct_run (maxTasks : ℕ) (calls : List Call) :
    Distinct (run (step maxTasks) State.new calls) := by
  refine invariant_run Distinct (fun _ _ h _ => distinct_step h) ?_ (stepsMeet_true _ _ calls)
  intro id
  exact Nat.zero_le _

/-- A job that has been started successfully is active, without a shutdown signal, until its
protocol is done or has stalled, and gets its messages. -/
theorem started_jobs_stay_alive (maxTasks : ℕ) (before later : List Call) (call : Call)
    (hapart : StepsMeet (step maxTasks) (KeepsApart maxTasks) State.new
      (before ++ call :: later))
    {x : Job × Remote}
    (hx : x ∈ startedJobs maxTasks (run (step maxTasks) State.new before) call)
    (hruns : StepsMeet (step maxTasks) (fun s call => endsIn x.1 s call = false)
      (step maxTasks (run (step maxTasks) State.new before) call) later) :
    let s := run (step maxTasks) State.new (before ++ call :: later)
    x.1 ∈ s.activeTasks.jobs ∧ (s.remotes x.1.id).stop = x.2.stop ∧
      ∀ message messageTaskHash, shouldDeliver x.1 message messageTaskHash = true →
        KeepsApart maxTasks s (.deliverMessage message messageTaskHash) →
        (s.remotes x.1.id).takes ⟨s.nextTag, message⟩ = true →
        ⟨s.nextTag, message⟩ ∈
          ((deliverMessage message messageTaskHash s).remotes x.1.id).received := by
  intro s
  have hstarted := alive_of_startedJobs (distinct_run maxTasks before)
    (hapart before call later rfl) hx
  have hdistinct : Distinct (step maxTasks (run (step maxTasks) State.new before) call) :=
    distinct_step (distinct_run maxTasks before)
  have halive : Alive x.1 x.2.stop s ∧ Distinct s := by
    change Alive x.1 x.2.stop (run (step maxTasks) State.new (before ++ call :: later)) ∧
      Distinct (run (step maxTasks) State.new (before ++ call :: later))
    rw [run_append, run_cons]
    exact invariant_run (fun t => Alive x.1 x.2.stop t ∧ Distinct t)
      (fun t c h hc => ⟨alive_step h.1 h.2 hc, distinct_step h.2⟩) ⟨hstarted, hdistinct⟩ hruns
  refine ⟨halive.1.active, halive.1.signal, ?_⟩
  intro message messageTaskHash hfor hdelivery htakes
  rw [deliverMessage_of_active halive.1.active hfor hdelivery]
  exact mem_received_deliverMessage htakes

theorem sampleJob_stays_alive :
    StepsMeet (step 2) (KeepsApart 2) State.new [sampleStart 1, .poll 100] ∧
      sampleJob 0 1 ∈ (run (step 2) State.new [sampleStart 1, .poll 100]).activeTasks.jobs := by
  have hapart : StepsMeet (step 2) (KeepsApart 2) State.new
      ([] ++ sampleStart 1 :: [.poll 100]) := by decide +kernel
  have halive := started_jobs_stay_alive 2 [] [.poll 100] (sampleStart 1) hapart
    (x := (sampleJob 0 1, Remote.new)) (by decide +kernel) (by decide +kernel)
  exact ⟨hapart, halive.1⟩

theorem startEnqueued_of_ne {id : ℕ} (h : ∀ job ∈ s.enqueuedTasks, id ≠ job.id) :
    (startEnqueued n s).remotes id = s.remotes id ∧
      ∀ job ∈ (startEnqueued n s).enqueuedTasks, id ≠ job.id := by
  refine invariant_startEnqueued (P := fun t => t.remotes id = s.remotes id ∧
    ∀ job ∈ t.enqueuedTasks, id ≠ job.id) ?_ n ⟨rfl, h⟩
  rintro t first rest ⟨hremote, hids⟩ htasks
  rw [htasks] at hids
  refine ⟨?_, ?_⟩
  · rw [remotes_startJobUnconditional (hids first List.mem_cons_self)]
    exact hremote
  · rw [enqueuedTasks_startJobUnconditional]
    exact fun job hjob => hids job (List.mem_cons_of_mem first hjob)

theorem startTx_step {id : ℕ} (hnext : id ≠ s.nextId)
    (hdropped : ∀ job ∈ s.enqueuedTasks, id ≠ job.id) :
    ((step maxTasks s call).remotes id).startTx = (s.remotes id).startTx := by
  cases call with
  | pushTask taskHash forceStart handle r hempty =>
      have hpushed : ({ s.setRemote s.nextId r with nextId := s.nextId + 1 }).remotes id =
          s.remotes id := Function.update_of_ne hnext _ _
      rw [← hpushed, step, pushTask]
      split
      · rw [remotes_startJobUnconditional hnext]
      · rfl
  | deliverMessage message messageTaskHash =>
      rw [step, deliverMessage]
      dsimp only
      split
      · exact apply_update_remote Remote.startTx (Remote.startTx_deliverMessage _ _) id
      · rfl
  | poll now =>
      have hstarted := startEnqueued_of_ne (n := tasksToStart maxTasks (retainActive now s))
        (s := retainActive now s) hdropped
      refine (congrArg Remote.startTx hstarted.1).trans ?_
      exact (apply_dropJobs Remote.startTx Remote.startTx_drop _ _ id).trans
        (apply_shutdownStalled Remote.startTx (fun r => Remote.startTx_shutdown r _) _ _ _ id)
  | clearEnqueuedTasks => exact apply_dropJobs Remote.startTx Remote.startTx_drop _ _ id
  | forceShutdownAll =>
      exact (apply_dropJobs Remote.startTx Remote.startTx_drop _ _ id).trans
        (apply_dropJobs Remote.startTx Remote.startTx_drop _ _ id)
  | protocol id' p =>
      rw [step, remotes_setRemote]
      refine apply_update_remote Remote.startTx ?_ id
      rfl

theorem ne_of_mem_enqueuedTasks_step {id : ℕ} (hnext : id ≠ s.nextId)
    (hdropped : ∀ job ∈ s.enqueuedTasks, id ≠ job.id) :
    ∀ job ∈ (step maxTasks s call).enqueuedTasks, id ≠ job.id := by
  cases call with
  | pushTask taskHash forceStart handle r hempty =>
      rw [step, pushTask]
      split
      · rw [enqueuedTasks_startJobUnconditional]
        exact hdropped
      · intro job hjob
        rcases List.mem_append.mp hjob with hold | hnew
        · exact hdropped job hold
        · rw [List.mem_singleton.mp hnew]
          exact hnext
  | deliverMessage message messageTaskHash =>
      rw [step, deliverMessage]
      dsimp only
      split <;> exact hdropped
  | poll now => exact (startEnqueued_of_ne (s := retainActive now s) hdropped).2
  | clearEnqueuedTasks | forceShutdownAll => exact fun job hjob => absurd hjob List.not_mem_nil
  | protocol id' p => exact hdropped

/-- The job was pushed, and it is neither started nor waits to be. -/
structure Dormant (id : ℕ) (s : State) : Prop where
  pushed : id < s.nextId
  unstarted : (s.remotes id).startTx = true
  dropped : ∀ job ∈ s.enqueuedTasks, id ≠ job.id

theorem dormant_step {id : ℕ} (h : Dormant id s) : Dormant id (step maxTasks s call) := by
  have hnext : id ≠ s.nextId := Nat.ne_of_lt h.pushed
  refine ⟨?_, ?_, ne_of_mem_enqueuedTasks_step hnext h.dropped⟩
  · rw [nextId_step]
    exact Nat.lt_add_right _ h.pushed
  · rw [startTx_step hnext h.dropped]
    exact h.unstarted

theorem jobExists_eq_false_iff {taskHash : TaskHash} :
    jobExists taskHash s = false ↔ ∀ job ∈ jobs s, job.taskHash ≠ taskHash := by
  rw [jobExists, ← List.any_append, List.any_eq_false]
  refine forall_congr' fun job => imp_congr_right fun _ => ?_
  rw [beq_iff_eq]

def pushesNew (s : State) : Call → Bool
  | .pushTask taskHash _ _ _ _ => !jobExists taskHash s
  | _ => true

def HashesApart (s : State) : Prop := ((jobs s).map Job.taskHash).Nodup

theorem HashesApart.notMem_active {rest : List Job} (h : HashesApart s)
    (htasks : s.enqueuedTasks = job :: rest) :
    job.taskHash ∉ s.activeTasks.jobs.map Job.taskHash := by
  rw [HashesApart, jobs, htasks, List.map_append, List.map_cons, List.nodup_append'] at h
  exact fun hactive => h.2.2 hactive List.mem_cons_self

theorem hashesApart_iff :
    HashesApart s ↔ ∀ hash, (jobs s).countP (fun job => job.taskHash == hash) ≤ 1 := by
  rw [HashesApart, List.nodup_iff_count_le_one]
  refine forall_congr' fun hash => ?_
  rw [List.count, List.countP_map]
  rfl

theorem hashesApart_step (h : HashesApart s) (hnew : pushesNew s call = true) :
    HashesApart (step maxTasks s call) := by
  rw [hashesApart_iff] at h ⊢
  intro hash
  have hcount := countP_step (fun job => job.taskHash == hash) maxTasks s call
  have hhash := h hash
  cases call with
  | pushTask taskHash forceStart handle r hempty =>
      rw [pushedJobs, List.countP_singleton] at hcount
      by_cases heq : taskHash = hash
      · have hnone : (jobs s).countP (fun job => job.taskHash == hash) = 0 := by
          rw [pushesNew, Bool.not_eq_true', jobExists_eq_false_iff, heq] at hnew
          simpa using hnew
        split at hcount <;> omega
      · rw [if_neg (by simpa using heq)] at hcount
        omega
  | deliverMessage | poll | clearEnqueuedTasks | forceShutdownAll | protocol =>
      exact hcount.trans hhash

theorem keepsApart_of_hashesApart (h : HashesApart s) (hnew : pushesNew s call = true) :
    KeepsApart maxTasks s call := by
  cases call with
  | pushTask taskHash forceStart handle r hempty =>
      intro _ hmem
      rw [pushesNew, Bool.not_eq_true', jobExists_eq_false_iff] at hnew
      obtain ⟨job, hjob, heq⟩ := List.mem_map.mp hmem
      exact hnew job (List.mem_append_left _ hjob) heq
  | deliverMessage message messageTaskHash =>
      intro job hjob hfor job' hjob'
      rw [Bool.eq_false_iff]
      intro hfor'
      rw [HashesApart, jobs, List.map_append, List.nodup_append'] at h
      refine h.2.2 (List.mem_map_of_mem hjob) ?_
      rw [taskHash_eq_of_shouldDeliver hfor, ← taskHash_eq_of_shouldDeliver hfor']
      exact List.mem_map_of_mem hjob'
  | poll now =>
      have hsublist : ((retainActive now s).activeTasks.jobs ++
          (retainActive now s).enqueuedTasks.take
            (tasksToStart maxTasks (retainActive now s))).Sublist (jobs s) :=
        List.filter_sublist.append (List.take_sublist _ _)
      exact h.sublist (hsublist.map Job.taskHash)
  | clearEnqueuedTasks | forceShutdownAll | protocol => trivial

theorem stepsMeet_keepsApart (maxTasks : ℕ) (calls : List Call)
    (hnew : StepsMeet (step maxTasks) (fun s call => pushesNew s call = true) State.new calls) :
    StepsMeet (step maxTasks) (KeepsApart maxTasks) State.new calls :=
  stepsMeet_of_invariant HashesApart (fun _ _ h hcall => hashesApart_step h hcall)
    (fun _ _ h hcall => keepsApart_of_hashesApart h hcall) List.nodup_nil hnew

def samplePair : List Call :=
  [.pushTask sampleTask false (sampleJob 0 1).handle Remote.new Remote.received_new,
    .pushTask sampleTask false (sampleJob 1 1).handle Remote.new Remote.received_new]

theorem samplePair_not_alive :
    (sampleJob 1 1, Remote.new) ∈ startedJobs 2 (run (step 2) State.new samplePair) (.poll 100) ∧
      (run (step 2) State.new (samplePair ++ [.poll 100])).activeTasks.jobs = [sampleJob 0 1] ∧
      ((run (step 2) State.new (samplePair ++ [.poll 100])).remotes 1).stop = some .dropCode := by
  decide +kernel

end DkgSubstrate.JobLiveness
