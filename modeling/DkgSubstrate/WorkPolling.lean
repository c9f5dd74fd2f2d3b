import DkgSubstrate.JobLiveness

/-!
One call of `poll`, with the stored messages in the maps that the work manager keeps them in: a
map of queues for every task hash.  A queue that is empty can be told apart from one that is
missing here, and the model without these maps is a view of this one.
-/

namespace DkgSubstrate.WorkPolling

open DkgSubstrate.IncomingMessages
open DkgSubstrate.JobLiveness
open DkgSubstrate.WorkManager hiding State retainActive deliverEnqueued insertActive
  startJobUnconditional startEnqueued removeOutdated tasksToStart poll

abbrev Queues := StorageMap UInt16 (List Envelope)

abbrev Messages := StorageMap TaskHash Queues

structure State where
  activeTasks : JobSet
  enqueuedTasks : List Job
  enqueuedMessages : Messages
  remotes : ℕ → Remote
  nextId : ℕ
  nextTag : ℕ

/-- The queues of a task hash are taken out of the map, and put back without that of the job
unless it was the last one. -/
def deliverEnqueued (job : Job) (s : State) : State :=
  match s.enqueuedMessages.lookup job.taskHash with
  | none => s
  | some queues =>
      let removed := s.enqueuedMessages.erase job.taskHash
      let r := match queues.lookup job.handle.ssid with
        | none => s.remotes job.id
        | some queue => drain job queue (s.remotes job.id)
      let queues := queues.erase job.handle.ssid
      { s with
        remotes := Function.update s.remotes job.id r
        enqueuedMessages := if queues.entries.isEmpty then removed
          else removed.insert job.taskHash queues }

def insertActive (job : Job) (s : State) : State :=
  match s.activeTasks.insert job with
  | some set => { s with activeTasks := set }
  | none => { s with remotes := Function.update s.remotes job.id (s.remotes job.id).drop }

def startJobUnconditional (job : Job) (s : State) : State :=
  let r := s.remotes job.id
  let s := { s with remotes := Function.update s.remotes job.id r.start }
  insertActive job (if r.starts then deliverEnqueued job s else s)

def startEnqueued : ℕ → State → State
  | 0, s => s
  | n + 1, s =>
      match s.enqueuedTasks with
      | [] => s
      | job :: rest =>
          startEnqueued n (startJobUnconditional job { s with enqueuedTasks := rest })

/-- The job has stalled or is done. -/
def ends (now : ℕ) (remotes : ℕ → Remote) (job : Job) : Bool :=
  signingHasStalled now job (remotes job.id) || (remotes job.id).isDone

def retainActive (now : ℕ) (s : State) : State :=
  { s with
    activeTasks := s.activeTasks.retain fun job => !ends now s.remotes job
    remotes := dropJobs (s.activeTasks.jobs.filter (ends now s.remotes))
      (shutdownStalled now s.activeTasks.jobs s.remotes) }

def isAcceptable (now : ℕ) (envelope : Envelope) : Bool :=
  associatedBlockIdAcceptable now envelope.message.msg.associatedBlockId

def retainAcceptable (now : ℕ) (messages : Messages) : Messages :=
  messages.mapValues fun queues => queues.mapValues fun queue => queue.filter (isAcceptable now)

/-- The queues that are empty. -/
def toRemove (messages : Messages) : List (TaskHash × UInt16) :=
  messages.entries.flatMap fun e =>
    (e.2.entries.filter fun q => q.2.isEmpty).map fun q => (e.1, q.1)

def removeQueue (messages : Messages) (key : TaskHash × UInt16) : Messages :=
  match messages.lookup key.1 with
  | none => messages
  | some queues => messages.insert key.1 (queues.erase key.2)

def removeOutdated (now : ℕ) (s : State) : State :=
  let retained := retainAcceptable now s.enqueuedMessages
  let removed := (toRemove retained).foldl removeQueue retained
  { s with enqueuedMessages := removed.retainValues fun queues => !queues.entries.isEmpty }

def tasksToStart (maxTasks : ℕ) (s : State) : ℕ := maxTasks - s.activeTasks.jobs.length

def poll (maxTasks now : ℕ) (s : State) : State :=
  let s := retainActive now s
  removeOutdated now (startEnqueued (tasksToStart maxTasks s) s)

def Messages.queue (messages : Messages) (hash : TaskHash) (ssid : UInt16) : List Envelope :=
  ((messages.lookup hash).bind fun queues => queues.lookup ssid).getD []

def State.view (s : State) : WorkManager.State where
  activeTasks := s.activeTasks
  enqueuedTasks := s.enqueuedTasks
  enqueuedMessages := Messages.queue s.enqueuedMessages
  remotes := s.remotes
  nextId := s.nextId
  nextTag := s.nextTag

section View

variable {s : State} {messages : Messages} {hash : TaskHash} {ssid : UInt16}

theorem queue_of_lookup {queues : Queues} (h : messages.lookup hash = some queues)
    (ssid : UInt16) : Messages.queue messages hash ssid = (queues.lookup ssid).getD [] := by
  rw [Messages.queue, h, Option.bind_some]

theorem queue_of_none (h : messages.lookup hash = none) (ssid : UInt16) :
    Messages.queue messages hash ssid = [] := by
  rw [Messages.queue, h]
  rfl

theorem queue_erase {hash' : TaskHash} :
    Messages.queue (messages.erase hash) hash' ssid =
      if hash' = hash then [] else Messages.queue messages hash' ssid := by
  rw [Messages.queue, StorageMap.lookup_erase_eq]
  split <;> rfl

theorem queue_insert {hash' : TaskHash} {queues : Queues} :
    Messages.queue (messages.insert hash queues) hash' ssid =
      if hash' = hash then (queues.lookup ssid).getD [] else
        Messages.queue messages hash' ssid := by
  rw [Messages.queue, StorageMap.lookup_insert_eq]
  split <;> rfl

theorem remotes_deliverEnqueued (job : Job) (s : State) :
    (deliverEnqueued job s).remotes = Function.update s.remotes job.id
      (drain job (Messages.queue s.enqueuedMessages job.taskHash job.handle.ssid)
        (s.remotes job.id)) := by
  rw [deliverEnqueued]
  split
  · rename_i hnone
    rw [queue_of_none hnone]
    exact (Function.update_eq_self job.id s.remotes).symm
  · rename_i queues hsome
    rw [queue_of_lookup hsome]
    cases queues.lookup job.handle.ssid with
    | none => rfl
    | some queue => rfl

theorem queue_putBack {hash' : TaskHash} {ssid' : UInt16} {queues : Queues}
    (h : messages.lookup hash = some queues) :
    Messages.queue (if (queues.erase ssid).entries.isEmpty then messages.erase hash
        else (messages.erase hash).insert hash (queues.erase ssid)) hash' ssid' =
      if hash' = hash ∧ ssid' = ssid then [] else Messages.queue messages hash' ssid' := by
  have herased : (if hash' = hash ∧ ssid' = ssid then [] else
      Messages.queue messages hash' ssid') = if hash' = hash then
        ((queues.erase ssid).lookup ssid').getD [] else Messages.queue messages hash' ssid' := by
    by_cases hhash : hash' = hash
    · subst hhash
      rw [queue_of_lookup h, StorageMap.lookup_erase_eq]
      by_cases hssid : ssid' = ssid
      · simp [hssid]
      · simp [hssid]
    · simp [hhash]
  rw [herased]
  cases hempty : (queues.erase ssid).entries.isEmpty with
  | true =>
      rw [if_pos rfl, queue_erase, StorageMap.isEmpty_entries_iff.mp hempty ssid', Option.getD_none]
  | false =>
      rw [if_neg Bool.false_ne_true, queue_insert, queue_erase]
      split <;> rfl

theorem queue_deliverEnqueued (job : Job) (s : State) (hash : TaskHash) (ssid : UInt16) :
    Messages.queue (deliverEnqueued job s).enqueuedMessages hash ssid =
      if hash = job.taskHash ∧ ssid = job.handle.ssid then []
      else Messages.queue s.enqueuedMessages hash ssid := by
  rw [deliverEnqueued]
  split
  · rename_i hnone
    split
    · rename_i hkey
      rw [hkey.1, queue_of_none hnone]
    · rfl
  · rename_i queues hsome
    exact queue_putBack hsome

theorem view_deliverEnqueued (job : Job) (s : State) :
    (deliverEnqueued job s).view = WorkManager.deliverEnqueued job s.view := by
  have hrest : (deliverEnqueued job s).view =
      { s.view with
        remotes := (deliverEnqueued job s).remotes
        enqueuedMessages := Messages.queue (deliverEnqueued job s).enqueuedMessages } := by
    rw [deliverEnqueued]
    split <;> rfl
  rw [hrest, remotes_deliverEnqueued]
  have hqueues : Messages.queue (deliverEnqueued job s).enqueuedMessages =
      (WorkManager.deliverEnqueued job s.view).enqueuedMessages := by
    funext hash ssid
    rw [queue_deliverEnqueued, WorkManager.deliverEnqueued, enqueuedMessages_setQueue]
    rfl
  rw [hqueues]
  rfl

theorem view_insertActive (job : Job) (s : State) :
    (insertActive job s).view = WorkManager.insertActive job s.view := by
  have hactive : s.view.activeTasks = s.activeTasks := rfl
  rw [insertActive, WorkManager.insertActive, hactive]
  cases s.activeTasks.insert job with
  | none => rfl
  | some set => rfl

theorem view_startJobUnconditional (job : Job) (s : State) :
    (startJobUnconditional job s).view = WorkManager.startJobUnconditional job s.view := by
  rw [startJobUnconditional, WorkManager.startJobUnconditional, view_insertActive]
  have hremotes : s.view.remotes = s.remotes := rfl
  rw [hremotes]
  cases (s.remotes job.id).starts with
  | false => rfl
  | true =>
      rw [if_pos rfl, if_pos rfl, view_deliverEnqueued]
      rfl

theorem view_startEnqueued (n : ℕ) (s : State) :
    (startEnqueued n s).view = WorkManager.startEnqueued n s.view := by
  induction n generalizing s with
  | zero => rfl
  | succ n ih =>
      have hqueue : s.view.enqueuedTasks = s.enqueuedTasks := rfl
      rw [startEnqueued, WorkManager.startEnqueued, hqueue]
      cases s.enqueuedTasks with
      | nil => rfl
      | cons job rest =>
          simp only
          rw [ih, view_startJobUnconditional]
          rfl

theorem mem_toRemove : (hash, ssid) ∈ toRemove messages ↔
    ∃ queues, messages.lookup hash = some queues ∧ queues.lookup ssid = some [] := by
  simp only [toRemove, List.mem_flatMap, List.mem_map, List.mem_filter, List.isEmpty_iff,
    Prod.mk.injEq]
  constructor
  · rintro ⟨⟨hash', queues⟩, hqueues, ⟨ssid', queue⟩, ⟨hqueue, rfl⟩, rfl, rfl⟩
    exact ⟨queues, AList.mem_lookup_iff.mpr hqueues, AList.mem_lookup_iff.mpr hqueue⟩
  · rintro ⟨queues, hqueues, hqueue⟩
    exact ⟨⟨hash, queues⟩, AList.mem_lookup_iff.mp hqueues, ⟨ssid, []⟩,
      ⟨AList.mem_lookup_iff.mp hqueue, rfl⟩, rfl, rfl⟩

theorem lookup_removeQueue (messages : Messages) (key : TaskHash × UInt16) (hash : TaskHash) :
    (removeQueue messages key).lookup hash =
      if hash = key.1 then (messages.lookup hash).map (·.erase key.2)
      else messages.lookup hash := by
  rw [removeQueue]
  split
  · rename_i hnone
    split
    · rename_i hhash
      rw [hhash, hnone]
      rfl
    · rfl
  · rename_i queues hsome
    rw [StorageMap.lookup_insert_eq]
    split
    · rename_i hhash
      rw [hhash, hsome]
      rfl
    · rfl

theorem lookup_foldl_removeQueue (keys : List (TaskHash × UInt16)) (messages : Messages)
    (hash : TaskHash) :
    (keys.foldl removeQueue messages).lookup hash = (messages.lookup hash).map fun queues =>
      (keys.filter fun key => hash = key.1).foldl (fun queues key => queues.erase key.2)
        queues := by
  induction keys generalizing messages with
  | nil => simp
  | cons key keys ih =>
      rw [List.foldl_cons, ih, lookup_removeQueue, List.filter_cons]
      by_cases hhash : hash = key.1
      · simp [hhash, Function.comp_def]
      · simp [hhash]

theorem lookup_removed (messages : Messages) (hash : TaskHash) {queues : Queues}
    (h : messages.lookup hash = some queues) :
    ∃ left : Queues, ((toRemove messages).foldl removeQueue messages).lookup hash = some left ∧
      ∀ ssid, left.lookup ssid = (queues.lookup ssid).filter fun queue => !queue.isEmpty := by
  refine ⟨_, by rw [lookup_foldl_removeQueue, h, Option.map_some], fun ssid => ?_⟩
  rw [StorageMap.lookup_foldl_erase Prod.snd]
  have hempty : (∃ key ∈ (toRemove messages).filter (fun key => hash = key.1), key.2 = ssid) ↔
      queues.lookup ssid = some [] := by
    constructor
    · rintro ⟨⟨hash', ssid'⟩, hkey, rfl⟩
      obtain ⟨hmem, hhash⟩ := List.mem_filter.mp hkey
      cases of_decide_eq_true hhash
      obtain ⟨queues', hqueues', hqueue⟩ := mem_toRemove.mp hmem
      cases h.symm.trans hqueues'
      exact hqueue
    · intro hqueue
      refine ⟨(hash, ssid), List.mem_filter.mpr ⟨mem_toRemove.mpr ⟨queues, h, hqueue⟩, ?_⟩, rfl⟩
      exact decide_eq_true rfl
  rw [if_congr hempty rfl rfl]
  cases queues.lookup ssid with
  | none => rfl
  | some queue =>
      cases queue with
      | nil => rfl
      | cons envelope rest => rw [if_neg (by simp), Option.filter_some]; rfl

theorem lookup_removeOutdated (now : ℕ) (s : State) {queues : Queues}
    (h : (removeOutdated now s).enqueuedMessages.lookup hash = some queues) :
    (∃ ssid, queues.lookup ssid ≠ none) ∧ ∀ ssid queue, queues.lookup ssid = some queue →
      queue ≠ [] := by
  rw [removeOutdated, StorageMap.lookup_retainValues, Option.filter_eq_some_iff] at h
  obtain ⟨hlookup, hnonempty⟩ := h
  refine ⟨?_, fun ssid queue hqueue => ?_⟩
  · by_contra hnone
    push Not at hnone
    rw [StorageMap.isEmpty_entries_iff.mpr hnone] at hnonempty
    cases hnonempty
  · cases hbefore : (retainAcceptable now s.enqueuedMessages).lookup hash with
    | none =>
        rw [lookup_foldl_removeQueue, hbefore] at hlookup
        cases hlookup
    | some before =>
        obtain ⟨left, hleft, hfilter⟩ := lookup_removed _ hash hbefore
        cases hleft.symm.trans hlookup
        rw [hfilter, Option.filter_eq_some_iff] at hqueue
        rintro rfl
        cases hqueue.2

theorem queue_removeOutdated (now : ℕ) (s : State) (hash : TaskHash) (ssid : UInt16) :
    Messages.queue (removeOutdated now s).enqueuedMessages hash ssid =
      (Messages.queue s.enqueuedMessages hash ssid).filter (isAcceptable now) := by
  have hretained : (retainAcceptable now s.enqueuedMessages).lookup hash =
      (s.enqueuedMessages.lookup hash).map fun queues =>
        queues.mapValues fun queue => queue.filter (isAcceptable now) :=
    StorageMap.lookup_mapValues
  cases hqueues : s.enqueuedMessages.lookup hash with
  | none =>
      rw [hqueues, Option.map_none] at hretained
      rw [queue_of_none hqueues, List.filter_nil]
      refine queue_of_none ?_ ssid
      rw [removeOutdated, StorageMap.lookup_retainValues, lookup_foldl_removeQueue, hretained]
      rfl
  | some queues =>
      rw [hqueues, Option.map_some] at hretained
      obtain ⟨left, hleft, hfilter⟩ := lookup_removed _ hash hretained
      have hqueue : (left.lookup ssid).getD [] =
          ((queues.lookup ssid).getD []).filter (isAcceptable now) := by
        rw [hfilter, StorageMap.lookup_mapValues]
        cases queues.lookup ssid with
        | none => rfl
        | some queue =>
            simp only [Option.map_some, Option.getD_some]
            cases queue.filter (isAcceptable now) with
            | nil => rfl
            | cons envelope rest => rfl
      rw [queue_of_lookup hqueues, ← hqueue, Messages.queue, removeOutdated,
        StorageMap.lookup_retainValues, hleft, Option.filter_some]
      cases hempty : left.entries.isEmpty with
      | true =>
          rw [StorageMap.isEmpty_entries_iff.mp hempty ssid]
          rfl
      | false => rfl

theorem view_poll (maxTasks now : ℕ) (s : State) :
    (poll maxTasks now s).view = WorkManager.poll maxTasks now s.view := by
  have hretain : (retainActive now s).view = WorkManager.retainActive now s.view := rfl
  have hremove : ∀ t : State, (removeOutdated now t).view =
      WorkManager.removeOutdated now t.view := by
    intro t
    have hqueues : Messages.queue (removeOutdated now t).enqueuedMessages =
        (WorkManager.removeOutdated now t.view).enqueuedMessages := by
      funext hash ssid
      exact queue_removeOutdated now t hash ssid
    have hrest : (removeOutdated now t).view =
        { t.view with enqueuedMessages :=
            Messages.queue (removeOutdated now t).enqueuedMessages } := rfl
    rw [hrest, hqueues]
    rfl
  rw [poll, hremove, view_startEnqueued, hretain]
  rfl

end View

def survivors (now : ℕ) (s : State) : List Job :=
  s.activeTasks.jobs.filter fun job => !ends now s.remotes job

/-- The jobs at the front of the queue for which there is room beside the survivors. -/
def started (maxTasks now : ℕ) (s : State) : List Job :=
  s.enqueuedTasks.take (maxTasks - (survivors now s).length)

/-- What holds after a call: the survivors and the started jobs are active, and the stored
messages are those that can still be delivered. -/
structure Polled (maxTasks now : ℕ) (s s' : State) : Prop where
  removed : ∀ job ∈ s.activeTasks.jobs,
    job ∉ s'.activeTasks.jobs ↔ ends now s.remotes job = true
  active : s'.activeTasks.jobs = (started maxTasks now s).reverse ++ survivors now s
  enqueued : s.enqueuedTasks = started maxTasks now s ++ s'.enqueuedTasks
  signalled : ∀ job ∈ started maxTasks now s, (s'.remotes job.id).startTx = false
  /-- A job is started only while there are fewer active ones. -/
  room : ∀ i < (started maxTasks now s).length,
    (startEnqueued i (retainActive now s)).activeTasks.jobs.length < maxTasks
  length_le : s'.activeTasks.jobs.length ≤ max maxTasks (survivors now s).length
  nonempty : ∀ hash queues, s'.enqueuedMessages.lookup hash = some queues →
    (∃ ssid, queues.lookup ssid ≠ none) ∧
      ∀ ssid queue, queues.lookup ssid = some queue → queue ≠ []
  acceptable : ∀ hash ssid, ∀ envelope ∈ Messages.queue s'.enqueuedMessages hash ssid,
    isAcceptable now envelope = true
  kept : ∀ hash ssid,
    Messages.queue s'.enqueuedMessages hash ssid =
        (Messages.queue s.enqueuedMessages hash ssid).filter (isAcceptable now) ∨
      Messages.queue s'.enqueuedMessages hash ssid = [] ∧
        ∃ job ∈ started maxTasks now s, job.taskHash = hash ∧ job.handle.ssid = ssid

section Start

variable {s : WorkManager.State}

theorem jobs_startEnqueued (h : ((jobs s).map Job.taskHash).Nodup) (n : ℕ) :
    (WorkManager.startEnqueued n s).activeTasks.jobs =
        (s.enqueuedTasks.take n).reverse ++ s.activeTasks.jobs ∧
      (WorkManager.startEnqueued n s).enqueuedTasks = s.enqueuedTasks.drop n := by
  induction n generalizing s with
  | zero => exact ⟨rfl, rfl⟩
  | succ n ih =>
      rw [WorkManager.startEnqueued]
      cases hqueue : s.enqueuedTasks with
      | nil => exact ⟨rfl, hqueue⟩
      | cons job rest =>
          simp only
          have hnew := HashesApart.notMem_active h hqueue
          rw [jobs, hqueue] at h
          rcases startJobUnconditional_cases job { s with enqueuedTasks := rest } with
            ⟨-, hactive, -⟩ | ⟨hold, -⟩
          · have hnext := ih (s := WorkManager.startJobUnconditional job
              { s with enqueuedTasks := rest }) (by
                rw [jobs, hactive, enqueuedTasks_startJobUnconditional]
                exact (List.perm_middle.symm.map Job.taskHash).nodup_iff.mpr h)
            rw [hactive, enqueuedTasks_startJobUnconditional] at hnext
            rw [hnext.1, hnext.2, List.take_succ_cons, List.reverse_cons, List.append_assoc]
            exact ⟨rfl, rfl⟩
          · exact absurd hold hnew

theorem startTx_startEnqueued_of_eq_false {id : ℕ} (h : (s.remotes id).startTx = false) (n : ℕ) :
    ((WorkManager.startEnqueued n s).remotes id).startTx = false := by
  refine invariant_startEnqueued (P := fun t => (t.remotes id).startTx = false) ?_ n h
  intro t job rest ht _
  by_cases hid : id = job.id
  · rw [hid]
    exact startTx_startJobUnconditional job _
  · rw [remotes_startJobUnconditional hid]
    exact ht

theorem startTx_startEnqueued {n : ℕ} {job : Job} (h : job ∈ s.enqueuedTasks.take n) :
    ((WorkManager.startEnqueued n s).remotes job.id).startTx = false := by
  induction n generalizing s with
  | zero => cases h
  | succ n ih =>
      rw [WorkManager.startEnqueued]
      split
      · rename_i hqueue
        rw [hqueue] at h
        cases h
      · rename_i first rest hqueue
        rw [hqueue, List.take_succ_cons] at h
        rcases List.mem_cons.mp h with rfl | hrest
        · exact startTx_startEnqueued_of_eq_false (startTx_startJobUnconditional job _) n
        · refine ih ?_
          rw [enqueuedTasks_startJobUnconditional]
          exact hrest

theorem enqueuedMessages_startJobUnconditional (job : Job) (s : WorkManager.State)
    (hash : TaskHash) (ssid : UInt16) :
    (WorkManager.startJobUnconditional job s).enqueuedMessages hash ssid =
        s.enqueuedMessages hash ssid ∨
      (WorkManager.startJobUnconditional job s).enqueuedMessages hash ssid = [] ∧
        job.taskHash = hash ∧ job.handle.ssid = ssid := by
  have hbefore : (WorkManager.startJobUnconditional job s).enqueuedMessages =
      (beforeInsert job s).enqueuedMessages := by
    rw [startJobUnconditional_eq]
    rcases insertActive_eq job (beforeInsert job s) with ⟨set, -, heq⟩ | ⟨-, heq⟩
    · rw [heq]
    · rw [heq]
      rfl
  rw [hbefore, beforeInsert]
  split
  · rw [WorkManager.deliverEnqueued, enqueuedMessages_setQueue]
    split
    · rename_i hkey
      exact .inr ⟨rfl, hkey.1.symm, hkey.2.symm⟩
    · exact .inl rfl
  · exact .inl rfl

theorem enqueuedMessages_startEnqueued (n : ℕ) (s : WorkManager.State) (hash : TaskHash)
    (ssid : UInt16) :
    (WorkManager.startEnqueued n s).enqueuedMessages hash ssid = s.enqueuedMessages hash ssid ∨
      (WorkManager.startEnqueued n s).enqueuedMessages hash ssid = [] ∧
        ∃ job ∈ s.enqueuedTasks.take n, job.taskHash = hash ∧ job.handle.ssid = ssid := by
  induction n generalizing s with
  | zero => exact .inl rfl
  | succ n ih =>
      rw [WorkManager.startEnqueued]
      split
      · exact .inl rfl
      · rename_i first rest hqueue
        rw [hqueue, List.take_succ_cons]
        have hstart := enqueuedMessages_startJobUnconditional first
          { s with enqueuedTasks := rest } hash ssid
        rcases ih (WorkManager.startJobUnconditional first { s with enqueuedTasks := rest }) with
          hsame | ⟨htaken, job, hjob, hkey⟩
        · rcases hstart with hfirst | ⟨hfirst, hkey⟩
          · exact .inl (hsame.trans hfirst)
          · exact .inr ⟨hsame.trans hfirst, first, List.mem_cons_self, hkey⟩
        · rw [enqueuedTasks_startJobUnconditional] at hjob
          exact .inr ⟨htaken, job, List.mem_cons_of_mem first hjob, hkey⟩

end Start

section Poll

variable {s : State}

theorem nodup_retainActive (h : ((jobs s.view).map Job.taskHash).Nodup) (now : ℕ) :
    ((jobs (retainActive now s).view).map Job.taskHash).Nodup := by
  have hsub : (jobs (retainActive now s).view).Sublist (jobs s.view) :=
    (List.filter_sublist).append_right s.enqueuedTasks
  exact h.sublist (hsub.map Job.taskHash)

theorem activeTasks_startEnqueued (h : ((jobs s.view).map Job.taskHash).Nodup) (now n : ℕ) :
    (startEnqueued n (retainActive now s)).activeTasks.jobs =
      (s.enqueuedTasks.take n).reverse ++ survivors now s := by
  have hjobs := (jobs_startEnqueued (nodup_retainActive h now) n).1
  rw [← view_startEnqueued] at hjobs
  exact hjobs

theorem length_started_le (maxTasks now : ℕ) (s : State) :
    (started maxTasks now s).length ≤ maxTasks - (survivors now s).length :=
  List.length_take_le _ _

theorem notMem_started (h : ((jobs s.view).map Job.taskHash).Nodup) {job : Job}
    (hjob : job ∈ s.activeTasks.jobs) (maxTasks now : ℕ) : job ∉ started maxTasks now s := by
  intro hstarted
  have hnodup : (s.activeTasks.jobs ++ s.enqueuedTasks).Nodup := h.of_map
  exact (List.nodup_append'.mp hnodup).2.2 hjob (List.mem_of_mem_take hstarted)

theorem queue_poll (maxTasks now : ℕ) (s : State) (hash : TaskHash) (ssid : UInt16) :
    Messages.queue (poll maxTasks now s).enqueuedMessages hash ssid =
        (Messages.queue s.enqueuedMessages hash ssid).filter (isAcceptable now) ∨
      Messages.queue (poll maxTasks now s).enqueuedMessages hash ssid = [] ∧
        ∃ job ∈ started maxTasks now s, job.taskHash = hash ∧ job.handle.ssid = ssid := by
  have hstart := enqueuedMessages_startEnqueued (tasksToStart maxTasks (retainActive now s))
    (retainActive now s).view hash ssid
  rw [← view_startEnqueued] at hstart
  rw [poll, queue_removeOutdated]
  rcases hstart with hsame | ⟨htaken, job, hjob, hkey⟩
  · left
    exact congrArg (List.filter (isAcceptable now)) hsame
  · refine .inr ⟨?_, job, hjob, hkey⟩
    exact congrArg (List.filter (isAcceptable now)) htaken

end Poll

/-- One call of `poll` removes the active jobs that have stalled or are done, starts jobs in the
order of their queue while there is room, and leaves only messages that can be delivered. -/
theorem polled_poll (maxTasks now : ℕ) (s : State)
    (h : ((jobs s.view).map Job.taskHash).Nodup) :
    Polled maxTasks now s (poll maxTasks now s) := by
  have hactive : (poll maxTasks now s).activeTasks.jobs =
      (started maxTasks now s).reverse ++ survivors now s :=
    activeTasks_startEnqueued h now _
  have hlength := length_started_le maxTasks now s
  refine ⟨?_, hactive, ?_, ?_, ?_, ?_, ?_, ?_, queue_poll maxTasks now s⟩
  · intro job hjob
    rw [hactive, List.mem_append, List.mem_reverse, or_iff_right (notMem_started h hjob _ _),
      survivors, List.mem_filter]
    simp [hjob]
  · have hdrop := (jobs_startEnqueued (nodup_retainActive h now)
      (tasksToStart maxTasks (retainActive now s))).2
    rw [← view_startEnqueued] at hdrop
    refine (List.take_append_drop (tasksToStart maxTasks (retainActive now s)) _).symm.trans ?_
    exact congrArg (started maxTasks now s ++ ·) hdrop.symm
  · intro job hjob
    have hsignal := startTx_startEnqueued (s := (retainActive now s).view) hjob
    rw [← view_startEnqueued] at hsignal
    exact hsignal
  · intro i hi
    rw [activeTasks_startEnqueued h, List.length_append, List.length_reverse]
    have htake : (s.enqueuedTasks.take i).length ≤ i := List.length_take_le _ _
    omega
  · rw [hactive, List.length_append, List.length_reverse]
    omega
  · intro hash queues hlookup
    exact lookup_removeOutdated now _ hlookup
  · intro hash ssid envelope henvelope
    rw [poll, queue_removeOutdated] at henvelope
    exact (List.mem_filter.mp henvelope).2

def sampleTaskHash (n : UInt8) : TaskHash := List.Vector.replicate 32 n

def sampleQueues (tag : ℕ) : Queues := AList.insert 0 [⟨tag, StoredMessages.sampleMessage 1⟩] ∅

def samplePolling : State where
  activeTasks := ((JobSet.empty.insert ⟨0, sampleTaskHash 0, ⟨1, 80, 0, 80⟩⟩).bind fun set =>
    set.insert ⟨1, sampleTaskHash 1, ⟨1, 100, 0, 100⟩⟩).getD JobSet.empty
  enqueuedTasks :=
    [⟨2, sampleTaskHash 2, ⟨1, 100, 0, 100⟩⟩, ⟨3, sampleTaskHash 3, ⟨1, 100, 0, 100⟩⟩]
  enqueuedMessages := AList.insert (sampleTaskHash 2) (sampleQueues 0)
    (AList.insert (sampleTaskHash 9) (sampleQueues 1) ∅)
  remotes _ := Remote.new
  nextId := 4
  nextTag := 2

theorem polled_samplePolling :
    ((poll 2 101 samplePolling).activeTasks.jobs.map Job.id = [2, 1] ∧
      (poll 2 101 samplePolling).enqueuedTasks.map Job.id = [3]) ∧
      Polled 2 101 samplePolling (poll 2 101 samplePolling) := by
  refine ⟨by decide +kernel, polled_poll 2 101 samplePolling ?_⟩
  decide +kernel

end DkgSubstrate.WorkPolling
