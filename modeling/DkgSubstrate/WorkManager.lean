import DkgSubstrate.IncomingMessages
import DkgSubstrate.Runs
import DkgSubstrate.SigningManager

/-!
The work manager, which queues and starts the protocols of a node and hands them their
messages.  Messages for protocols that do not exist yet are stored.  A protocol runs on its own
and changes its status at any time.
-/

namespace DkgSubstrate.WorkManager

open DkgSubstrate.IncomingMessages
open DkgSubstrate.Primitives
open DkgSubstrate.SigningManager

abbrev TaskHash := FixedBytes 32

inductive MetaHandlerStatus where
  | beginning
  | keygen
  | awaitingProposals
  | offlineAndVoting
  | complete
  | terminated
deriving DecidableEq

inductive ShutdownReason where
  | stalled
  | dropCode
deriving DecidableEq

structure Envelope where
  tag : ℕ
  message : SignedDKGMessage
deriving DecidableEq

def Envelope.isVote (envelope : Envelope) : Bool :=
  envelope.message.msg.payload matches .vote _

/-- What all handles of a protocol share.  The senders are taken when a signal is sent, and the
receivers are dropped by the protocol.  The channels keep all that was sent over them. -/
structure Remote where
  status : MetaHandlerStatus
  startTx : Bool
  startRx : Bool
  stopTx : Bool
  stopRx : Bool
  stop : Option ShutdownReason
  rxKeygenSigning : Bool
  rxVoting : Bool
  keygenSigning : List Envelope
  voting : List Envelope
deriving DecidableEq

namespace Remote

def new : Remote where
  status := .beginning
  startTx := true
  startRx := true
  stopTx := true
  stopRx := true
  stop := none
  rxKeygenSigning := true
  rxVoting := true
  keygenSigning := []
  voting := []

def isDone (r : Remote) : Bool :=
  r.status matches .terminated | .complete

/-- A message that the protocol does not take is logged and lost. -/
def takes (r : Remote) (envelope : Envelope) : Bool :=
  !r.isDone && if envelope.isVote then r.rxVoting else r.rxKeygenSigning

def deliverMessage (r : Remote) (envelope : Envelope) : Remote :=
  if r.takes envelope = false then r
  else if envelope.isVote then { r with voting := r.voting ++ [envelope] }
  else { r with keygenSigning := r.keygenSigning ++ [envelope] }

def starts (r : Remote) : Bool := r.startTx && r.startRx

def start (r : Remote) : Remote := { r with startTx := false }

def shutdown (r : Remote) (reason : ShutdownReason) : Remote :=
  if r.stopTx then
    { r with
      stopTx := false
      stop := if r.stopRx then some reason else r.stop }
  else r

/-- The job is dropped first and then its handle, which is the primary one. -/
def drop (r : Remote) : Remote :=
  let r := r.shutdown .dropCode
  let r := if r.status = .complete then r else { r with status := .terminated }
  r.shutdown .dropCode

def received (r : Remote) : List Envelope := r.keygenSigning ++ r.voting

theorem received_new : new.received = [] := rfl

@[simp] theorem received_start (r : Remote) : r.start.received = r.received := rfl

@[simp] theorem takes_start (r : Remote) (envelope : Envelope) :
    r.start.takes envelope = r.takes envelope := rfl

@[simp] theorem stop_start (r : Remote) : r.start.stop = r.stop := rfl

@[simp] theorem received_shutdown (r : Remote) (reason : ShutdownReason) :
    (r.shutdown reason).received = r.received := by
  rw [shutdown]
  split <;> rfl

@[simp] theorem received_drop (r : Remote) : r.drop.received = r.received := by
  rw [drop, received_shutdown]
  split
  · exact received_shutdown r .dropCode
  · exact received_shutdown r .dropCode

@[simp] theorem startTx_shutdown (r : Remote) (reason : ShutdownReason) :
    (r.shutdown reason).startTx = r.startTx := by
  rw [shutdown]
  split <;> rfl

@[simp] theorem startTx_drop (r : Remote) : r.drop.startTx = r.startTx := by
  rw [drop, startTx_shutdown]
  split
  · exact startTx_shutdown r .dropCode
  · exact startTx_shutdown r .dropCode

@[simp] theorem startTx_deliverMessage (r : Remote) (envelope : Envelope) :
    (r.deliverMessage envelope).startTx = r.startTx := by
  rw [deliverMessage]
  split
  · rfl
  · split <;> rfl

@[simp] theorem takes_deliverMessage (r : Remote) (envelope envelope' : Envelope) :
    (r.deliverMessage envelope).takes envelope' = r.takes envelope' := by
  rw [deliverMessage]
  split
  · rfl
  · split <;> rfl

@[simp] theorem stop_deliverMessage (r : Remote) (envelope : Envelope) :
    (r.deliverMessage envelope).stop = r.stop := by
  rw [deliverMessage]
  split
  · rfl
  · split <;> rfl

theorem count_received_deliverMessage (r : Remote) (envelope envelope' : Envelope) :
    (r.deliverMessage envelope).received.count envelope' =
      r.received.count envelope' +
        if r.takes envelope = true ∧ envelope = envelope' then 1 else 0 := by
  rw [deliverMessage]
  cases htakes : r.takes envelope with
  | false => simp
  | true =>
      simp only [Bool.true_eq_false, if_false, true_and]
      split
      · simp only [received, List.count_append, List.count_singleton, beq_iff_eq]
        omega
      · simp only [received, List.count_append, List.count_singleton, beq_iff_eq]
        omega

end Remote

structure Handle where
  sessionId : ℕ
  associatedBlockId : ℕ
  ssid : UInt16
  startedAt : ℕ
deriving DecidableEq

/-- The jobs are numbered in the order in which they are pushed. -/
structure Job where
  id : ℕ
  taskHash : TaskHash
  handle : Handle
deriving DecidableEq

structure JobSet where
  jobs : List Job
  nodup : (jobs.map Job.taskHash).Nodup

namespace JobSet

def empty : JobSet := ⟨[], List.nodup_nil⟩

def retain (set : JobSet) (p : Job → Bool) : JobSet where
  jobs := set.jobs.filter p
  nodup := set.nodup.sublist (List.filter_sublist.map Job.taskHash)

def insert (set : JobSet) (job : Job) : Option JobSet :=
  if h : job.taskHash ∈ set.jobs.map Job.taskHash then none
  else some ⟨job :: set.jobs, List.nodup_cons.mpr ⟨h, set.nodup⟩⟩

end JobSet

/-- A queue of messages that is empty is not told apart from one that is missing. -/
structure State where
  activeTasks : JobSet
  enqueuedTasks : List Job
  enqueuedMessages : TaskHash → UInt16 → List Envelope
  remotes : ℕ → Remote
  nextId : ℕ
  nextTag : ℕ

def State.new : State where
  activeTasks := JobSet.empty
  enqueuedTasks := []
  enqueuedMessages _ _ := []
  remotes _ := Remote.new
  nextId := 0
  nextTag := 0

def State.setRemote (s : State) (id : ℕ) (r : Remote) : State :=
  { s with remotes := Function.update s.remotes id r }

def State.setQueue (s : State) (hash : TaskHash) (ssid : UInt16) (queue : List Envelope) :
    State :=
  { s with
    enqueuedMessages := Function.update s.enqueuedMessages hash
      (Function.update (s.enqueuedMessages hash) ssid queue) }

theorem enqueuedMessages_setQueue (s : State) (hash hash' : TaskHash) (ssid ssid' : UInt16)
    (queue : List Envelope) :
    (s.setQueue hash ssid queue).enqueuedMessages hash' ssid' =
      if hash' = hash ∧ ssid' = ssid then queue else s.enqueuedMessages hash' ssid' := by
  by_cases hhash : hash' = hash
  · subst hhash
    simp [State.setQueue, Function.update_apply]
  · simp [State.setQueue, hhash]

@[simp] theorem remotes_setRemote (s : State) (id : ℕ) (r : Remote) :
    (s.setRemote id r).remotes = Function.update s.remotes id r := rfl

@[simp] theorem enqueuedMessages_setRemote (s : State) (id : ℕ) (r : Remote) :
    (s.setRemote id r).enqueuedMessages = s.enqueuedMessages := rfl

@[simp] theorem enqueuedTasks_setRemote (s : State) (id : ℕ) (r : Remote) :
    (s.setRemote id r).enqueuedTasks = s.enqueuedTasks := rfl

@[simp] theorem activeTasks_setRemote (s : State) (id : ℕ) (r : Remote) :
    (s.setRemote id r).activeTasks = s.activeTasks := rfl

@[simp] theorem nextId_setRemote (s : State) (id : ℕ) (r : Remote) :
    (s.setRemote id r).nextId = s.nextId := rfl

@[simp] theorem nextTag_setRemote (s : State) (id : ℕ) (r : Remote) :
    (s.setRemote id r).nextTag = s.nextTag := rfl

def signingHasStalled (now : ℕ) (job : Job) (r : Remote) : Bool :=
  r.status matches .terminated || decide (job.handle.startedAt + signTimeout ≤ now)

def shouldDeliver (task : Job) (message : SignedDKGMessage) (messageTaskHash : TaskHash) :
    Bool :=
  task.handle.sessionId == message.msg.sessionId &&
    task.taskHash == messageTaskHash &&
    task.handle.ssid == message.msg.ssid &&
    associatedBlockIdAcceptable task.handle.associatedBlockId message.msg.associatedBlockId

def dropJobs (jobs : List Job) (remotes : ℕ → Remote) : ℕ → Remote :=
  jobs.foldl (fun remotes job => Function.update remotes job.id (remotes job.id).drop) remotes

def drain (job : Job) (queue : List Envelope) (r : Remote) : Remote :=
  queue.foldl (fun r envelope =>
    if shouldDeliver job envelope.message job.taskHash then r.deliverMessage envelope else r) r

/-- The messages that the job does not get are lost. -/
def deliverEnqueued (job : Job) (s : State) : State :=
  let queue := s.enqueuedMessages job.taskHash job.handle.ssid
  (s.setRemote job.id (drain job queue (s.remotes job.id))).setQueue job.taskHash
    job.handle.ssid []

/-- A job is dropped when an equal one is active. -/
def insertActive (job : Job) (s : State) : State :=
  match s.activeTasks.insert job with
  | some set => { s with activeTasks := set }
  | none => s.setRemote job.id (s.remotes job.id).drop

/-- The job becomes active even if it could not be started. -/
def startJobUnconditional (job : Job) (s : State) : State :=
  let r := s.remotes job.id
  let s := s.setRemote job.id r.start
  insertActive job (if r.starts then deliverEnqueued job s else s)

def startEnqueued : ℕ → State → State
  | 0, s => s
  | n + 1, s =>
      match s.enqueuedTasks with
      | [] => s
      | job :: rest =>
          startEnqueued n (startJobUnconditional job { s with enqueuedTasks := rest })

def ends (now : ℕ) (s : State) (job : Job) : Bool :=
  signingHasStalled now job (s.remotes job.id) || (s.remotes job.id).isDone

def shutdownStalled (now : ℕ) (jobs : List Job) (remotes : ℕ → Remote) : ℕ → Remote :=
  jobs.foldl (fun remotes job =>
    if signingHasStalled now job (remotes job.id) then
      Function.update remotes job.id ((remotes job.id).shutdown .stalled)
    else remotes) remotes

def retainActive (now : ℕ) (s : State) : State :=
  { s with
    activeTasks := s.activeTasks.retain fun job => !ends now s job
    remotes := dropJobs (s.activeTasks.jobs.filter (ends now s))
      (shutdownStalled now s.activeTasks.jobs s.remotes) }

def removeOutdated (now : ℕ) (s : State) : State :=
  { s with
    enqueuedMessages := fun hash ssid => (s.enqueuedMessages hash ssid).filter fun envelope =>
      associatedBlockIdAcceptable now envelope.message.msg.associatedBlockId }

def tasksToStart (maxTasks : ℕ) (s : State) : ℕ := maxTasks - s.activeTasks.jobs.length

def poll (maxTasks now : ℕ) (s : State) : State :=
  let s := retainActive now s
  removeOutdated now (startEnqueued (tasksToStart maxTasks s) s)

def pushTask (taskHash : TaskHash) (forceStart : Bool) (handle : Handle) (r : Remote)
    (s : State) : State :=
  let job : Job := ⟨s.nextId, taskHash, handle⟩
  let s := { s.setRemote s.nextId r with nextId := s.nextId + 1 }
  if forceStart then startJobUnconditional job s
  else { s with enqueuedTasks := s.enqueuedTasks ++ [job] }

def deliverMessage (message : SignedDKGMessage) (messageTaskHash : TaskHash) (s : State) :
    State :=
  let envelope : Envelope := ⟨s.nextTag, message⟩
  let s := { s with nextTag := s.nextTag + 1 }
  let isFor := fun job => shouldDeliver job message messageTaskHash
  match (s.enqueuedTasks ++ s.activeTasks.jobs).find? isFor with
  | some job => s.setRemote job.id ((s.remotes job.id).deliverMessage envelope)
  | none =>
      s.setQueue messageTaskHash message.msg.ssid
        (s.enqueuedMessages messageTaskHash message.msg.ssid ++ [envelope])

def jobExists (taskHash : TaskHash) (s : State) : Bool :=
  s.activeTasks.jobs.any (fun job => job.taskHash == taskHash) ||
    s.enqueuedTasks.any fun job => job.taskHash == taskHash

def clearEnqueuedTasks (s : State) : State :=
  { s with
    enqueuedTasks := []
    remotes := dropJobs s.enqueuedTasks s.remotes }

def forceShutdownAll (s : State) : State :=
  { s with
    activeTasks := JobSet.empty
    enqueuedTasks := []
    enqueuedMessages := fun _ _ => []
    remotes := dropJobs s.enqueuedTasks (dropJobs s.activeTasks.jobs s.remotes) }

/-- What a protocol changes on its own: its status, and the receivers that it has not
dropped. -/
structure Progress where
  status : MetaHandlerStatus
  startRx : Bool
  stopRx : Bool
  rxKeygenSigning : Bool
  rxVoting : Bool

def Remote.progress (r : Remote) (p : Progress) : Remote :=
  { r with
    status := p.status
    startRx := p.startRx
    stopRx := p.stopRx
    rxKeygenSigning := p.rxKeygenSigning
    rxVoting := p.rxVoting }

/-- The channels of a handle are empty when it is pushed. -/
inductive Call where
  | pushTask (taskHash : TaskHash) (forceStart : Bool) (handle : Handle) (r : Remote)
      (hempty : r.received = [])
  | deliverMessage (message : SignedDKGMessage) (messageTaskHash : TaskHash)
  | poll (now : ℕ)
  | clearEnqueuedTasks
  | forceShutdownAll
  | protocol (id : ℕ) (p : Progress)

def Call.isPush : Call → Bool
  | .pushTask .. => true
  | _ => false

def Call.isDelivery : Call → Bool
  | .deliverMessage .. => true
  | _ => false

def step (maxTasks : ℕ) (s : State) : Call → State
  | .pushTask taskHash forceStart handle r _ => pushTask taskHash forceStart handle r s
  | .deliverMessage message messageTaskHash => deliverMessage message messageTaskHash s
  | .poll now => poll maxTasks now s
  | .clearEnqueuedTasks => clearEnqueuedTasks s
  | .forceShutdownAll => forceShutdownAll s
  | .protocol id p => s.setRemote id ((s.remotes id).progress p)

def startedEnqueued : ℕ → State → List (Job × Remote)
  | 0, _ => []
  | n + 1, s =>
      match s.enqueuedTasks with
      | [] => []
      | job :: rest =>
          (if (s.remotes job.id).starts then [(job, s.remotes job.id)] else []) ++
            startedEnqueued n (startJobUnconditional job { s with enqueuedTasks := rest })

def startedJobs (maxTasks : ℕ) (s : State) : Call → List (Job × Remote)
  | .pushTask taskHash forceStart handle r _ =>
      if forceStart && r.starts then [(⟨s.nextId, taskHash, handle⟩, r)] else []
  | .poll now =>
      startedEnqueued (tasksToStart maxTasks (retainActive now s)) (retainActive now s)
  | .deliverMessage .. | .clearEnqueuedTasks | .forceShutdownAll | .protocol .. => []

theorem insertActive_eq (job : Job) (s : State) :
    (∃ set, s.activeTasks.insert job = some set ∧
      insertActive job s = { s with activeTasks := set }) ∨
    s.activeTasks.insert job = none ∧
      insertActive job s = s.setRemote job.id (s.remotes job.id).drop := by
  rw [insertActive]
  cases s.activeTasks.insert job with
  | none => exact Or.inr ⟨rfl, rfl⟩
  | some set => exact Or.inl ⟨set, rfl, rfl⟩

@[simp] theorem enqueuedTasks_startJobUnconditional (job : Job) (s : State) :
    (startJobUnconditional job s).enqueuedTasks = s.enqueuedTasks := by
  simp only [startJobUnconditional, insertActive]
  split <;> split <;> rfl

@[simp] theorem nextId_startJobUnconditional (job : Job) (s : State) :
    (startJobUnconditional job s).nextId = s.nextId := by
  simp only [startJobUnconditional, insertActive]
  split <;> split <;> rfl

@[simp] theorem nextTag_startJobUnconditional (job : Job) (s : State) :
    (startJobUnconditional job s).nextTag = s.nextTag := by
  simp only [startJobUnconditional, insertActive]
  split <;> split <;> rfl

theorem invariant_startEnqueued {P : State → Prop}
    (hstart : ∀ s job rest, P s → s.enqueuedTasks = job :: rest →
      P (startJobUnconditional job { s with enqueuedTasks := rest }))
    (n : ℕ) {s : State} (h : P s) : P (startEnqueued n s) := by
  induction n generalizing s with
  | zero => exact h
  | succ n ih =>
      rw [startEnqueued]
      split
      · exact h
      · rename_i job rest htasks
        exact ih (hstart s job rest h htasks)

theorem apply_startEnqueued {β : Type} (f : State → β)
    (h : ∀ job rest s, f (startJobUnconditional job { s with enqueuedTasks := rest }) = f s)
    (n : ℕ) (s : State) : f (startEnqueued n s) = f s := by
  refine invariant_startEnqueued (P := fun t => f t = f s) ?_ n rfl
  intro t job rest ht _
  rw [h, ht]

@[simp] theorem nextId_startEnqueued (n : ℕ) (s : State) :
    (startEnqueued n s).nextId = s.nextId :=
  apply_startEnqueued State.nextId (fun job _ _ => nextId_startJobUnconditional job _) n s

@[simp] theorem nextTag_startEnqueued (n : ℕ) (s : State) :
    (startEnqueued n s).nextTag = s.nextTag :=
  apply_startEnqueued State.nextTag (fun job _ _ => nextTag_startJobUnconditional job _) n s

theorem apply_update_remote {β : Type} (f : Remote → β) {remotes : ℕ → Remote} {id : ℕ}
    {r : Remote} (h : f r = f (remotes id)) (id' : ℕ) :
    f (Function.update remotes id r id') = f (remotes id') := by
  by_cases hid : id' = id
  · rw [hid, Function.update_self, h]
  · rw [Function.update_of_ne hid]

theorem apply_dropJobs {β : Type} (f : Remote → β) (h : ∀ r : Remote, f r.drop = f r)
    (jobs : List Job) (remotes : ℕ → Remote) (id : ℕ) :
    f (dropJobs jobs remotes id) = f (remotes id) := by
  induction jobs generalizing remotes with
  | nil => rfl
  | cons job jobs ih =>
      rw [dropJobs, List.foldl_cons, ← dropJobs, ih]
      exact apply_update_remote f (h _) id

theorem apply_shutdownStalled {β : Type} (f : Remote → β)
    (h : ∀ r : Remote, f (r.shutdown .stalled) = f r) (now : ℕ) (jobs : List Job)
    (remotes : ℕ → Remote) (id : ℕ) :
    f (shutdownStalled now jobs remotes id) = f (remotes id) := by
  induction jobs generalizing remotes with
  | nil => rfl
  | cons job jobs ih =>
      rw [shutdownStalled, List.foldl_cons, ← shutdownStalled, ih]
      split
      · exact apply_update_remote f (h _) id
      · rfl

theorem received_dropJobs (jobs : List Job) (remotes : ℕ → Remote) (id : ℕ) :
    (dropJobs jobs remotes id).received = (remotes id).received :=
  apply_dropJobs Remote.received Remote.received_drop jobs remotes id

theorem received_shutdownStalled (now : ℕ) (jobs : List Job) (remotes : ℕ → Remote) (id : ℕ) :
    (shutdownStalled now jobs remotes id).received = (remotes id).received :=
  apply_shutdownStalled Remote.received (fun r => Remote.received_shutdown r _) now jobs
    remotes id

theorem counters_step (maxTasks : ℕ) (s : State) (call : Call) :
    ((step maxTasks s call).nextTag, (step maxTasks s call).nextId) =
      (s.nextTag + if call.isDelivery then 1 else 0, s.nextId + if call.isPush then 1 else 0) := by
  cases call with
  | pushTask taskHash forceStart handle r hempty =>
      simp only [step, pushTask]
      split
      · rw [nextTag_startJobUnconditional, nextId_startJobUnconditional]
        rfl
      · rfl
  | deliverMessage message messageTaskHash =>
      simp only [step, deliverMessage]
      split <;> rfl
  | poll now =>
      simp only [step, poll, removeOutdated, nextTag_startEnqueued, nextId_startEnqueued]
      rfl
  | clearEnqueuedTasks | forceShutdownAll | protocol => rfl

theorem nextTag_step (maxTasks : ℕ) (s : State) (call : Call) :
    (step maxTasks s call).nextTag =
      s.nextTag + if call.isDelivery then 1 else 0 :=
  congrArg Prod.fst (counters_step maxTasks s call)

theorem nextId_step (maxTasks : ℕ) (s : State) (call : Call) :
    (step maxTasks s call).nextId =
      s.nextId + if call.isPush then 1 else 0 :=
  congrArg Prod.snd (counters_step maxTasks s call)

@[simp] theorem nextId_poll (maxTasks now : ℕ) (s : State) :
    (poll maxTasks now s).nextId = s.nextId :=
  nextId_step maxTasks s (.poll now)

@[simp] theorem nextId_deliverMessage (message : SignedDKGMessage) (messageTaskHash : TaskHash)
    (s : State) : (deliverMessage message messageTaskHash s).nextId = s.nextId :=
  nextId_step 0 s (.deliverMessage message messageTaskHash)

theorem uses_step {maxTasks : ℕ} {s : State} {call : Call} {id uses uses' : ℕ}
    (h : uses ≤ if id < s.nextId then 1 else 0)
    (hstep : uses' ≤ uses + if call.isPush && s.nextId == id then 1 else 0) :
    uses' ≤ if id < (step maxTasks s call).nextId then 1 else 0 := by
  rw [nextId_step]
  cases hpush : call.isPush with
  | false =>
      rw [hpush, Bool.false_and, if_neg Bool.false_ne_true] at hstep
      rw [if_neg Bool.false_ne_true]
      exact Nat.le_trans hstep h
  | true =>
      rw [hpush, Bool.true_and] at hstep
      simp only [beq_iff_eq] at hstep
      rw [if_pos rfl]
      split at h <;> split at hstep <;> split <;> omega

end DkgSubstrate.WorkManager
