import DkgSubstrate.ChainHeader
import DkgSubstrate.JobLiveness

/-!
The keygen manager of a node.  A finalized block may start a keygen task, which runs next to
the manager and writes the outcome into the state of the manager when it ends.  The handler of
finalized blocks and the tasks share their variables, so the handler is cut into its accesses
to them, and the tasks may act in between.
-/

namespace DkgSubstrate.KeygenManager

open DkgSubstrate.ChainHeader
open DkgSubstrate.IncomingMessages
open DkgSubstrate.JobLiveness
open DkgSubstrate.Metadata
open DkgSubstrate.Primitives
open DkgSubstrate.Runs
open DkgSubstrate.SampleRuntime
open DkgSubstrate.SetIds
open DkgSubstrate.SigningManager
open DkgSubstrate.Words
open DkgSubstrate.WorkManager

structure Config where
  crypto : Crypto
  authorityPublicKey : Public

inductive KeygenState where
  | uninitialized
  | runningKeygen
  | runningGenesisKeygen
  | keygenCompleted (sessionCompleted : ℕ)
  | failed (sessionId : ℕ)
deriving DecidableEq

def KeygenState.isRunning : KeygenState → Bool
  | .runningKeygen | .runningGenesisKeygen => true
  | .uninitialized | .keygenCompleted _ | .failed _ => false

def maxRunningTasks : ℕ := 1

def keygenTimeout : ℕ := 10

def genesisAuthoritySetId : ℕ := 0

structure JobMetadata where
  sessionId : ℕ
  isStalled : Bool
  isFinished : Bool
  hasStarted : Bool
  isActive : Bool
deriving DecidableEq

def keygenHasStalled (now : ℕ) (job : Job) (r : Remote) : Bool :=
  r.status matches .terminated || decide (job.handle.startedAt + keygenTimeout ≤ now)

def metadata (now : ℕ) (job : Job) (r : Remote) : JobMetadata where
  sessionId := job.handle.sessionId
  isStalled := keygenHasStalled now job r
  isFinished := r.status matches .complete
  hasStarted := !(r.status matches .beginning)
  isActive := !(r.status matches .complete | .terminated)

def getActiveSessionsMetadata (now : ℕ) (work : WorkManager.State) : List JobMetadata :=
  work.activeTasks.jobs.map fun job => metadata now job (work.remotes job.id)

def sessionIdOfActiveKeygen (now : ℕ) (work : WorkManager.State) : Option JobMetadata :=
  (getActiveSessionsMetadata now work).getLast?

def getKeygenProtocolHash (crypto : Crypto) (sessionId activeKeygenRetryId : ℕ) : TaskHash :=
  crypto.keccak256 (toBeBytes 8 sessionId ++ toBeBytes 8 activeKeygenRetryId)

structure Start where
  stage : KeygenRound
  sessionId : ℕ
  keygenProtocolHash : TaskHash
  block : ℕ
  force : Bool

/-- The latest block of the clock is the block that is handled. -/
def Start.handle (start : Start) : Handle where
  sessionId := start.sessionId
  associatedBlockId := start.block
  ssid := 0
  startedAt := start.block

section Checks

variable {L : Limits} (cfg : Config) (header : FinalizedHeader L)

def maybeStartKeygenForStage (activeKeygenRetryId : ℕ) (stage : KeygenRound) : Option Start :=
  match header.validatorSet with
  | none => none
  | some (active, queued) =>
      let status := header.shouldExecuteNewKeygen
      let sessionId := match stage with | .genesis => active.id | .next => queued.id
      let skips := match stage with
        | .next => !status.execute && !status.forceExecute ||
            header.nextDkgPubKey.isSome && !status.forceExecute
        | .genesis => !header.dkgPubKeyIsUnset
      let partyIdx := match stage with
        | .genesis => header.getPartyIndex cfg.authorityPublicKey
        | .next => header.getNextPartyIndex cfg.authorityPublicKey
      if skips then none
      else (partyIdx.bind keygenPartyId).map fun _ =>
        { stage
          sessionId
          keygenProtocolHash :=
            getKeygenProtocolHash cfg.crypto sessionId activeKeygenRetryId
          block := header.number
          force := status.forceExecute }

inductive Check where
  | finish (stage : Option KeygenRound)
  | proceed

def preChecks (finishedCount sessionId : ℕ) (state : KeygenState)
    (current : Option JobMetadata) : Check :=
  if header.shouldExecuteNewKeygen.forceExecute then
    .finish (some (if sessionId = genesisAuthoritySetId ∧ finishedCount = 0 then .genesis
      else .next))
  else if sessionId = genesisAuthoritySetId ∧ state = .failed 0 ∧ header.dkgPubKeyIsUnset then
    .finish (some .genesis)
  else if current.any fun protocol => protocol.isActive && !protocol.isStalled then
    .finish none
  else .proceed

def genesisChecks : KeygenState → Option KeygenRound
  | .uninitialized => some .genesis
  | .runningGenesisKeygen | .runningKeygen => none
  | .keygenCompleted sessionCompleted => if sessionCompleted = 0 then some .next else none
  | .failed sessionId => if sessionId = 1 then some .next else none

def nextChecks : KeygenState → Option KeygenRound
  | .uninitialized => if header.nextDkgPubKey.isNone then some .next else none
  | .runningGenesisKeygen | .runningKeygen => none
  | .keygenCompleted _ | .failed _ => some .next

def checkedStage (finishedCount sessionId : ℕ) (state : KeygenState)
    (current : Option JobMetadata) : Option KeygenRound :=
  match preChecks header finishedCount sessionId state current with
  | .finish stage => stage
  | .proceed =>
      if sessionId = genesisAuthoritySetId then genesisChecks state
      else nextChecks header state

def checkedStart (activeKeygenRetryId finishedCount : ℕ) (state : KeygenState)
    (current : Option JobMetadata) : Option Start :=
  match header.validatorSet with
  | none => none
  | some (active, _) =>
      (checkedStage header finishedCount active.id state current).bind
        (maybeStartKeygenForStage cfg header activeKeygenRetryId)

end Checks

inductive Stage where
  | beginning
  | running
  | complete
  | reported (succeeded : Bool)
  | counted
  | unlocked (succeeded : Bool)
deriving DecidableEq

namespace Stage

/-- The protocol has neither completed nor failed, or the manager does not know yet. -/
def isOpen : Stage → Bool
  | .beginning | .running | .complete => true
  | .reported _ | .counted | .unlocked _ => false

def succeeded : Stage → Bool
  | .reported succeeded | .unlocked succeeded => succeeded
  | .counted => true
  | .beginning | .running | .complete => false

def isUnlocked : Stage → Bool
  | .unlocked _ => true
  | .beginning | .running | .complete | .reported _ | .counted => false

end Stage

structure Task where
  start : Start
  stored : Bool
  gossiped : Bool
  stage : Stage

inductive TaskEvent where
  | begins
  | produce (gossips : Bool)
  | complete
  | fail
  | stop
  | report
  | count
  | unlock
deriving DecidableEq

/-- What becomes of a task whose handle has got the signal `signal`, if the event can happen.
The key is stored and gossiped in one go, and the failure to gossip it is only logged.  A
dropped protocol ends well. -/
def Task.next (signal : Option ShutdownReason) (t : Task) : TaskEvent → Option Task
  | .begins => if t.stage = .beginning then some { t with stage := .running } else none
  | .produce gossips =>
      if t.stage = .running ∧ t.stored = false then
        some { t with stored := true, gossiped := gossips }
      else none
  | .complete =>
      if t.stage = .running ∧ t.stored = true then some { t with stage := .complete } else none
  | .fail =>
      if t.stage = .running ∧ t.stored = false then some { t with stage := .reported false }
      else none
  | .stop =>
      if t.stage = .beginning ∨ t.stage = .running then
        signal.map fun reason => { t with stage := .reported (decide (reason = .dropCode)) }
      else none
  | .report => if t.stage = .complete then some { t with stage := .reported true } else none
  | .count => if t.stage = .reported true then some { t with stage := .counted } else none
  | .unlock =>
      match t.stage with
      | .counted => some { t with stage := .unlocked true }
      | .reported false => some { t with stage := .unlocked false }
      | _ => none

def TaskEvent.onRemote : TaskEvent → Remote → Remote
  | .begins, r => { r with status := .keygen, startRx := false }
  | .complete, r => { r with status := .complete, rxKeygenSigning := false }
  | .fail, r => { r with stopRx := false, rxKeygenSigning := false }
  | .stop, r | .report, r => { r with stopRx := false }
  | .produce _, r | .count, r | .unlock, r => r

inductive Handler (L : Limits) where
  | idle
  | polling (header : FinalizedHeader L)
  | reading (header : FinalizedHeader L)
  | loading (header : FinalizedHeader L) (current : Option JobMetadata)
  | checking (header : FinalizedHeader L) (current : Option JobMetadata) (state : KeygenState)
  | shutting (start : Start)
  | locking (start : Start)
  | pushing (start : Start)
  | starting (start : Start)
  | recording (start : Start)

def Handler.startsTask {L : Limits} : Handler L → Bool
  | .starting _ | .recording _ => true
  | _ => false

/-- The manager, the lock of the signing manager, and the tasks by the numbers of their
jobs. -/
structure State (L : Limits) where
  work : WorkManager.State
  activeKeygenRetryId : ℕ
  keygenState : KeygenState
  latestExecutedSessionId : Option ℕ
  finishedCount : ℕ
  lock : Bool
  tasks : ℕ → Task
  handler : Handler L

variable {L : Limits}

namespace State

def new : State L where
  work := WorkManager.State.new
  activeKeygenRetryId := 0
  keygenState := .uninitialized
  latestExecutedSessionId := none
  finishedCount := 0
  lock := false
  tasks _ := ⟨⟨.genesis, 0, List.Vector.replicate 32 0, 0, false⟩, false, false, .beginning⟩
  handler := .idle

def spawned (s : State L) (id : ℕ) : Bool :=
  decide (id < s.work.nextId) && !(s.work.remotes id).startTx

def record (task : Task) (s : State L) : State L :=
  match task.stage with
  | .reported true => { s with keygenState := .keygenCompleted task.start.sessionId }
  | .reported false => { s with keygenState := .failed task.start.sessionId }
  | .counted => { s with finishedCount := s.finishedCount + 1 }
  | .unlocked _ => { s with lock := false }
  | .beginning | .running | .complete => s

def taskStep (id : ℕ) (e : TaskEvent) (s : State L) : State L :=
  if s.spawned id then
    match (s.tasks id).next (s.work.remotes id).stop e with
    | none => s
    | some task =>
        { s with
          work := s.work.setRemote id (e.onRemote (s.work.remotes id))
          tasks := Function.update s.tasks id task }.record task
  else s

def push (crypto : Crypto) (start : Start) (s : State L) : State L :=
  { s with
    work := pushTask (getKeygenProtocolHash crypto start.handle.sessionId s.activeKeygenRetryId)
      false start.handle Remote.new s.work
    tasks := Function.update s.tasks s.work.nextId ⟨start, false, false, .beginning⟩ }

def runningState : KeygenRound → KeygenState
  | .genesis => .runningGenesisKeygen
  | .next => .runningKeygen

def advance (cfg : Config) (s : State L) : State L :=
  match s.handler with
  | .idle => s
  | .polling header =>
      { s with
        work := poll maxRunningTasks header.number s.work
        handler := .reading header }
  | .reading header =>
      { s with handler := .loading header (sessionIdOfActiveKeygen header.number s.work) }
  | .loading header current => { s with handler := .checking header current s.keygenState }
  | .checking header current state =>
      match checkedStart cfg header s.activeKeygenRetryId s.finishedCount state current with
      | none => { s with handler := .idle }
      | some start => { s with handler := .shutting start }
  | .shutting start =>
      { s with
        work := if start.force then forceShutdownAll s.work else s.work
        handler := .locking start }
  | .locking start => { s with lock := true, handler := .pushing start }
  | .pushing start => { s.push cfg.crypto start with handler := .starting start }
  | .starting start =>
      { s with
        work := poll maxRunningTasks start.block s.work
        handler := .recording start }
  | .recording start =>
      { s with
        keygenState := runningState start.stage
        latestExecutedSessionId := some start.sessionId
        handler := .idle }

/-- Only keygen messages are handed to the manager. -/
def deliverMessage (message : SignedDKGMessage) (s : State L) : State L :=
  match message.msg.payload with
  | .keygen msg =>
      { s with work := WorkManager.deliverMessage message msg.keygenProtocolHash s.work }
  | _ => s

end State

inductive Event (L : Limits) where
  | blockFinalized (header : FinalizedHeader L)
  | advance
  | task (id : ℕ) (e : TaskEvent)
  | deliverMessage (message : SignedDKGMessage)

/-- Finalized blocks are handled one after the other, if their authorities can be read. -/
def step (cfg : Config) (s : State L) : Event L → State L
  | .blockFinalized header =>
      match s.handler, header.validatorSet with
      | .idle, some _ => { s with handler := .polling header }
      | _, _ => s
  | .advance => s.advance cfg
  | .task id e => s.taskStep id e
  | .deliverMessage message => s.deliverMessage message

/-- The events of a handler that runs without interruption. -/
def handled (header : FinalizedHeader L) : List (Event L) :=
  .blockFinalized header :: List.replicate 9 .advance

/-- The start of a keygen, without interruption. -/
def State.started (cfg : Config) (start : Start) (s : State L) : State L :=
  let work := if start.force then forceShutdownAll s.work else s.work
  let s := { s with work := work, lock := true }.push cfg.crypto start
  { s with
    work := poll maxRunningTasks start.block s.work
    keygenState := State.runningState start.stage
    latestExecutedSessionId := some start.sessionId }

def onBlockFinalized (cfg : Config) (header : FinalizedHeader L) (s : State L) : State L :=
  if header.validatorSet.isSome then
    let work := poll maxRunningTasks header.number s.work
    match checkedStart cfg header s.activeKeygenRetryId s.finishedCount s.keygenState
        (sessionIdOfActiveKeygen header.number work) with
    | none => { s with work := work }
    | some start => { s with work := work }.started cfg start
  else s

theorem run_handled (cfg : Config) (header : FinalizedHeader L) {s : State L}
    (hidle : s.handler = .idle) :
    run (step cfg) s (handled header) = onBlockFinalized cfg header s := by
  simp only [handled, List.replicate, run_cons, run_nil, onBlockFinalized]
  cases hset : header.validatorSet with
  | none => simp [step, hidle, hset, State.advance]
  | some sets =>
      cases hstart : checkedStart cfg header s.activeKeygenRetryId s.finishedCount s.keygenState
          (sessionIdOfActiveKeygen header.number (poll maxRunningTasks header.number s.work)) with
      | none => simp only [step, hidle, hset, State.advance, hstart, Option.isSome_some, if_true]
      | some start =>
          simp only [step, hidle, hset, State.advance, hstart, State.started, State.push,
            Option.isSome_some, if_true]

section Parts

variable {cfg : Config} {s : State L} {e : Event L} {id : ℕ} {t t' : Task}

@[simp] theorem work_record (task : Task) (s : State L) : (s.record task).work = s.work := by
  unfold State.record
  split <;> rfl

@[simp] theorem tasks_record (task : Task) (s : State L) : (s.record task).tasks = s.tasks := by
  unfold State.record
  split <;> rfl

@[simp] theorem handler_record (task : Task) (s : State L) :
    (s.record task).handler = s.handler := by
  unfold State.record
  split <;> rfl

theorem record_of_isOpen {task : Task} (h : task.stage.isOpen = true) (s : State L) :
    s.record task = s := by
  cases hstage : task.stage with
  | beginning | running | complete => rw [State.record, hstage]
  | reported | counted | unlocked =>
      rw [hstage] at h
      cases h

theorem spawned_iff {s : State L} {id : ℕ} :
    s.spawned id = true ↔ id < s.work.nextId ∧ (s.work.remotes id).startTx = false := by
  rw [State.spawned, Bool.and_eq_true, decide_eq_true_eq, Bool.not_eq_true']

theorem taskStep_cases (id : ℕ) (e : TaskEvent) (s : State L) :
    s.taskStep id e = s ∨
      ∃ t, s.spawned id = true ∧ (s.tasks id).next (s.work.remotes id).stop e = some t ∧
        s.taskStep id e = { s with
          work := s.work.setRemote id (e.onRemote (s.work.remotes id))
          tasks := Function.update s.tasks id t }.record t := by
  rw [State.taskStep]
  split
  · rename_i hspawned
    cases (s.tasks id).next (s.work.remotes id).stop e with
    | none => exact Or.inl rfl
    | some t => exact Or.inr ⟨t, hspawned, rfl, rfl⟩
  · exact Or.inl rfl

theorem start_next {signal : Option ShutdownReason} {e : TaskEvent}
    (h : t.next signal e = some t') : t'.start = t.start := by
  cases e with
  | stop =>
      rw [Task.next, Option.ite_none_right_eq_some, Option.map_eq_some_iff] at h
      obtain ⟨-, reason, -, rfl⟩ := h
      rfl
  | unlock =>
      rw [Task.next] at h
      split at h <;> cases h <;> rfl
  | begins | produce | complete | fail | report | count =>
      rw [Task.next, Option.ite_none_right_eq_some] at h
      obtain ⟨-, h⟩ := h
      cases h
      rfl

theorem isOpen_of_next {signal : Option ShutdownReason} {e : TaskEvent}
    (h : t.next signal e = some t') (hopen : t'.stage.isOpen = true) :
    t.stage.isOpen = true := by
  cases e with
  | begins | produce | complete =>
      rw [Task.next, Option.ite_none_right_eq_some] at h
      obtain ⟨hstage, -⟩ := h
      simp [hstage, Stage.isOpen]
  | fail | report | count =>
      rw [Task.next, Option.ite_none_right_eq_some] at h
      obtain ⟨-, h⟩ := h
      cases h
      cases hopen
  | stop =>
      rw [Task.next, Option.ite_none_right_eq_some, Option.map_eq_some_iff] at h
      obtain ⟨-, reason, -, rfl⟩ := h
      cases hopen
  | unlock =>
      rw [Task.next] at h
      split at h <;> cases h <;> cases hopen

theorem next_of_isUnlocked {signal : Option ShutdownReason} (h : t.stage.isUnlocked = true)
    (e : TaskEvent) : t.next signal e = none := by
  cases hstage : t.stage with
  | unlocked succeeded => cases e <;> simp [Task.next, hstage]
  | beginning | running | complete | reported | counted =>
      rw [hstage] at h
      cases h

theorem onRemote_eq_progress (e : TaskEvent) (r : Remote) : ∃ p, e.onRemote r = r.progress p :=
  ⟨⟨(e.onRemote r).status, (e.onRemote r).startRx, (e.onRemote r).stopRx,
    (e.onRemote r).rxKeygenSigning, (e.onRemote r).rxVoting⟩, by cases e <;> rfl⟩

theorem work_step (cfg : Config) (s : State L) (e : Event L) :
    (step cfg s e).work = s.work ∨
      (∃ call, call.isPush = false ∧
        (step cfg s e).work = WorkManager.step maxRunningTasks s.work call) ∨
      ∃ start, e = .advance ∧ s.handler = .pushing start ∧
        (step cfg s e).work = pushTask
          (getKeygenProtocolHash cfg.crypto start.handle.sessionId s.activeKeygenRetryId) false
          start.handle Remote.new s.work := by
  cases e with
  | blockFinalized header =>
      left
      rw [step]
      split <;> rfl
  | advance =>
      rw [step, State.advance]
      split
      · exact Or.inl rfl
      · rename_i header hhandler
        exact Or.inr (Or.inl ⟨.poll header.number, rfl, rfl⟩)
      · exact Or.inl rfl
      · exact Or.inl rfl
      · left
        split <;> rfl
      · rename_i start hhandler
        dsimp only
        split
        · exact Or.inr (Or.inl ⟨.forceShutdownAll, rfl, rfl⟩)
        · exact Or.inl rfl
      · exact Or.inl rfl
      · rename_i start hhandler
        exact Or.inr (Or.inr ⟨start, rfl, hhandler, rfl⟩)
      · rename_i start hhandler
        exact Or.inr (Or.inl ⟨.poll start.block, rfl, rfl⟩)
      · exact Or.inl rfl
  | task id e =>
      rcases taskStep_cases id e s with hsame | ⟨t, -, -, hnext⟩
      · exact Or.inl (congrArg State.work hsame)
      · obtain ⟨p, hp⟩ := onRemote_eq_progress e (s.work.remotes id)
        refine Or.inr (Or.inl ⟨.protocol id p, rfl, ?_⟩)
        rw [step, hnext, work_record, WorkManager.step, ← hp]
  | deliverMessage message =>
      rw [step, State.deliverMessage]
      split
      · rename_i msg hpayload
        exact Or.inr (Or.inl ⟨.deliverMessage message msg.keygenProtocolHash, rfl, rfl⟩)
      · exact Or.inl rfl

theorem invariant_work (Inv : WorkManager.State → Prop)
    (hstep : ∀ work call, Inv work → Inv (WorkManager.step maxRunningTasks work call))
    (cfg : Config) (e : Event L) (h : Inv s.work) : Inv (step cfg s e).work := by
  rcases work_step cfg s e with hsame | ⟨call, -, hcall⟩ | ⟨start, -, -, hpush⟩
  · rw [hsame]
    exact h
  · rw [hcall]
    exact hstep s.work call h
  · rw [hpush]
    exact hstep s.work (.pushTask _ false start.handle Remote.new Remote.received_new) h

theorem tasks_push {start : Start} (h : s.handler = .pushing start) (cfg : Config) :
    (step cfg s .advance).tasks =
      Function.update s.tasks s.work.nextId ⟨start, false, false, .beginning⟩ := by
  rw [step, State.advance, h]
  rfl

theorem tasks_step (cfg : Config) (s : State L) (e : Event L) :
    (step cfg s e).tasks = s.tasks ∨
      (∃ id event t, e = .task id event ∧ s.spawned id = true ∧
        (s.tasks id).next (s.work.remotes id).stop event = some t ∧
        (step cfg s e).tasks = Function.update s.tasks id t) ∨
      ∃ start, e = .advance ∧ s.handler = .pushing start ∧
        (step cfg s e).tasks =
          Function.update s.tasks s.work.nextId ⟨start, false, false, .beginning⟩ := by
  cases e with
  | blockFinalized header =>
      left
      rw [step]
      split <;> rfl
  | advance =>
      by_cases hpush : ∃ start, s.handler = .pushing start
      · obtain ⟨start, hhandler⟩ := hpush
        right
        right
        exact ⟨start, rfl, hhandler, tasks_push hhandler cfg⟩
      · left
        rw [step, State.advance]
        split <;> first | rfl | skip
        · split <;> rfl
        · rename_i start hhandler
          exact absurd ⟨start, hhandler⟩ hpush
  | task id event =>
      rcases taskStep_cases id event s with hsame | ⟨t, hspawned, hnext, heq⟩
      · exact Or.inl (congrArg State.tasks hsame)
      · right
        left
        refine ⟨id, event, t, rfl, hspawned, hnext, ?_⟩
        rw [step, heq, tasks_record]
  | deliverMessage message =>
      left
      rw [step, State.deliverMessage]
      split <;> rfl

theorem invariant_tasks {P : Task → Prop}
    (hnext : ∀ t signal e t', P t → t.next signal e = some t' → P t')
    (hnew : ∀ start, P ⟨start, false, false, .beginning⟩) (cfg : Config) (e : Event L)
    (h : ∀ id, P (s.tasks id)) : ∀ id, P ((step cfg s e).tasks id) := by
  rcases tasks_step cfg s e with hsame | ⟨id, event, t, -, -, hevent, htasks⟩ |
    ⟨start, -, -, htasks⟩
  · rw [hsame]
    exact h
  · rw [htasks]
    refine (Function.forall_update_iff s.tasks fun _ => P).mpr ⟨?_, fun id' _ => h id'⟩
    exact hnext _ _ _ _ (h id) hevent
  · rw [htasks]
    exact (Function.forall_update_iff s.tasks fun _ => P).mpr ⟨hnew start, fun id' _ => h id'⟩

theorem nextId_le_step (cfg : Config) (s : State L) (e : Event L) :
    s.work.nextId ≤ (step cfg s e).work.nextId :=
  invariant_work (fun work => s.work.nextId ≤ work.nextId)
    (fun work call h => by rw [nextId_step]; omega) cfg e (Nat.le_refl _)

theorem start_step (hid : id < s.work.nextId) (cfg : Config) (e : Event L) :
    ((step cfg s e).tasks id).start = (s.tasks id).start := by
  rcases tasks_step cfg s e with hsame | ⟨id', event, t, -, -, hnext, htasks⟩ |
    ⟨start, -, -, htasks⟩
  · rw [hsame]
  · rw [htasks]
    by_cases heq : id = id'
    · subst heq
      rw [Function.update_self]
      exact start_next hnext
    · rw [Function.update_of_ne heq]
  · rw [htasks, Function.update_of_ne (Nat.ne_of_lt hid)]

end Parts

def sampleNode : Config := ⟨sampleCrypto, samplePublic 1⟩

def sampleAuthorities (id : ℕ) : AuthoritySet runtimeLimits :=
  ⟨(BoundedVec.tryFrom [samplePublic 1, samplePublic 2]).getD default, id⟩

def sampleHeader (number sessionId : ℕ) (execute forceExecute : Bool) :
    FinalizedHeader runtimeLimits where
  number := number
  validatorSet := some (sampleAuthorities sessionId, sampleAuthorities (sessionId + 1))
  dkgPubKey := (sessionId, (samplePublic 7).toList)
  nextDkgPubKey := none
  shouldExecuteNewKeygen := ⟨execute, forceExecute⟩
  signatureThreshold := 1
  nextSignatureThreshold := 1
  bestAuthorities := [(1, samplePublic 1), (2, samplePublic 2)]
  nextBestAuthorities := [(1, samplePublic 1), (2, samplePublic 2)]

end DkgSubstrate.KeygenManager
