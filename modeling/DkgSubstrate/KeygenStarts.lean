import DkgSubstrate.KeygenManager

/-!
When a finalized block that asks for a keygen starts one.  The state of the manager decides,
and some of its states are left only by a keygen.
-/

namespace DkgSubstrate.KeygenStarts

open DkgSubstrate.ChainHeader
open DkgSubstrate.JobLiveness
open DkgSubstrate.KeygenManager
open DkgSubstrate.Metadata hiding State Config
open DkgSubstrate.Primitives
open DkgSubstrate.Runs
open DkgSubstrate.SampleRuntime
open DkgSubstrate.WorkManager hiding State State.new step

variable {L : Limits}

/-- No task waits, and the tasks of all active jobs have come to their end. -/
def NoActiveTask (s : State L) : Prop :=
  s.work.enqueuedTasks = [] ∧
    ∀ job ∈ s.work.activeTasks.jobs, (s.tasks job.id).stage.isUnlocked = true

/-- The active key is on the chain and the next one is not, the chain asks for a keygen without
forcing it, and the node is in the next best set. -/
structure AsksForKeygen (cfg : Config) (header : FinalizedHeader L)
    (active queued : AuthoritySet L) : Prop where
  sets : header.validatorSet = some (active, queued)
  keySet : header.dkgPubKeyIsUnset = false
  nextKeyUnset : header.nextDkgPubKey = none
  execute : header.shouldExecuteNewKeygen = ⟨true, false⟩
  inNextBest : (header.getNextPartyIndex cfg.authorityPublicKey).isSome = true

def StartsKeygen (sessionId : ℕ) (s s' : State L) : Prop :=
  s'.spawned s.work.nextId = true ∧ (s'.tasks s.work.nextId).start.sessionId = sessionId

def Ready (sessionId : ℕ) (state : KeygenState) : Prop :=
  if sessionId = genesisAuthoritySetId then
    state = .keygenCompleted 0 ∨ state = .failed 1
  else state.isRunning = false

/-- Every job that is still listed as active is done or has stalled, the node has a number
among the next best authorities that is not 0, and the manager is ready. -/
def CanStart (cfg : Config) (header : FinalizedHeader L) (sessionId : ℕ)
    (s : State L) : Prop :=
  (∀ job ∈ s.work.activeTasks.jobs, ends header.number s.work job = true) ∧
    header.getNextPartyIndex cfg.authorityPublicKey ≠ some 0 ∧
    Ready sessionId s.keygenState

section Poll

variable {work : WorkManager.State} {now : ℕ}

theorem poll_of_enqueuedTasks_eq_nil (h : work.enqueuedTasks = []) :
    poll maxRunningTasks now work = removeOutdated now (retainActive now work) := by
  have hnil : (retainActive now work).enqueuedTasks = [] := h
  rw [poll]
  cases tasksToStart maxRunningTasks (retainActive now work) with
  | zero => rfl
  | succ n => rw [startEnqueued, hnil]

theorem jobs_poll_eq_nil (h : work.enqueuedTasks = [])
    (hends : ∀ job ∈ work.activeTasks.jobs, ends now work job = true) :
    (poll maxRunningTasks now work).activeTasks.jobs = [] := by
  rw [poll_of_enqueuedTasks_eq_nil h]
  refine List.filter_eq_nil_iff.mpr fun job hjob => ?_
  rw [hends job hjob]
  exact Bool.false_ne_true

theorem enqueuedTasks_poll_eq_nil (h : work.enqueuedTasks = []) :
    (poll maxRunningTasks now work).enqueuedTasks = [] := by
  rw [poll_of_enqueuedTasks_eq_nil h]
  exact h

theorem current_of_not_ends (hids : Distinct work) (h : work.enqueuedTasks = [])
    (hruns : ∃ job ∈ work.activeTasks.jobs, ends now work job = false) :
    (sessionIdOfActiveKeygen now (poll maxRunningTasks now work)).any
      (fun protocol => protocol.isActive && !protocol.isStalled) = true := by
  obtain ⟨job', hjob', hruns'⟩ := hruns
  have hne : (retainActive now work).activeTasks.jobs ≠ [] := by
    refine List.ne_nil_of_mem (List.mem_filter.mpr ⟨hjob', ?_⟩)
    rw [hruns']
    rfl
  have hlast : (retainActive now work).activeTasks.jobs.getLast? =
      some ((retainActive now work).activeTasks.jobs.getLast hne) :=
    List.getLast?_eq_some_getLast hne
  generalize (retainActive now work).activeTasks.jobs.getLast hne = job at hlast
  obtain ⟨hactive, hkept⟩ := List.mem_filter.mp (List.mem_of_getLast? hlast)
  have hruns : ends now work job = false := Bool.not_eq_true' _ ▸ hkept
  have hcurrent : sessionIdOfActiveKeygen now (poll maxRunningTasks now work) =
      some (metadata now job (work.remotes job.id)) := by
    rw [poll_of_enqueuedTasks_eq_nil h, sessionIdOfActiveKeygen, getActiveSessionsMetadata,
      List.getLast?_map]
    rw [show (removeOutdated now (retainActive now work)).activeTasks.jobs =
      (retainActive now work).activeTasks.jobs from rfl, hlast, Option.map_some]
    rw [← remotes_retainActive hids hactive hruns]
    rfl
  rw [ends, Bool.or_eq_false_iff] at hruns
  rw [hcurrent, Option.any_some, metadata, Bool.and_eq_true, Bool.not_eq_true',
    Bool.not_eq_true']
  refine ⟨?_, hruns.1⟩
  cases hstatus : (work.remotes job.id).status <;> simp [Remote.isDone, hstatus] at hruns ⊢

theorem startTx_poll_pushTask {hash : TaskHash} {handle : Handle}
    (hactive : work.activeTasks.jobs = []) (h : work.enqueuedTasks = []) :
    ((poll maxRunningTasks now (pushTask hash false handle Remote.new work)).remotes
      work.nextId).startTx = false := by
  have hone : tasksToStart maxRunningTasks
      (retainActive now (pushTask hash false handle Remote.new work)) = 1 := by
    simp [tasksToStart, retainActive, pushTask, JobSet.retain, State.setRemote, hactive,
      maxRunningTasks]
  have hqueue : (retainActive now (pushTask hash false handle Remote.new work)).enqueuedTasks =
      [⟨work.nextId, hash, handle⟩] := by
    simp [retainActive, pushTask, State.setRemote, h]
  rw [poll, hone, startEnqueued, hqueue]
  exact startTx_startJobUnconditional ⟨work.nextId, hash, handle⟩ _

end Poll

section Handler

variable {cfg : Config} {header : FinalizedHeader L} {active queued : AuthoritySet L}
  {s : State L} {current : Option JobMetadata} {activeKeygenRetryId : ℕ}

theorem maybeStart_genesis_eq_none (h : AsksForKeygen cfg header active queued) :
    maybeStartKeygenForStage cfg header activeKeygenRetryId .genesis = none := by
  simp [maybeStartKeygenForStage, h.sets, h.keySet]

theorem maybeStart_next_eq_none_iff (h : AsksForKeygen cfg header active queued) :
    maybeStartKeygenForStage cfg header activeKeygenRetryId .next = none ↔
      header.getNextPartyIndex cfg.authorityPublicKey = some 0 := by
  obtain ⟨i, hi⟩ := Option.isSome_iff_exists.mp h.inNextBest
  simp [maybeStartKeygenForStage, h.sets, h.execute, h.nextKeyUnset, hi,
    SigningManager.keygenPartyId]

theorem sessionId_of_maybeStart_next (h : AsksForKeygen cfg header active queued) {start : Start}
    (hstart : maybeStartKeygenForStage cfg header activeKeygenRetryId .next = some start) :
    start.sessionId = queued.id ∧ start.force = false := by
  simp only [maybeStartKeygenForStage, h.sets, h.execute, h.nextKeyUnset] at hstart
  rw [if_neg (by decide), Option.map_eq_some_iff] at hstart
  obtain ⟨_, _, rfl⟩ := hstart
  exact ⟨rfl, rfl⟩

theorem checkedStage_of_none (h : AsksForKeygen cfg header active queued) (finishedCount : ℕ)
    (state : KeygenState) :
    checkedStage header finishedCount active.id state none = some .next ↔
      Ready active.id state := by
  have hproceed : preChecks header finishedCount active.id state none = .proceed := by
    simp [preChecks, h.execute, h.keySet]
  rw [checkedStage, hproceed, Ready]
  dsimp only
  split
  · cases state <;> simp [genesisChecks]
  · cases state <;> simp [nextChecks, h.nextKeyUnset, KeygenState.isRunning]

theorem sessionId_of_checkedStart (h : AsksForKeygen cfg header active queued)
    {finishedCount : ℕ} {state : KeygenState} {start : Start}
    (hstart : checkedStart cfg header activeKeygenRetryId finishedCount state current =
      some start) : start.sessionId = queued.id ∧ start.force = false := by
  simp only [checkedStart, h.sets] at hstart
  obtain ⟨stage, -, hmaybe⟩ := Option.bind_eq_some_iff.mp hstart
  cases stage with
  | genesis =>
      rw [maybeStart_genesis_eq_none h] at hmaybe
      cases hmaybe
  | next => exact sessionId_of_maybeStart_next h hmaybe

theorem startsKeygen_started {work : WorkManager.State} (hnext : work.nextId = s.work.nextId)
    (hactive : work.activeTasks.jobs = []) (hqueue : work.enqueuedTasks = []) {start : Start}
    (hforce : start.force = false) :
    StartsKeygen start.sessionId s ({ s with work := work }.started cfg start) := by
  simp only [State.started, State.push, hforce, Bool.false_eq_true, if_false]
  refine ⟨?_, ?_⟩
  · rw [State.spawned, Bool.and_eq_true, decide_eq_true_eq, Bool.not_eq_true', ← hnext]
    refine ⟨?_, startTx_poll_pushTask hactive hqueue⟩
    rw [nextId_poll]
    exact Nat.lt_succ_self work.nextId
  · rw [← hnext]
    simp

theorem checkedStart_isSome_iff (h : AsksForKeygen cfg header active queued)
    (hids : Distinct s.work) (hqueue : s.work.enqueuedTasks = []) :
    (∃ start, checkedStart cfg header s.activeKeygenRetryId s.finishedCount s.keygenState
        (sessionIdOfActiveKeygen header.number (poll maxRunningTasks header.number s.work)) =
          some start) ↔ CanStart cfg header active.id s := by
  simp only [checkedStart, h.sets]
  by_cases hends : ∀ job ∈ s.work.activeTasks.jobs, ends header.number s.work job = true
  · have hcurrent : sessionIdOfActiveKeygen header.number
        (poll maxRunningTasks header.number s.work) = none := by
      rw [sessionIdOfActiveKeygen, getActiveSessionsMetadata, jobs_poll_eq_nil hqueue hends]
      rfl
    rw [hcurrent]
    have hready := checkedStage_of_none h s.finishedCount s.keygenState
    constructor
    · rintro ⟨start, hstart⟩
      obtain ⟨stage, hstage, hmaybe⟩ := Option.bind_eq_some_iff.mp hstart
      cases stage with
      | genesis =>
          rw [maybeStart_genesis_eq_none h] at hmaybe
          cases hmaybe
      | next =>
          refine ⟨hends, fun hzero => ?_, hready.mp hstage⟩
          rw [(maybeStart_next_eq_none_iff h).mpr hzero] at hmaybe
          cases hmaybe
    · rintro ⟨-, hindex, hstate⟩
      rw [hready.mpr hstate]
      exact Option.ne_none_iff_exists'.mp fun hnone =>
        hindex ((maybeStart_next_eq_none_iff h).mp hnone)
  · have hruns : ∃ job ∈ s.work.activeTasks.jobs, ends header.number s.work job = false := by
      push Not at hends
      simpa using hends
    have hfinish : ∀ finishedCount sessionId state, preChecks header finishedCount sessionId state
        (sessionIdOfActiveKeygen header.number
          (poll maxRunningTasks header.number s.work)) = .finish none := by
      intro finishedCount sessionId state
      simp [preChecks, h.execute, h.keySet, current_of_not_ends hids hqueue hruns]
    refine iff_of_false ?_ fun hcan => hends hcan.1
    rintro ⟨start, hstart⟩
    rw [checkedStage, hfinish] at hstart
    cases hstart

end Handler

/-- Whether a block that asks for a keygen starts one for the queued session. -/
theorem startsKeygen_iff (cfg : Config) (events : List (Event L))
    (header : FinalizedHeader L) (active queued : AuthoritySet L)
    (hidle : (run (step cfg) (State.new : State L) events).handler =
      .idle)
    (hquiet : NoActiveTask (run (step cfg) (State.new : State L) events))
    (hasks : AsksForKeygen cfg header active queued) :
    let s := run (step cfg) (State.new : State L) events
    StartsKeygen queued.id s (run (step cfg) s (handled header)) ↔
      CanStart cfg header active.id s := by
  intro s
  have hids : Distinct s.work :=
    invariant_run (fun s : State L => Distinct s.work)
      (fun s e h _ => invariant_work Distinct (fun _ _ => distinct_step) cfg e h)
      (fun _ => Nat.zero_le _) (stepsMeet_true _ _ events)
  have hstarts := checkedStart_isSome_iff (s := s) hasks hids hquiet.1
  rw [run_handled cfg header hidle, ← hstarts, onBlockFinalized, hasks.sets]
  simp only [Option.isSome_some, if_true]
  split
  · rename_i hnone
    refine iff_of_false ?_ ?_
    · rintro ⟨hspawned, -⟩
      rw [State.spawned, nextId_poll, decide_eq_false (Nat.lt_irrefl _), Bool.false_and]
        at hspawned
      cases hspawned
    · rintro ⟨start, hstart⟩
      rw [hnone] at hstart
      cases hstart
  · rename_i start hstart
    obtain ⟨hsession, hforce⟩ := sessionId_of_checkedStart hasks hstart
    obtain ⟨hends, -⟩ := hstarts.mp ⟨start, hstart⟩
    refine iff_of_true ?_ ⟨start, hstart⟩
    rw [← hsession]
    exact startsKeygen_started (nextId_poll _ _ _) (jobs_poll_eq_nil hquiet.1 hends)
      (enqueuedTasks_poll_eq_nil hquiet.1) hforce

theorem asksForKeygen_sampleHeader (number sessionId : ℕ) :
    AsksForKeygen sampleNode (sampleHeader number sessionId true false)
      (sampleAuthorities sessionId) (sampleAuthorities (sessionId + 1)) where
  sets := rfl
  keySet := rfl
  nextKeyUnset := rfl
  execute := rfl
  inNextBest := rfl

theorem starts_after_genesis :
    StartsKeygen 2 (State.new : State runtimeLimits)
      (run (step sampleNode) State.new (handled (sampleHeader 100 1 true false))) := by
  refine (startsKeygen_iff sampleNode [] (sampleHeader 100 1 true false) (sampleAuthorities 1)
    (sampleAuthorities 2) rfl ⟨rfl, fun job hjob => absurd hjob List.not_mem_nil⟩
    (asksForKeygen_sampleHeader 100 1)).mpr ⟨fun job hjob => absurd hjob List.not_mem_nil, ?_, ?_⟩
  · decide +kernel
  · rw [Ready, if_neg (by decide)]
    rfl

def sampleOutside : FinalizedHeader runtimeLimits :=
  { sampleHeader 1 0 false false with
    dkgPubKey := (0, [])
    bestAuthorities := [(1, samplePublic 2)] }

def sampleOutsider : State runtimeLimits := run (step sampleNode) State.new (handled sampleOutside)

theorem outsider_starts_no_keygen :
    sampleOutsider.handler = .idle ∧ NoActiveTask sampleOutsider ∧
      AsksForKeygen sampleNode (sampleHeader 100 0 true false) (sampleAuthorities 0)
        (sampleAuthorities 1) ∧
      ¬StartsKeygen 1 sampleOutsider
        (run (step sampleNode) sampleOutsider (handled (sampleHeader 100 0 true false))) := by
  refine ⟨rfl, ⟨by decide +kernel, by decide +kernel⟩, asksForKeygen_sampleHeader 100 0, ?_⟩
  rintro ⟨hspawned, -⟩
  revert hspawned
  decide +kernel

end DkgSubstrate.KeygenStarts
