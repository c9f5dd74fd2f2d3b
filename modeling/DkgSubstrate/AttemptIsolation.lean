import Mathlib.Data.Fintype.Basic
import DkgSubstrate.KeygenManager

/-!
Several attempts of one keygen.  The retry count never changes, so all attempts of a session
have the same protocol hash, and a message is kept from another attempt only by the blocks at
which the attempts were started.
-/

namespace DkgSubstrate.AttemptIsolation

open DkgSubstrate.ChainHeader
open DkgSubstrate.IncomingMessages
open DkgSubstrate.JobLiveness
open DkgSubstrate.KeygenManager
open DkgSubstrate.Primitives
open DkgSubstrate.Runs
open DkgSubstrate.SampleRuntime
open DkgSubstrate.StoredMessages
open DkgSubstrate.Words
open DkgSubstrate.WorkManager hiding State State.new step deliverMessage

section Work

variable {w : WorkManager.State} {call : Call} {maxTasks id : ℕ} {job : Job} {e : Envelope}

theorem mem_received_iff : e ∈ (w.remotes id).received ↔ 0 < copies e w id :=
  List.count_pos_iff.symm

theorem mem_received_startJobUnconditional
    (h : e ∈ ((startJobUnconditional job w).remotes id).received) :
    e ∈ (w.remotes id).received ∨ job.id = id ∧
      shouldDeliver job e.message job.taskHash = true := by
  rw [mem_received_iff, copies_startJobUnconditional] at h
  rw [mem_received_iff]
  split at h
  · rename_i hgets
    exact Or.inr ⟨hgets.2.1.symm, hgets.2.2.1⟩
  · exact Or.inl h

theorem mem_received_startEnqueued (n : ℕ)
    (h : e ∈ ((startEnqueued n w).remotes id).received) :
    e ∈ (w.remotes id).received ∨ ∃ job ∈ w.enqueuedTasks, job.id = id ∧
      shouldDeliver job e.message job.taskHash = true := by
  induction n generalizing w with
  | zero => exact Or.inl h
  | succ n ih =>
      rw [startEnqueued] at h
      split at h
      · exact Or.inl h
      · rename_i first rest htasks
        rw [htasks]
        rcases ih h with hstarted | ⟨job, hjob, hfor⟩
        · rcases mem_received_startJobUnconditional hstarted with hold | hfor
          · exact Or.inl hold
          · exact Or.inr ⟨first, List.mem_cons_self, hfor⟩
        · rw [enqueuedTasks_startJobUnconditional] at hjob
          exact Or.inr ⟨job, List.mem_cons_of_mem first hjob, hfor⟩

theorem mem_received_of_deliverMessage {message : SignedDKGMessage} {hash : TaskHash}
    (h : e ∈ ((WorkManager.deliverMessage message hash w).remotes id).received) :
    e ∈ (w.remotes id).received ∨ ∃ job ∈ jobs w, job.id = id ∧
      ∃ hash, shouldDeliver job e.message hash = true := by
  rw [WorkManager.deliverMessage] at h
  dsimp only at h
  split at h
  · rename_i job hjob
    by_cases hid : id = job.id
    · subst hid
      rw [remotes_setRemote, Function.update_self, ← List.count_pos_iff,
        Remote.count_received_deliverMessage] at h
      split at h
      · rename_i htakes
        have hmem := List.mem_of_find?_eq_some hjob
        refine Or.inr ⟨job, ?_, rfl, hash, ?_⟩
        · exact List.mem_append.mpr (List.mem_append.mp hmem).symm
        · rw [← htakes.2]
          simpa using List.find?_some hjob
      · exact Or.inl (List.count_pos_iff.mp h)
    · rw [remotes_setRemote, Function.update_of_ne hid] at h
      exact Or.inl h
  · exact Or.inl h

theorem mem_received_step (hpush : call.isPush = false)
    (h : e ∈ ((WorkManager.step maxTasks w call).remotes id).received) :
    e ∈ (w.remotes id).received ∨ ∃ job ∈ jobs w, job.id = id ∧
      ∃ hash, shouldDeliver job e.message hash = true := by
  cases call with
  | pushTask => cases hpush
  | deliverMessage message hash => exact mem_received_of_deliverMessage h
  | poll now =>
      rcases mem_received_startEnqueued (tasksToStart maxTasks (retainActive now w)) h with
        hold | ⟨job, hjob, hid, hfor⟩
      · left
        rw [retainActive] at hold
        dsimp only at hold
        rw [received_dropJobs, received_shutdownStalled] at hold
        exact hold
      · exact Or.inr ⟨job, List.mem_append_right _ hjob, hid, job.taskHash, hfor⟩
  | clearEnqueuedTasks =>
      rw [WorkManager.step, clearEnqueuedTasks] at h
      dsimp only at h
      rw [received_dropJobs] at h
      exact Or.inl h
  | forceShutdownAll =>
      rw [WorkManager.step, forceShutdownAll] at h
      dsimp only at h
      rw [received_dropJobs, received_dropJobs] at h
      exact Or.inl h
  | protocol id' p =>
      left
      rw [WorkManager.step, remotes_setRemote] at h
      have hsame : (Function.update w.remotes id' ((w.remotes id').progress p) id).received =
          (w.remotes id).received := by
        refine apply_update_remote Remote.received ?_ id
        rfl
      rw [hsame] at h
      exact h

theorem mem_jobs_step (hpush : call.isPush = false)
    (h : job ∈ jobs (WorkManager.step maxTasks w call)) : job ∈ jobs w := by
  have hcount := countP_step (fun job' => job' == job) maxTasks w call
  have hnone : pushedJobs w call = [] := by
    cases call with
    | pushTask => cases hpush
    | deliverMessage | poll | clearEnqueuedTasks | forceShutdownAll | protocol => rfl
  rw [hnone, List.countP_nil, Nat.add_zero] at hcount
  have hpos := List.count_pos_iff.mpr h
  exact List.count_pos_iff.mp (Nat.lt_of_lt_of_le hpos hcount)

end Work

section Node

variable {L : Limits} {cfg : Config} {s : State L} {id : ℕ}

structure Routed (s : State L) : Prop where
  handles : ∀ job ∈ jobs s.work,
    job.id < s.work.nextId ∧ job.handle = (s.tasks job.id).start.handle
  received : ∀ id, ∀ e ∈ (s.work.remotes id).received,
    id < s.work.nextId ∧ e.message.msg.sessionId = (s.tasks id).start.sessionId ∧
      associatedBlockIdAcceptable (s.tasks id).start.block
        e.message.msg.associatedBlockId = true

theorem routed_new : Routed (State.new : State L) where
  handles _ hjob := absurd hjob List.not_mem_nil
  received _ _ he := absurd he List.not_mem_nil

theorem Routed.of_step (h : Routed s) (cfg : Config) (event : Event L) {id : ℕ} {e : Envelope}
    (he : e ∈ (s.work.remotes id).received) :
    id < (step cfg s event).work.nextId ∧
      e.message.msg.sessionId = ((step cfg s event).tasks id).start.sessionId ∧
      associatedBlockIdAcceptable ((step cfg s event).tasks id).start.block
        e.message.msg.associatedBlockId = true := by
  obtain ⟨hid, hrest⟩ := h.received id e he
  rw [start_step hid]
  exact ⟨Nat.lt_of_lt_of_le hid (nextId_le_step cfg s event), hrest⟩

theorem routed_step (h : Routed s) (cfg : Config) (event : Event L) :
    Routed (step cfg s event) := by
  have hold : ∀ job ∈ jobs s.work, job.id < (step cfg s event).work.nextId ∧
      job.handle = ((step cfg s event).tasks job.id).start.handle := by
    intro job hjob
    obtain ⟨hid, hhandle⟩ := h.handles job hjob
    rw [start_step hid]
    exact ⟨Nat.lt_of_lt_of_le hid (nextId_le_step cfg s event), hhandle⟩
  rcases work_step cfg s event with hsame | ⟨call, hcall, hwork⟩ |
    ⟨start, rfl, hhandler, hwork⟩
  · refine ⟨fun job hjob => hold job (hsame ▸ hjob), fun id e he => ?_⟩
    rw [hsame] at he
    exact h.of_step cfg event he
  · refine ⟨fun job hjob => ?_, fun id e he => ?_⟩
    · rw [hwork] at hjob
      exact hold job (mem_jobs_step hcall hjob)
    · rw [hwork] at he
      rcases mem_received_step hcall he with he | ⟨job, hjob, rfl, hash, hfor⟩
      · exact h.of_step cfg event he
      · obtain ⟨hid, hhandle⟩ := hold job hjob
        simp only [shouldDeliver, Bool.and_eq_true, beq_iff_eq, hhandle, Start.handle] at hfor
        exact ⟨hid, hfor.1.1.1.symm, hfor.2⟩
  · refine ⟨fun job hjob => ?_, fun id e he => ?_⟩
    · rw [hwork, jobs] at hjob
      rcases List.mem_append.mp hjob with hactive | hqueued
      · exact hold job (List.mem_append_left _ hactive)
      · rcases List.mem_append.mp hqueued with hqueued | hpushed
        · exact hold job (List.mem_append_right _ hqueued)
        · rw [List.mem_singleton.mp hpushed, hwork, tasks_push hhandler]
          refine ⟨Nat.lt_succ_self _, ?_⟩
          rw [Function.update_self]
    · by_cases hid : id = s.work.nextId
      · rw [hwork, hid] at he
        simp [pushTask, Remote.received_new] at he
      · have hother : ((step cfg s .advance).work.remotes id) = s.work.remotes id := by
          rw [hwork]
          exact Function.update_of_ne hid _ _
        rw [hother] at he
        exact h.of_step cfg .advance he

def attempts (sessionId : ℕ) (s : State L) (n : ℕ) : ℕ :=
  (List.range n).countP fun id => (s.tasks id).start.sessionId == sessionId

/-- How many attempts of the same session have been made before the attempt. -/
def retryCount (s : State L) (id : ℕ) : ℕ := attempts (s.tasks id).start.sessionId s id

theorem attempts_step (hid : id ≤ s.work.nextId) (sessionId : ℕ) (event : Event L) :
    attempts sessionId (step cfg s event) id = attempts sessionId s id := by
  refine List.countP_congr fun id' hmem => ?_
  rw [start_step (Nat.lt_of_lt_of_le (List.mem_range.mp hmem) hid)]

theorem retryCount_step (hid : id < s.work.nextId) (event : Event L) :
    retryCount (step cfg s event) id = retryCount s id := by
  rw [retryCount, retryCount, start_step hid, attempts_step (Nat.le_of_lt hid)]

theorem attempt_cases {event : Event L} (hid : id < (step cfg s event).work.nextId) :
    id < s.work.nextId ∨ ∃ start, event = .advance ∧ s.handler = .pushing start ∧
      id = s.work.nextId ∧ ((step cfg s event).tasks id).start = start ∧
      retryCount (step cfg s event) id = attempts start.sessionId s s.work.nextId := by
  rcases work_step cfg s event with hsame | ⟨call, hcall, hwork⟩ |
    ⟨start, rfl, hhandler, hwork⟩
  · left
    rw [hsame] at hid
    exact hid
  · left
    rw [hwork, nextId_step, hcall] at hid
    exact hid
  · rw [hwork] at hid
    rcases Nat.lt_succ_iff_lt_or_eq.mp hid with hold | rfl
    · exact Or.inl hold
    · have hstart : ((step cfg s .advance).tasks s.work.nextId).start = start := by
        rw [tasks_push hhandler, Function.update_self]
      refine Or.inr ⟨start, rfl, hhandler, rfl, hstart, ?_⟩
      rw [retryCount, hstart, attempts_step (Nat.le_refl _)]

def decided : Handler L → Option Start
  | .shutting start | .locking start | .pushing start | .starting start | .recording start =>
      some start
  | .idle | .polling _ | .reading _ | .loading .. | .checking .. => none

def HashedFirst (crypto : Crypto) (start : Start) : Prop :=
  start.keygenProtocolHash = getKeygenProtocolHash crypto start.sessionId 0

theorem hashedFirst_of_checkedStart {header : FinalizedHeader L} {finishedCount : ℕ}
    {state : KeygenState} {current : Option JobMetadata} {start : Start}
    (h : checkedStart cfg header 0 finishedCount state current = some start) :
    HashedFirst cfg.crypto start := by
  rw [checkedStart] at h
  split at h
  · cases h
  · obtain ⟨stage, -, hstage⟩ := Option.bind_eq_some_iff.mp h
    unfold maybeStartKeygenForStage at hstage
    split at hstage
    · cases hstage
    · rw [Option.ite_none_left_eq_some, Option.map_eq_some_iff] at hstage
      obtain ⟨-, party, -, rfl⟩ := hstage
      rfl

/-- The retry count of the manager is never written. -/
structure Hashed (crypto : Crypto) (s : State L) : Prop where
  retry : s.activeKeygenRetryId = 0
  next : ∀ start, decided s.handler = some start → HashedFirst crypto start
  made : ∀ id < s.work.nextId, HashedFirst crypto (s.tasks id).start

theorem activeKeygenRetryId_step (event : Event L) :
    (step cfg s event).activeKeygenRetryId = s.activeKeygenRetryId := by
  cases event with
  | blockFinalized header | deliverMessage message =>
      simp only [step, State.deliverMessage]
      split <;> rfl
  | advance =>
      rw [step, State.advance]
      split <;> first | rfl | skip
      split <;> rfl
  | task id e =>
      rcases taskStep_cases id e s with hsame | ⟨t, -, -, hnext⟩
      · rw [step, hsame]
      · rw [step, hnext, State.record]
        split <;> rfl

theorem decided_step {event : Event L} {start : Start}
    (h : decided (step cfg s event).handler = some start) :
    decided s.handler = some start ∨ ∃ (header : FinalizedHeader L) (current : _) (state : _),
      checkedStart cfg header s.activeKeygenRetryId s.finishedCount state current =
        some start := by
  cases event with
  | blockFinalized header =>
      rw [step] at h
      split at h
      · cases h
      · exact Or.inl h
  | advance =>
      rw [step, State.advance] at h
      cases hhandler : s.handler with
      | idle =>
          simp only [hhandler, decided] at h
          cases h
      | polling | reading | loading | recording =>
          rw [hhandler] at h
          cases h
      | checking header current state =>
          rw [hhandler] at h
          dsimp only at h
          split at h
          · cases h
          · rename_i start' hstart
            cases h
            exact Or.inr ⟨header, current, state, hstart⟩
      | shutting | locking | pushing | starting =>
          rw [hhandler] at h
          exact Or.inl h
  | task id e =>
      rcases taskStep_cases id e s with hsame | ⟨t, -, -, hnext⟩
      · rw [step, hsame] at h
        exact Or.inl h
      · rw [step, hnext, handler_record] at h
        exact Or.inl h
  | deliverMessage message =>
      rw [step, State.deliverMessage] at h
      split at h <;> exact Or.inl h

theorem hashed_step (cfg : Config) (h : Hashed cfg.crypto s) (event : Event L) :
    Hashed cfg.crypto (step cfg s event) := by
  refine ⟨?_, fun start hstart => ?_, fun id hid => ?_⟩
  · rw [activeKeygenRetryId_step]
    exact h.retry
  · rcases decided_step hstart with hold | ⟨header, current, state, hnew⟩
    · exact h.next start hold
    · rw [h.retry] at hnew
      exact hashedFirst_of_checkedStart hnew
  · rcases attempt_cases hid with hold | ⟨start, -, hhandler, -, hstart, -⟩
    · rw [start_step hold]
      exact h.made id hold
    · rw [hstart]
      exact h.next start (by rw [hhandler, decided])

theorem hashed_new (crypto : Crypto) : Hashed crypto (State.new : State L) where
  retry := rfl
  next start hstart := absurd hstart.symm (Option.some_ne_none start)
  made _ hid := absurd hid (Nat.not_lt_zero _)

end Node

/-- What a protocol puts into a message, and its signature. -/
structure Body where
  senderId : UInt16
  keygenMsg : Bytes
  recipientId : Option Public
  signature : Option Bytes

structure Emission (P : Type) where
  party : P
  attempt : ℕ
  message : SignedDKGMessage
deriving DecidableEq

structure Network (L : Limits) (P : Type) where
  nodes : P → State L
  sent : List (Emission P)

def keygenMessage (key : Public) (start : Start) (body : Body) : SignedDKGMessage where
  msg :=
    { senderId := key
      recipientId := body.recipientId
      payload := .keygen ⟨body.senderId, body.keygenMsg, start.keygenProtocolHash⟩
      sessionId := start.sessionId
      associatedBlockId := start.block
      ssid := start.handle.ssid }
  signature := body.signature

/-- Whatever arrives at a node is one of its events. -/
inductive NetworkEvent (L : Limits) (P : Type) where
  | node (party : P) (e : Event L)
  | emit (party : P) (attempt : ℕ) (body : Body)

section Network

variable {L : Limits} {P : Type}

def Network.new : Network L P := ⟨fun _ => State.new, []⟩

def Later (n : Network L P) (p : P) (id : ℕ) (q : P) (id' : ℕ) : Prop :=
  ((n.nodes p).tasks id).start.sessionId = ((n.nodes q).tasks id').start.sessionId ∧
    retryCount (n.nodes q) id' < retryCount (n.nodes p) id

/-- No message that was emitted in one attempt is with a later attempt. -/
def Isolated (n : Network L P) : Prop :=
  ∀ emission ∈ n.sent, ∀ p id, ∀ e ∈ ((n.nodes p).work.remotes id).received,
    e.message = emission.message → ¬Later n p id emission.party emission.attempt

/-- All attempts of a session, of whatever party, have the same protocol hash. -/
def HashedAlike (n : Network L P) : Prop :=
  ∀ p q, ∀ id < (n.nodes p).work.nextId, ∀ id' < (n.nodes q).work.nextId,
    ((n.nodes p).tasks id).start.sessionId = ((n.nodes q).tasks id').start.sessionId →
    ((n.nodes p).tasks id).start.keygenProtocolHash =
      ((n.nodes q).tasks id').start.keygenProtocolHash

def FarApart (block block' : ℕ) : Prop :=
  associatedBlockIdAcceptable block block' = false ∧
    associatedBlockIdAcceptable block' block = false

instance (block block' : ℕ) : Decidable (FarApart block block') :=
  inferInstanceAs (Decidable (_ ∧ _))

/-- A new attempt is far apart from all attempts of the same session with another retry
count. -/
def StartsFarApart (n : Network L P) : NetworkEvent L P → Prop
  | .node p .advance =>
      match (n.nodes p).handler with
      | .pushing start => ∀ q, ∀ id < (n.nodes q).work.nextId,
          ((n.nodes q).tasks id).start.sessionId = start.sessionId →
          retryCount (n.nodes q) id ≠
            attempts start.sessionId (n.nodes p) (n.nodes p).work.nextId →
          FarApart start.block ((n.nodes q).tasks id).start.block
      | _ => True
  | .node _ (.blockFinalized _) | .node _ (.task ..) | .node _ (.deliverMessage _)
  | .emit .. => True

instance [Fintype P] (n : Network L P) :
    (e : NetworkEvent L P) → Decidable (StartsFarApart n e)
  | .node p .advance =>
      match h : (n.nodes p).handler with
      | .pushing start => decidable_of_iff (∀ q, ∀ id < (n.nodes q).work.nextId,
          ((n.nodes q).tasks id).start.sessionId = start.sessionId →
          retryCount (n.nodes q) id ≠
            attempts start.sessionId (n.nodes p) (n.nodes p).work.nextId →
          FarApart start.block ((n.nodes q).tasks id).start.block)
          (by rw [StartsFarApart, h])
      | .idle | .polling _ | .reading _ | .loading .. | .checking .. | .shutting _
      | .locking _ | .starting _ | .recording _ => isTrue (by rw [StartsFarApart, h]; trivial)
  | .node _ (.blockFinalized _) | .node _ (.task ..) | .node _ (.deliverMessage _)
  | .emit .. => isTrue trivial

structure Coherent (n : Network L P) : Prop where
  routed : ∀ p, Routed (n.nodes p)
  emitted : ∀ emission ∈ n.sent, emission.attempt < (n.nodes emission.party).work.nextId ∧
    emission.message.msg.sessionId =
      ((n.nodes emission.party).tasks emission.attempt).start.sessionId ∧
    emission.message.msg.associatedBlockId =
      ((n.nodes emission.party).tasks emission.attempt).start.block
  apart : ∀ p q, ∀ id < (n.nodes p).work.nextId, ∀ id' < (n.nodes q).work.nextId,
    ((n.nodes p).tasks id).start.sessionId = ((n.nodes q).tasks id').start.sessionId →
    retryCount (n.nodes p) id ≠ retryCount (n.nodes q) id' →
    FarApart ((n.nodes p).tasks id).start.block ((n.nodes q).tasks id').start.block

theorem coherent_new : Coherent (Network.new : Network L P) where
  routed _ := routed_new
  emitted _ hmem := absurd hmem List.not_mem_nil
  apart _ _ _ hid := absurd hid (Nat.not_lt_zero _)

theorem Coherent.isolated {n : Network L P} (h : Coherent n) : Isolated n := by
  rintro emission hsent p id e he hmessage ⟨hsession, hretry⟩
  obtain ⟨hid, -, hacceptable⟩ := (h.routed p).received id e he
  obtain ⟨hattempt, -, hblock⟩ := h.emitted emission hsent
  have hfar := h.apart p emission.party id hid emission.attempt hattempt hsession
    (Nat.ne_of_gt hretry)
  rw [hmessage, hblock, hfar.1] at hacceptable
  cases hacceptable

theorem hashedAlike_of_hashed {crypto : Crypto} {n : Network L P}
    (h : ∀ p, Hashed crypto (n.nodes p)) : HashedAlike n := by
  intro p q id hid id' hid' hsession
  rw [(h p).made id hid, (h q).made id' hid', hsession]

variable [DecidableEq P]

def networkStep (crypto : Crypto) (key : P → Public) (n : Network L P) :
    NetworkEvent L P → Network L P
  | .node p e =>
      { n with nodes := Function.update n.nodes p (step ⟨crypto, key p⟩ (n.nodes p) e) }
  | .emit p attempt body =>
      if (n.nodes p).spawned attempt then
        { n with
          sent := n.sent ++
            [⟨p, attempt, keygenMessage (key p) ((n.nodes p).tasks attempt).start body⟩] }
      else n

variable {crypto : Crypto} {key : P → Public} {n : Network L P} {p : P}

theorem nodes_node_self (e : Event L) :
    (networkStep crypto key n (.node p e)).nodes p = step ⟨crypto, key p⟩ (n.nodes p) e :=
  Function.update_self _ _ _

theorem nodes_node_of_ne {q : P} (hq : q ≠ p) (e : Event L) :
    (networkStep crypto key n (.node p e)).nodes q = n.nodes q :=
  Function.update_of_ne hq _ _

theorem attempt_node (crypto : Crypto) (key : P → Public) (p : P) {q : P} {id : ℕ}
    (hid : id < (n.nodes q).work.nextId) (e : Event L) :
    id < ((networkStep crypto key n (.node p e)).nodes q).work.nextId ∧
      (((networkStep crypto key n (.node p e)).nodes q).tasks id).start =
        ((n.nodes q).tasks id).start ∧
      retryCount ((networkStep crypto key n (.node p e)).nodes q) id =
        retryCount (n.nodes q) id := by
  by_cases hq : q = p
  · subst hq
    rw [nodes_node_self]
    exact ⟨Nat.lt_of_lt_of_le hid (nextId_le_step _ _ e), start_step hid _ e,
      retryCount_step hid e⟩
  · rw [nodes_node_of_ne hq]
    exact ⟨hid, rfl, rfl⟩

theorem attempt_node_cases {q : P} {id : ℕ} {e : Event L}
    (hid : id < ((networkStep crypto key n (.node p e)).nodes q).work.nextId) :
    id < (n.nodes q).work.nextId ∨
      ∃ start, q = p ∧ e = .advance ∧ (n.nodes p).handler = .pushing start ∧
        id = (n.nodes p).work.nextId ∧
        (((networkStep crypto key n (.node p e)).nodes q).tasks id).start = start ∧
        retryCount ((networkStep crypto key n (.node p e)).nodes q) id =
          attempts start.sessionId (n.nodes p) (n.nodes p).work.nextId := by
  by_cases hq : q = p
  · subst hq
    rw [nodes_node_self] at hid ⊢
    refine (attempt_cases hid).imp_right ?_
    rintro ⟨start, hrest⟩
    exact ⟨start, rfl, hrest⟩
  · rw [nodes_node_of_ne hq] at hid
    exact Or.inl hid

theorem coherent_node (h : Coherent n) {e : Event L} (hcond : StartsFarApart n (.node p e)) :
    Coherent (networkStep crypto key n (.node p e)) := by
  refine ⟨?_, ?_, ?_⟩
  · intro q
    by_cases hq : q = p
    · subst hq
      rw [nodes_node_self]
      exact routed_step (h.routed q) _ e
    · rw [nodes_node_of_ne hq]
      exact h.routed q
  · intro emission hsent
    obtain ⟨hid, hrest⟩ := h.emitted emission hsent
    obtain ⟨hid', hstart, -⟩ := attempt_node crypto key p hid e
    rw [hstart]
    exact ⟨hid', hrest⟩
  · intro q q' id hid id' hid' hsession hretry
    rcases attempt_node_cases hid with hold | ⟨start, rfl, rfl, hhandler, hnew, hstart, hcount⟩
    · obtain ⟨-, hstart, hcount⟩ := attempt_node crypto key p hold e
      rw [hstart] at hsession ⊢
      rw [hcount] at hretry
      rcases attempt_node_cases hid' with hold' | ⟨start', rfl, rfl, hhandler, -, hstart', hcount'⟩
      · obtain ⟨-, hstart', hcount'⟩ :=
          attempt_node crypto key p hold' e
        rw [hstart'] at hsession ⊢
        rw [hcount'] at hretry
        exact h.apart q q' id hold id' hold' hsession hretry
      · rw [hstart'] at hsession ⊢
        rw [hcount'] at hretry
        rw [StartsFarApart, hhandler] at hcond
        exact (hcond q id hold hsession hretry).symm
    · rcases attempt_node_cases hid' with hold' | ⟨start', rfl, -, -, hnew', -, -⟩
      · obtain ⟨-, hstart', hcount'⟩ :=
          attempt_node crypto key q hold' .advance
        rw [hstart, hstart'] at hsession ⊢
        rw [hcount, hcount'] at hretry
        rw [StartsFarApart, hhandler] at hcond
        exact hcond q' id' hold' hsession.symm hretry.symm
      · rw [hnew, hnew'] at hretry
        exact absurd rfl hretry

theorem coherent_step (h : Coherent n) {event : NetworkEvent L P}
    (hcond : StartsFarApart n event) : Coherent (networkStep crypto key n event) := by
  cases event with
  | node p e => exact coherent_node h hcond
  | emit p attempt body =>
      rw [networkStep]
      split
      · rename_i hspawned
        refine ⟨h.routed, ?_, h.apart⟩
        intro emission hsent
        rcases List.mem_append.mp hsent with hold | hnew
        · exact h.emitted emission hold
        · rw [List.mem_singleton.mp hnew]
          rw [State.spawned, Bool.and_eq_true, decide_eq_true_eq] at hspawned
          exact ⟨hspawned.1, rfl, rfl⟩
      · exact h

theorem hashed_networkStep (key : P → Public) (h : ∀ p, Hashed crypto (n.nodes p))
    (event : NetworkEvent L P) (q : P) :
    Hashed crypto ((networkStep crypto key n event).nodes q) := by
  cases event with
  | node p e =>
      by_cases hq : q = p
      · subst hq
        rw [nodes_node_self]
        exact hashed_step ⟨crypto, key q⟩ (h q) e
      · rw [nodes_node_of_ne hq]
        exact h q
  | emit p attempt body =>
      rw [networkStep]
      split <;> exact h q

end Network

/-- The attempts of a session have the same protocol hash in every run.  No message gets into a
later attempt in a run in which the attempts of a session with different retry counts are started
at blocks that are far apart. -/
theorem isolated_run {L : Limits} {P : Type} [DecidableEq P] (crypto : Crypto)
    (key : P → Public) (events : List (NetworkEvent L P)) :
    Always (networkStep crypto key) HashedAlike (Network.new : Network L P) events ∧
      (StepsMeet (networkStep crypto key) StartsFarApart (Network.new : Network L P) events →
        Always (networkStep crypto key) Isolated (Network.new : Network L P) events) := by
  constructor
  · have hhashed := always_of_invariant (fun n : Network L P => ∀ p, Hashed crypto (n.nodes p))
      (fun _ event hn _ => hashed_networkStep key hn event) (fun _ => hashed_new crypto)
      (stepsMeet_true (networkStep crypto key) Network.new events)
    exact fun pre post hsplit => hashedAlike_of_hashed (hhashed pre post hsplit)
  · intro hfar
    have hcoherent := always_of_invariant Coherent (fun _ _ hn hcond => coherent_step hn hcond)
      coherent_new hfar
    exact fun pre post hsplit => (hcoherent pre post hsplit).isolated

def sampleKey (second : Bool) : Public := samplePublic (if second then 2 else 1)

def sampleBody : Body := ⟨1, [42], none, none⟩

def sampleMessage : SignedDKGMessage :=
  keygenMessage (sampleKey false)
    ⟨.next, 2, getKeygenProtocolHash sampleCrypto 2 0, 100, false⟩ sampleBody

def sampleRetry (block : ℕ) : List (NetworkEvent runtimeLimits Bool) :=
  (handled (sampleHeader 100 1 true false)).map (.node false) ++
    (handled (sampleHeader 100 1 true false)).map (.node true) ++
    [.emit false 0 sampleBody] ++
    (handled (sampleHeader block 1 true true)).map (.node true) ++
    [.node true (.deliverMessage sampleMessage)]

theorem isolated_sampleRetry :
    StepsMeet (networkStep sampleCrypto sampleKey) StartsFarApart Network.new
        (sampleRetry 120) ∧
      Always (networkStep sampleCrypto sampleKey) Isolated Network.new (sampleRetry 120) := by
  have hfar : StepsMeet (networkStep sampleCrypto sampleKey) StartsFarApart Network.new
      (sampleRetry 120) := by decide +kernel
  exact ⟨hfar, (isolated_run sampleCrypto sampleKey (sampleRetry 120)).2 hfar⟩

def sampleMixed : Network runtimeLimits Bool :=
  run (networkStep sampleCrypto sampleKey) Network.new (sampleRetry 101)

theorem earlier_message_delivered :
    ((sampleMixed.nodes true).tasks 1).start.keygenProtocolHash =
        ((sampleMixed.nodes false).tasks 0).start.keygenProtocolHash ∧
      ¬Isolated sampleMixed := by
  refine ⟨by decide +kernel, fun h => ?_⟩
  refine h ⟨false, 0, sampleMessage⟩ (by decide +kernel) true 1 ⟨0, sampleMessage⟩
    (by decide +kernel) rfl ⟨?_, ?_⟩
  · decide +kernel
  · decide +kernel

end DkgSubstrate.AttemptIsolation
