import DkgSubstrate.WorkManager

/-!
Messages that arrive before their protocol.  They are stored by task hash and signing set, and
go to the first job with that task hash and signing set that is started.
-/

namespace DkgSubstrate.StoredMessages

open DkgSubstrate.IncomingMessages
open DkgSubstrate.Runs
open DkgSubstrate.WorkManager

/-- How often a message was delivered to a job. -/
def copies (e : Envelope) (s : State) (id : ℕ) : ℕ := (s.remotes id).received.count e

theorem count_received_drain (job : Job) (queue : List Envelope) (r : Remote) (e : Envelope) :
    (drain job queue r).received.count e = r.received.count e +
      if shouldDeliver job e.message job.taskHash = true ∧ r.takes e = true then queue.count e
      else 0 := by
  induction queue generalizing r with
  | nil => simp [drain]
  | cons e' queue ih =>
      rw [drain, List.foldl_cons, ← drain, ih]
      by_cases heq : e' = e
      · subst heq
        by_cases hdeliver : shouldDeliver job e'.message job.taskHash = true
        · simp only [hdeliver, if_true, Remote.count_received_deliverMessage,
            Remote.takes_deliverMessage, true_and, and_true, List.count_cons_self]
          split <;> omega
        · simp [hdeliver]
      · rw [List.count_cons_of_ne heq]
        by_cases hdeliver : shouldDeliver job e'.message job.taskHash = true
        · simp [hdeliver, Remote.count_received_deliverMessage, heq]
        · simp [hdeliver]

theorem copies_insertActive (job : Job) (s : State) (e : Envelope) (id : ℕ) :
    copies e (insertActive job s) id = copies e s id := by
  rcases insertActive_eq job s with ⟨set, -, heq⟩ | ⟨-, heq⟩
  · rw [heq]
    rfl
  · rw [heq, copies, copies, remotes_setRemote]
    rw [apply_update_remote Remote.received (Remote.received_drop _)]

theorem enqueuedMessages_insertActive (job : Job) (s : State) :
    (insertActive job s).enqueuedMessages = s.enqueuedMessages := by
  rcases insertActive_eq job s with ⟨set, -, heq⟩ | ⟨-, heq⟩
  · rw [heq]
  · rw [heq]
    rfl

theorem copies_startJobUnconditional (job : Job) (s : State) (e : Envelope) (id : ℕ) :
    copies e (startJobUnconditional job s) id = copies e s id +
      if (s.remotes job.id).starts = true ∧ id = job.id ∧
          shouldDeliver job e.message job.taskHash = true ∧ (s.remotes job.id).takes e = true
      then (s.enqueuedMessages job.taskHash job.handle.ssid).count e
      else 0 := by
  rw [startJobUnconditional]
  rw [copies_insertActive]
  by_cases hid : id = job.id
  · subst hid
    split
    · rename_i hstarts
      simp only [copies, deliverEnqueued, State.setQueue, remotes_setRemote,
        Function.update_self, enqueuedMessages_setRemote, count_received_drain,
        Remote.received_start]
      congr 1
      exact if_congr (by simp [hstarts]) rfl rfl
    · rename_i hstarts
      simp [copies, hstarts]
  · split
    · simp [copies, deliverEnqueued, State.setQueue, hid]
    · simp [copies, hid]

theorem enqueuedMessages_startJobUnconditional (job : Job) (s : State) (hash : TaskHash)
    (ssid : UInt16) :
    (startJobUnconditional job s).enqueuedMessages hash ssid =
      if (s.remotes job.id).starts = true ∧ hash = job.taskHash ∧ ssid = job.handle.ssid then []
      else s.enqueuedMessages hash ssid := by
  rw [startJobUnconditional]
  rw [enqueuedMessages_insertActive]
  split
  · rename_i hstarts
    rw [deliverEnqueued, enqueuedMessages_setQueue]
    exact if_congr (and_iff_right hstarts).symm rfl rfl
  · rename_i hstarts
    rw [if_neg fun hall => hstarts hall.1]
    rfl

section Tracked

variable (hash : TaskHash) (e : Envelope)

def sameQueue (x : Job × Remote) : Bool :=
  x.1.taskHash == hash && x.1.handle.ssid == e.message.msg.ssid

def accepts (x : Job × Remote) : Bool :=
  shouldDeliver x.1 e.message hash && x.2.takes e

/-- The first of the started jobs that has the queue of the message. -/
def first (past : List (Job × Remote)) : Option (Job × Remote) :=
  past.find? (sameQueue hash e)

/-- The job that has got the message. -/
def receiver (past : List (Job × Remote)) : Option ℕ :=
  (first hash e past).bind fun x => if accepts hash e x then some x.1.id else none

structure Tracked (n : ℕ) (past : List (Job × Remote)) (s : State) : Prop where
  queued : ∀ hash' ssid, (s.enqueuedMessages hash' ssid).count e =
    if first hash e past = none ∧ hash' = hash ∧ ssid = e.message.msg.ssid then n else 0
  delivered : ∀ id, copies e s id = if receiver hash e past = some id then n else 0

end Tracked

variable {hash : TaskHash} {e : Envelope} {n : ℕ} {past : List (Job × Remote)} {s : State}

theorem first_append (past past' : List (Job × Remote)) :
    first hash e (past ++ past') = (first hash e past).or (first hash e past') :=
  List.find?_append

theorem sameQueue_iff {x : Job × Remote} :
    sameQueue hash e x = true ↔ x.1.taskHash = hash ∧ x.1.handle.ssid = e.message.msg.ssid := by
  rw [sameQueue, Bool.and_eq_true, beq_iff_eq, beq_iff_eq]

theorem receiver_eq_some_iff {id : ℕ} :
    receiver hash e past = some id ↔
      ∃ x, first hash e past = some x ∧ accepts hash e x = true ∧ x.1.id = id := by
  rw [receiver, Option.bind_eq_some_iff]
  refine exists_congr fun x => and_congr_right fun _ => ?_
  rw [Option.ite_none_right_eq_some, Option.some.injEq]

theorem Tracked.congr (h : Tracked hash e n past s) {past' : List (Job × Remote)} {s' : State}
    (hfirst : first hash e past' = first hash e past)
    (hqueued : ∀ hash' ssid, (s'.enqueuedMessages hash' ssid).count e =
      (s.enqueuedMessages hash' ssid).count e)
    (hcopies : ∀ id, copies e s' id = copies e s id) : Tracked hash e n past' s' := by
  refine ⟨?_, ?_⟩
  · intro hash' ssid
    rw [hqueued, hfirst]
    exact h.queued hash' ssid
  · intro id
    rw [hcopies, receiver, hfirst]
    exact h.delivered id

theorem Tracked.of_received_eq (h : Tracked hash e n past s) {s' : State}
    (hqueues : s'.enqueuedMessages = s.enqueuedMessages)
    (hreceived : ∀ id, (s'.remotes id).received = (s.remotes id).received) :
    Tracked hash e n past s' := by
  refine h.congr rfl ?_ ?_
  · intro hash' ssid
    rw [hqueues]
  · intro id
    rw [copies, hreceived, copies]

theorem tracked_start_of_count_eq_zero (h : Tracked hash e n past s) {job : Job}
    {past' : List (Job × Remote)} (hfirst : first hash e past' = first hash e past)
    (hzero : (s.remotes job.id).starts = true →
      (s.enqueuedMessages job.taskHash job.handle.ssid).count e = 0) :
    Tracked hash e n past' (startJobUnconditional job s) := by
  refine h.congr hfirst ?_ ?_
  · intro hash' ssid
    rw [enqueuedMessages_startJobUnconditional]
    split
    · rename_i hqueue
      obtain ⟨hstarts, rfl, rfl⟩ := hqueue
      rw [List.count_nil, hzero hstarts]
    · rfl
  · intro id
    rw [copies_startJobUnconditional]
    split
    · rename_i hgets
      rw [hzero hgets.1, Nat.add_zero]
    · rw [Nat.add_zero]

theorem tracked_start_of_sameQueue (h : Tracked hash e n past s) {job : Job}
    (hstarts : (s.remotes job.id).starts = true) (hnone : first hash e past = none)
    (hsame : sameQueue hash e (job, s.remotes job.id) = true) :
    Tracked hash e n (past ++ [(job, s.remotes job.id)]) (startJobUnconditional job s) := by
  obtain ⟨rfl, hssid⟩ := sameQueue_iff.mp hsame
  have hfirst : first job.taskHash e (past ++ [(job, s.remotes job.id)]) =
      some (job, s.remotes job.id) := by
    rw [first_append, hnone, Option.none_or, first, List.find?_cons_of_pos hsame]
  have hqueued : (s.enqueuedMessages job.taskHash job.handle.ssid).count e = n := by
    rw [h.queued, if_pos ⟨hnone, rfl, hssid⟩]
  have hcopies : ∀ id, copies e s id = 0 := by
    intro id
    rw [h.delivered, receiver, hnone, Option.bind_none, if_neg (fun hsome => by cases hsome)]
  refine ⟨?_, ?_⟩
  · intro hash' ssid
    rw [hfirst, if_neg (fun hall => by cases hall.1), enqueuedMessages_startJobUnconditional]
    split
    · exact List.count_nil
    · rename_i hother
      rw [h.queued, if_neg]
      rintro ⟨-, rfl, rfl⟩
      exact hother ⟨hstarts, rfl, hssid.symm⟩
  · intro id
    rw [copies_startJobUnconditional, hcopies, hqueued, Nat.zero_add]
    refine if_congr ?_ rfl rfl
    rw [receiver_eq_some_iff, hfirst]
    simp only [Option.some.injEq, exists_eq_left', accepts, Bool.and_eq_true, hstarts, true_and]
    constructor
    · rintro ⟨rfl, haccepts⟩
      exact ⟨haccepts, rfl⟩
    · rintro ⟨haccepts, rfl⟩
      exact ⟨rfl, haccepts⟩

theorem tracked_startJobUnconditional (h : Tracked hash e n past s) (job : Job) :
    Tracked hash e n
      (past ++ if (s.remotes job.id).starts = true then [(job, s.remotes job.id)] else [])
      (startJobUnconditional job s) := by
  by_cases hstarts : (s.remotes job.id).starts = true
  · rw [if_pos hstarts]
    cases hfirst : first hash e past with
    | some y =>
        refine tracked_start_of_count_eq_zero h ?_ ?_
        · rw [first_append, hfirst, Option.some_or]
        · intro _
          rw [h.queued, hfirst, if_neg (fun hall => by cases hall.1)]
    | none =>
        by_cases hsame : sameQueue hash e (job, s.remotes job.id) = true
        · exact tracked_start_of_sameQueue h hstarts hfirst hsame
        · refine tracked_start_of_count_eq_zero h ?_ ?_
          · have hother : first hash e [(job, s.remotes job.id)] = none :=
              List.find?_cons_of_neg hsame
            rw [first_append, hfirst, hother, Option.none_or]
          · intro _
            rw [h.queued, if_neg (fun hall => hsame (sameQueue_iff.mpr hall.2))]
  · rw [if_neg hstarts, List.append_nil]
    exact tracked_start_of_count_eq_zero h rfl fun h' => absurd h' hstarts

theorem tracked_startEnqueued (h : Tracked hash e n past s) (m : ℕ) :
    Tracked hash e n (past ++ startedEnqueued m s) (startEnqueued m s) := by
  induction m generalizing past s with
  | zero =>
      rw [startedEnqueued, List.append_nil]
      exact h
  | succ m ih =>
      rw [startedEnqueued, startEnqueued]
      cases s.enqueuedTasks with
      | nil =>
          rw [List.append_nil]
          exact h
      | cons job rest =>
          rw [← List.append_assoc]
          have hrest : Tracked hash e n past { s with enqueuedTasks := rest } :=
            ⟨h.queued, h.delivered⟩
          exact ih (tracked_startJobUnconditional hrest job)

theorem tracked_retainActive (h : Tracked hash e n past s) (now : ℕ) :
    Tracked hash e n past (retainActive now s) := by
  refine h.of_received_eq rfl ?_
  intro id
  rw [retainActive, received_dropJobs, received_shutdownStalled]

theorem tracked_removeOutdated (h : Tracked hash e n past s) {now : ℕ}
    (hkept : n = 0 ∨
      associatedBlockIdAcceptable now e.message.msg.associatedBlockId = true) :
    Tracked hash e n past (removeOutdated now s) := by
  refine ⟨?_, h.delivered⟩
  intro hash' ssid
  rw [← h.queued hash' ssid, removeOutdated]
  rcases hkept with rfl | hacceptable
  · have hzero := h.queued hash' ssid
    rw [ite_self] at hzero
    rw [hzero]
    exact Nat.le_zero.mp (hzero ▸ List.filter_sublist.count_le e)
  · exact List.count_filter hacceptable

def Numbered (past : List (Job × Remote)) (s : State) : Prop :=
  ∀ id, (past.map fun x => x.1.id).count id + (s.enqueuedTasks.map Job.id).count id ≤
    if id < s.nextId then 1 else 0

theorem receiver_lt (h : Numbered past s) {id : ℕ} (hreceiver : receiver hash e past = some id) :
    id < s.nextId := by
  obtain ⟨x, hx, -, rfl⟩ := receiver_eq_some_iff.mp hreceiver
  have hmem : x.1.id ∈ past.map fun x => x.1.id :=
    List.mem_map_of_mem (List.mem_of_find?_eq_some hx)
  have hcount := List.count_pos_iff.mpr hmem
  have hle := h x.1.id
  split at hle
  · assumption
  · omega

theorem tracked_push (h : Tracked hash e n past s) (hids : Numbered past s) {r : Remote}
    (hempty : r.received = []) :
    Tracked hash e n past { s.setRemote s.nextId r with nextId := s.nextId + 1 } := by
  refine ⟨h.queued, ?_⟩
  intro id
  by_cases hid : id = s.nextId
  · rw [if_neg (fun hreceiver => Nat.ne_of_lt (receiver_lt hids hreceiver) hid), copies, hid]
    simp [hempty]
  · rw [← h.delivered id, copies, copies]
    simp [hid]

theorem tracked_deliverMessage (h : Tracked hash e n past s) {message : SignedDKGMessage}
    {messageTaskHash : TaskHash} (hne : (⟨s.nextTag, message⟩ : Envelope) ≠ e) :
    Tracked hash e n past (deliverMessage message messageTaskHash s) := by
  rw [deliverMessage]
  dsimp only
  split
  · rename_i job hjob
    refine ⟨h.queued, ?_⟩
    intro id
    rw [← h.delivered id, copies, copies]
    refine apply_update_remote (fun r => r.received.count e) ?_ id
    simp [Remote.count_received_deliverMessage, hne]
  · refine ⟨?_, h.delivered⟩
    intro hash' ssid
    rw [enqueuedMessages_setQueue]
    split
    · rename_i hqueue
      obtain ⟨rfl, rfl⟩ := hqueue
      rw [List.count_append, List.count_singleton, if_neg (by simpa using hne), Nat.add_zero]
      exact h.queued hash' message.msg.ssid
    · exact h.queued hash' ssid

/-- The call does not remove the message from its queue. -/
def keepsMessage (message : SignedDKGMessage) : Call → Bool
  | .poll now => associatedBlockIdAcceptable now message.msg.associatedBlockId
  | .forceShutdownAll => false
  | _ => true

variable {maxTasks : ℕ} {call : Call}

theorem tracked_step (h : Tracked hash e n past s) (hids : Numbered past s)
    (hold : e.tag < s.nextTag ∨ (step maxTasks s call).nextTag ≤ e.tag)
    (hkeeps : n = 0 ∨ keepsMessage e.message call = true) :
    Tracked hash e n (past ++ startedJobs maxTasks s call) (step maxTasks s call) := by
  cases call with
  | pushTask taskHash forceStart handle r hempty =>
      have hpushed := tracked_push h hids hempty
      cases forceStart with
      | false =>
          change Tracked hash e n (past ++ []) _
          rw [List.append_nil]
          exact ⟨hpushed.queued, hpushed.delivered⟩
      | true =>
          have hstarted := tracked_startJobUnconditional hpushed ⟨s.nextId, taskHash, handle⟩
          simp only [remotes_setRemote, Function.update_self] at hstarted
          exact hstarted
  | deliverMessage message messageTaskHash =>
      rw [startedJobs, List.append_nil]
      refine tracked_deliverMessage h ?_
      rw [nextTag_step, Call.isDelivery, if_pos rfl] at hold
      rintro rfl
      dsimp only at hold
      omega
  | poll now =>
      exact tracked_removeOutdated (tracked_startEnqueued (tracked_retainActive h now) _) hkeeps
  | clearEnqueuedTasks =>
      rw [startedJobs, List.append_nil]
      exact h.of_received_eq rfl (received_dropJobs s.enqueuedTasks s.remotes)
  | forceShutdownAll =>
      rw [startedJobs, List.append_nil]
      rcases hkeeps with rfl | hkeeps
      · refine ⟨fun hash' ssid => ?_, fun id => ?_⟩
        · rw [ite_self]
          exact List.count_nil
        · rw [← h.delivered id, copies, copies, step, forceShutdownAll, received_dropJobs,
            received_dropJobs]
      · cases hkeeps
  | protocol id p =>
      rw [startedJobs, List.append_nil]
      exact h.of_received_eq rfl (apply_update_remote Remote.received rfl)

theorem sublist_startedEnqueued (m : ℕ) (s : State) :
    ((startedEnqueued m s).map (fun x => x.1.id) ++
      (startEnqueued m s).enqueuedTasks.map Job.id).Sublist (s.enqueuedTasks.map Job.id) := by
  induction m generalizing s with
  | zero => exact List.Sublist.refl _
  | succ m ih =>
      rw [startedEnqueued, startEnqueued]
      cases htasks : s.enqueuedTasks with
      | nil =>
          simp only [htasks]
          exact List.Sublist.refl _
      | cons job rest =>
          have hrest := ih (startJobUnconditional job { s with enqueuedTasks := rest })
          rw [enqueuedTasks_startJobUnconditional] at hrest
          dsimp only at hrest ⊢
          split
          · simpa using hrest
          · simpa using hrest.cons job.id

theorem count_ids_step (maxTasks : ℕ) (s : State) (call : Call) (id : ℕ) :
    ((startedJobs maxTasks s call).map fun x => x.1.id).count id +
        ((step maxTasks s call).enqueuedTasks.map Job.id).count id ≤
      (s.enqueuedTasks.map Job.id).count id +
        if call.isPush && s.nextId == id then 1 else 0 := by
  cases call with
  | pushTask taskHash forceStart handle r hempty =>
      simp only [step, pushTask, startedJobs, Call.isPush]
      cases forceStart with
      | false => simp [List.count_singleton]
      | true =>
          cases r.starts with
          | false => simp
          | true => simp [List.count_singleton, Nat.add_comm]
  | poll now =>
      have hsublist := sublist_startedEnqueued
        (tasksToStart maxTasks (retainActive now s)) (retainActive now s)
      have hle := hsublist.count_le id
      rw [List.count_append] at hle
      exact hle
  | deliverMessage message messageTaskHash =>
      simp only [step, deliverMessage, startedJobs]
      split <;> simp [State.setQueue]
  | clearEnqueuedTasks => simp [step, clearEnqueuedTasks, startedJobs]
  | forceShutdownAll => simp [step, forceShutdownAll, startedJobs]
  | protocol id p => simp [step, startedJobs]

theorem numbered_step (h : Numbered past s) :
    Numbered (past ++ startedJobs maxTasks s call) (step maxTasks s call) := by
  intro id
  have hcount := count_ids_step maxTasks s call id
  rw [List.map_append, List.count_append]
  exact uses_step (h id) (by omega)

theorem Numbered.of_append (h : Numbered past s) : Numbered [] s := by
  intro id
  have hid := h id
  rw [List.map_nil, List.count_nil]
  omega

theorem Numbered.eq_of_id_eq (h : Numbered past s) {x y : Job × Remote} (hx : x ∈ past)
    (hy : y ∈ past) (heq : x.1.id = y.1.id) : x = y := by
  have hnodup : (past.map fun x => x.1.id).Nodup := by
    rw [List.nodup_iff_count_le_one]
    intro id
    have hid := h id
    split at hid <;> omega
  exact List.inj_on_of_nodup_map hnodup hx hy heq

def Absent (e : Envelope) (s : State) : Prop :=
  (∀ hash ssid, (s.enqueuedMessages hash ssid).count e = 0) ∧ ∀ id, copies e s id = 0

theorem tracked_zero_iff : Tracked hash e 0 past s ↔ Absent e s := by
  constructor
  · intro h
    exact ⟨fun hash' ssid => by rw [h.queued, ite_self], fun id => by rw [h.delivered, ite_self]⟩
  · rintro ⟨hqueues, hcopies⟩
    exact ⟨fun hash' ssid => by rw [hqueues, ite_self], fun id => by rw [hcopies, ite_self]⟩

structure Reached (s : State) : Prop where
  ids : Numbered [] s
  unused : ∀ e : Envelope, s.nextTag ≤ e.tag → Absent e s

theorem reached_new : Reached State.new where
  ids id := by simp [State.new]
  unused e _ := ⟨fun _ _ => List.count_nil, fun _ => List.count_nil⟩

theorem reached_step (h : Reached s) : Reached (step maxTasks s call) where
  ids := (numbered_step h.ids).of_append
  unused e he := by
    have hle : s.nextTag ≤ e.tag := by
      rw [nextTag_step] at he
      omega
    have habsent : Tracked default e 0 [] s := tracked_zero_iff.mpr (h.unused e hle)
    exact tracked_zero_iff.mp (tracked_step habsent h.ids (Or.inr he) (Or.inl rfl))

theorem reached_run (maxTasks : ℕ) (calls : List Call) :
    Reached (run (step maxTasks) State.new calls) :=
  invariant_run Reached (fun _ _ h _ => reached_step h) reached_new (stepsMeet_true _ _ calls)

/-- No enqueued and no active job gets the message. -/
def NoneMatches (message : SignedDKGMessage) (messageTaskHash : TaskHash) (s : State) : Prop :=
  ∀ job ∈ s.enqueuedTasks ++ s.activeTasks.jobs,
    shouldDeliver job message messageTaskHash = false

instance (message : SignedDKGMessage) (messageTaskHash : TaskHash) (s : State) :
    Decidable (NoneMatches message messageTaskHash s) :=
  inferInstanceAs (Decidable (∀ job ∈ _, _))

theorem tracked_stored (h : Reached s) {message : SignedDKGMessage}
    (hnone : NoneMatches message hash s) :
    Tracked hash ⟨s.nextTag, message⟩ 1 [] (deliverMessage message hash s) := by
  obtain ⟨hqueues, hcopies⟩ := h.unused ⟨s.nextTag, message⟩ (Nat.le_refl _)
  have hfind : (s.enqueuedTasks ++ s.activeTasks.jobs).find?
      (fun job => shouldDeliver job message hash) = none := by
    rw [List.find?_eq_none]
    intro job hjob
    rw [hnone job hjob]
    exact Bool.false_ne_true
  simp only [deliverMessage, hfind]
  refine ⟨?_, hcopies⟩
  intro hash' ssid
  rw [enqueuedMessages_setQueue]
  split
  · rename_i hqueue
    obtain ⟨rfl, rfl⟩ := hqueue
    rw [List.count_append, List.count_singleton_self, hqueues]
    exact (if_pos ⟨rfl, rfl, rfl⟩).symm
  · rename_i hqueue
    rw [if_neg fun hall => hqueue hall.2]
    exact hqueues hash' ssid

/-- A stored message, after the jobs `past` have been started. -/
structure Follows (hash : TaskHash) (e : Envelope) (past : List (Job × Remote)) (s : State) :
    Prop where
  tracked : Tracked hash e 1 past s
  ids : Numbered past s
  arrived : e.tag < s.nextTag

theorem follows_stored (h : Reached s) {message : SignedDKGMessage}
    (hnone : NoneMatches message hash s) :
    Follows hash ⟨s.nextTag, message⟩ [] (deliverMessage message hash s) where
  tracked := tracked_stored h hnone
  ids := by
    have hids : Numbered ([] ++ startedJobs 0 s (.deliverMessage message hash))
        (step 0 s (.deliverMessage message hash)) := numbered_step h.ids
    exact hids
  arrived := by
    have htag := nextTag_step 0 s (.deliverMessage message hash)
    exact Nat.lt_of_lt_of_eq (Nat.lt_succ_self s.nextTag) htag.symm

theorem follows_step (h : Follows hash e past s)
    (hkeeps : keepsMessage e.message call = true) :
    Follows hash e (past ++ startedJobs maxTasks s call) (step maxTasks s call) where
  tracked := tracked_step h.tracked h.ids (Or.inl h.arrived) (Or.inr hkeeps)
  ids := numbered_step h.ids
  arrived := by
    have harrived := h.arrived
    rw [nextTag_step]
    omega

theorem Follows.delivered_once_iff (h : Follows hash e past s) {x : Job × Remote}
    (hx : x ∈ past) (haccepts : accepts hash e x = true) :
    (∀ id, copies e s id = if id = x.1.id then 1 else 0) ↔ first hash e past = some x := by
  constructor
  · intro hall
    have hreceiver : receiver hash e past = some x.1.id := by
      have hcopies := h.tracked.delivered x.1.id
      rw [hall, if_pos rfl] at hcopies
      by_contra hnot
      rw [if_neg hnot] at hcopies
      cases hcopies
    obtain ⟨y, hfirst, -, hid⟩ := receiver_eq_some_iff.mp hreceiver
    rw [hfirst, h.ids.eq_of_id_eq (List.mem_of_find?_eq_some hfirst) hx hid]
  · intro hfirst id
    rw [h.tracked.delivered]
    refine if_congr ?_ rfl rfl
    rw [receiver_eq_some_iff, hfirst]
    constructor
    · rintro ⟨y, hy, -, rfl⟩
      rw [Option.some.inj hy]
    · rintro rfl
      exact ⟨x, rfl, haccepts, rfl⟩

/-- A stored message is delivered to a started job that accepts it, once and to no other job,
exactly if no other job with the same task hash and signing set was started before. -/
theorem stored_message_delivered_iff (maxTasks : ℕ) (before later : List Call)
    (hbefore : run (step maxTasks) State.new before = s) {message : SignedDKGMessage}
    (hnone : NoneMatches message hash s)
    (hkeeps : ∀ call ∈ later, keepsMessage message call = true) {x : Job × Remote}
    (hx : x ∈ trace (step maxTasks) (startedJobs maxTasks) (deliverMessage message hash s) later)
    (haccepts : accepts hash ⟨s.nextTag, message⟩ x = true) :
    (∀ id, copies ⟨s.nextTag, message⟩
        (run (step maxTasks) (deliverMessage message hash s) later) id =
          if id = x.1.id then 1 else 0) ↔
      first hash ⟨s.nextTag, message⟩
        (trace (step maxTasks) (startedJobs maxTasks) (deliverMessage message hash s) later) =
          some x := by
  have hreached : Reached s := hbefore ▸ reached_run maxTasks before
  have hlegal : StepsMeet (step maxTasks) (fun _ call => keepsMessage message call = true)
      (deliverMessage message hash s) later := by
    intro pre call post hsplit
    exact hkeeps call (by simp [hsplit])
  have hrun := invariant_trace (Follows hash ⟨s.nextTag, message⟩)
    (fun _ _ _ h hcall => follows_step h hcall) [] (follows_stored hreached hnone) hlegal
  rw [List.nil_append] at hrun
  exact hrun.delivered_once_iff hx haccepts

def sampleTask : TaskHash := List.Vector.replicate 32 1

def sampleMessage (sessionId : ℕ) : SignedDKGMessage where
  msg :=
    { senderId := List.Vector.replicate 33 1
      recipientId := none
      payload := .vote ⟨1, [], [], sampleTask⟩
      sessionId := sessionId
      associatedBlockId := 100
      ssid := 0 }
  signature := none

def sampleJob (id sessionId : ℕ) : Job := ⟨id, sampleTask, ⟨sessionId, 100, 0, 100⟩⟩

def sampleStart (sessionId : ℕ) : Call :=
  .pushTask sampleTask true (sampleJob 0 sessionId).handle Remote.new Remote.received_new

theorem sampleMessage_delivered :
    NoneMatches (sampleMessage 1) sampleTask State.new ∧
      (∀ call ∈ [sampleStart 1, .poll 101], keepsMessage (sampleMessage 1) call = true) ∧
      ∀ id, copies ⟨0, sampleMessage 1⟩
        (run (step 2) (deliverMessage (sampleMessage 1) sampleTask State.new)
          [sampleStart 1, .poll 101]) id = if id = 0 then 1 else 0 := by
  have hnone : NoneMatches (sampleMessage 1) sampleTask State.new := by decide +kernel
  refine ⟨hnone, by decide +kernel, ?_⟩
  exact (stored_message_delivered_iff 2 [] [sampleStart 1, .poll 101] rfl hnone
    (by decide +kernel) (x := (sampleJob 0 1, Remote.new)) (by decide +kernel)
    (by decide +kernel)).mpr (by decide +kernel)

def sampleSessions : List Call :=
  [sampleStart 1, .protocol 0 ⟨.complete, false, false, false, false⟩, .poll 101, sampleStart 2]

theorem sampleMessage_lost :
    NoneMatches (sampleMessage 2) sampleTask State.new ∧
      (∀ call ∈ sampleSessions, keepsMessage (sampleMessage 2) call = true) ∧
      (sampleJob 1 2, Remote.new) ∈ trace (step 2) (startedJobs 2)
        (deliverMessage (sampleMessage 2) sampleTask State.new) sampleSessions ∧
      accepts sampleTask ⟨0, sampleMessage 2⟩ (sampleJob 1 2, Remote.new) = true ∧
      copies ⟨0, sampleMessage 2⟩ (run (step 2)
        (deliverMessage (sampleMessage 2) sampleTask State.new) sampleSessions) 1 = 0 := by
  decide +kernel

end DkgSubstrate.StoredMessages
