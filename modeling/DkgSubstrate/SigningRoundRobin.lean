import DkgSubstrate.SigningRetries
import DkgSubstrate.SigningSchedule

/-!
The order of the retries.  A batch that is never signed goes through its signing sets one after
the other and starts over with the first one, as long as a task that fails is the one of the
latest attempt.
-/

namespace DkgSubstrate.SigningRoundRobin

open DkgSubstrate.Primitives
open DkgSubstrate.Proposals
open DkgSubstrate.Runs
open DkgSubstrate.SigningManager
open DkgSubstrate.SigningRetries
open DkgSubstrate.SigningSchedule
open DkgSubstrate.SigningSets

/-- Attempts, each with the block it was started at and the number of its signing set.  The
`m` sets take turns, and there is a timeout between two attempts. -/
structure RoundRobin (m : ℕ) (attempts : List (ℕ × ℕ)) : Prop where
  cyclic : attempts.map Prod.snd = (List.range attempts.length).map (· % m)
  spaced : attempts.Pairwise fun a b => a.1 + signTimeout ≤ b.1

theorem roundRobin_singleton (m now : ℕ) : RoundRobin m [(now, 0)] where
  cyclic := by simp
  spaced := List.pairwise_singleton _ _

theorem RoundRobin.le_last {m now i : ℕ} {attempts : List (ℕ × ℕ)}
    (h : RoundRobin m (attempts ++ [(now, i)])) :
    ∀ attempt ∈ attempts ++ [(now, i)], attempt.1 ≤ now := by
  intro attempt hattempt
  rcases List.mem_append.mp hattempt with hold | hlast
  · have hspaced := (List.pairwise_append.mp h.spaced).2.2 attempt hold _
      (List.mem_singleton_self _)
    exact Nat.le_of_add_right_le hspaced
  · rw [List.mem_singleton.mp hlast]

theorem RoundRobin.append {m now i later : ℕ} {attempts : List (ℕ × ℕ)}
    (h : RoundRobin m (attempts ++ [(now, i)])) (hlater : now + signTimeout ≤ later) :
    RoundRobin m ((attempts ++ [(now, i)]) ++ [(later, (i + 1) % m)]) := by
  refine ⟨?_, ?_⟩
  · have hlast : i = attempts.length % m := by
      have hcyclic := congrArg List.getLast? h.cyclic
      simpa [List.range_succ] using hcyclic
    have hlength : ((attempts ++ [(now, i)]) ++ [(later, (i + 1) % m)]).length =
        (attempts ++ [(now, i)]).length + 1 := List.length_append
    rw [hlength, List.map_append, h.cyclic, List.range_succ, List.map_append, List.map_singleton,
      List.map_singleton, hlast, Nat.mod_add_mod, List.length_append, List.length_singleton]
  · refine List.pairwise_append.mpr ⟨h.spaced, List.pairwise_singleton _ _, ?_⟩
    intro attempt hattempt next hnext
    rw [List.mem_singleton.mp hnext]
    have hle := h.le_last attempt hattempt
    omega

structure Going (now i : ℕ) (tracker : SigningSetHistoryTracker) : Prop where
  attempted : tracker.ssidsAttempted.max? = some i
  few : tracker.sets.length ≤ maxSigningSets
  started : ∃ set, tracker.sets[i]? = some set ∧ set.locallyStartedAt = some now
  earlier : ∀ (j : ℕ) set, j ≠ i → tracker.sets[j]? = some set →
    ∀ time, set.locallyStartedAt = some time → time < now

/-- A history with the attempts that have been made.  Without signing sets none can be made, and
`Size` tells how many there may be from the block of the first attempt on. -/
inductive Retries (Size : ℕ → ℕ → Prop) : List (ℕ × ℕ) → SigningSetHistoryTracker → Prop
  | fresh : Retries Size [] default
  | stuck : Retries Size [] ⟨[0], []⟩
  | going {attempts : List (ℕ × ℕ)} {now i : ℕ} {tracker : SigningSetHistoryTracker}
      (hgoing : Going now i tracker)
      (hturns : RoundRobin tracker.sets.length (attempts ++ [(now, i)]))
      (hsize : ∀ first ∈ (attempts ++ [(now, i)]).head?, Size first.1 tracker.sets.length) :
      Retries Size (attempts ++ [(now, i)]) tracker

theorem max?_insert {l : List ℕ} {i j : ℕ} (h : l.max? = some i) (hij : i ≤ j) :
    (l.insert j).max? = some j := by
  rw [List.max?_eq_some_iff]
  refine ⟨List.mem_insert_self, fun k hk => ?_⟩
  rcases List.mem_insert_iff.mp hk with rfl | hold
  · exact le_rfl
  · exact ((List.max?_eq_some_iff.mp h).2 k hold).trans hij

section Tracker

variable {Size : ℕ → ℕ → Prop} {now i later : ℕ} {generated : List ProposedSigningSet}
variable {tracker : SigningSetHistoryTracker} {attempts : List (ℕ × ℕ)}

theorem Going.lt_length (h : Going now i tracker) : i < tracker.sets.length := by
  obtain ⟨set, hset, -⟩ := h.started
  exact (List.getElem?_eq_some_iff.mp hset).1

theorem Going.le_now (h : Going now i tracker) {set : ProposedSigningSet}
    (hset : set ∈ tracker.sets) {time : ℕ} (htime : set.locallyStartedAt = some time) :
    time ≤ now := by
  obtain ⟨j, hj⟩ := List.mem_iff_getElem?.mp hset
  by_cases hji : j = i
  · obtain ⟨last, hlast, hstarted⟩ := h.started
    rw [hji, hlast] at hj
    cases hj
    rw [hstarted] at htime
    exact (Option.some.inj htime).ge
  · exact (h.earlier j set hji hj time htime).le

theorem Going.startedAt (h : Going now i tracker) : StartedAt now tracker := by
  obtain ⟨set, hset, hstarted⟩ := h.started
  exact ⟨set, List.mem_of_getElem? hset, hstarted⟩

theorem Going.latestAttempt (h : Going now i tracker) : tracker.latestAttempt = some now := by
  rw [SigningSetHistoryTracker.latestAttempt, List.max?_eq_some_iff]
  obtain ⟨set, hset, hstarted⟩ := h.startedAt
  refine ⟨List.mem_filterMap.mpr ⟨set, hset, hstarted⟩, fun time htime => ?_⟩
  obtain ⟨other, hother, hotherTime⟩ := List.mem_filterMap.mp htime
  exact h.le_now hother hotherTime

theorem Going.isWaiting (h : Going now i tracker) :
    tracker.isWaiting later = decide (later < now + signTimeout) := by
  rw [SigningSetHistoryTracker.isWaiting, h.latestAttempt]

theorem Going.nextSsid (h : Going now i tracker) : tracker.nextSsid = i + 1 := by
  have hlt := h.lt_length
  have hfew := h.few
  rw [maxSigningSets] at hfew
  rw [SigningSetHistoryTracker.nextSsid, h.attempted]
  exact Words.wrappingAdd_of_lt (by omega)

theorem next_eq_mod {m : ℕ} (h : i < m) :
    (if m ≤ i + 1 then 0 else i + 1) = (i + 1) % m := by
  split
  · rw [show i + 1 = m by omega, Nat.mod_self]
  · rw [Nat.mod_eq_of_lt (by omega)]

theorem going_set {sets : List ProposedSigningSet} {attempted : List ℕ}
    {signingSet : ProposedSigningSet} (hset : sets[i]? = some signingSet)
    (hattempted : attempted.max? = some i) (hfew : sets.length ≤ maxSigningSets)
    (hearlier : ∀ set ∈ sets, ∀ time, set.locallyStartedAt = some time → time < later) :
    Going later i ⟨attempted, sets.set i { signingSet with locallyStartedAt := some later }⟩ where
  attempted := hattempted
  few := by
    rw [List.length_set]
    exact hfew
  started := by
    refine ⟨_, List.getElem?_set_self (List.getElem?_eq_some_iff.mp hset).1, rfl⟩
  earlier j set hji hj := by
    rw [List.getElem?_set_ne (Ne.symm hji)] at hj
    exact hearlier set (List.mem_of_getElem? hj)

theorem Going.advance (h : Going now i tracker) (hlater : now < later) :
    Going later ((i + 1) % tracker.sets.length) (tracker.advance later generated).1 ∧
      (tracker.advance later generated).1.sets.length = tracker.sets.length := by
  have hlt := h.lt_length
  have hindex : (i + 1) % tracker.sets.length < tracker.sets.length :=
    Nat.mod_lt _ (Nat.zero_lt_of_lt hlt)
  have hset := List.getElem?_eq_getElem hindex
  have hattempted : ((if tracker.sets.length ≤ i + 1 then [] else tracker.ssidsAttempted).insert
      ((i + 1) % tracker.sets.length)).max? = some ((i + 1) % tracker.sets.length) := by
    rw [← next_eq_mod hlt]
    split
    · rfl
    · exact max?_insert h.attempted (Nat.le_succ i)
  have hadvance : (tracker.advance later generated).1 =
      ⟨(if tracker.sets.length ≤ i + 1 then [] else tracker.ssidsAttempted).insert
          ((i + 1) % tracker.sets.length),
        tracker.sets.set ((i + 1) % tracker.sets.length)
          { tracker.sets[(i + 1) % tracker.sets.length] with
            locallyStartedAt := some later }⟩ := by
    rw [SigningSetHistoryTracker.advance, h.nextSsid]
    simp only [Nat.succ_ne_zero, if_false, next_eq_mod hlt, hset]
  rw [hadvance]
  refine ⟨going_set hset hattempted h.few ?_, List.length_set⟩
  intro set hmem time htime
  exact (h.le_now hmem htime).trans_lt hlater

theorem advance_default (hfew : generated.length ≤ maxSigningSets)
    (hnew : ∀ set ∈ generated, set.locallyStartedAt = none) :
    ((default : SigningSetHistoryTracker).advance later generated).1 = ⟨[0], []⟩ ∨
      Going later 0 ((default : SigningSetHistoryTracker).advance later generated).1 ∧
        ((default : SigningSetHistoryTracker).advance later generated).1.sets.length =
          generated.length := by
  have hnext : (default : SigningSetHistoryTracker).nextSsid = 0 := rfl
  cases generated with
  | nil => exact .inl rfl
  | cons first rest =>
      refine .inr ?_
      have hadvance : ((default : SigningSetHistoryTracker).advance later (first :: rest)).1 =
          ⟨[0], (first :: rest).set 0 { first with locallyStartedAt := some later }⟩ := rfl
      rw [hadvance]
      refine ⟨going_set rfl rfl hfew ?_, List.length_set⟩
      intro set hset time htime
      rw [hnew set hset] at htime
      cases htime

theorem Retries.going_of_append (h : Retries Size (attempts ++ [(now, i)]) tracker) :
    Going now i tracker ∧ RoundRobin tracker.sets.length (attempts ++ [(now, i)]) := by
  generalize hall : attempts ++ [(now, i)] = all at h
  cases h with
  | fresh => simp at hall
  | stuck => simp at hall
  | going hgoing hturns hsize =>
      obtain ⟨-, hlast⟩ := List.append_inj' hall rfl
      cases hlast
      exact ⟨hgoing, hturns⟩

theorem Retries.roundRobin (h : Retries Size attempts tracker) :
    RoundRobin tracker.sets.length attempts := by
  cases h with
  | fresh => exact ⟨rfl, List.Pairwise.nil⟩
  | stuck => exact ⟨rfl, List.Pairwise.nil⟩
  | going hgoing hturns hsize => exact hturns

theorem Retries.sized (h : Retries Size attempts tracker) :
    ∀ first ∈ attempts.head?, Size first.1 tracker.sets.length := by
  intro first hfirst
  cases h with
  | fresh => cases hfirst
  | stuck => cases hfirst
  | going hgoing hturns hsize => exact hsize first hfirst

theorem Retries.lt_of_startedAt (h : Retries Size attempts tracker)
    (hlater : ∀ attempt ∈ attempts, attempt.1 < later) {set : ProposedSigningSet}
    (hset : set ∈ tracker.sets) {time : ℕ} (htime : set.locallyStartedAt = some time) :
    time < later := by
  cases h with
  | fresh => cases hset
  | stuck => cases hset
  | going hgoing hturns hsize =>
      exact (hgoing.le_now hset htime).trans_lt
        (hlater _ (List.mem_append_right _ (List.mem_singleton_self _)))

theorem Retries.settled (h : Retries Size attempts tracker)
    (helapsed : ∀ attempt ∈ attempts, attempt.1 + signTimeout ≤ later) :
    Settled later tracker := by
  intro set hset time htime
  cases h with
  | fresh => cases hset
  | stuck => cases hset
  | going hgoing hturns hsize =>
      have hle := hgoing.le_now hset htime
      have hnow := helapsed _ (List.mem_append_right _ (List.mem_singleton_self _))
      exact (Nat.add_le_add_right hle signTimeout).trans hnow

theorem Retries.insert (h : Retries Size attempts tracker) {ssid : ℕ}
    (hlast : attempts.getLast?.map Prod.snd = some ssid) :
    Retries Size attempts
      { tracker with ssidsAttempted := tracker.ssidsAttempted.insert ssid } := by
  cases h with
  | fresh => cases hlast
  | stuck => cases hlast
  | going hgoing hturns hsize =>
      rw [List.getLast?_concat] at hlast
      cases hlast
      refine .going ⟨?_, hgoing.few, hgoing.started, hgoing.earlier⟩ hturns hsize
      exact max?_insert hgoing.attempted le_rfl

end Tracker

variable {L : Limits} {cfg : Config L} {block : Finalized L} {hash : FixedBytes 32} {s : State}
variable {tracker : SigningSetHistoryTracker} {attempts : List (ℕ × ℕ)} {Size : ℕ → ℕ → Prop}

theorem length_generateSigningSets_le (cfg : Config L) (dkgPubKey bytes : Words.Bytes)
    (best : List (ℕ × Public)) (threshold : ℕ) :
    (generateSigningSets cfg dkgPubKey bytes best threshold).length ≤ maxSigningSets := by
  have hlength := (signingSets_perm_positions cfg dkgPubKey bytes best threshold).length_eq
  rw [List.length_map, List.length_map, length_positions] at hlength
  exact hlength.trans_le (Nat.min_le_left _ _)

theorem locallyStartedAt_generateSigningSets {dkgPubKey bytes : Words.Bytes}
    {best : List (ℕ × Public)} {threshold : ℕ} {set : ProposedSigningSet}
    (h : set ∈ generateSigningSets cfg dkgPubKey bytes best threshold) :
    set.locallyStartedAt = none := by
  rw [generateSigningSets] at h
  obtain ⟨entry, -, rfl⟩ := List.mem_map.mp h
  rfl

/-- The number of signing sets that are generated for the batch at the block. -/
def numberOfSets (cfg : Config L) (block : Finalized L) (batch : StoredUnsignedProposalBatch L) :
    ℕ :=
  (generateSigningSets cfg block.dkgPubKey (cfg.encode batch) (keygenParties block)
    block.threshold).length

theorem visit_default (cfg : Config L) (block : Finalized L)
    (batch : StoredUnsignedProposalBatch L) :
    (visit cfg block batch default).1 = ⟨[0], []⟩ ∨
      Going block.number 0 (visit cfg block batch default).1 ∧
        (visit cfg block batch default).1.sets.length = numberOfSets cfg block batch := by
  have hfew := length_generateSigningSets_le cfg block.dkgPubKey (cfg.encode batch)
    (keygenParties block) block.threshold
  exact advance_default hfew fun _ => locallyStartedAt_generateSigningSets

theorem retries_visit (h : Retries Size attempts tracker)
    (hlater : ∀ attempt ∈ attempts, attempt.1 < block.number)
    {batch : StoredUnsignedProposalBatch L}
    (hsize : Size block.number (numberOfSets cfg block batch)) :
    Retries Size attempts (visit cfg block batch tracker).1 ∨
      ∃ i, Retries Size (attempts ++ [(block.number, i)]) (visit cfg block batch tracker).1 := by
  cases h with
  | fresh =>
      rcases visit_default cfg block batch with hstuck | ⟨hgoing, hlength⟩
      · exact .inl (hstuck ▸ Retries.stuck)
      · refine .inr ⟨0, .going hgoing (roundRobin_singleton _ _) ?_⟩
        rintro first ⟨⟩
        rw [hlength]
        exact hsize
  | stuck =>
      rw [visit_of_stuck stuck_zero]
      exact .inl .stuck
  | going hgoing hturns hfirst =>
      rename_i now i
      have hnow := hlater _ (List.mem_append_right _ (List.mem_singleton_self (now, i)))
      rw [visit, hgoing.isWaiting]
      split
      · exact .inl (.going hgoing hturns hfirst)
      · rename_i hstalled
        obtain ⟨hnext, hlength⟩ := hgoing.advance hnow
        refine .inr ⟨_, .going hnext ?_ ?_⟩
        · rw [hlength]
          refine hturns.append (Nat.le_of_not_lt fun hwaiting => hstalled ?_)
          exact decide_eq_true hwaiting
        · intro first hhead
          rw [hlength]
          refine hfirst first ?_
          rwa [List.head?_append_of_ne_nil _ (List.concat_ne_nil _ _)] at hhead

theorem visit_of_attempted {i : ℕ} (h : Retries Size (attempts ++ [(block.number, i)]) tracker)
    (batch : StoredUnsignedProposalBatch L) : (visit cfg block batch tracker).1 = tracker := by
  rw [visit, isWaiting_of_startedAt h.going_of_append.1.startedAt, if_pos rfl]

theorem retries_onBlockFinalized (h : Retries Size attempts (s.tracker hash))
    (hlater : ∀ attempt ∈ attempts, attempt.1 < block.number)
    (hsize : ∀ batch, batchHash cfg batch = hash →
      Size block.number (numberOfSets cfg block batch)) :
    Retries Size attempts ((onBlockFinalized cfg block s).1.tracker hash) ∨
      ∃ i, Retries Size (attempts ++ [(block.number, i)])
        ((onBlockFinalized cfg block s).1.tracker hash) := by
  refine tracker_of_visits (P := fun t => Retries Size attempts t ∨
    ∃ i, Retries Size (attempts ++ [(block.number, i)]) t) ?_ (.inl h) (onBlockFinalized_visits s)
  intro batch t hhash ht
  rcases ht with hbefore | ⟨i, hafter⟩
  · exact retries_visit hbefore hlater (hsize batch hhash)
  · rw [visit_of_attempted hafter]
    exact .inr ⟨i, hafter⟩

/-- The attempt that a call makes: the set that it has started. -/
def attempt (cfg : Config L) (hash : FixedBytes 32) (s : State) : Event L → List (ℕ × ℕ)
  | .blockFinalized block =>
      ((((step cfg s (.blockFinalized block)).tracker hash).sets.findIdx? fun set =>
        set.locallyStartedAt = some block.number).map fun ssid => (block.number, ssid)).toList
  | .taskFinished .. | .keygenLock | .keygenUnlock => []

/-- The manager with the attempts that it has made for one batch. -/
def loggedStep (cfg : Config L) (hash : FixedBytes 32) (s : State × List (ℕ × ℕ))
    (event : Event L) : State × List (ℕ × ℕ) :=
  (step cfg s.1 event, s.2 ++ attempt cfg hash s.1 event)

/-- Blocks come after the attempts that were made, and a task for the batch that finishes has
failed and is the one of the latest attempt. -/
def InTurn (hash : FixedBytes 32) (s : State × List (ℕ × ℕ)) : Event L → Prop
  | .blockFinalized block => ∀ attempt ∈ s.2, attempt.1 < block.number
  | .taskFinished task succeeded => task ∈ s.1.tasks → task.hash = hash →
      succeeded = false ∧ s.2.getLast?.map Prod.snd = some task.ssid
  | .keygenLock | .keygenUnlock => True

instance decidableInTurn (hash : FixedBytes 32) (s : State × List (ℕ × ℕ)) :
    (event : Event L) → Decidable (InTurn hash s event)
  | .blockFinalized block =>
      inferInstanceAs (Decidable (∀ attempt ∈ s.2, attempt.1 < block.number))
  | .taskFinished task succeeded =>
      inferInstanceAs (Decidable (task ∈ s.1.tasks → task.hash = hash →
        succeeded = false ∧ s.2.getLast?.map Prod.snd = some task.ssid))
  | .keygenLock => isTrue trivial
  | .keygenUnlock => isTrue trivial

/-- The batch is queued without a job, no keygen runs, the work manager has room, nothing ends
the call before its turn, and the latest attempt is older than the timeout. -/
structure Due (cfg : Config L) (block : Finalized L) (hash : FixedBytes 32)
    (s : State × List (ℕ × ℕ)) : Prop where
  unlocked : s.1.lock = false
  queued : ∃ batches, block.unsignedProposals = some batches ∧
    ∃ batch ∈ batches, batchHash cfg batch = hash
  idle : block.jobExists hash = false
  room : ∀ turn, block.canSubmitMoreTasks turn = true
  undisturbed : Undisturbed cfg block hash
  elapsed : ∀ attempt ∈ s.2, attempt.1 + signTimeout ≤ block.number

theorem attempt_of_retries
    (h : Retries Size attempts ((step cfg s (.blockFinalized block)).tracker hash))
    (hlater : ∀ attempt ∈ attempts, attempt.1 < block.number) :
    attempt cfg hash s (.blockFinalized block) = [] := by
  rw [attempt, List.findIdx?_eq_none_iff.mpr]
  · rfl
  · intro set hset
    refine decide_eq_false fun hstarted => ?_
    exact lt_irrefl _ (h.lt_of_startedAt hlater hset hstarted)

theorem attempt_of_retries_append {i : ℕ}
    (h : Retries Size (attempts ++ [(block.number, i)])
      ((step cfg s (.blockFinalized block)).tracker hash)) :
    attempt cfg hash s (.blockFinalized block) = [(block.number, i)] := by
  obtain ⟨hgoing, -⟩ := h.going_of_append
  obtain ⟨set, hset, hstarted⟩ := hgoing.started
  obtain ⟨hi, hget⟩ := List.getElem?_eq_some_iff.mp hset
  have hfind : ((step cfg s (.blockFinalized block)).tracker hash).sets.findIdx? (fun set =>
      set.locallyStartedAt = some block.number) = some i := by
    refine List.findIdx?_eq_some_iff_getElem.mpr ⟨hi, ?_, fun j hj => ?_⟩
    · rw [hget]
      exact decide_eq_true hstarted
    · have hlt := hgoing.earlier j _ hj.ne (List.getElem?_eq_getElem (hj.trans hi))
      intro hdecide
      exact lt_irrefl _ (hlt _ (of_decide_eq_true hdecide))
  rw [attempt, hfind]
  rfl

theorem tracker_taskFinished (cfg : Config L) {s : State × List (ℕ × ℕ)} {task : SigningTask}
    {succeeded : Bool}
    (h : InTurn hash s (.taskFinished task succeeded : Event L)) :
    (step cfg s.1 (.taskFinished task succeeded)).tracker hash = s.1.tracker hash ∨
      s.2.getLast?.map Prod.snd = some task.ssid ∧
        (step cfg s.1 (.taskFinished task succeeded)).tracker hash =
          { s.1.tracker hash with
            ssidsAttempted := (s.1.tracker hash).ssidsAttempted.insert task.ssid } := by
  rw [step]
  split
  · rename_i htask
    by_cases hhash : task.hash = hash
    · obtain ⟨rfl, hlast⟩ := h htask hhash
      refine .inr ⟨hlast, ?_⟩
      rw [SigningTask.result, if_neg Bool.noConfusion, tracker_update_failure,
        if_pos hhash.symm, hhash]
      rfl
    · have hother : hash ≠ task.hash := fun heq => hhash heq.symm
      left
      cases succeeded with
      | true =>
          rw [SigningTask.result, if_pos rfl, tracker_update_success, if_neg hother]
          rfl
      | false =>
          rw [SigningTask.result, if_neg Bool.noConfusion, tracker_update_failure,
            if_neg hother]
          rfl
  · exact .inl rfl

theorem retries_step (cfg : Config L) {s : State × List (ℕ × ℕ)} {event : Event L}
    (h : Retries Size s.2 (s.1.tracker hash)) (hinTurn : InTurn hash s event)
    (hsize : ∀ block batch, event = .blockFinalized block → batchHash cfg batch = hash →
      Size block.number (numberOfSets cfg block batch)) :
    Retries Size (loggedStep cfg hash s event).2
      ((loggedStep cfg hash s event).1.tracker hash) := by
  cases event with
  | blockFinalized block =>
      rcases retries_onBlockFinalized h hinTurn (fun batch => hsize block batch rfl)
        with hsame | ⟨i, hattempt⟩
      · rw [loggedStep, attempt_of_retries hsame hinTurn, List.append_nil]
        exact hsame
      · rw [loggedStep, attempt_of_retries_append hattempt]
        exact hattempt
  | taskFinished task succeeded =>
      rw [loggedStep, attempt, List.append_nil]
      rcases tracker_taskFinished cfg hinTurn with hsame | ⟨hlast, hinsert⟩
      · rw [hsame]
        exact h
      · rw [hinsert]
        exact h.insert hlast
  | keygenLock =>
      rw [loggedStep, attempt, List.append_nil]
      exact h
  | keygenUnlock =>
      rw [loggedStep, attempt, List.append_nil]
      exact h

theorem noSets_step (cfg : Config L) {s : State × List (ℕ × ℕ)} {event : Event L}
    (h : s.2 = [] ∧ s.1.tracker hash = ⟨[0], []⟩) (hinTurn : InTurn hash s event) :
    (loggedStep cfg hash s event).2 = [] ∧
      (loggedStep cfg hash s event).1.tracker hash = ⟨[0], []⟩ := by
  obtain ⟨hlog, hstuck⟩ := h
  have htracker : (step cfg s.1 event).tracker hash = ⟨[0], []⟩ := by
    cases event with
    | blockFinalized block =>
        refine tracker_of_visits (P := fun t => t = ⟨[0], []⟩) ?_ hstuck
          (onBlockFinalized_visits s.1)
        rintro batch t - rfl
        rw [visit_of_stuck stuck_zero]
    | taskFinished task succeeded =>
        rcases tracker_taskFinished cfg hinTurn with hsame | ⟨hlast, -⟩
        · rw [hsame, hstuck]
        · rw [hlog] at hlast
          cases hlast
    | keygenLock => exact hstuck
    | keygenUnlock => exact hstuck
  refine ⟨?_, htracker⟩
  have hretries : Retries (fun _ _ => True) s.2 (s.1.tracker hash) := by
    rw [hlog, hstuck]
    exact .stuck
  have hafter := retries_step cfg hretries hinTurn fun _ _ _ _ => trivial
  generalize (loggedStep cfg hash s event).2 = log at hafter
  rw [loggedStep, htracker] at hafter
  cases hafter with
  | stuck => rfl
  | going hgoing hturns hsize => exact absurd hgoing.lt_length (Nat.not_lt_zero _)

theorem visit_of_elapsed {s : State × List (ℕ × ℕ)} (h : Retries Size s.2 (s.1.tracker hash))
    (helapsed : ∀ attempt ∈ s.2, attempt.1 + signTimeout ≤ block.number)
    (batch : StoredUnsignedProposalBatch L) :
    StartedAt block.number (visit cfg block batch (s.1.tracker hash)).1 ∨
      (visit cfg block batch (s.1.tracker hash)).1 = ⟨[0], []⟩ := by
  generalize s.2 = log at h helapsed
  generalize s.1.tracker hash = tracker at h
  cases h with
  | fresh =>
      rcases visit_default cfg block batch with hstuck | ⟨hgoing, -⟩
      · exact .inr hstuck
      · exact .inl hgoing.startedAt
  | stuck => exact .inr (congrArg Prod.fst (visit_of_stuck stuck_zero))
  | going hgoing hturns hsize =>
      rename_i now i
      have hnow := helapsed _ (List.mem_append_right _ (List.mem_singleton_self (now, i)))
      have hlt : now < block.number :=
        Nat.lt_of_lt_of_le (Nat.lt_add_of_pos_right (by decide)) hnow
      rw [visit, hgoing.isWaiting, decide_eq_false (Nat.not_lt.mpr hnow),
        if_neg Bool.noConfusion]
      exact .inl (hgoing.advance hlt).1.startedAt

theorem attempt_of_due {s : State × List (ℕ × ℕ)} (h : Retries Size s.2 (s.1.tracker hash))
    (hdue : Due cfg block hash s)
    (hsize : ∀ batch, batchHash cfg batch = hash →
      Size block.number (numberOfSets cfg block batch)) :
    attempt cfg hash s.1 (.blockFinalized block) ≠ [] ∨
      (loggedStep cfg hash s (.blockFinalized block)).2 = [] ∧
        (loggedStep cfg hash s (.blockFinalized block)).1.tracker hash = ⟨[0], []⟩ := by
  have hlater : ∀ attempt ∈ s.2, attempt.1 < block.number := by
    intro attempt hattempt
    have hle := hdue.elapsed attempt hattempt
    rw [signTimeout] at hle
    omega
  have hafter : StartedAt block.number ((onBlockFinalized cfg block s.1).1.tracker hash) ∨
      (onBlockFinalized cfg block s.1).1.tracker hash = ⟨[0], []⟩ := by
    refine tracker_onBlockFinalized (P := fun t => StartedAt block.number t ∨ t = ⟨[0], []⟩)
      ⟨hdue.unlocked, hdue.queued, hdue.idle, h.settled hdue.elapsed, hdue.room⟩
      hdue.undisturbed (visit_of_elapsed h hdue.elapsed) ?_
    rintro batch t (hstarted | rfl)
    · exact .inl (startedAt_visit_of_startedAt hstarted)
    · rw [visit_of_stuck stuck_zero]
      exact .inr rfl
  rcases retries_onBlockFinalized h hlater hsize with hsame | ⟨i, hattempt⟩
  · -- No attempt was made, so that no set has been started.
    rcases hafter with ⟨set, hset, hstarted⟩ | hstuck
    · exact absurd (hsame.lt_of_startedAt hlater hset hstarted) (lt_irrefl _)
    · refine .inr ⟨?_, hstuck⟩
      rw [loggedStep, attempt_of_retries hsame hlater, List.append_nil]
      rw [hstuck] at hsame
      generalize s.2 = log at hsame
      cases hsame with
      | stuck => rfl
      | going hgoing hturns hsize => exact absurd hgoing.lt_length (Nat.not_lt_zero _)
  · left
    rw [attempt_of_retries_append hattempt]
    exact List.cons_ne_nil _ _

/-- One of the finalized blocks generates so many signing sets for the batch. -/
def Sized (cfg : Config L) (hash : FixedBytes 32) (events : List (Event L)) (number m : ℕ) :
    Prop :=
  ∃ block batch, .blockFinalized block ∈ events ∧ block.number = number ∧
    batchHash cfg batch = hash ∧ numberOfSets cfg block batch = m

/-- In every run in which the tasks of a batch fail in turn, the attempts go in a circle through
the signing sets that the block of the first one has generated and keep the timeout between them,
and whenever the batch is due an attempt is made, whether the node belongs to the set or not. -/
theorem attempts_roundRobin (cfg : Config L) (hash : FixedBytes 32) (s : State)
    (events : List (Event L)) (hnew : s.tracker hash = default)
    (hinTurn : StepsMeet (loggedStep cfg hash) (InTurn hash) (s, []) events)
    (hsets : 1 ≤ ((run (loggedStep cfg hash) (s, []) events).1.tracker hash).sets.length) :
    RoundRobin ((run (loggedStep cfg hash) (s, []) events).1.tracker hash).sets.length
        (run (loggedStep cfg hash) (s, []) events).2 ∧
      (∀ first ∈ (run (loggedStep cfg hash) (s, []) events).2.head?,
        Sized cfg hash events first.1
          ((run (loggedStep cfg hash) (s, []) events).1.tracker hash).sets.length) ∧
      StepsMeet (loggedStep cfg hash) (fun t event => ∀ block, event = .blockFinalized block →
        Due cfg block hash t → attempt cfg hash t.1 event ≠ []) (s, []) events := by
  have hinit : Retries (Sized cfg hash events) [] (s.tracker hash) := by
    rw [hnew]
    exact .fresh
  have hsize : ∀ block batch, .blockFinalized block ∈ events → batchHash cfg batch = hash →
      Sized cfg hash events block.number (numberOfSets cfg block batch) :=
    fun block batch hmem hhash => ⟨block, batch, hmem, rfl, hhash, rfl⟩
  have hretries : Always (loggedStep cfg hash)
      (fun t => Retries (Sized cfg hash events) t.2 (t.1.tracker hash)) (s, []) events := by
    have hmem : StepsMeet (loggedStep cfg hash) (fun _ event => event ∈ events) (s, []) events :=
      stepsMeet_of_forall_mem (fun event hevent _ => hevent) (s, [])
    refine always_of_invariant _ ?_ hinit (hinTurn.and hmem)
    rintro t event ht ⟨hturn, hevent⟩
    refine retries_step cfg ht hturn ?_
    rintro block batch rfl
    exact hsize block batch hevent
  have hend := hretries events [] (List.append_nil _).symm
  refine ⟨hend.roundRobin, hend.sized, ?_⟩
  rintro pre event post rfl block rfl hdue
  have hblock : .blockFinalized block ∈ pre ++ .blockFinalized block :: post :=
    List.mem_append_right _ List.mem_cons_self
  rcases attempt_of_due (hretries pre _ rfl) hdue (fun batch => hsize block batch hblock)
    with hattempt | hstuck
  · exact hattempt
  · -- Without signing sets the history would still be without them at the end.
    have hend := invariant_run (fun t : State × List (ℕ × ℕ) =>
        t.2 = [] ∧ t.1.tracker hash = ⟨[0], []⟩) (fun _ _ => noSets_step cfg) hstuck
      (stepsMeet_cons.mp hinTurn.of_append).2
    rw [run_append, run_cons, hend.2] at hsets
    cases hsets

def sampleRounds : List (Event runtimeLimits) :=
  [.blockFinalized (sampleBlock 100), .taskFinished ⟨sampleHash, 0, false⟩ false,
    .blockFinalized (sampleBlock 105), .blockFinalized (sampleBlock 110),
    .blockFinalized (sampleBlock 120), .blockFinalized (sampleBlock 130)]

theorem attempts_roundRobin_sampleRounds :
    (run (loggedStep sampleSigning sampleHash) (State.initial, []) sampleRounds).2 =
        [(100, 0), (110, 1), (120, 2), (130, 0)] ∧
      RoundRobin 3 (run (loggedStep sampleSigning sampleHash) (State.initial, [])
        sampleRounds).2 ∧
      Sized sampleSigning sampleHash sampleRounds 100 3 := by
  have hlog : (run (loggedStep sampleSigning sampleHash) (State.initial, []) sampleRounds).2 =
      [(100, 0), (110, 1), (120, 2), (130, 0)] := by
    decide +kernel
  have hlength : ((run (loggedStep sampleSigning sampleHash) (State.initial, [])
      sampleRounds).1.tracker sampleHash).sets.length = 3 := by
    decide +kernel
  have hinTurn : StepsMeet (loggedStep sampleSigning sampleHash) (InTurn sampleHash)
      (State.initial, []) sampleRounds := by
    decide +kernel
  obtain ⟨hrounds, hsized, -⟩ := attempts_roundRobin sampleSigning sampleHash State.initial
    sampleRounds rfl hinTurn (by rw [hlength]; decide)
  rw [hlength] at hrounds hsized
  rw [hlog] at hsized
  exact ⟨hlog, hrounds, hsized (100, 0) rfl⟩

end DkgSubstrate.SigningRoundRobin
