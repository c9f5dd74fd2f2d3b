import DkgSubstrate.Runs
import DkgSubstrate.SigningSets

/-!
The retries of the signing manager.  A batch that is waiting for its signature is taken up
again by every call as long as its history has signing sets to go on with.  A task that
fails after another one has succeeded leaves a history without any.
-/

namespace DkgSubstrate.SigningRetries

open DkgSubstrate.Primitives
open DkgSubstrate.Proposals
open DkgSubstrate.Runs
open DkgSubstrate.SampleRuntime
open DkgSubstrate.SigningManager
open DkgSubstrate.SigningSets

def Retriable (tracker : SigningSetHistoryTracker) : Prop :=
  tracker.ssidsAttempted = [] ∨ tracker.sets ≠ []

def Stuck (tracker : SigningSetHistoryTracker) : Prop :=
  tracker.sets = [] ∧ tracker.nextSsid ≠ 0

def StartedAt (now : ℕ) (tracker : SigningSetHistoryTracker) : Prop :=
  ∃ set ∈ tracker.sets, set.locallyStartedAt = some now

def Settled (now : ℕ) (tracker : SigningSetHistoryTracker) : Prop :=
  ∀ set ∈ tracker.sets, ∀ initTime, set.locallyStartedAt = some initTime →
    initTime + signTimeout ≤ now

section Tracker

variable {now : ℕ} {generated : List ProposedSigningSet} {tracker : SigningSetHistoryTracker}

theorem isWaiting_of_startedAt (h : StartedAt now tracker) : tracker.isWaiting now = true := by
  obtain ⟨set, hset, hstarted⟩ := h
  have hmem : now ∈ tracker.sets.filterMap fun r => r.locallyStartedAt :=
    List.mem_filterMap.mpr ⟨set, hset, hstarted⟩
  rw [SigningSetHistoryTracker.isWaiting, SigningSetHistoryTracker.latestAttempt]
  cases hmax : (tracker.sets.filterMap fun r => r.locallyStartedAt).max? with
  | none =>
      rw [List.max?_eq_none_iff.mp hmax] at hmem
      cases hmem
  | some latest =>
      have hle := (List.max?_eq_some_iff.mp hmax).2 now hmem
      exact decide_eq_true (Nat.lt_of_le_of_lt hle (Nat.lt_add_of_pos_right (by decide)))

theorem isWaiting_of_settled (h : Settled now tracker) : tracker.isWaiting now = false := by
  rw [SigningSetHistoryTracker.isWaiting, SigningSetHistoryTracker.latestAttempt]
  cases hmax : (tracker.sets.filterMap fun r => r.locallyStartedAt).max? with
  | none => rfl
  | some latest =>
      obtain ⟨set, hset, hstarted⟩ := List.mem_filterMap.mp (List.max?_eq_some_iff.mp hmax).1
      exact decide_eq_false (Nat.not_lt.mpr (h set hset latest hstarted))

theorem nextSsid_of_nil (h : tracker.ssidsAttempted = []) : tracker.nextSsid = 0 := by
  rw [SigningSetHistoryTracker.nextSsid, h]
  rfl

theorem startedAt_advance (hgenerated : generated ≠ []) (h : Retriable tracker) :
    StartedAt now (tracker.advance now generated).1 := by
  have hsets : (if tracker.nextSsid = 0 then generated else tracker.sets) ≠ [] := by
    split
    · exact hgenerated
    · rename_i hnext
      exact h.resolve_left fun hnil => hnext (nextSsid_of_nil hnil)
  rw [SigningSetHistoryTracker.advance]
  generalize (if tracker.nextSsid = 0 then generated else tracker.sets) = sets at hsets ⊢
  have hindex : (if sets.length ≤ tracker.nextSsid then 0 else tracker.nextSsid) < sets.length := by
    split
    · exact List.length_pos_iff.mpr hsets
    · omega
  dsimp only
  rw [List.getElem?_eq_getElem hindex]
  exact ⟨_, List.mem_set hindex _, rfl⟩

theorem retriable_of_startedAt (h : StartedAt now tracker) : Retriable tracker := by
  obtain ⟨set, hset, -⟩ := h
  exact .inr (List.ne_nil_of_mem hset)

theorem advance_of_stuck (h : Stuck tracker) :
    tracker.advance now generated = (⟨[0], []⟩, none) := by
  obtain ⟨hsets, hnext⟩ := h
  simp [SigningSetHistoryTracker.advance, hnext, hsets]

theorem settled_of_stuck (h : Stuck tracker) : Settled now tracker := by
  intro set hset
  rw [h.1] at hset
  cases hset

theorem not_startedAt_of_stuck (h : Stuck tracker) : ¬StartedAt now tracker := by
  rintro ⟨set, hset, -⟩
  rw [h.1] at hset
  cases hset

theorem stuck_zero : Stuck ⟨[0], []⟩ := ⟨rfl, by decide⟩

end Tracker

variable {L : Limits} {cfg : Config L} {block : Finalized L} {s s' : State}

/-- A turn of the loop that gets to the history of its batch. -/
structure Visited (cfg : Config L) (block : Finalized L)
    (batch : StoredUnsignedProposalBatch L) (s s' : State) : Prop where
  lock : s'.lock = s.lock
  history : s'.ssidHistory = s.ssidHistory.insert (batchHash cfg batch)
    (visit cfg block batch (s.tracker (batchHash cfg batch))).1
  tasks : s'.tasks = s.tasks ∨ ∃ ssid signingSet forceStart,
    (visit cfg block batch (s.tracker (batchHash cfg batch))).2 = some (ssid, signingSet) ∧
      s'.tasks = ⟨batchHash cfg batch, ssid, forceStart⟩ :: s.tasks

theorem startedAt_visit {batch : StoredUnsignedProposalBatch L}
    {tracker : SigningSetHistoryTracker} (henough : block.threshold < (keygenParties block).length)
    (hretriable : Retriable tracker) (hsettled : Settled block.number tracker) :
    StartedAt block.number (visit cfg block batch tracker).1 := by
  rw [visit, isWaiting_of_settled hsettled, if_neg Bool.noConfusion]
  exact startedAt_advance (generateSigningSets_ne_nil henough) hretriable

theorem startedAt_visit_of_startedAt {batch : StoredUnsignedProposalBatch L}
    {tracker : SigningSetHistoryTracker} (h : StartedAt block.number tracker) :
    StartedAt block.number (visit cfg block batch tracker).1 := by
  rw [visit, isWaiting_of_startedAt h, if_pos rfl]
  exact h

theorem retriable_visit {batch : StoredUnsignedProposalBatch L}
    {tracker : SigningSetHistoryTracker} (henough : block.threshold < (keygenParties block).length)
    (h : Retriable tracker) : Retriable (visit cfg block batch tracker).1 := by
  rw [visit]
  split
  · exact h
  · exact retriable_of_startedAt (startedAt_advance (generateSigningSets_ne_nil henough) h)

theorem visit_of_stuck {batch : StoredUnsignedProposalBatch L}
    {tracker : SigningSetHistoryTracker} (h : Stuck tracker) :
    visit cfg block batch tracker = (⟨[0], []⟩, none) := by
  rw [visit, isWaiting_of_settled (settled_of_stuck h), if_neg Bool.noConfusion,
    advance_of_stuck h]

theorem tracker_of_visited {batch : StoredUnsignedProposalBatch L}
    (h : Visited cfg block batch s s') (hash : FixedBytes 32) :
    s'.tracker hash = if hash = batchHash cfg batch then
      (visit cfg block batch (s.tracker hash)).1 else s.tracker hash := by
  rw [State.tracker, h.history, StorageMap.getD_insert]
  split
  · rename_i hhash
    rw [hhash]
  · rfl

theorem any_batchHash {full : List (StoredUnsignedProposalBatch L)}
    {batch : StoredUnsignedProposalBatch L} (h : batch ∈ full) :
    (full.any fun p => batchHash cfg p = batchHash cfg batch) = true :=
  List.any_eq_true.mpr ⟨batch, h, decide_eq_true rfl⟩

theorem signBatch_of_room {partyI turn : ℕ} {full : List (StoredUnsignedProposalBatch L)}
    {batch : StoredUnsignedProposalBatch L} (hfull : batch ∈ full)
    (hproposals : batch.proposals.toList ≠ []) (hroom : block.canSubmitMoreTasks turn = true)
    (s : State) :
    Visited cfg block batch s (signBatch cfg block partyI full turn batch s).1 ∧
      (block.initialized turn = true → block.pushed turn = true →
        (signBatch cfg block partyI full turn batch s).2 = .next) := by
  obtain ⟨first, hfirst⟩ := Option.ne_none_iff_exists'.mp
    (List.head?_eq_none_iff.not.mpr hproposals)
  rw [signBatch, hfirst]
  dsimp only
  rw [any_batchHash hfull, hroom, if_neg Bool.noConfusion, if_neg Bool.noConfusion]
  cases hvisit : (visit cfg block batch (s.tracker (batchHash cfg batch))).2 with
  | none => exact ⟨⟨rfl, rfl, .inl rfl⟩, fun _ _ => rfl⟩
  | some selected =>
      dsimp only
      split
      · exact ⟨⟨rfl, rfl, .inl rfl⟩, fun _ _ => rfl⟩
      · split
        · rename_i hinitialized
          refine ⟨⟨rfl, rfl, .inl rfl⟩, fun htrue => ?_⟩
          rw [htrue] at hinitialized
          cases hinitialized
        · split
          · exact ⟨⟨rfl, rfl, .inr ⟨_, _, _, hvisit, rfl⟩⟩, fun _ _ => rfl⟩
          · rename_i hpushed
            exact ⟨⟨rfl, rfl, .inr ⟨_, _, _, hvisit, rfl⟩⟩, fun _ htrue => absurd htrue hpushed⟩

theorem signBatch_visited (partyI turn : ℕ) {full : List (StoredUnsignedProposalBatch L)}
    {batch : StoredUnsignedProposalBatch L} (hfull : batch ∈ full) (s : State) :
    (signBatch cfg block partyI full turn batch s).1 = s ∨
      Visited cfg block batch s (signBatch cfg block partyI full turn batch s).1 := by
  by_cases hproposals : batch.proposals.toList = []
  · rw [signBatch, hproposals]
    exact .inl rfl
  · by_cases hroom : block.canSubmitMoreTasks turn = true
    · exact .inr (signBatch_of_room hfull hproposals hroom s).1
    · rw [signBatch]
      split
      · exact .inl rfl
      · dsimp only
        rw [if_pos (Bool.eq_false_iff.mpr hroom)]
        exact .inl rfl

abbrev Visits (cfg : Config L) (block : Finalized L) : State → State → Prop :=
  Relation.ReflTransGen fun s s' => ∃ batch, Visited cfg block batch s s'

theorem signBatches_visits {partyI : ℕ} {full : List (StoredUnsignedProposalBatch L)}
    {batches : List (StoredUnsignedProposalBatch L)} (hfull : ∀ batch ∈ batches, batch ∈ full)
    (turn : ℕ) (s : State) :
    Visits cfg block s (signBatches cfg block partyI full turn batches s).1 := by
  induction batches generalizing turn s with
  | nil => exact .refl
  | cons batch batches ih =>
      obtain ⟨hbatch, hbatches⟩ := List.forall_mem_cons.mp hfull
      have hfirst : Visits cfg block s (signBatch cfg block partyI full turn batch s).1 := by
        rcases signBatch_visited partyI turn hbatch s with hsame | hvisited
        · rw [hsame]
        · exact .single ⟨batch, hvisited⟩
      rw [signBatches]
      split
      · rename_i next hnext
        rw [hnext] at hfirst
        exact hfirst.trans (ih hbatches (turn + 1) next)
      · rename_i last result hlast
        rw [hlast] at hfirst
        exact hfirst

theorem tracker_of_visits {P : SigningSetHistoryTracker → Prop} {hash : FixedBytes 32}
    (hvisit : ∀ batch tracker, batchHash cfg batch = hash → P tracker →
      P (visit cfg block batch tracker).1)
    (h : P (s.tracker hash)) (hvisits : Visits cfg block s s') : P (s'.tracker hash) := by
  refine invariant_of_reflTransGen (fun t => P (t.tracker hash)) ?_ h hvisits
  rintro t t' ht ⟨batch, hbatch⟩
  rw [tracker_of_visited hbatch]
  split
  · rename_i hhash
    exact hvisit batch _ hhash.symm ht
  · exact ht

theorem tracker_signBatches_cons {P : SigningSetHistoryTracker → Prop} {partyI turn : ℕ}
    {full batches : List (StoredUnsignedProposalBatch L)} {batch : StoredUnsignedProposalBatch L}
    {hash : FixedBytes 32} (hfull : ∀ batch ∈ batches, batch ∈ full)
    (hkept : ∀ batch tracker, P tracker → P (visit cfg block batch tracker).1)
    (h : P ((signBatch cfg block partyI full turn batch s).1.tracker hash)) :
    P ((signBatches cfg block partyI full turn (batch :: batches) s).1.tracker hash) := by
  rw [signBatches]
  split
  · rename_i next heq
    rw [heq] at h
    exact tracker_of_visits (fun batch t _ => hkept batch t) h
      (signBatches_visits hfull (turn + 1) next)
  · rename_i last result heq
    rw [heq] at h
    exact h

theorem tracker_signBatches {P : SigningSetHistoryTracker → Prop} {partyI : ℕ}
    {full batches : List (StoredUnsignedProposalBatch L)} {hash : FixedBytes 32} {turn : ℕ}
    (hroom : ∀ turn, block.canSubmitMoreTasks turn = true)
    (hfull : ∀ batch ∈ batches, batch ∈ full)
    (hproposals : ∀ batch ∈ batches, batch.proposals.toList ≠ [])
    (hmem : ∃ batch ∈ batches, batchHash cfg batch = hash)
    (hturns : ∀ i < batches.findIdx fun p => batchHash cfg p = hash,
      block.initialized (turn + i) = true ∧ block.pushed (turn + i) = true)
    (hvisit : ∀ batch, P (visit cfg block batch (s.tracker hash)).1)
    (hkept : ∀ batch tracker, P tracker → P (visit cfg block batch tracker).1) :
    P ((signBatches cfg block partyI full turn batches s).1.tracker hash) := by
  induction batches generalizing turn s with
  | nil =>
      obtain ⟨batch, hbatch, -⟩ := hmem
      cases hbatch
  | cons batch batches ih =>
      obtain ⟨hbatch, hfull⟩ := List.forall_mem_cons.mp hfull
      obtain ⟨hbatchProposals, hproposals⟩ := List.forall_mem_cons.mp hproposals
      obtain ⟨hvisited, hnext⟩ := signBatch_of_room hbatch hbatchProposals (hroom turn) s
      have htracker := tracker_of_visited hvisited hash
      by_cases hhash : batchHash cfg batch = hash
      · rw [if_pos hhash.symm] at htracker
        refine tracker_signBatches_cons hfull hkept ?_
        rw [htracker]
        exact hvisit batch
      · -- The turn of another batch leaves the history alone and goes on.
        rw [if_neg fun heq => hhash heq.symm] at htracker
        rw [List.findIdx_cons, decide_eq_false hhash] at hturns
        obtain ⟨hinitialized, hpushed⟩ := hturns 0 (Nat.succ_pos _)
        have hgoes := hnext hinitialized hpushed
        rw [signBatches]
        split
        · rename_i next heq
          rw [heq] at htracker
          have hmem : ∃ batch ∈ batches, batchHash cfg batch = hash := by
            obtain ⟨other, hother, rfl⟩ := hmem
            rcases List.mem_cons.mp hother with rfl | hother
            · exact absurd rfl hhash
            · exact ⟨other, hother, rfl⟩
          refine ih hfull hproposals hmem ?_ (fun other => htracker ▸ hvisit other)
          intro i hi
          have hturn := hturns (i + 1) (Nat.succ_lt_succ hi)
          rw [Nat.add_comm i 1, ← Nat.add_assoc] at hturn
          exact hturn
        · rename_i last result heq
          rw [heq] at hgoes
          cases hgoes

theorem mem_sortedProposals {batches : List (StoredUnsignedProposalBatch L)}
    {batch : StoredUnsignedProposalBatch L} :
    batch ∈ sortedProposals batches ↔ batch ∈ batches :=
  List.mem_insertionSort _

theorem onBlockFinalized_visits (s : State) :
    Visits cfg block s (onBlockFinalized cfg block s).1 := by
  rw [onBlockFinalized]
  split
  · exact .refl
  · split
    · exact .refl
    · split
      · exact .refl
      · exact .refl
      · exact signBatches_visits (fun batch hbatch => (List.mem_filter.mp hbatch).1) 0 s

/-- A batch with the hash is queued and could be signed: there is no job for it, no attempt
is pending, no keygen runs and the work manager has room. -/
structure Eligible (cfg : Config L) (block : Finalized L) (s : State) (hash : FixedBytes 32) :
    Prop where
  unlocked : s.lock = false
  queued : ∃ batches, block.unsignedProposals = some batches ∧
    ∃ batch ∈ batches, batchHash cfg batch = hash
  idle : block.jobExists hash = false
  settled : Settled block.number (s.tracker hash)
  room : ∀ turn, block.canSubmitMoreTasks turn = true

def turnOf (cfg : Config L) (block : Finalized L) (hash : FixedBytes 32) : ℕ :=
  (waitingProposals cfg block (block.unsignedProposals.getD [])).findIdx fun p =>
    batchHash cfg p = hash

/-- The node is a party, and nothing ends the call before the turn of the batch. -/
structure Undisturbed (cfg : Config L) (block : Finalized L) (hash : FixedBytes 32) : Prop where
  party : ∃ partyI, (getPartyIndex cfg block).bind keygenPartyId = some partyI
  proposals : ∀ batch ∈ block.unsignedProposals.getD [], batch.proposals.toList ≠ []
  turns : ∀ turn < turnOf cfg block hash,
    block.initialized turn = true ∧ block.pushed turn = true

theorem tracker_onBlockFinalized {P : SigningSetHistoryTracker → Prop} {hash : FixedBytes 32}
    (heligible : Eligible cfg block s hash) (hundisturbed : Undisturbed cfg block hash)
    (hvisit : ∀ batch, P (visit cfg block batch (s.tracker hash)).1)
    (hkept : ∀ batch tracker, P tracker → P (visit cfg block batch tracker).1) :
    P ((onBlockFinalized cfg block s).1.tracker hash) := by
  obtain ⟨batches, hbatches, batch, hbatch, hhash⟩ := heligible.queued
  obtain ⟨partyI, hparty⟩ := hundisturbed.party
  obtain ⟨index, hindex, hparty⟩ := Option.bind_eq_some_iff.mp hparty
  have hproposals := hundisturbed.proposals
  have hturns := hundisturbed.turns
  rw [turnOf] at hturns
  rw [hbatches, Option.getD_some] at hproposals hturns
  rw [onBlockFinalized, heligible.unlocked, if_neg Bool.noConfusion, hindex]
  dsimp only
  rw [hparty, hbatches]
  refine tracker_signBatches heligible.room
    (fun batch hbatch => (List.mem_filter.mp hbatch).1) ?_ ⟨batch, ?_, hhash⟩ ?_ hvisit hkept
  · intro batch hbatch
    exact hproposals batch (mem_sortedProposals.mp (List.mem_filter.mp hbatch).1)
  · refine List.mem_filter.mpr ⟨mem_sortedProposals.mpr hbatch, ?_⟩
    rw [hhash, heligible.idle]
    rfl
  · intro i hi
    rw [Nat.zero_add]
    exact hturns i hi

theorem startedAt_onBlockFinalized {hash : FixedBytes 32}
    (heligible : Eligible cfg block s hash) (hundisturbed : Undisturbed cfg block hash)
    (henough : block.threshold < (keygenParties block).length)
    (hretriable : Retriable (s.tracker hash)) :
    StartedAt block.number ((onBlockFinalized cfg block s).1.tracker hash) :=
  tracker_onBlockFinalized heligible hundisturbed
    (fun _ => startedAt_visit henough hretriable heligible.settled)
    (fun _ _ => startedAt_visit_of_startedAt)

/-- There are enough parties for a signing set, eligible batches are not disturbed, and a
task that fails finds the signing sets that it was started from. -/
def Supported (cfg : Config L) (s : State) : Event L → Prop
  | .blockFinalized block => block.threshold < (keygenParties block).length ∧
      ∀ hash, Eligible cfg block s hash → Undisturbed cfg block hash
  | .taskFinished task succeeded =>
      task ∈ s.tasks → succeeded = false → (s.tracker task.hash).sets ≠ []
  | _ => True

/-- The call for a block starts a signing set for every eligible batch. -/
def Selects (cfg : Config L) (s : State) : Event L → Prop
  | .blockFinalized block => ∀ hash, Eligible cfg block s hash →
      StartedAt block.number ((step cfg s (.blockFinalized block)).tracker hash)
  | _ => True

theorem tracker_update_success (hash hash' : FixedBytes 32) :
    (updateLocalSigningSetState (.success hash) s).tracker hash' =
      if hash' = hash then default else s.tracker hash' :=
  StorageMap.getD_erase

theorem tracker_update_failure (hash hash' : FixedBytes 32) (ssid : ℕ) :
    (updateLocalSigningSetState (.failure hash ssid) s).tracker hash' =
      if hash' = hash then { s.tracker hash with
        ssidsAttempted := (s.tracker hash).ssidsAttempted.insert ssid }
      else s.tracker hash' :=
  StorageMap.getD_insert

theorem retriable_step {event : Event L} (h : ∀ hash, Retriable (s.tracker hash))
    (hsupported : Supported cfg s event) (hash : FixedBytes 32) :
    Retriable ((step cfg s event).tracker hash) := by
  cases event with
  | blockFinalized block =>
      exact tracker_of_visits (fun _ _ _ => retriable_visit hsupported.1) (h hash)
        (onBlockFinalized_visits s)
  | taskFinished task succeeded =>
      rw [step]
      split
      · rename_i htask
        cases succeeded with
        | true =>
            rw [SigningTask.result, if_pos rfl, tracker_update_success]
            split
            · exact .inl rfl
            · exact h hash
        | false =>
            rw [SigningTask.result, if_neg Bool.noConfusion, tracker_update_failure]
            split
            · exact .inr (hsupported htask rfl)
            · exact h hash
      · exact h hash
  | keygenLock => exact h hash
  | keygenUnlock => exact h hash

/-- In every run whose steps are supported, each call starts a signing set for each batch
that is eligible in it. -/
theorem selects_run (cfg : Config L) (events : List (Event L))
    (hsupported : StepsMeet (step cfg) (Supported cfg) State.initial events) :
    StepsMeet (step cfg) (Selects cfg) State.initial events := by
  refine stepsMeet_of_invariant (fun t => ∀ hash, Retriable (t.tracker hash))
    (fun _ _ => retriable_step) ?_ (fun _ => .inl rfl) hsupported
  intro t event hretriable hsupported
  cases event with
  | blockFinalized block =>
      intro hash heligible
      exact startedAt_onBlockFinalized heligible (hsupported.2 hash heligible) hsupported.1
        (hretriable hash)
  | _ => trivial

def sampleUnsigned : StoredUnsignedProposalBatch runtimeLimits where
  batchId := 0
  proposals := (BoundedVec.tryFrom
    [⟨.evm 1, .tokenAddProposal 5, sampleTokenAdd 5⟩]).getD default
  timestamp := 0

def sampleHash : FixedBytes 32 := batchHash sampleSigning sampleUnsigned

def sampleBlock (number : ℕ) : Finalized runtimeLimits where
  number := number
  dkgPubKey := [7]
  bestAuthorities := sampleAuthorities 3
  threshold := 1
  unsignedProposals := some [sampleUnsigned]
  jobExists _ := false
  canSubmitMoreTasks _ := true
  initialized _ := true
  pushed _ := true

theorem undisturbed_sampleBlock (number : ℕ) (hash : FixedBytes 32) :
    Undisturbed sampleSigning (sampleBlock number) hash where
  party := by
    change ∃ partyI, (getPartyIndex sampleSigning (sampleBlock 0)).bind keygenPartyId = some partyI
    exact ⟨1, by decide +kernel⟩
  proposals := by
    intro batch hbatch
    rw [List.mem_singleton.mp hbatch]
    decide +kernel
  turns _ _ := ⟨rfl, rfl⟩

def sampleRetries : List (Event runtimeLimits) :=
  [.blockFinalized (sampleBlock 100), .taskFinished ⟨sampleHash, 0, false⟩ false,
    .blockFinalized (sampleBlock 110)]

theorem selects_sampleRetries :
    ((run (step sampleSigning) State.initial sampleRetries).tracker sampleHash).ssidsAttempted =
        [1, 0] ∧
      StepsMeet (step sampleSigning) (Selects sampleSigning) State.initial sampleRetries := by
  refine ⟨by decide +kernel, selects_run sampleSigning sampleRetries ?_⟩
  have hblock : ∀ (t : State) (number : ℕ),
      Supported sampleSigning t (.blockFinalized (sampleBlock number)) := by
    intro t number
    refine ⟨?_, fun hash _ => undisturbed_sampleBlock number hash⟩
    change 1 < (keygenParties (sampleBlock 0)).length
    decide +kernel
  refine stepsMeet_cons.mpr ⟨hblock _ 100, stepsMeet_cons.mpr ⟨fun _ _ => ?_,
    stepsMeet_cons.mpr ⟨hblock _ 110, stepsMeet_nil⟩⟩⟩
  decide +kernel

/-- The history is stuck, and no task is left that could clear it. -/
def Dead (hash : FixedBytes 32) (s : State) : Prop :=
  Stuck (s.tracker hash) ∧ ∀ task ∈ s.tasks, task.hash ≠ hash

theorem dead_of_visited {hash : FixedBytes 32} {batch : StoredUnsignedProposalBatch L}
    (h : Dead hash s) (hvisited : Visited cfg block batch s s') : Dead hash s' := by
  obtain ⟨hstuck, htasks⟩ := h
  constructor
  · rw [tracker_of_visited hvisited]
    split
    · rw [visit_of_stuck hstuck]
      exact stuck_zero
    · exact hstuck
  · rcases hvisited.tasks with hsame | ⟨ssid, signingSet, forceStart, hselected, hnew⟩
    · rw [hsame]
      exact htasks
    · rw [hnew]
      refine List.forall_mem_cons.mpr ⟨?_, htasks⟩
      rintro rfl
      rw [visit_of_stuck hstuck] at hselected
      cases hselected

theorem dead_onBlockFinalized {hash : FixedBytes 32} (h : Dead hash s) :
    Dead hash (onBlockFinalized cfg block s).1 :=
  invariant_of_reflTransGen (Dead hash) (fun _ _ hdead ⟨_, hvisited⟩ =>
    dead_of_visited hdead hvisited) h (onBlockFinalized_visits s)

theorem lock_onBlockFinalized : (onBlockFinalized cfg block s).1.lock = s.lock :=
  invariant_of_reflTransGen (fun t : State => t.lock = s.lock)
    (fun _ _ hlock ⟨_, hvisited⟩ => hvisited.lock.trans hlock) rfl (onBlockFinalized_visits s)

def Starves (cfg : Config L) (hash : FixedBytes 32) (s : State) (blocks : ℕ → Finalized L) :
    Prop :=
  ∀ calls : ℕ, StepsMeet (step cfg)
    (fun t event => ∃ block, event = .blockFinalized block ∧ Eligible cfg block t hash ∧
      ¬StartedAt block.number ((step cfg t event).tracker hash))
    s ((List.range calls).map fun call => .blockFinalized (blocks call))

theorem starves_of_dead {hash : FixedBytes 32} {blocks : ℕ → Finalized L} (hdead : Dead hash s)
    (hlock : s.lock = false)
    (hqueued : ∀ call, ∃ batches, (blocks call).unsignedProposals = some batches ∧
      ∃ batch ∈ batches, batchHash cfg batch = hash)
    (hidle : ∀ call, (blocks call).jobExists hash = false)
    (hroom : ∀ call turn, (blocks call).canSubmitMoreTasks turn = true) :
    Starves cfg hash s blocks := by
  intro calls
  have hblocks : StepsMeet (step cfg) (fun _ event => ∃ call, event = .blockFinalized (blocks call))
      s ((List.range calls).map fun call => .blockFinalized (blocks call)) := by
    intro pre event post hsplit
    have hmem : event ∈ (List.range calls).map fun call => Event.blockFinalized (blocks call) := by
      rw [hsplit]
      exact List.mem_append_right _ List.mem_cons_self
    obtain ⟨call, -, rfl⟩ := List.mem_map.mp hmem
    exact ⟨call, rfl⟩
  refine stepsMeet_of_invariant (fun t => Dead hash t ∧ t.lock = false) ?_ ?_ ⟨hdead, hlock⟩ hblocks
  · rintro t event ⟨hdead, hlock⟩ ⟨call, rfl⟩
    exact ⟨dead_onBlockFinalized hdead, lock_onBlockFinalized.trans hlock⟩
  · rintro t event ⟨hdead, hlock⟩ ⟨call, rfl⟩
    exact ⟨blocks call, rfl,
      ⟨hlock, hqueued call, hidle call, settled_of_stuck hdead.1, hroom call⟩,
      not_startedAt_of_stuck (dead_onBlockFinalized hdead).1⟩

def sampleLateFailure : List (Event runtimeLimits) :=
  [.blockFinalized (sampleBlock 100), .blockFinalized (sampleBlock 110),
    .taskFinished ⟨sampleHash, 1, false⟩ true, .taskFinished ⟨sampleHash, 0, false⟩ false]

theorem starves_after_late_failure :
    Starves sampleSigning sampleHash (run (step sampleSigning) State.initial sampleLateFailure)
      (fun call => sampleBlock (120 + call)) := by
  refine starves_of_dead ⟨⟨?_, ?_⟩, ?_⟩ ?_
    (fun _ => ⟨_, rfl, sampleUnsigned, List.mem_singleton_self _, rfl⟩) (fun _ => rfl)
    (fun _ _ => rfl) <;> decide +kernel

end DkgSubstrate.SigningRetries
