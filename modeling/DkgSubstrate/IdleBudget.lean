import DkgSubstrate.ProposalHandlerEffects
import DkgSubstrate.SampleRuntime

/-!
The database accesses of the hook for the rest of a block.  The hook charges at least what it
uses, but all entries of a map have been read before the weight that is left is looked at, and
no weight with a proof size counts as used up.
-/

namespace DkgSubstrate.IdleBudget

open DkgSubstrate.Dispatch
open DkgSubstrate.Primitives
open DkgSubstrate.ProposalHandler
open DkgSubstrate.ProposalHandlerEffects
open DkgSubstrate.Proposals
open DkgSubstrate.Runs
open DkgSubstrate.SampleRuntime

/-- Reads and writes of the storage of the pallet. -/
@[ext] structure Accesses where
  reads : ℕ
  writes : ℕ
deriving DecidableEq

instance : Add Accesses where
  add a b := ⟨a.reads + b.reads, a.writes + b.writes⟩

variable {L : Limits} {AccountId R : Type} (cfg : Config L AccountId R)

def price (accesses : Accesses) : ℕ :=
  cfg.dbRead * accesses.reads + cfg.dbWrite * accesses.writes

/-- An attempt to queue a list reads the next identifier of a batch, and writes it, the batch
and the list only when there is one. -/
def createBatchesCounted : List (TypedChainId × StagedProposals L) → Weight → State L R →
    (State L R × Weight) × Accesses
  | [], remaining, s => ((s, remaining), ⟨0, 0⟩)
  | (chain, proposals) :: staged, remaining, s =>
      let remaining := remaining.saturatingSub (readsWrites cfg 1 3)
      if remaining.isZero then ((s, remaining), ⟨0, 0⟩)
      else match generateNextBatchId s with
        | .error _ => ((s, remaining), ⟨1, 0⟩)
        | .ok (batchId, s) =>
            let queued := queueBatch cfg chain batchId proposals s
            let (out, accesses) := createBatchesCounted staged remaining
              { queued with unsignedProposals := queued.unsignedProposals.erase chain }
            (out, ⟨1, 3⟩ + accesses)

def onIdleCreateProposalBatchesCounted (remaining : Weight) (s : State L R) :
    (State L R × Weight) × Accesses :=
  let staged := s.unsignedProposals.iter (chainOrder cfg)
  let (out, accesses) := createBatchesCounted cfg staged
    (remaining.saturatingSub (readsWrites cfg staged.length 0)) s
  (out, ⟨staged.length, 0⟩ + accesses)

/-- The accesses before a panic are counted. -/
def removeExpiredCounted (now : ℕ) :
    List ((TypedChainId × ℕ) × StoredUnsignedProposalBatch L) → Weight → State L R →
      Outcome (State L R × Weight) × Accesses
  | [], remaining, s => (.ok (s, remaining), ⟨0, 0⟩)
  | (key, batch) :: batches, remaining, s =>
      match expired cfg now batch with
      | .error fault => (.error fault, ⟨0, 0⟩)
      | .ok false => removeExpiredCounted now batches remaining s
      | .ok true =>
          let remaining := remaining.saturatingSub (readsWrites cfg 0 1)
          if remaining.isZero then (.ok (s, remaining), ⟨0, 0⟩)
          else
            let (out, accesses) := removeExpiredCounted now batches remaining
              { s with unsignedProposalQueue := s.unsignedProposalQueue.erase key }
            (out, ⟨0, 1⟩ + accesses)

def onIdleRemoveExpiredBatchesCounted (now : ℕ) (remaining : Weight) (s : State L R) :
    Outcome (State L R × Weight) × Accesses :=
  if remaining.isZero then (.ok (s, remaining), ⟨0, 0⟩)
  else
    let batches := s.unsignedProposalQueue.iter (batchOrder cfg)
    let (out, accesses) := removeExpiredCounted cfg now batches
      (remaining.saturatingSub (readsWrites cfg batches.length 0)) s
    (out, ⟨batches.length, 0⟩ + accesses)

def onIdleCounted (now : ℕ) (remaining : Weight) (s : State L R) :
    Outcome (State L R × Weight) × Accesses :=
  if now % 2 ≠ 0 then (.ok (s, remaining), ⟨0, 0⟩)
  else
    let ((created, remaining), accesses) := onIdleCreateProposalBatchesCounted cfg remaining s
    let (out, accesses') := onIdleRemoveExpiredBatchesCounted cfg now remaining created
    (out, accesses + accesses')

theorem createBatchesCounted_fst (staged : List (TypedChainId × StagedProposals L))
    (remaining : Weight) (s : State L R) :
    (createBatchesCounted cfg staged remaining s).1 = createBatches cfg staged remaining s := by
  induction staged generalizing remaining s with
  | nil => rfl
  | cons entry staged ih =>
      rw [createBatchesCounted, createBatches]
      dsimp only
      split
      · rfl
      · cases generateNextBatchId s with
        | error e => rfl
        | ok next => exact ih _ _

theorem removeExpiredCounted_fst (now : ℕ)
    (batches : List ((TypedChainId × ℕ) × StoredUnsignedProposalBatch L))
    (remaining : Weight) (s : State L R) :
    (removeExpiredCounted cfg now batches remaining s).1 =
      removeExpired cfg now batches remaining s := by
  induction batches generalizing remaining s with
  | nil => rfl
  | cons entry batches ih =>
      rw [removeExpiredCounted, removeExpired]
      cases expired cfg now entry.2 with
      | error fault => rfl
      | ok past =>
          cases past with
          | false => exact ih _ _
          | true =>
              dsimp only
              split
              · rfl
              · exact ih _ _

theorem onIdleCounted_fst (now : ℕ) (remaining : Weight) (s : State L R) :
    (onIdleCounted cfg now remaining s).1 = onIdle cfg now remaining s := by
  have hcreated : (onIdleCreateProposalBatchesCounted cfg remaining s).1 =
      onIdleCreateProposalBatches cfg remaining s :=
    createBatchesCounted_fst cfg _ _ s
  have hremoved : ∀ (remaining : Weight) (created : State L R),
      (onIdleRemoveExpiredBatchesCounted cfg now remaining created).1 =
        onIdleRemoveExpiredBatches cfg now remaining created := by
    intro remaining created
    rw [onIdleRemoveExpiredBatchesCounted, onIdleRemoveExpiredBatches]
    split
    · rfl
    · exact removeExpiredCounted_fst cfg now _ _ created
  rw [onIdleCounted, onIdle, ← hcreated]
  split
  · rfl
  · exact hremoved _ _

variable {cfg}

theorem price_add (a b : Accesses) : price cfg (a + b) = price cfg a + price cfg b := by
  change cfg.dbRead * (a.reads + b.reads) + cfg.dbWrite * (a.writes + b.writes) = _
  rw [price, price, Nat.mul_add, Nat.mul_add]
  omega

theorem saturatingSub_readsWrites {w : Weight} (hw : w.refTime < 2 ^ 64) (reads writes : ℕ) :
    w.saturatingSub (readsWrites cfg reads writes) =
      ⟨w.refTime - price cfg ⟨reads, writes⟩, w.proofSize⟩ := by
  rw [Weight.saturatingSub, readsWrites, price, Nat.sub_zero]
  congr 1
  dsimp only
  omega

/-- What is left is at most the weight without the price of the accesses. -/
structure Charged (cfg : Config L AccountId R) (w : Weight) (accesses : Accesses)
    (left : Weight) : Prop where
  refTime : left.refTime ≤ w.refTime - price cfg accesses
  proofSize : left.proofSize = w.proofSize

theorem Charged.zero (w : Weight) : Charged cfg w ⟨0, 0⟩ w := ⟨le_rfl, rfl⟩

theorem Charged.charge_only {w : Weight} (hw : w.refTime < 2 ^ 64) {reads writes : ℕ}
    {used : Accesses} (hused : price cfg used ≤ price cfg ⟨reads, writes⟩) :
    Charged cfg w used (w.saturatingSub (readsWrites cfg reads writes)) := by
  rw [saturatingSub_readsWrites hw]
  exact ⟨Nat.sub_le_sub_left hused _, rfl⟩

theorem Charged.charge {w left : Weight} (hw : w.refTime < 2 ^ 64) {reads writes : ℕ}
    {later : Accesses}
    (h : Charged cfg (w.saturatingSub (readsWrites cfg reads writes)) later left) :
    Charged cfg w (⟨reads, writes⟩ + later) left := by
  rw [saturatingSub_readsWrites hw] at h
  obtain ⟨hrefTime, hproofSize⟩ := h
  refine ⟨?_, hproofSize⟩
  rw [price_add]
  dsimp only at hrefTime
  omega

theorem Charged.trans {w w' left : Weight} {used later : Accesses} (h : Charged cfg w used w')
    (h' : Charged cfg w' later left) : Charged cfg w (used + later) left := by
  obtain ⟨hrefTime, hproofSize⟩ := h
  obtain ⟨hrefTime', hproofSize'⟩ := h'
  refine ⟨?_, hproofSize'.trans hproofSize⟩
  rw [price_add]
  omega

theorem saturatingSub_lt {w : Weight} (hw : w.refTime < 2 ^ 64) (w' : Weight) :
    (w.saturatingSub w').refTime < 2 ^ 64 :=
  (Nat.sub_le _ _).trans_lt hw

theorem createBatchesCounted_charged (staged : List (TypedChainId × StagedProposals L))
    {w : Weight} (hw : w.refTime < 2 ^ 64) (s : State L R) :
    Charged cfg w (createBatchesCounted cfg staged w s).2
      (createBatchesCounted cfg staged w s).1.2 := by
  induction staged generalizing w s with
  | nil => exact .zero w
  | cons entry staged ih =>
      have hleft := saturatingSub_lt hw (readsWrites cfg 1 3)
      rw [createBatchesCounted]
      dsimp only
      split
      · exact .charge_only hw (by simp [price])
      · cases generateNextBatchId s with
        | error e => exact .charge_only hw (by simp [price])
        | ok next => exact .charge hw (ih hleft _)

theorem removeExpiredCounted_charged {now : ℕ}
    (batches : List ((TypedChainId × ℕ) × StoredUnsignedProposalBatch L))
    {w : Weight} (hw : w.refTime < 2 ^ 64) (s : State L R) {out : State L R × Weight}
    (h : (removeExpiredCounted cfg now batches w s).1 = .ok out) :
    Charged cfg w (removeExpiredCounted cfg now batches w s).2 out.2 := by
  induction batches generalizing w s with
  | nil =>
      rw [← Except.ok.inj h]
      exact .zero w
  | cons entry batches ih =>
      have hleft := saturatingSub_lt hw (readsWrites cfg 0 1)
      rw [removeExpiredCounted] at h ⊢
      cases hexpired : expired cfg now entry.2 with
      | error fault => simp [hexpired] at h
      | ok past =>
          cases past with
          | false =>
              simp only [hexpired] at h ⊢
              exact ih hw s h
          | true =>
              simp only [hexpired] at h ⊢
              split at h
              · rename_i hzero
                rw [if_pos hzero, ← Except.ok.inj h]
                exact .charge_only hw (by simp [price])
              · rename_i hzero
                rw [if_neg hzero]
                exact .charge hw (ih hleft _ h)

theorem onIdleCounted_charged {now : ℕ} {w : Weight} (hw : w.refTime < 2 ^ 64) {s : State L R}
    {out : State L R × Weight} (h : onIdle cfg now w s = .ok out) :
    Charged cfg w (onIdleCounted cfg now w s).2 out.2 := by
  rw [← onIdleCounted_fst] at h
  rw [onIdleCounted] at h ⊢
  split at h
  · rename_i hodd
    rw [if_pos hodd, ← Except.ok.inj h]
    exact .zero w
  · rename_i heven
    rw [if_neg heven]
    have hcreated : Charged cfg w (onIdleCreateProposalBatchesCounted cfg w s).2
        (onIdleCreateProposalBatchesCounted cfg w s).1.2 :=
      .charge hw (createBatchesCounted_charged _ (saturatingSub_lt hw _) s)
    have hleft : (onIdleCreateProposalBatchesCounted cfg w s).1.2.refTime < 2 ^ 64 :=
      (hcreated.refTime.trans (Nat.sub_le _ _)).trans_lt hw
    refine hcreated.trans ?_
    dsimp only at h ⊢
    rw [onIdleRemoveExpiredBatchesCounted] at h ⊢
    split at h
    · rename_i hzero
      rw [if_pos hzero, ← Except.ok.inj h]
      exact .zero _
    · rename_i hzero
      rw [if_neg hzero]
      exact .charge hleft (removeExpiredCounted_charged _ (saturatingSub_lt hleft _) _ h)

def idsLeft (s : State L R) : ℕ := 2 ^ 32 - 1 - s.nextBatchId

def attempts (staged : List (TypedChainId × StagedProposals L)) (s : State L R) : ℕ :=
  min staged.length (idsLeft s + 1)

def creation (staged : List (TypedChainId × StagedProposals L)) (s : State L R) : Accesses :=
  ⟨attempts staged s, 3 * min staged.length (idsLeft s)⟩

def queueAll (cfg : Config L AccountId R) : List (TypedChainId × StagedProposals L) →
    State L R → State L R
  | [], s => s
  | (chain, proposals) :: staged, s =>
      match generateNextBatchId s with
      | .error _ => s
      | .ok (batchId, s) =>
          let queued := queueBatch cfg chain batchId proposals s
          queueAll cfg staged
            { queued with unsignedProposals := queued.unsignedProposals.erase chain }

def due (cfg : Config L AccountId R) (now : ℕ) :
    List ((TypedChainId × ℕ) × StoredUnsignedProposalBatch L) → ℕ
  | [] => 0
  | (_, batch) :: batches =>
      match expired cfg now batch with
      | .error _ => 0
      | .ok past => (if past then 1 else 0) + due cfg now batches

theorem creation_cons_of_ok (entry : TypedChainId × StagedProposals L)
    (staged : List (TypedChainId × StagedProposals L)) {s t : State L R}
    (hbits : s.nextBatchId + 1 < 2 ^ 32) (ht : t.nextBatchId = s.nextBatchId + 1) :
    creation (entry :: staged) s = ⟨1, 3⟩ + creation staged t := by
  have hids : idsLeft s = idsLeft t + 1 := by
    rw [idsLeft, idsLeft, ht]
    omega
  ext
  · change min (staged.length + 1) (idsLeft s + 1) = 1 + min staged.length (idsLeft t + 1)
    omega
  · change 3 * min (staged.length + 1) (idsLeft s) = 3 + 3 * min staged.length (idsLeft t)
    omega

theorem creation_cons_of_error (entry : TypedChainId × StagedProposals L)
    (staged : List (TypedChainId × StagedProposals L)) {s : State L R}
    (hbits : ¬s.nextBatchId + 1 < 2 ^ 32) : creation (entry :: staged) s = ⟨1, 0⟩ := by
  have hids : idsLeft s = 0 := by
    rw [idsLeft]
    omega
  ext
  · change min (staged.length + 1) (idsLeft s + 1) = 1
    omega
  · change 3 * min (staged.length + 1) (idsLeft s) = 0
    omega

theorem createBatchesCounted_cons_of_ok {w : Weight}
    (hleft : ¬(w.saturatingSub (readsWrites cfg 1 3)).isZero = true)
    (entry : TypedChainId × StagedProposals L)
    (staged : List (TypedChainId × StagedProposals L)) {s : State L R} {next : ℕ × State L R}
    (hnext : generateNextBatchId s = .ok next) :
    ∃ queued : State L R,
      createBatchesCounted cfg (entry :: staged) w s =
        ((createBatchesCounted cfg staged (w.saturatingSub (readsWrites cfg 1 3)) queued).1,
          ⟨1, 3⟩ + (createBatchesCounted cfg staged
            (w.saturatingSub (readsWrites cfg 1 3)) queued).2) ∧
      queueAll cfg (entry :: staged) s = queueAll cfg staged queued ∧
      creation (entry :: staged) s = ⟨1, 3⟩ + creation staged queued := by
  obtain ⟨batchId, t⟩ := next
  obtain ⟨hbits, rfl, rfl⟩ := generateNextBatchId_ok hnext
  rw [createBatchesCounted, if_neg hleft, queueAll, hnext]
  exact ⟨_, rfl, rfl, creation_cons_of_ok entry staged hbits rfl⟩

theorem createBatchesCounted_cons_of_error {w : Weight}
    (hleft : ¬(w.saturatingSub (readsWrites cfg 1 3)).isZero = true)
    (entry : TypedChainId × StagedProposals L)
    (staged : List (TypedChainId × StagedProposals L)) {s : State L R} {e : DispatchError}
    (hnext : generateNextBatchId s = .error e) :
    createBatchesCounted cfg (entry :: staged) w s =
        ((s, w.saturatingSub (readsWrites cfg 1 3)), ⟨1, 0⟩) ∧
      queueAll cfg (entry :: staged) s = s ∧ creation (entry :: staged) s = ⟨1, 0⟩ := by
  rw [createBatchesCounted, if_neg hleft, queueAll, hnext]
  exact ⟨rfl, rfl, creation_cons_of_error entry staged (generateNextBatchId_error hnext)⟩

theorem createBatchesCounted_of_lt (staged : List (TypedChainId × StagedProposals L))
    {w : Weight} (hw : w.refTime < 2 ^ 64) (s : State L R)
    (h : 0 < w.proofSize ∨ price cfg ⟨1, 3⟩ * attempts staged s < w.refTime) :
    createBatchesCounted cfg staged w s =
      ((queueAll cfg staged s,
        ⟨w.refTime - price cfg ⟨1, 3⟩ * attempts staged s, w.proofSize⟩),
        creation staged s) := by
  induction staged generalizing w s with
  | nil =>
      rw [creation, attempts, List.length_nil, Nat.zero_min, Nat.zero_min, Nat.mul_zero]
      rfl
  | cons entry staged ih =>
      have hone : 1 ≤ attempts (entry :: staged) s := by
        rw [attempts, List.length_cons]
        omega
      have hfirst := Nat.le_mul_of_pos_right (price cfg ⟨1, 3⟩) hone
      have hleft : ¬(w.saturatingSub (readsWrites cfg 1 3)).isZero = true := by
        rw [saturatingSub_readsWrites hw, isZero_iff]
        dsimp only
        omega
      cases hnext : generateNextBatchId s with
      | error e =>
          obtain ⟨hcounted, hqueued, hcreation⟩ :=
            createBatchesCounted_cons_of_error hleft entry staged hnext
          have hattempts : attempts (entry :: staged) s = 1 := congrArg Accesses.reads hcreation
          rw [hcounted, hqueued, hcreation, hattempts, Nat.mul_one, saturatingSub_readsWrites hw]
      | ok next =>
          obtain ⟨queued, hcounted, hqueued, hcreation⟩ :=
            createBatchesCounted_cons_of_ok hleft entry staged hnext
          have hattempts : attempts (entry :: staged) s = 1 + attempts staged queued :=
            congrArg Accesses.reads hcreation
          rw [hattempts, Nat.mul_add, Nat.mul_one] at h ⊢
          rw [hcounted, hqueued, hcreation, saturatingSub_readsWrites hw,
            ih ((Nat.sub_le _ _).trans_lt hw) queued, Nat.sub_sub]
          dsimp only
          omega

theorem createBatchesCounted_of_le (staged : List (TypedChainId × StagedProposals L))
    {w : Weight} (hw : w.refTime < 2 ^ 64) (s : State L R) (hsize : w.proofSize = 0)
    (h : w.refTime ≤ price cfg ⟨1, 3⟩ * attempts staged s) :
    (createBatchesCounted cfg staged w s).1.2 = ⟨0, 0⟩ ∧
      price cfg (createBatchesCounted cfg staged w s).2 ≤ w.refTime := by
  induction staged generalizing w s with
  | nil =>
      rw [attempts, List.length_nil, Nat.zero_min, Nat.mul_zero, Nat.le_zero] at h
      obtain ⟨refTime, proofSize⟩ := w
      cases h
      cases hsize
      exact ⟨rfl, le_rfl⟩
  | cons entry staged ih =>
      by_cases hzero : (w.saturatingSub (readsWrites cfg 1 3)).isZero = true
      · rw [createBatchesCounted, if_pos hzero]
        exact ⟨of_decide_eq_true hzero, Nat.zero_le _⟩
      have hleft := hzero
      rw [saturatingSub_readsWrites hw, isZero_iff] at hleft
      dsimp only at hleft
      cases hnext : generateNextBatchId s with
      | error e =>
          obtain ⟨-, -, hcreation⟩ := createBatchesCounted_cons_of_error hzero entry staged hnext
          have hattempts : attempts (entry :: staged) s = 1 := congrArg Accesses.reads hcreation
          rw [hattempts, Nat.mul_one] at h
          omega
      | ok next =>
          obtain ⟨queued, hcounted, -, hcreation⟩ :=
            createBatchesCounted_cons_of_ok hzero entry staged hnext
          have hattempts : attempts (entry :: staged) s = 1 + attempts staged queued :=
            congrArg Accesses.reads hcreation
          rw [hattempts, Nat.mul_add, Nat.mul_one] at h
          rw [hcounted, saturatingSub_readsWrites hw, price_add]
          obtain ⟨hnone, hused⟩ := ih
            (w := ⟨w.refTime - price cfg ⟨1, 3⟩, w.proofSize⟩) ((Nat.sub_le _ _).trans_lt hw)
            queued hsize (by dsimp only; omega)
          refine ⟨hnone, ?_⟩
          dsimp only at hused ⊢
          omega

theorem price_creation_le (cfg : Config L AccountId R)
    (staged : List (TypedChainId × StagedProposals L)) (s : State L R) :
    price cfg (creation staged s) ≤ price cfg ⟨1, 3⟩ * attempts staged s := by
  have hwrites : 3 * min staged.length (idsLeft s) ≤ 3 * attempts staged s := by
    rw [attempts]
    omega
  rw [price, price, creation, Nat.mul_one, Nat.add_mul, Nat.mul_assoc]
  exact Nat.add_le_add_left (Nat.mul_le_mul_left _ hwrites) _

theorem removeExpiredCounted_of_pos {now : ℕ}
    (batches : List ((TypedChainId × ℕ) × StoredUnsignedProposalBatch L)) {w : Weight}
    (hsize : 0 < w.proofSize) (s : State L R) :
    (removeExpiredCounted cfg now batches w s).2 = ⟨0, due cfg now batches⟩ := by
  induction batches generalizing w s with
  | nil => rfl
  | cons entry batches ih =>
      rw [removeExpiredCounted, due]
      cases expired cfg now entry.2 with
      | error fault => rfl
      | ok past =>
          cases past with
          | false =>
              dsimp only
              rw [if_neg Bool.false_ne_true, Nat.zero_add]
              exact ih hsize s
          | true =>
              have hleft : 0 < (w.saturatingSub (readsWrites cfg 0 1)).proofSize := hsize
              dsimp only
              rw [if_neg (not_isZero_of_proofSize hleft), if_pos rfl, ih hleft]
              rfl

theorem price_removeExpiredCounted_le (cfg : Config L AccountId R) (now : ℕ)
    (batches : List ((TypedChainId × ℕ) × StoredUnsignedProposalBatch L)) {w : Weight}
    (hw : w.refTime < 2 ^ 64) (hsize : w.proofSize = 0) (s : State L R) :
    price cfg (removeExpiredCounted cfg now batches w s).2 ≤ w.refTime := by
  induction batches generalizing w s with
  | nil => exact Nat.zero_le _
  | cons entry batches ih =>
      rw [removeExpiredCounted]
      cases expired cfg now entry.2 with
      | error fault => exact Nat.zero_le _
      | ok past =>
          cases past with
          | false => exact ih hw hsize s
          | true =>
              dsimp only
              by_cases hzero : (w.saturatingSub (readsWrites cfg 0 1)).isZero = true
              · rw [if_pos hzero]
                exact Nat.zero_le _
              · have hused := ih (saturatingSub_lt hw (readsWrites cfg 0 1))
                  (by rw [saturatingSub_readsWrites hw]; exact hsize)
                  { s with unsignedProposalQueue := s.unsignedProposalQueue.erase entry.1 }
                rw [if_neg hzero, price_add]
                rw [saturatingSub_readsWrites hw] at hzero hused ⊢
                rw [isZero_iff] at hzero
                dsimp only at hzero hused ⊢
                omega

/-- The accesses cost at most the given weight, and the weight that is returned is at most
what they leave of it. -/
def WithinBudget (cfg : Config L AccountId R) (now : ℕ) (w : Weight) (s : State L R) : Prop :=
  price cfg (onIdleCounted cfg now w s).2 ≤ w.refTime ∧
    ∀ out, onIdle cfg now w s = .ok out →
      out.2.refTime ≤ w.refTime - price cfg (onIdleCounted cfg now w s).2 ∧
        out.2.proofSize ≤ w.proofSize

/-- With some proof size all work is done, and the weight must suffice for it.  Without, the
weight must suffice for the entries of each map that is read. -/
def Affordable (cfg : Config L AccountId R) (now : ℕ) (w : Weight) (s : State L R) : Prop :=
  let staged := s.unsignedProposals.iter (chainOrder cfg)
  let batches := (queueAll cfg staged s).unsignedProposalQueue.iter (batchOrder cfg)
  if 0 < w.proofSize then
    price cfg (⟨staged.length, 0⟩ + creation staged s +
      ⟨batches.length, due cfg now batches⟩) ≤ w.refTime
  else
    price cfg ⟨staged.length, 0⟩ ≤ w.refTime ∧
      (w.refTime ≤ price cfg ⟨staged.length, 0⟩ + price cfg ⟨1, 3⟩ * attempts staged s ∨
        price cfg (⟨staged.length, 0⟩ + creation staged s + ⟨batches.length, 0⟩) ≤ w.refTime)

instance decidableAffordable (cfg : Config L AccountId R) (now : ℕ) (w : Weight)
    (s : State L R) : Decidable (Affordable cfg now w s) := by
  unfold Affordable
  infer_instance

theorem price_onIdleCounted_of_lt {now : ℕ} (heven : now % 2 = 0) {w : Weight}
    (hw : w.refTime < 2 ^ 64) {s : State L R}
    {staged : List (TypedChainId × StagedProposals L)}
    (hstaged : s.unsignedProposals.iter (chainOrder cfg) = staged)
    {batches : List ((TypedChainId × ℕ) × StoredUnsignedProposalBatch L)}
    (hbatches : (queueAll cfg staged s).unsignedProposalQueue.iter (batchOrder cfg) = batches)
    (h : 0 < w.proofSize ∨
      price cfg ⟨1, 3⟩ * attempts staged s < w.refTime - price cfg ⟨staged.length, 0⟩) :
    price cfg (onIdleCounted cfg now w s).2 =
      price cfg ⟨staged.length, 0⟩ + price cfg (creation staged s) +
        price cfg ⟨batches.length, 0⟩ +
        price cfg (removeExpiredCounted cfg now batches
          ⟨w.refTime - price cfg ⟨staged.length, 0⟩ - price cfg ⟨1, 3⟩ * attempts staged s -
            price cfg ⟨batches.length, 0⟩, w.proofSize⟩ (queueAll cfg staged s)).2 := by
  have hcreated := createBatchesCounted_of_lt staged
    (w := ⟨w.refTime - price cfg ⟨staged.length, 0⟩, w.proofSize⟩)
    ((Nat.sub_le _ _).trans_lt hw) s h
  generalize hleft : w.refTime - price cfg ⟨staged.length, 0⟩ -
    price cfg ⟨1, 3⟩ * attempts staged s = left at hcreated ⊢
  have hbound : left < 2 ^ 64 := by omega
  have hzero : ¬(⟨left, w.proofSize⟩ : Weight).isZero = true := by
    rw [isZero_iff]
    dsimp only
    omega
  rw [onIdleCounted, if_neg (not_not.mpr heven), onIdleCreateProposalBatchesCounted, hstaged,
    saturatingSub_readsWrites hw]
  dsimp only
  rw [hcreated, onIdleRemoveExpiredBatchesCounted, if_neg hzero, hbatches]
  dsimp only
  rw [saturatingSub_readsWrites hbound, price_add, price_add, price_add,
    Nat.add_assoc _ (price cfg ⟨batches.length, 0⟩)]

theorem price_onIdleCounted_of_le {now : ℕ} (heven : now % 2 = 0) {w : Weight}
    (hw : w.refTime < 2 ^ 64) {s : State L R} (hsize : w.proofSize = 0)
    {staged : List (TypedChainId × StagedProposals L)}
    (hstaged : s.unsignedProposals.iter (chainOrder cfg) = staged)
    (h : w.refTime - price cfg ⟨staged.length, 0⟩ ≤ price cfg ⟨1, 3⟩ * attempts staged s) :
    price cfg (onIdleCounted cfg now w s).2 ≤ w.refTime ↔
      price cfg ⟨staged.length, 0⟩ ≤ w.refTime := by
  obtain ⟨hnone, hused⟩ := createBatchesCounted_of_le staged
    (w := ⟨w.refTime - price cfg ⟨staged.length, 0⟩, w.proofSize⟩)
    ((Nat.sub_le _ _).trans_lt hw) s hsize h
  rw [onIdleCounted, if_neg (not_not.mpr heven), onIdleCreateProposalBatchesCounted, hstaged,
    saturatingSub_readsWrites hw]
  dsimp only at hused ⊢
  rw [hnone, onIdleRemoveExpiredBatchesCounted, if_pos (isZero_iff.mpr ⟨rfl, rfl⟩)]
  dsimp only
  rw [price_add, price_add]
  have hlast : price cfg ⟨0, 0⟩ = 0 := rfl
  omega

theorem price_onIdleCounted_le_iff {now : ℕ} (heven : now % 2 = 0) {w : Weight}
    (hw : w.refTime < 2 ^ 64) (s : State L R) :
    price cfg (onIdleCounted cfg now w s).2 ≤ w.refTime ↔ Affordable cfg now w s := by
  unfold Affordable
  dsimp only
  generalize hstaged : s.unsignedProposals.iter (chainOrder cfg) = staged
  generalize hbatches :
    (queueAll cfg staged s).unsignedProposalQueue.iter (batchOrder cfg) = batches
  have hcreation := price_creation_le cfg staged s
  rw [price_add, price_add, price_add, price_add]
  by_cases hsize : 0 < w.proofSize
  · have hdue : price cfg ⟨batches.length, due cfg now batches⟩ =
        price cfg ⟨batches.length, 0⟩ + price cfg ⟨0, due cfg now batches⟩ := by
      simp [price]
    rw [if_pos hsize, price_onIdleCounted_of_lt heven hw hstaged hbatches (.inl hsize),
      removeExpiredCounted_of_pos batches, hdue, ← Nat.add_assoc]
    exact hsize
  · rw [if_neg hsize]
    by_cases hstop : w.refTime - price cfg ⟨staged.length, 0⟩ ≤
        price cfg ⟨1, 3⟩ * attempts staged s
    · rw [price_onIdleCounted_of_le heven hw (by omega) hstaged hstop]
      omega
    · -- What is removed fits into what is left after the second map has been read.
      have hremoved := price_removeExpiredCounted_le cfg now batches
        (w := ⟨w.refTime - price cfg ⟨staged.length, 0⟩ - price cfg ⟨1, 3⟩ * attempts staged s -
          price cfg ⟨batches.length, 0⟩, w.proofSize⟩) (by dsimp only; omega)
        (by dsimp only; omega) (queueAll cfg staged s)
      rw [price_onIdleCounted_of_lt heven hw hstaged hbatches (.inr (by omega))]
      dsimp only at hremoved
      omega

/-- The hook stays within the budget exactly where it does nothing or the weight suffices for
the work that the state holds. -/
theorem withinBudget_iff (cfg : Config L AccountId R) (now : ℕ) (w : Weight)
    (hw : w.refTime < 2 ^ 64) (s : State L R) :
    WithinBudget cfg now w s ↔ now % 2 = 1 ∨ Affordable cfg now w s := by
  have hreturned : WithinBudget cfg now w s ↔
      price cfg (onIdleCounted cfg now w s).2 ≤ w.refTime := by
    refine and_iff_left ?_
    intro out hout
    obtain ⟨hrefTime, hproofSize⟩ := onIdleCounted_charged hw hout
    exact ⟨hrefTime, hproofSize.le⟩
  rw [hreturned]
  rcases Nat.mod_two_eq_zero_or_one now with heven | hodd
  · rw [price_onIdleCounted_le_iff heven hw, heven]
    exact (or_iff_right Nat.zero_ne_one).symm
  · refine iff_of_true ?_ (.inl hodd)
    rw [onIdleCounted, if_pos (by omega)]
    exact Nat.zero_le _

def sampleStaged : State runtimeLimits (Runtime.Rest sampleWiring Unit) :=
  run (step sampleHandler) (State.empty sampleRest) [.handleUnsignedProposal (sampleTokenAdd 5)]

theorem withinBudget_sampleStaged : WithinBudget sampleHandler 2 sampleWeight sampleStaged :=
  (withinBudget_iff sampleHandler 2 sampleWeight (by decide) sampleStaged).mpr
    (.inr (by decide +kernel))

theorem hook_exceeds_weight :
    price sampleHandler (onIdleCounted sampleHandler 2 ⟨1, 1⟩ sampleStaged).2 = 6 ∧
      price sampleHandler (onIdleCounted sampleHandler 2 ⟨0, 0⟩ sampleStaged).2 = 1 ∧
      ¬WithinBudget sampleHandler 2 ⟨1, 1⟩ sampleStaged ∧
      ¬WithinBudget sampleHandler 2 ⟨0, 0⟩ sampleStaged := by
  have hsize : price sampleHandler (onIdleCounted sampleHandler 2 ⟨1, 1⟩ sampleStaged).2 = 6 := by
    decide +kernel
  have hnone : price sampleHandler (onIdleCounted sampleHandler 2 ⟨0, 0⟩ sampleStaged).2 = 1 := by
    decide +kernel
  refine ⟨hsize, hnone, fun h => ?_, fun h => ?_⟩
  · exact absurd (hsize ▸ h.1) (by decide)
  · exact absurd (hnone ▸ h.1) (by decide)

end DkgSubstrate.IdleBudget
