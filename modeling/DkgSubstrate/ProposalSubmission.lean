import DkgSubstrate.BatchLifecycle
import DkgSubstrate.HandlerPanics
import DkgSubstrate.RefreshCleanup
import DkgSubstrate.SignedProposalStore
import DkgSubstrate.Slices
import Mathlib.Order.Interval.Finset.Nat

/-!
The offchain worker of the proposal handler.  In every block it is the turn of one of the
authorities to submit the signed batches in its local storage that are not on the chain yet.
-/

namespace DkgSubstrate.ProposalSubmission

open DkgSubstrate.BatchLifecycle
open DkgSubstrate.Dispatch
open DkgSubstrate.HandlerPanics
open DkgSubstrate.Primitives
open DkgSubstrate.ProposalHandler
open DkgSubstrate.ProposalQueue
open DkgSubstrate.Proposals
open DkgSubstrate.RefreshCleanup
open DkgSubstrate.Runs
open DkgSubstrate.Runtime
open DkgSubstrate.SampleRuntime
open DkgSubstrate.SignedBatches
open DkgSubstrate.SignedProposalStore (Codec)
open DkgSubstrate.Slices
open DkgSubstrate.Words

variable {L : Limits} {AccountId R Value : Type}

inductive WorkerFault where
  | noLocalAccounts
  | panic
deriving DecidableEq

/-- A block number that does not fit is taken for zero.  Without authorities, and in block zero,
it is nobody's turn. -/
def getExpectedSigner (currentAuthorities : List AccountId) (blockNumber : ℕ) :
    Option AccountId :=
  let blockAsU32 := if blockNumber < 2 ^ 32 then blockNumber else 0
  if currentAuthorities.isEmpty || blockAsU32 == 0 then none
  else currentAuthorities[blockAsU32 % currentAuthorities.length]?

variable (cfg : Config L AccountId R)

def isNotExistingProposalBatch (s : State L R) (prop : SignedProposalBatch L) :
    Except WorkerFault Bool :=
  match prop.proposals.toList.head? with
  | none => .error .panic
  | some first =>
      match decodeProposalIdentifier cfg.decoders first with
      | .ok v => .ok (!s.signedProposals.containsKey (v.typedChainId, prop.batchId))
      | .error (.invalid _) => .ok false
      | .error .panic => .error .panic

def filterExisting (s : State L R) :
    List (SignedProposalBatch L) → Except WorkerFault (List (SignedProposalBatch L))
  | [] => .ok []
  | prop :: props => do
      let isNew ← isNotExistingProposalBatch cfg s prop
      let props ← filterExisting s props
      .ok (if isNew then prop :: props else props)

def submitSignedProposalOnchain [DecidableEq AccountId] (codec : Codec L Value)
    (currentAuthorities accounts : List AccountId) (blockNumber : ℕ) (stored : Option Value)
    (s : State L R) : Except WorkerFault (List (AccountId × List (SignedProposalBatch L))) :=
  match accounts with
  | [] => .error .noLocalAccounts
  | account :: _ =>
      if (getExpectedSigner currentAuthorities blockNumber).any (· ≠ account) then .ok []
      else match stored.bind codec.decode with
        | none | some [] => .ok []
        | some nextProposals => do
            let filteredProposals ← filterExisting cfg s nextProposals
            if L.maxProposalsPerBatch = 0 then .error .panic
            else .ok ((chunks L.maxProposalsPerBatch filteredProposals).flatMap fun chunk =>
              accounts.map (·, chunk))

def transaction (t : AccountId × List (SignedProposalBatch L)) : Call L AccountId R :=
  .submitSignedProposals (.signed t.1) t.2

theorem range'_map_mod_perm (start n : ℕ) :
    ((List.range' start n).map (· % n)).Perm (List.range n) := by
  have h := Nat.multiset_Ico_map_mod start n
  have hIco : Multiset.Ico start (start + n) = (List.range' start n : Multiset ℕ) := by
    change (List.range' start (start + n - start) : Multiset ℕ) = _
    rw [Nat.add_sub_cancel_left]
  rw [hIco, Multiset.map_coe] at h
  exact Multiset.coe_eq_coe.mp h

theorem getExpectedSigner_of_lt {authorities : List AccountId} {blockNumber : ℕ}
    (hpos : 0 < blockNumber) (hbound : blockNumber < 2 ^ 32) :
    getExpectedSigner authorities blockNumber =
      authorities[blockNumber % authorities.length]? := by
  simp only [getExpectedSigner, if_pos hbound]
  cases authorities with
  | nil => rfl
  | cons a authorities => rw [if_neg (by simpa using hpos.ne')]

/-- In as many blocks as there are authorities every one of them has its turn, and as often as
it is on the list. -/
theorem turns_perm (authorities : List AccountId) {start : ℕ} (hstart : 0 < start)
    (hbound : start + authorities.length ≤ 2 ^ 32) :
    ((List.range' start authorities.length).map (getExpectedSigner authorities)).Perm
      (authorities.map some) := by
  have hturn : (List.range' start authorities.length).map (getExpectedSigner authorities) =
      ((List.range' start authorities.length).map (· % authorities.length)).map
        (authorities[·]?) := by
    rw [List.map_map]
    refine List.map_congr_left fun block hblock => ?_
    rw [List.mem_range'_1] at hblock
    exact getExpectedSigner_of_lt (by omega) (by omega)
  have hall : (List.range authorities.length).map (authorities[·]?) = authorities.map some := by
    refine List.ext_getElem (by simp) fun i hi _ => ?_
    rw [List.length_map, List.length_range] at hi
    simp [hi]
  rw [hturn, ← hall]
  exact (range'_map_mod_perm start authorities.length).map _

theorem turns_perm_sample :
    0 < 7 ∧ ((List.range' 7 3).map (getExpectedSigner [(1 : ℕ), 2, 3])).Perm
      ([1, 2, 3].map some) :=
  ⟨by decide, turns_perm [1, 2, 3] (by decide) (by decide)⟩

section Submission

variable {cfg} {s t : State L R} {batch : SignedProposalBatch L} {key : TypedChainId × ℕ}
variable {props later : List (SignedProposalBatch L)}

theorem exists_first_of_batchKey (h : batchKey cfg batch = some key) :
    ∃ first id, batch.proposals.toList.head? = some first ∧
      decodeProposalIdentifier cfg.decoders first = .ok id ∧
      key = (id.typedChainId, batch.batchId) := by
  rw [batchKey] at h
  cases hfirst : batch.proposals.toList.head? with
  | none => simp [hfirst] at h
  | some first =>
      simp only [hfirst] at h
      cases hid : decodeProposalIdentifier cfg.decoders first with
      | error fault => simp [hid] at h
      | ok id =>
          simp only [hid, Option.some.injEq] at h
          exact ⟨first, id, rfl, hid, h.symm⟩

theorem isNotExisting_of_batchKey (h : batchKey cfg batch = some key) :
    isNotExistingProposalBatch cfg s batch = .ok (!s.signedProposals.containsKey key) := by
  obtain ⟨first, id, hfirst, hid, rfl⟩ := exists_first_of_batchKey h
  simp only [isNotExistingProposalBatch, hfirst, hid]

def isWaiting (cfg : Config L AccountId R) (s : State L R) (batch : SignedProposalBatch L) :
    Bool :=
  (batchKey cfg batch).any fun key => !s.signedProposals.containsKey key

theorem filterExisting_eq (h : ∀ batch ∈ props, (batchKey cfg batch).isSome = true) :
    filterExisting cfg s props = .ok (props.filter (isWaiting cfg s)) := by
  induction props with
  | nil => rfl
  | cons batch props ih =>
      obtain ⟨hbatch, hrest⟩ := List.forall_mem_cons.mp h
      obtain ⟨key, hkey⟩ := Option.isSome_iff_exists.mp hbatch
      rw [filterExisting, isNotExisting_of_batchKey hkey, ih hrest, List.filter_cons, isWaiting,
        hkey]
      rfl

structure Ready (cfg : Config L AccountId R) (r : R) (batch : SignedProposalBatch L) : Prop where
  signed : SignedByDkg cfg.crypto (cfg.dkgKey r) batch.signature.toList batch.data
  noRefresh : ∀ p ∈ batch.proposals.toList, p.kind ≠ .refresh
  returns : ∀ p ∈ batch.proposals.toList, ∀ r, ∃ out, cfg.signedProposalHandler p r = .ok out

structure Waiting (cfg : Config L AccountId R) (s : State L R)
    (batches : List (SignedProposalBatch L)) : Prop where
  ready : ∀ batch ∈ batches, Ready cfg s.rest batch
  queued : ∀ batch ∈ batches, ∃ key, batchKey cfg batch = some key ∧
    s.unsignedProposalQueue.containsKey key = true ∧ s.signedProposals.lookup key = none
  nodup : (batches.map (batchKey cfg)).Nodup

theorem validateEcdsaSignature_of_signedByDkg {crypto : Crypto} {dkgKey signature data : Bytes}
    (h : SignedByDkg crypto dkgKey signature data) :
    validateEcdsaSignature crypto data signature = true := by
  obtain ⟨recovered, hrecovered, -⟩ := recoversTo_iff.mp h.2
  rw [recoverEcdsaPubKey] at hrecovered
  rw [validateEcdsaSignature]
  split at hrecovered
  · exact Option.isSome_iff_exists.mpr ⟨recovered, hrecovered⟩
  · cases hrecovered

theorem notifySigned_returns_of_forall {ps : List (Proposal L)}
    (h : ∀ p ∈ ps, ∀ r, ∃ out, cfg.signedProposalHandler p r = .ok out) (r : R) :
    ∃ r', notifySigned cfg ps r = .ok r' := by
  induction ps generalizing r with
  | nil => exact ⟨r, rfl⟩
  | cons p ps ih =>
      obtain ⟨hp, hps⟩ := List.forall_mem_cons.mp h
      obtain ⟨⟨next, result⟩, hnext⟩ := hp r
      obtain ⟨r', hr'⟩ := ih hps next
      refine ⟨r', ?_⟩
      rw [notifySigned, hnext]
      exact hr'

theorem handleSignedProposalBatch_of_ready (hready : Ready cfg s.rest batch)
    (hkey : batchKey cfg batch = some key)
    (hqueued : s.unsignedProposalQueue.containsKey key = true)
    (hunsigned : s.signedProposals.lookup key = none) :
    ∃ rest, notifySigned cfg batch.proposals.toList s.rest = .ok rest ∧
      handleSignedProposalBatch cfg batch s = .ok { s with
        signedProposals := s.signedProposals.insert key batch
        unsignedProposalQueue := s.unsignedProposalQueue.erase key
        rest := rest } := by
  obtain ⟨rest, hrest⟩ := notifySigned_returns_of_forall hready.returns s.rest
  refine ⟨rest, hrest, ?_⟩
  obtain ⟨first, id, hfirst, hid, rfl⟩ := exists_first_of_batchKey hkey
  simp only [handleSignedProposalBatch, bind_eq_ok, okOr_eq_ok, ensure_eq_ok]
  refine ⟨first, hfirst, id, decodeIdentifier_eq_ok.mpr hid, (), hqueued, (),
    validateEcdsaSignature_of_signedByDkg hready.signed, (), hunsigned, rest, hrest, ?_⟩
  rw [removeRefreshBatches_of_forall_ne id.typedChainId hready.noRefresh]

/-- What a submission does that is accepted with all its batches. -/
structure Delivers (cfg : Config L AccountId R) (props later : List (SignedProposalBatch L))
    (s t : State L R) : Prop where
  waiting : Waiting cfg t later
  delivered : ∀ batch ∈ props, ∃ key, batchKey cfg batch = some key ∧
    t.signedProposals.lookup key = some batch ∧ t.unsignedProposalQueue.lookup key = none
  kept : ∀ key batch, s.signedProposals.lookup key = some batch →
    t.signedProposals.lookup key = some batch
  removed : ∀ key, s.unsignedProposalQueue.lookup key = none →
    t.unsignedProposalQueue.lookup key = none
  dkgKey : cfg.dkgKey t.rest = cfg.dkgKey s.rest

theorem Waiting.tail (h : Waiting cfg s (batch :: props)) : Waiting cfg s props where
  ready := (List.forall_mem_cons.mp h.ready).2
  queued := (List.forall_mem_cons.mp h.queued).2
  nodup := (List.nodup_cons.mp h.nodup).2

theorem handleSignedProposalBatch_delivers (hkeeps : KeepsDkgKey cfg)
    (h : Waiting cfg s (batch :: later)) :
    ∃ t, handleSignedProposalBatch cfg batch s = .ok t ∧ Delivers cfg [batch] later s t := by
  obtain ⟨key, hkey, hqueued, hunsigned⟩ := h.queued batch List.mem_cons_self
  have hready := h.ready batch List.mem_cons_self
  obtain ⟨rest, hrest, hhandled⟩ :=
    handleSignedProposalBatch_of_ready hready hkey hqueued hunsigned
  have hdkg : cfg.dkgKey rest = cfg.dkgKey s.rest := notifySigned_dkgKey hkeeps hrest
  refine ⟨_, hhandled, ⟨?_, ?_, h.tail.nodup⟩, ?_, ?_, ?_, hdkg⟩
  · intro other hother
    have hother' := h.tail.ready other hother
    exact ⟨hdkg ▸ hother'.signed, hother'.noRefresh, hother'.returns⟩
  · intro other hother
    obtain ⟨key', hkey', hqueued', hunsigned'⟩ := h.tail.queued other hother
    have hne : key' ≠ key := by
      rintro rfl
      refine (List.nodup_cons.mp h.nodup).1 (List.mem_map.mpr ⟨other, hother, ?_⟩)
      rw [hkey', hkey]
    refine ⟨key', hkey', ?_, ?_⟩
    · rw [StorageMap.containsKey_iff] at hqueued' ⊢
      obtain ⟨stored, hstored⟩ := hqueued'
      exact ⟨stored, by rw [StorageMap.lookup_erase_eq, if_neg hne, hstored]⟩
    · rw [StorageMap.lookup_insert_eq, if_neg hne, hunsigned']
  · intro other hother
    rw [List.mem_singleton.mp hother]
    exact ⟨key, hkey, by rw [StorageMap.lookup_insert_eq, if_pos rfl],
      by rw [StorageMap.lookup_erase_eq, if_pos rfl]⟩
  · intro key' other hlookup
    rw [StorageMap.lookup_insert_eq, if_neg, hlookup]
    rintro rfl
    rw [hunsigned] at hlookup
    cases hlookup
  · intro key' hlookup
    rw [StorageMap.lookup_erase_eq, hlookup, ite_self]

theorem Delivers.append {u : State L R} {first second : List (SignedProposalBatch L)}
    (h : Delivers cfg first (second ++ later) s t) (h' : Delivers cfg second later t u) :
    Delivers cfg (first ++ second) later s u where
  waiting := h'.waiting
  delivered := by
    intro batch hbatch
    rcases List.mem_append.mp hbatch with hfirst | hsecond
    · obtain ⟨key, hkey, hsigned, hqueue⟩ := h.delivered batch hfirst
      exact ⟨key, hkey, h'.kept key batch hsigned, h'.removed key hqueue⟩
    · exact h'.delivered batch hsecond
  kept key batch hlookup := h'.kept key batch (h.kept key batch hlookup)
  removed key hlookup := h'.removed key (h.removed key hlookup)
  dkgKey := h'.dkgKey.trans h.dkgKey

theorem submitBatches_delivers (hkeeps : KeepsDkgKey cfg)
    (h : Waiting cfg s (props ++ later)) :
    ∃ t, submitBatches cfg props s = .ok t ∧ Delivers cfg props later s t := by
  induction props generalizing s with
  | nil =>
      exact ⟨s, rfl, h, fun _ hbatch => absurd hbatch List.not_mem_nil, fun _ _ => id,
        fun _ => id, rfl⟩
  | cons batch props ih =>
      obtain ⟨t, hhandled, hfirst⟩ := handleSignedProposalBatch_delivers hkeeps h
      obtain ⟨u, hsubmitted, hrest⟩ := ih hfirst.waiting
      refine ⟨u, ?_, hfirst.append hrest⟩
      have hsigned := ensureSignedByDkg_eq_ok.mpr (h.ready batch List.mem_cons_self).signed
      rw [submitBatches, hsigned]
      simp only [hhandled]
      exact hsubmitted

theorem step_of_not_queued (hkeeps : KeepsDkgKey cfg) (origin : Origin AccountId)
    (hmem : batch ∈ props)
    (hsigned : SignedByDkg cfg.crypto (cfg.dkgKey s.rest) batch.signature.toList batch.data)
    (hkey : batchKey cfg batch = some key)
    (hqueued : s.unsignedProposalQueue.lookup key = none) :
    step cfg s (.submitSignedProposals origin props) = s := by
  rw [step]
  refine commit_cases (P := fun t => t = s) rfl fun t hdispatch => ?_
  have hsubmitted := submitSignedProposals_ok hkeeps origin hdispatch
  have hbatch : batch ∈ signedBatches cfg s.rest props := by
    rw [signedBatches, List.mem_filter]
    exact ⟨hmem, decide_eq_true hsigned⟩
  obtain ⟨key', hkey', hcontains, -⟩ := hsubmitted.moved batch hbatch
  obtain rfl := Option.some.inj (hkey.symm.trans hkey')
  obtain ⟨stored, hstored⟩ := StorageMap.containsKey_iff.mp hcontains
  rw [hqueued] at hstored
  cases hstored

theorem step_delivers (hkeeps : KeepsDkgKey cfg) (origin : Origin AccountId)
    (hlength : props.length ≤ L.maxProposalsPerBatch) (h : Waiting cfg s (props ++ later)) :
    Delivers cfg props later s (step cfg s (.submitSignedProposals origin props)) := by
  obtain ⟨t, hsubmitted, hdelivers⟩ := submitBatches_delivers hkeeps h
  have hstep : step cfg s (.submitSignedProposals origin props) = t := by
    simp only [step, dispatch, submitSignedProposals, ensure, if_pos hlength]
    exact congrArg (commit s) hsubmitted
  rw [hstep]
  exact hdelivers

theorem run_accounts (hkeeps : KeepsDkgKey cfg) {accounts : List AccountId}
    (haccounts : accounts ≠ []) (hprops : props ≠ [])
    (hlength : props.length ≤ L.maxProposalsPerBatch) (h : Waiting cfg s (props ++ later)) :
    Delivers cfg props later s
      (run (step cfg) s (accounts.map fun account => transaction (account, props))) := by
  obtain ⟨account, accounts, rfl⟩ := List.exists_cons_of_ne_nil haccounts
  obtain ⟨batch, props, rfl⟩ := List.exists_cons_of_ne_nil hprops
  have hfirst := step_delivers hkeeps (.signed account) hlength h
  obtain ⟨key, hkey, -, hqueued⟩ := hfirst.delivered batch List.mem_cons_self
  have hsigned : SignedByDkg cfg.crypto (cfg.dkgKey (step cfg s
      (.submitSignedProposals (.signed account) (batch :: props))).rest)
      batch.signature.toList batch.data := by
    rw [hfirst.dkgKey]
    exact (h.ready batch List.mem_cons_self).signed
  rw [List.map_cons, run_cons]
  have hrest : ∀ others : List AccountId, run (step cfg)
      (step cfg s (.submitSignedProposals (.signed account) (batch :: props)))
        (others.map fun account => transaction (account, batch :: props)) =
      step cfg s (.submitSignedProposals (.signed account) (batch :: props)) := by
    intro others
    induction others with
    | nil => rfl
    | cons other others ih =>
        rw [List.map_cons, run_cons, transaction,
          step_of_not_queued hkeeps _ List.mem_cons_self hsigned hkey hqueued]
        exact ih
  rw [transaction, hrest]
  exact hfirst

theorem run_chunks (hkeeps : KeepsDkgKey cfg) {accounts : List AccountId}
    (haccounts : accounts ≠ []) {calls : List (List (SignedProposalBatch L))}
    (hcalls : ∀ call ∈ calls, call ≠ [] ∧ call.length ≤ L.maxProposalsPerBatch)
    (h : Waiting cfg s (calls.flatten ++ later)) :
    Delivers cfg calls.flatten later s (run (step cfg) s
      ((calls.flatMap fun call => accounts.map (·, call)).map transaction)) := by
  induction calls generalizing s with
  | nil =>
      exact ⟨h, fun _ hbatch => absurd hbatch List.not_mem_nil, fun _ _ => id, fun _ => id, rfl⟩
  | cons call calls ih =>
      obtain ⟨⟨hne, hlength⟩, hrest⟩ := List.forall_mem_cons.mp hcalls
      rw [List.flatten_cons, List.append_assoc] at h
      have hfirst := run_accounts hkeeps haccounts hne hlength h
      rw [List.flatMap_cons, List.map_append, List.map_map, run_append, List.flatten_cons]
      exact hfirst.append (ih hrest hfirst.waiting)

end Submission

section Worker

variable [DecidableEq AccountId] {cfg} {s : State L R}

/-- It is the turn of the account, or nobody's. -/
def isTurn (currentAuthorities : List AccountId) (blockNumber : ℕ) (account : AccountId) : Bool :=
  (getExpectedSigner currentAuthorities blockNumber).all (· = account)

theorem submitSignedProposalOnchain_eq {codec : Codec L Value} {authorities : List AccountId}
    {account : AccountId} {accounts : List AccountId} {blockNumber : ℕ} {stored : Option Value}
    {batches : List (SignedProposalBatch L)} (hmax : 1 ≤ L.maxProposalsPerBatch)
    (hturn : isTurn authorities blockNumber account = true)
    (hstored : stored.bind codec.decode = some batches)
    (hkeys : ∀ batch ∈ batches, (batchKey cfg batch).isSome = true) :
    submitSignedProposalOnchain cfg codec authorities (account :: accounts) blockNumber stored s =
      .ok ((chunks L.maxProposalsPerBatch (batches.filter (isWaiting cfg s))).flatMap
        fun chunk => (account :: accounts).map (·, chunk)) := by
  have hturn' : (getExpectedSigner authorities blockNumber).any (· ≠ account) = false := by
    rw [isTurn] at hturn
    cases hsigner : getExpectedSigner authorities blockNumber with
    | none => rfl
    | some expected =>
        rw [hsigner] at hturn
        simpa using hturn
  rw [submitSignedProposalOnchain, hturn', hstored, if_neg Bool.false_ne_true]
  cases batches with
  | nil => simp [chunks]
  | cons batch batches =>
      simp only [filterExisting_eq hkeys, bind, Except.bind]
      rw [if_neg (by omega)]

theorem exists_delivering (codec : Codec L Value) (hmax : 1 ≤ L.maxProposalsPerBatch)
    (hkeeps : KeepsDkgKey cfg) {authorities : List AccountId} {account : AccountId}
    (accounts : List AccountId) {blockNumber : ℕ}
    (hturn : isTurn authorities blockNumber account = true) {stored : Option Value}
    {batches : List (SignedProposalBatch L)}
    (hstored : stored.bind codec.decode = some batches)
    (hready : ∀ batch ∈ batches, Ready cfg s.rest batch)
    (hqueued : ∀ batch ∈ batches, ∃ key, batchKey cfg batch = some key ∧
      (s.unsignedProposalQueue.containsKey key = true ∨ s.signedProposals.containsKey key = true))
    (hnodup : (batches.map (batchKey cfg)).Nodup) :
    ∃ transactions, submitSignedProposalOnchain cfg codec authorities (account :: accounts)
        blockNumber stored s = .ok transactions ∧
      ∀ batch ∈ batches, ∃ key, batchKey cfg batch = some key ∧
        (run (step cfg) s (transactions.map transaction)).signedProposals.lookup key =
          some ((s.signedProposals.lookup key).getD batch) := by
  have hkeys : ∀ batch ∈ batches, (batchKey cfg batch).isSome = true := by
    intro batch hbatch
    obtain ⟨key, hkey, -⟩ := hqueued batch hbatch
    rw [hkey]
    rfl
  refine ⟨_, submitSignedProposalOnchain_eq hmax hturn hstored hkeys, ?_⟩
  have hwaiting : Waiting cfg s
      ((chunks L.maxProposalsPerBatch (batches.filter (isWaiting cfg s))).flatten ++ []) := by
    rw [flatten_chunks, List.append_nil]
    refine ⟨fun batch hbatch => hready batch (List.mem_filter.mp hbatch).1, ?_,
      hnodup.sublist (List.filter_sublist.map _)⟩
    intro batch hbatch
    obtain ⟨hmem, hnew⟩ := List.mem_filter.mp hbatch
    obtain ⟨key, hkey, hplace⟩ := hqueued batch hmem
    rw [isWaiting, hkey, Option.any_some, Bool.not_eq_true'] at hnew
    refine ⟨key, hkey, hplace.resolve_right (by rw [hnew]; exact Bool.false_ne_true), ?_⟩
    exact Option.not_isSome_iff_eq_none.mp (by rw [← Bool.not_eq_true] at hnew; exact hnew)
  have hdelivers := run_chunks hkeeps (List.cons_ne_nil account accounts)
    (fun chunk hchunk => ⟨ne_nil_of_mem_chunks hchunk, length_le_of_mem_chunks hmax hchunk⟩)
    hwaiting
  rw [flatten_chunks] at hdelivers
  intro batch hbatch
  obtain ⟨key, hkey, -⟩ := hqueued batch hbatch
  refine ⟨key, hkey, ?_⟩
  cases hsigned : s.signedProposals.lookup key with
  | some signed => exact hdelivers.kept key signed hsigned
  | none =>
      have hnew : batch ∈ batches.filter (isWaiting cfg s) := by
        refine List.mem_filter.mpr ⟨hbatch, ?_⟩
        rw [isWaiting, hkey, Option.any_some, StorageMap.containsKey, hsigned]
        rfl
      obtain ⟨key', hkey', hlookup, -⟩ := hdelivers.delivered batch hnew
      obtain rfl := Option.some.inj (hkey.symm.trans hkey')
      exact hlookup

end Worker

section Wired

variable {World Info : Type} [DecidableEq AccountId] [Inhabited Info]

abbrev handler (w : Wiring L AccountId World) (Info : Type) [Inhabited Info] :
    Config L AccountId (Rest w Info) :=
  proposalHandler w

/-- The hook, which logs an error and goes on. -/
def offchainWorker (w : Wiring L AccountId World) (codec : Codec L Value)
    (accounts : List AccountId) (blockNumber : ℕ) (stored : Option Value)
    (s : State L (Rest w Info)) :
    Except WorkerFault (List (AccountId × List (SignedProposalBatch L))) :=
  submitSignedProposalOnchain (handler w Info) codec
    s.rest.metadata.currentAuthoritiesAccounts.toList accounts blockNumber stored s

/-- When it is the turn of a node, the transactions of its worker bring all the batches in its
storage onto the chain, unless they are there already. -/
theorem submission_delivers (w : Wiring L AccountId World) (codec : Codec L Value)
    (hmax : 1 ≤ L.maxProposalsPerBatch) {s : State L (Rest w Info)} {account : AccountId}
    (accounts : List AccountId) {blockNumber : ℕ}
    (hturn : isTurn s.rest.metadata.currentAuthoritiesAccounts.toList blockNumber account = true)
    {stored : Option Value} {batches : List (SignedProposalBatch L)}
    (hstored : stored.bind codec.decode = some batches)
    (hsigned : ∀ batch ∈ batches, SignedByDkg w.metadata.crypto s.rest.metadata.dkgKey
      batch.signature.toList batch.data)
    (hproposals : ∀ batch ∈ batches, ∀ p ∈ batch.proposals.toList,
      p.kind ≠ .refresh ∧ FitsBuffer w.bridges p)
    (hqueued : ∀ batch ∈ batches, ∃ key, batchKey (handler w Info) batch = some key ∧
      (s.unsignedProposalQueue.containsKey key = true ∨
        s.signedProposals.containsKey key = true))
    (hnodup : (batches.map (batchKey (handler w Info))).Nodup) :
    ∃ transactions,
      offchainWorker w codec (account :: accounts) blockNumber stored s = .ok transactions ∧
      ∀ batch ∈ batches, ∃ key, batchKey (handler w Info) batch = some key ∧
        (run (step (handler w Info)) s (transactions.map transaction)).signedProposals.lookup
          key = some ((s.signedProposals.lookup key).getD batch) := by
  refine exists_delivering codec hmax (keepsDkgKey_proposalHandler w) accounts hturn hstored ?_
    hqueued hnodup
  intro batch hbatch
  refine ⟨hsigned batch hbatch, fun p hp => (hproposals batch hbatch p hp).1, ?_⟩
  intro p hp r
  exact (panicsUnless_proposalHandler w).returns p r (hproposals batch hbatch p hp).2

end Wired

def sampleCodec : Codec runtimeLimits (List (SignedProposalBatch runtimeLimits)) where
  encode := id
  decode := some
  decode_encode _ := rfl

def sampleStored : List (SignedProposalBatch runtimeLimits) :=
  [sampleBatch 0 [sampleTokenAdd 5] 7, sampleBatch 1 [sampleTokenAdd 6] 7]

theorem submission_delivers_sample :
    ∃ transactions, offchainWorker sampleWiring sampleCodec [1] 5 (some sampleStored)
        (run (step sampleHandler) (State.empty sampleRest) sampleQueueing) = .ok transactions ∧
      ∀ batch ∈ sampleStored, ∃ key, batchKey (handler sampleWiring Unit) batch = some key ∧
        (run (step (handler sampleWiring Unit))
          (run (step sampleHandler) (State.empty sampleRest) sampleQueueing)
          (transactions.map transaction)).signedProposals.lookup key =
            some (((run (step sampleHandler) (State.empty sampleRest)
              sampleQueueing).signedProposals.lookup key).getD batch) := by
  refine submission_delivers sampleWiring sampleCodec (by decide) [] (by decide +kernel) rfl
    (by decide +kernel) (by decide +kernel) ?_ (by decide +kernel)
  rw [sampleStored, List.forall_mem_cons, List.forall_mem_singleton]
  exact ⟨⟨(.evm 1, 0), by decide +kernel, .inl (by decide +kernel)⟩,
    ⟨(.evm 1, 1), by decide +kernel, .inl (by decide +kernel)⟩⟩

section Wired

variable {World Info : Type} [DecidableEq AccountId] [Inhabited Info]

/-- A batch that has left the queue without a signature stays in the way.  Whenever it is the
turn of a node that has it in its storage, its worker submits it again, and every transaction
with it is rejected as a whole, as long as the key that has signed the batch is the active one. -/
theorem gone_batch_blocks (w : Wiring L AccountId World) (codec : Codec L Value)
    (hmax : 1 ≤ L.maxProposalsPerBatch) {left s : State L (Rest w Info)}
    {key : TypedChainId × ℕ} (hgone : Gone key left)
    (later : List (Call L AccountId (Rest w Info)))
    (hs : s = run (step (handler w Info)) left later)
    {batch : SignedProposalBatch L} (hkey : batchKey (handler w Info) batch = some key)
    {account : AccountId} (accounts : List AccountId) {blockNumber : ℕ}
    (hturn : isTurn s.rest.metadata.currentAuthoritiesAccounts.toList blockNumber account = true)
    {stored : Option Value} {batches : List (SignedProposalBatch L)}
    (hstored : stored.bind codec.decode = some batches) (hmem : batch ∈ batches)
    (hkeys : ∀ batch ∈ batches, (batchKey (handler w Info) batch).isSome = true) :
    ∃ transactions,
      offchainWorker w codec (account :: accounts) blockNumber stored s = .ok transactions ∧
      (∃ t ∈ transactions, batch ∈ t.2) ∧
      ∀ t ∈ transactions, batch ∈ t.2 → ∀ calls u, u = run (step (handler w Info)) s calls →
        SignedByDkg w.metadata.crypto u.rest.metadata.dkgKey batch.signature.toList batch.data →
          step (handler w Info) u (transaction t) = u := by
  have hgone' : Gone key s := by
    rw [hs]
    exact gone_run hgone later
  refine ⟨_, submitSignedProposalOnchain_eq hmax hturn hstored hkeys, ?_, ?_⟩
  · have hwaiting : batch ∈ batches.filter (isWaiting (handler w Info) s) := by
      refine List.mem_filter.mpr ⟨hmem, ?_⟩
      rw [isWaiting, hkey, Option.any_some, Bool.not_eq_true', ← Bool.not_eq_true,
        StorageMap.containsKey_iff, hgone'.unsigned]
      exact fun ⟨_, h⟩ => by cases h
    rw [← flatten_chunks L.maxProposalsPerBatch (batches.filter _)] at hwaiting
    obtain ⟨chunk, hchunk, hbatch⟩ := List.mem_flatten.mp hwaiting
    exact ⟨(account, chunk), List.mem_flatMap.mpr ⟨chunk, hchunk, List.mem_cons_self⟩, hbatch⟩
  · rintro t - hbatch calls u rfl hsigned
    exact step_of_not_queued (keepsDkgKey_proposalHandler w) _ hbatch hsigned hkey
      (gone_run hgone' calls).unqueued

end Wired

def sampleRemoval : List (Call runtimeLimits ℕ (Rest sampleWiring Unit)) :=
  sampleQueueing ++ [.forceRemoveUnsignedProposalBatch .root (.evm 1) 0]

def sampleLeft : State runtimeLimits (Rest sampleWiring Unit) :=
  run (step sampleHandler) (State.empty sampleRest) sampleRemoval

theorem gone_sampleLeft : Gone (.evm 1, 0) sampleLeft := by
  refine ⟨⟨by decide +kernel, ?_⟩, by decide +kernel⟩
  rintro chain stored hstored rfl
  have hnone : sampleLeft.unsignedProposalQueue.lookup (.evm 1, 0) = none := by
    decide +kernel
  rw [hnone] at hstored
  cases hstored

theorem gone_batch_blocks_sample :
    ∃ transactions, offchainWorker sampleWiring sampleCodec [1] 5 (some sampleStored)
        sampleLeft = .ok transactions ∧
      (∃ t ∈ transactions, sampleBatch 0 [sampleTokenAdd 5] 7 ∈ t.2) ∧
      ∀ t ∈ transactions, sampleBatch 0 [sampleTokenAdd 5] 7 ∈ t.2 →
        step (handler sampleWiring Unit) sampleLeft (transaction t) = sampleLeft := by
  have hkey : batchKey (handler sampleWiring Unit) (sampleBatch 0 [sampleTokenAdd 5] 7) =
      some (.evm 1, 0) := by
    decide +kernel
  have hturn : isTurn sampleLeft.rest.metadata.currentAuthoritiesAccounts.toList 5 1 = true := by
    decide +kernel
  have hkeys : ∀ batch ∈ sampleStored,
      (batchKey (handler sampleWiring Unit) batch).isSome = true := by
    decide +kernel
  have hstored : (some sampleStored).bind sampleCodec.decode = some sampleStored := rfl
  have hstays : sampleLeft = run (step (handler sampleWiring Unit)) sampleLeft [] :=
    (run_nil _ _).symm
  obtain ⟨transactions, hworker, htakes, hrejected⟩ := gone_batch_blocks sampleWiring sampleCodec
    (by decide) gone_sampleLeft [] hstays hkey [] hturn hstored List.mem_cons_self hkeys
  refine ⟨transactions, hworker, htakes, fun t ht hbatch => ?_⟩
  exact hrejected t ht hbatch [] sampleLeft hstays (by decide +kernel)

end DkgSubstrate.ProposalSubmission
