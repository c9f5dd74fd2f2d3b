import DkgSubstrate.ReportSubmissions
import DkgSubstrate.VotingStage
import Mathlib.Logic.Function.Basic

/-!
What a node does about the errors of its protocols.  It reports the authorities that an error
blames, one after the other.
-/

namespace DkgSubstrate.ErrorReports

open DkgSubstrate.ChainHeader
open DkgSubstrate.Dispatch (bind_eq_ok bind_eq_error mapError_eq_ok mapError_eq_error)
open DkgSubstrate.GossipMessages hiding step
open DkgSubstrate.IncomingMessages hiding Node
open DkgSubstrate.Metadata hiding Config
open DkgSubstrate.MetadataCalls
open DkgSubstrate.OffchainWorker hiding sampleStorage Round
open DkgSubstrate.Primitives
open DkgSubstrate.ReportReplay
open DkgSubstrate.ReportSubmissions (Collected Signed collected_gossipMisbehaviourReport
  collected_storePending reportKey_addReport signed_addReport signed_emptyReports)
open DkgSubstrate.SampleRuntime
open DkgSubstrate.SenderAuthenticity (sampleEncode)
open DkgSubstrate.SignaturePacking
open DkgSubstrate.SignedProposalStore (VoteResult)
open DkgSubstrate.StorageMap
open DkgSubstrate.VotingStage
open DkgSubstrate.Words

inductive DKGReport where
  | keygenMisbehaviour (offender : Public) (sessionId : ℕ)
  | signMisbehaviour (offender : Public) (sessionId : ℕ)

def dkgReports : ProtocolError → List DKGReport
  | .keygenMisbehaviour _ badActors sessionId | .keygenTimeout badActors sessionId =>
      badActors.map fun offender => .keygenMisbehaviour offender sessionId
  | .signMisbehaviour error =>
      error.badActors.map fun offender => .signMisbehaviour offender error.sessionId
  | .other _ => []

section Handlers

variable {L : Limits} {AccountId World : Type}
variable (cfg : Config L AccountId World) (w : Worker L AccountId World)

/-- What has been collected for the report is stored before the next report. -/
def handleDkgReport : DKGReport → Worker L AccountId World
  | .keygenMisbehaviour offender sessionId =>
      (w.gossipMisbehaviourReport cfg .keygen sessionId offender).worker.storePending
        w.pending.length
  | .signMisbehaviour offender sessionId =>
      (w.gossipMisbehaviourReport cfg .sign sessionId offender).worker.storePending
        w.pending.length

def handleDkgError (error : ProtocolError) : Worker L AccountId World :=
  (dkgReports error).foldl (handleDkgReport cfg) w

end Handlers

section Voting

variable {L : Limits} {AccountId World : Type}

theorem handleDkgReport_sign (cfg : Config L AccountId World) (w : Worker L AccountId World)
    (offender : Public) (sessionId : ℕ) :
    handleDkgReport cfg w (.signMisbehaviour offender sessionId) = w := by
  have hnone : w.pending[w.pending.length]? = none := List.getElem?_eq_none (Nat.le_refl _)
  simp only [handleDkgReport, Worker.gossipMisbehaviourReport, Worker.storePending, hnone]

def OfSigning (error : ProtocolError) : Prop :=
  (∃ e, error = .signMisbehaviour e) ∨ ∃ e, error = .other e

theorem handleDkgError_of_signing {error : ProtocolError} (h : OfSigning error)
    (cfg : Config L AccountId World) (w : Worker L AccountId World) :
    handleDkgError cfg w error = w := by
  rcases h with ⟨e, rfl⟩ | ⟨e, rfl⟩
  · rw [handleDkgError, dkgReports]
    induction e.badActors with
    | nil => rfl
    | cons offender rest ih => rw [List.map_cons, List.foldl_cons, handleDkgReport_sign, ih]
  · rfl

theorem ofSigning_castVote {lib : Library} {crypto : Crypto} {p : Params L}
    {stage : lib.CompletedOfflineStage} {e : ProtocolError}
    (h : castVote lib crypto p stage = .error e) : OfSigning e := by
  rw [castVote, bind_eq_error] at h
  rcases h with hsign | ⟨⟨signing, partialSignature⟩, -, hvec⟩
  · obtain ⟨err, -, rfl⟩ := mapError_eq_error.mp hsign
    exact .inl ⟨_, rfl⟩
  · dsimp only at hvec
    split at hvec
    · exact .inr ⟨_, (Except.error.inj hvec).symm⟩
    · cases hvec

theorem ofSigning_newVoting {lib : Library} {big : BigInt} {crypto : Crypto}
    {encode : DKGMessage → Bytes} {p : Params L} {stage : lib.CompletedOfflineStage}
    {received : List (IncomingMessages.Node L × SignedDKGMessage)} {e : ProtocolError}
    (h : newVoting lib big crypto encode p stage received = .error e) : OfSigning e := by
  simp only [newVoting, bind_eq_error, mapError_eq_error, mapError_eq_ok] at h
  rcases h with hvote | ⟨_, -, ⟨err, -, rfl⟩ | ⟨_, -, ⟨err, -, rfl⟩ | ⟨signature, -,
    ⟨err, -, rfl⟩ | ⟨_, -, hsig⟩⟩⟩⟩
  · exact ofSigning_castVote hvote
  · exact .inr ⟨err, rfl⟩
  · exact .inl ⟨_, rfl⟩
  · exact .inr ⟨_, rfl⟩
  · split at hsig
    · exact .inr ⟨_, (Except.error.inj hsig).symm⟩
    · cases hsig

variable {lib : Library} {round : Round lib L} {crypto : Crypto} {signature : SignatureRecid}
variable {encode : DKGMessage → Bytes}

/-- One of the parties votes with something else. -/
def cheat (ballots : round.Ballots) (cheater : UInt16) {bytes : Bytes}
    {forged : lib.PartialSignature} (hparse : lib.fromSlice bytes = .ok forged) :
    round.Ballots where
  partialSig := Function.update ballots.partialSig cheater forged
  bytes := Function.update ballots.bytes cheater bytes
  fromSlice i hi := by
    by_cases h : i = cheater
    · subst h
      rw [Function.update_self, Function.update_self]
      exact hparse
    · rw [Function.update_of_ne h, Function.update_of_ne h]
      exact ballots.fromSlice i hi

/-- One party that votes with a wrong part of the signature stops the others from signing the
batch.  No node reports it, nor anybody else. -/
theorem cheater_not_reported (signs : round.Signs crypto signature) (big : BigInt)
    (hsize : 2 ≤ round.parties.length) {cheater : UInt16} {bytes : Bytes}
    {forged : lib.PartialSignature} (hparse : lib.fromSlice bytes = .ok forged)
    (hrejects : ∀ i ∈ round.parties, i ≠ cheater → ∀ sigs wrong,
      sigs.Perm ((round.parties.erase i).map (cheat signs.toBallots cheater hparse).partialSig) →
        lib.complete (signs.manual i) sigs = .ok wrong →
          lib.verify wrong (lib.publicKey (round.stage i))
            (ofBeBytes (round.hash crypto).toList) ≠ .ok ())
    {received : UInt16 → List (IncomingMessages.Node L × SignedDKGMessage)}
    (h : ∀ i ∈ round.parties, i ≠ cheater →
      Round.Heard (cheat signs.toBallots cheater hparse) crypto encode i (received i)) :
    ∀ i ∈ round.parties, i ≠ cheater →
      ∃ e, newVoting lib big crypto encode (round.params i) (round.stage i) (received i) =
          .error e ∧
        ∀ (cfg : Config L AccountId World) (w : Worker L AccountId World),
          handleDkgError cfg w e = w := by
  intro i hi hne
  obtain ⟨sigs, hcollect, hperm⟩ := Round.collect_of_heard hsize hi (h i hi hne)
  cases hvoting : newVoting lib big crypto encode (round.params i) (round.stage i)
      (received i) with
  | error e => exact ⟨e, rfl, handleDkgError_of_signing (ofSigning_newVoting hvoting)⟩
  | ok result =>
      -- A result would be a signature of the forged votes that verifies.
      exfalso
      simp only [newVoting, Round.castVote_eq signs hi, hcollect, bind_eq_ok,
        mapError_eq_ok, Except.ok.injEq, exists_eq_left'] at hvoting
      obtain ⟨wrong, hcomplete, ⟨⟩, hverify, -⟩ := hvoting
      exact hrejects i hi hne sigs wrong hperm hcomplete hverify

end Voting

def sampleForged : Bytes := toBeBytes 32 9

theorem sampleForged_parses : sampleLibrary.fromSlice sampleForged = .ok (9 : ℕ) :=
  congrArg Except.ok (ofBeBytes_toBeBytes (by decide +kernel))

def sampleCheat : sampleRound.Ballots := cheat sampleSigns.toBallots 2 sampleForged_parses

def sampleCheatShare : UInt16 → ℕ := sampleCheat.partialSig

theorem sampleCheatShare_add : ∀ i ∈ sampleRound.parties, i ≠ 2 →
    sampleShare i + ((sampleRound.parties.erase i).map sampleCheatShare).sum ≠ sampleKey :=
  List.all_iff_forall_prop.mp (by decide +kernel)

theorem sampleLibrary_rejects {i : UInt16} (hi : i ∈ sampleRound.parties) (hne : i ≠ 2)
    {sigs : List ℕ} {wrong : SignatureRecid} {message : ℕ}
    (hperm : sigs.Perm ((sampleRound.parties.erase i).map sampleCheatShare))
    (hcomplete : sampleLibrary.complete (sampleMessageNumber, sampleShare i) sigs = .ok wrong) :
    sampleLibrary.verify wrong sampleKey message ≠ .ok () := by
  obtain rfl := Except.ok.inj hcomplete
  have hr : (sampleRecid (sampleShare i + sigs.sum) sampleMessageNumber).r ≠ sampleKey := by
    rw [hperm.sum_eq]
    exact sampleCheatShare_add i hi hne
  simp only [sampleLibrary, if_neg hr, ne_eq, reduceCtorEq, not_false_eq_true]

theorem cheater_not_reported_sample :
    ∃ e, newVoting sampleLibrary digitBigInt sampleCrypto sampleEncode (sampleRound.params 1)
        (sampleRound.stage 1) (sampleTraffic sampleCheat) = .error e ∧
      ∀ (cfg : Config runtimeLimits ℕ Unit) (w : Worker runtimeLimits ℕ Unit),
        handleDkgError cfg w e = w := by
  have hheard : ∀ i ∈ sampleRound.parties, i ≠ 2 → Round.Heard sampleCheat sampleCrypto
      sampleEncode i ((fun _ => sampleTraffic sampleCheat) i) :=
    fun i _ _ => heard_sampleTraffic sampleCheat i
  exact cheater_not_reported sampleSigns digitBigInt (by decide) sampleForged_parses
    (fun _ hi hne _ _ hperm hcomplete => sampleLibrary_rejects hi hne hperm hcomplete)
    hheard 1 List.mem_cons_self (by decide)

section Keygen

variable {L : Limits} {AccountId World : Type}
variable {cfg : Config L AccountId World} {w : Worker L AccountId World}
variable {s : State L AccountId World} {storage : LocalStorage L}
variable {sessionId : ℕ} {offender other : Public}

/-- The reports of the offender, with the one of the node. -/
def withOwnReport (cfg : Config L AccountId World) (w : Worker L AccountId World)
    (sessionId : ℕ) (offender : Public) (signature : Bytes) :
    AggregatedMisbehaviourReports L × Except DKGError Unit :=
  Worker.addReport cfg.keyStore.authorityPublicKey signature
    (w.collected (emptyReports .keygen sessionId offender))

/-- The report of the node is the one that is still missing. -/
structure Due (cfg : Config L AccountId World) (w : Worker L AccountId World)
    (s : State L AccountId World) (sessionId : ℕ) (offender : Public) (signature : Bytes) :
    Prop where
  signs : cfg.keyStore.sign (misbehaviourPayload
    (emptyReports .keygen sessionId offender : AggregatedMisbehaviourReports L)) = some signature
  missing : cfg.keyStore.authorityPublicKey ∉
    (w.collected (emptyReports .keygen sessionId offender)).reporters.toList
  fits : (withOwnReport cfg w sessionId offender signature).2 = .ok ()
  enough : s.signatureThreshold <
    (withOwnReport cfg w sessionId offender signature).1.reporters.length

theorem Due.congr {w' : Worker L AccountId World} {signature : Bytes}
    (h : Due cfg w s sessionId offender signature)
    (heq : w'.collected (emptyReports .keygen sessionId offender) =
      w.collected (emptyReports .keygen sessionId offender)) :
    Due cfg w' s sessionId offender signature where
  signs := h.signs
  missing := heq ▸ h.missing
  fits := by
    rw [withOwnReport, heq]
    exact h.fits
  enough := by
    rw [withOwnReport, heq]
    exact h.enough

/-- The key under which the reports of the offender are collected. -/
def keygenKey (sessionId : ℕ) (offender : Public) : ReportKey :=
  (.keygen, UInt64.ofNat sessionId, offender)

theorem collected_congr {w' : Worker L AccountId World}
    (h : w'.aggregatedMisbehaviourReports.lookup (keygenKey sessionId offender) =
      w.aggregatedMisbehaviourReports.lookup (keygenKey sessionId offender)) :
    w'.collected (emptyReports .keygen sessionId offender) =
      w.collected (emptyReports .keygen sessionId offender) :=
  congrArg (Option.getD · (emptyReports .keygen sessionId offender)) h

theorem reportKey_withOwnReport (h : Collected cfg.chain.crypto w) (sessionId : ℕ)
    (offender : Public) (signature : Bytes) :
    reportKey (withOwnReport cfg w sessionId offender signature).1 =
      keygenKey sessionId offender := by
  rw [withOwnReport, reportKey_addReport]
  exact (h.signed_collected (signed_emptyReports _ sessionId offender)).1

theorem handleDkgReport_due {signature : Bytes} (hcollected : Collected cfg.chain.crypto w)
    (hlatest : w.latest = some s) (hoffchain : w.offchain = some storage)
    (h : Due cfg w s sessionId offender signature) :
    handleDkgReport cfg w (.keygenMisbehaviour offender sessionId) =
      { w with
        aggregatedMisbehaviourReports := StorageMap.retain
          (fun key => decide (UInt64.ofNat sessionId ≤ key.2.1))
          ((w.aggregatedMisbehaviourReports.insert (keygenKey sessionId offender)
            (withOwnReport cfg w sessionId offender signature).1).erase
              (keygenKey sessionId offender))
        offchain := some { storage with
          misbehaviourReports :=
            .value (withOwnReport cfg w sessionId offender signature).1 } } := by
  have hkey := reportKey_withOwnReport hcollected sessionId offender signature
  have hsession : (withOwnReport cfg w sessionId offender signature).1.sessionId =
      UInt64.ofNat sessionId := congrArg (fun key => key.2.1) hkey
  have hcontains : (w.collected (emptyReports .keygen sessionId
      offender)).reporters.toList.contains cfg.keyStore.authorityPublicKey = false := by
    rw [← Bool.not_eq_true, List.contains_iff_mem]
    exact h.missing
  have hgossip : (w.gossipMisbehaviourReport cfg .keygen sessionId offender).worker =
      { w with
        aggregatedMisbehaviourReports := w.aggregatedMisbehaviourReports.insert
          (keygenKey sessionId offender) (withOwnReport cfg w sessionId offender signature).1
        pending := w.pending ++
          [((withOwnReport cfg w sessionId offender signature).1, true)] } := by
    have hfits := h.fits
    rw [withOwnReport] at hfits
    simp only [Worker.gossipMisbehaviourReport, h.signs, hcontains, Bool.false_eq_true, if_false,
      Worker.collect, hfits]
    rfl
  have henough := h.enough
  rw [handleDkgReport, hgossip]
  generalize withOwnReport cfg w sessionId offender signature = updated at *
  have hpending : (w.pending ++ [(updated.1, true)]).eraseIdx w.pending.length = w.pending := by
    rw [List.eraseIdx_append_of_length_le (Nat.le_refl _), Nat.sub_self, List.eraseIdx_cons_zero,
      List.append_nil]
  simp only [Worker.storePending, List.getElem?_concat_length, Worker.tryStoreOffchain, hlatest,
    hpending, hoffchain, headerOf, henough, if_true, hkey, hsession]

structure Reported (w : Worker L AccountId World) (storage : LocalStorage L) (sessionId : ℕ)
    (offenders : List Public) (w' : Worker L AccountId World) : Prop where
  latest : w'.latest = w.latest
  offchain : ∃ entry, w'.offchain = some { storage with misbehaviourReports := entry }
  gone : ∀ offender ∈ offenders,
    w'.aggregatedMisbehaviourReports.lookup (keygenKey sessionId offender) = none
  kept : ∀ offender ∉ offenders,
    w'.aggregatedMisbehaviourReports.lookup (keygenKey sessionId offender) =
      w.aggregatedMisbehaviourReports.lookup (keygenKey sessionId offender)

theorem collected_handleDkgReport (h : Collected cfg.chain.crypto w) (report : DKGReport) :
    Collected cfg.chain.crypto (handleDkgReport cfg w report) := by
  cases report with
  | keygenMisbehaviour offender sessionId =>
      exact collected_storePending (collected_gossipMisbehaviourReport h _ _ _) _
  | signMisbehaviour offender sessionId =>
      exact collected_storePending (collected_gossipMisbehaviourReport h _ _ _) _

theorem collected_handleDkgReports (h : Collected cfg.chain.crypto w) (reports : List DKGReport) :
    Collected cfg.chain.crypto (reports.foldl (handleDkgReport cfg) w) := by
  induction reports generalizing w with
  | nil => exact h
  | cons report rest ih => exact ih (collected_handleDkgReport h report)

theorem reported_singleton {signature : Bytes} (hcollected : Collected cfg.chain.crypto w)
    (hlatest : w.latest = some s) (hoffchain : w.offchain = some storage)
    (h : Due cfg w s sessionId offender signature) :
    Reported w storage sessionId [offender]
      (handleDkgReport cfg w (.keygenMisbehaviour offender sessionId)) := by
  have hlookup : ∀ other, (handleDkgReport cfg w (.keygenMisbehaviour offender
      sessionId)).aggregatedMisbehaviourReports.lookup (keygenKey sessionId other) =
        if other = offender then none
        else w.aggregatedMisbehaviourReports.lookup (keygenKey sessionId other) := by
    intro other
    have hkey : keygenKey sessionId other = keygenKey sessionId offender ↔ other = offender := by
      simp [keygenKey]
    have hsession : UInt64.ofNat sessionId ≤ (keygenKey sessionId other).2.1 := UInt64.le_refl _
    rw [handleDkgReport_due hcollected hlatest hoffchain h]
    simp only [lookup_retain, decide_eq_true hsession, if_true, lookup_erase_eq, lookup_insert_eq,
      hkey]
    split <;> rfl
  refine ⟨?_, ⟨.value (withOwnReport cfg w sessionId offender signature).1, ?_⟩, ?_, ?_⟩
  · rw [handleDkgReport_due hcollected hlatest hoffchain h]
  · rw [handleDkgReport_due hcollected hlatest hoffchain h]
  · intro other hother
    rw [hlookup, if_pos (List.mem_singleton.mp hother)]
  · intro other hother
    rw [hlookup, if_neg (mt List.mem_singleton.mpr hother)]

theorem Reported.append {w' w'' : Worker L AccountId World} {front : List Public}
    (h : Reported w storage sessionId front w') {entry : Entry (AggregatedMisbehaviourReports L)}
    (h' : Reported w' { storage with misbehaviourReports := entry } sessionId [offender] w'') :
    Reported w storage sessionId (front ++ [offender]) w'' where
  latest := h'.latest.trans h.latest
  offchain := h'.offchain
  gone other hother := by
    by_cases heq : other ∈ [offender]
    · exact h'.gone other heq
    · rw [h'.kept other heq]
      exact h.gone other ((List.mem_append.mp hother).resolve_right heq)
  kept other hother := by
    rw [List.mem_append, not_or] at hother
    rw [h'.kept other hother.2, h.kept other hother.1]

variable {signature : Public → Bytes}

theorem reported_offenders (hcollected : Collected cfg.chain.crypto w)
    (hlatest : w.latest = some s) (hoffchain : w.offchain = some storage)
    {offenders : List Public} (hnodup : offenders.Nodup)
    (hdue : ∀ offender ∈ offenders, Due cfg w s sessionId offender (signature offender)) :
    Reported w storage sessionId offenders
      ((offenders.map (DKGReport.keygenMisbehaviour · sessionId)).foldl (handleDkgReport cfg)
        w) := by
  induction offenders using List.reverseRecOn with
  | nil =>
      exact ⟨rfl, ⟨storage.misbehaviourReports, hoffchain⟩,
        fun _ hmem => (List.not_mem_nil hmem).elim, fun _ _ => rfl⟩
  | append_singleton front last ih =>
      have hfront := ih hnodup.of_append_left
        fun offender hmem => hdue offender (List.mem_append_left _ hmem)
      have hlast : last ∉ front := fun hmem =>
        List.disjoint_of_nodup_append hnodup hmem (List.mem_singleton_self last)
      obtain ⟨entry, hentry⟩ := hfront.offchain
      have hstill := (hdue last (List.mem_append_right _ (List.mem_singleton_self last))).congr
        (collected_congr (hfront.kept last hlast))
      rw [List.map_append, List.foldl_append]
      exact hfront.append (reported_singleton (collected_handleDkgReports hcollected _)
        (hfront.latest.trans hlatest) hentry hstill)

theorem storageAt_misbehaviourReports {reports : AggregatedMisbehaviourReports L}
    (runs : ℕ → WorkerRun L AccountId World) (h : storage.misbehaviourReports = .value reports)
    (i : ℕ) :
    (storageAt runs storage i).misbehaviourReports = .value reports ∨
      (storageAt runs storage i).misbehaviourReports = .absent := by
  induction i with
  | zero => exact .inl h
  | succ i ih =>
      simp only [storageAt, offchainWorker, WorkerResult.storage, submitMisbehaviourReportsOnchain]
      split
      · exact ih
      · split
        · exact ih
        · rcases ih with hvalue | habsent
          · simp only [hvalue]
            split
            · exact .inr rfl
            · split
              · exact .inr rfl
              · exact .inl rfl
          · simp only [habsent]
            exact .inr trivial

theorem attempted_offchainWorker {run : WorkerRun L AccountId World}
    {reports : AggregatedMisbehaviourReports L}
    (h : (offchainWorker run storage).reports.attempted = some reports) :
    storage.misbehaviourReports = .value reports := by
  simp only [offchainWorker, submitMisbehaviourReportsOnchain] at h
  split at h
  · cases h
  · split at h
    · cases h
    · split at h
      · rename_i stored hstored
        split at h
        · cases h
        · split at h <;> exact hstored.trans (congrArg _ (Option.some.inj h))
      · cases h

/-- An error of the key generation, or its timeout, blames the authorities. -/
def Blames (error : ProtocolError) (offenders : List Public) (sessionId : ℕ) : Prop :=
  (∃ reason, error = .keygenMisbehaviour reason offenders sessionId) ∨
    error = .keygenTimeout offenders sessionId

theorem dkgReports_of_blames {error : ProtocolError} {offenders : List Public}
    (h : Blames error offenders sessionId) :
    dkgReports error = offenders.map (DKGReport.keygenMisbehaviour · sessionId) := by
  obtain ⟨reason, rfl⟩ | rfl := h
  · rfl
  · rfl

/-- There is one place for the reports of all offenders.  If the report of the node is the one
that is missing for each of the authorities that an error blames, only the last of them is
submitted, and the reports of the others are lost. -/
theorem last_offender_submitted (hcollected : Collected cfg.chain.crypto w)
    (hlatest : w.latest = some s) (hoffchain : w.offchain = some storage)
    {front : List Public} {last : Public} (hnodup : (front ++ [last]).Nodup)
    {error : ProtocolError} (herror : Blames error (front ++ [last]) sessionId)
    (hdue : ∀ offender ∈ front ++ [last],
      Due cfg w s sessionId offender (signature offender)) :
    let w' := handleDkgError cfg w error
    (∃ storage', w'.offchain = some storage' ∧
      storage'.misbehaviourReports =
        .value (withOwnReport cfg w sessionId last (signature last)).1 ∧
      ∀ (runs : ℕ → WorkerRun L AccountId World) (i : ℕ) (reports),
        (offchainWorker (runs i) (storageAt runs storage' i)).reports.attempted = some reports →
          reports.offender = last) ∧
    ∀ offender ∈ front ++ [last],
      w'.aggregatedMisbehaviourReports.lookup (keygenKey sessionId offender) = none := by
  have hall := reported_offenders hcollected hlatest hoffchain hnodup hdue
  have hfront := reported_offenders hcollected hlatest hoffchain hnodup.of_append_left
    fun offender hmem => hdue offender (List.mem_append_left _ hmem)
  have hlast : last ∉ front := fun hmem =>
    List.disjoint_of_nodup_append hnodup hmem (List.mem_singleton_self last)
  obtain ⟨entry, hentry⟩ := hfront.offchain
  have heq := collected_congr (hfront.kept last hlast)
  have hstill := (hdue last (List.mem_append_right _ (List.mem_singleton_self last))).congr heq
  have hreports := dkgReports_of_blames herror
  have hstored : ∃ storage', (handleDkgError cfg w error).offchain = some storage' ∧
      storage'.misbehaviourReports =
        .value (withOwnReport cfg w sessionId last (signature last)).1 := by
    rw [handleDkgError, hreports, List.map_append, List.foldl_append, List.map_singleton,
      List.foldl_cons, List.foldl_nil,
      handleDkgReport_due (collected_handleDkgReports hcollected _)
        (hfront.latest.trans hlatest) hentry hstill, withOwnReport, heq]
    exact ⟨_, rfl, rfl⟩
  obtain ⟨storage', hstorage, hplace⟩ := hstored
  rw [← hreports] at hall
  refine ⟨⟨storage', hstorage, hplace, ?_⟩, hall.gone⟩
  intro runs i reports hattempted
  have hkey := reportKey_withOwnReport hcollected sessionId last (signature last)
  have hread := attempted_offchainWorker hattempted
  rcases storageAt_misbehaviourReports runs hplace i with hvalue | habsent
  · obtain rfl := Entry.value.inj (hread.symm.trans hvalue)
    exact congrArg (fun key => key.2.2) hkey
  · cases hread.symm.trans habsent

end Keygen

def sampleFresh (offender : UInt8) : AggregatedMisbehaviourReports runtimeLimits :=
  emptyReports .keygen 1 (samplePublic offender)

def sampleFirstReport (offender : UInt8) : AggregatedMisbehaviourReports runtimeLimits :=
  (Worker.addReport (samplePublic 4)
    (sampleSignature 4 (misbehaviourPayload (sampleFresh offender))) (sampleFresh offender)).1

def sampleReportedWorker : Worker runtimeLimits ℕ Unit :=
  { (Worker.new (some sampleStorage) : Worker runtimeLimits ℕ Unit) with
    latest := some (sampleGenesis 4 1 4)
    aggregatedMisbehaviourReports :=
      ((∅ : StorageMap ReportKey (AggregatedMisbehaviourReports runtimeLimits)).insert
        (keygenKey 1 (samplePublic 2)) (sampleFirstReport 2)).insert
          (keygenKey 1 (samplePublic 3)) (sampleFirstReport 3) }

def sampleOwnSignature (offender : Public) : Bytes :=
  sampleSignature 1 (misbehaviourPayload
    (emptyReports .keygen 1 offender : AggregatedMisbehaviourReports runtimeLimits))

theorem signed_sampleFirstReport (offender : UInt8) :
    Signed sampleCrypto (sampleFirstReport offender) :=
  signed_addReport (signed_emptyReports _ _ _) List.not_mem_nil (recoversTo_sampleSignature _ _)

theorem collected_sampleReportedWorker :
    Collected sampleGadget.chain.crypto sampleReportedWorker where
  reports key reports hlookup := by
    rw [sampleReportedWorker] at hlookup
    dsimp only at hlookup
    rw [lookup_insert_eq] at hlookup
    split at hlookup
    · obtain rfl := Option.some.inj hlookup
      exact ⟨(reportKey_addReport _ _).trans (by symm; assumption), signed_sampleFirstReport 3⟩
    · rw [lookup_insert_eq] at hlookup
      split at hlookup
      · obtain rfl := Option.some.inj hlookup
        exact ⟨(reportKey_addReport _ _).trans (by symm; assumption), signed_sampleFirstReport 2⟩
      · cases hlookup
  pending _ hentry := (List.not_mem_nil hentry).elim

theorem due_sampleReportedWorker : ∀ offender ∈ [samplePublic 2] ++ [samplePublic 3],
    Due sampleGadget sampleReportedWorker (sampleGenesis 4 1 4) 1 offender
      (sampleOwnSignature offender) := by
  have hdue : ∀ offender ∈ [samplePublic 2] ++ [samplePublic 3],
      samplePublic 1 ∉ (sampleReportedWorker.collected
        (emptyReports .keygen 1 offender)).reporters.toList ∧
      (withOwnReport sampleGadget sampleReportedWorker 1 offender
        (sampleOwnSignature offender)).2.isOk = true ∧
      (sampleGenesis 4 1 4).signatureThreshold < (withOwnReport sampleGadget sampleReportedWorker
        1 offender (sampleOwnSignature offender)).1.reporters.length :=
    List.all_iff_forall_prop.mp (by decide +kernel)
  intro offender hoffender
  obtain ⟨hmissing, hok, henough⟩ := hdue offender hoffender
  refine ⟨rfl, hmissing, ?_, henough⟩
  cases hresult : (withOwnReport sampleGadget sampleReportedWorker 1 offender
      (sampleOwnSignature offender)).2 with
  | ok => rfl
  | error e =>
      rw [hresult] at hok
      cases hok

theorem last_offender_submitted_sample :
    let w' := handleDkgError sampleGadget sampleReportedWorker
      (.keygenTimeout ([samplePublic 2] ++ [samplePublic 3]) 1)
    (∃ storage', w'.offchain = some storage' ∧
      storage'.misbehaviourReports = .value (withOwnReport sampleGadget sampleReportedWorker 1
        (samplePublic 3) (sampleOwnSignature (samplePublic 3))).1 ∧
      ∀ (runs : ℕ → WorkerRun runtimeLimits ℕ Unit) (i : ℕ) (reports),
        (offchainWorker (runs i) (storageAt runs storage' i)).reports.attempted = some reports →
          reports.offender = samplePublic 3) ∧
    ∀ offender ∈ [samplePublic 2] ++ [samplePublic 3],
      w'.aggregatedMisbehaviourReports.lookup (keygenKey 1 offender) = none :=
  last_offender_submitted collected_sampleReportedWorker rfl rfl (by decide +kernel) (.inr rfl)
    due_sampleReportedWorker

end DkgSubstrate.ErrorReports
