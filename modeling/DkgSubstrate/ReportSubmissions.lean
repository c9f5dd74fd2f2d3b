import DkgSubstrate.GossipMessages
import DkgSubstrate.MisbehaviourReports

/-!
Keygen reports that a node has collected, and whether they are enough for the chain.  The node
compares them with the threshold of the active session, and the chain with the one of the next
session.
-/

namespace DkgSubstrate.ReportSubmissions

open DkgSubstrate.ChainHeader
open DkgSubstrate.Dispatch
open DkgSubstrate.GossipMessages
open DkgSubstrate.IncomingMessages hiding Node
open DkgSubstrate.Metadata hiding Config
open DkgSubstrate.MetadataCalls
open DkgSubstrate.MisbehaviourReports
open DkgSubstrate.OffchainWorker hiding sampleStorage
open DkgSubstrate.Primitives
open DkgSubstrate.ReportReplay
open DkgSubstrate.Runs
open DkgSubstrate.SampleRuntime
open DkgSubstrate.Words

variable {L : Limits} {AccountId World : Type}

/-- The reporters of a report are different, and have signed it at their places.  A reporter is
without a signature only if no signature fits. -/
structure Signed (crypto : Crypto) (reports : AggregatedMisbehaviourReports L) : Prop where
  keygen : reports.misbehaviourType = .keygen
  nodup : reports.reporters.toList.Nodup
  signed : ∀ (i : ℕ) (signature : Signature L), reports.signatures.toList[i]? = some signature →
    ∃ reporter, reports.reporters.toList[i]? = some reporter ∧
      recoversTo crypto (misbehaviourPayload reports) signature.toList
        (xCoordinate reporter) = true
  aligned : signatureLength ≤ L.maxSignatureLength →
    reports.signatures.toList.length = reports.reporters.toList.length

section Signed

variable {crypto : Crypto} {reports : AggregatedMisbehaviourReports L}

theorem signed_emptyReports (crypto : Crypto) (sessionId : ℕ) (offender : Public) :
    Signed crypto (emptyReports .keygen sessionId offender : AggregatedMisbehaviourReports L) where
  keygen := rfl
  nodup := List.nodup_nil
  signed _ _ h := by simp [emptyReports] at h
  aligned _ := rfl

theorem misbehaviourPayload_congr {reports' : AggregatedMisbehaviourReports L}
    (h : reportKey reports = reportKey reports') :
    misbehaviourPayload reports = misbehaviourPayload reports' := by
  simp only [reportKey, Prod.mk.injEq] at h
  obtain ⟨htype, hsession, hoffender⟩ := h
  rw [misbehaviourPayload, misbehaviourPayload, htype, hsession, hoffender]

theorem Signed.length_le (h : Signed crypto reports) :
    reports.signatures.toList.length ≤ reports.reporters.toList.length := by
  by_contra hlt
  obtain ⟨reporter, hreporter, -⟩ := h.signed reports.reporters.toList.length _
    (List.getElem?_eq_getElem (Nat.not_le.mp hlt))
  simp at hreporter

theorem reportKey_addReport (reporter : Public) (signature : Bytes) :
    reportKey (Worker.addReport reporter signature reports).1 = reportKey reports := by
  rw [Worker.addReport]
  split
  · rfl
  · split <;> rfl

theorem Signed.addReporter (h : Signed crypto reports) {reporter : Public}
    {reporters : BoundedVec Public L.maxReporters}
    (hreporters : reporters.toList = reports.reporters.toList ++ [reporter])
    (hnew : reporter ∉ reports.reporters.toList)
    (hshort : L.maxSignatureLength < signatureLength) :
    Signed crypto { reports with reporters := reporters } where
  keygen := h.keygen
  nodup := by
    rw [hreporters]
    exact h.nodup.append (List.nodup_singleton _) (List.disjoint_singleton.mpr hnew)
  signed i signature hsignature := by
    obtain ⟨other, hother, hrecovers⟩ := h.signed i signature hsignature
    refine ⟨other, ?_, hrecovers⟩
    rw [hreporters, List.getElem?_append_left (List.getElem?_eq_some_iff.mp hother).1]
    exact hother
  aligned hfits := absurd hshort (Nat.not_lt.mpr hfits)

theorem Signed.addSigner (h : Signed crypto reports) {reporter : Public}
    {reporters : BoundedVec Public L.maxReporters} {signature : Signature L}
    {signatures : BoundedVec (Signature L) L.maxReporters}
    (hreporters : reporters.toList = reports.reporters.toList ++ [reporter])
    (hsignatures : signatures.toList = reports.signatures.toList ++ [signature])
    (hnew : reporter ∉ reports.reporters.toList)
    (hrecovers : recoversTo crypto (misbehaviourPayload reports) signature.toList
      (xCoordinate reporter) = true) :
    Signed crypto { reports with
      reporters := reporters
      signatures := signatures } := by
  have hfits : signatureLength ≤ L.maxSignatureLength := by
    rw [← length_of_recoversTo hrecovers]
    exact signature.length_le
  refine ⟨h.keygen, ?_, ?_, fun _ => ?_⟩
  · rw [hreporters]
    exact h.nodup.append (List.nodup_singleton _) (List.disjoint_singleton.mpr hnew)
  · intro i other hother
    rw [hsignatures, List.getElem?_append] at hother
    rw [hreporters, List.getElem?_append, ← h.aligned hfits]
    split at hother
    · rename_i hi
      rw [if_pos hi]
      exact h.signed i other hother
    · rename_i hi
      rw [if_neg hi]
      have hzero : i - reports.signatures.toList.length = 0 :=
        Nat.lt_one_iff.mp (List.getElem?_eq_some_iff.mp hother).1
      rw [hzero] at hother ⊢
      cases hother
      exact ⟨reporter, rfl, hrecovers⟩
  · rw [hsignatures, hreporters, List.length_append, List.length_append, h.aligned hfits]
    rfl

theorem signed_addReport (h : Signed crypto reports) {reporter : Public} {signature : Bytes}
    (hnew : reporter ∉ reports.reporters.toList)
    (hrecovers : recoversTo crypto (misbehaviourPayload reports) signature
      (xCoordinate reporter) = true) :
    Signed crypto (Worker.addReport reporter signature reports).1 := by
  rw [Worker.addReport]
  split
  · exact h
  · rename_i reporters hpush
    have hreporters := BoundedVec.tryPush_eq_some.mp hpush
    split
    · rename_i hnone
      refine h.addReporter hreporters hnew ?_
      rw [← length_of_recoversTo hrecovers]
      refine BoundedVec.tryFrom_eq_none.mp (Option.eq_none_iff_forall_ne_some.mpr ?_)
      intro bounded hbounded
      rw [hbounded, Option.bind_some, BoundedVec.tryPush_eq_none] at hnone
      have hfull := reporters.length_le
      rw [hreporters, List.length_append, List.length_singleton] at hfull
      have hle := h.length_le
      omega
    · rename_i signatures hsome
      obtain ⟨bounded, hbounded, hpushed⟩ := Option.bind_eq_some_iff.mp hsome
      have hsignature := BoundedVec.tryFrom_eq_some.mp hbounded
      rw [← hsignature] at hrecovers
      exact h.addSigner hreporters (BoundedVec.tryPush_eq_some.mp hpushed) hnew hrecovers

end Signed

structure Collected (crypto : Crypto) (w : Worker L AccountId World) : Prop where
  reports : ∀ key reports, w.aggregatedMisbehaviourReports.lookup key = some reports →
    reportKey reports = key ∧ Signed crypto reports
  pending : ∀ entry ∈ w.pending, Signed crypto entry.1

section Collected

variable {cfg : GossipMessages.Config L AccountId World} {crypto : Crypto}
variable {w w' : Worker L AccountId World}

theorem Collected.congr (h : Collected crypto w)
    (hreports : w'.aggregatedMisbehaviourReports = w.aggregatedMisbehaviourReports)
    (hpending : w'.pending = w.pending) : Collected crypto w' := by
  refine ⟨?_, ?_⟩
  · rw [hreports]
    exact h.reports
  · rw [hpending]
    exact h.pending

theorem Collected.signed_collected (h : Collected crypto w)
    {fresh : AggregatedMisbehaviourReports L} (hfresh : Signed crypto fresh) :
    reportKey (w.collected fresh) = reportKey fresh ∧ Signed crypto (w.collected fresh) := by
  rw [Worker.collected]
  cases hlookup : w.aggregatedMisbehaviourReports.lookup (reportKey fresh) with
  | none => exact ⟨rfl, hfresh⟩
  | some reports => exact h.reports _ _ hlookup

theorem collected_collect (h : Collected crypto w) (own : Bool) {key : ReportKey}
    {updated : AggregatedMisbehaviourReports L × Except DKGError Unit}
    (hkey : reportKey updated.1 = key) (hsigned : Signed crypto updated.1) :
    Collected crypto (w.collect own key updated).worker := by
  have hinserted : ∀ key' reports, (w.aggregatedMisbehaviourReports.insert key
      updated.1).lookup key' = some reports → reportKey reports = key' ∧
        Signed crypto reports := by
    intro key' reports hlookup
    rw [StorageMap.lookup_insert_eq] at hlookup
    split at hlookup
    · rename_i heq
      cases hlookup
      exact ⟨hkey.trans heq.symm, hsigned⟩
    · exact h.reports key' reports hlookup
  simp only [Worker.collect]
  split
  · refine ⟨hinserted, fun entry hentry => ?_⟩
    rcases List.mem_append.mp hentry with hold | hnew
    · exact h.pending entry hold
    · rw [List.mem_singleton.mp hnew]
      exact hsigned
  · exact ⟨hinserted, h.pending⟩

theorem collected_addReport (h : Collected crypto w) (own : Bool)
    {fresh : AggregatedMisbehaviourReports L} (hfresh : Signed crypto fresh)
    {reporter : Public} {signature : Bytes}
    (hnew : reporter ∉ (w.collected fresh).reporters.toList)
    (hrecovers : recoversTo crypto (misbehaviourPayload fresh) signature
      (xCoordinate reporter) = true) :
    Collected crypto (w.collect own (reportKey fresh)
      (Worker.addReport reporter signature (w.collected fresh))).worker := by
  obtain ⟨hkey, hsigned⟩ := h.signed_collected hfresh
  rw [← misbehaviourPayload_congr hkey] at hrecovers
  refine collected_collect h own ?_ (signed_addReport hsigned hnew hrecovers)
  rw [reportKey_addReport, hkey]

theorem collected_handleMisbehaviourReport (h : Collected cfg.chain.crypto w)
    (dkgMsg : DKGMessage) :
    Collected cfg.chain.crypto (w.handleMisbehaviourReport cfg dkgMsg).worker := by
  unfold Worker.handleMisbehaviourReport
  split
  · exact h
  · split
    · rename_i msg hpayload
      split
      · rename_i hkeygen
        split
        · exact h
        · rename_i reporter hauthentic
          have hfresh : Signed cfg.chain.crypto
              (MisbehaviourMessage.reports msg : AggregatedMisbehaviourReports L) := by
            rw [MisbehaviourMessage.reports, hkeygen]
            exact signed_emptyReports _ _ _
          dsimp only
          split
          · obtain ⟨hkey, hsigned⟩ := h.signed_collected hfresh
            exact collected_collect h false hkey hsigned
          · rename_i hnew
            rw [List.contains_iff_mem] at hnew
            have hrecovers := List.find?_some (authenticateMsgOrigin_eq_ok.mp hauthentic)
            exact collected_addReport h false hfresh hnew hrecovers
      · exact h
    · exact h

theorem collected_gossipMisbehaviourReport (h : Collected cfg.chain.crypto w)
    (misbehaviourType : MisbehaviourType) (sessionId : ℕ) (offender : Public) :
    Collected cfg.chain.crypto
      (w.gossipMisbehaviourReport cfg misbehaviourType sessionId offender).worker := by
  unfold Worker.gossipMisbehaviourReport
  split
  · exact h
  · dsimp only
    split
    · exact h
    · rename_i signature hsignature
      split
      · exact h
      · rename_i hnew
        rw [List.contains_iff_mem] at hnew
        exact collected_addReport h true (signed_emptyReports _ _ _) hnew
          (cfg.keyStore.recovers hsignature)

theorem collected_tryStoreOffchain (h : Collected crypto w)
    (reports : AggregatedMisbehaviourReports L) :
    Collected crypto (w.tryStoreOffchain reports).1 := by
  unfold Worker.tryStoreOffchain
  split
  · exact h
  · split
    · split
      · exact h
      · exact h.congr rfl rfl
    · exact h

theorem collected_storePending (h : Collected crypto w) (i : ℕ) :
    Collected crypto (w.storePending i) := by
  unfold Worker.storePending
  split
  · exact h
  · rename_i reports own hpending
    have hremoved : Collected crypto { w with pending := w.pending.eraseIdx i } :=
      ⟨h.reports, fun entry hentry => h.pending entry (List.mem_of_mem_eraseIdx hentry)⟩
    have hstored := collected_tryStoreOffchain hremoved reports
    dsimp only
    split
    · refine ⟨fun key other hlookup => ?_, hstored.pending⟩
      rw [StorageMap.lookup_retain, Option.ite_none_right_eq_some,
        StorageMap.lookup_erase_eq, Option.ite_none_left_eq_some] at hlookup
      exact hstored.reports key other hlookup.2.2
    · exact hstored

theorem collected_storeAggregatedPublicKeys (h : Collected crypto w) (isGenesisRound : Bool)
    (sessionId : ℕ) (submitAt : Option ℕ) :
    Collected crypto (w.storeAggregatedPublicKeys isGenesisRound sessionId submitAt).worker := by
  unfold Worker.storeAggregatedPublicKeys
  split
  · exact h
  · split
    · exact h
    · exact h.congr rfl rfl

theorem collected_handlePublicKeyBroadcast (h : Collected crypto w) (submitAt : Option ℕ)
    (dkgMsg : DKGMessage) :
    Collected crypto (w.handlePublicKeyBroadcast cfg submitAt dkgMsg).worker := by
  unfold Worker.handlePublicKeyBroadcast
  split
  · exact h
  · split
    · split
      · exact h
      · dsimp only
        split
        · refine collected_storeAggregatedPublicKeys ?_ _ _ _
          exact h.congr rfl rfl
        · exact h.congr rfl rfl
    · exact h

theorem collected_processIncomingDkgMessage (h : Collected cfg.chain.crypto w)
    (submitAt : Option ℕ) (signed : SignedDKGMessage) :
    Collected cfg.chain.crypto
      (w.processIncomingDkgMessage cfg submitAt signed).worker := by
  unfold Worker.processIncomingDkgMessage
  split
  · exact h.congr rfl rfl
  · exact h
  · exact h
  · split
    · exact collected_handlePublicKeyBroadcast h submitAt _
    · exact h
  · split
    · exact collected_handleMisbehaviourReport h _
    · exact h

theorem collected_step [DecidableEq AccountId] {n : Node L AccountId World}
    (h : Collected cfg.chain.crypto n.worker) (e : Event L AccountId World) :
    Collected cfg.chain.crypto (GossipMessages.step cfg n e).worker := by
  cases e with
  | chain | advance | task => exact h.congr rfl rfl
  | finality majorSyncing =>
      rw [GossipMessages.step]
      unfold Worker.processBlockNotification
      split
      · split
        · exact h.congr rfl rfl
        · exact h
      · exact h
  | incoming submitAt signed => exact collected_processIncomingDkgMessage h submitAt signed
  | gossipPublicKey sessionId pubKey =>
      rw [GossipMessages.step, Worker.gossipPublicKey]
      split
      · exact h.congr rfl rfl
      · exact h
  | report misbehaviourType sessionId offender =>
      exact collected_gossipMisbehaviourReport h misbehaviourType sessionId offender
  | storePending i => exact collected_storePending h i

theorem collected_new (crypto : Crypto) (offchain : Option (LocalStorage L)) :
    Collected crypto (Worker.new offchain : Worker L AccountId World) where
  reports _ _ h := by simp [Worker.new] at h
  pending _ h := absurd h List.not_mem_nil

theorem collected_run [DecidableEq AccountId] (cfg : GossipMessages.Config L AccountId World)
    (chain : State L AccountId World) (offchain : Option (LocalStorage L))
    (es : List (Event L AccountId World)) :
    Collected cfg.chain.crypto
      (run (GossipMessages.step cfg) ⟨chain, Worker.new offchain⟩ es).worker := by
  have hnew : Collected cfg.chain.crypto
      (⟨chain, Worker.new offchain⟩ : Node L AccountId World).worker :=
    collected_new cfg.chain.crypto offchain
  exact invariant_run (fun n : Node L AccountId World => Collected cfg.chain.crypto n.worker)
    (fun n e h _ => collected_step h e) hnew (stepsMeet_true (GossipMessages.step cfg) _ es)

end Collected

def isKnown (authorities : List Public) (reporter : Public) : Bool :=
  authorities.any fun x =>
    decide (x ≠ List.Vector.replicate 33 0) && (xCoordinate x == xCoordinate reporter)

def knownReporters (authorities : List Public) (reports : AggregatedMisbehaviourReports L) :
    List Public :=
  (reports.reporters.toList.take reports.signatures.length).filter (isKnown authorities)

section Count

variable {cfg : Metadata.Config L AccountId World} {s : State L AccountId World}
variable {reports : AggregatedMisbehaviourReports L}

theorem isKnown_iff {authorities : List Public} {reporter : Public} {signature : Signature L}
    (h : recoversTo cfg.crypto (misbehaviourPayload reports) signature.toList
      (xCoordinate reporter) = true) :
    isKnown authorities reporter = true ↔
      SignedByMember cfg.crypto reports authorities signature := by
  simp only [isKnown, List.any_eq_true, Bool.and_eq_true, decide_eq_true_eq, beq_iff_eq,
    SignedByMember, recoversTo_iff_of_recoversTo h]

theorem processMisbehaviourReports_signed (h : Signed cfg.crypto reports)
    (authorities : List Public) :
    ∃ out, processMisbehaviourReports cfg reports authorities = .ok out ∧
      out.length = (knownReporters authorities reports).length := by
  have hok : ∃ out, processMisbehaviourReports cfg reports authorities = .ok out := by
    refine processMisbehaviourReports_ok.mpr fun i signature hsignature _ => ?_
    obtain ⟨reporter, hreporter, -⟩ := h.signed i signature hsignature
    exact (List.getElem?_eq_some_iff.mp hreporter).1
  obtain ⟨out, hout⟩ := hok
  have hnodup : (knownReporters authorities reports).Nodup :=
    (h.nodup.sublist (List.take_sublist _ _)).filter _
  refine ⟨out, hout, List.Perm.length_eq ?_⟩
  refine (List.perm_ext_iff_of_nodup (nodup_processMisbehaviourReports hout) hnodup).mpr
    fun reporter => ?_
  rw [mem_processMisbehaviourReports hout, knownReporters, List.mem_filter]
  constructor
  · rintro ⟨i, signature, hsignature, hmember, hreporter⟩
    obtain ⟨signer, hsigner, hrecovers⟩ := h.signed i signature hsignature
    cases hreporter.symm.trans hsigner
    have hi : i < reports.signatures.length := (List.getElem?_eq_some_iff.mp hsignature).1
    refine ⟨List.mem_iff_getElem?.mpr ⟨i, ?_⟩, (isKnown_iff hrecovers).mpr hmember⟩
    rw [List.getElem?_take_of_lt hi]
    exact hreporter
  · rintro ⟨hmem, hknown⟩
    obtain ⟨i, hi⟩ := List.mem_iff_getElem?.mp hmem
    rw [List.getElem?_take, Option.ite_none_right_eq_some] at hi
    obtain ⟨hlt, hreporter⟩ := hi
    have hsignature := List.getElem?_eq_getElem hlt
    obtain ⟨signer, hsigner, hrecovers⟩ := h.signed i _ hsignature
    cases hreporter.symm.trans hsigner
    exact ⟨i, _, hsignature, (isKnown_iff hrecovers).mp hknown, hreporter⟩

/-- The offender is a next authority that is in no jail. -/
structure Punishable (s : State L AccountId World) (offender : Public) : Prop where
  keygen : s.jailedKeygenAuthorities.containsKey offender = false
  signing : s.jailedSigningAuthorities.containsKey offender = false
  member : offender ∈ s.nextAuthorities.toList

/-- The chain does not complain about the reporters. -/
def FindsEnough (cfg : Metadata.Config L AccountId World) (s : State L AccountId World)
    (reports : AggregatedMisbehaviourReports L) : Prop :=
  submitMisbehaviourReports cfg .none reports s ≠
    .error (.error (.metadata .invalidMisbehaviourReports))

theorem setNextBestAuthorities_ne {ids : List Public} :
    setNextBestAuthorities ids s ≠ .error (.error (.metadata .invalidMisbehaviourReports)) := by
  simp [setNextBestAuthorities, bind_eq_error, okOr_eq_error, ensure_eq_error]

theorem punishKeygen_ne {offender : Public} :
    punishKeygen cfg offender s ≠ .error (.error (.metadata .invalidMisbehaviourReports)) := by
  simp only [punishKeygen]
  split
  · split
    · exact setNextBestAuthorities_ne
    · exact fun h => setNextBestAuthorities_ne (map_eq_error.mp h)
  · exact fun h => setNextBestAuthorities_ne (map_eq_error.mp h)

theorem findsEnough_iff (h : Signed cfg.crypto reports)
    (hoffender : Punishable s reports.offender) :
    FindsEnough cfg s reports ↔ s.nextSignatureThreshold <
      (knownReporters s.nextAuthorities.toList reports).length := by
  obtain ⟨out, hout, hlength⟩ := processMisbehaviourReports_signed h s.nextAuthorities.toList
  simp only [← hlength, FindsEnough, submitMisbehaviourReports, h.keygen, hoffender.keygen,
    hoffender.signing, hoffender.member, hout, ne_eq, bind_eq_error, ensure_eq_error,
    ensure_eq_ok, Except.ok.injEq, reduceCtorEq, not_true_eq_false, false_and, false_or,
    true_and, exists_const, exists_eq_left', punishKeygen_ne, and_false, or_false, and_true,
    not_not]

end Count

/-- The node stores collected reports exactly if the chain finds enough reporters in them, in
the state of the latest header. -/
def StoresAgree (cfg : GossipMessages.Config L AccountId World) (n : Node L AccountId World) :
    Prop :=
  ∀ entry ∈ n.worker.pending, ∀ s ∈ n.worker.latest, Punishable s entry.1.offender →
    ((n.worker.tryStoreOffchain entry.1).2 = .ok true ↔ FindsEnough cfg.chain s entry.1)

/-- There is an offchain storage and there are more reporters than the active threshold,
exactly if there are more known reporters than the next threshold. -/
def CountsAgree (n : Node L AccountId World) : Prop :=
  ∀ entry ∈ n.worker.pending, ∀ s ∈ n.worker.latest, Punishable s entry.1.offender →
    (n.worker.offchain.isSome = true ∧ s.signatureThreshold < entry.1.reporters.length ↔
      s.nextSignatureThreshold <
        (knownReporters s.nextAuthorities.toList entry.1).length)

section Agreement

variable {cfg : GossipMessages.Config L AccountId World} {w : Worker L AccountId World}

theorem tryStoreOffchain_eq_ok_true {s : State L AccountId World} (hlatest : w.latest = some s)
    (reports : AggregatedMisbehaviourReports L) :
    (w.tryStoreOffchain reports).2 = .ok true ↔
      w.offchain.isSome = true ∧ s.signatureThreshold < reports.reporters.length := by
  have hthreshold : (headerOf s).signatureThreshold = s.signatureThreshold := rfl
  by_cases hmany : s.signatureThreshold < reports.reporters.length
  · cases hoffchain : w.offchain with
    | none => simp [Worker.tryStoreOffchain, hlatest, hthreshold, hmany, hoffchain]
    | some storage => simp [Worker.tryStoreOffchain, hlatest, hthreshold, hmany, hoffchain]
  · simp [Worker.tryStoreOffchain, hlatest, hthreshold, hmany]

theorem storesAgree_iff {n : Node L AccountId World}
    (h : Collected cfg.chain.crypto n.worker) : StoresAgree cfg n ↔ CountsAgree n := by
  refine forall₂_congr fun entry hentry => forall₂_congr fun s hlatest =>
    forall_congr' fun hoffender => ?_
  rw [tryStoreOffchain_eq_ok_true hlatest, findsEnough_iff (h.pending entry hentry) hoffender]

end Agreement

/-- In every run of a node, collected reports are stored exactly if the chain finds enough
reporters, if and only if the counts of the node and of the chain agree. -/
theorem storesAgree_run_iff [DecidableEq AccountId]
    (cfg : GossipMessages.Config L AccountId World) (chain : State L AccountId World)
    (offchain : Option (LocalStorage L)) (es : List (Event L AccountId World)) :
    Always (GossipMessages.step cfg) (StoresAgree cfg) ⟨chain, Worker.new offchain⟩ es ↔
      Always (GossipMessages.step cfg) CountsAgree ⟨chain, Worker.new offchain⟩ es := by
  refine always_congr fun pre _ _ => ?_
  exact storesAgree_iff (collected_run cfg chain offchain pre)

def sampleReporting : List (Event runtimeLimits ℕ Unit) :=
  [.chain (.setSignatureThreshold .root 2), .chain (.forceChangeAuthorities .root),
    .chain (.initializeBlock 1), .finality false,
    .incoming none (sampleBroadcast 2 (.misbehaviourBroadcast ⟨.keygen, 1, samplePublic 3,
      sampleSignature 2 (misbehaviourPayload
        (emptyReports .keygen 1 (samplePublic 3) :
          AggregatedMisbehaviourReports runtimeLimits))⟩)),
    .report .keygen 1 (samplePublic 3)]

def sampleReported : Node runtimeLimits ℕ Unit :=
  run (GossipMessages.step sampleGadget) ⟨sampleGenesis 3 1 3, Worker.new (some sampleStorage)⟩
    sampleReporting

/-- The two reporters are more than the active threshold, which is 1, and not more than the
next one, which is 2. -/
theorem next_threshold_not_met : ¬StoresAgree sampleGadget sampleReported := by
  intro h
  have hcollected : Collected sampleGadget.chain.crypto sampleReported.worker :=
    collected_run sampleGadget (sampleGenesis 3 1 3) (some sampleStorage) sampleReporting
  obtain ⟨s, hlatest⟩ : ∃ s, sampleReported.worker.latest = some s :=
    Option.isSome_iff_exists.mp (by decide +kernel)
  obtain ⟨entry, hentry⟩ : ∃ entry, sampleReported.worker.pending[1]? = some entry :=
    Option.isSome_iff_exists.mp (by decide +kernel)
  have hoffender : (sampleReported.worker.latest.bind fun s =>
      sampleReported.worker.pending[1]?.map fun entry =>
        (s.jailedKeygenAuthorities.containsKey entry.1.offender,
          s.jailedSigningAuthorities.containsKey entry.1.offender,
          s.nextAuthorities.toList.contains entry.1.offender)) =
      some (false, false, true) := by
    decide +kernel
  have hcounts : (sampleReported.worker.latest.bind fun s =>
      sampleReported.worker.pending[1]?.map fun entry =>
        (s.signatureThreshold, s.nextSignatureThreshold, entry.1.reporters.length,
          (knownReporters s.nextAuthorities.toList entry.1).length)) =
      some (1, 2, 2, 2) := by
    decide +kernel
  have hoffchain : sampleReported.worker.offchain.isSome = true := by
    decide +kernel
  simp only [hlatest, hentry, Option.bind_some, Option.map_some, Option.some.injEq,
    Prod.mk.injEq, List.contains_iff_mem] at hoffender hcounts
  obtain ⟨hkeygen, hsigning, hmember⟩ := hoffender
  obtain ⟨hactive, hnext, hreporters, hknown⟩ := hcounts
  have hagree := (storesAgree_iff hcollected).mp h entry (List.mem_of_getElem? hentry) s hlatest
    ⟨hkeygen, hsigning, hmember⟩
  rw [hactive, hreporters, hnext, hknown] at hagree
  exact Nat.lt_irrefl 2 (hagree.mp ⟨hoffchain, Nat.one_lt_two⟩)

end DkgSubstrate.ReportSubmissions
