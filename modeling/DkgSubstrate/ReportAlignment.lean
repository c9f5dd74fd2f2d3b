import DkgSubstrate.ReportSubmissions

/-!
The two functions that collect misbehaviour reports, under any interleaving.  Between two calls
the chain, the keygen manager, the collected public keys and the offchain storage may change in
any way; the reports change in the calls only.
-/

namespace DkgSubstrate.ReportAlignment

open DkgSubstrate.GossipMessages
open DkgSubstrate.IncomingMessages hiding Node
open DkgSubstrate.Metadata hiding Config
open DkgSubstrate.MetadataCalls
open DkgSubstrate.OffchainWorker hiding sampleStorage
open DkgSubstrate.Primitives
open DkgSubstrate.ReportReplay
open DkgSubstrate.ReportSubmissions
open DkgSubstrate.Runs

variable {L : Limits} {AccountId World : Type}

structure Surroundings (L : Limits) (AccountId World : Type) where
  latest : Option (State L AccountId World)
  keygenManager : KeygenManager.State L
  aggregatedPublicKeys : StorageMap ℕ AggregatedPublicKeys
  offchain : Option (LocalStorage L)

/-- A report that has been collected is stored in a call of its own, as the lock is not held
between the two. -/
inductive Call (L : Limits) (AccountId World : Type)
  | handleMisbehaviourReport (dkgMsg : DKGMessage)
  | gossipMisbehaviourReport (misbehaviourType : MisbehaviourType) (sessionId : ℕ)
      (offender : Public)
  | storePending (i : ℕ)
  | change (surroundings : Surroundings L AccountId World)

def step (cfg : GossipMessages.Config L AccountId World) (w : Worker L AccountId World) :
    Call L AccountId World → Worker L AccountId World
  | .handleMisbehaviourReport dkgMsg => (w.handleMisbehaviourReport cfg dkgMsg).worker
  | .gossipMisbehaviourReport misbehaviourType sessionId offender =>
      (w.gossipMisbehaviourReport cfg misbehaviourType sessionId offender).worker
  | .storePending i => w.storePending i
  | .change surroundings => { w with
      latest := surroundings.latest
      keygenManager := surroundings.keygenManager
      aggregatedPublicKeys := surroundings.aggregatedPublicKeys
      offchain := surroundings.offchain }

structure Aligned (crypto : Crypto) (key : ReportKey) (reports : AggregatedMisbehaviourReports L) :
    Prop where
  key : reportKey reports = key
  length : reports.reporters.toList.length = reports.signatures.toList.length
  nodup : reports.reporters.toList.Nodup
  signed : ∀ (i : ℕ) (reporter : Public) (signature : Signature L),
    reports.reporters.toList[i]? = some reporter →
    reports.signatures.toList[i]? = some signature →
      recoversTo crypto (misbehaviourPayload reports) signature.toList
        (xCoordinate reporter) = true

theorem Aligned.of_signed {crypto : Crypto} {key : ReportKey}
    {reports : AggregatedMisbehaviourReports L} (hfits : signatureLength ≤ L.maxSignatureLength)
    (hkey : reportKey reports = key) (h : Signed crypto reports) : Aligned crypto key reports where
  key := hkey
  length := (h.aligned hfits).symm
  nodup := h.nodup
  signed i reporter signature hreporter hsignature := by
    obtain ⟨signer, hsigner, hrecovers⟩ := h.signed i signature hsignature
    cases hreporter.symm.trans hsigner
    exact hrecovers

theorem collected_step {cfg : GossipMessages.Config L AccountId World}
    {w : Worker L AccountId World} (h : Collected cfg.chain.crypto w)
    (call : Call L AccountId World) : Collected cfg.chain.crypto (step cfg w call) := by
  cases call with
  | handleMisbehaviourReport dkgMsg => exact collected_handleMisbehaviourReport h dkgMsg
  | gossipMisbehaviourReport misbehaviourType sessionId offender =>
      exact collected_gossipMisbehaviourReport h misbehaviourType sessionId offender
  | storePending i => exact collected_storePending h i
  | change surroundings => exact h.congr rfl rfl

/-- With the bounds of the gadget a signature fits, so that no call leaves a reporter without
one. -/
theorem always_aligned (cfg : GossipMessages.Config runtimeLimits AccountId World)
    (offchain : Option (LocalStorage runtimeLimits))
    (calls : List (Call runtimeLimits AccountId World)) :
    Always (step cfg) (fun w => ∀ key reports,
      w.aggregatedMisbehaviourReports.lookup key = some reports →
        Aligned cfg.chain.crypto key reports) (Worker.new offchain) calls := by
  have hfits : signatureLength ≤ runtimeLimits.maxSignatureLength := by
    decide
  have hcollected : Always (step cfg) (Collected cfg.chain.crypto) (Worker.new offchain) calls :=
    always_of_invariant _ (fun w call h _ => collected_step h call)
      (collected_new cfg.chain.crypto offchain) (stepsMeet_true (step cfg) _ calls)
  intro pre post hsplit key reports hlookup
  obtain ⟨hkey, hsigned⟩ := (hcollected pre post hsplit).reports key reports hlookup
  exact Aligned.of_signed hfits hkey hsigned

end DkgSubstrate.ReportAlignment
