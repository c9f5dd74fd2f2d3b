import DkgSubstrate.KeygenManager
import DkgSubstrate.OffchainWorker

/-!
What the gadget does with the public keys and the misbehaviour reports that are gossiped.  A
node collects them, and hands them to its offchain storage when it has enough of them.  It reads
the chain at its latest header, and the latest session from the keygen manager.
-/

namespace DkgSubstrate.GossipMessages

open DkgSubstrate.ChainHeader
open DkgSubstrate.IncomingMessages hiding Node
open DkgSubstrate.KeygenManager hiding Config State step Event
open DkgSubstrate.Metadata
open DkgSubstrate.MetadataCalls
open DkgSubstrate.MetadataRotation hiding step
open DkgSubstrate.OffchainWorker hiding sampleStorage
open DkgSubstrate.Primitives
open DkgSubstrate.ReportReplay
open DkgSubstrate.SampleRuntime
open DkgSubstrate.Words

structure KeyStore (crypto : Crypto) where
  authorityPublicKey : Public
  sign : Bytes → Option Bytes
  recovers : ∀ {msg signature}, sign msg = some signature →
    recoversTo crypto msg signature (xCoordinate authorityPublicKey) = true

structure Config (L : Limits) (AccountId World : Type) where
  chain : Metadata.Config L AccountId World
  encode : DKGMessage → Bytes
  keyStore : KeyStore chain.crypto

/-- `latest` is the state of the chain at the latest header.  `pending` are reports that have
been collected and are to be stored next, and whether they were started by the node itself. -/
structure Worker (L : Limits) (AccountId World : Type) where
  latest : Option (State L AccountId World)
  keygenManager : KeygenManager.State L
  aggregatedPublicKeys : StorageMap ℕ AggregatedPublicKeys
  aggregatedMisbehaviourReports : StorageMap ReportKey (AggregatedMisbehaviourReports L)
  pending : List (AggregatedMisbehaviourReports L × Bool)
  offchain : Option (LocalStorage L)

variable {L : Limits} {AccountId World : Type}

def Config.keygen (cfg : Config L AccountId World) : KeygenManager.Config :=
  ⟨cfg.chain.crypto, cfg.keyStore.authorityPublicKey⟩

structure Handled (L : Limits) (AccountId World : Type) where
  worker : Worker L AccountId World
  stored : Option (ℕ × AggregatedPublicKeys)
  result : Except DKGError Unit

def authenticateMsgOrigin (crypto : Crypto) (isMainRound : Bool)
    (authorities : List Public × List Public) (msg signature : Bytes) :
    Except DKGError Public :=
  let maybeSigners := if isMainRound then authorities.1 else authorities.2
  let (maybeSigner, success) := verifySignerFromSetEcdsa crypto maybeSigners msg signature
  if success then
    match maybeSigner with
    | some signer => .ok signer
    | none => .error (.genericError "verify_signer_from_set_ecdsa could not determin signer!")
  else .error (.genericError "Message signature is not from a registered authority")

theorem authenticateMsgOrigin_eq_ok {crypto : Crypto} {isMainRound : Bool}
    {authorities : List Public × List Public} {msg signature : Bytes} {signer : Public} :
    authenticateMsgOrigin crypto isMainRound authorities msg signature = .ok signer ↔
      (if isMainRound then authorities.1 else authorities.2).find? (fun x =>
        recoversTo crypto msg signature (xCoordinate x)) = some signer := by
  rw [authenticateMsgOrigin]
  generalize (if isMainRound then authorities.1 else authorities.2) = maybeSigners
  cases hfind : maybeSigners.find? fun x => recoversTo crypto msg signature (xCoordinate x) with
  | none => simp [verifySignerFromSetEcdsa, hfind]
  | some x => simp [verifySignerFromSetEcdsa, hfind]

structure Broadcast where
  sessionId : ℕ
  data : Bytes
  signature : Bytes

def emptyReports (misbehaviourType : MisbehaviourType) (sessionId : ℕ) (offender : Public) :
    AggregatedMisbehaviourReports L where
  misbehaviourType := misbehaviourType
  sessionId := UInt64.ofNat sessionId
  offender := offender
  reporters := default
  signatures := default

def PublicKeyMessage.broadcast (msg : PublicKeyMessage) : Broadcast :=
  ⟨msg.sessionId, msg.pubKey, msg.signature⟩

def MisbehaviourMessage.reports (msg : MisbehaviourMessage) : AggregatedMisbehaviourReports L :=
  emptyReports msg.misbehaviourType msg.sessionId msg.offender

def MisbehaviourMessage.broadcast (L : Limits) (msg : MisbehaviourMessage) : Broadcast :=
  ⟨msg.sessionId, misbehaviourPayload (MisbehaviourMessage.reports msg :
    AggregatedMisbehaviourReports L), msg.signature⟩

namespace Worker

def new (offchain : Option (LocalStorage L)) : Worker L AccountId World where
  latest := none
  keygenManager := KeygenManager.State.new
  aggregatedPublicKeys := ∅
  aggregatedMisbehaviourReports := ∅
  pending := []
  offchain := offchain

variable (cfg : Config L AccountId World) (w : Worker L AccountId World)

def isMainRound (sessionId : ℕ) : Bool :=
  match w.keygenManager.latestExecutedSessionId with
  | some latest => sessionId == latest
  | none => false

def authenticate (active queued : AuthoritySet L) (b : Broadcast) : Except DKGError Public :=
  authenticateMsgOrigin cfg.chain.crypto (w.isMainRound b.sessionId)
    (active.authorities.toList, queued.authorities.toList) b.data b.signature

/-- The latest header, with the sets in it. -/
def header : Except DKGError (FinalizedHeader L × AuthoritySet L × AuthoritySet L) :=
  match w.latest with
  | none => .error .noHeader
  | some s =>
      match (headerOf s).validatorSet with
      | none => .error .noAuthorityAccounts
      | some sets => .ok (headerOf s, sets)

def storeAggregatedPublicKeys (isGenesisRound : Bool) (sessionId : ℕ) (submitAt : Option ℕ) :
    Handled L AccountId World :=
  match w.offchain with
  | none => ⟨w, none, .error (.genericError "No offchain storage available")⟩
  | some storage =>
      match w.aggregatedPublicKeys.lookup sessionId with
      | none => ⟨w, none, .error (.criticalError
          s!"Aggregated public key for session {sessionId} does not exist in map")⟩
      | some keys =>
          let stored := if isGenesisRound then
              { storage with genesisKeys :=
                  performStoringOfAggregatedPublicKeys keys submitAt storage.genesisKeys }
            else
              { storage with nextKeys :=
                  performStoringOfAggregatedPublicKeys keys submitAt storage.nextKeys }
          ⟨{ w with
              offchain := some stored
              aggregatedPublicKeys :=
                w.aggregatedPublicKeys.retain fun key => decide (sessionId < key) },
            some (sessionId, keys), .ok ()⟩

def addKey (keyAndSig : Bytes × Bytes) (keys : AggregatedPublicKeys) : AggregatedPublicKeys :=
  if keyAndSig ∈ keys then keys else keys ++ [keyAndSig]

/-- The threshold is the one of the next session also in the genesis round. -/
def handlePublicKeyBroadcast (submitAt : Option ℕ) (dkgMsg : DKGMessage) :
    Handled L AccountId World :=
  match w.header with
  | .error e => ⟨w, none, .error e⟩
  | .ok (header, active, queued) =>
      match dkgMsg.payload with
      | .publicKeyBroadcast msg =>
          match w.authenticate cfg active queued (PublicKeyMessage.broadcast msg) with
          | .error e => ⟨w, none, .error e⟩
          | .ok _ =>
              let keys := addKey (msg.pubKey, msg.signature)
                (w.aggregatedPublicKeys.getD msg.sessionId [])
              let w := { w with
                aggregatedPublicKeys := w.aggregatedPublicKeys.insert msg.sessionId keys }
              if header.nextSignatureThreshold < keys.length then
                w.storeAggregatedPublicKeys (msg.sessionId == 0) msg.sessionId submitAt
              else ⟨w, none, .ok ()⟩
      | _ => ⟨w, none, .ok ()⟩

/-- The own key is pushed whether it is there or not. -/
def gossipPublicKey (sessionId : ℕ) (pubKey : Bytes) : Worker L AccountId World :=
  match cfg.keyStore.sign pubKey with
  | some signature =>
      { w with
        aggregatedPublicKeys := w.aggregatedPublicKeys.insert sessionId
          (w.aggregatedPublicKeys.getD sessionId [] ++ [(pubKey, signature)]) }
  | none => w

/-- The reporter stays if the signature does not fit. -/
def addReport (reporter : Public) (signature : Bytes)
    (reports : AggregatedMisbehaviourReports L) :
    AggregatedMisbehaviourReports L × Except DKGError Unit :=
  match reports.reporters.tryPush reporter with
  | none => (reports, .error .inputOutOfBounds)
  | some reporters =>
      match (BoundedVec.tryFrom signature).bind reports.signatures.tryPush with
      | none => ({ reports with reporters := reporters }, .error .inputOutOfBounds)
      | some signatures =>
          ({ reports with
            reporters := reporters
            signatures := signatures }, .ok ())

def collected (fresh : AggregatedMisbehaviourReports L) : AggregatedMisbehaviourReports L :=
  (w.aggregatedMisbehaviourReports.lookup (reportKey fresh)).getD fresh

def collect (own : Bool) (key : ReportKey)
    (updated : AggregatedMisbehaviourReports L × Except DKGError Unit) :
    Handled L AccountId World :=
  let w := { w with
    aggregatedMisbehaviourReports := w.aggregatedMisbehaviourReports.insert key updated.1 }
  match updated.2 with
  | .ok () => ⟨{ w with pending := w.pending ++ [(updated.1, own)] }, none, .ok ()⟩
  | .error e => ⟨w, none, .error e⟩

def handleMisbehaviourReport (dkgMsg : DKGMessage) : Handled L AccountId World :=
  match w.header with
  | .error e => ⟨w, none, .error e⟩
  | .ok (_, active, queued) =>
      match dkgMsg.payload with
      | .misbehaviourBroadcast msg =>
          if msg.misbehaviourType = .keygen then
            match w.authenticate cfg active queued (MisbehaviourMessage.broadcast L msg) with
            | .error e => ⟨w, none, .error e⟩
            | .ok reporter =>
                let fresh : AggregatedMisbehaviourReports L := MisbehaviourMessage.reports msg
                let reports := w.collected fresh
                w.collect false (reportKey fresh)
                  (if reports.reporters.toList.contains reporter then (reports, .ok ())
                    else addReport reporter msg.signature reports)
          else ⟨w, none, .ok ()⟩
      | _ => ⟨w, none, .ok ()⟩

def gossipMisbehaviourReport (misbehaviourType : MisbehaviourType) (sessionId : ℕ)
    (offender : Public) : Handled L AccountId World :=
  match misbehaviourType with
  | .sign => ⟨w, none, .ok ()⟩
  | .keygen =>
      let fresh : AggregatedMisbehaviourReports L := emptyReports .keygen sessionId offender
      match cfg.keyStore.sign (misbehaviourPayload fresh) with
      | none => ⟨w, none, .error .cannotSign⟩
      | some signature =>
          let reports := w.collected fresh
          if reports.reporters.toList.contains cfg.keyStore.authorityPublicKey then
            ⟨w, none, .ok ()⟩
          else w.collect true (reportKey fresh)
            (addReport cfg.keyStore.authorityPublicKey signature reports)

def tryStoreOffchain (reports : AggregatedMisbehaviourReports L) :
    Worker L AccountId World × Except DKGError Bool :=
  match w.latest with
  | none => (w, .error .noHeader)
  | some s =>
      if (headerOf s).signatureThreshold < reports.reporters.length then
        match w.offchain with
        | none => (w, .error (.genericError "No offchain storage available"))
        | some storage =>
            ({ w with offchain := some { storage with misbehaviourReports := .value reports } },
              .ok true)
      else (w, .ok false)

def storePending (i : ℕ) : Worker L AccountId World :=
  match w.pending[i]? with
  | none => w
  | some (reports, own) =>
      let (stored, result) := { w with pending := w.pending.eraseIdx i }.tryStoreOffchain reports
      match own, result with
      | true, .ok true =>
          { stored with
            aggregatedMisbehaviourReports := StorageMap.retain
              (fun key => decide (reports.sessionId ≤ key.2.1))
              (stored.aggregatedMisbehaviourReports.erase (reportKey reports)) }
      | _, _ => stored

/-- What the node knows of the chain. -/
def node : IncomingMessages.Node L :=
  match w.latest with
  | some s => chainNode s
  | none => ⟨none, fun _ => none, fun _ => none⟩

/-- The errors of the handlers are only logged. -/
def processIncomingDkgMessage (submitAt : Option ℕ) (signed : SignedDKGMessage) :
    Handled L AccountId World :=
  match signed.msg.payload with
  | .keygen _ =>
      ⟨{ w with keygenManager := w.keygenManager.deliverMessage signed }, none, .ok ()⟩
  | .offline _ | .vote _ => ⟨w, none, .ok ()⟩
  | .publicKeyBroadcast _ =>
      match verifySignatureAgainstAuthorities cfg.chain.crypto cfg.encode w.node signed with
      | .ok dkgMsg => w.handlePublicKeyBroadcast cfg submitAt dkgMsg
      | .error e => ⟨w, none, .error e⟩
  | .misbehaviourBroadcast _ =>
      match verifySignatureAgainstAuthorities cfg.chain.crypto cfg.encode w.node signed with
      | .ok dkgMsg => w.handleMisbehaviourReport cfg dkgMsg
      | .error e => ⟨w, none, .error e⟩

def processBlockNotification (majorSyncing : Bool) (s : State L AccountId World) :
    Worker L AccountId World :=
  match w.keygenManager.handler with
  | .idle =>
      if w.latest.all fun latest => decide (latest.blockNumber < s.blockNumber) then
        { w with
          latest := some s
          keygenManager := if majorSyncing then w.keygenManager
            else KeygenManager.step cfg.keygen w.keygenManager (.blockFinalized (headerOf s)) }
      else w
  | _ => w

end Worker

structure Node (L : Limits) (AccountId World : Type) where
  chain : State L AccountId World
  worker : Worker L AccountId World

inductive Event (L : Limits) (AccountId World : Type) where
  | chain (call : Call L AccountId World)
  | finality (majorSyncing : Bool)
  | advance
  | task (id : ℕ) (e : TaskEvent)
  | incoming (submitAt : Option ℕ) (signed : SignedDKGMessage)
  | gossipPublicKey (sessionId : ℕ) (pubKey : Bytes)
  | report (misbehaviourType : MisbehaviourType) (sessionId : ℕ) (offender : Public)
  | storePending (i : ℕ)

variable [DecidableEq AccountId]

def step (cfg : Config L AccountId World) (n : Node L AccountId World) :
    Event L AccountId World → Node L AccountId World
  | .chain call => { n with chain := MetadataRotation.step cfg.chain n.chain call }
  | .finality majorSyncing =>
      { n with worker := n.worker.processBlockNotification cfg majorSyncing n.chain }
  | .advance =>
      { n with
        worker := { n.worker with keygenManager := n.worker.keygenManager.advance cfg.keygen } }
  | .task id e =>
      { n with
        worker := { n.worker with keygenManager := n.worker.keygenManager.taskStep id e } }
  | .incoming submitAt signed =>
      { n with worker := (n.worker.processIncomingDkgMessage cfg submitAt signed).worker }
  | .gossipPublicKey sessionId pubKey =>
      { n with worker := n.worker.gossipPublicKey cfg sessionId pubKey }
  | .report misbehaviourType sessionId offender =>
      { n with
        worker := (n.worker.gossipMisbehaviourReport cfg misbehaviourType sessionId
          offender).worker }
  | .storePending i => { n with worker := n.worker.storePending i }

def sampleKeyStore : KeyStore sampleConfig.crypto where
  authorityPublicKey := samplePublic 1
  sign msg := some (sampleSignature 1 msg)
  recovers h := Option.some.inj h ▸ recoversTo_sampleSignature 1 _

def sampleGadget : Config runtimeLimits ℕ Unit where
  chain := sampleConfig
  encode _ := []
  keyStore := sampleKeyStore

def sampleStorage : LocalStorage runtimeLimits :=
  ⟨⟨.absent, .absent⟩, ⟨.absent, .absent⟩, .absent⟩

def sampleBroadcast (signer : UInt8) (payload : NetworkMsgPayload) : SignedDKGMessage where
  msg := ⟨samplePublic signer, none, payload, 0, 0, 0⟩
  signature := some (sampleSignature signer [])

def sampleKeyBroadcast (sessionId : ℕ) (key signer : UInt8) : PublicKeyMessage :=
  ⟨sessionId, (samplePublic key).toList, sampleSignature signer (samplePublic key).toList⟩

end DkgSubstrate.GossipMessages
