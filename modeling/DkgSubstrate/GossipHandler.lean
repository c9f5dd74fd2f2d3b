import DkgSubstrate.IncomingMessages
import DkgSubstrate.LruHashMap
import DkgSubstrate.PeerTable

/-!
The gossip handler, which keeps track of the peers that are connected and of the authorities
they claim to be, and passes on what they send.  A peer is told apart by what it knows; the
order in which the peers are visited does not matter.
-/

namespace DkgSubstrate.GossipHandler

open DkgSubstrate.IncomingMessages
open DkgSubstrate.Primitives
open DkgSubstrate.Runs
open DkgSubstrate.Words

abbrev MessageHash := FixedBytes 32

def maxKnownMessages : ℕ := 4096

def maxDuplicatedMessagesPerPeer : ℕ := 8

theorem maxKnownMessages_pos : 0 < maxKnownMessages := Nat.succ_pos _

structure HandshakeMessage where
  authorityId : Public
  peerId : Bytes
  signature : FixedBytes 65
deriving DecidableEq

inductive DKGNetworkMessage where
  | handshake (message : HandshakeMessage)
  | dkgMessage (message : SignedDKGMessage)
deriving DecidableEq

inductive ReputationChange where
  | goodMessage
  | unexpectedMessage
  | peerImpersonated
  | duplicateMessage
deriving DecidableEq

structure Config (PeerId : Type) where
  protocolName : String
  crypto : Crypto
  tryFrom : Bytes → Option PeerId
  recoverPrehashed : FixedBytes 65 → FixedBytes 32 → Option Public
  decode : Bytes → Option DKGNetworkMessage
  messageHash : SignedDKGMessage → MessageHash
  tryNewHandshake : Option HandshakeMessage

structure Peer where
  knownMessages : LruHashSet MessageHash maxKnownMessages
  messageCounter : LruHashMap MessageHash ℕ maxKnownMessages
  authorityId : Option Public

def Peer.new : Peer where
  knownMessages := .new maxKnownMessages_pos
  messageCounter := .new maxKnownMessages_pos
  authorityId := none

/-- The state of the handler, with what it has handed to the gadget, written to its peers and
reported of them. -/
structure State (PeerId : Type) where
  peers : PeerId → Option Peer
  authorityIdToPeerId : Public → Option PeerId
  pendingMessagesPeers : MessageHash → Option (List PeerId)
  gossipEnabled : Bool
  toReceiver : List SignedDKGMessage
  written : PeerId → List DKGNetworkMessage
  reported : List (PeerId × ReputationChange)

variable {PeerId : Type}

def State.new : State PeerId where
  peers _ := none
  authorityIdToPeerId _ := none
  pendingMessagesPeers _ := none
  gossipEnabled := false
  toReceiver := []
  written _ := []
  reported := []

def State.reportPeer (s : State PeerId) (who : PeerId) (change : ReputationChange) :
    State PeerId :=
  { s with reported := s.reported ++ [(who, change)] }

/-- The part of the state that says which peers are connected, and as which authorities. -/
def table (s : State PeerId) : PeerTable.Table PeerId Public where
  nameOf who := (s.peers who).map Peer.authorityId
  peerOf := s.authorityIdToPeerId

variable [DecidableEq PeerId] (cfg : Config PeerId)

def State.setPeer (s : State PeerId) (who : PeerId) (peer : Peer) : State PeerId :=
  { s with peers := Function.update s.peers who (some peer) }

def State.writeNotification (s : State PeerId) (toWho : PeerId) (message : DKGNetworkMessage) :
    State PeerId :=
  { s with written := Function.update s.written toWho (s.written toWho ++ [message]) }

def sendSignedDkgMessage (toWho : PeerId) (message : SignedDKGMessage) (s : State PeerId) :
    State PeerId :=
  match s.peers toWho with
  | none => s
  | some peer =>
      let known := peer.knownMessages.insert (cfg.messageHash message) ()
      let s := s.setPeer toWho { peer with knownMessages := known.1 }
      if known.2 then s.writeNotification toWho (.dkgMessage message) else s

def sendToAll (message : SignedDKGMessage) (s : State PeerId) : State PeerId :=
  { s with
    peers := fun peer => (sendSignedDkgMessage cfg peer message s).peers peer
    written := fun peer => (sendSignedDkgMessage cfg peer message s).written peer }

def gossipDkgSignedMessage (message : SignedDKGMessage) (s : State PeerId) : State PeerId :=
  let maybePeerId := message.msg.recipientId.bind s.authorityIdToPeerId
  sendToAll cfg message (match maybePeerId with
    | some peerId => sendSignedDkgMessage cfg peerId message s
    | none => s)

def receiveFrom (who : PeerId) (message : SignedDKGMessage) (peer : Peer) (s : State PeerId) :
    State PeerId :=
  let messageHash := cfg.messageHash message
  let peer := { peer with knownMessages := (peer.knownMessages.insert messageHash ()).1 }
  match s.pendingMessagesPeers messageHash with
  | none =>
      { (s.setPeer who peer).reportPeer who .goodMessage with
        toReceiver := s.toReceiver ++ [message]
        pendingMessagesPeers :=
          Function.update s.pendingMessagesPeers messageHash (some [who]) }
  | some senders =>
      if who ∈ senders then
        let old := (peer.messageCounter.get messageHash).getD 0
        let counter := (peer.messageCounter.insert messageHash (old + 1)).1
        let s := s.setPeer who { peer with messageCounter := counter }
        let s := if maxDuplicatedMessagesPerPeer ≤ old then s.reportPeer who .duplicateMessage
          else s
        { s with toReceiver := s.toReceiver ++ [message] }
      else
        { s.setPeer who peer with
          toReceiver := s.toReceiver ++ [message]
          pendingMessagesPeers :=
            Function.update s.pendingMessagesPeers messageHash (some (who :: senders)) }

def receive (who : PeerId) (message : SignedDKGMessage) (s : State PeerId) : State PeerId :=
  match s.peers who with
  | some peer => receiveFrom cfg who message peer s
  | none => s

def onSignedDkgMessage (who : PeerId) (message : SignedDKGMessage) (s : State PeerId) :
    State PeerId :=
  let s := receive cfg who message s
  if s.gossipEnabled then gossipDkgSignedMessage cfg message s else s

def HandshakeMessage.isValid (message : HandshakeMessage) (senderPeerId : PeerId) :
    Except DKGError Bool :=
  match cfg.tryFrom message.peerId with
  | none => .error .invalidPeerId
  | some msgPeerId =>
      if msgPeerId ≠ senderPeerId then .ok false
      else
        let msg := cfg.crypto.keccak256 (message.peerId ++ message.authorityId.toList)
        .ok (decide (cfg.recoverPrehashed message.signature msg = some message.authorityId))

def reportHandshake (who : PeerId) (message : HandshakeMessage) (s : State PeerId) :
    State PeerId :=
  match message.isValid cfg who with
  | .ok true => s
  | .ok false => s.reportPeer who .peerImpersonated
  | .error _ => s.reportPeer who .unexpectedMessage

/-- A peer that is not connected has no entry that could be changed. -/
def setAuthority (who : PeerId) (authorityId : Public) (s : State PeerId) : State PeerId :=
  { s with
    peers := Function.update s.peers who
      ((s.peers who).map fun peer => { peer with authorityId := some authorityId })
    authorityIdToPeerId := Function.update s.authorityIdToPeerId authorityId (some who) }

/-- What the check says is reported, and the handshake is taken in any case. -/
def onHandshakeMessage (who : PeerId) (message : HandshakeMessage) (s : State PeerId) :
    State PeerId :=
  setAuthority who message.authorityId (reportHandshake cfg who message s)

def onStreamOpened (remote : PeerId) (s : State PeerId) : State PeerId :=
  let s := match cfg.tryNewHandshake with
    | some message => s.writeNotification remote (.handshake message)
    | none => s
  s.setPeer remote .new

def onStreamClosed (remote : PeerId) (s : State PeerId) : State PeerId :=
  { s with
    peers := Function.update s.peers remote none
    authorityIdToPeerId := match (s.peers remote).bind Peer.authorityId with
      | some authorityId => Function.update s.authorityIdToPeerId authorityId none
      | none => s.authorityIdToPeerId }

def onNotification (remote : PeerId) (message : Bytes) (s : State PeerId) : State PeerId :=
  match cfg.decode message with
  | none => s.reportPeer remote .unexpectedMessage
  | some (.handshake h) => onHandshakeMessage cfg remote h s
  | some (.dkgMessage m) => onSignedDkgMessage cfg remote m s

/-- Streams are opened and closed, notifications come in one by one, and the controller sends
messages and turns the gossip on and off. -/
inductive Event (PeerId : Type) where
  | notificationStreamOpened (remote : PeerId) (protocol : String)
  | notificationStreamClosed (remote : PeerId) (protocol : String)
  | notificationReceived (remote : PeerId) (protocol : String) (message : Bytes)
  | sendMessage (recipient : PeerId) (message : SignedDKGMessage)
  | gossip (message : SignedDKGMessage)
  | setGossipEnabled (enabled : Bool)

def step (s : State PeerId) : Event PeerId → State PeerId
  | .notificationStreamOpened remote protocol =>
      if protocol = cfg.protocolName then onStreamOpened cfg remote s else s
  | .notificationStreamClosed remote protocol =>
      if protocol = cfg.protocolName then onStreamClosed remote s else s
  | .notificationReceived remote protocol message =>
      if protocol = cfg.protocolName then onNotification cfg remote message s else s
  | .sendMessage recipient message => sendSignedDkgMessage cfg recipient message s
  | .gossip message => gossipDkgSignedMessage cfg message s
  | .setGossipEnabled enabled => { s with gossipEnabled := enabled }

def onNotificationsReceived (remote : PeerId) :
    List (String × Bytes) → State PeerId → State PeerId
  | [], s => s
  | (protocol, message) :: rest, s =>
      if protocol ≠ cfg.protocolName then onNotificationsReceived remote rest s
      else
        let s := onNotification cfg remote message s
        if (cfg.decode message).isNone then s else onNotificationsReceived remote rest s

theorem onNotificationsReceived_eq_run (remote : PeerId) (messages : List (String × Bytes))
    (s : State PeerId) :
    ∃ seen, seen <+: messages ∧ onNotificationsReceived cfg remote messages s =
      run (step cfg) s (seen.map fun m => .notificationReceived remote m.1 m.2) := by
  induction messages generalizing s with
  | nil => exact ⟨[], List.prefix_rfl, rfl⟩
  | cons m rest ih =>
      obtain ⟨protocol, message⟩ := m
      rw [onNotificationsReceived]
      split
      · rename_i hforeign
        obtain ⟨seen, hprefix, hrun⟩ := ih s
        refine ⟨(protocol, message) :: seen, List.cons_prefix_cons.mpr ⟨rfl, hprefix⟩, ?_⟩
        rw [hrun, List.map_cons, run_cons, step, if_neg hforeign]
      · rename_i hours
        have hstep : step cfg s (.notificationReceived remote protocol message) =
            onNotification cfg remote message s := by
          rw [step, if_pos (not_not.mp hours)]
        split
        · refine ⟨[(protocol, message)], List.cons_prefix_cons.mpr ⟨rfl, List.nil_prefix⟩, ?_⟩
          rw [List.map_cons, List.map_nil, run_cons, run_nil, hstep]
        · obtain ⟨seen, hprefix, hrun⟩ := ih (onNotification cfg remote message s)
          refine ⟨(protocol, message) :: seen, List.cons_prefix_cons.mpr ⟨rfl, hprefix⟩, ?_⟩
          rw [hrun, List.map_cons, run_cons, hstep]

def HandshakeMessage.genuine (message : HandshakeMessage) (who : PeerId) : Bool :=
  message.isValid cfg who matches .ok true

def tableEvent : Event PeerId → PeerTable.Event PeerId Public
  | .notificationStreamOpened remote protocol =>
      if protocol = cfg.protocolName then .opened remote else .other
  | .notificationStreamClosed remote protocol =>
      if protocol = cfg.protocolName then .closed remote else .other
  | .notificationReceived remote protocol message =>
      if protocol = cfg.protocolName then
        match cfg.decode message with
        | some (.handshake h) => .claimed remote h.authorityId (h.genuine cfg remote)
        | _ => .other
      else .other
  | .sendMessage .. | .gossip .. | .setGossipEnabled .. => .other

section Table

variable {s : State PeerId} {who : PeerId} {peer : Peer}

omit [DecidableEq PeerId] in
theorem nameOf_table (s : State PeerId) (who : PeerId) :
    (table s).nameOf who = (s.peers who).map Peer.authorityId := rfl

theorem nameOf_table_update {s' : State PeerId} (entry : Option Peer)
    (h : s'.peers = Function.update s.peers who entry) :
    (table s').nameOf = Function.update (table s).nameOf who (entry.map Peer.authorityId) := by
  funext who'
  rw [nameOf_table, h]
  exact Function.apply_update (fun _ => Option.map Peer.authorityId) s.peers who entry who'

theorem table_setPeer_of_eq {old : Peer} (h : s.peers who = some old)
    (hauthority : peer.authorityId = old.authorityId) :
    table (s.setPeer who peer) = table s := by
  refine PeerTable.Table.ext ?_ rfl
  have hname : (table s).nameOf who = some peer.authorityId := by
    rw [nameOf_table, h, hauthority]
    rfl
  have hupdate : (table (s.setPeer who peer)).nameOf =
      Function.update (table s).nameOf who (some peer.authorityId) :=
    nameOf_table_update (some peer) rfl
  rw [hupdate, ← hname, Function.update_eq_self]

theorem table_sendSignedDkgMessage (message : SignedDKGMessage) :
    table (sendSignedDkgMessage cfg who message s) = table s := by
  rw [sendSignedDkgMessage]
  split
  · rfl
  · rename_i peer hpeer
    simp only
    split
    · exact table_setPeer_of_eq hpeer rfl
    · exact table_setPeer_of_eq hpeer rfl

theorem table_sendToAll (message : SignedDKGMessage) :
    table (sendToAll cfg message s) = table s := by
  refine PeerTable.Table.ext ?_ rfl
  funext who
  exact congrArg (fun t => t.nameOf who) (table_sendSignedDkgMessage cfg message)

theorem table_gossipDkgSignedMessage (message : SignedDKGMessage) :
    table (gossipDkgSignedMessage cfg message s) = table s := by
  rw [gossipDkgSignedMessage, table_sendToAll]
  split
  · exact table_sendSignedDkgMessage cfg message
  · rfl

theorem table_receiveFrom (hpeer : s.peers who = some peer) (message : SignedDKGMessage) :
    table (receiveFrom cfg who message peer s) = table s := by
  rw [receiveFrom]
  split
  · exact table_setPeer_of_eq hpeer rfl
  · split
    · simp only
      split
      · exact table_setPeer_of_eq hpeer rfl
      · exact table_setPeer_of_eq hpeer rfl
    · exact table_setPeer_of_eq hpeer rfl

theorem table_receive (message : SignedDKGMessage) :
    table (receive cfg who message s) = table s := by
  rw [receive]
  split
  · rename_i hpeer
    exact table_receiveFrom cfg hpeer message
  · rfl

theorem table_onSignedDkgMessage (message : SignedDKGMessage) :
    table (onSignedDkgMessage cfg who message s) = table s := by
  simp only [onSignedDkgMessage]
  split
  · rw [table_gossipDkgSignedMessage, table_receive]
  · exact table_receive cfg message

theorem table_reportHandshake (message : HandshakeMessage) :
    table (reportHandshake cfg who message s) = table s := by
  rw [reportHandshake]
  split <;> rfl

theorem table_setAuthority (authorityId : Public) (genuine : Bool) :
    table (setAuthority who authorityId s) =
      PeerTable.step (table s) (.claimed who authorityId genuine) := by
  refine PeerTable.Table.ext ?_ rfl
  rw [nameOf_table_update (s := s) _ rfl, Option.map_map, PeerTable.step, nameOf_table,
    Option.map_map]
  rfl

theorem table_onHandshakeMessage (message : HandshakeMessage) (genuine : Bool) :
    table (onHandshakeMessage cfg who message s) =
      PeerTable.step (table s) (.claimed who message.authorityId genuine) := by
  rw [onHandshakeMessage, table_setAuthority message.authorityId genuine,
    table_reportHandshake]

theorem table_onStreamOpened :
    table (onStreamOpened cfg who s) = PeerTable.step (table s) (.opened who) := by
  rw [onStreamOpened]
  split
  · exact PeerTable.Table.ext (nameOf_table_update (some .new) rfl) rfl
  · exact PeerTable.Table.ext (nameOf_table_update (some .new) rfl) rfl

theorem table_onStreamClosed :
    table (onStreamClosed who s) = PeerTable.step (table s) (.closed who) := by
  refine PeerTable.Table.ext (nameOf_table_update none rfl) ?_
  rw [PeerTable.step, nameOf_table]
  simp only [table, onStreamClosed]
  cases s.peers who with
  | none => rfl
  | some peer => cases h : peer.authorityId <;> simp [h]

theorem table_onNotification (message : Bytes) :
    table (onNotification cfg who message s) = PeerTable.step (table s)
      (match cfg.decode message with
        | some (.handshake h) => .claimed who h.authorityId (h.genuine cfg who)
        | _ => .other) := by
  rw [onNotification]
  cases cfg.decode message with
  | none => rfl
  | some m =>
      cases m with
      | handshake h => exact table_onHandshakeMessage cfg h _
      | dkgMessage m => exact table_onSignedDkgMessage cfg m

end Table

theorem simulates_peerTable :
    Simulates (step cfg) PeerTable.step table (tableEvent cfg) := by
  intro s e
  cases e with
  | notificationStreamOpened remote protocol =>
      rw [step, tableEvent]
      split
      · exact table_onStreamOpened cfg
      · rfl
  | notificationStreamClosed remote protocol =>
      rw [step, tableEvent]
      split
      · exact table_onStreamClosed
      · rfl
  | notificationReceived remote protocol message =>
      rw [step, tableEvent]
      split
      · exact table_onNotification cfg message
      · rfl
  | sendMessage recipient message => exact table_sendSignedDkgMessage cfg message
  | gossip message => exact table_gossipDkgSignedMessage cfg message
  | setGossipEnabled enabled => rfl

def SentValidHandshake (who : PeerId) (authorityId : Public) (past : List (Event PeerId)) :
    Prop :=
  ∃ message h, .notificationReceived who cfg.protocolName message ∈ past ∧
    cfg.decode message = some (.handshake h) ∧ h.authorityId = authorityId ∧
    h.isValid cfg who = .ok true

def PeersBacked (s : State PeerId × List (Event PeerId)) : Prop :=
  ∀ authorityId who, s.1.authorityIdToPeerId authorityId = some who →
    (∃ peer, s.1.peers who = some peer ∧ peer.authorityId = some authorityId) ∧
      SentValidHandshake cfg who authorityId s.2

/-- A stream is not opened again for a peer that is found under an authority.  A handshake
comes from a peer that is connected and not found under another authority, and it is valid or
follows a valid one for the same authority. -/
def KeepsPeersBacked (s : State PeerId × List (Event PeerId)) : Event PeerId → Prop
  | .notificationStreamOpened remote protocol =>
      protocol = cfg.protocolName →
        ∀ authorityId, s.1.authorityIdToPeerId authorityId ≠ some remote
  | .notificationReceived remote protocol message =>
      protocol = cfg.protocolName → ∀ h, cfg.decode message = some (.handshake h) →
        (s.1.peers remote).isSome = true ∧
        (h.isValid cfg remote = .ok true ∨
          SentValidHandshake cfg remote h.authorityId s.2) ∧
        ∀ authorityId, s.1.authorityIdToPeerId authorityId = some remote →
          authorityId = h.authorityId
  | _ => True

variable {cfg}

theorem genuine_iff {h : HandshakeMessage} {who : PeerId} :
    h.genuine cfg who = true ↔ h.isValid cfg who = .ok true := by
  rw [HandshakeMessage.genuine]
  split
  · rename_i hvalid
    exact iff_of_true rfl hvalid
  · rename_i hinvalid
    exact iff_of_false Bool.false_ne_true hinvalid

theorem claimed_mem_iff {who : PeerId} {authorityId : Public} {past : List (Event PeerId)} :
    .claimed who authorityId true ∈ past.map (tableEvent cfg) ↔
      SentValidHandshake cfg who authorityId past := by
  rw [List.mem_map]
  constructor
  · rintro ⟨e, he, hclaimed⟩
    cases e with
    | notificationReceived remote protocol message =>
        rw [tableEvent] at hclaimed
        split at hclaimed
        · rename_i hprotocol
          split at hclaimed
          · rename_i h hdecode
            injection hclaimed with hwho hauthority hgenuine
            subst hwho hprotocol
            exact ⟨message, h, he, hdecode, hauthority, genuine_iff.mp hgenuine⟩
          · cases hclaimed
        · cases hclaimed
    | notificationStreamOpened | notificationStreamClosed =>
        rw [tableEvent] at hclaimed
        split at hclaimed <;> cases hclaimed
    | sendMessage | gossip | setGossipEnabled => cases hclaimed
  · rintro ⟨message, h, he, hdecode, rfl, hvalid⟩
    refine ⟨_, he, ?_⟩
    rw [tableEvent, if_pos rfl, hdecode]
    simp only [genuine_iff.mpr hvalid]

theorem peersBacked_iff {s : State PeerId × List (Event PeerId)} :
    PeersBacked cfg s ↔ PeerTable.Backed (table s.1) (s.2.map (tableEvent cfg)) := by
  simp only [PeersBacked, PeerTable.Backed, claimed_mem_iff, nameOf_table,
    Option.map_eq_some_iff]
  rfl

theorem keepsPeersBacked_iff {s : State PeerId × List (Event PeerId)} {e : Event PeerId} :
    KeepsPeersBacked cfg s e ↔
      PeerTable.Harmless (table s.1) (s.2.map (tableEvent cfg)) (tableEvent cfg e) := by
  cases e with
  | notificationStreamOpened remote protocol =>
      rw [KeepsPeersBacked, tableEvent]
      split
      · rename_i hprotocol
        exact forall_prop_of_true hprotocol
      · rename_i hprotocol
        exact iff_of_true (fun h => absurd h hprotocol) trivial
  | notificationReceived remote protocol message =>
      rw [KeepsPeersBacked, tableEvent]
      split
      · rename_i hprotocol
        rw [forall_prop_of_true hprotocol]
        cases cfg.decode message with
        | none => exact iff_of_true nofun trivial
        | some m =>
            cases m with
            | dkgMessage m => exact iff_of_true nofun trivial
            | handshake h =>
                simp only [PeerTable.Harmless, claimed_mem_iff, genuine_iff, nameOf_table,
                  Option.isSome_map, Option.some.injEq, DKGNetworkMessage.handshake.injEq,
                  forall_eq']
                rfl
      · rename_i hprotocol
        exact iff_of_true (fun h => absurd h hprotocol) trivial
  | notificationStreamClosed remote protocol =>
      rw [tableEvent]
      split <;> exact iff_of_true trivial trivial
  | sendMessage | gossip | setGossipEnabled => exact iff_of_true trivial trivial

/-- The peers found under the authorities are connected, go by them and have proved it,
exactly if no event of the run breaks that. -/
theorem authorityIdToPeerId_backed_iff (cfg : Config PeerId) (es : List (Event PeerId)) :
    Always (withPast (step cfg)) (PeersBacked cfg) (State.new, []) es ↔
      StepsMeet (withPast (step cfg)) (KeepsPeersBacked cfg) (State.new, []) es := by
  have hsim := (simulates_peerTable cfg).withPast
  calc
    Always (withPast (step cfg)) (PeersBacked cfg) (State.new, []) es ↔
        Always (withPast PeerTable.step) (fun s => PeerTable.Backed s.1 s.2)
          (PeerTable.Table.empty, []) (es.map (tableEvent cfg)) :=
      hsim.always_iff fun _ => peersBacked_iff
    _ ↔ StepsMeet (withPast PeerTable.step) (fun s => PeerTable.Harmless s.1 s.2)
          (PeerTable.Table.empty, []) (es.map (tableEvent cfg)) :=
      PeerTable.always_backed_iff _
    _ ↔ StepsMeet (withPast (step cfg)) (KeepsPeersBacked cfg) (State.new, []) es := by
      symm
      exact hsim.stepsMeet_iff fun _ _ => keepsPeersBacked_iff

def sampleAuthority : Public := List.Vector.replicate 33 7

def sampleHandshake : HandshakeMessage := ⟨sampleAuthority, [], List.Vector.replicate 65 0⟩

def sampleConfig : Config Bool where
  protocolName := "/webb-tools/dkg/keygen/1"
  crypto := { keccak256 := fun _ => List.Vector.replicate 32 0
              blake2128 := fun _ => List.Vector.replicate 16 0
              secp256k1EcdsaRecover := fun _ _ => none
              parseCompressed := fun _ => none }
  tryFrom _ := some true
  recoverPrehashed _ _ := none
  decode _ := some (.handshake sampleHandshake)
  messageHash _ := List.Vector.replicate 32 0
  tryNewHandshake := none

def sampleEvents : List (Event Bool) :=
  [.notificationStreamOpened true "/webb-tools/dkg/keygen/1",
    .notificationReceived true "/webb-tools/dkg/keygen/1" []]

theorem impostor_found_under_authority :
    ¬PeersBacked sampleConfig
      (run (withPast (step sampleConfig)) (State.new, []) sampleEvents) := by
  intro h
  obtain ⟨-, message, handshake, -, hdecode, -, hvalid⟩ := h sampleAuthority true rfl
  cases hdecode
  cases hvalid

end DkgSubstrate.GossipHandler
