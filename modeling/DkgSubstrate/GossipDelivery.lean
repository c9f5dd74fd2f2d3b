import DkgSubstrate.GossipHandler
import DkgSubstrate.SampleRuntime

/-!
What becomes of the messages that are gossiped.  A peer gets a message unless it knows one with
the same hash, and the hash is only of a part of the message.
-/

namespace DkgSubstrate.GossipDelivery

open DkgSubstrate.GossipHandler
open DkgSubstrate.IncomingMessages
open DkgSubstrate.Primitives
open DkgSubstrate.Runs
open DkgSubstrate.Words

/-- The hash of the block type and the encoding of the messages that are hashed as a whole. -/
structure Codec where
  hashOf : Bytes → MessageHash
  encodeVote : DKGVoteMessage → Bytes
  encodePublicKey : PublicKeyMessage → Bytes
  encodeMisbehaviour : MisbehaviourMessage → Bytes

/-- Of a keygen or an offline message only the raw bytes for the state machine are hashed. -/
def bytesToHash (codec : Codec) : NetworkMsgPayload → Bytes
  | .keygen m => m.keygenMsg
  | .offline m => m.offlineMsg
  | .vote m => codec.encodeVote m
  | .publicKeyBroadcast m => codec.encodePublicKey m
  | .misbehaviourBroadcast m => codec.encodeMisbehaviour m

def messageHash (codec : Codec) (message : SignedDKGMessage) : MessageHash :=
  codec.hashOf (bytesToHash codec message.msg.payload)

variable {PeerId : Type}

/-- The handler with this hash of the messages. -/
def hashed (codec : Codec) (cfg : Config PeerId) : Config PeerId :=
  { cfg with messageHash := messageHash codec }

/-- One of the authorities has signed the message. -/
def CorrectlySigned (crypto : Crypto) (encode : DKGMessage → Bytes) (authorities : List Public)
    (message : SignedDKGMessage) : Prop :=
  ∃ signature, message.signature = some signature ∧
    (verifySignerFromSetEcdsa crypto authorities (encode message.msg) signature).2 = true

def Received (cfg : Config PeerId) (past : List (Event PeerId)) (who : PeerId)
    (message : SignedDKGMessage) : Prop :=
  ∃ bytes, .notificationReceived who cfg.protocolName bytes ∈ past ∧
    cfg.decode bytes = some (.dkgMessage message)

def Exchanged (cfg : Config PeerId) (s : State PeerId × List (Event PeerId)) (who : PeerId)
    (message : SignedDKGMessage) : Prop :=
  .dkgMessage message ∈ s.1.written who ∨ Received cfg s.2 who message

/-- The message that the handler has to pass on at an event. -/
def gossiped (cfg : Config PeerId) (s : State PeerId) : Event PeerId → Option SignedDKGMessage
  | .notificationReceived _ protocol bytes =>
      if protocol = cfg.protocolName ∧ s.gossipEnabled = true then
        match cfg.decode bytes with
        | some (.dkgMessage message) => some message
        | _ => none
      else none
  | .gossip message => if s.gossipEnabled = true then some message else none
  | _ => none

variable [DecidableEq PeerId]

/-- Every correctly signed message that is to be passed on reaches every peer that is connected
and has not sent it itself. -/
def Delivers (cfg : Config PeerId) (signed : SignedDKGMessage → Prop)
    (s : State PeerId × List (Event PeerId)) (e : Event PeerId) : Prop :=
  ∀ message, gossiped cfg s.1 e = some message → signed message →
    ∀ who, (s.1.peers who).isSome = true → Exchanged cfg (withPast (step cfg) s e) who message

/-- No peer has exchanged another message with the hash of a correctly signed message that is
to be passed on. -/
def Unambiguous (cfg : Config PeerId) (signed : SignedDKGMessage → Prop)
    (s : State PeerId × List (Event PeerId)) (e : Event PeerId) : Prop :=
  ∀ message, gossiped cfg s.1 e = some message → signed message →
    ∀ who, (s.1.peers who).isSome = true → ∀ other, Exchanged cfg s who other →
      cfg.messageHash other = cfg.messageHash message → other = message

variable {cfg : Config PeerId} {s : State PeerId} {who : PeerId}

def KnowsExchanged (cfg : Config PeerId) (received : SignedDKGMessage → Prop)
    (s : State PeerId) (who : PeerId) : Prop :=
  ∀ peer, s.peers who = some peer → ∀ hash ∈ peer.knownMessages.keys,
    ∃ message, cfg.messageHash message = hash ∧
      (.dkgMessage message ∈ s.written who ∨ received message)

theorem peers_send_of_ne {toWho : PeerId} (message : SignedDKGMessage) (h : who ≠ toWho) :
    (sendSignedDkgMessage cfg toWho message s).peers who = s.peers who := by
  rw [sendSignedDkgMessage]
  split
  · rfl
  · simp only
    split
    · exact Function.update_of_ne h _ _
    · exact Function.update_of_ne h _ _

theorem peers_send_self (message : SignedDKGMessage) :
    (sendSignedDkgMessage cfg who message s).peers who = (s.peers who).map fun peer =>
      { peer with
        knownMessages := (peer.knownMessages.insert (cfg.messageHash message) ()).1 } := by
  rw [sendSignedDkgMessage]
  split
  · rename_i hpeer
    rw [hpeer]
    rfl
  · rename_i peer hpeer
    rw [hpeer]
    simp only
    split
    · exact Function.update_self who _ _
    · exact Function.update_self who _ _

theorem written_send (toWho : PeerId) (message : SignedDKGMessage) {m : DKGNetworkMessage}
    (h : m ∈ s.written who) : m ∈ (sendSignedDkgMessage cfg toWho message s).written who := by
  rw [sendSignedDkgMessage]
  split
  · exact h
  · simp only
    split
    · by_cases heq : who = toWho
      · subst heq
        simp only [State.writeNotification, State.setPeer, Function.update_self]
        exact List.mem_append_left _ h
      · simp only [State.writeNotification, State.setPeer, Function.update_of_ne heq]
        exact h
    · exact h

theorem written_send_of_new {peer : Peer} {message : SignedDKGMessage}
    (hpeer : s.peers who = some peer)
    (hnew : cfg.messageHash message ∉ peer.knownMessages.keys) :
    .dkgMessage message ∈ (sendSignedDkgMessage cfg who message s).written who := by
  simp only [sendSignedDkgMessage, hpeer, LruHashMap.insert_snd_iff.mpr hnew, if_true,
    State.writeNotification, Function.update_self]
  exact List.mem_append_right _ List.mem_cons_self

theorem knowsExchanged_send {received : SignedDKGMessage → Prop} (toWho : PeerId)
    (message : SignedDKGMessage) (h : KnowsExchanged cfg received s who) :
    KnowsExchanged cfg received (sendSignedDkgMessage cfg toWho message s) who := by
  intro peer' hpeer' hash hhash
  have hold : ∀ peer, s.peers who = some peer → hash ∈ peer.knownMessages.keys →
      ∃ m, cfg.messageHash m = hash ∧
        (.dkgMessage m ∈ (sendSignedDkgMessage cfg toWho message s).written who ∨
          received m) := by
    intro peer hpeer hknown
    obtain ⟨m, hm, hexchanged⟩ := h peer hpeer hash hknown
    exact ⟨m, hm, hexchanged.imp_left (written_send toWho message)⟩
  by_cases heq : who = toWho
  · subst heq
    rw [peers_send_self] at hpeer'
    obtain ⟨peer, hpeer, rfl⟩ := Option.map_eq_some_iff.mp hpeer'
    by_cases hknown : hash ∈ peer.knownMessages.keys
    · exact hold peer hpeer hknown
    · obtain rfl := (LruHashMap.mem_keys_of_insert hhash).resolve_right hknown
      exact ⟨message, rfl, .inl (written_send_of_new hpeer hknown)⟩
  · rw [peers_send_of_ne message heq] at hpeer'
    exact hold peer' hpeer' hhash

theorem knowsExchanged_gossip {received : SignedDKGMessage → Prop} (message : SignedDKGMessage)
    (h : KnowsExchanged cfg received s who) :
    KnowsExchanged cfg received (gossipDkgSignedMessage cfg message s) who := by
  have hall : ∀ t : State PeerId, KnowsExchanged cfg received t who →
      KnowsExchanged cfg received (sendToAll cfg message t) who :=
    fun t ht => knowsExchanged_send who message ht
  rw [gossipDkgSignedMessage]
  refine hall _ ?_
  split
  · exact knowsExchanged_send _ message h
  · exact h

theorem written_gossip (message : SignedDKGMessage) {m : DKGNetworkMessage}
    (h : m ∈ s.written who) : m ∈ (gossipDkgSignedMessage cfg message s).written who := by
  have hall : ∀ t : State PeerId, m ∈ t.written who →
      m ∈ (sendToAll cfg message t).written who :=
    fun t ht => written_send who message ht
  rw [gossipDkgSignedMessage]
  refine hall _ ?_
  split
  · exact written_send _ message h
  · exact h

theorem written_gossip_of_new {peer : Peer} {message : SignedDKGMessage}
    (hpeer : s.peers who = some peer)
    (hnew : cfg.messageHash message ∉ peer.knownMessages.keys) :
    .dkgMessage message ∈ (gossipDkgSignedMessage cfg message s).written who := by
  have hall : ∀ t : State PeerId, t.peers who = some peer →
      .dkgMessage message ∈ (sendToAll cfg message t).written who :=
    fun t ht => written_send_of_new ht hnew
  rw [gossipDkgSignedMessage]
  split
  · rename_i first hfirst
    by_cases heq : who = first
    · -- The message is written before the round over all peers.
      subst heq
      exact written_send who message (written_send_of_new hpeer hnew)
    · exact hall _ (by rw [peers_send_of_ne message heq, hpeer])
  · exact hall s hpeer

theorem exchanged_gossip {received : SignedDKGMessage → Prop} {message : SignedDKGMessage}
    (hconnected : (s.peers who).isSome = true) (h : KnowsExchanged cfg received s who)
    (hunique : ∀ other, .dkgMessage other ∈ s.written who ∨ received other →
      cfg.messageHash other = cfg.messageHash message → other = message) :
    .dkgMessage message ∈ (gossipDkgSignedMessage cfg message s).written who ∨
      received message := by
  obtain ⟨peer, hpeer⟩ := Option.isSome_iff_exists.mp hconnected
  by_cases hknown : cfg.messageHash message ∈ peer.knownMessages.keys
  · obtain ⟨other, hhash, hexchanged⟩ := h peer hpeer _ hknown
    obtain rfl := hunique other hexchanged hhash
    exact hexchanged.imp_left (written_gossip other)
  · exact .inl (written_gossip_of_new hpeer hknown)

structure Receives (cfg : Config PeerId) (sender : PeerId) (message : SignedDKGMessage)
    (s t : State PeerId) : Prop where
  written : t.written = s.written
  gossipEnabled : t.gossipEnabled = s.gossipEnabled
  others : ∀ who, who ≠ sender → t.peers who = s.peers who
  known : ∀ peer', t.peers sender = some peer' → ∃ peer, s.peers sender = some peer ∧
    peer'.knownMessages = (peer.knownMessages.insert (cfg.messageHash message) ()).1

theorem receive_receives (cfg : Config PeerId) (sender : PeerId) (message : SignedDKGMessage)
    (s : State PeerId) :
    Receives cfg sender message s (receive cfg sender message s) := by
  rw [receive]
  split
  · rename_i peer hpeer
    have hreceives : ∀ (t : State PeerId) (peer' : Peer), t.written = s.written →
        t.gossipEnabled = s.gossipEnabled →
        t.peers = Function.update s.peers sender (some peer') →
        peer'.knownMessages = (peer.knownMessages.insert (cfg.messageHash message) ()).1 →
        Receives cfg sender message s t := by
      intro t peer' hwritten hgossip hpeers hknown
      refine ⟨hwritten, hgossip, ?_, ?_⟩
      · intro who hne
        rw [hpeers, Function.update_of_ne hne]
      · intro found hfound
        rw [hpeers, Function.update_self] at hfound
        rw [← Option.some.inj hfound]
        exact ⟨peer, hpeer, hknown⟩
    rw [receiveFrom]
    split
    · exact hreceives _ _ rfl rfl rfl rfl
    · split
      · simp only
        split
        · exact hreceives _ _ rfl rfl rfl rfl
        · exact hreceives _ _ rfl rfl rfl rfl
      · exact hreceives _ _ rfl rfl rfl rfl
  · rename_i hnone
    refine ⟨rfl, rfl, fun _ _ => rfl, ?_⟩
    intro peer' hpeer'
    rw [hnone] at hpeer'
    cases hpeer'

theorem knowsExchanged_receive {received : SignedDKGMessage → Prop} {sender : PeerId}
    {message : SignedDKGMessage} (h : KnowsExchanged cfg received s who)
    (hreceived : who = sender → received message) :
    KnowsExchanged cfg received (receive cfg sender message s) who := by
  have hreceives := receive_receives cfg sender message s
  intro peer' hpeer' hash hhash
  rw [hreceives.written]
  by_cases heq : who = sender
  · subst heq
    obtain ⟨peer, hpeer, hknown⟩ := hreceives.known peer' hpeer'
    rw [hknown] at hhash
    rcases LruHashMap.mem_keys_of_insert hhash with rfl | hold
    · exact ⟨message, rfl, .inr (hreceived rfl)⟩
    · exact h peer hpeer hash hold
  · rw [hreceives.others who heq] at hpeer'
    exact h peer' hpeer' hash hhash

theorem knowsExchanged_onSignedDkgMessage {received : SignedDKGMessage → Prop}
    {sender : PeerId} {message : SignedDKGMessage} (h : KnowsExchanged cfg received s who)
    (hreceived : who = sender → received message) :
    KnowsExchanged cfg received (onSignedDkgMessage cfg sender message s) who := by
  have hknows := knowsExchanged_receive h hreceived
  simp only [onSignedDkgMessage]
  split
  · exact knowsExchanged_gossip message hknows
  · exact hknows

omit [DecidableEq PeerId] in
theorem KnowsExchanged.of_known {received received' : SignedDKGMessage → Prop}
    {t : State PeerId} (h : KnowsExchanged cfg received s who)
    (hreceived : ∀ m, received m → received' m)
    (hwritten : ∀ m, m ∈ s.written who → m ∈ t.written who)
    (hknown : ∀ peer', t.peers who = some peer' → peer'.knownMessages.keys = [] ∨
      ∃ peer, s.peers who = some peer ∧ peer'.knownMessages = peer.knownMessages) :
    KnowsExchanged cfg received' t who := by
  intro peer' hpeer' hash hhash
  rcases hknown peer' hpeer' with hnil | ⟨peer, hpeer, heq⟩
  · rw [hnil] at hhash
    cases hhash
  · rw [heq] at hhash
    obtain ⟨message, hmessage, hexchanged⟩ := h peer hpeer hash hhash
    exact ⟨message, hmessage, hexchanged.imp (hwritten _) (hreceived message)⟩

theorem knowsExchanged_onHandshakeMessage {received : SignedDKGMessage → Prop}
    (sender : PeerId) (message : HandshakeMessage) (h : KnowsExchanged cfg received s who) :
    KnowsExchanged cfg received (onHandshakeMessage cfg sender message s) who := by
  have hreport : (reportHandshake cfg sender message s).peers = s.peers ∧
      (reportHandshake cfg sender message s).written = s.written := by
    rw [reportHandshake]
    split <;> exact ⟨rfl, rfl⟩
  refine h.of_known (fun _ => id) ?_ ?_
  · intro m hm
    simp only [onHandshakeMessage, setAuthority, hreport.2]
    exact hm
  · intro peer' hpeer'
    refine .inr ?_
    simp only [onHandshakeMessage, setAuthority, hreport.1] at hpeer'
    by_cases heq : who = sender
    · subst heq
      rw [Function.update_self] at hpeer'
      obtain ⟨peer, hpeer, rfl⟩ := Option.map_eq_some_iff.mp hpeer'
      exact ⟨peer, hpeer, rfl⟩
    · rw [Function.update_of_ne heq] at hpeer'
      exact ⟨peer', hpeer', rfl⟩

theorem knowsExchanged_onStreamOpened {received : SignedDKGMessage → Prop} (remote : PeerId)
    (h : KnowsExchanged cfg received s who) :
    KnowsExchanged cfg received (onStreamOpened cfg remote s) who := by
  have hopened : ∀ t : State PeerId, KnowsExchanged cfg received t who →
      KnowsExchanged cfg received (t.setPeer remote .new) who := by
    intro t ht
    refine ht.of_known (fun _ => id) (fun _ => id) ?_
    intro peer' hpeer'
    simp only [State.setPeer] at hpeer'
    by_cases heq : who = remote
    · subst heq
      rw [Function.update_self] at hpeer'
      rw [← Option.some.inj hpeer']
      exact .inl rfl
    · rw [Function.update_of_ne heq] at hpeer'
      exact .inr ⟨peer', hpeer', rfl⟩
  rw [onStreamOpened]
  split
  · refine hopened _ (h.of_known (fun _ => id) ?_ fun peer' hpeer' => .inr ⟨peer', hpeer', rfl⟩)
    intro m hm
    simp only [State.writeNotification, Function.update_apply]
    split
    · rename_i heq
      subst heq
      exact List.mem_append_left _ hm
    · exact hm
  · exact hopened s h

theorem knowsExchanged_onStreamClosed {received : SignedDKGMessage → Prop} (remote : PeerId)
    (h : KnowsExchanged cfg received s who) :
    KnowsExchanged cfg received (onStreamClosed remote s) who := by
  refine h.of_known (fun _ => id) (fun _ => id) ?_
  intro peer' hpeer'
  simp only [onStreamClosed, Function.update_apply] at hpeer'
  split at hpeer'
  · cases hpeer'
  · exact .inr ⟨peer', hpeer', rfl⟩

def Known (cfg : Config PeerId) (s : State PeerId × List (Event PeerId)) : Prop :=
  ∀ who, KnowsExchanged cfg (Received cfg s.2 who) s.1 who

omit [DecidableEq PeerId] in
theorem Received.append {past : List (Event PeerId)} {message : SignedDKGMessage}
    (h : Received cfg past who message) (e : Event PeerId) :
    Received cfg (past ++ [e]) who message := by
  obtain ⟨bytes, hmem, hdecode⟩ := h
  exact ⟨bytes, List.mem_append_left _ hmem, hdecode⟩

theorem known_step {s : State PeerId × List (Event PeerId)} (h : Known cfg s)
    (e : Event PeerId) : Known cfg (withPast (step cfg) s e) := by
  intro who
  have hwho : KnowsExchanged cfg (Received cfg (s.2 ++ [e]) who) s.1 who :=
    (h who).of_known (fun _ hm => hm.append e) (fun _ => id)
      fun peer' hpeer' => .inr ⟨peer', hpeer', rfl⟩
  cases e with
  | notificationStreamOpened remote protocol =>
      simp only [withPast, step]
      split
      · exact knowsExchanged_onStreamOpened remote hwho
      · exact hwho
  | notificationStreamClosed remote protocol =>
      simp only [withPast, step]
      split
      · exact knowsExchanged_onStreamClosed remote hwho
      · exact hwho
  | notificationReceived remote protocol bytes =>
      simp only [withPast, step]
      split
      · rename_i hprotocol
        rw [onNotification]
        split
        · exact hwho
        · exact knowsExchanged_onHandshakeMessage remote _ hwho
        · rename_i message hdecode
          refine knowsExchanged_onSignedDkgMessage hwho ?_
          rintro rfl
          refine ⟨bytes, List.mem_append_right _ ?_, hdecode⟩
          rw [hprotocol]
          exact List.mem_singleton_self _
      · exact hwho
  | sendMessage recipient message => exact knowsExchanged_send recipient message hwho
  | gossip message => exact knowsExchanged_gossip message hwho
  | setGossipEnabled enabled => exact hwho

omit [DecidableEq PeerId] in
theorem gossiped_notificationReceived {remote : PeerId} {protocol : String} {bytes : Bytes}
    {message : SignedDKGMessage}
    (h : gossiped cfg s (.notificationReceived remote protocol bytes) = some message) :
    protocol = cfg.protocolName ∧ s.gossipEnabled = true ∧
      cfg.decode bytes = some (.dkgMessage message) := by
  rw [gossiped] at h
  split at h
  · rename_i hours
    split at h
    · rename_i m hdecode
      rw [← Option.some.inj h]
      exact ⟨hours.1, hours.2, hdecode⟩
    · cases h
  · cases h

theorem exchanged_onSignedDkgMessage {received : SignedDKGMessage → Prop} {sender : PeerId}
    {message : SignedDKGMessage} (hne : who ≠ sender) (henabled : s.gossipEnabled = true)
    (hconnected : (s.peers who).isSome = true) (h : KnowsExchanged cfg received s who)
    (hunique : ∀ other, .dkgMessage other ∈ s.written who ∨ received other →
      cfg.messageHash other = cfg.messageHash message → other = message) :
    .dkgMessage message ∈ (onSignedDkgMessage cfg sender message s).written who ∨
      received message := by
  have hreceives := receive_receives cfg sender message s
  simp only [onSignedDkgMessage, hreceives.gossipEnabled, henabled, if_true]
  refine exchanged_gossip ?_ (knowsExchanged_receive h fun heq => absurd heq hne) ?_
  · rw [hreceives.others who hne]
    exact hconnected
  · rw [hreceives.written]
    exact hunique

theorem delivers_of_unambiguous {signed : SignedDKGMessage → Prop}
    {s : State PeerId × List (Event PeerId)} {e : Event PeerId} (h : Known cfg s)
    (hunambiguous : Unambiguous cfg signed s e) : Delivers cfg signed s e := by
  intro message hgossiped hsigned who hconnected
  have hunique := hunambiguous message hgossiped hsigned who hconnected
  cases e with
  | gossip m =>
      simp only [gossiped] at hgossiped
      split at hgossiped
      · obtain rfl := Option.some.inj hgossiped
        have hexchanged := exchanged_gossip hconnected (h who) hunique
        exact hexchanged.imp_right fun hreceived => hreceived.append _
      · cases hgossiped
  | notificationReceived remote protocol bytes =>
      obtain ⟨rfl, henabled, hdecode⟩ := gossiped_notificationReceived hgossiped
      by_cases heq : who = remote
      · subst heq
        exact .inr ⟨bytes, List.mem_append_right _ (List.mem_singleton_self _), hdecode⟩
      · have hexchanged :=
          exchanged_onSignedDkgMessage heq henabled hconnected (h who) hunique
        simp only [Exchanged, withPast, step, if_true, onNotification, hdecode]
        exact hexchanged.imp_right fun hreceived => hreceived.append _
  | notificationStreamOpened | notificationStreamClosed | sendMessage | setGossipEnabled =>
      cases hgossiped

/-- Gossip suppresses no correctly signed message in a run in which none of them shares its hash
with another message that has been sent to a peer or received from it. -/
theorem gossip_delivers (codec : Codec) (cfg : Config PeerId) (crypto : Crypto)
    (encode : DKGMessage → Bytes) (authorities : List Public) (es : List (Event PeerId))
    (hunambiguous : StepsMeet (withPast (step (hashed codec cfg)))
      (Unambiguous (hashed codec cfg) (CorrectlySigned crypto encode authorities))
      (State.new, []) es) :
    StepsMeet (withPast (step (hashed codec cfg)))
      (Delivers (hashed codec cfg) (CorrectlySigned crypto encode authorities))
      (State.new, []) es := by
  have hnew : Known (hashed codec cfg) ((State.new, []) : State PeerId × List (Event PeerId)) := by
    intro who peer hpeer
    cases hpeer
  exact stepsMeet_of_invariant (Known (hashed codec cfg)) (fun _ e h _ => known_step h e)
    (fun _ _ => delivers_of_unambiguous) hnew hunambiguous

def sampleCodec : Codec where
  hashOf := SampleRuntime.sampleCrypto.keccak256
  encodeVote m := m.partialSignature
  encodePublicKey m := m.pubKey
  encodeMisbehaviour m := m.signature

def sampleOffline (sessionId : ℕ) (signature : Option Bytes) : SignedDKGMessage where
  msg :=
    { senderId := SampleRuntime.samplePublic 1
      recipientId := none
      payload := .offline ⟨[], 1, [42], List.Vector.replicate 32 0⟩
      sessionId := sessionId
      associatedBlockId := 5
      ssid := 0 }
  signature := signature

def sampleEncode (msg : DKGMessage) : Bytes := toBeBytes 8 msg.sessionId

def sampleGenuine : SignedDKGMessage :=
  sampleOffline 2 (some (SampleRuntime.sampleSignature 1 (toBeBytes 8 2)))

def sampleForged : SignedDKGMessage := sampleOffline 1 none

def sampleGossip : Config Bool :=
  hashed sampleCodec { GossipHandler.sampleConfig with
    decode := fun bytes =>
      some (.dkgMessage (if bytes = [1] then sampleGenuine else sampleForged)) }

def sampleReceived (bytes : Bytes) : List (Event Bool) :=
  [.notificationStreamOpened true "/webb-tools/dkg/keygen/1",
    .notificationStreamOpened false "/webb-tools/dkg/keygen/1", .setGossipEnabled true,
    .notificationReceived true "/webb-tools/dkg/keygen/1" bytes]

def SampleSigned : SignedDKGMessage → Prop :=
  CorrectlySigned SampleRuntime.sampleCrypto sampleEncode [SampleRuntime.samplePublic 1]

theorem sampleSigned_genuine : SampleSigned sampleGenuine :=
  ⟨_, rfl, by decide +kernel⟩

theorem genuine_delivered :
    (run (step sampleGossip) State.new (sampleReceived [1])).written false =
        [.dkgMessage sampleGenuine] ∧
      StepsMeet (withPast (step sampleGossip)) (Delivers sampleGossip SampleSigned)
        (State.new, []) (sampleReceived [1]) := by
  refine ⟨by decide +kernel, gossip_delivers sampleCodec _ _ _ _ _ ?_⟩
  have hquiet : ∀ s (e : Event Bool), gossiped sampleGossip (Prod.fst s) e = none →
      Unambiguous sampleGossip SampleSigned s e := by
    intro s e hnone message hmessage
    rw [hnone] at hmessage
    cases hmessage
  refine stepsMeet_cons.mpr ⟨hquiet _ _ rfl, stepsMeet_cons.mpr ⟨hquiet _ _ rfl,
    stepsMeet_cons.mpr ⟨hquiet _ _ rfl, stepsMeet_cons.mpr ⟨?_, stepsMeet_nil⟩⟩⟩⟩
  intro message _ _ who _ other hother
  rcases hother with hwritten | ⟨bytes, hmem, -⟩
  · cases hwritten
  · simp [withPast] at hmem

theorem genuine_suppressed :
    let s := run (step sampleGossip) State.new (sampleReceived [0] ++ [.gossip sampleGenuine])
    SampleSigned sampleGenuine ∧ ¬SampleSigned sampleForged ∧ s.written true = [] ∧
      s.written false = [.dkgMessage sampleForged] ∧
      ((s.peers false).map fun peer => peer.knownMessages.keys) =
        some [messageHash sampleCodec sampleGenuine] ∧
      ¬StepsMeet (withPast (step sampleGossip)) (Delivers sampleGossip SampleSigned)
        (State.new, []) (sampleReceived [0] ++ [.gossip sampleGenuine]) := by
  refine ⟨sampleSigned_genuine, ?_, by decide +kernel, by decide +kernel, by decide +kernel, ?_⟩
  · rintro ⟨signature, hnone, -⟩
    cases hnone
  · intro h
    have hdelivered := h (sampleReceived [0]) (.gossip sampleGenuine) [] rfl sampleGenuine rfl
      sampleSigned_genuine false rfl
    rcases hdelivered with hwritten | ⟨bytes, hmem, -⟩
    · revert hwritten
      decide +kernel
    · simp [withPast, sampleReceived] at hmem

end DkgSubstrate.GossipDelivery
