import DkgSubstrate.GossipDelivery

/-!
A network of gossip handlers.  The nodes are connected by streams that stay open, and what a
handler writes to a peer gets to the handler of the peer, in order, at any time.
-/

namespace DkgSubstrate.GossipNetwork

open DkgSubstrate.GossipDelivery
open DkgSubstrate.GossipHandler
open DkgSubstrate.IncomingMessages
open DkgSubstrate.Runs
open DkgSubstrate.Words

variable {Node : Type}

structure Network (Node : Type) where
  config : Config Node
  encode : DKGNetworkMessage → Bytes
  decode_encode : ∀ message, config.decode (encode message) = some message
  handshakeOf : Node → Option HandshakeMessage
  neighbours : Node → List Node
  symmetric : ∀ {v p}, p ∈ neighbours v → v ∈ neighbours p

def Network.configOf (net : Network Node) (node : Node) : Config Node :=
  { net.config with tryNewHandshake := net.handshakeOf node }

structure NetworkState (Node : Type) where
  nodes : Node → State Node
  originated : Node → List SignedDKGMessage
  taken : Node → Node → ℕ

inductive NetworkEvent (Node : Type) where
  | gossip (node : Node) (message : SignedDKGMessage)
  | deliver (source target : Node)

variable [DecidableEq Node] (net : Network Node)

/-- The streams to the neighbours are open, and the gossip is turned on. -/
def NetworkState.new : NetworkState Node where
  nodes node := run (step (net.configOf node)) State.new
    (.setGossipEnabled true ::
      (net.neighbours node).map (.notificationStreamOpened · net.config.protocolName))
  originated _ := []
  taken _ _ := 0

def NetworkState.next (s : NetworkState Node) (source target : Node) :
    Option DKGNetworkMessage :=
  ((s.nodes source).written target)[s.taken source target]?

def NetworkState.setNode (s : NetworkState Node) (node : Node) (t : State Node) :
    NetworkState Node :=
  { s with nodes := Function.update s.nodes node t }

def NetworkState.originate (s : NetworkState Node) (node : Node) (message : SignedDKGMessage) :
    NetworkState Node :=
  { s with originated := Function.update s.originated node (s.originated node ++ [message]) }

def NetworkState.take (s : NetworkState Node) (source target : Node) : NetworkState Node :=
  { s with
    taken := fun v p => if v = source ∧ p = target then s.taken v p + 1 else s.taken v p }

/-- A message comes up at a node, or the first message of a stream gets to its end. -/
def stepNetwork (s : NetworkState Node) : NetworkEvent Node → NetworkState Node
  | .gossip node message =>
      (s.originate node message).setNode node
        (step (net.configOf node) (s.nodes node) (.gossip message))
  | .deliver source target =>
      match s.next source target with
      | none => s
      | some message =>
          (s.take source target).setNode target (step (net.configOf target) (s.nodes target)
            (.notificationReceived source net.config.protocolName (net.encode message)))

/-- The peer is known to have a message with the hash. -/
def Knows (s : State Node) (who : Node) (hash : MessageHash) : Prop :=
  ∃ peer, s.peers who = some peer ∧ hash ∈ peer.knownMessages.keys

def Room (pool : List MessageHash) (s : State Node) : Prop :=
  pool.length < maxKnownMessages ∧ ∀ who hash, Knows s who hash → hash ∈ pool

section Handler

variable {cfg : Config Node} {s : State Node} {pool : List MessageHash}
variable {message : SignedDKGMessage}

omit [DecidableEq Node] in
theorem Knows.isSome {who : Node} {hash : MessageHash} (h : Knows s who hash) :
    (s.peers who).isSome = true := by
  obtain ⟨peer, hpeer, -⟩ := h
  rw [hpeer]
  rfl

omit [DecidableEq Node] in
theorem knows_congr {t : State Node} {who : Node} (h : t.peers who = s.peers who)
    (hash : MessageHash) : Knows t who hash ↔ Knows s who hash := by
  rw [Knows, Knows, h]

omit [DecidableEq Node] in
theorem isSome_of_table_eq {t : State Node} (h : table t = table s) (who : Node) :
    (t.peers who).isSome = (s.peers who).isSome := by
  have hname := congrArg (fun t => (t.nameOf who).isSome) h
  simp only [nameOf_table, Option.isSome_map] at hname
  exact hname

theorem knows_send (hroom : Room pool s) (hmem : cfg.messageHash message ∈ pool)
    (toWho who : Node) (hash : MessageHash) :
    Knows (sendSignedDkgMessage cfg toWho message s) who hash ↔
      Knows s who hash ∨
        who = toWho ∧ (s.peers who).isSome = true ∧ hash = cfg.messageHash message := by
  by_cases heq : who = toWho
  · subst heq
    rw [Knows, Knows, peers_send_self]
    cases hpeer : s.peers who with
    | none => simp
    | some peer =>
        have hkeys : peer.knownMessages.keys ⊆ pool := fun h hh => hroom.2 who h ⟨peer, hpeer, hh⟩
        simp only [Option.map_some, Option.some.injEq, exists_eq_left', Option.isSome_some,
          true_and, LruHashMap.mem_keys_insert_iff hkeys hmem hroom.1]
        exact or_comm
  · rw [knows_congr (peers_send_of_ne message heq)]
    simp only [heq, false_and, or_false]

open Classical in
theorem written_send_eq (cfg : Config Node) (message : SignedDKGMessage) (s : State Node)
    (toWho who : Node) :
    (sendSignedDkgMessage cfg toWho message s).written who = s.written who ++
      if who = toWho ∧ (s.peers who).isSome = true ∧ ¬Knows s who (cfg.messageHash message) then
        [.dkgMessage message] else [] := by
  rw [sendSignedDkgMessage]
  cases hpeer : s.peers toWho with
  | none =>
      rw [if_neg, List.append_nil]
      rintro ⟨rfl, hsome, -⟩
      rw [hpeer] at hsome
      cases hsome
  | some peer =>
      have hknows : Knows s toWho (cfg.messageHash message) ↔
          cfg.messageHash message ∈ peer.knownMessages.keys := by
        simp only [Knows, hpeer, Option.some.injEq, exists_eq_left']
      simp only
      split
      · rename_i hnew
        rw [LruHashMap.insert_snd_iff] at hnew
        by_cases heq : who = toWho
        · subst heq
          rw [if_pos ⟨rfl, by rw [hpeer]; rfl, fun hk => hnew (hknows.mp hk)⟩]
          exact Function.update_self _ _ _
        · rw [if_neg fun h => heq h.1, List.append_nil]
          exact Function.update_of_ne heq _ _
      · rename_i hold
        rw [LruHashMap.insert_snd_iff, not_not] at hold
        rw [if_neg, List.append_nil]
        · rfl
        · rintro ⟨rfl, -, hunknown⟩
          exact hunknown (hknows.mpr hold)

open Classical in
/-- The message goes to the connected peers that are not known to have it. -/
structure Spreads (cfg : Config Node) (message : SignedDKGMessage) (s t : State Node) : Prop where
  connected : ∀ who, (t.peers who).isSome = (s.peers who).isSome
  knows : ∀ who hash, Knows t who hash ↔
    Knows s who hash ∨ (s.peers who).isSome = true ∧ hash = cfg.messageHash message
  written : ∀ who, t.written who = s.written who ++
    if (s.peers who).isSome = true ∧ ¬Knows s who (cfg.messageHash message) then
      [.dkgMessage message] else []
  toReceiver : t.toReceiver = s.toReceiver
  gossipEnabled : t.gossipEnabled = s.gossipEnabled

theorem room_send (hroom : Room pool s) (hmem : cfg.messageHash message ∈ pool) (toWho : Node) :
    Room pool (sendSignedDkgMessage cfg toWho message s) := by
  refine ⟨hroom.1, fun who hash h => ?_⟩
  rcases (knows_send hroom hmem toWho who hash).mp h with hold | ⟨-, -, rfl⟩
  · exact hroom.2 who hash hold
  · exact hmem

theorem sendToAll_spreads (hroom : Room pool s) (hmem : cfg.messageHash message ∈ pool) :
    Spreads cfg message s (sendToAll cfg message s) where
  connected := isSome_of_table_eq (table_sendToAll cfg message)
  knows who hash := by
    have h := knows_send hroom hmem who who hash
    simp only [true_and] at h
    exact h
  written who := by
    classical
    have h := written_send_eq cfg message s who who
    rw [if_congr (and_iff_right_of_imp fun _ => rfl) rfl rfl] at h
    exact h
  toReceiver := rfl
  gossipEnabled := rfl

theorem gossip_spreads (hroom : Room pool s) (hmem : cfg.messageHash message ∈ pool) :
    Spreads cfg message s (gossipDkgSignedMessage cfg message s) := by
  classical
  rw [gossipDkgSignedMessage]
  cases hfirst : message.msg.recipientId.bind s.authorityIdToPeerId with
  | none => exact sendToAll_spreads hroom hmem
  | some first =>
      have hall := sendToAll_spreads (room_send hroom hmem first) hmem
      have hsome : ∀ who, ((sendSignedDkgMessage cfg first message s).peers who).isSome =
          (s.peers who).isSome := isSome_of_table_eq (table_sendSignedDkgMessage cfg message)
      refine ⟨?_, ?_, ?_, ?_, ?_⟩
      · intro who
        rw [hall.connected, hsome]
      · intro who hash
        rw [hall.knows, knows_send hroom hmem, hsome]
        tauto
      · intro who
        rw [hall.written, written_send_eq, List.append_assoc, knows_send hroom hmem, hsome]
        congr 1
        by_cases hnew : (s.peers who).isSome = true ∧ ¬Knows s who (cfg.messageHash message)
        · by_cases heq : who = first
          · rw [if_pos hnew, if_pos ⟨heq, hnew⟩, if_neg fun h => h.2 (.inr ⟨heq, hnew.1, rfl⟩)]
            rfl
          · rw [if_pos hnew, if_neg fun h => heq h.1,
              if_pos ⟨hnew.1, fun h => h.elim hnew.2 fun h => heq h.1⟩]
            rfl
        · rw [if_neg hnew, if_neg fun h => hnew h.2,
            if_neg fun h => hnew ⟨h.1, fun hk => h.2 (.inl hk)⟩]
          rfl
      · rw [hall.toReceiver, sendSignedDkgMessage]
        split
        · rfl
        · simp only
          split <;> rfl
      · rw [hall.gossipEnabled, sendSignedDkgMessage]
        split
        · rfl
        · simp only
          split <;> rfl

theorem knows_receive (hroom : Room pool s) (hmem : cfg.messageHash message ∈ pool)
    {sender : Node} (hsender : (s.peers sender).isSome = true) (who : Node)
    (hash : MessageHash) : Knows (receive cfg sender message s) who hash ↔
      Knows s who hash ∨ who = sender ∧ hash = cfg.messageHash message := by
  have hreceives := receive_receives cfg sender message s
  by_cases heq : who = sender
  · subst heq
    obtain ⟨peer, hpeer⟩ := Option.isSome_iff_exists.mp hsender
    obtain ⟨peer', hpeer'⟩ := Option.isSome_iff_exists.mp 
      ((isSome_of_table_eq (table_receive cfg message) who).trans hsender)
    obtain ⟨old, hold, hknown⟩ := hreceives.known peer' hpeer'
    obtain rfl := Option.some.inj (hpeer.symm.trans hold)
    have hkeys : peer.knownMessages.keys ⊆ pool := fun h hh => hroom.2 who h ⟨peer, hpeer, hh⟩
    simp only [Knows, hpeer, hpeer', Option.some.injEq, exists_eq_left', hknown, true_and,
      LruHashMap.mem_keys_insert_iff hkeys hmem hroom.1]
    exact or_comm
  · rw [knows_congr (hreceives.others who heq)]
    simp only [heq, false_and, or_false]

theorem room_receive (hroom : Room pool s) (hmem : cfg.messageHash message ∈ pool)
    {sender : Node} (hsender : (s.peers sender).isSome = true) :
    Room pool (receive cfg sender message s) := by
  refine ⟨hroom.1, fun who hash h => ?_⟩
  rcases (knows_receive hroom hmem hsender who hash).mp h with hold | ⟨-, rfl⟩
  · exact hroom.2 who hash hold
  · exact hmem

theorem toReceiver_receive {sender : Node} (hsender : (s.peers sender).isSome = true) :
    (receive cfg sender message s).toReceiver = s.toReceiver ++ [message] := by
  obtain ⟨peer, hpeer⟩ := Option.isSome_iff_exists.mp hsender
  rw [receive, hpeer]
  simp only [receiveFrom]
  split
  · rfl
  · split
    · split <;> rfl
    · rfl

structure Linked (neighbours : List Node) (s : State Node) : Prop where
  connected : ∀ who, (s.peers who).isSome = true ↔ who ∈ neighbours
  gossipEnabled : s.gossipEnabled = true
  written : ∀ who, s.written who ≠ [] → who ∈ neighbours

omit [DecidableEq Node] in
theorem Linked.of_spreads {neighbours : List Node} {t : State Node} (h : Linked neighbours s)
    (hspreads : Spreads cfg message s t) : Linked neighbours t where
  connected who := by rw [hspreads.connected, h.connected]
  gossipEnabled := hspreads.gossipEnabled.trans h.gossipEnabled
  written who hne := by
    rw [hspreads.written] at hne
    by_contra hfar
    have hempty : s.written who = [] := by
      by_contra hwritten
      exact hfar (h.written who hwritten)
    rw [hempty, if_neg fun hc => hfar ((h.connected who).mp hc.1)] at hne
    exact hne rfl

theorem linked_receive {neighbours : List Node} (h : Linked neighbours s) (sender : Node) :
    Linked neighbours (receive cfg sender message s) where
  connected who := by rw [isSome_of_table_eq (table_receive cfg message), h.connected]
  gossipEnabled := (receive_receives cfg sender message s).gossipEnabled.trans h.gossipEnabled
  written who := by
    rw [(receive_receives cfg sender message s).written]
    exact h.written who

structure SameGossip (s t : State Node) : Prop where
  connected : ∀ who, (t.peers who).isSome = (s.peers who).isSome
  knows : ∀ who hash, Knows t who hash ↔ Knows s who hash
  written : t.written = s.written
  toReceiver : t.toReceiver = s.toReceiver
  gossipEnabled : t.gossipEnabled = s.gossipEnabled

theorem onHandshakeMessage_sameGossip (cfg : Config Node) (sender : Node)
    (handshake : HandshakeMessage) (s : State Node) :
    SameGossip s (onHandshakeMessage cfg sender handshake s) := by
  have hreport : ∀ t : State Node, SameGossip t (setAuthority sender handshake.authorityId t) := by
    intro t
    have hpeers : ∀ who, (setAuthority sender handshake.authorityId t).peers who =
        if who = sender then
          (t.peers who).map fun peer => { peer with authorityId := some handshake.authorityId }
        else t.peers who := by
      intro who
      simp only [setAuthority, Function.update_apply]
      split
      · rename_i heq
        rw [heq]
      · rfl
    refine ⟨fun who => ?_, fun who hash => ?_, rfl, rfl, rfl⟩
    · rw [hpeers]
      split
      · exact Option.isSome_map
      · rfl
    · rw [Knows, Knows, hpeers]
      split
      · simp only [Option.map_eq_some_iff, exists_exists_and_eq_and]
      · rfl
  rw [onHandshakeMessage, reportHandshake]
  split
  · exact hreport s
  · exact ⟨(hreport _).connected, (hreport _).knows, rfl, rfl, rfl⟩
  · exact ⟨(hreport _).connected, (hreport _).knows, rfl, rfl, rfl⟩

omit [DecidableEq Node] in
theorem Linked.of_sameGossip {neighbours : List Node} {t : State Node} (h : Linked neighbours s)
    (hsame : SameGossip s t) : Linked neighbours t where
  connected who := by rw [hsame.connected, h.connected]
  gossipEnabled := hsame.gossipEnabled.trans h.gossipEnabled
  written who := by
    rw [hsame.written]
    exact h.written who

def dkgHash (cfg : Config Node) : DKGNetworkMessage → Option MessageHash
  | .dkgMessage message => some (cfg.messageHash message)
  | .handshake _ => none

/-- A handler that has written and handed on only some of the messages, next to what was written
when the streams were opened. -/
structure Genuine (cfg : Config Node) (opening : Node → ℕ) (messages : List SignedDKGMessage)
    (s : State Node) : Prop where
  toReceiver : ∀ m ∈ s.toReceiver, m ∈ messages
  written : ∀ who m, .dkgMessage m ∈ s.written who → m ∈ messages
  length : ∀ who, (s.written who).length =
    opening who + ((s.written who).filterMap (dkgHash cfg)).length

section Genuine

variable {opening : Node → ℕ} {messages : List SignedDKGMessage} {t : State Node}

omit [DecidableEq Node] in
theorem Genuine.of_spreads (h : Genuine cfg opening messages s) (hmem : message ∈ messages)
    (hspreads : Spreads cfg message s t) : Genuine cfg opening messages t where
  toReceiver := by
    rw [hspreads.toReceiver]
    exact h.toReceiver
  written who m hm := by
    rw [hspreads.written] at hm
    rcases List.mem_append.mp hm with hold | hnew
    · exact h.written who m hold
    · split at hnew
      · cases List.mem_singleton.mp hnew
        exact hmem
      · cases hnew
  length who := by
    rw [hspreads.written, List.filterMap_append, List.length_append, List.length_append,
      h.length who, Nat.add_assoc]
    split <;> rfl

theorem genuine_receive (h : Genuine cfg opening messages s) (hmem : message ∈ messages)
    {sender : Node} (hsender : (s.peers sender).isSome = true) :
    Genuine cfg opening messages (receive cfg sender message s) where
  toReceiver m hm := by
    rw [toReceiver_receive hsender] at hm
    rcases List.mem_append.mp hm with hold | hnew
    · exact h.toReceiver m hold
    · rw [List.mem_singleton.mp hnew]
      exact hmem
  written := by
    rw [(receive_receives cfg sender message s).written]
    exact h.written
  length := by
    rw [(receive_receives cfg sender message s).written]
    exact h.length

omit [DecidableEq Node] in
theorem Genuine.of_sameGossip (h : Genuine cfg opening messages s) (hsame : SameGossip s t) :
    Genuine cfg opening messages t where
  toReceiver := by
    rw [hsame.toReceiver]
    exact h.toReceiver
  written := by
    rw [hsame.written]
    exact h.written
  length := by
    rw [hsame.written]
    exact h.length

end Genuine

/-- What opening a stream does to a handler that has not exchanged messages of the DKG yet. -/
structure Fresh (neighbours : List Node) (s : State Node) : Prop extends Linked neighbours s where
  unknown : ∀ who hash, ¬Knows s who hash
  handshakes : ∀ who, ∀ m ∈ s.written who, ∃ handshake, m = .handshake handshake
  toReceiver : s.toReceiver = []

theorem fresh_onStreamOpened {neighbours : List Node} (h : Fresh neighbours s) (remote : Node) :
    Fresh (remote :: neighbours) (onStreamOpened cfg remote s) := by
  have hpeers : (onStreamOpened cfg remote s).peers =
      Function.update s.peers remote (some Peer.new) := by
    rw [onStreamOpened]
    split <;> rfl
  have hwritten : ∀ who, ∀ m ∈ (onStreamOpened cfg remote s).written who,
      m ∈ s.written who ∨ who = remote ∧ ∃ handshake, m = .handshake handshake := by
    intro who m hm
    rw [onStreamOpened] at hm
    split at hm
    · simp only [State.setPeer, State.writeNotification, Function.update_apply] at hm
      split at hm
      · rename_i handshake _ heq
        subst heq
        rcases List.mem_append.mp hm with hold | hnew
        · exact .inl hold
        · exact .inr ⟨rfl, handshake, List.mem_singleton.mp hnew⟩
      · exact .inl hm
    · exact .inl hm
  refine ⟨⟨?_, ?_, ?_⟩, ?_, ?_, ?_⟩
  · intro who
    rw [hpeers, Function.update_apply, List.mem_cons, ← h.connected]
    split
    · rename_i heq
      simp only [Option.isSome_some, heq, true_or]
    · rename_i hne
      simp only [hne, false_or]
  · rw [onStreamOpened, ← h.gossipEnabled]
    split <;> rfl
  · intro who hne
    obtain ⟨m, hm⟩ := List.exists_mem_of_ne_nil _ hne
    rcases hwritten who m hm with hold | ⟨rfl, -⟩
    · exact List.mem_cons_of_mem _ (h.written who (List.ne_nil_of_mem hold))
    · exact List.mem_cons_self
  · rintro who hash ⟨peer, hpeer, hknown⟩
    rw [hpeers, Function.update_apply] at hpeer
    split at hpeer
    · rw [← Option.some.inj hpeer] at hknown
      cases hknown
    · exact h.unknown who hash ⟨peer, hpeer, hknown⟩
  · intro who m hm
    rcases hwritten who m hm with hold | ⟨-, hnew⟩
    · exact h.handshakes who m hold
    · exact hnew
  · rw [onStreamOpened, ← h.toReceiver]
    split <;> rfl

theorem fresh_run {neighbours : List Node} (h : Fresh neighbours s) (remotes : List Node) :
    Fresh (remotes.reverse ++ neighbours) (run (step cfg) s
      (remotes.map (.notificationStreamOpened · cfg.protocolName))) := by
  induction remotes generalizing s neighbours with
  | nil => exact h
  | cons remote remotes ih =>
      rw [List.map_cons, run_cons, step, if_pos rfl, List.reverse_cons, List.append_assoc]
      exact ih (fresh_onStreamOpened h remote)

end Handler

theorem fresh_new (v : Node) : Fresh (net.neighbours v) ((NetworkState.new net).nodes v) := by
  have hfirst : Fresh [] (step (net.configOf v) State.new (.setGossipEnabled true)) := by
    refine ⟨⟨?_, rfl, fun _ h => absurd rfl h⟩, ?_, fun _ _ hm => absurd hm List.not_mem_nil, rfl⟩
    · intro who
      exact iff_of_false Bool.false_ne_true List.not_mem_nil
    · rintro who hash ⟨peer, hpeer, -⟩
      cases hpeer
  have h : Fresh ((net.neighbours v).reverse ++ []) ((NetworkState.new net).nodes v) :=
    fresh_run hfirst (net.neighbours v)
  rw [List.append_nil] at h
  exact { h with
    connected := fun who => (h.connected who).trans List.mem_reverse
    written := fun who hne => List.mem_reverse.mp (h.written who hne) }

end DkgSubstrate.GossipNetwork
