import DkgSubstrate.GossipDelivery
import Mathlib.Data.Set.Card

/-!
How much the gossip handler remembers.  What it remembers of a peer is bounded by the maps of
the peer, which forget what was put into them the longest time ago.  The messages that were
received go into their map past the check of its limit.
-/

namespace DkgSubstrate.GossipMemory

open DkgSubstrate.GossipDelivery
open DkgSubstrate.GossipHandler
open DkgSubstrate.IncomingMessages
open DkgSubstrate.Runs
open DkgSubstrate.Words

variable {PeerId : Type} [DecidableEq PeerId] (cfg : Config PeerId)

def dkgMessageOf (protocol : String) (bytes : Bytes) : Option SignedDKGMessage :=
  if protocol = cfg.protocolName then
    match cfg.decode bytes with
    | some (.dkgMessage message) => some message
    | some (.handshake _) | none => none
  else none

def toKnown (s : State PeerId) (who : PeerId) : Event PeerId → List MessageHash
  | .notificationReceived remote protocol bytes =>
      match dkgMessageOf cfg protocol bytes with
      | some message =>
          if who = remote ∨ s.gossipEnabled = true then [cfg.messageHash message] else []
      | none => []
  | .sendMessage recipient message => if who = recipient then [cfg.messageHash message] else []
  | .gossip message => [cfg.messageHash message]
  | .notificationStreamOpened .. | .notificationStreamClosed .. | .setGossipEnabled _ => []

def isRepeated (s : State PeerId) (who : PeerId) (hash : MessageHash) : Bool :=
  (s.pendingMessagesPeers hash).any fun senders => decide (who ∈ senders)

/-- A message is counted if the peer has sent it before. -/
def toCounter (s : State PeerId) (who : PeerId) : Event PeerId → List MessageHash
  | .notificationReceived remote protocol bytes =>
      match dkgMessageOf cfg protocol bytes with
      | some message =>
          if who = remote ∧ isRepeated s who (cfg.messageHash message) = true then
            [cfg.messageHash message]
          else []
      | none => []
  | .sendMessage .. | .gossip _ | .notificationStreamOpened .. | .notificationStreamClosed ..
  | .setGossipEnabled _ => []

def toPending (s : State PeerId) : Event PeerId → List MessageHash
  | .notificationReceived remote protocol bytes =>
      match dkgMessageOf cfg protocol bytes with
      | some message =>
          if (s.peers remote).isSome = true then [cfg.messageHash message] else []
      | none => []
  | .sendMessage .. | .gossip _ | .notificationStreamOpened .. | .notificationStreamClosed ..
  | .setGossipEnabled _ => []

/-- The hashes that have been put into the maps, the latest last.  A peer starts anew when its
stream is opened. -/
structure History (PeerId : Type) where
  known : PeerId → List MessageHash
  counted : PeerId → List MessageHash
  pending : List MessageHash

def History.new : History PeerId where
  known _ := []
  counted _ := []
  pending := []

def opens (who : PeerId) : Event PeerId → Bool
  | .notificationStreamOpened remote protocol =>
      decide (protocol = cfg.protocolName) && decide (who = remote)
  | .notificationStreamClosed .. | .notificationReceived .. | .sendMessage .. | .gossip _
  | .setGossipEnabled _ => false

def record (s : State PeerId × History PeerId) (e : Event PeerId) : History PeerId where
  known who := if opens cfg who e then [] else s.2.known who ++ toKnown cfg s.1 who e
  counted who := if opens cfg who e then [] else s.2.counted who ++ toCounter cfg s.1 who e
  pending := s.2.pending ++ toPending cfg s.1 e

def recorded (s : State PeerId × History PeerId) (e : Event PeerId) :
    State PeerId × History PeerId :=
  (step cfg s.1 e, record cfg s e)

/-- The entries in the maps of a peer are the ones that were put in last. -/
structure Recalls (known counted : List MessageHash) (s : State PeerId) (who : PeerId) : Prop where
  known : ∀ peer, s.peers who = some peer →
    peer.knownMessages.keys = LruHashMap.recent maxKnownMessages known
  counted : ∀ peer, s.peers who = some peer →
    peer.messageCounter.keys = LruHashMap.recent maxKnownMessages counted

variable {cfg} {s : State PeerId} {who : PeerId} {known counted : List MessageHash}

omit [DecidableEq PeerId] in
theorem Recalls.congr {t : State PeerId} (h : Recalls known counted s who)
    (hpeers : ∀ peer', t.peers who = some peer' → ∃ peer, s.peers who = some peer ∧
      peer'.knownMessages = peer.knownMessages ∧ peer'.messageCounter = peer.messageCounter) :
    Recalls known counted t who := by
  refine ⟨fun peer' hpeer' => ?_, fun peer' hpeer' => ?_⟩
  · obtain ⟨peer, hpeer, hknown, -⟩ := hpeers peer' hpeer'
    rw [hknown]
    exact h.known peer hpeer
  · obtain ⟨peer, hpeer, -, hcounter⟩ := hpeers peer' hpeer'
    rw [hcounter]
    exact h.counted peer hpeer

theorem recalls_send_of_ne {toWho : PeerId} (message : SignedDKGMessage) (hne : who ≠ toWho)
    (h : Recalls known counted s who) :
    Recalls known counted (sendSignedDkgMessage cfg toWho message s) who := by
  refine h.congr fun peer' hpeer' => ?_
  rw [peers_send_of_ne message hne] at hpeer'
  exact ⟨peer', hpeer', rfl, rfl⟩

theorem recalls_send_self (message : SignedDKGMessage) (h : Recalls known counted s who) :
    Recalls (known ++ [cfg.messageHash message]) counted
      (sendSignedDkgMessage cfg who message s) who := by
  refine ⟨fun peer' hpeer' => ?_, fun peer' hpeer' => ?_⟩
  · rw [peers_send_self] at hpeer'
    obtain ⟨peer, hpeer, rfl⟩ := Option.map_eq_some_iff.mp hpeer'
    exact LruHashMap.keys_insert_of_recent (h.known peer hpeer) _ _
  · rw [peers_send_self] at hpeer'
    obtain ⟨peer, hpeer, rfl⟩ := Option.map_eq_some_iff.mp hpeer'
    exact h.counted peer hpeer

omit [DecidableEq PeerId] in
theorem Recalls.of_append_self {hash : MessageHash}
    (h : Recalls (known ++ [hash] ++ [hash]) counted s who) :
    Recalls (known ++ [hash]) counted s who :=
  ⟨fun peer hpeer => by rw [h.known peer hpeer, LruHashMap.recent_append_self], h.counted⟩

theorem recalls_sendToAll (message : SignedDKGMessage) (h : Recalls known counted s who) :
    Recalls (known ++ [cfg.messageHash message]) counted (sendToAll cfg message s) who := by
  have hself : Recalls (known ++ [cfg.messageHash message]) counted
      (sendSignedDkgMessage cfg who message s) who := recalls_send_self message h
  exact ⟨hself.known, hself.counted⟩

theorem recalls_gossip (message : SignedDKGMessage) (h : Recalls known counted s who) :
    Recalls (known ++ [cfg.messageHash message]) counted
      (gossipDkgSignedMessage cfg message s) who := by
  rw [gossipDkgSignedMessage]
  split
  · rename_i first _
    by_cases heq : who = first
    · rw [← heq]
      exact (recalls_sendToAll message (recalls_send_self message h)).of_append_self
    · exact recalls_sendToAll message (recalls_send_of_ne message heq h)
  · exact recalls_sendToAll message h

theorem recalls_receive_of_ne (cfg : Config PeerId) {sender : PeerId}
    (message : SignedDKGMessage) (hne : who ≠ sender) (h : Recalls known counted s who) :
    Recalls known counted (receive cfg sender message s) who := by
  refine h.congr fun peer' hpeer' => ?_
  rw [(receive_receives cfg sender message s).others who hne] at hpeer'
  exact ⟨peer', hpeer', rfl, rfl⟩

theorem messageCounter_receive {message : SignedDKGMessage} {peer' : Peer}
    (h : (receive cfg who message s).peers who = some peer') :
    ∃ peer, s.peers who = some peer ∧
      peer'.messageCounter =
        if isRepeated s who (cfg.messageHash message) then
          (peer.messageCounter.insert (cfg.messageHash message)
            ((peer.messageCounter.get (cfg.messageHash message)).getD 0 + 1)).1
        else peer.messageCounter := by
  rw [receive] at h
  split at h
  · rename_i peer hpeer
    refine ⟨peer, hpeer, ?_⟩
    rw [receiveFrom] at h
    rw [isRepeated]
    split at h
    · rename_i hpending
      rw [hpending]
      simp only [State.setPeer, State.reportPeer, Function.update_self, Option.some.injEq] at h
      rw [← h]
      rfl
    · rename_i senders hpending
      rw [hpending, Option.any_some]
      split at h
      · rename_i hmem
        rw [decide_eq_true hmem, if_pos rfl]
        have hpeers : ∀ t : State PeerId, (if maxDuplicatedMessagesPerPeer ≤
            (peer.messageCounter.get (cfg.messageHash message)).getD 0 then
              t.reportPeer who .duplicateMessage else t).peers = t.peers := by
          intro t
          split <;> rfl
        simp only [hpeers, State.setPeer, Function.update_self, Option.some.injEq] at h
        rw [← h]
      · rename_i hmem
        rw [decide_eq_false hmem, if_neg Bool.false_ne_true]
        simp only [State.setPeer, Function.update_self, Option.some.injEq] at h
        rw [← h]
  · rename_i hnone
    rw [hnone] at h
    cases h

theorem recalls_receive_self (cfg : Config PeerId) (message : SignedDKGMessage)
    (h : Recalls known counted s who) :
    Recalls (known ++ [cfg.messageHash message])
      (counted ++ if isRepeated s who (cfg.messageHash message) then [cfg.messageHash message]
        else [])
      (receive cfg who message s) who := by
  refine ⟨fun peer' hpeer' => ?_, fun peer' hpeer' => ?_⟩
  · obtain ⟨peer, hpeer, hknown⟩ := (receive_receives cfg who message s).known peer' hpeer'
    rw [hknown]
    exact LruHashMap.keys_insert_of_recent (h.known peer hpeer) _ _
  · obtain ⟨peer, hpeer, hcounter⟩ := messageCounter_receive hpeer'
    rw [hcounter]
    split
    · exact LruHashMap.keys_insert_of_recent (h.counted peer hpeer) _ _
    · rw [List.append_nil]
      exact h.counted peer hpeer

theorem recalls_onSignedDkgMessage (sender : PeerId) (message : SignedDKGMessage)
    (h : Recalls known counted s who) :
    Recalls
      (known ++ if who = sender ∨ s.gossipEnabled = true then [cfg.messageHash message] else [])
      (counted ++ if who = sender ∧ isRepeated s who (cfg.messageHash message) = true then
        [cfg.messageHash message] else [])
      (onSignedDkgMessage cfg sender message s) who := by
  rw [onSignedDkgMessage, (receive_receives cfg sender message s).gossipEnabled]
  by_cases heq : who = sender
  · subst heq
    have hreceived := recalls_receive_self cfg message h
    simp only [true_or, true_and, if_true]
    cases s.gossipEnabled with
    | true => exact (recalls_gossip message hreceived).of_append_self
    | false => exact hreceived
  · have hreceived := recalls_receive_of_ne cfg message heq h
    simp only [heq, false_or, false_and, if_false, List.append_nil]
    cases s.gossipEnabled with
    | true => exact recalls_gossip message hreceived
    | false =>
        simp only [Bool.false_eq_true, if_false, List.append_nil]
        exact hreceived

theorem recalls_onHandshakeMessage (sender : PeerId) (message : HandshakeMessage)
    (h : Recalls known counted s who) :
    Recalls known counted (onHandshakeMessage cfg sender message s) who := by
  have hreport : (reportHandshake cfg sender message s).peers = s.peers := by
    rw [reportHandshake]
    split <;> rfl
  refine h.congr fun peer' hpeer' => ?_
  simp only [onHandshakeMessage, setAuthority, hreport, Function.update_apply] at hpeer'
  split at hpeer'
  · rename_i heq
    subst heq
    obtain ⟨peer, hpeer, rfl⟩ := Option.map_eq_some_iff.mp hpeer'
    exact ⟨peer, hpeer, rfl, rfl⟩
  · exact ⟨peer', hpeer', rfl, rfl⟩

theorem recalls_onStreamClosed (remote : PeerId) (h : Recalls known counted s who) :
    Recalls known counted (onStreamClosed remote s) who := by
  refine h.congr fun peer' hpeer' => ?_
  simp only [onStreamClosed, Function.update_apply] at hpeer'
  split at hpeer'
  · cases hpeer'
  · exact ⟨peer', hpeer', rfl, rfl⟩

theorem peers_onStreamOpened (remote : PeerId) :
    (onStreamOpened cfg remote s).peers = Function.update s.peers remote (some .new) := by
  rw [onStreamOpened]
  split <;> rfl

theorem recalls_onStreamOpened (remote : PeerId) (h : Recalls known counted s who) :
    Recalls (if who = remote then [] else known) (if who = remote then [] else counted)
      (onStreamOpened cfg remote s) who := by
  by_cases heq : who = remote
  · subst heq
    have hnew : ∀ peer', (onStreamOpened cfg who s).peers who = some peer' → peer' = .new := by
      intro peer' hpeer'
      rw [peers_onStreamOpened, Function.update_self] at hpeer'
      exact (Option.some.inj hpeer').symm
    refine ⟨fun peer' hpeer' => ?_, fun peer' hpeer' => ?_⟩
    · rw [hnew peer' hpeer', if_pos rfl]
      rfl
    · rw [hnew peer' hpeer', if_pos rfl]
      rfl
  · rw [if_neg heq, if_neg heq]
    refine h.congr fun peer' hpeer' => ?_
    rw [peers_onStreamOpened, Function.update_of_ne heq] at hpeer'
    exact ⟨peer', hpeer', rfl, rfl⟩

theorem recalls_notificationReceived {remote : PeerId} {protocol : String} {bytes : Bytes}
    (h : Recalls known counted s who) :
    Recalls (known ++ toKnown cfg s who (.notificationReceived remote protocol bytes))
      (counted ++ toCounter cfg s who (.notificationReceived remote protocol bytes))
      (step cfg s (.notificationReceived remote protocol bytes)) who := by
  rw [toKnown, toCounter, dkgMessageOf, step]
  by_cases hprotocol : protocol = cfg.protocolName
  · rw [if_pos hprotocol, if_pos hprotocol, onNotification]
    cases cfg.decode bytes with
    | none =>
        rw [List.append_nil, List.append_nil]
        exact ⟨h.known, h.counted⟩
    | some m =>
        cases m with
        | handshake message =>
            rw [List.append_nil, List.append_nil]
            exact recalls_onHandshakeMessage remote message h
        | dkgMessage message => exact recalls_onSignedDkgMessage remote message h
  · rw [if_neg hprotocol, if_neg hprotocol, List.append_nil, List.append_nil]
    exact h

theorem recalls_step (h : Recalls known counted s who) (e : Event PeerId) :
    Recalls (if opens cfg who e then [] else known ++ toKnown cfg s who e)
      (if opens cfg who e then [] else counted ++ toCounter cfg s who e) (step cfg s e) who := by
  cases e with
  | notificationStreamOpened remote protocol =>
      simp only [opens, toKnown, toCounter, step, List.append_nil, Bool.and_eq_true,
        decide_eq_true_eq]
      by_cases hprotocol : protocol = cfg.protocolName
      · simp only [hprotocol, true_and, if_true]
        exact recalls_onStreamOpened remote h
      · simp only [hprotocol, false_and, if_false]
        exact h
  | notificationStreamClosed remote protocol =>
      simp only [opens, toKnown, toCounter, step, List.append_nil, Bool.false_eq_true, if_false]
      split
      · exact recalls_onStreamClosed remote h
      · exact h
  | notificationReceived remote protocol bytes => exact recalls_notificationReceived h
  | sendMessage recipient message =>
      simp only [opens, toKnown, toCounter, step, List.append_nil, Bool.false_eq_true, if_false]
      split
      · rename_i heq
        subst heq
        exact recalls_send_self message h
      · rename_i hne
        rw [List.append_nil]
        exact recalls_send_of_ne message hne h
  | gossip message =>
      simp only [opens, toKnown, toCounter, step, List.append_nil, Bool.false_eq_true, if_false]
      exact recalls_gossip message h
  | setGossipEnabled enabled =>
      simp only [opens, toKnown, toCounter, step, List.append_nil, Bool.false_eq_true, if_false]
      exact ⟨h.known, h.counted⟩

theorem pendingMessagesPeers_send (toWho : PeerId) (message : SignedDKGMessage) :
    (sendSignedDkgMessage cfg toWho message s).pendingMessagesPeers = s.pendingMessagesPeers := by
  rw [sendSignedDkgMessage]
  split
  · rfl
  · dsimp only
    split <;> rfl

theorem pendingMessagesPeers_gossip (message : SignedDKGMessage) :
    (gossipDkgSignedMessage cfg message s).pendingMessagesPeers = s.pendingMessagesPeers := by
  rw [gossipDkgSignedMessage, sendToAll]
  split
  · exact pendingMessagesPeers_send _ message
  · rfl

theorem pendingMessagesPeers_receiveFrom (message : SignedDKGMessage) (peer : Peer)
    (hash : MessageHash) :
    ((receiveFrom cfg who message peer s).pendingMessagesPeers hash).isSome = true ↔
      (s.pendingMessagesPeers hash).isSome = true ∨ hash = cfg.messageHash message := by
  rw [receiveFrom]
  cases hpending : s.pendingMessagesPeers (cfg.messageHash message) with
  | none =>
      dsimp only
      rw [Function.update_apply]
      split
      · rename_i heq
        exact iff_of_true rfl (.inr heq)
      · rename_i hne
        rw [or_iff_left hne]
  | some senders =>
      have hold : hash = cfg.messageHash message → (s.pendingMessagesPeers hash).isSome = true := by
        rintro rfl
        rw [hpending]
        rfl
      rw [or_iff_left_of_imp hold]
      dsimp only
      split
      · split <;> rfl
      · dsimp only
        rw [Function.update_apply]
        split
        · rename_i heq
          exact iff_of_true rfl (hold heq)
        · rfl

theorem pendingMessagesPeers_onSignedDkgMessage (sender : PeerId) (message : SignedDKGMessage)
    (hash : MessageHash) :
    ((onSignedDkgMessage cfg sender message s).pendingMessagesPeers hash).isSome = true ↔
      (s.pendingMessagesPeers hash).isSome = true ∨
        hash ∈ if (s.peers sender).isSome = true then [cfg.messageHash message] else [] := by
  have hgossip : (onSignedDkgMessage cfg sender message s).pendingMessagesPeers =
      (receive cfg sender message s).pendingMessagesPeers := by
    rw [onSignedDkgMessage]
    split
    · exact pendingMessagesPeers_gossip message
    · rfl
  rw [hgossip, receive]
  cases s.peers sender with
  | none => simp
  | some peer =>
      rw [Option.isSome_some, if_pos rfl, List.mem_singleton]
      exact pendingMessagesPeers_receiveFrom message peer hash

theorem pendingMessagesPeers_step (e : Event PeerId) (hash : MessageHash) :
    ((step cfg s e).pendingMessagesPeers hash).isSome = true ↔
      (s.pendingMessagesPeers hash).isSome = true ∨ hash ∈ toPending cfg s e := by
  cases e with
  | notificationStreamOpened remote protocol =>
      rw [toPending, or_iff_left List.not_mem_nil, step]
      split
      · rw [onStreamOpened]
        split <;> rfl
      · rfl
  | notificationStreamClosed remote protocol =>
      rw [toPending, or_iff_left List.not_mem_nil, step]
      split <;> rfl
  | notificationReceived remote protocol bytes =>
      rw [toPending, dkgMessageOf, step]
      by_cases hprotocol : protocol = cfg.protocolName
      · rw [if_pos hprotocol, if_pos hprotocol, onNotification]
        cases cfg.decode bytes with
        | none =>
            rw [or_iff_left List.not_mem_nil]
            rfl
        | some m =>
            cases m with
            | handshake message =>
                rw [or_iff_left List.not_mem_nil]
                have hreport : (reportHandshake cfg remote message s).pendingMessagesPeers =
                    s.pendingMessagesPeers := by
                  rw [reportHandshake]
                  split <;> rfl
                exact iff_of_eq (congrArg (fun pending => (pending hash).isSome = true) hreport)
            | dkgMessage message =>
                exact pendingMessagesPeers_onSignedDkgMessage remote message hash
      · rw [if_neg hprotocol, if_neg hprotocol, or_iff_left List.not_mem_nil]
  | sendMessage recipient message =>
      rw [toPending, or_iff_left List.not_mem_nil, step, pendingMessagesPeers_send]
  | gossip message =>
      rw [toPending, or_iff_left List.not_mem_nil, step, pendingMessagesPeers_gossip]
  | setGossipEnabled enabled => rw [toPending, or_iff_left List.not_mem_nil, step]

/-- What is remembered, by the history. -/
structure Remembers (s : State PeerId × History PeerId) : Prop where
  recalls : ∀ who, Recalls (s.2.known who) (s.2.counted who) s.1 who
  pending : ∀ hash, (s.1.pendingMessagesPeers hash).isSome = true ↔ hash ∈ s.2.pending

theorem remembers_recorded {s : State PeerId × History PeerId} (h : Remembers s)
    (e : Event PeerId) : Remembers (recorded cfg s e) where
  recalls who := recalls_step (h.recalls who) e
  pending hash := by
    rw [recorded, pendingMessagesPeers_step, h.pending hash, record, List.mem_append]

omit [DecidableEq PeerId] in
theorem remembers_new : Remembers ((State.new, History.new) : State PeerId × History PeerId) where
  recalls _ := by
    refine ⟨fun _ h => ?_, fun _ h => ?_⟩
    · cases h
    · cases h
  pending _ := iff_of_false Bool.false_ne_true List.not_mem_nil

theorem remembers_run (cfg : Config PeerId) (es : List (Event PeerId)) :
    Remembers (run (recorded cfg) (State.new, History.new) es) :=
  invariant_run Remembers (fun _ e h _ => remembers_recorded h e) remembers_new
    (stepsMeet_true (recorded cfg) _ es)

/-- The maps stay below the limit.  What has left a map was put in before all that is there. -/
structure BoundedMemory (s : State PeerId × History PeerId) : Prop where
  pending_lt : {hash | (s.1.pendingMessagesPeers hash).isSome = true}.encard < maxKnownMessages
  pending : ∀ hash, (s.1.pendingMessagesPeers hash).isSome = true ↔ hash ∈ s.2.pending
  known_lt : ∀ who peer, s.1.peers who = some peer →
    peer.knownMessages.keys.length < maxKnownMessages
  known : ∀ who peer, s.1.peers who = some peer →
    peer.knownMessages.keys = LruHashMap.recent maxKnownMessages (s.2.known who)
  counted_lt : ∀ who peer, s.1.peers who = some peer →
    peer.messageCounter.keys.length < maxKnownMessages
  counted : ∀ who peer, s.1.peers who = some peer →
    peer.messageCounter.keys = LruHashMap.recent maxKnownMessages (s.2.counted who)

omit [DecidableEq PeerId] in
theorem boundedMemory_iff_of_remembers {s : State PeerId × History PeerId} (h : Remembers s) :
    BoundedMemory s ↔ s.2.pending.dedup.length < maxKnownMessages := by
  have hset : {hash | (s.1.pendingMessagesPeers hash).isSome = true} =
      (s.2.pending.toFinset : Set MessageHash) := by
    ext hash
    rw [Set.mem_ofPred_eq, h.pending, Finset.mem_coe, List.mem_toFinset]
  have hlt : {hash | (s.1.pendingMessagesPeers hash).isSome = true}.encard < maxKnownMessages ↔
      s.2.pending.dedup.length < maxKnownMessages := by
    rw [hset, Set.encard_coe_eq_coe_finsetCard, List.card_toFinset, Nat.cast_lt]
  constructor
  · intro hbounded
    exact hlt.mp hbounded.pending_lt
  · intro hpending
    refine ⟨hlt.mpr hpending, h.pending, ?_, ?_, ?_, ?_⟩
    · intro who peer _
      rw [LruHashMap.keys, List.length_map]
      exact peer.knownMessages.length_lt
    · intro who peer hpeer
      exact (h.recalls who).known peer hpeer
    · intro who peer _
      rw [LruHashMap.keys, List.length_map]
      exact peer.messageCounter.length_lt
    · intro who peer hpeer
      exact (h.recalls who).counted peer hpeer

/-- The hashes that are received in a run. -/
def received (cfg : Config PeerId) (es : List (Event PeerId)) : List MessageHash :=
  trace (step cfg) (toPending cfg) State.new es

theorem pending_run (cfg : Config PeerId) (s : State PeerId × History PeerId)
    (es : List (Event PeerId)) :
    (run (recorded cfg) s es).2.pending =
      s.2.pending ++ trace (step cfg) (toPending cfg) s.1 es := by
  induction es generalizing s with
  | nil => exact (List.append_nil _).symm
  | cons e es ih =>
      rw [run_cons, ih, recorded, record, trace, List.append_assoc]

theorem pending_run_new (cfg : Config PeerId) (es : List (Event PeerId)) :
    (run (recorded cfg) (State.new, History.new) es).2.pending = received cfg es :=
  pending_run cfg (State.new, History.new) es

theorem boundedMemory_run (cfg : Config PeerId) (es : List (Event PeerId)) :
    Always (recorded cfg) BoundedMemory (State.new, History.new) es ↔
      (received cfg es).dedup.length < maxKnownMessages := by
  constructor
  · intro h
    have hend := h es [] (List.append_nil es).symm
    rw [boundedMemory_iff_of_remembers (remembers_run cfg es), pending_run_new] at hend
    exact hend
  · intro h pre post hsplit
    rw [boundedMemory_iff_of_remembers (remembers_run cfg pre), pending_run_new]
    refine Nat.lt_of_le_of_lt ?_ h
    rw [hsplit, received, received, trace_append, ← List.card_toFinset, ← List.card_toFinset]
    refine Finset.card_le_card fun hash hhash => ?_
    rw [List.mem_toFinset] at hhash ⊢
    exact List.mem_append_left _ hhash

/-- In every run the maps of the peers are bounded and forget the oldest entries, and all that
was ever received is pending.  The memory is bounded exactly if fewer different messages are
received in the whole run than the limit. -/
theorem always_boundedMemory_iff (cfg : Config PeerId) (es : List (Event PeerId)) :
    Always (recorded cfg) Remembers (State.new, History.new) es ∧
    (Always (recorded cfg) BoundedMemory (State.new, History.new) es ↔
      (received cfg es).dedup.length < maxKnownMessages) :=
  ⟨fun pre _ _ => remembers_run cfg pre, boundedMemory_run cfg es⟩

theorem isSome_peers_step {remote who : PeerId} {bytes : Bytes} {message : SignedDKGMessage}
    (hdecode : cfg.decode bytes = some (.dkgMessage message)) :
    ((step cfg s (.notificationReceived remote cfg.protocolName bytes)).peers who).isSome =
      (s.peers who).isSome := by
  have htable : table (step cfg s (.notificationReceived remote cfg.protocolName bytes)) =
      table s := by
    rw [simulates_peerTable cfg s, tableEvent, if_pos rfl, hdecode]
    rfl
  have hname := congrArg (fun t => (t.nameOf who).isSome) htable
  simp only [nameOf_table, Option.isSome_map] at hname
  exact hname

theorem trace_toPending_flood {remote : PeerId} (message : Bytes → SignedDKGMessage)
    (flood : List Bytes)
    (hdecode : ∀ bytes, cfg.decode bytes = some (.dkgMessage (message bytes)))
    (hconnected : (s.peers remote).isSome = true) :
    trace (step cfg) (toPending cfg) s
        (flood.map fun bytes => .notificationReceived remote cfg.protocolName bytes) =
      flood.map fun bytes => cfg.messageHash (message bytes) := by
  induction flood generalizing s with
  | nil => rfl
  | cons bytes flood ih =>
      rw [List.map_cons, trace, ih, toPending, dkgMessageOf, if_pos rfl, hdecode]
      · dsimp only
        rw [if_pos hconnected]
        rfl
      · rw [isSome_peers_step (hdecode bytes)]
        exact hconnected

def floodMessage (bytes : Bytes) : SignedDKGMessage where
  msg :=
    { senderId := List.Vector.replicate 33 0
      recipientId := none
      payload := .keygen ⟨1, bytes, List.Vector.replicate 32 0⟩
      sessionId := 0
      associatedBlockId := 0
      ssid := 0 }
  signature := none

def floodCodec : Codec where
  hashOf bytes := ⟨toBeBytes 32 (ofBeBytes bytes), length_toBeBytes 32 (ofBeBytes bytes)⟩
  encodeVote m := m.partialSignature
  encodePublicKey m := m.pubKey
  encodeMisbehaviour m := m.signature

def floodConfig : Config Bool :=
  hashed floodCodec { GossipHandler.sampleConfig with
    decode := fun bytes => some (.dkgMessage (floodMessage bytes)) }

def flood : List (Event Bool) :=
  .notificationStreamOpened true floodConfig.protocolName ::
    ((List.range maxKnownMessages).map (toBeBytes 2)).map fun bytes =>
      .notificationReceived true floodConfig.protocolName bytes

theorem received_flood : received floodConfig flood =
    ((List.range maxKnownMessages).map (toBeBytes 2)).map floodCodec.hashOf := by
  have hconnected : ((step floodConfig State.new
      (.notificationStreamOpened true floodConfig.protocolName)).peers true).isSome = true := by
    rfl
  rw [received, flood, trace, toPending, List.nil_append,
    trace_toPending_flood floodMessage _ (fun _ => rfl) hconnected]
  exact List.map_congr_left fun _ _ => rfl

theorem nodup_received_flood : (received floodConfig flood).Nodup := by
  have hvalue : ∀ n ∈ List.range maxKnownMessages,
      ofBeBytes (floodCodec.hashOf (toBeBytes 2 n)).toList = n := by
    intro n hn
    have hlt : n < 4096 := List.mem_range.mp hn
    have hbytes : ofBeBytes (toBeBytes 2 n) = n := ofBeBytes_toBeBytes (by omega)
    have hhash : (floodCodec.hashOf (toBeBytes 2 n)).toList =
        toBeBytes 32 (ofBeBytes (toBeBytes 2 n)) := rfl
    rw [hhash, hbytes]
    exact ofBeBytes_toBeBytes (by omega)
  rw [received_flood, List.map_map]
  refine List.nodup_range.map_on fun n hn n' hn' heq => ?_
  rw [Function.comp_apply, Function.comp_apply] at heq
  rw [← hvalue n hn, heq, hvalue n' hn']

theorem flood_not_bounded :
    ¬Always (recorded floodConfig) BoundedMemory (State.new, History.new) flood := by
  rw [boundedMemory_run, nodup_received_flood.dedup, received_flood, List.length_map,
    List.length_map, List.length_range]
  exact lt_irrefl _

end DkgSubstrate.GossipMemory
