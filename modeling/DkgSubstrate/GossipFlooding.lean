import DkgSubstrate.Flooding
import DkgSubstrate.GossipMemory
import DkgSubstrate.GossipNetwork
import Mathlib.Logic.Encodable.Basic
import Mathlib.Tactic.DeriveCountable

/-!
Seen by the hashes of the messages, the gossip handlers of a network flood it.  So every message
gets to all nodes that are connected to the one where it came up, and over every stream at most
once.
-/

namespace DkgSubstrate.GossipFlooding

open DkgSubstrate.GossipDelivery
open DkgSubstrate.GossipHandler
open DkgSubstrate.GossipMemory
open DkgSubstrate.GossipNetwork
open DkgSubstrate.IncomingMessages
open DkgSubstrate.Metadata
open DkgSubstrate.Primitives
open DkgSubstrate.Runs
open DkgSubstrate.Words

variable {Node : Type} [DecidableEq Node] (net : Network Node)

def adj (v p : Node) : Prop := p ∈ net.neighbours v

/-- The network, seen by the hashes of the messages. -/
def view (s : NetworkState Node) : Flooding.State Node MessageHash where
  held v := {hash | ∃ message, (message ∈ s.originated v ∨ message ∈ (s.nodes v).toReceiver) ∧
    net.config.messageHash message = hash}
  known v p := {hash | Knows (s.nodes v) p hash}
  arrived v p := (((s.nodes v).written p).take (s.taken v p)).filterMap (dkgHash net.config)
  wire v p := (((s.nodes v).written p).drop (s.taken v p)).filterMap (dkgHash net.config)

/-- What an event of the network is for the flooding.  The handshakes are no part of it. -/
def observed (s : NetworkState Node) : NetworkEvent Node → Flooding.Event Node MessageHash
  | .gossip node message => .originate node (net.config.messageHash message)
  | .deliver source target =>
      match s.next source target with
      | some (.dkgMessage _) => .deliver source target
      | some (.handshake _) | none => .idle

/-- How much a node has written to a peer when the streams have been opened. -/
def opening (v p : Node) : ℕ := (((NetworkState.new net).nodes v).written p).length

/-- The streams are open, no more is taken from them than was written, and only these messages
come up. -/
structure Wired (messages : List SignedDKGMessage) (s : NetworkState Node) : Prop where
  linked : ∀ v, Linked (net.neighbours v) (s.nodes v)
  genuine : ∀ v, Genuine net.config (opening net v) messages (s.nodes v)
  originated : ∀ v, ∀ m ∈ s.originated v, m ∈ messages
  taken : ∀ v p, s.taken v p ≤ ((s.nodes v).written p).length

def hashes (messages : List SignedDKGMessage) : List MessageHash :=
  (messages.map net.config.messageHash).dedup

variable {net} {s : NetworkState Node} {messages : List SignedDKGMessage}

/-- The room in the handlers suffices. -/
def Fits (net : Network Node) (messages : List SignedDKGMessage) (s : NetworkState Node) : Prop :=
  ∀ v, Room (hashes net messages) (s.nodes v)

omit [DecidableEq Node] in
theorem mem_hashes {message : SignedDKGMessage} (h : message ∈ messages) :
    net.config.messageHash message ∈ hashes net messages :=
  List.mem_dedup.mpr (List.mem_map_of_mem h)

theorem nodes_setNode_self (node : Node) (t : State Node) : (s.setNode node t).nodes node = t :=
  Function.update_self ..

theorem nodes_setNode_of_ne {v node : Node} (h : v ≠ node) (t : State Node) :
    (s.setNode node t).nodes v = s.nodes v :=
  Function.update_of_ne h ..

theorem taken_setNode (node : Node) (t : State Node) : (s.setNode node t).taken = s.taken := rfl

theorem taken_take (source target v p : Node) : (s.take source target).taken v p =
    if v = source ∧ p = target then s.taken v p + 1 else s.taken v p := rfl

theorem nodes_take (source target : Node) : (s.take source target).nodes = s.nodes := rfl

theorem wired_setNode (hwired : Wired net messages s) {node : Node} {t : State Node}
    (hlinked : Linked (net.neighbours node) t)
    (hgenuine : Genuine net.config (opening net node) messages t)
    (hwritten : ∀ p, (s.nodes node).written p <+: t.written p) :
    Wired net messages (s.setNode node t) where
  linked v := by
    by_cases hv : v = node
    · subst hv
      rw [nodes_setNode_self]
      exact hlinked
    · rw [nodes_setNode_of_ne hv]
      exact hwired.linked v
  genuine v := by
    by_cases hv : v = node
    · subst hv
      rw [nodes_setNode_self]
      exact hgenuine
    · rw [nodes_setNode_of_ne hv]
      exact hwired.genuine v
  originated := hwired.originated
  taken v p := by
    by_cases hv : v = node
    · subst hv
      rw [nodes_setNode_self]
      exact (hwired.taken v p).trans (hwritten p).length_le
    · rw [nodes_setNode_of_ne hv]
      exact hwired.taken v p

theorem view_spread (hwired : Wired net messages s) {node : Node} {t : State Node}
    {message : SignedDKGMessage}
    (hspreads : Spreads (net.configOf node) message (s.nodes node) t) :
    view net (s.setNode node t) =
      (view net s).spread (adj net) node (net.config.messageHash message) := by
  classical
  have hlinked := hwired.linked node
  refine Flooding.State.ext ?_ ?_ ?_ ?_
  · funext v
    by_cases hv : v = node
    · subst hv
      simp only [view, nodes_setNode_self, hspreads.toReceiver, Flooding.State.spread]
      rfl
    · simp only [view, nodes_setNode_of_ne hv, Flooding.State.spread]
      rfl
  · funext v p
    ext hash
    by_cases hv : v = node
    · subst hv
      simp only [view, nodes_setNode_self, Set.mem_ofPred_eq, hspreads.knows, hlinked.connected,
        Flooding.State.spread, true_and]
      rfl
    · simp only [view, nodes_setNode_of_ne hv, Set.mem_ofPred_eq, Flooding.State.spread, hv,
        false_and, or_false]
  · funext v p
    by_cases hv : v = node
    · subst hv
      simp only [view, nodes_setNode_self, taken_setNode, hspreads.written, Flooding.State.spread]
      rw [List.take_append_of_le_length (hwired.taken v p)]
    · simp only [view, nodes_setNode_of_ne hv, Flooding.State.spread]
      rfl
  · funext v p
    by_cases hv : v = node
    · subst hv
      simp only [view, nodes_setNode_self, taken_setNode, hspreads.written,
        Flooding.State.spread, true_and]
      rw [List.drop_append_of_le_length (hwired.taken v p), List.filterMap_append]
      congr 1
      by_cases hnew : ((s.nodes v).peers p).isSome = true ∧
          ¬Knows (s.nodes v) p ((net.configOf v).messageHash message)
      · rw [if_pos hnew, if_pos ⟨(hlinked.connected p).mp hnew.1, hnew.2⟩]
        rfl
      · rw [if_neg hnew, if_neg fun h => hnew ⟨(hlinked.connected p).mpr h.1, h.2⟩]
        rfl
    · simp only [view, nodes_setNode_of_ne hv, Flooding.State.spread, hv, false_and, if_false,
        List.append_nil]
      rfl

theorem view_originate (node : Node) (message : SignedDKGMessage) :
    view net (s.originate node message) =
      (view net s).hold node (net.config.messageHash message) := by
  refine Flooding.State.ext ?_ rfl rfl rfl
  funext v
  ext hash
  by_cases hv : v = node
  · subst hv
    simp only [view, NetworkState.originate, Flooding.State.hold, Function.update_self,
      Set.mem_ofPred_eq, List.mem_append, List.mem_singleton, true_and]
    constructor
    · rintro ⟨m, (hold | rfl) | hreceived, rfl⟩
      · exact .inl ⟨m, .inl hold, rfl⟩
      · exact .inr rfl
      · exact .inl ⟨m, .inr hreceived, rfl⟩
    · rintro (⟨m, hm, rfl⟩ | rfl)
      · exact ⟨m, hm.imp_left .inl, rfl⟩
      · exact ⟨message, .inl (.inr rfl), rfl⟩
  · simp only [view, NetworkState.originate, Flooding.State.hold, Function.update_of_ne hv,
      Set.mem_ofPred_eq, hv, false_and, or_false]

omit [DecidableEq Node] in
theorem next_eq_some_iff {source target : Node} {m : DKGNetworkMessage} :
    s.next source target = some m ↔
      ((s.nodes source).written target).drop (s.taken source target) =
        m :: ((s.nodes source).written target).drop (s.taken source target + 1) := by
  rw [NetworkState.next]
  constructor
  · intro h
    obtain ⟨hlt, rfl⟩ := List.getElem?_eq_some_iff.mp h
    exact List.drop_eq_getElem_cons hlt
  · intro h
    rw [← List.head?_drop, h, List.head?_cons]

omit [DecidableEq Node] in
theorem take_succ_of_next {source target : Node} {m : DKGNetworkMessage}
    (h : s.next source target = some m) :
    ((s.nodes source).written target).take (s.taken source target + 1) =
      ((s.nodes source).written target).take (s.taken source target) ++ [m] := by
  rw [List.take_add_one, ← NetworkState.next, h]
  rfl

theorem isSome_of_next (hwired : Wired net messages s) {source target : Node}
    {m : DKGNetworkMessage} (h : s.next source target = some m) :
    ((s.nodes target).peers source).isSome = true := by
  refine ((hwired.linked target).connected source).mpr (net.symmetric ?_)
  refine (hwired.linked source).written target (List.ne_nil_of_mem (a := m) ?_)
  exact List.mem_of_getElem? h

theorem view_receive (hwired : Wired net messages s) (hfits : Fits net messages s)
    {source target : Node} {message : SignedDKGMessage}
    (hnext : s.next source target = some (.dkgMessage message)) (hmem : message ∈ messages) :
    ∃ rest, (view net s).wire source target = net.config.messageHash message :: rest ∧
      view net ((s.take source target).setNode target
          (receive (net.configOf target) source message (s.nodes target))) =
        ((view net s).receive source target (net.config.messageHash message) rest).hold
          target (net.config.messageHash message) := by
  classical
  have hreceives := receive_receives (net.configOf target) source message (s.nodes target)
  have hwritten : ∀ v, (((s.take source target).setNode target
      (receive (net.configOf target) source message (s.nodes target))).nodes v).written =
        (s.nodes v).written := by
    intro v
    by_cases hv : v = target
    · subst hv
      rw [nodes_setNode_self, hreceives.written]
    · rw [nodes_setNode_of_ne hv]
      rfl
  refine ⟨(((s.nodes source).written target).drop (s.taken source target + 1)).filterMap
    (dkgHash net.config), ?_, Flooding.State.ext ?_ ?_ ?_ ?_⟩
  · simp only [view]
    rw [next_eq_some_iff.mp hnext]
    rfl
  · funext v
    ext hash
    by_cases hv : v = target
    · subst hv
      simp only [view, nodes_setNode_self, Flooding.State.hold,
        Flooding.State.receive, Set.mem_ofPred_eq, true_and,
        toReceiver_receive (isSome_of_next hwired hnext), List.mem_append, List.mem_singleton]
      constructor
      · rintro ⟨m, hold | hold | rfl, rfl⟩
        · exact .inl ⟨m, .inl hold, rfl⟩
        · exact .inl ⟨m, .inr hold, rfl⟩
        · exact .inr rfl
      · rintro (⟨m, hm, rfl⟩ | rfl)
        · exact ⟨m, hm.imp_right .inl, rfl⟩
        · exact ⟨message, .inr (.inr rfl), rfl⟩
    · simp only [view, nodes_setNode_of_ne hv, nodes_take, Flooding.State.hold,
        Flooding.State.receive, Set.mem_ofPred_eq, hv, false_and, or_false]
      rfl
  · funext v p
    ext hash
    by_cases hv : v = target
    · subst hv
      have hknows : ∀ who, Knows (receive (net.configOf v) source message (s.nodes v)) who hash ↔
          Knows (s.nodes v) who hash ∨ who = source ∧ hash = net.config.messageHash message :=
        fun who =>
          knows_receive (hfits v) (mem_hashes hmem) (isSome_of_next hwired hnext) who hash
      simp only [view, nodes_setNode_self, Flooding.State.hold,
        Flooding.State.receive, Set.mem_ofPred_eq, true_and, hknows]
    · simp only [view, nodes_setNode_of_ne hv, nodes_take, Flooding.State.hold,
        Flooding.State.receive, Set.mem_ofPred_eq, hv, false_and, or_false]
  · funext v p
    simp only [view, taken_setNode, taken_take, hwritten, Flooding.State.hold,
      Flooding.State.receive]
    by_cases hlink : v = source ∧ p = target
    · obtain ⟨rfl, rfl⟩ := hlink
      rw [if_pos ⟨rfl, rfl⟩, if_pos ⟨rfl, rfl⟩, take_succ_of_next hnext, List.filterMap_append]
      rfl
    · rw [if_neg hlink, if_neg hlink, List.append_nil]
  · funext v p
    simp only [view, taken_setNode, taken_take, hwritten, Flooding.State.hold,
      Flooding.State.receive]
    by_cases hlink : v = source ∧ p = target
    · obtain ⟨rfl, rfl⟩ := hlink
      rw [if_pos ⟨rfl, rfl⟩, if_pos ⟨rfl, rfl⟩]
    · rw [if_neg hlink, if_neg hlink]

theorem view_setNode_of_sameGossip {node : Node} {t : State Node}
    (hsame : SameGossip (s.nodes node) t) : view net (s.setNode node t) = view net s := by
  have hnodes : ∀ v, SameGossip (s.nodes v) ((s.setNode node t).nodes v) := by
    intro v
    by_cases hv : v = node
    · subst hv
      rw [nodes_setNode_self]
      exact hsame
    · rw [nodes_setNode_of_ne hv]
      exact ⟨fun _ => rfl, fun _ _ => Iff.rfl, rfl, rfl, rfl⟩
  refine Flooding.State.ext ?_ ?_ ?_ ?_
  · funext v
    simp only [view, (hnodes v).toReceiver]
    rfl
  · funext v p
    ext hash
    exact (hnodes v).knows p hash
  · funext v p
    simp only [view, (hnodes v).written]
    rfl
  · funext v p
    simp only [view, (hnodes v).written]
    rfl

theorem view_take {source target : Node} {handshake : HandshakeMessage}
    (hnext : s.next source target = some (.handshake handshake)) :
    view net (s.take source target) = view net s := by
  refine Flooding.State.ext rfl rfl ?_ ?_
  · funext v p
    simp only [view, nodes_take, taken_take]
    split
    · rename_i hlink
      obtain ⟨rfl, rfl⟩ := hlink
      rw [take_succ_of_next hnext, List.filterMap_append]
      exact List.append_nil _
    · rfl
  · funext v p
    simp only [view, nodes_take, taken_take]
    split
    · rename_i hlink
      obtain ⟨rfl, rfl⟩ := hlink
      rw [next_eq_some_iff.mp hnext]
      rfl
    · rfl

theorem step_received (s : State Node) (node source : Node) (m : DKGNetworkMessage) :
    step (net.configOf node) s
        (.notificationReceived source net.config.protocolName (net.encode m)) =
      match m with
      | .handshake handshake => onHandshakeMessage (net.configOf node) source handshake s
      | .dkgMessage message => onSignedDkgMessage (net.configOf node) source message s := by
  have hdecode : (net.configOf node).decode (net.encode m) = some m := net.decode_encode m
  have hprotocol : net.config.protocolName = (net.configOf node).protocolName := rfl
  rw [step, if_pos hprotocol, onNotification, hdecode]
  cases m <;> rfl

theorem wired_take (hwired : Wired net messages s) {source target : Node}
    {m : DKGNetworkMessage} (hnext : s.next source target = some m) :
    Wired net messages (s.take source target) where
  linked := hwired.linked
  genuine := hwired.genuine
  originated := hwired.originated
  taken v p := by
    rw [taken_take, nodes_take]
    split
    · rename_i hlink
      obtain ⟨rfl, rfl⟩ := hlink
      exact (List.getElem?_eq_some_iff.mp hnext).1
    · exact hwired.taken v p

theorem wired_originate (hwired : Wired net messages s) (node : Node)
    {message : SignedDKGMessage} (hmem : message ∈ messages) :
    Wired net messages (s.originate node message) where
  linked := hwired.linked
  genuine := hwired.genuine
  originated v m hm := by
    simp only [NetworkState.originate, Function.update_apply] at hm
    split at hm
    · rename_i heq
      subst heq
      rcases List.mem_append.mp hm with hold | hnew
      · exact hwired.originated v m hold
      · rw [List.mem_singleton.mp hnew]
        exact hmem
    · exact hwired.originated v m hm
  taken := hwired.taken

theorem wired_spread (hwired : Wired net messages s) {node : Node}
    {message : SignedDKGMessage} (hmem : message ∈ messages) {t : State Node}
    (hspreads : Spreads (net.configOf node) message (s.nodes node) t) :
    Wired net messages (s.setNode node t) := by
  refine wired_setNode hwired ((hwired.linked node).of_spreads hspreads)
    ((hwired.genuine node).of_spreads hmem ?_) ?_
  · exact ⟨hspreads.connected, hspreads.knows, hspreads.written, hspreads.toReceiver,
      hspreads.gossipEnabled⟩
  · intro p
    rw [hspreads.written]
    exact List.prefix_append _ _

theorem step_gossip (hwired : Wired net messages s) (hfits : Fits net messages s) (node : Node)
    {message : SignedDKGMessage} (hmem : message ∈ messages) :
    Wired net messages (stepNetwork net s (.gossip node message)) ∧
      view net (stepNetwork net s (.gossip node message)) = Flooding.step (adj net) (view net s)
        (.originate node (net.config.messageHash message)) := by
  have hspreads : Spreads (net.configOf node) message ((s.originate node message).nodes node)
      (step (net.configOf node) (s.nodes node) (.gossip message)) :=
    gossip_spreads (hfits node) (mem_hashes hmem)
  have hwired' := wired_originate hwired node hmem
  refine ⟨wired_spread hwired' hmem hspreads, ?_⟩
  rw [stepNetwork, view_spread hwired' hspreads, view_originate]
  rfl

theorem step_handshake (hwired : Wired net messages s) {source target : Node}
    {handshake : HandshakeMessage} (hnext : s.next source target = some (.handshake handshake)) :
    Wired net messages (stepNetwork net s (.deliver source target)) ∧
      view net (stepNetwork net s (.deliver source target)) = view net s := by
  have hsame : SameGossip ((s.take source target).nodes target)
      (onHandshakeMessage (net.configOf target) source handshake (s.nodes target)) :=
    onHandshakeMessage_sameGossip (net.configOf target) source handshake (s.nodes target)
  rw [stepNetwork, hnext]
  simp only [step_received]
  constructor
  · refine wired_setNode (wired_take hwired hnext) ((hwired.linked target).of_sameGossip hsame)
      ((hwired.genuine target).of_sameGossip hsame) ?_
    intro p
    rw [hsame.written]
  · rw [view_setNode_of_sameGossip hsame, view_take hnext]

theorem step_dkgMessage (hwired : Wired net messages s) (hfits : Fits net messages s)
    {source target : Node} {message : SignedDKGMessage}
    (hnext : s.next source target = some (.dkgMessage message)) :
    Wired net messages (stepNetwork net s (.deliver source target)) ∧
      view net (stepNetwork net s (.deliver source target)) =
        Flooding.step (adj net) (view net s) (.deliver source target) := by
  have hmem : message ∈ messages :=
    (hwired.genuine source).written target message (List.mem_of_getElem? hnext)
  have hsender := isSome_of_next hwired hnext
  obtain ⟨rest, hwire, hview⟩ := view_receive hwired hfits hnext hmem
  set r := receive (net.configOf target) source message (s.nodes target) with hr
  have hlinked : Linked (net.neighbours target) r := linked_receive (hwired.linked target) source
  have hwired' : Wired net messages ((s.take source target).setNode target r) := by
    refine wired_setNode (wired_take hwired hnext) hlinked ?_ fun p => ?_
    · exact genuine_receive (hwired.genuine target) hmem hsender
    · rw [hr, (receive_receives (net.configOf target) source message (s.nodes target)).written]
      exact List.prefix_rfl
  have hnode : ((s.take source target).setNode target r).nodes target = r :=
    nodes_setNode_self target r
  have hspreads : Spreads (net.configOf target) message
      (((s.take source target).setNode target r).nodes target)
      (onSignedDkgMessage (net.configOf target) source message (s.nodes target)) := by
    simp only [onSignedDkgMessage, hnode, ← hr]
    rw [if_pos hlinked.gossipEnabled]
    exact gossip_spreads (room_receive (hfits target) (mem_hashes hmem) hsender)
      (mem_hashes hmem)
  have htwice : ∀ t, ((s.take source target).setNode target r).setNode target t =
      (s.take source target).setNode target t := by
    intro t
    simp only [NetworkState.setNode, Function.update_idem]
  rw [stepNetwork, hnext]
  simp only [step_received, Flooding.step, hwire]
  rw [← htwice]
  refine ⟨wired_spread hwired' hmem hspreads, ?_⟩
  rw [view_spread hwired' hspreads, hview]

variable (net) in
structure Floods (messages : List SignedDKGMessage) (s : NetworkState Node) : Prop where
  wired : Wired net messages s
  invariant : Flooding.Invariant (adj net) (view net s)

theorem Floods.fits (h : Floods net messages s)
    (hroom : (hashes net messages).length < maxKnownMessages) : Fits net messages s := by
  have hheld : ∀ v, (view net s).held v ⊆ {hash | hash ∈ hashes net messages} := by
    rintro v hash ⟨m, hm, rfl⟩
    exact mem_hashes (hm.elim (h.wired.originated v m) ((h.wired.genuine v).toReceiver m))
  intro v
  exact ⟨hroom, fun who hash hknown => h.invariant.known_subset hheld v who hknown⟩

theorem floods_step (hroom : (hashes net messages).length < maxKnownMessages)
    (h : Floods net messages s) (e : NetworkEvent Node)
    (hlegal : ∀ node message, e = .gossip node message → message ∈ messages) :
    Floods net messages (stepNetwork net s e) := by
  have hview : Wired net messages (stepNetwork net s e) ∧ view net (stepNetwork net s e) =
      Flooding.step (adj net) (view net s) (observed net s e) := by
    cases e with
    | gossip node message =>
        exact step_gossip h.wired (h.fits hroom) node (hlegal node message rfl)
    | deliver source target =>
        cases hnext : s.next source target with
        | none =>
            simp only [stepNetwork, observed, hnext]
            exact ⟨h.wired, rfl⟩
        | some m =>
            cases m with
            | handshake handshake =>
                simp only [observed, hnext]
                exact step_handshake h.wired hnext
            | dkgMessage message =>
                simp only [observed, hnext]
                exact step_dkgMessage h.wired (h.fits hroom) hnext
  refine ⟨hview.1, ?_⟩
  rw [hview.2]
  exact Flooding.invariant_step h.invariant _

theorem floods_new : Floods net messages (NetworkState.new net) := by
  have hfresh := fresh_new net
  have hnone : ∀ v p, (((NetworkState.new net).nodes v).written p).filterMap
      (dkgHash net.config) = [] := by
    intro v p
    refine List.filterMap_eq_nil_iff.mpr fun m hm => ?_
    obtain ⟨handshake, rfl⟩ := (hfresh v).handshakes p m hm
    rfl
  refine ⟨⟨fun v => (hfresh v).toLinked, fun v => ⟨?_, ?_, ?_⟩, ?_, fun _ _ => Nat.zero_le _⟩, ?_⟩
  · rw [(hfresh v).toReceiver]
    exact fun _ hm => absurd hm List.not_mem_nil
  · intro p m hm
    obtain ⟨handshake, heq⟩ := (hfresh v).handshakes p _ hm
    cases heq
  · intro p
    rw [hnone]
    rfl
  · exact fun _ _ hm => absurd hm List.not_mem_nil
  · refine Flooding.invariant_init (fun v => ?_) (fun v p => ?_) fun v p => ?_
    · refine Set.eq_empty_iff_forall_notMem.mpr ?_
      rintro hash ⟨m, hm | hm, -⟩
      · cases hm
      · rw [(hfresh v).toReceiver] at hm
        cases hm
    · exact Set.eq_empty_iff_forall_notMem.mpr fun hash => (hfresh v).unknown p hash
    · simp only [Flooding.State.sent, view]
      rw [← List.filterMap_append, List.take_append_drop, hnone]

def gossiped : List (NetworkEvent Node) → List SignedDKGMessage :=
  List.filterMap fun
    | .gossip _ message => some message
    | .deliver .. => none

omit [DecidableEq Node] in
theorem mem_gossiped {es : List (NetworkEvent Node)} {node : Node} {message : SignedDKGMessage}
    (h : .gossip node message ∈ es) : message ∈ gossiped es :=
  List.mem_filterMap.mpr ⟨_, h, rfl⟩

theorem floods_run {es : List (NetworkEvent Node)}
    (hroom : (hashes net (gossiped es)).length < maxKnownMessages) :
    Floods net (gossiped es) (run (stepNetwork net) (.new net) es) := by
  have hlegal : StepsMeet (stepNetwork net) (fun _ e => e ∈ es) (.new net) es :=
    stepsMeet_of_forall_mem (fun e he _ => he) _
  refine invariant_run (Floods net (gossiped es)) (fun s e h he => ?_) floods_new hlegal
  refine floods_step hroom h e ?_
  rintro node message rfl
  exact mem_gossiped he

theorem mem_originated_step (s : NetworkState Node) (e : NetworkEvent Node) (node : Node)
    (message : SignedDKGMessage) : message ∈ (stepNetwork net s e).originated node ↔
      message ∈ s.originated node ∨ e = .gossip node message := by
  cases e with
  | gossip origin m =>
      have hstep : (stepNetwork net s (.gossip origin m)).originated node =
          if node = origin then s.originated origin ++ [m] else s.originated node :=
        Function.update_apply ..
      rw [hstep, NetworkEvent.gossip.injEq]
      split
      · rename_i heq
        rw [heq, List.mem_append, List.mem_singleton, eq_comm (a := m), and_iff_right rfl]
      · rename_i hne
        rw [eq_comm (a := origin), iff_comm, or_iff_left fun h => hne h.1]
  | deliver source target =>
      have hstep : (stepNetwork net s (.deliver source target)).originated node =
          s.originated node := by
        rw [stepNetwork]
        split <;> rfl
      rw [hstep, iff_comm, or_iff_left]
      intro h
      cases h

theorem mem_originated_run (s : NetworkState Node) (es : List (NetworkEvent Node)) (node : Node)
    (message : SignedDKGMessage) : message ∈ (run (stepNetwork net) s es).originated node ↔
      message ∈ s.originated node ∨ .gossip node message ∈ es := by
  induction es generalizing s with
  | nil => simp only [run_nil, List.not_mem_nil, or_false]
  | cons e es ih =>
      rw [run_cons, ih, mem_originated_step, List.mem_cons, or_assoc, eq_comm (a := e)]

/-- Once nothing is on its way any more, every message has been handed to the gadgets of all
nodes that are connected to the one where it came up. -/
theorem gossip_reaches_connected (es : List (NetworkEvent Node))
    (hroom : (hashes net (gossiped es)).length < maxKnownMessages)
    (hunique : ∀ m ∈ gossiped es, ∀ m' ∈ gossiped es,
      net.config.messageHash m = net.config.messageHash m' → m = m')
    (hdrained : ∀ source target,
      (run (stepNetwork net) (.new net) es).next source target = none)
    {origin node : Node} {message : SignedDKGMessage} (hgossip : .gossip origin message ∈ es)
    (hpath : Relation.ReflTransGen (adj net) origin node) :
    message ∈ ((run (stepNetwork net) (.new net) es).nodes node).toReceiver ∨
      .gossip node message ∈ es := by
  have hfloods := floods_run hroom
  have horiginated : ∀ v m, m ∈ (run (stepNetwork net) (.new net) es).originated v ↔
      .gossip v m ∈ es := by
    intro v m
    exact (mem_originated_run _ es v m).trans (or_iff_right List.not_mem_nil)
  have hempty : ∀ v p, (view net (run (stepNetwork net) (.new net) es)).wire v p = [] := by
    intro v p
    have hlength := List.getElem?_eq_none_iff.mp (hdrained v p)
    simp only [view, List.drop_eq_nil_of_le hlength, List.filterMap_nil]
  have hheld : net.config.messageHash message ∈
      (view net (run (stepNetwork net) (.new net) es)).held origin := by
    exact ⟨message, .inl ((horiginated origin message).mpr hgossip), rfl⟩
  obtain ⟨m, hm, hhash⟩ := hfloods.invariant.held_of_path hempty hheld hpath
  have hgenuine : m ∈ gossiped es :=
    hm.elim (hfloods.wired.originated node m) ((hfloods.wired.genuine node).toReceiver m)
  obtain rfl := hunique m hgenuine message (mem_gossiped hgossip) hhash
  rcases hm with hown | hreceived
  · exact .inr ((horiginated node m).mp hown)
  · exact .inl hreceived

section Line

instance countableUInt8 : Countable UInt8 :=
  Function.Injective.countable fun _ _ h => UInt8.toNat_inj.mp h

instance countableUInt16 : Countable UInt16 :=
  Function.Injective.countable fun _ _ h => UInt16.toNat_inj.mp h

instance countableUInt64 : Countable UInt64 :=
  Function.Injective.countable fun _ _ h => UInt64.toNat_inj.mp h

instance countableFixedBytes (n : ℕ) : Countable (FixedBytes n) := Subtype.countable

deriving instance Countable for DKGKeygenMessage
deriving instance Countable for DKGOfflineMessage
deriving instance Countable for DKGVoteMessage
deriving instance Countable for PublicKeyMessage
deriving instance Countable for MisbehaviourType
deriving instance Countable for MisbehaviourMessage
deriving instance Countable for NetworkMsgPayload
deriving instance Countable for DKGMessage
deriving instance Countable for SignedDKGMessage
deriving instance Countable for HandshakeMessage
deriving instance Countable for DKGNetworkMessage

theorem exists_codec : ∃ (encode : DKGNetworkMessage → Bytes)
    (decode : Bytes → Option DKGNetworkMessage), ∀ m, decode (encode m) = some m := by
  obtain ⟨f, hf⟩ := exists_injective_nat DKGNetworkMessage
  have hinj : Function.Injective fun m => List.replicate (f m) (0 : UInt8) := by
    intro m m' h
    have hlength := congrArg List.length h
    simp only [List.length_replicate] at hlength
    exact hf hlength
  exact ⟨_, Function.partialInv _, fun m => Function.partialInv_left hinj m⟩

inductive Place where
  | left
  | middle
  | right
deriving DecidableEq

def lineNeighbours : Place → List Place
  | .left => [.middle]
  | .middle => [.left, .right]
  | .right => [.middle]

theorem lineNeighbours_symmetric {v p : Place} (h : p ∈ lineNeighbours v) :
    v ∈ lineNeighbours p := by
  cases v <;> cases p <;> revert h <;> decide

noncomputable def lineNetwork : Network Place where
  config :=
    { protocolName := "/webb-tools/dkg/keygen/1"
      crypto := GossipHandler.sampleConfig.crypto
      tryFrom := fun _ => none
      recoverPrehashed := fun _ _ => none
      decode := exists_codec.choose_spec.choose
      messageHash := messageHash floodCodec
      tryNewHandshake := none }
  encode := exists_codec.choose
  decode_encode := exists_codec.choose_spec.choose_spec
  handshakeOf _ := none
  neighbours := lineNeighbours
  symmetric := lineNeighbours_symmetric

def lineRun : List (NetworkEvent Place) :=
  [.gossip .left (floodMessage [7]), .deliver .left .middle, .deliver .middle .right]

theorem stepNetwork_of_next {source target : Node} {message : SignedDKGMessage}
    (h : s.next source target = some (.dkgMessage message)) :
    stepNetwork net s (.deliver source target) = (s.take source target).setNode target
      (onSignedDkgMessage (net.configOf target) source message (s.nodes target)) := by
  rw [stepNetwork, h]
  simp only [step_received]

noncomputable def lineFirst : NetworkState Place :=
  stepNetwork lineNetwork (.new lineNetwork) (.gossip .left (floodMessage [7]))

noncomputable def lineSecond : NetworkState Place :=
  (lineFirst.take .left .middle).setNode .middle
    (onSignedDkgMessage (lineNetwork.configOf .middle) .left (floodMessage [7])
      (lineFirst.nodes .middle))

noncomputable def lineEnd : NetworkState Place :=
  (lineSecond.take .middle .right).setNode .right
    (onSignedDkgMessage (lineNetwork.configOf .right) .middle (floodMessage [7])
      (lineSecond.nodes .right))

theorem run_line : run (stepNetwork lineNetwork) (.new lineNetwork) lineRun = lineEnd := by
  have hfirst : lineFirst.next .left .middle = some (.dkgMessage (floodMessage [7])) := by
    decide +kernel
  have hsecond : lineSecond.next .middle .right = some (.dkgMessage (floodMessage [7])) := by
    decide +kernel
  have hgossip : stepNetwork lineNetwork (.new lineNetwork) (.gossip .left (floodMessage [7])) =
      lineFirst := rfl
  rw [lineRun, run_cons, run_cons, run_cons, run_nil, hgossip, stepNetwork_of_next hfirst]
  exact stepNetwork_of_next hsecond

theorem drained_line : ∀ source target, lineEnd.next source target = none := by
  intro source target
  cases source <;> cases target <;> decide +kernel

theorem hashes_line : (hashes lineNetwork (gossiped lineRun)).length < maxKnownMessages := by
  decide +kernel

theorem path_line : Relation.ReflTransGen (adj lineNetwork) .left .right := by
  have hfirst : adj lineNetwork .left .middle := List.mem_cons_self
  have hsecond : adj lineNetwork .middle .right := List.mem_cons_of_mem _ List.mem_cons_self
  exact (Relation.ReflTransGen.single hfirst).tail hsecond

theorem gossip_reaches_end_of_line :
    floodMessage [7] ∈
        ((run (stepNetwork lineNetwork) (.new lineNetwork) lineRun).nodes .right).toReceiver ∨
      .gossip .right (floodMessage [7]) ∈ lineRun := by
  refine gossip_reaches_connected lineRun hashes_line ?_ ?_ List.mem_cons_self path_line
  · intro m hm m' hm' _
    rw [List.mem_singleton.mp hm, List.mem_singleton.mp hm']
  · rw [run_line]
    exact drained_line

end Line

/-- Every stream carries every message at most once, so that only so many deliveries take
something from it. -/
theorem gossip_once_per_stream (es : List (NetworkEvent Node))
    (hroom : (hashes net (gossiped es)).length < maxKnownMessages) (source target : Node) :
    ((((run (stepNetwork net) (.new net) es).nodes source).written target).filterMap
        (dkgHash net.config)).Nodup ∧
      (run (stepNetwork net) (.new net) es).taken source target ≤
        opening net source target + (hashes net (gossiped es)).length := by
  have hfloods := floods_run hroom
  have honce := hfloods.invariant.once source target
  simp only [Flooding.State.sent, view] at honce
  rw [← List.filterMap_append, List.take_append_drop] at honce
  refine ⟨honce, (hfloods.wired.taken source target).trans ?_⟩
  rw [(hfloods.wired.genuine source).length target]
  refine Nat.add_le_add_left (honce.subperm ?_).length_le _
  intro hash hhash
  obtain ⟨m, hm, hsome⟩ := List.mem_filterMap.mp hhash
  cases m with
  | handshake handshake => cases hsome
  | dkgMessage message =>
      obtain rfl := Option.some.inj hsome
      exact mem_hashes ((hfloods.wired.genuine source).written target message hm)

theorem gossip_once_along_line :
    ((((run (stepNetwork lineNetwork) (.new lineNetwork) lineRun).nodes .left).written
        .middle).filterMap (dkgHash lineNetwork.config)).Nodup ∧
      (run (stepNetwork lineNetwork) (.new lineNetwork) lineRun).taken .left .middle ≤
        opening lineNetwork .left .middle + (hashes lineNetwork (gossiped lineRun)).length :=
  gossip_once_per_stream lineRun hashes_line .left .middle

end DkgSubstrate.GossipFlooding
