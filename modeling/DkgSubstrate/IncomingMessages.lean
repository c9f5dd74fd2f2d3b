import DkgSubstrate.Metadata

/-!
The way of a gossiped message into a running protocol of the gadget: the check of its
signature, its routing, and the collection of partial signatures in the voting stage.  The
encoding of messages and the parsing of partial signatures are parameters.
-/

namespace DkgSubstrate.IncomingMessages

open DkgSubstrate.Metadata
open DkgSubstrate.Primitives
open DkgSubstrate.Words

structure DKGKeygenMessage where
  senderId : UInt16
  keygenMsg : Bytes
  keygenProtocolHash : FixedBytes 32
deriving DecidableEq

structure DKGOfflineMessage where
  key : Bytes
  signerSetId : UInt64
  offlineMsg : Bytes
  unsignedProposalHash : FixedBytes 32
deriving DecidableEq

structure DKGVoteMessage where
  partyInd : UInt16
  roundKey : Bytes
  partialSignature : Bytes
  unsignedProposalHash : FixedBytes 32
deriving DecidableEq

structure PublicKeyMessage where
  sessionId : ℕ
  pubKey : Bytes
  signature : Bytes
deriving DecidableEq

structure MisbehaviourMessage where
  misbehaviourType : MisbehaviourType
  sessionId : ℕ
  offender : Public
  signature : Bytes
deriving DecidableEq

inductive NetworkMsgPayload where
  | keygen (msg : DKGKeygenMessage)
  | offline (msg : DKGOfflineMessage)
  | vote (msg : DKGVoteMessage)
  | publicKeyBroadcast (msg : PublicKeyMessage)
  | misbehaviourBroadcast (msg : MisbehaviourMessage)
deriving DecidableEq

/-- The index under which the protocols receive the message.  The signer set id of an
offline message is cast to 16 bits. -/
def NetworkMsgPayload.asyncProtoOnlyGetSenderId : NetworkMsgPayload → Option UInt16
  | .keygen msg => some msg.senderId
  | .offline msg => some msg.signerSetId.toUInt16
  | .vote msg => some msg.partyInd
  | _ => none

structure DKGMessage where
  senderId : Public
  recipientId : Option Public
  payload : NetworkMsgPayload
  sessionId : ℕ
  associatedBlockId : ℕ
  ssid : UInt16
deriving DecidableEq

structure SignedDKGMessage where
  msg : DKGMessage
  signature : Option Bytes
deriving DecidableEq

/-- The protocol that receives the messages, with the index of the local party and the
block at which it was started. -/
inductive ProtocolType where
  | keygen (i : UInt16) (associatedBlockId : ℕ)
  | offline (i : UInt16) (associatedBlockId : ℕ)
  | voting (i : UInt16) (associatedBlockId : ℕ)
deriving DecidableEq

namespace ProtocolType

def getAssociatedBlockId : ProtocolType → ℕ
  | .keygen _ block | .offline _ block | .voting _ block => block

def getI : ProtocolType → UInt16
  | .keygen i _ | .offline i _ | .voting i _ => i

def takes : ProtocolType → NetworkMsgPayload → Bool
  | .keygen .., .keygen _ | .offline .., .offline _ | .voting .., .vote _ => true
  | _, _ => false

theorem isSome_senderId_of_takes {streamType : ProtocolType} {payload : NetworkMsgPayload}
    (h : streamType.takes payload = true) :
    payload.asyncProtoOnlyGetSenderId.isSome = true := by
  cases payload with
  | keygen | offline | vote => rfl
  | publicKeyBroadcast | misbehaviourBroadcast => cases streamType <;> cases h

end ProtocolType

inductive DKGError where
  | genericError (reason : String)
  | vote (reason : String)
  | criticalError (reason : String)
  | noAuthorityAccounts
  | noHeader
  | invalidPeerId
  | inputOutOfBounds
  | cannotSign
deriving DecidableEq

structure Msg where
  sender : UInt16
  receiver : Option UInt16
  body : DKGMessage
deriving DecidableEq

def associatedBlockIdMessageDeliveryTolerance : ℕ := 8

def associatedBlockIdAcceptable (expected received : ℕ) : Bool :=
  let isAcceptableAbove := decide (expected ≤ received) && decide
    (received ≤ saturatingAdd 64 expected associatedBlockIdMessageDeliveryTolerance)
  let isAcceptableBelow := decide (received < expected) && decide
    (expected - associatedBlockIdMessageDeliveryTolerance ≤ received)
  let isEqual := expected == received
  isAcceptableAbove || isAcceptableBelow || isEqual

/-- The digest of a header, as far as it is addressed to the DKG engine. -/
structure Header (L : Limits) where
  digest : List (ConsensusLog L)

/-- What a node knows of the chain: its latest header, and the answers of the runtime API
at a header, if it answers. -/
structure Node (L : Limits) where
  latestHeader : Option (Header L)
  authoritySet : Header L → Option (AuthoritySet L)
  queuedAuthoritySet : Header L → Option (AuthoritySet L)

section Receive

variable {L : Limits}

def matchConsensusLog : ConsensusLog L → Option (AuthoritySet L × AuthoritySet L)
  | .authoritiesChange active queued => some (active, queued)
  | _ => none

def findAuthoritiesChange (header : Header L) :
    Option (AuthoritySet L × AuthoritySet L) :=
  header.digest.findSome? matchConsensusLog

def validatorSetInner (node : Node L) (header : Header L) :
    Option (AuthoritySet L × AuthoritySet L) :=
  match findAuthoritiesChange header with
  | some (new, queued) => some (new, queued)
  | none =>
      match node.authoritySet header, node.queuedAuthoritySet header with
      | some current, some queued => some (current, queued)
      | _, _ => none

def knownAuthorities (node : Node L) : Option (List Public × List Public) :=
  match node.latestHeader with
  | some header =>
      (validatorSetInner node header).map fun a =>
        (a.1.authorities.toList, a.2.authorities.toList)
  | none => none

variable (crypto : Crypto) (encode : DKGMessage → Bytes)

def verifySignatureAgainstAuthorities (node : Node L) (signed : SignedDKGMessage) :
    Except DKGError DKGMessage :=
  let encoded := encode signed.msg
  match signed.signature with
  | none => .error (.genericError "Signature not found in signed_dkg_msg")
  | some signature =>
      match knownAuthorities node with
      | none => .error (.genericError "No authorities")
      | some (active, queued) =>
          if (verifySignerFromSetEcdsa crypto active encoded signature).2 ||
              (verifySignerFromSetEcdsa crypto queued encoded signature).2 then
            .ok signed.msg
          else
            .error (.genericError
              "Message signature is not from a registered authority or next authority")

def transform (node : Node L) (streamType : ProtocolType) (thisSessionId : ℕ)
    (signed : SignedDKGMessage) : Except DKGError (Option Msg) :=
  if h : streamType.takes signed.msg.payload then
    let sender := signed.msg.payload.asyncProtoOnlyGetSenderId.get
      (ProtocolType.isSome_senderId_of_takes h)
    if sender ≠ streamType.getI then
      if signed.msg.sessionId = thisSessionId then
        if associatedBlockIdAcceptable streamType.getAssociatedBlockId
            signed.msg.associatedBlockId then
          match verifySignatureAgainstAuthorities crypto encode node signed with
          | .ok body => .ok (some ⟨sender, none, body⟩)
          | .error err => .error err
        else .ok none
      else .ok none
    else .ok none
  else .ok none

/-- The stream of a protocol, from the messages that the node receives one after the
other.  Messages that are skipped or fail leave no trace in it. -/
def incoming (streamType : ProtocolType) (thisSessionId : ℕ)
    (received : List (Node L × SignedDKGMessage)) : List Msg :=
  received.filterMap fun entry =>
    match transform crypto encode entry.1 streamType thisSessionId entry.2 with
    | .ok msg => msg
    | .error _ => none

end Receive

section Voting

variable {PartialSignature : Type} (parse : Bytes → Except String PartialSignature)

def collectPartialSigs (hashOfProposal : Bytes) (numberOfPartialSigs : ℕ) :
    List Msg → List UInt16 → List PartialSignature →
      Except DKGError (List PartialSignature)
  | [], _, sigs =>
      if sigs.length ≠ numberOfPartialSigs then
        .error (.vote "Invalid number of received partial sigs")
      else .ok sigs
  | msg :: stream, receivedSigs, sigs =>
      match msg.body.payload with
      | .vote dkgVoteMsg =>
          if dkgVoteMsg.roundKey = hashOfProposal then
            if msg.sender ∈ receivedSigs then
              collectPartialSigs hashOfProposal numberOfPartialSigs stream receivedSigs sigs
            else
              match parse dkgVoteMsg.partialSignature with
              | .error err => .error (.genericError err)
              | .ok sig =>
                  if (sigs ++ [sig]).length = numberOfPartialSigs then .ok (sigs ++ [sig])
                  else
                    collectPartialSigs hashOfProposal numberOfPartialSigs stream
                      (msg.sender :: receivedSigs) (sigs ++ [sig])
          else
            collectPartialSigs hashOfProposal numberOfPartialSigs stream receivedSigs sigs
      | _ => collectPartialSigs hashOfProposal numberOfPartialSigs stream receivedSigs sigs

def VotesWith (hashOfProposal : Bytes) (msg : Msg) (sig : PartialSignature) : Prop :=
  ∃ vote, msg.body.payload = .vote vote ∧ vote.roundKey = hashOfProposal ∧
    parse vote.partialSignature = .ok sig

def CollectedFrom (hashOfProposal : Bytes) (stream : List Msg) (receivedSigs : List UInt16)
    (sigs : List PartialSignature) : Prop :=
  ∃ votes : List Msg, votes.Sublist stream ∧ (votes.map Msg.sender).Nodup ∧
    (∀ msg ∈ votes, msg.sender ∉ receivedSigs) ∧
    List.Forall₂ (VotesWith parse hashOfProposal) votes sigs

variable {parse} {hashOfProposal : Bytes} {msg : Msg} {stream : List Msg}
variable {receivedSigs : List UInt16} {sig : PartialSignature}
variable {sigs out : List PartialSignature}

theorem CollectedFrom.skip (h : CollectedFrom parse hashOfProposal stream receivedSigs sigs) :
    CollectedFrom parse hashOfProposal (msg :: stream) receivedSigs sigs := by
  obtain ⟨votes, hsub, hvotes⟩ := h
  exact ⟨votes, hsub.cons msg, hvotes⟩

theorem CollectedFrom.vote (hnew : msg.sender ∉ receivedSigs)
    (hvote : VotesWith parse hashOfProposal msg sig)
    (h : CollectedFrom parse hashOfProposal stream (msg.sender :: receivedSigs) sigs) :
    CollectedFrom parse hashOfProposal (msg :: stream) receivedSigs (sig :: sigs) := by
  obtain ⟨votes, hsub, hnodup, hfresh, hforall⟩ := h
  refine ⟨msg :: votes, hsub.cons_cons msg, ?_, ?_, .cons hvote hforall⟩
  · rw [List.map_cons, List.nodup_cons]
    refine ⟨?_, hnodup⟩
    intro hmem
    obtain ⟨other, hother, hsender⟩ := List.mem_map.mp hmem
    exact hfresh other hother (hsender ▸ List.mem_cons_self)
  · rw [List.forall_mem_cons]
    refine ⟨hnew, ?_⟩
    intro other hother hmem
    exact hfresh other hother (List.mem_cons_of_mem _ hmem)

theorem collectedFrom_nil :
    CollectedFrom parse hashOfProposal stream receivedSigs [] :=
  ⟨[], List.nil_sublist stream, List.nodup_nil, by simp, .nil⟩

theorem collectPartialSigs_ok {number : ℕ}
    (h : collectPartialSigs parse hashOfProposal number stream receivedSigs sigs = .ok out) :
    out.length = number ∧ ∃ new, out = sigs ++ new ∧
      CollectedFrom parse hashOfProposal stream receivedSigs new := by
  induction stream generalizing receivedSigs sigs with
  | nil =>
      rw [collectPartialSigs] at h
      split at h
      · cases h
      · rename_i hlength
        obtain rfl := Except.ok.inj h
        exact ⟨not_not.mp hlength, [], (List.append_nil _).symm, collectedFrom_nil⟩
  | cons msg stream ih =>
      have hskip : collectPartialSigs parse hashOfProposal number stream receivedSigs sigs =
          .ok out → out.length = number ∧ ∃ new, out = sigs ++ new ∧
            CollectedFrom parse hashOfProposal (msg :: stream) receivedSigs new := by
        intro hrest
        obtain ⟨hlength, new, hout, hnew⟩ := ih hrest
        exact ⟨hlength, new, hout, hnew.skip⟩
      rw [collectPartialSigs] at h
      split at h
      · rename_i vote hpayload
        split at h
        · rename_i hround
          split at h
          · exact hskip h
          · rename_i hfresh
            split at h
            · cases h
            · rename_i sig hparse
              have hvote : VotesWith parse hashOfProposal msg sig :=
                ⟨vote, hpayload, hround, hparse⟩
              split at h
              · rename_i hlength
                obtain rfl := Except.ok.inj h
                exact ⟨hlength, [sig], rfl, .vote hfresh hvote collectedFrom_nil⟩
              · obtain ⟨hlength, new, rfl, hnew⟩ := ih h
                exact ⟨hlength, sig :: new, List.append_assoc _ _ _,
                  hnew.vote hfresh hvote⟩
        · exact hskip h
      · exact hskip h

end Voting

section Lemmas

variable {L : Limits} {crypto : Crypto} {encode : DKGMessage → Bytes}
variable {node : Node L} {streamType : ProtocolType} {thisSessionId : ℕ}
variable {signed : SignedDKGMessage}

def members (node : Node L) : List Public :=
  match knownAuthorities node with
  | some (active, queued) => active ++ queued
  | none => []

def SignedBy (crypto : Crypto) (encode : DKGMessage → Bytes) (signed : SignedDKGMessage)
    (authority : Public) : Prop :=
  ∃ signature, signed.signature = some signature ∧
    recoversTo crypto (encode signed.msg) signature (xCoordinate authority) = true

def RoutedFrom (streamType : ProtocolType) (thisSessionId : ℕ) (msg : DKGMessage)
    (sender : UInt16) : Prop :=
  streamType.takes msg.payload = true ∧
    msg.payload.asyncProtoOnlyGetSenderId = some sender ∧
    sender ≠ streamType.getI ∧ msg.sessionId = thisSessionId ∧
    associatedBlockIdAcceptable streamType.getAssociatedBlockId msg.associatedBlockId = true

theorem associatedBlockIdAcceptable_self (block : ℕ) :
    associatedBlockIdAcceptable block block = true := by
  simp [associatedBlockIdAcceptable]

theorem verifySignature_eq_ok {body : DKGMessage} :
    verifySignatureAgainstAuthorities crypto encode node signed = .ok body ↔
      body = signed.msg ∧ ∃ authority ∈ members node,
        SignedBy crypto encode signed authority := by
  simp only [verifySignatureAgainstAuthorities, members, SignedBy]
  cases signed.signature with
  | none => simp
  | some signature =>
      cases knownAuthorities node with
      | none => simp
      | some sets =>
          obtain ⟨active, queued⟩ := sets
          simp only [Bool.or_eq_true, verifySignerFromSetEcdsa_success, ← exists_or,
            ← or_and_right, ← List.mem_append, Option.some.injEq, exists_eq_left']
          split
          · rename_i hsigned
            rw [and_iff_left hsigned, Except.ok.injEq, eq_comm]
          · rename_i hunsigned
            simp only [hunsigned, reduceCtorEq, and_false]

theorem transform_eq_some {out : Msg} :
    transform crypto encode node streamType thisSessionId signed = .ok (some out) ↔
      ∃ sender, out = ⟨sender, none, signed.msg⟩ ∧
        RoutedFrom streamType thisSessionId signed.msg sender ∧
        ∃ authority ∈ members node, SignedBy crypto encode signed authority := by
  simp only [transform, RoutedFrom]
  by_cases htakes : streamType.takes signed.msg.payload = true
  · obtain ⟨sender, hsender⟩ := Option.isSome_iff_exists.mp
      (ProtocolType.isSome_senderId_of_takes htakes)
    simp only [htakes, hsender, dite_true, Option.get_some, true_and, Option.some.injEq]
    by_cases hroute : sender ≠ streamType.getI ∧ signed.msg.sessionId = thisSessionId ∧
        associatedBlockIdAcceptable streamType.getAssociatedBlockId
          signed.msg.associatedBlockId = true
    · rw [if_pos hroute.1, if_pos hroute.2.1, if_pos hroute.2.2]
      constructor
      · intro h
        split at h
        · rename_i body hverify
          obtain ⟨rfl, hsigned⟩ := verifySignature_eq_ok.mp hverify
          injection h with h
          exact ⟨sender, (Option.some.inj h).symm, ⟨rfl, hroute⟩, hsigned⟩
        · cases h
      · rintro ⟨_, rfl, ⟨rfl, -⟩, hsigned⟩
        rw [verifySignature_eq_ok.mpr ⟨rfl, hsigned⟩]
    · constructor
      · intro h
        split_ifs at h with hi hsession hblock
        · exact absurd ⟨hi, hsession, hblock⟩ hroute
        all_goals cases h
      · rintro ⟨_, -, ⟨rfl, hrouted⟩, -⟩
        exact absurd hrouted hroute
  · simp [htakes]

end Lemmas

end DkgSubstrate.IncomingMessages
