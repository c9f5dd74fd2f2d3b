import DkgSubstrate.IncomingMessages
import DkgSubstrate.SampleRuntime

/-!
Who has signed the messages that a running protocol hears from a party index.
-/

namespace DkgSubstrate.SenderAuthenticity

open DkgSubstrate.IncomingMessages
open DkgSubstrate.Primitives
open DkgSubstrate.SampleRuntime
open DkgSubstrate.Words

variable {L : Limits}

/-- The parties of a protocol.  The best authorities are numbered for the keygen, and the
signers of a batch are numbered by their positions in `signers`, from one on. -/
structure Participants where
  bestAuthorities : List (UInt16 × Public)
  signers : List UInt16

namespace Participants

variable (participants : Participants)

def authorityOf (keygenPartyId : UInt16) : Option Public :=
  participants.bestAuthorities.findSome? fun entry =>
    if entry.1 = keygenPartyId then some entry.2 else none

def holder (streamType : ProtocolType) (i : UInt16) : Option Public :=
  match streamType with
  | .keygen .. => participants.authorityOf i
  | .offline .. | .voting .. =>
      if i = 0 then none
      else participants.signers[i.toNat - 1]?.bind participants.authorityOf

end Participants

variable (crypto : Crypto) (encode : DKGMessage → Bytes) (node : Node L)
variable (participants : Participants) (streamType : ProtocolType) (thisSessionId : ℕ)

/-- If the protocol hears the message from an index, then the holder of the index has
signed it. -/
def SenderAuthentic (signed : SignedDKGMessage) : Prop :=
  ∀ out, transform crypto encode node streamType thisSessionId signed = .ok (some out) →
    ∃ authority, participants.holder streamType out.sender = some authority ∧
      SignedBy crypto encode signed authority

def NamesSigner (signed : SignedDKGMessage) : Prop :=
  ∀ sender, RoutedFrom streamType thisSessionId signed.msg sender →
    ∀ signer ∈ members node, SignedBy crypto encode signed signer →
      ∃ authority, participants.holder streamType sender = some authority ∧
        xCoordinate authority = xCoordinate signer

/-- Every member holds every index but that of the local party. -/
def HoldsEveryIndex : Prop :=
  ∀ signer ∈ members node, ∀ i, i ≠ streamType.getI →
    ∃ authority, participants.holder streamType i = some authority ∧
      xCoordinate authority = xCoordinate signer

def CanSign (authorities : List Public) : Prop :=
  ∀ authority ∈ authorities, ∀ msg, ∃ signature,
    recoversTo crypto (encode msg) signature (xCoordinate authority) = true

variable {crypto encode node participants streamType thisSessionId}

theorem signedBy_iff_of_signedBy {signed : SignedDKGMessage} {signer authority : Public}
    (h : SignedBy crypto encode signed signer) :
    SignedBy crypto encode signed authority ↔
      xCoordinate authority = xCoordinate signer := by
  obtain ⟨signature, hsignature, hrecovers⟩ := h
  constructor
  · rintro ⟨_, hsame, hother⟩
    obtain rfl := Option.some.inj (hsignature.symm.trans hsame)
    exact (recoversTo_iff_of_recoversTo hrecovers).mp hother
  · intro hx
    exact ⟨signature, hsignature, hx ▸ hrecovers⟩

theorem senderAuthentic_iff_namesSigner {signed : SignedDKGMessage} :
    SenderAuthentic crypto encode node participants streamType thisSessionId signed ↔
      NamesSigner crypto encode node participants streamType thisSessionId signed := by
  constructor
  · intro h sender hrouted signer hmember hsigner
    obtain ⟨authority, hholder, hauthority⟩ := h ⟨sender, none, signed.msg⟩
      (transform_eq_some.mpr ⟨sender, rfl, hrouted, signer, hmember, hsigner⟩)
    exact ⟨authority, hholder, (signedBy_iff_of_signedBy hsigner).mp hauthority⟩
  · intro h out hout
    obtain ⟨sender, rfl, hrouted, signer, hmember, hsigner⟩ := transform_eq_some.mp hout
    obtain ⟨authority, hholder, hx⟩ := h sender hrouted signer hmember hsigner
    exact ⟨authority, hholder, (signedBy_iff_of_signedBy hsigner).mpr hx⟩

theorem not_senderAuthentic {signed : SignedDKGMessage} {out : Msg}
    {authority signer : Public}
    (hheard : transform crypto encode node streamType thisSessionId signed = .ok (some out))
    (hholder : participants.holder streamType out.sender = some authority)
    (hsigner : SignedBy crypto encode signed signer)
    (hx : xCoordinate authority ≠ xCoordinate signer) :
    ¬ SenderAuthentic crypto encode node participants streamType thisSessionId signed := by
  intro h
  obtain ⟨_, hsame, hauthority⟩ := h out hheard
  obtain rfl := Option.some.inj (hholder.symm.trans hsame)
  exact hx ((signedBy_iff_of_signedBy hsigner).mp hauthority)

theorem exists_heard (hsign : CanSign crypto encode (members node)) {signer : Public}
    (hmember : signer ∈ members node) {msg : DKGMessage} {i : UInt16}
    (hrouted : RoutedFrom streamType thisSessionId msg i) :
    ∃ signed : SignedDKGMessage, signed.msg = msg ∧ SignedBy crypto encode signed signer ∧
      transform crypto encode node streamType thisSessionId signed =
        .ok (some ⟨i, none, msg⟩) := by
  obtain ⟨signature, hrecovers⟩ := hsign signer hmember msg
  have hby : SignedBy crypto encode ⟨msg, some signature⟩ signer :=
    ⟨signature, rfl, hrecovers⟩
  exact ⟨⟨msg, some signature⟩, rfl, hby,
    transform_eq_some.mpr ⟨i, rfl, hrouted, signer, hmember, hby⟩⟩

def payloadFrom (streamType : ProtocolType) (i : UInt16) : NetworkMsgPayload :=
  match streamType with
  | .keygen .. => .keygen ⟨i, [], List.Vector.replicate 32 0⟩
  | .offline .. => .offline ⟨[], i.toUInt64, [], List.Vector.replicate 32 0⟩
  | .voting .. => .vote ⟨i, [], [], List.Vector.replicate 32 0⟩

def messageFrom (streamType : ProtocolType) (thisSessionId : ℕ)
    (payload : NetworkMsgPayload) : DKGMessage where
  senderId := List.Vector.replicate 33 0
  recipientId := none
  payload := payload
  sessionId := thisSessionId
  associatedBlockId := streamType.getAssociatedBlockId
  ssid := 0

theorem routedFrom_messageFrom {payload : NetworkMsgPayload} {i : UInt16}
    (htakes : streamType.takes payload = true)
    (hsender : payload.asyncProtoOnlyGetSenderId = some i) (hi : i ≠ streamType.getI) :
    RoutedFrom streamType thisSessionId (messageFrom streamType thisSessionId payload) i :=
  ⟨htakes, hsender, hi, rfl, associatedBlockIdAcceptable_self _⟩

theorem routedFrom_payloadFrom {i : UInt16} (hi : i ≠ streamType.getI) :
    RoutedFrom streamType thisSessionId
      (messageFrom streamType thisSessionId (payloadFrom streamType i)) i := by
  refine routedFrom_messageFrom ?_ ?_ hi
  · cases streamType <;> rfl
  · cases streamType with
    | keygen => rfl
    | offline => simp [payloadFrom, NetworkMsgPayload.asyncProtoOnlyGetSenderId]
    | voting => rfl

/-- The sender of a message is authentic exactly if the message names an index of its
signer, but nothing makes a member do so: all messages that the members can send are
authentic exactly if every member holds every index. -/
theorem senderAuthentic_transform_iff (participants : Participants)
    (streamType : ProtocolType) (thisSessionId : ℕ)
    (hsign : CanSign crypto encode (members node)) :
    (∀ signed,
      SenderAuthentic crypto encode node participants streamType thisSessionId signed ↔
        NamesSigner crypto encode node participants streamType thisSessionId signed) ∧
    ((∀ signed,
      SenderAuthentic crypto encode node participants streamType thisSessionId signed) ↔
        HoldsEveryIndex node participants streamType) := by
  refine ⟨fun _ => senderAuthentic_iff_namesSigner, ?_, ?_⟩
  · intro h signer hmember i hi
    have hrouted : RoutedFrom streamType thisSessionId _ i := routedFrom_payloadFrom hi
    obtain ⟨signed, -, hby, hheard⟩ := exists_heard hsign hmember hrouted
    obtain ⟨authority, hholder, hauthority⟩ := h signed _ hheard
    exact ⟨authority, hholder, (signedBy_iff_of_signedBy hby).mp hauthority⟩
  · intro h signed
    rw [senderAuthentic_iff_namesSigner]
    rintro sender ⟨-, -, hi, -⟩ signer hmember -
    exact h signer hmember sender hi

section Voting

variable {PartialSignature : Type} {parse : Bytes → Except String PartialSignature}
variable {hashOfProposal bytes : Bytes} {sig : PartialSignature}

def voteFrom (hashOfProposal bytes : Bytes) (i : UInt16) : NetworkMsgPayload :=
  .vote ⟨i, hashOfProposal, bytes, List.Vector.replicate 32 0⟩

theorem collectPartialSigs_votes (hparse : parse bytes = .ok sig) {number : ℕ}
    {messageOf : NetworkMsgPayload → DKGMessage}
    (hpayload : ∀ payload, (messageOf payload).payload = payload)
    {indices receivedSigs : List UInt16} {sigs : List PartialSignature}
    (hnodup : indices.Nodup) (hnew : ∀ i ∈ indices, i ∉ receivedSigs)
    (hnumber : sigs.length + indices.length = number) :
    collectPartialSigs parse hashOfProposal number
        (indices.map fun i => ⟨i, none, messageOf (voteFrom hashOfProposal bytes i)⟩)
        receivedSigs sigs =
      .ok (sigs ++ List.replicate indices.length sig) := by
  induction indices generalizing receivedSigs sigs with
  | nil => simp_all [collectPartialSigs]
  | cons i indices ih =>
      obtain ⟨hi, hnodup⟩ := List.nodup_cons.mp hnodup
      have hfresh : i ∉ receivedSigs := hnew i List.mem_cons_self
      simp only [List.map_cons, collectPartialSigs, hpayload, voteFrom, if_true, hfresh,
        if_false, hparse]
      have happend : sigs ++ List.replicate (i :: indices).length sig =
          (sigs ++ [sig]) ++ List.replicate indices.length sig := by
        rw [List.length_cons, List.replicate_succ, List.append_assoc, List.singleton_append]
      rw [happend]
      split
      · rename_i hlast
        have hnil : indices.length = 0 := by
          simp only [List.length_append, List.length_cons, List.length_nil] at hlast hnumber
          omega
        rw [hnil, List.replicate_zero, List.append_nil]
      · refine ih hnodup ?_ ?_
        · intro j hj
          rw [List.mem_cons, not_or]
          exact ⟨fun hij => hi (hij ▸ hj), hnew j (List.mem_cons_of_mem i hj)⟩
        · simp only [List.length_append, List.length_cons, List.length_nil] at hnumber ⊢
          omega

theorem collectPartialSigs_of_senderAuthentic {number : ℕ} {out : List PartialSignature}
    {received : List (Node L × SignedDKGMessage)}
    (hauthentic : ∀ entry ∈ received,
      SenderAuthentic crypto encode entry.1 participants streamType thisSessionId entry.2)
    (h : collectPartialSigs parse hashOfProposal number
      (incoming crypto encode streamType thisSessionId received) [] [] = .ok out) :
    ∃ indices : List UInt16, indices.Nodup ∧ indices.length = number ∧
      ∀ i ∈ indices, ∃ entry ∈ received, ∃ authority,
        participants.holder streamType i = some authority ∧
          SignedBy crypto encode entry.2 authority := by
  obtain ⟨hlength, new, rfl, votes, hsub, hnodup, -, hforall⟩ := collectPartialSigs_ok h
  refine ⟨votes.map Msg.sender, hnodup, ?_, ?_⟩
  · rw [List.length_map, hforall.length_eq]
    exact hlength
  · intro i hi
    obtain ⟨msg, hmsg, rfl⟩ := List.mem_map.mp hi
    obtain ⟨entry, hentry, htransform⟩ := List.mem_filterMap.mp (hsub.subset hmsg)
    refine ⟨entry, hentry, ?_⟩
    split at htransform
    · rename_i heard hheard
      obtain rfl := htransform
      exact hauthentic entry hentry msg hheard
    · cases htransform

theorem exists_incoming_votes {i₀ : UInt16} {block : ℕ}
    (hsign : CanSign crypto encode (members node)) {signer : Public}
    (hmember : signer ∈ members node) {indices : List UInt16} (hother : i₀ ∉ indices) :
    ∃ received : List SignedDKGMessage,
      (∀ signed ∈ received, SignedBy crypto encode signed signer) ∧
      incoming crypto encode (.voting i₀ block) thisSessionId
          (received.map fun signed => (node, signed)) =
        indices.map fun i => ⟨i, none, messageFrom (.voting i₀ block) thisSessionId
          (voteFrom hashOfProposal bytes i)⟩ := by
  induction indices with
  | nil => exact ⟨[], by simp, rfl⟩
  | cons i indices ih =>
      rw [List.mem_cons, not_or] at hother
      obtain ⟨received, hby, hincoming⟩ := ih hother.2
      have hrouted : RoutedFrom (.voting i₀ block) thisSessionId
          (messageFrom (.voting i₀ block) thisSessionId (voteFrom hashOfProposal bytes i)) i :=
        routedFrom_messageFrom rfl rfl (Ne.symm hother.1)
      obtain ⟨signed, -, hsigned, hheard⟩ := exists_heard hsign hmember hrouted
      refine ⟨signed :: received, List.forall_mem_cons.mpr ⟨hsigned, hby⟩, ?_⟩
      simp only [incoming, List.map_cons, List.filterMap_cons, hheard] at hincoming ⊢
      rw [hincoming]

theorem collectPartialSigs_of_one_signer {i₀ : UInt16} {block : ℕ}
    (hsign : CanSign crypto encode (members node)) {signer : Public}
    (hmember : signer ∈ members node) (hparse : parse bytes = .ok sig)
    {indices : List UInt16} (hnodup : indices.Nodup) (hother : i₀ ∉ indices) :
    ∃ received : List SignedDKGMessage,
      (∀ signed ∈ received, SignedBy crypto encode signed signer) ∧
      collectPartialSigs parse hashOfProposal indices.length
          (incoming crypto encode (.voting i₀ block) thisSessionId
            (received.map fun signed => (node, signed))) [] [] =
        .ok (List.replicate indices.length sig) := by
  obtain ⟨received, hby, hincoming⟩ := exists_incoming_votes hsign hmember hother
  refine ⟨received, hby, ?_⟩
  rw [hincoming, collectPartialSigs_votes hparse (fun _ => rfl) hnodup (by simp) (by simp)]
  rfl

end Voting

def sampleNode (n : ℕ) : Node runtimeLimits where
  latestHeader := some ⟨[]⟩
  authoritySet _ :=
    some ⟨(BoundedVec.tryFrom ((sampleValidators n).map Prod.snd)).getD default, 0⟩
  queuedAuthoritySet _ := some ⟨default, 1⟩

def sampleParticipants (n : ℕ) : Participants where
  bestAuthorities := (List.range n).map fun i =>
    (UInt16.ofNat (i + 1), samplePublic (UInt8.ofNat (i + 1)))
  signers := (List.range (n - 1)).map fun i => UInt16.ofNat (i + 2)

def sampleEncode (msg : DKGMessage) : Bytes :=
  match msg.payload with
  | .keygen m => 0 :: toBeBytes 2 m.senderId.toNat
  | .offline m => 1 :: toBeBytes 8 m.signerSetId.toNat
  | .vote m => 2 :: toBeBytes 2 m.partyInd.toNat ++ m.roundKey ++ m.partialSignature
  | _ => [3]

def sampleMessage (streamType : ProtocolType) (payload : NetworkMsgPayload)
    (signer : UInt8) : SignedDKGMessage :=
  let msg := messageFrom streamType 0 payload
  ⟨msg, some (sampleSignature signer (sampleEncode msg))⟩

theorem canSign_sampleNode : CanSign sampleCrypto sampleEncode (members (sampleNode 3)) := by
  intro authority hmember msg
  have hmembers : members (sampleNode 3) =
      [samplePublic 1, samplePublic 2, samplePublic 3] := by decide +kernel
  rw [hmembers] at hmember
  simp only [List.mem_cons, List.not_mem_nil, or_false] at hmember
  rcases hmember with rfl | rfl | rfl
  all_goals exact ⟨_, recoversTo_sampleSignature _ _⟩

theorem senderAuthentic_transform_of_three :
    SenderAuthentic sampleCrypto sampleEncode (sampleNode 3) (sampleParticipants 3)
      (.keygen 1 10) 0 (sampleMessage (.keygen 1 10) (payloadFrom (.keygen 1 10) 2) 2) ∧
    ¬ ∀ signed, SenderAuthentic sampleCrypto sampleEncode (sampleNode 3)
      (sampleParticipants 3) (.keygen 1 10) 0 signed := by
  obtain ⟨hone, hall⟩ := senderAuthentic_transform_iff (sampleParticipants 3)
    (.keygen 1 10) 0 canSign_sampleNode
  constructor
  · rw [hone]
    rintro sender ⟨-, hsender, -⟩ signer - hsigner
    obtain rfl := Option.some.inj hsender
    refine ⟨samplePublic 2, by decide +kernel, ?_⟩
    exact (signedBy_iff_of_signedBy hsigner).mp ⟨_, rfl, recoversTo_sampleSignature _ _⟩
  · rw [hall]
    intro hholds
    have hmember : samplePublic 2 ∈ members (sampleNode 3) := by decide +kernel
    obtain ⟨authority, hholder, -⟩ := hholds _ hmember 7 (by decide)
    have hnone : (sampleParticipants 3).holder (.keygen 1 10) 7 = none := by decide +kernel
    rw [hnone] at hholder
    cases hholder

theorem senderAuthentic_fails_with_other_index :
    let keygen := ProtocolType.keygen 1 10
    let offline := ProtocolType.offline 2 10
    let second := sampleMessage keygen (payloadFrom keygen 2) 3
    let third := sampleMessage keygen (payloadFrom keygen 3) 3
    let first := sampleMessage offline
      (.offline ⟨[], 65537, [], List.Vector.replicate 32 0⟩) 3
    transform sampleCrypto sampleEncode (sampleNode 3) keygen 0 second =
        .ok (some ⟨2, none, second.msg⟩) ∧
      transform sampleCrypto sampleEncode (sampleNode 3) keygen 0 third =
        .ok (some ⟨3, none, third.msg⟩) ∧
      transform sampleCrypto sampleEncode (sampleNode 3) offline 0 first =
        .ok (some ⟨1, none, first.msg⟩) ∧
      ¬ SenderAuthentic sampleCrypto sampleEncode (sampleNode 3) (sampleParticipants 3)
        keygen 0 second ∧
      ¬ SenderAuthentic sampleCrypto sampleEncode (sampleNode 3) (sampleParticipants 3)
        offline 0 first := by
  intro keygen offline second third first
  have hsecond : transform sampleCrypto sampleEncode (sampleNode 3) keygen 0 second =
      .ok (some ⟨2, none, second.msg⟩) := by decide +kernel
  have hthird : transform sampleCrypto sampleEncode (sampleNode 3) keygen 0 third =
      .ok (some ⟨3, none, third.msg⟩) := by decide +kernel
  have hfirst : transform sampleCrypto sampleEncode (sampleNode 3) offline 0 first =
      .ok (some ⟨1, none, first.msg⟩) := by decide +kernel
  have hx : xCoordinate (samplePublic 2) ≠ xCoordinate (samplePublic 3) := by decide
  refine ⟨hsecond, hthird, hfirst, ?_, ?_⟩
  · exact not_senderAuthentic hsecond (by decide +kernel)
      ⟨_, rfl, recoversTo_sampleSignature 3 _⟩ hx
  · exact not_senderAuthentic hfirst (by decide +kernel)
      ⟨_, rfl, recoversTo_sampleSignature 3 _⟩ hx

end DkgSubstrate.SenderAuthenticity
