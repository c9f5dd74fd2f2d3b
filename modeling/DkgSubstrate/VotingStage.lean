import DkgSubstrate.SenderAuthenticity
import DkgSubstrate.SignaturePacking
import DkgSubstrate.SignedProposalStore
import DkgSubstrate.SigningIndices
import Mathlib.Data.Bool.AllAny
import Mathlib.Data.List.Perm.Basic

/-!
The voting stage of a signing protocol, in which the parties exchange their partial signatures of
a batch and each of them completes the signature for itself.
-/

namespace DkgSubstrate.VotingStage

open DkgSubstrate.Dispatch (bind_eq_ok mapError_eq_ok)
open DkgSubstrate.IncomingMessages
open DkgSubstrate.Primitives
open DkgSubstrate.Proposals
open DkgSubstrate.SampleRuntime
open DkgSubstrate.SenderAuthenticity (sampleEncode sampleNode)
open DkgSubstrate.SignaturePacking
open DkgSubstrate.SignedProposalStore (BatchKey VoteResult)
open DkgSubstrate.SigningIndices (SignMisbehaviour badActorsToAuthorities)
open DkgSubstrate.StorageMap
open DkgSubstrate.Words

structure ErrorType where
  errorType : String
  badActors : List UInt16

inductive ProceedError where
  | round1 (e : ErrorType)
  | round2Stage4 (e : ErrorType)
  | round3 (e : ErrorType)
  | round5 (e : ErrorType)
  | round6VerifyProof (e : ErrorType)
  | other (text : String)

inductive SignError where
  | localSigning (e : ProceedError)
  | completeSigning (e : ProceedError)
  | other (text : String)

inductive ProtocolError where
  | keygenMisbehaviour (reason : String) (badActors : List Public) (sessionId : ℕ)
  | keygenTimeout (badActors : List Public) (sessionId : ℕ)
  | signMisbehaviour (error : SignMisbehaviour)
  | other (error : DKGError)

def convertMpcSignErrorToDkgErrorSigning (error : SignError) (sessionId : ℕ)
    (mapping : StorageMap ℕ Public) : SignMisbehaviour :=
  let blame (e : ErrorType) : SignMisbehaviour :=
    { reason := e.errorType
      badActors := badActorsToAuthorities e.badActors mapping
      sessionId := sessionId }
  match error with
  | .localSigning (.round1 e) | .completeSigning (.round1 e) => blame e
  | .localSigning (.round2Stage4 e) | .completeSigning (.round2Stage4 e) => blame e
  | .localSigning (.round3 e) | .completeSigning (.round3 e) => blame e
  | .localSigning (.round5 e) | .completeSigning (.round5 e) => blame e
  | .localSigning (.round6VerifyProof e) | .completeSigning (.round6VerifyProof e) => blame e
  | .localSigning (.other text) | .completeSigning (.other text) | .other text =>
      { reason := text, badActors := [], sessionId := sessionId }

/-- The library of the threshold signatures. -/
structure Library where
  CompletedOfflineStage : Type
  SignManual : Type
  PartialSignature : Type
  PublicKey : Type
  publicKey : CompletedOfflineStage → PublicKey
  signManual : ℕ → CompletedOfflineStage → Except SignError (SignManual × PartialSignature)
  complete : SignManual → List PartialSignature → Except SignError SignatureRecid
  verify : SignatureRecid → PublicKey → ℕ → Except String Unit
  toVec : PartialSignature → Option Bytes
  fromSlice : Bytes → Except String PartialSignature

structure Params (L : Limits) where
  offlineI : UInt16
  sessionId : ℕ
  associatedBlockId : ℕ
  ssid : UInt16
  authorityPublicKey : Public
  indexToAuthorityMapping : StorageMap ℕ Public
  threshold : ℕ
  unsignedProposalBatch : StoredUnsignedProposalBatch L
  batchKey : BatchKey

variable {L : Limits} (lib : Library) (big : BigInt) (crypto : Crypto)
variable (encode : DKGMessage → Bytes) (p : Params L)

namespace Params

def hashOfProposal : FixedBytes 32 := crypto.keccak256 p.unsignedProposalBatch.data

def protocolType : ProtocolType := .voting p.offlineI p.associatedBlockId

def blame (error : SignError) : ProtocolError :=
  .signMisbehaviour
    (convertMpcSignErrorToDkgErrorSigning error p.sessionId p.indexToAuthorityMapping)

def voteMessage (partialSigBytes : Bytes) : DKGMessage where
  associatedBlockId := p.associatedBlockId
  senderId := p.authorityPublicKey
  recipientId := none
  payload := .vote
    { partyInd := p.offlineI
      roundKey := (p.hashOfProposal crypto).toList
      partialSignature := partialSigBytes
      unsignedProposalHash := p.hashOfProposal crypto }
  sessionId := p.sessionId
  ssid := p.ssid

end Params

def message : ℕ := ofBeBytes (p.hashOfProposal crypto).toList

/-- The first half of the stage: the state in which the party waits, and the vote it has sent. -/
def castVote (completedOfflineStage : lib.CompletedOfflineStage) :
    Except ProtocolError (lib.SignManual × DKGMessage) := do
  let (signing, partialSignature) ←
    (lib.signManual (message crypto p) completedOfflineStage).mapError p.blame
  match lib.toVec partialSignature with
  | none => .error (.other (.genericError "Partial signature is invalid"))
  | some partialSigBytes => .ok (signing, p.voteMessage crypto partialSigBytes)

def newVoting (completedOfflineStage : lib.CompletedOfflineStage)
    (received : List (Node L × SignedDKGMessage)) : Except ProtocolError (VoteResult L) := do
  let (signing, _) ← castVote lib crypto p completedOfflineStage
  let sigs ← (collectPartialSigs lib.fromSlice (p.hashOfProposal crypto).toList p.threshold
    (incoming crypto encode p.protocolType p.sessionId received) [] []).mapError .other
  let signature ← (lib.complete signing sigs).mapError p.blame
  let _ ← (lib.verify signature (lib.publicKey completedOfflineStage)
    (message crypto p)).mapError fun err =>
      .other (.vote ("Verification of voting stage failed with error : " ++ err))
  match convertSignature big signature with
  | none => .error (.other (.criticalError "Unable to serialize signature"))
  | some signature => .ok ⟨signature.toList, p.unsignedProposalBatch, p.batchKey⟩

section Collect

variable {PartialSignature : Type} {parse : Bytes → Except String PartialSignature}
variable {hashOfProposal : Bytes} {partialSig : UInt16 → PartialSignature}
variable {parties receivedSigs : List UInt16} {stream : List Msg}

def Genuine (parse : Bytes → Except String PartialSignature) (hashOfProposal : Bytes)
    (partialSig : UInt16 → PartialSignature) (parties : List UInt16) (msg : Msg) : Prop :=
  ∀ vote, msg.body.payload = .vote vote → vote.roundKey = hashOfProposal →
    msg.sender ∈ parties ∧ parse vote.partialSignature = .ok (partialSig msg.sender)

def IsVote (hashOfProposal : Bytes) (msg : Msg) : Prop :=
  ∃ vote, msg.body.payload = .vote vote ∧ vote.roundKey = hashOfProposal

theorem collect_of_not_isVote {msg : Msg} (h : ¬IsVote hashOfProposal msg) (number : ℕ)
    (sigs : List PartialSignature) :
    collectPartialSigs parse hashOfProposal number (msg :: stream) receivedSigs sigs =
      collectPartialSigs parse hashOfProposal number stream receivedSigs sigs := by
  rw [collectPartialSigs]
  split
  · rename_i vote hpayload
    rw [if_neg fun hround => h ⟨vote, hpayload, hround⟩]
  · rfl

theorem collect_of_seen {msg : Msg} (hseen : msg.sender ∈ receivedSigs) (number : ℕ)
    (sigs : List PartialSignature) :
    collectPartialSigs parse hashOfProposal number (msg :: stream) receivedSigs sigs =
      collectPartialSigs parse hashOfProposal number stream receivedSigs sigs := by
  by_cases h : IsVote hashOfProposal msg
  · obtain ⟨vote, hpayload, hround⟩ := h
    rw [collectPartialSigs, hpayload]
    simp only [if_pos hround, if_pos hseen]
  · exact collect_of_not_isVote h number sigs

theorem collect_genuine (hnodup : parties.Nodup)
    (hgenuine : ∀ msg ∈ stream, Genuine parse hashOfProposal partialSig parties msg)
    (hseen : receivedSigs.Nodup) (hsub : receivedSigs ⊆ parties)
    (hmissing : ∃ j ∈ parties, j ∉ receivedSigs)
    (hvotes : ∀ j ∈ parties, j ∉ receivedSigs →
      ∃ msg ∈ stream, IsVote hashOfProposal msg ∧ msg.sender = j) :
    ∃ sigs, collectPartialSigs parse hashOfProposal parties.length stream receivedSigs
        (receivedSigs.reverse.map partialSig) = .ok sigs ∧
      sigs.Perm (parties.map partialSig) := by
  induction stream generalizing receivedSigs with
  | nil =>
      obtain ⟨j, hj, hnew⟩ := hmissing
      obtain ⟨msg, hmsg, -⟩ := hvotes j hj hnew
      cases hmsg
  | cons msg stream ih =>
      obtain ⟨hfirst, hrest⟩ := List.forall_mem_cons.mp hgenuine
      by_cases hskip : ¬IsVote hashOfProposal msg ∨ msg.sender ∈ receivedSigs
      · -- No missing vote is skipped.
        have hequal : collectPartialSigs parse hashOfProposal parties.length (msg :: stream)
            receivedSigs (receivedSigs.reverse.map partialSig) =
            collectPartialSigs parse hashOfProposal parties.length stream receivedSigs
              (receivedSigs.reverse.map partialSig) :=
          hskip.elim (fun h => collect_of_not_isVote h _ _) fun h => collect_of_seen h _ _
        rw [hequal]
        refine ih hrest hseen hsub hmissing fun j hj hnew => ?_
        obtain ⟨other, hother, hvote, rfl⟩ := hvotes j hj hnew
        rcases List.mem_cons.mp hother with rfl | hmem
        · exact (hskip.elim (fun h => h hvote) hnew).elim
        · exact ⟨other, hmem, hvote, rfl⟩
      · obtain ⟨⟨vote, hpayload, hround⟩, hfresh⟩ := not_or.mp hskip |>.imp_left not_not.mp
        obtain ⟨hparty, hparse⟩ := hfirst vote hpayload hround
        have hsigs : receivedSigs.reverse.map partialSig ++ [partialSig msg.sender] =
            (msg.sender :: receivedSigs).reverse.map partialSig := by
          rw [List.reverse_cons, List.map_append, List.map_singleton]
        have hseen' : (msg.sender :: receivedSigs).Nodup := List.nodup_cons.mpr ⟨hfresh, hseen⟩
        have hsub' : msg.sender :: receivedSigs ⊆ parties := List.cons_subset.mpr ⟨hparty, hsub⟩
        rw [collectPartialSigs, hpayload]
        simp only [if_pos hround, if_neg hfresh, hparse, hsigs]
        by_cases hall : ((msg.sender :: receivedSigs).reverse.map partialSig).length =
            parties.length
        · rw [if_pos hall]
          refine ⟨_, rfl, List.Perm.map _ ?_⟩
          rw [List.length_map, List.length_reverse] at hall
          exact (List.reverse_perm _).trans
            ((hseen'.subperm hsub').perm_of_length_le hall.ge)
        · rw [if_neg hall]
          refine ih hrest hseen' hsub' ?_ fun j hj hnew => ?_
          · by_contra hcomplete
            push Not at hcomplete
            refine hall ?_
            rw [List.length_map, List.length_reverse]
            exact ((hseen'.subperm hsub').length_le).antisymm
              (hnodup.subperm hcomplete).length_le
          · rw [List.mem_cons, not_or] at hnew
            obtain ⟨other, hother, hvote, rfl⟩ := hvotes j hj hnew.2
            rcases List.mem_cons.mp hother with rfl | hmem
            · exact absurd rfl hnew.1
            · exact ⟨other, hmem, hvote, rfl⟩

end Collect

theorem mem_incoming {streamType : ProtocolType} {thisSessionId : ℕ}
    {received : List (Node L × SignedDKGMessage)} {msg : Msg} :
    msg ∈ incoming crypto encode streamType thisSessionId received ↔
      ∃ entry ∈ received,
        transform crypto encode entry.1 streamType thisSessionId entry.2 = .ok (some msg) := by
  rw [incoming, List.mem_filterMap]
  refine exists_congr fun entry => and_congr_right fun _ => ?_
  cases transform crypto encode entry.1 streamType thisSessionId entry.2 with
  | error fault => simp
  | ok out => rw [Except.ok.injEq]

/-- The signing set of a batch.  Its parties have started at their own blocks. -/
structure Round (lib : Library) (L : Limits) where
  parties : List UInt16
  nodup : parties.Nodup
  stage : UInt16 → lib.CompletedOfflineStage
  batch : StoredUnsignedProposalBatch L
  sessionId : ℕ
  ssid : UInt16
  startBlock : UInt16 → ℕ
  authority : UInt16 → Public
  mapping : StorageMap ℕ Public
  batchKey : UInt16 → BatchKey
  near : ∀ i ∈ parties, ∀ j ∈ parties,
    associatedBlockIdAcceptable (startBlock i) (startBlock j) = true

namespace Round

variable {lib} (round : Round lib L)

def params (i : UInt16) : Params L where
  offlineI := i
  sessionId := round.sessionId
  associatedBlockId := round.startBlock i
  ssid := round.ssid
  authorityPublicKey := round.authority i
  indexToAuthorityMapping := round.mapping
  threshold := round.parties.length - 1
  unsignedProposalBatch := round.batch
  batchKey := round.batchKey i

def hash : FixedBytes 32 := crypto.keccak256 round.batch.data

structure Ballots where
  partialSig : UInt16 → lib.PartialSignature
  bytes : UInt16 → Bytes
  fromSlice : ∀ i ∈ round.parties, lib.fromSlice (bytes i) = .ok (partialSig i)

/-- What the library gives the parties of the signing set: from the partial signatures of the
others, in any order, each of them completes the same signature. -/
structure Signs (signature : SignatureRecid) extends round.Ballots where
  manual : UInt16 → lib.SignManual
  signManual : ∀ i ∈ round.parties,
    lib.signManual (ofBeBytes (round.hash crypto).toList) (round.stage i) =
      .ok (manual i, partialSig i)
  toVec : ∀ i ∈ round.parties, lib.toVec (partialSig i) = some (bytes i)
  complete : ∀ i ∈ round.parties, ∀ sigs,
    sigs.Perm ((round.parties.erase i).map partialSig) →
      lib.complete (manual i) sigs = .ok signature
  verify : ∀ i ∈ round.parties,
    lib.verify signature (lib.publicKey (round.stage i))
      (ofBeBytes (round.hash crypto).toList) = .ok ()

variable {round}

def Ballots.vote (ballots : round.Ballots) (i : UInt16) : DKGMessage :=
  (round.params i).voteMessage crypto (ballots.bytes i)

variable {crypto}

def Verified (crypto : Crypto) (encode : DKGMessage → Bytes) (entry : Node L × SignedDKGMessage) :
    Prop :=
  ∃ authority ∈ members entry.1, SignedBy crypto encode entry.2 authority

/-- The party receives the votes of the others at some time, in between anything else, and no
authority makes up a vote for the proposal. -/
structure Heard (ballots : round.Ballots) (crypto : Crypto) (encode : DKGMessage → Bytes)
    (i : UInt16) (received : List (Node L × SignedDKGMessage)) : Prop where
  genuine : ∀ entry ∈ received, Verified crypto encode entry →
    ∀ vote, entry.2.msg.payload = .vote vote → vote.roundKey = (round.hash crypto).toList →
      ∃ j ∈ round.parties, entry.2.msg = ballots.vote crypto j
  votes : ∀ j ∈ round.parties, j ≠ i →
    ∃ entry ∈ received, Verified crypto encode entry ∧ entry.2.msg = ballots.vote crypto j

section Agreement

variable {signature : SignatureRecid} {ballots : round.Ballots} {encode} {i : UInt16}
variable {received : List (Node L × SignedDKGMessage)}

theorem castVote_eq (signs : round.Signs crypto signature) (hi : i ∈ round.parties) :
    castVote lib crypto (round.params i) (round.stage i) =
      .ok (signs.manual i, signs.vote crypto i) := by
  have hsign : lib.signManual (message crypto (round.params i)) (round.stage i) =
      .ok (signs.manual i, signs.partialSig i) := signs.signManual i hi
  simp only [castVote, hsign, signs.toVec i hi, Except.mapError, bind, Except.bind]
  rfl

theorem genuine_of_heard (h : Heard ballots crypto encode i received) :
    ∀ msg ∈ incoming crypto encode (round.params i).protocolType round.sessionId received,
      Genuine lib.fromSlice (round.hash crypto).toList ballots.partialSig (round.parties.erase i)
        msg := by
  intro msg hmsg vote hpayload hround
  obtain ⟨entry, hentry, htransform⟩ := (mem_incoming crypto encode).mp hmsg
  obtain ⟨sender, rfl, hrouted, hverified⟩ := transform_eq_some.mp htransform
  obtain ⟨j, hj, hvote⟩ := h.genuine entry hentry hverified vote hpayload hround
  have hpayload' : (ballots.vote crypto j).payload = .vote vote := hvote ▸ hpayload
  have hbytes : vote.partialSignature = ballots.bytes j := by
    obtain rfl := NetworkMsgPayload.vote.inj hpayload'
    rfl
  have hsender : sender = j := by
    have hid := hrouted.2.1
    rw [hvote] at hid
    exact (Option.some.inj hid).symm
  subst hsender
  have hne : sender ≠ i := hrouted.2.2.1
  rw [hbytes]
  exact ⟨(List.mem_erase_of_ne hne).mpr hj, ballots.fromSlice sender hj⟩

theorem votes_of_heard (h : Heard ballots crypto encode i received) (hi : i ∈ round.parties) :
    ∀ j ∈ round.parties.erase i,
      ∃ msg ∈ incoming crypto encode (round.params i).protocolType round.sessionId received,
        IsVote (round.hash crypto).toList msg ∧ msg.sender = j := by
  intro j hj
  obtain ⟨hne, hparty⟩ := round.nodup.mem_erase_iff.mp hj
  obtain ⟨entry, hentry, hverified, hvote⟩ := h.votes j hparty hne
  refine ⟨⟨j, none, entry.2.msg⟩, (mem_incoming crypto encode).mpr ⟨entry, hentry, ?_⟩, ?_, rfl⟩
  · refine transform_eq_some.mpr ⟨j, rfl, ?_, hverified⟩
    rw [hvote]
    exact ⟨rfl, rfl, hne, rfl, round.near i hi j hparty⟩
  · rw [hvote]
    exact ⟨_, rfl, rfl⟩

theorem collect_of_heard (hsize : 2 ≤ round.parties.length) (hi : i ∈ round.parties)
    (h : Heard ballots crypto encode i received) :
    ∃ sigs, collectPartialSigs lib.fromSlice ((round.params i).hashOfProposal crypto).toList
        (round.params i).threshold (incoming crypto encode (round.params i).protocolType
          (round.params i).sessionId received) [] [] = .ok sigs ∧
      sigs.Perm ((round.parties.erase i).map ballots.partialSig) := by
  have hlength : (round.parties.erase i).length = round.parties.length - 1 :=
    List.length_erase_of_mem hi
  have hmissing : ∃ j ∈ round.parties.erase i, j ∉ ([] : List UInt16) := by
    have hpos : 0 < (round.parties.erase i).length := by omega
    obtain ⟨j, hj⟩ := List.exists_mem_of_length_pos hpos
    exact ⟨j, hj, List.not_mem_nil⟩
  obtain ⟨sigs, hcollect, hperm⟩ := collect_genuine (round.nodup.erase i)
    (genuine_of_heard h) List.nodup_nil (List.nil_subset _) hmissing
    fun j hj _ => votes_of_heard h hi j hj
  rw [hlength] at hcollect
  exact ⟨sigs, hcollect, hperm⟩

theorem newVoting_eq (signs : round.Signs crypto signature)
    {big : BigInt} {sig : FixedBytes 65} (hsig : convertSignature big signature = some sig)
    (hsize : 2 ≤ round.parties.length) (hi : i ∈ round.parties)
    (h : Heard signs.toBallots crypto encode i received) :
    newVoting lib big crypto encode (round.params i) (round.stage i) received =
      .ok ⟨sig.toList, round.batch, round.batchKey i⟩ := by
  obtain ⟨sigs, hcollect, hperm⟩ := collect_of_heard hsize hi h
  have hverify : lib.verify signature (lib.publicKey (round.stage i))
      (message crypto (round.params i)) = .ok () := signs.verify i hi
  simp only [newVoting, castVote_eq signs hi, hcollect, signs.complete i hi sigs hperm, hverify,
    hsig, Except.mapError, bind, Except.bind]
  rfl

/-- In whatever order the votes arrive at the parties, how often and with what in between, all of
them complete the same signature. -/
theorem voting_agrees (signs : round.Signs crypto signature)
    {big : BigInt} {sig : FixedBytes 65} (hsig : convertSignature big signature = some sig)
    (hsize : 2 ≤ round.parties.length) {received : UInt16 → List (Node L × SignedDKGMessage)}
    (h : ∀ i ∈ round.parties, Heard signs.toBallots crypto encode i (received i)) :
    ∀ i ∈ round.parties,
      castVote lib crypto (round.params i) (round.stage i) =
          .ok (signs.manual i, signs.vote crypto i) ∧
      newVoting lib big crypto encode (round.params i) (round.stage i) (received i) =
        .ok ⟨sig.toList, round.batch, round.batchKey i⟩ :=
  fun i hi => ⟨castVote_eq signs hi, newVoting_eq signs hsig hsize hi (h i hi)⟩

end Agreement

end Round

section Sample

def sampleKey : ℕ := ofBeBytes (List.replicate 32 7)

def sampleRecid (r message : ℕ) : SignatureRecid where
  r := r
  s := 7 * 256 ^ 31 + message / 256
  recid := UInt8.ofNat (message % 256) - 27

def sampleLibrary : Library where
  CompletedOfflineStage := ℕ
  SignManual := ℕ × ℕ
  PartialSignature := ℕ
  PublicKey := ℕ
  publicKey _ := sampleKey
  signManual message share := .ok ((message, share), share)
  complete manual sigs := .ok (sampleRecid (manual.2 + sigs.sum) manual.1)
  verify signature key _ := if signature.r = key then .ok () else .error "InvalidSig"
  toVec share := some (toBeBytes 32 share)
  fromSlice bytes := .ok (ofBeBytes bytes)

def sampleShare : UInt16 → ℕ
  | 1 => sampleKey - 5
  | 2 => 2
  | _ => 3

def sampleProposals : StoredUnsignedProposalBatch runtimeLimits where
  batchId := 0
  proposals := (BoundedVec.tryFrom
    [⟨.evm 1, .tokenAddProposal 241, sampleTokenAdd 241⟩]).getD default
  timestamp := 0

theorem sampleRound_near : ∀ i ∈ ([1, 2, 3] : List UInt16), ∀ j ∈ ([1, 2, 3] : List UInt16),
    associatedBlockIdAcceptable (10 + i.toNat) (10 + j.toNat) = true := by
  have hall : ([1, 2, 3] : List UInt16).all (fun i => ([1, 2, 3] : List UInt16).all fun j =>
      associatedBlockIdAcceptable (10 + i.toNat) (10 + j.toNat)) = true := by
    decide +kernel
  simpa only [List.all_eq_true] using hall

def sampleRound : Round sampleLibrary runtimeLimits where
  parties := [1, 2, 3]
  nodup := by decide
  stage := sampleShare
  batch := sampleProposals
  sessionId := 4
  ssid := 0
  startBlock i := 10 + i.toNat
  authority i := samplePublic (UInt8.ofNat i.toNat)
  mapping := ∅
  batchKey _ := ⟨1, 0⟩
  near := sampleRound_near

def sampleMessageNumber : ℕ := ofBeBytes (sampleRound.hash sampleCrypto).toList

theorem sampleShare_add : ∀ i ∈ sampleRound.parties,
    sampleShare i + ((sampleRound.parties.erase i).map sampleShare).sum = sampleKey :=
  List.all_iff_forall_prop.mp (by decide +kernel)

theorem sampleShare_lt : ∀ i ∈ sampleRound.parties, sampleShare i < 256 ^ 32 :=
  List.all_iff_forall_prop.mp (by decide +kernel)

theorem sampleLibrary_complete {i : UInt16} (hi : i ∈ sampleRound.parties) {sigs : List ℕ}
    (hperm : sigs.Perm ((sampleRound.parties.erase i).map sampleShare)) :
    sampleLibrary.complete (sampleMessageNumber, sampleShare i) sigs =
      .ok (sampleRecid sampleKey sampleMessageNumber) := by
  have hsum : sampleShare i + sigs.sum = sampleKey := by
    rw [hperm.sum_eq]
    exact sampleShare_add i hi
  exact congrArg (fun r => Except.ok (sampleRecid r sampleMessageNumber)) hsum

theorem sampleLibrary_verify (key message : ℕ) :
    sampleLibrary.verify (sampleRecid key message) key message = .ok () := by
  simp only [sampleLibrary, sampleRecid, if_true]

def sampleSigns : sampleRound.Signs sampleCrypto (sampleRecid sampleKey sampleMessageNumber) where
  manual i := (sampleMessageNumber, sampleShare i)
  partialSig := sampleShare
  bytes i := toBeBytes 32 (sampleShare i)
  signManual _ _ := rfl
  toVec _ _ := rfl
  fromSlice i hi := congrArg Except.ok (ofBeBytes_toBeBytes (sampleShare_lt i hi))
  complete _ hi _ hperm := sampleLibrary_complete hi hperm
  verify _ _ := sampleLibrary_verify sampleKey sampleMessageNumber

def sampleTraffic (ballots : sampleRound.Ballots) :
    List (Node runtimeLimits × SignedDKGMessage) :=
  ([3, 1, 2, 2] : List UInt16).map fun j =>
    (sampleNode 3, ⟨ballots.vote sampleCrypto j, some (sampleSignature (UInt8.ofNat j.toNat)
      (sampleEncode (ballots.vote sampleCrypto j)))⟩)

theorem heard_sampleTraffic (ballots : sampleRound.Ballots) (i : UInt16) :
    Round.Heard ballots sampleCrypto sampleEncode i (sampleTraffic ballots) where
  genuine entry hentry _ _ _ _ := by
    obtain ⟨j, hj, rfl⟩ := List.mem_map.mp hentry
    have hparty : ([3, 1, 2, 2] : List UInt16) ⊆ sampleRound.parties :=
      List.all_iff_forall_prop.mp (by decide)
    exact ⟨j, hparty hj, rfl⟩
  votes j hj _ := by
    have hsent : sampleRound.parties ⊆ ([3, 1, 2, 2] : List UInt16) :=
      List.all_iff_forall_prop.mp (by decide)
    have hmember : ∀ j ∈ sampleRound.parties,
        samplePublic (UInt8.ofNat j.toNat) ∈ members (sampleNode 3) :=
      List.all_iff_forall_prop.mp (by decide +kernel)
    exact ⟨_, List.mem_map.mpr ⟨j, hsent hj, rfl⟩, ⟨_, hmember j hj, _, rfl,
      recoversTo_sampleSignature _ _⟩, rfl⟩

def sampleReceived : List (Node runtimeLimits × SignedDKGMessage) :=
  sampleTraffic sampleSigns.toBallots

theorem valid_sampleRecid : Valid (sampleRecid sampleKey sampleMessageNumber) where
  r_lt := by decide +kernel
  s_lt := by decide +kernel
  recid_le := by decide +kernel

theorem voting_agrees_sample :
    ∃ sig, convertSignature digitBigInt (sampleRecid sampleKey sampleMessageNumber) = some sig ∧
      ∀ i ∈ sampleRound.parties,
        castVote sampleLibrary sampleCrypto (sampleRound.params i) (sampleRound.stage i) =
          .ok (sampleSigns.manual i, sampleSigns.vote sampleCrypto i) ∧
        newVoting sampleLibrary digitBigInt sampleCrypto sampleEncode (sampleRound.params i)
            (sampleRound.stage i) sampleReceived =
          .ok ⟨sig.toList, sampleRound.batch, sampleRound.batchKey i⟩ := by
  obtain ⟨sig, hsig, -⟩ := convertSignature_eq_some digitBigInt valid_sampleRecid
  exact ⟨sig, hsig, Round.voting_agrees sampleSigns hsig (by decide) fun i _ =>
    heard_sampleTraffic sampleSigns.toBallots i⟩

end Sample

/-- Whatever arrives, a party hands on only a signature of its batch that verifies under the key,
with the votes of as many other indices as the threshold, each in a message of an authority. -/
theorem voting_sound {lib : Library} (big : BigInt) (crypto : Crypto)
    (encode : DKGMessage → Bytes) (p : Params L) {stage : lib.CompletedOfflineStage}
    {received : List (Node L × SignedDKGMessage)} {result : VoteResult L}
    (h : newVoting lib big crypto encode p stage received = .ok result) :
    (∃ signature sig, lib.verify signature (lib.publicKey stage) (message crypto p) = .ok () ∧
      convertSignature big signature = some sig ∧ result.signature = sig.toList) ∧
    result.unsignedProposalBatch = p.unsignedProposalBatch ∧
    ∃ senders : List UInt16, senders.Nodup ∧ senders.length = p.threshold ∧
      ∀ j ∈ senders, j ≠ p.offlineI ∧ ∃ entry ∈ received, Round.Verified crypto encode entry ∧
        ∃ vote, entry.2.msg.payload = .vote vote ∧ vote.partyInd = j ∧
          vote.roundKey = (p.hashOfProposal crypto).toList := by
  simp only [newVoting, bind_eq_ok, mapError_eq_ok] at h
  obtain ⟨voted, -, sigs, hcollect, signature, -, ⟨⟩, hverify, hresult⟩ := h
  cases hsig : convertSignature big signature with
  | none =>
      rw [hsig] at hresult
      cases hresult
  | some sig =>
      rw [hsig] at hresult
      obtain rfl := Except.ok.inj hresult
      refine ⟨⟨signature, sig, hverify, hsig, rfl⟩, rfl, ?_⟩
      obtain ⟨hlength, new, rfl, votes, hsub, hnodup, -, hforall⟩ := collectPartialSigs_ok hcollect
      refine ⟨votes.map Msg.sender, hnodup, ?_, ?_⟩
      · rw [List.length_map, hforall.length_eq]
        exact hlength
      · intro j hj
        obtain ⟨msg, hmsg, rfl⟩ := List.mem_map.mp hj
        obtain ⟨entry, hentry, htransform⟩ :=
          (mem_incoming crypto encode).mp (hsub.subset hmsg)
        obtain ⟨sender, rfl, ⟨-, hsender, hne, -⟩, hverified⟩ := transform_eq_some.mp htransform
        obtain ⟨index, hindex, heq⟩ := List.getElem_of_mem hmsg
        have hvote := hforall.get hindex (by rw [← hforall.length_eq]; exact hindex)
        rw [List.get_eq_getElem, heq] at hvote
        obtain ⟨vote, hpayload, hround, -⟩ := hvote
        refine ⟨hne, entry, hentry, hverified, vote, hpayload, ?_, hround⟩
        have hpayload' : entry.2.msg.payload = .vote vote := hpayload
        rw [hpayload'] at hsender
        exact Option.some.inj hsender

theorem voting_sound_sample :
    ∃ result, newVoting sampleLibrary digitBigInt sampleCrypto sampleEncode (sampleRound.params 1)
        (sampleRound.stage 1) sampleReceived = .ok result ∧
      (∃ signature sig, sampleLibrary.verify signature
          (sampleLibrary.publicKey (sampleRound.stage 1))
          (message sampleCrypto (sampleRound.params 1)) = .ok () ∧
        convertSignature digitBigInt signature = some sig ∧ result.signature = sig.toList) ∧
      result.unsignedProposalBatch = sampleProposals ∧
      ∃ senders : List UInt16, senders.Nodup ∧ senders.length = 2 ∧
        ∀ j ∈ senders, j ≠ 1 ∧ ∃ entry ∈ sampleReceived,
          Round.Verified sampleCrypto sampleEncode entry ∧
          ∃ vote, entry.2.msg.payload = .vote vote ∧ vote.partyInd = j ∧
            vote.roundKey = ((sampleRound.params 1).hashOfProposal sampleCrypto).toList := by
  obtain ⟨sig, hsig, -⟩ := convertSignature_eq_some digitBigInt valid_sampleRecid
  have hresult := Round.newVoting_eq sampleSigns hsig (by decide) List.mem_cons_self
    (heard_sampleTraffic sampleSigns.toBallots 1)
  exact ⟨_, hresult, voting_sound digitBigInt sampleCrypto sampleEncode (sampleRound.params 1)
    hresult⟩

end DkgSubstrate.VotingStage
