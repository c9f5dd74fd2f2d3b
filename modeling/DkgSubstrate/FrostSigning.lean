import DkgSubstrate.IncomingMessages
import DkgSubstrate.IndexedMap
import DkgSubstrate.TwoRounds

/-!
The signing protocol of the FROST module, run by as many parties as the threshold asks for over
a network that loses nothing and keeps the order of the messages of each sender.  What the
parties compute is a parameter, and so are the encoding and the signatures of their messages.
-/

namespace DkgSubstrate.FrostSigning

open DkgSubstrate.IncomingMessages
open DkgSubstrate.IndexedMap
open DkgSubstrate.Primitives
open DkgSubstrate.Words

inductive FrostMessage (Nonce Share : Type) where
  | dkg
  | sign (partyId : ℕ) (keyIds : List ℕ) (nonce : Nonce)
  | signFinal (partyId : ℕ) (signatureShare : Share)
deriving DecidableEq

/-- A party with the nonce that it generates, and the authority that it sends as. -/
structure Signer (Nonce : Type) where
  partyId : ℕ
  keyIds : List ℕ
  nonce : Nonce
  authorityId : Public

structure Config (Nonce Share : Type) where
  serialize : FrostMessage Nonce Share → Except String Bytes
  deserialize : Bytes → Except String (FrostMessage Nonce Share)
  sha2256 : Bytes → FixedBytes 32
  signMessage : DKGMessage → SignedDKGMessage
  verifySignatureAgainstAuthorities : SignedDKGMessage → Except DKGError DKGMessage
  sign : ℕ → List ℕ → List ℕ → List Nonce → Share
  debug : DKGError → String
  protoHash : FixedBytes 32
  sessionId : ℕ
  associatedBlockId : ℕ
  ssid : UInt16
  threshold : ℕ

variable {Nonce Share : Type} (cfg : Config Nonce Share)

def payload : NetworkMsgPayload → Bytes
  | .offline msg => msg.offlineMsg
  | .vote msg => msg.partialSignature
  | .keygen msg => msg.keygenMsg
  | .publicKeyBroadcast msg => msg.pubKey
  | .misbehaviourBroadcast msg => msg.signature

def networkMessage (authorityId : Public) (frostMsg : Bytes) : DKGMessage where
  senderId := authorityId
  recipientId := none
  payload := .offline
    { key := []
      signerSetId := 0
      offlineMsg := frostMsg
      unsignedProposalHash := cfg.protoHash }
  sessionId := cfg.sessionId
  associatedBlockId := cfg.associatedBlockId
  ssid := cfg.ssid

def sendMessage (authorityId : Public) (msg : FrostMessage Nonce Share) :
    Except DKGError SignedDKGMessage :=
  match cfg.serialize msg with
  | .error err => .error (.genericError err)
  | .ok frostMsg => .ok (cfg.signMessage (networkMessage cfg authorityId frostMsg))

def nextMessage (receivedMessages : List (FixedBytes 32)) (signed : SignedDKGMessage) :
    List (FixedBytes 32) × Option (Except DKGError (FrostMessage Nonce Share)) :=
  match cfg.verifySignatureAgainstAuthorities signed with
  | .error _ => (receivedMessages, none)
  | .ok message =>
      let messageBin := payload message.payload
      let messageHash := cfg.sha2256 messageBin
      if receivedMessages.contains messageHash then (receivedMessages, none)
      else (messageHash :: receivedMessages, some ((cfg.deserialize messageBin).mapError
        DKGError.genericError))

structure Lists (Nonce : Type) where
  partyIds : List ℕ
  partyKeyIds : List ℕ
  partyNonces : List Nonce
deriving DecidableEq

inductive Stage (Nonce Share : Type) where
  | idle
  | nonces (partyKeyIds : StorageMap ℕ (List ℕ)) (partyNonces : StorageMap ℕ Nonce)
  | shares (lists : Lists Nonce) (signatureShares : StorageMap ℕ Share)
  | done (lists : Lists Nonce) (signatureShares : List Share)
  | failed (err : DKGError)
deriving DecidableEq

structure Local (Nonce Share : Type) where
  stage : Stage Nonce Share
  receivedMessages : List (FixedBytes 32)

def sendError (err : DKGError) : DKGError :=
  .genericError ("Error sending FROST message: " ++ cfg.debug err)

def shareLoop (lists : Lists Nonce) (signatureShares : StorageMap ℕ Share) :
    Stage Nonce Share :=
  if signatureShares.entries.length < cfg.threshold then .shares lists signatureShares
  else .done lists ((signatureShares.iter id).map Prod.snd)

def nonceLoop (signer : Signer Nonce) (partyKeyIds : StorageMap ℕ (List ℕ))
    (partyNonces : StorageMap ℕ Nonce) : Stage Nonce Share × List SignedDKGMessage :=
  if partyNonces.entries.length < cfg.threshold then (.nonces partyKeyIds partyNonces, [])
  else
    let lists : Lists Nonce :=
      { partyIds := (partyKeyIds.iter id).map Prod.fst
        partyKeyIds := (partyKeyIds.iter id).flatMap Prod.snd
        partyNonces := (partyNonces.iter id).map Prod.snd }
    let signatureShare :=
      cfg.sign signer.partyId lists.partyIds lists.partyKeyIds lists.partyNonces
    match sendMessage cfg signer.authorityId (.signFinal signer.partyId signatureShare) with
    | .error err => (.failed (sendError cfg err), [])
    | .ok message =>
        (shareLoop cfg lists (AList.insert signer.partyId signatureShare ∅), [message])

def runSigning (signer : Signer Nonce) : Stage Nonce Share × List SignedDKGMessage :=
  match sendMessage cfg signer.authorityId (.sign signer.partyId signer.keyIds signer.nonce) with
  | .error err => (.failed (sendError cfg err), [])
  | .ok message =>
      let entered := nonceLoop cfg signer (AList.insert signer.partyId signer.keyIds ∅)
        (AList.insert signer.partyId signer.nonce ∅)
      (entered.1, message :: entered.2)

def onMessage (signer : Signer Nonce) :
    Stage Nonce Share → Except DKGError (FrostMessage Nonce Share) →
      Stage Nonce Share × List SignedDKGMessage
  | .nonces partyKeyIds partyNonces, .ok (.sign partyIdRecv keyIds nonce) =>
      if signer.partyId ≠ partyIdRecv then
        nonceLoop cfg signer (partyKeyIds.insert partyIdRecv keyIds)
          (partyNonces.insert partyIdRecv nonce)
      else (.nonces partyKeyIds partyNonces, [])
  | .shares lists signatureShares, .ok (.signFinal partyIdRecv signatureShare) =>
      if signer.partyId ≠ partyIdRecv then
        (shareLoop cfg lists (signatureShares.insert partyIdRecv signatureShare), [])
      else (.shares lists signatureShares, [])
  | stage, _ => (stage, [])

def receive (signer : Signer Nonce) (party : Local Nonce Share) (signed : SignedDKGMessage) :
    Local Nonce Share × List SignedDKGMessage :=
  let next := nextMessage cfg party.receivedMessages signed
  match next.2 with
  | none => (⟨party.stage, next.1⟩, [])
  | some message =>
      let out := onMessage cfg signer party.stage message
      (⟨out.1, next.1⟩, out.2)

variable {n : ℕ}

/-- The messages of one party to another that are on their way. -/
structure State (n : ℕ) (Nonce Share : Type) where
  party : Fin n → Local Nonce Share
  channel : Fin n → Fin n → List SignedDKGMessage

def State.init : State n Nonce Share := ⟨fun _ => ⟨.idle, []⟩, fun _ _ => []⟩

def broadcast (i : Fin n) (messages : List SignedDKGMessage) (s : State n Nonce Share) :
    State n Nonce Share :=
  { s with
    channel := fun a b => if a = i ∧ b ≠ i then s.channel a b ++ messages else s.channel a b }

abbrev Event (n : ℕ) := TwoRounds.Event (Fin n)

def isIdle (s : State n Nonce Share) (i : Fin n) : Bool := (s.party i).stage matches .idle

def Enabled (s : State n Nonce Share) : Event n → Prop
  | .start i => isIdle s i = true
  | .deliver i j => (s.channel i j).isEmpty = false ∧ isIdle s j = false

instance decidableEnabled (s : State n Nonce Share) : (e : Event n) → Decidable (Enabled s e)
  | .start i => inferInstanceAs (Decidable (isIdle s i = true))
  | .deliver i j =>
      inferInstanceAs (Decidable ((s.channel i j).isEmpty = false ∧ isIdle s j = false))

def step (signers : Fin n → Signer Nonce) (s : State n Nonce Share) :
    Event n → State n Nonce Share
  | .start i =>
      if isIdle s i then
        let out := runSigning cfg (signers i)
        broadcast i out.2
          { s with party := Function.update s.party i ⟨out.1, (s.party i).receivedMessages⟩ }
      else s
  | .deliver i j =>
      match s.channel i j with
      | [] => s
      | signed :: rest =>
          if isIdle s j then s
          else
            let out := receive cfg (signers j) (s.party j) signed
            broadcast j out.2
              { party := Function.update s.party j out.1
                channel := fun a b => if a = i ∧ b = j then rest else s.channel a b }

def messageOf (signed : SignedDKGMessage) : Option (FrostMessage Nonce Share) :=
  match cfg.verifySignatureAgainstAuthorities signed with
  | .error _ => none
  | .ok message => (cfg.deserialize (payload message.payload)).toOption

def DropsShare (s : State n Nonce Share) : Event n → Prop
  | .start _ => False
  | .deliver i j => ∃ signed rest partyId signatureShare partyKeyIds partyNonces,
      s.channel i j = signed :: rest ∧
      messageOf cfg signed = some (.signFinal partyId signatureShare) ∧
      (s.party j).stage = .nonces partyKeyIds partyNonces

def order (signers : Fin n → Signer Nonce) : List (Fin n) := byKey fun i => (signers i).partyId

def agreed (signers : Fin n → Signer Nonce) : Lists Nonce where
  partyIds := (order signers).map fun i => (signers i).partyId
  partyKeyIds := (order signers).flatMap fun i => (signers i).keyIds
  partyNonces := (order signers).map fun i => (signers i).nonce

def agreedShare (signers : Fin n → Signer Nonce) (i : Fin n) : Share :=
  cfg.sign (signers i).partyId (agreed signers).partyIds (agreed signers).partyKeyIds
    (agreed signers).partyNonces

def Completed (signers : Fin n → Signer Nonce) (s : State n Nonce Share) : Prop :=
  ∀ i, (s.party i).stage =
    .done (agreed signers) ((order signers).map (agreedShare cfg signers))

def messages (signers : Fin n → Signer Nonce) (i : Fin n) : List (FrostMessage Nonce Share) :=
  [.sign (signers i).partyId (signers i).keyIds (signers i).nonce,
    .signFinal (signers i).partyId (agreedShare cfg signers i)]

def digest (msg : FrostMessage Nonce Share) : Option (FixedBytes 32) :=
  (cfg.serialize msg).toOption.map cfg.sha2256

/-- The messages of the parties can be sent and read, they pass the check of their signatures,
and the hashes tell them apart. -/
structure Transparent (signers : Fin n → Signer Nonce) : Prop where
  carried : ∀ i, ∀ msg ∈ messages cfg signers i, ∃ bytes, cfg.serialize msg = .ok bytes ∧
    cfg.deserialize bytes = .ok msg ∧
    cfg.verifySignatureAgainstAuthorities
      (cfg.signMessage (networkMessage cfg (signers i).authorityId bytes)) =
        .ok (networkMessage cfg (signers i).authorityId bytes)
  distinct : ∀ i j, ∀ msg ∈ messages cfg signers i, ∀ msg' ∈ messages cfg signers j,
    digest cfg msg = digest cfg msg' → msg = msg'

end DkgSubstrate.FrostSigning
