import DkgSubstrate.SenderAuthenticity
import DkgSubstrate.WorkManager
import Mathlib.Data.List.NodupEquivFin

/-!
The two numberings of the parties.  The keygen numbers the best authorities, and the signing
stages number the signers by their places in the signing set.  The state machine of a signing
stage names the parties by the second number, and the gadget looks for the authorities.
-/

namespace DkgSubstrate.SigningIndices

open DkgSubstrate.IncomingMessages
open DkgSubstrate.Primitives
open DkgSubstrate.SampleRuntime
open DkgSubstrate.SenderAuthenticity
open DkgSubstrate.WorkManager (ShutdownReason)
open DkgSubstrate.Words

inductive PartyIdError where
  | invalidKeygenPartyId
deriving DecidableEq

def tryFromKeygenPartyId (i : UInt16) (sL : List UInt16) : Except PartyIdError UInt16 :=
  match sL.idxOf? i with
  | none => .error .invalidKeygenPartyId
  | some index => .ok (UInt16.ofNat index + 1)

def tryToOfflinePartyId (i : UInt16) (sL : List UInt16) : Except PartyIdError UInt16 :=
  tryFromKeygenPartyId i sL

inductive SigningSetError where
  | invalidSigningSet
deriving DecidableEq

def toIndex (offlineId : UInt16) : ℕ := wrappingSub 64 offlineId.toNat 1

def tryToKeygenPartyId (offlineId : UInt16) (sL : List UInt16) : Except SigningSetError UInt16 :=
  match sL[toIndex offlineId]? with
  | some partyI => .ok partyI
  | none => .error .invalidSigningSet

inductive ProtoStageType where
  | keygenGenesis
  | keygenStandard
  | signing (unsignedProposalHash : FixedBytes 32)

def generateAuthorityMapping (authorities : List (UInt16 × Public)) :
    ProtoStageType → StorageMap ℕ Public
  | .keygenGenesis | .keygenStandard =>
      authorities.foldl (fun ret entry => AList.insert entry.1.toNat entry.2 ret) ∅
  | .signing _ =>
      let authoritiesOnly := authorities.map Prod.fst
      authorities.foldl (fun ret entry =>
        match tryFromKeygenPartyId entry.1 authoritiesOnly with
        | .ok offlineIndex => AList.insert offlineIndex.toNat entry.2 ret
        | .error _ => ret) ∅

def badActorsToAuthorities (badActors : List UInt16) (mapping : StorageMap ℕ Public) :
    List Public :=
  badActors.filterMap fun badActor => mapping.lookup badActor.toNat

section Numbers

theorem ofNat_add_one_eq_iff {index : ℕ} {j : UInt16} (hj : j ≠ 0) :
    UInt16.ofNat index + 1 = j ↔ index % 2 ^ 16 = j.toNat - 1 := by
  have hpos : j.toNat ≠ 0 := fun h => hj (UInt16.toNat_inj.mp h)
  have hlt := j.toNat_lt
  rw [← UInt16.toNat_inj, UInt16.toNat_add, UInt16.toNat_ofNat', UInt16.toNat_one]
  omega

theorem length_le_of_nodup {ids : List UInt16} (h : ids.Nodup) : ids.length ≤ 2 ^ 16 := by
  have hnodup : (ids.map UInt16.toNat).Nodup := h.map fun _ _ heq => UInt16.toNat_inj.mp heq
  have hsub : ids.map UInt16.toNat ⊆ List.range (2 ^ 16) := by
    intro n hn
    obtain ⟨id, -, rfl⟩ := List.mem_map.mp hn
    exact List.mem_range.mpr id.toNat_lt
  have hle := (hnodup.subperm hsub).length_le
  rwa [List.length_map, List.length_range] at hle

theorem tryFromKeygenPartyId_eq_ok {sL : List UInt16} (hnodup : sL.Nodup) {id j : UInt16}
    (hj : j ≠ 0) : tryFromKeygenPartyId id sL = .ok j ↔ sL[j.toNat - 1]? = some id := by
  have hlength := length_le_of_nodup hnodup
  rw [tryFromKeygenPartyId]
  constructor
  · intro h
    split at h
    · cases h
    · rename_i index hindex
      obtain ⟨hlt, hget, -⟩ := List.idxOf?_eq_some_iff.mp hindex
      have hplace := (ofNat_add_one_eq_iff hj).mp (Except.ok.inj h)
      rw [Nat.mod_eq_of_lt (by omega)] at hplace
      rw [← hplace, List.getElem?_eq_getElem hlt, hget]
  · intro h
    obtain ⟨hlt, hget⟩ := List.getElem?_eq_some_iff.mp h
    have hindex : sL.idxOf? id = some (j.toNat - 1) := by
      refine List.idxOf?_eq_some_iff.mpr ⟨hlt, hget, fun k hk heq => ?_⟩
      exact hk.ne (hnodup.getElem_inj_iff.mp (heq.trans hget.symm))
    rw [hindex]
    refine congrArg Except.ok ((ofNat_add_one_eq_iff hj).mpr ?_)
    exact Nat.mod_eq_of_lt (by omega)

def numbering {n : ℕ} (h : n < 2 ^ 16) : Fin n ≃ {j : UInt16 // 1 ≤ j.toNat ∧ j.toNat ≤ n} where
  toFun i := ⟨UInt16.ofNat (i + 1), by rw [UInt16.toNat_ofNat']; omega⟩
  invFun j := ⟨j.1.toNat - 1, by omega⟩
  left_inv i := Fin.ext (by
    dsimp only
    rw [UInt16.toNat_ofNat']
    omega)
  right_inv j := Subtype.ext (UInt16.toNat_inj.mp (by
    dsimp only
    rw [UInt16.toNat_ofNat']
    omega))

theorem toIndex_of_pos {j : UInt16} (hj : 1 ≤ j.toNat) : toIndex j = j.toNat - 1 := by
  have hlt := j.toNat_lt
  exact wrappingSub_of_le (by omega) hj

theorem tryToKeygenPartyId_eq_ok {sL : List UInt16} {j id : UInt16} (hj : 1 ≤ j.toNat) :
    tryToKeygenPartyId j sL = .ok id ↔ sL[j.toNat - 1]? = some id := by
  rw [tryToKeygenPartyId, toIndex_of_pos hj]
  cases sL[j.toNat - 1]? with
  | none => exact iff_of_false (fun h => by cases h) fun h => by cases h
  | some partyI => rw [Except.ok.injEq, Option.some.injEq]

end Numbers

/-- For a signing set of different numbers the conversions are the two directions of one
correspondence between its members and their places, and reject everything else. -/
theorem partyIds_correspond {sL : List UInt16} (hnodup : sL.Nodup) (hne : ∀ id ∈ sL, id ≠ 0) :
    (∃ e : {id // id ∈ sL} ≃ {j : UInt16 // 1 ≤ j.toNat ∧ j.toNat ≤ sL.length},
      (∀ id : {id // id ∈ sL}, tryToOfflinePartyId id.1 sL = .ok (e id).1) ∧
        ∀ j : {j : UInt16 // 1 ≤ j.toNat ∧ j.toNat ≤ sL.length},
          tryToKeygenPartyId j.1 sL = .ok (e.symm j).1) ∧
    (∀ id, id ∉ sL → tryToOfflinePartyId id sL = .error .invalidKeygenPartyId) ∧
    ∀ j : UInt16, sL.length < j.toNat → tryToKeygenPartyId j sL = .error .invalidSigningSet := by
  have hlength : sL.length < 2 ^ 16 := by
    have hzero : (0 :: sL).Nodup := List.nodup_cons.mpr ⟨fun h => hne 0 h rfl, hnodup⟩
    exact length_le_of_nodup hzero
  have hplace : ∀ j : {j : UInt16 // 1 ≤ j.toNat ∧ j.toNat ≤ sL.length},
      sL[j.1.toNat - 1]? = some (hnodup.getEquiv sL ((numbering hlength).symm j)).1 :=
    fun j => List.getElem?_eq_getElem ((numbering hlength).symm j).2
  refine ⟨⟨(hnodup.getEquiv sL).symm.trans (numbering hlength), fun id => ?_, fun j => ?_⟩, ?_, ?_⟩
  · have hid := hplace (numbering hlength ((hnodup.getEquiv sL).symm id))
    rw [Equiv.symm_apply_apply, Equiv.apply_symm_apply] at hid
    refine (tryFromKeygenPartyId_eq_ok hnodup ?_).mpr hid
    intro hzero
    have hpos := ((hnodup.getEquiv sL).symm.trans (numbering hlength) id).2.1
    rw [hzero] at hpos
    exact absurd hpos (by decide)
  · exact (tryToKeygenPartyId_eq_ok j.2.1).mpr (hplace j)
  · intro id hid
    rw [tryToOfflinePartyId, tryFromKeygenPartyId, List.idxOf?_eq_none_iff.mpr hid]
  · intro j hj
    rw [tryToKeygenPartyId, toIndex_of_pos (by omega), List.getElem?_eq_none (by omega)]

theorem partyIds_correspond_two :
    [(2 : UInt16), 5].Nodup ∧ (∀ id ∈ [(2 : UInt16), 5], id ≠ 0) ∧
      tryToOfflinePartyId 5 [2, 5] = .ok 2 ∧ tryToKeygenPartyId 2 [2, 5] = .ok 5 ∧
      tryToOfflinePartyId 3 [2, 5] = .error .invalidKeygenPartyId ∧
      tryToKeygenPartyId 3 [2, 5] = .error .invalidSigningSet := by
  have hnodup : [(2 : UInt16), 5].Nodup := by decide
  have hne : ∀ id ∈ [(2 : UInt16), 5], id ≠ 0 := by
    simp
  obtain ⟨-, hkeygen, hoffline⟩ := partyIds_correspond hnodup hne
  exact ⟨hnodup, hne, by decide, by decide, hkeygen 3 (by decide), hoffline 3 (by decide)⟩

structure SigningSetup extends Participants where
  sessionId : ℕ
  threshold : UInt16
  unsignedProposalHash : FixedBytes 32
  size : threshold + 1 = UInt16.ofNat signers.length

structure SignMisbehaviour where
  reason : String
  badActors : List Public
  sessionId : ℕ
deriving DecidableEq

namespace SigningSetup

variable (p : SigningSetup)

def indexToAuthorityMapping : StorageMap ℕ Public :=
  generateAuthorityMapping p.bestAuthorities (.signing p.unsignedProposalHash)

def stopped (blamedParties : List UInt16) :
    Option ShutdownReason → Except SignMisbehaviour Unit
  | none | some .dropCode => .ok ()
  | some .stalled => .error
      { reason := "Signing has stalled!"
        badActors := badActorsToAuthorities blamedParties p.indexToAuthorityMapping
        sessionId := p.sessionId }

def Holds (j : UInt16) (authority : Public) : Prop :=
  ∃ id, p.signers[j.toNat - 1]? = some id ∧ (id, authority) ∈ p.bestAuthorities

/-- Exactly the holders of the blamed numbers are named. -/
def BlamesHolders : Prop :=
  ∀ blamedParties : List UInt16, (∀ j ∈ blamedParties, 1 ≤ j.toNat ∧ j.toNat ≤ p.signers.length) →
    ∀ reason misbehaviour, p.stopped blamedParties reason = .error misbehaviour →
      ∀ authority, authority ∈ misbehaviour.badActors ↔
        ∃ j ∈ blamedParties, p.Holds j authority

end SigningSetup

/-- The authority that a signing stage finds under a number: the last one whose keygen number
stands first at this place of the best authorities. -/
def authorityAt (best : List (UInt16 × Public)) (i : ℕ) : Option Public :=
  (best.filter fun entry => (best.map Prod.fst).idxOf entry.1 % 2 ^ 16 = i).getLast?.map Prod.snd

section Blame

variable {best : List (UInt16 × Public)}

theorem lookup_generateAuthorityMapping (best : List (UInt16 × Public)) (hash : FixedBytes 32)
    {j : UInt16} (hj : j ≠ 0) :
    (generateAuthorityMapping best (.signing hash)).lookup j.toNat =
      authorityAt best (j.toNat - 1) := by
  have hinserts : generateAuthorityMapping best (.signing hash) =
      best.foldl (fun ret entry => AList.insert
        (UInt16.ofNat ((best.map Prod.fst).idxOf entry.1) + 1).toNat entry.2 ret) ∅ := by
    refine List.foldl_ext _ _ _ fun ret entry hentry => ?_
    have hmem : entry.1 ∈ best.map Prod.fst := List.mem_map_of_mem hentry
    obtain ⟨index, hindex⟩ := Option.isSome_iff_exists.mp (List.isSome_idxOf?.mpr hmem)
    rw [tryFromKeygenPartyId, hindex, List.idxOf_eq_getD_idxOf?, hindex]
    rfl
  rw [hinserts, StorageMap.lookup_foldl_insert, authorityAt]
  simp only [UInt16.toNat_inj, ofNat_add_one_eq_iff hj]
  simp

theorem authorityAt_eq_getElem? (hids : (best.map Prod.fst).Nodup) (i : ℕ) :
    authorityAt best i = best[i]?.map Prod.snd := by
  have hlength := length_le_of_nodup hids
  rw [List.length_map] at hlength
  have hplace : ∀ entry, entry ∈ best.filter (fun entry =>
      (best.map Prod.fst).idxOf entry.1 % 2 ^ 16 = i) ↔ best[i]? = some entry := by
    intro entry
    have hidx : ∀ (k : ℕ) (hk : k < best.length),
        (best.map Prod.fst).idxOf best[k].1 % 2 ^ 16 = k := by
      intro k hk
      have hget := hids.idxOf_getElem k (by rwa [List.length_map])
      rw [List.getElem_map] at hget
      rw [hget]
      exact Nat.mod_eq_of_lt (by omega)
    rw [List.mem_filter, decide_eq_true_eq]
    constructor
    · rintro ⟨hmem, heq⟩
      obtain ⟨k, hk, rfl⟩ := List.mem_iff_getElem.mp hmem
      rw [hidx k hk] at heq
      rw [← heq, List.getElem?_eq_getElem hk]
    · intro h
      obtain ⟨hk, rfl⟩ := List.getElem?_eq_some_iff.mp h
      exact ⟨List.getElem_mem hk, hidx i hk⟩
  rw [authorityAt]
  refine congrArg (Option.map Prod.snd) (Option.ext fun entry => ?_)
  constructor
  · intro h
    exact (hplace entry).mp (List.mem_of_getLast? h)
  · intro h
    have hmem := (hplace entry).mpr h
    rw [List.getLast?_eq_some_getLast (List.ne_nil_of_mem hmem)]
    have hlast := (hplace _).mp (List.getLast_mem (List.ne_nil_of_mem hmem))
    exact hlast.symm.trans h

variable (p : SigningSetup)

theorem mem_badActors {blamedParties : List UInt16}
    (hrange : ∀ j ∈ blamedParties, 1 ≤ j.toNat ∧ j.toNat ≤ p.signers.length)
    {authority : Public} :
    authority ∈ badActorsToAuthorities blamedParties p.indexToAuthorityMapping ↔
      ∃ j ∈ blamedParties, authorityAt p.bestAuthorities (j.toNat - 1) = some authority := by
  rw [badActorsToAuthorities, List.mem_filterMap]
  refine exists_congr fun j => and_congr_right fun hj => ?_
  have hne : j ≠ 0 := by
    rintro rfl
    exact absurd (hrange 0 hj).1 (by decide)
  rw [SigningSetup.indexToAuthorityMapping, lookup_generateAuthorityMapping _ _ hne]

theorem blamesHolders_iff_authorityAt : p.BlamesHolders ↔
    ∀ i id, p.signers[i]? = some id → i + 1 < 2 ^ 16 → ∀ authority,
      authorityAt p.bestAuthorities i = some authority ↔
        (id, authority) ∈ p.bestAuthorities := by
  constructor
  · intro h i id hsigner hi authority
    have htoNat : (UInt16.ofNat (i + 1)).toNat = i + 1 := by
      rw [UInt16.toNat_ofNat']
      exact Nat.mod_eq_of_lt hi
    have hrange : ∀ j ∈ [UInt16.ofNat (i + 1)], 1 ≤ j.toNat ∧ j.toNat ≤ p.signers.length := by
      intro j hj
      rw [List.mem_singleton.mp hj, htoNat]
      exact ⟨by omega, (List.getElem?_eq_some_iff.mp hsigner).1⟩
    have hexact := h _ hrange (some .stalled) _ rfl authority
    rw [mem_badActors p hrange] at hexact
    simp only [List.mem_singleton, exists_eq_left, SigningSetup.Holds, htoNat,
      Nat.add_sub_cancel, hsigner, Option.some.injEq, exists_eq_left'] at hexact
    exact hexact
  · intro h blamedParties hrange reason misbehaviour hstopped authority
    have hactors : misbehaviour.badActors =
        badActorsToAuthorities blamedParties p.indexToAuthorityMapping := by
      rcases reason with - | - | -
      · cases hstopped
      · cases hstopped
        rfl
      · cases hstopped
    rw [hactors, mem_badActors p hrange]
    refine exists_congr fun j => and_congr_right fun hj => ?_
    obtain ⟨hpos, hle⟩ := hrange j hj
    have hplace : j.toNat - 1 < p.signers.length := by omega
    have hsigner := List.getElem?_eq_getElem hplace
    have hlt := j.toNat_lt
    rw [h _ _ hsigner (by omega), SigningSetup.Holds]
    simp [hsigner]

/-- A signing protocol blames the holders of the blamed numbers exactly if every signer has its
place in the best authorities.  If there is one authority for each keygen number, then the signers
are the first of the best authorities. -/
theorem blamesHolders_iff :
    (p.BlamesHolders ↔ ∀ i id, p.signers[i]? = some id → i + 1 < 2 ^ 16 → ∀ authority,
      authorityAt p.bestAuthorities i = some authority ↔
        (id, authority) ∈ p.bestAuthorities) ∧
    ((p.bestAuthorities.map Prod.fst).Nodup → (p.bestAuthorities.map Prod.snd).Nodup →
      (∀ id ∈ p.signers, id ∈ p.bestAuthorities.map Prod.fst) → p.signers.length < 2 ^ 16 →
        (p.BlamesHolders ↔ p.signers <+: p.bestAuthorities.map Prod.fst)) := by
  refine ⟨blamesHolders_iff_authorityAt p, fun hids hauthorities hsigners hlength => ?_⟩
  rw [blamesHolders_iff_authorityAt, List.prefix_iff_getElem?]
  constructor
  · intro h i hi
    have hsigner := List.getElem?_eq_getElem hi
    obtain ⟨⟨id, authority⟩, hmem, hid⟩ := List.mem_map.mp (hsigners _ (List.getElem_mem hi))
    have hat := (h i _ hsigner (by omega) authority).mpr (hid ▸ hmem)
    rw [authorityAt_eq_getElem? hids i] at hat
    obtain ⟨entry, hentry, hsnd⟩ := Option.map_eq_some_iff.mp hat
    have hsame : entry = (id, authority) :=
      List.inj_on_of_nodup_map hauthorities (List.mem_of_getElem? hentry) hmem hsnd
    rw [List.getElem?_map, hentry, hsame, ← hid]
    rfl
  · intro h i id hsigner hi authority
    obtain ⟨hlt, rfl⟩ := List.getElem?_eq_some_iff.mp hsigner
    have hplace := h i hlt
    rw [List.getElem?_map] at hplace
    obtain ⟨entry, hentry, hfst⟩ := Option.map_eq_some_iff.mp hplace
    rw [authorityAt_eq_getElem? hids i, hentry]
    constructor
    · intro hauthority
      rw [← hfst, ← Option.some.inj hauthority]
      exact List.mem_of_getElem? hentry
    · intro hmem
      rw [List.inj_on_of_nodup_map hids (List.mem_of_getElem? hentry) hmem hfst]
      rfl

end Blame

theorem size_sampleSetup : (1 : UInt16) + 1 = UInt16.ofNat (sampleParticipants 3).signers.length :=
  by decide

def sampleSetup : SigningSetup where
  toParticipants := sampleParticipants 3
  sessionId := 0
  threshold := 1
  unsignedProposalHash := List.Vector.replicate 32 0
  size := size_sampleSetup

theorem sampleSetup_not_blamesHolders : ¬sampleSetup.BlamesHolders := by
  intro h
  have hrange : ∀ j ∈ [(1 : UInt16)], 1 ≤ j.toNat ∧ j.toNat ≤ sampleSetup.signers.length := by
    intro j hj
    rw [List.mem_singleton.mp hj]
    decide
  have hblamed : samplePublic 1 ∈
      badActorsToAuthorities [1] sampleSetup.indexToAuthorityMapping := by
    decide
  obtain ⟨j, hj, id, hsigner, hmem⟩ :=
    (h [1] hrange (some .stalled) _ rfl (samplePublic 1)).mp hblamed
  rw [List.mem_singleton.mp hj] at hsigner
  have hid : sampleSetup.signers[(1 : UInt16).toNat - 1]? = some 2 := by
    decide
  rw [Option.some.inj (hsigner.symm.trans hid)] at hmem
  exact absurd hmem (by decide)

/-- A message of a state machine. -/
structure RoundMsg (Body : Type) where
  sender : UInt16
  receiver : Option UInt16
  body : Body
deriving DecidableEq

/-- The messages of a state machine as they are written into a payload. -/
structure Serde (Body : Type) where
  toVec : RoundMsg Body → Option Bytes
  fromSlice : Bytes → Option (RoundMsg Body)
  fromSlice_toVec : ∀ {m bytes}, toVec m = some bytes → fromSlice bytes = some m

structure Params extends Participants where
  authorityPublicKey : Public
  sessionId : ℕ
  associatedBlockId : ℕ
  ssid : UInt16
  keygenProtocolHash : FixedBytes 32
  unsignedProposalHash : FixedBytes 32

inductive Outgoing where
  | skipped
  | panicked
  | sent (msg : DKGMessage)

section Wire

variable {Body : Type} (serde : Serde Body) (p : Params) (protoTy : ProtocolType)

def Params.recipientId : Option UInt16 → Option (Option Public)
  | none => some none
  | some partyI => if partyI = 0 then none else some (p.authorityOf partyI)

def Params.payload (sender : UInt16) (serializedBody : Bytes) : Option NetworkMsgPayload :=
  match protoTy with
  | .keygen .. => some (.keygen
      { senderId := sender
        keygenMsg := serializedBody
        keygenProtocolHash := p.keygenProtocolHash })
  | .offline .. => some (.offline
      { key := p.unsignedProposalHash.toList
        signerSetId := sender.toUInt64
        offlineMsg := serializedBody
        unsignedProposalHash := p.unsignedProposalHash })
  | .voting .. => none

def outgoingToWire (m : RoundMsg Body) : Outgoing :=
  match serde.toVec m with
  | none => .skipped
  | some serializedBody =>
      match p.recipientId m.receiver, p.payload protoTy m.sender serializedBody with
      | some recipientId, some payload => .sent
          { senderId := p.authorityPublicKey
            recipientId := recipientId
            payload := payload
            sessionId := p.sessionId
            associatedBlockId := p.associatedBlockId
            ssid := p.ssid }
      | _, _ => .panicked

def handleUnsignedMessage (localTy : ProtocolType) (payload : NetworkMsgPayload) :
    Option (RoundMsg Body) :=
  match localTy, payload with
  | .keygen .., .keygen msg =>
      (serde.fromSlice msg.keygenMsg).filter fun m => m.receiver.all (· == localTy.getI)
  | .offline .., .offline msg =>
      (serde.fromSlice msg.offlineMsg).filter fun m => m.receiver.all (· == localTy.getI) &&
        p.unsignedProposalHash.toList == msg.key
  | _, _ => none

def localType (authority : Public) : Option ProtocolType :=
  (p.bestAuthorities.find? fun entry => entry.2 == authority).bind fun entry =>
    match protoTy with
    | .keygen _ block => some (.keygen entry.1 block)
    | .offline _ block =>
        match tryFromKeygenPartyId entry.1 p.signers with
        | .ok offlineI => some (.offline offlineI block)
        | .error _ => none
    | .voting .. => none

/-- The authority takes the message for its own. -/
def Takes (authority : Public) (m : RoundMsg Body) (msg : DKGMessage) : Prop :=
  ∃ localTy, localType p protoTy authority = some localTy ∧
    handleUnsignedMessage serde p localTy msg.payload = some m

/-- The message is sent to the holder of the number that it is for. -/
def Addressed (m : RoundMsg Body) : Prop :=
  ∀ j msg, m.receiver = some j → outgoingToWire serde p protoTy m = .sent msg →
    (∀ i block, protoTy = .offline i block → j.toNat ≤ p.signers.length) →
      msg.recipientId = p.holder protoTy j

variable {serde p protoTy} {m : RoundMsg Body} {msg : DKGMessage} {j : UInt16}

theorem outgoingToWire_eq_sent (hreceiver : m.receiver = some j)
    (hsent : outgoingToWire serde p protoTy m = .sent msg) :
    j ≠ 0 ∧ msg.recipientId = p.authorityOf j ∧ ∃ serializedBody,
      serde.toVec m = some serializedBody ∧
        p.payload protoTy m.sender serializedBody = some msg.payload := by
  rw [outgoingToWire, hreceiver] at hsent
  split at hsent
  · cases hsent
  · rename_i serializedBody hbody
    split at hsent
    · rename_i recipientId payload hrecipient hpayload
      cases hsent
      rw [Params.recipientId, Option.ite_none_left_eq_some] at hrecipient
      exact ⟨hrecipient.1, (Option.some.inj hrecipient.2).symm, serializedBody, hbody, hpayload⟩
    · cases hsent

theorem exists_sent (p : Params) (i : UInt16) (block : ℕ) (hreceiver : m.receiver = some j)
    (hj : j ≠ 0) {serializedBody : Bytes} (hbody : serde.toVec m = some serializedBody) :
    ∃ msg, outgoingToWire serde p (.offline i block) m = .sent msg := by
  rw [outgoingToWire, hbody, hreceiver, Params.recipientId, if_neg hj]
  exact ⟨_, rfl⟩

theorem authorityOf_eq_some {participants : Participants}
    (hids : (participants.bestAuthorities.map Prod.fst).Nodup) {id : UInt16}
    {authority : Public} :
    participants.authorityOf id = some authority ↔
      (id, authority) ∈ participants.bestAuthorities := by
  rw [Participants.authorityOf]
  constructor
  · intro h
    obtain ⟨entry, hmem, hentry⟩ := List.exists_of_findSome?_eq_some h
    rw [Option.ite_none_right_eq_some] at hentry
    rw [← hentry.1, ← Option.some.inj hentry.2]
    exact hmem
  · intro hmem
    have hsome : (participants.bestAuthorities.findSome? fun entry =>
        if entry.1 = id then some entry.2 else none).isSome = true := by
      rw [List.findSome?_isSome_iff]
      exact ⟨_, hmem, by rw [if_pos rfl]; rfl⟩
    obtain ⟨other, hother⟩ := Option.isSome_iff_exists.mp hsome
    obtain ⟨entry, hentry, heq⟩ := List.exists_of_findSome?_eq_some hother
    rw [Option.ite_none_right_eq_some] at heq
    rw [hother, ← Option.some.inj heq.2, List.inj_on_of_nodup_map hids hentry hmem heq.1]

theorem holder_offline {participants : Participants} {i : UInt16} {block : ℕ} (hj : j ≠ 0) :
    participants.holder (.offline i block) j =
      participants.signers[j.toNat - 1]?.bind participants.authorityOf := by
  rw [Participants.holder, if_neg hj]

theorem addressed_keygen (serde : Serde Body) (p : Params) (i : UInt16) (block : ℕ)
    (m : RoundMsg Body) : Addressed serde p (.keygen i block) m := by
  intro j msg hreceiver hsent _
  exact (outgoingToWire_eq_sent hreceiver hsent).2.1

theorem addressed_offline_iff (i : UInt16) (block : ℕ) :
    Addressed serde p (.offline i block) m ↔ ∀ j id, m.receiver = some j → j ≠ 0 →
      p.signers[j.toNat - 1]? = some id → (serde.toVec m).isSome = true →
        p.authorityOf j = p.authorityOf id := by
  constructor
  · intro h j id hreceiver hj hsigner hbody
    obtain ⟨serializedBody, hbody⟩ := Option.isSome_iff_exists.mp hbody
    obtain ⟨msg, hsent⟩ := exists_sent p i block hreceiver hj hbody
    have hlt := (List.getElem?_eq_some_iff.mp hsigner).1
    have haddressed := h j msg hreceiver hsent fun _ _ _ => by omega
    rw [(outgoingToWire_eq_sent hreceiver hsent).2.1, holder_offline hj, hsigner] at haddressed
    exact haddressed
  · intro h j msg hreceiver hsent hrange
    obtain ⟨hj, hrecipient, serializedBody, hbody, -⟩ := outgoingToWire_eq_sent hreceiver hsent
    have hpos : j.toNat ≠ 0 := fun h => hj (UInt16.toNat_inj.mp h)
    have hplace : j.toNat - 1 < p.signers.length := by
      have hle := hrange i block rfl
      omega
    have hsigner := List.getElem?_eq_getElem hplace
    rw [hrecipient, holder_offline hj, hsigner,
      h j _ hreceiver hj hsigner (Option.isSome_iff_exists.mpr ⟨_, hbody⟩)]
    rfl

section Distinct

variable {participants : Participants}
  (hids : (participants.bestAuthorities.map Prod.fst).Nodup)
  (hauthorities : (participants.bestAuthorities.map Prod.snd).Nodup)

include hids hauthorities in
theorem authorityOf_eq_authorityOf_iff {id : UInt16}
    (hid : id ∈ participants.bestAuthorities.map Prod.fst) :
    participants.authorityOf j = participants.authorityOf id ↔ id = j := by
  constructor
  · intro h
    obtain ⟨⟨_, authority⟩, hmem, rfl⟩ := List.mem_map.mp hid
    rw [(authorityOf_eq_some hids).mpr hmem, authorityOf_eq_some hids] at h
    exact congrArg Prod.fst (List.inj_on_of_nodup_map hauthorities hmem h rfl)
  · rintro rfl
    rfl

include hauthorities in
theorem find?_authority_eq_some {authority : Public} {entry : UInt16 × Public} :
    participants.bestAuthorities.find? (fun entry => entry.2 == authority) = some entry ↔
      entry ∈ participants.bestAuthorities ∧ entry.2 = authority := by
  constructor
  · intro h
    have hfound := List.find?_some h
    exact ⟨List.mem_of_find?_eq_some h, beq_iff_eq.mp hfound⟩
  · rintro ⟨hmem, rfl⟩
    have hsome : (participants.bestAuthorities.find? fun other => other.2 == entry.2).isSome :=
      List.find?_isSome.mpr ⟨entry, hmem, beq_self_eq_true _⟩
    obtain ⟨other, hother⟩ := Option.isSome_iff_exists.mp hsome
    have hfound := List.find?_some hother
    rw [hother]
    exact congrArg some (List.inj_on_of_nodup_map hauthorities (List.mem_of_find?_eq_some hother)
      hmem (beq_iff_eq.mp hfound))

end Distinct

theorem handleUnsignedMessage_eq_some {localTy : ProtocolType} {serializedBody : Bytes}
    {payload : NetworkMsgPayload} (hreceiver : m.receiver = some j)
    (hbody : serde.toVec m = some serializedBody)
    (hpayload : p.payload localTy m.sender serializedBody = some payload) :
    handleUnsignedMessage serde p localTy payload = some m ↔ j = localTy.getI := by
  cases localTy with
  | keygen | offline =>
      cases hpayload
      rw [handleUnsignedMessage, serde.fromSlice_toVec hbody, Option.filter_some, hreceiver]
      simp
  | voting => cases hpayload

theorem localType_keygen_eq_some (hauthorities : (p.bestAuthorities.map Prod.snd).Nodup)
    {i : UInt16} {block : ℕ} {authority : Public} {localTy : ProtocolType} :
    localType p (.keygen i block) authority = some localTy ↔
      ∃ k, localTy = .keygen k block ∧ (k, authority) ∈ p.bestAuthorities := by
  rw [localType, Option.bind_eq_some_iff]
  constructor
  · rintro ⟨entry, hfind, heq⟩
    obtain ⟨hmem, rfl⟩ := (find?_authority_eq_some hauthorities).mp hfind
    exact ⟨entry.1, (Option.some.inj heq).symm, hmem⟩
  · rintro ⟨k, rfl, hmem⟩
    exact ⟨(k, authority), (find?_authority_eq_some hauthorities).mpr ⟨hmem, rfl⟩, rfl⟩

theorem localType_offline_eq_some (hauthorities : (p.bestAuthorities.map Prod.snd).Nodup)
    {i : UInt16} {block : ℕ} {authority : Public} {localTy : ProtocolType} :
    localType p (.offline i block) authority = some localTy ↔
      ∃ id k, localTy = .offline k block ∧ (id, authority) ∈ p.bestAuthorities ∧
        tryFromKeygenPartyId id p.signers = .ok k := by
  rw [localType, Option.bind_eq_some_iff]
  constructor
  · rintro ⟨entry, hfind, heq⟩
    obtain ⟨hmem, rfl⟩ := (find?_authority_eq_some hauthorities).mp hfind
    dsimp only at heq
    split at heq
    · rename_i k hoffline
      exact ⟨entry.1, k, (Option.some.inj heq).symm, hmem, hoffline⟩
    · cases heq
  · rintro ⟨id, k, rfl, hmem, hoffline⟩
    refine ⟨(id, authority), (find?_authority_eq_some hauthorities).mpr ⟨hmem, rfl⟩, ?_⟩
    dsimp only
    rw [hoffline]

theorem takes_iff_holder (hids : (p.bestAuthorities.map Prod.fst).Nodup)
    (hauthorities : (p.bestAuthorities.map Prod.snd).Nodup) (hsigners : p.signers.Nodup)
    (hreceiver : m.receiver = some j) (hsent : outgoingToWire serde p protoTy m = .sent msg)
    (authority : Public) :
    Takes serde p protoTy authority m msg ↔ p.holder protoTy j = some authority := by
  obtain ⟨hj, -, serializedBody, hbody, hpayload⟩ := outgoingToWire_eq_sent hreceiver hsent
  cases protoTy with
  | keygen i block =>
      have hhandled (k : UInt16) : handleUnsignedMessage serde p (.keygen k block) msg.payload =
          some m ↔ j = k := handleUnsignedMessage_eq_some hreceiver hbody hpayload
      rw [Participants.holder, authorityOf_eq_some hids]
      constructor
      · rintro ⟨localTy, hlocal, htaken⟩
        obtain ⟨k, rfl, hmem⟩ := (localType_keygen_eq_some hauthorities).mp hlocal
        rw [(hhandled k).mp htaken]
        exact hmem
      · intro hmem
        exact ⟨.keygen j block, (localType_keygen_eq_some hauthorities).mpr ⟨j, rfl, hmem⟩,
          (hhandled j).mpr rfl⟩
  | offline i block =>
      have hhandled (k : UInt16) : handleUnsignedMessage serde p (.offline k block) msg.payload =
          some m ↔ j = k := handleUnsignedMessage_eq_some hreceiver hbody hpayload
      rw [holder_offline hj, Option.bind_eq_some_iff]
      constructor
      · rintro ⟨localTy, hlocal, htaken⟩
        obtain ⟨id, k, rfl, hmem, hoffline⟩ := (localType_offline_eq_some hauthorities).mp hlocal
        rw [← (hhandled k).mp htaken] at hoffline
        exact ⟨id, (tryFromKeygenPartyId_eq_ok hsigners hj).mp hoffline,
          (authorityOf_eq_some hids).mpr hmem⟩
      · rintro ⟨id, hsigner, hauthority⟩
        have hmem := (authorityOf_eq_some hids).mp hauthority
        have hoffline := (tryFromKeygenPartyId_eq_ok hsigners hj).mpr hsigner
        exact ⟨.offline j block,
          (localType_offline_eq_some hauthorities).mpr ⟨id, j, rfl, hmem, hoffline⟩,
          (hhandled j).mpr rfl⟩
  | voting i block => cases hpayload

end Wire

/-- Messages of a keygen are sent to the party that they are for.  A message to the `j`-th signer is
sent to the `j`-th party of the keygen, which is right exactly if both have the same authority.  If
there is one authority for each keygen number, then the signer has the keygen number `j`, and the
holder of a number is the one that takes the messages for it. -/
theorem addressed_iff {Body : Type} (serde : Serde Body) (p : Params) (i : UInt16) (block : ℕ)
    (m : RoundMsg Body) :
    Addressed serde p (.keygen i block) m ∧
    (Addressed serde p (.offline i block) m ↔ ∀ j id, m.receiver = some j → j ≠ 0 →
      p.signers[j.toNat - 1]? = some id → (serde.toVec m).isSome = true →
        p.authorityOf j = p.authorityOf id) ∧
    ((p.bestAuthorities.map Prod.fst).Nodup → (p.bestAuthorities.map Prod.snd).Nodup →
      ((∀ id ∈ p.signers, id ∈ p.bestAuthorities.map Prod.fst) →
        (Addressed serde p (.offline i block) m ↔ ∀ j id, m.receiver = some j → j ≠ 0 →
          p.signers[j.toNat - 1]? = some id → (serde.toVec m).isSome = true → id = j)) ∧
      (p.signers.Nodup → ∀ protoTy j msg, m.receiver = some j →
        outgoingToWire serde p protoTy m = .sent msg → ∀ authority,
          Takes serde p protoTy authority m msg ↔ p.holder protoTy j = some authority)) := by
  refine ⟨addressed_keygen serde p i block m, addressed_offline_iff i block,
    fun hids hauthorities => ⟨fun hmembers => ?_, ?_⟩⟩
  · rw [addressed_offline_iff]
    refine forall₂_congr fun j id => forall₃_congr fun _ _ hsigner => forall_congr' fun _ => ?_
    exact authorityOf_eq_authorityOf_iff hids hauthorities
      (hmembers id (List.mem_of_getElem? hsigner))
  · intro hsigners protoTy j msg hreceiver hsent authority
    exact takes_iff_holder hids hauthorities hsigners hreceiver hsent authority

def sampleRoundMsg : RoundMsg Unit := ⟨2, some 1, ()⟩

theorem fromSlice_sampleSerde {m : RoundMsg Unit} {bytes : Bytes}
    (h : (if m = sampleRoundMsg then some [] else none) = some bytes) :
    some sampleRoundMsg = some m := by
  rw [Option.ite_none_right_eq_some] at h
  rw [h.1]

def sampleSerde : Serde Unit where
  toVec m := if m = sampleRoundMsg then some [] else none
  fromSlice _ := some sampleRoundMsg
  fromSlice_toVec := fromSlice_sampleSerde

def sampleParams : Params where
  toParticipants := sampleParticipants 3
  authorityPublicKey := samplePublic 3
  sessionId := 0
  associatedBlockId := 10
  ssid := 0
  keygenProtocolHash := List.Vector.replicate 32 0
  unsignedProposalHash := List.Vector.replicate 32 0

theorem sampleRoundMsg_not_addressed :
    ¬Addressed sampleSerde sampleParams (.offline 2 10) sampleRoundMsg := by
  intro h
  have hreceiver : sampleRoundMsg.receiver = some 1 := rfl
  have hbody : sampleSerde.toVec sampleRoundMsg = some [] := by
    decide
  obtain ⟨msg, hsent⟩ := exists_sent sampleParams 2 10 hreceiver (by decide) hbody
  have hright := h 1 msg hreceiver hsent fun _ _ _ => by decide
  rw [(outgoingToWire_eq_sent hreceiver hsent).2.1] at hright
  exact absurd hright (by decide)

end DkgSubstrate.SigningIndices
