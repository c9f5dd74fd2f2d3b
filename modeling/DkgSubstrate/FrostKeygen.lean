import DkgSubstrate.FrostSigning
import DkgSubstrate.IncomingMessages
import DkgSubstrate.IndexedMap
import Mathlib.Data.Fintype.Card

/-!
The key generation of the FROST module.  Each party owns some of the keys, and broadcasts one
message with a share for every key and the commitment to its polynomial.  A party waits for the
messages of all others, and computes its secret from them.
-/

namespace DkgSubstrate.FrostKeygen

open DkgSubstrate.IncomingMessages (DKGError DKGMessage SignedDKGMessage)
open DkgSubstrate.IndexedMap
open DkgSubstrate.Primitives
open DkgSubstrate.Words

inductive KeygenError where
  | genericError (reason : String)
  | startKeygen (reason : String)
deriving DecidableEq

def validateParameters (n k t : ℕ) : Except KeygenError Unit :=
  if k &&& n ≠ 0 then .error (.genericError "K % N != 0")
  else if k = 0 then .error (.genericError "K == 0")
  else if n ≤ t then .error (.genericError "N <= T")
  else .ok ()

def partyKeyIdsLoop (idsPerParty : ℕ) : ℕ → ℕ → List (List ℕ) → List (List ℕ)
  | 0, _, result => result
  | left + 1, start, result =>
      let stop := start + idsPerParty
      let ids := List.range' start (stop - start)
      partyKeyIdsLoop idsPerParty left stop (result ++ [ids])

def generatePartyKeyIds (n k : ℕ) : List (List ℕ) := partyKeyIdsLoop (k / n) n 0 []

def ownKeyIds (n partyId k t : ℕ) : Except KeygenError (List ℕ) := do
  validateParameters n k t
  match (generatePartyKeyIds n k)[partyId]? with
  | some keyIds => .ok keyIds
  | none => .error (.startKeygen "Bad party_id")

/-- The protocol is set up with as many keys as there are best authorities, for the authority at
its place among them.  An authority that is not there makes it panic. -/
def initializeKeygenProtocol (bestAuthorities : List (UInt16 × Public))
    (authorityPublicKey : Public) (threshold : ℕ) : Option (Except KeygenError (List ℕ)) :=
  let n := bestAuthorities.length % 2 ^ 32
  let k := n
  (bestAuthorities.findIdx? fun r => r.2 == authorityPublicKey).map fun partyId =>
    ownKeyIds n (partyId % 2 ^ 32) k threshold

structure IsPartition (n k : ℕ) (blocks : List (List ℕ)) : Prop where
  length : blocks.length = n
  size : ∃ size, ∀ block ∈ blocks, block.length = size
  consecutive : blocks.flatten = List.range k

/-- The check accepts the parameters that the keys can be distributed for. -/
structure MatchesUse (n k t : ℕ) : Prop where
  accepts : validateParameters n k t = .ok () ↔ 0 < k ∧ n ∣ k ∧ t < n
  partition : validateParameters n k t = .ok () → IsPartition n k (generatePartyKeyIds n k)

section Parameters

variable {n k t : ℕ}

theorem validateParameters_eq_ok :
    validateParameters n k t = .ok () ↔ k &&& n = 0 ∧ 0 < k ∧ t < n := by
  rw [validateParameters]
  split
  · rename_i hand
    exact iff_of_false (fun h => by cases h) fun h => hand h.1
  · rename_i hand
    split
    · rename_i hzero
      exact iff_of_false (fun h => by cases h) fun h => h.2.1.ne' hzero
    · rename_i hzero
      split
      · rename_i hle
        exact iff_of_false (fun h => by cases h) fun h => Nat.not_lt.mpr hle h.2.2
      · rename_i hle
        exact iff_of_true rfl ⟨not_not.mp hand, Nat.pos_of_ne_zero hzero, Nat.not_le.mp hle⟩

theorem partyKeyIdsLoop_spec (size left start : ℕ) (result : List (List ℕ)) :
    ∃ blocks, partyKeyIdsLoop size left start result = result ++ blocks ∧
      blocks.length = left ∧ (∀ block ∈ blocks, block.length = size) ∧
        blocks.flatten = List.range' start (left * size) := by
  induction left generalizing start result with
  | zero => exact ⟨[], (List.append_nil _).symm, rfl, by simp, by simp⟩
  | succ left ih =>
      obtain ⟨blocks, hloop, hlength, hsize, hflatten⟩ :=
        ih (start + size) (result ++ [List.range' start size])
      refine ⟨List.range' start size :: blocks, ?_, ?_, ?_, ?_⟩
      · rw [partyKeyIdsLoop, Nat.add_sub_cancel_left, hloop, List.append_assoc]
        rfl
      · rw [List.length_cons, hlength]
      · exact List.forall_mem_cons.mpr ⟨List.length_range', hsize⟩
      · rw [List.flatten_cons, hflatten, List.range'_append_1, Nat.add_one_mul, Nat.add_comm size]

theorem isPartition_generatePartyKeyIds (hdvd : n ∣ k) :
    IsPartition n k (generatePartyKeyIds n k) := by
  obtain ⟨blocks, hloop, hlength, hsize, hflatten⟩ := partyKeyIdsLoop_spec (k / n) n 0 []
  rw [generatePartyKeyIds, hloop, List.nil_append]
  refine ⟨hlength, ⟨k / n, hsize⟩, ?_⟩
  rw [hflatten, Nat.mul_div_cancel' hdvd, List.range_eq_range']

theorem ownKeyIds_eq_error {partyId : ℕ} {err : KeygenError}
    (h : validateParameters n k t = .error err) : ownKeyIds n partyId k t = .error err := by
  rw [ownKeyIds, h]
  rfl

theorem validateParameters_self (hn : 0 < n) (t : ℕ) :
    validateParameters n n t = .error (.genericError "K % N != 0") := by
  rw [validateParameters, Nat.and_self, if_pos hn.ne']

theorem initializeKeygenProtocol_ne_ok (bestAuthorities : List (UInt16 × Public))
    (authorityPublicKey : Public) (threshold : ℕ) (keyIds : List ℕ) :
    initializeKeygenProtocol bestAuthorities authorityPublicKey threshold ≠ some (.ok keyIds) := by
  intro h
  obtain ⟨partyId, -, hown⟩ := Option.map_eq_some_iff.mp h
  rcases Nat.eq_zero_or_pos (bestAuthorities.length % 2 ^ 32) with hzero | hpos
  · have hcheck : validateParameters 0 0 threshold = .error (.genericError "K == 0") := rfl
    rw [hzero, ownKeyIds_eq_error hcheck] at hown
    cases hown
  · rw [ownKeyIds_eq_error (validateParameters_self hpos threshold)] at hown
    cases hown

end Parameters

/-- The check takes the bits that `k` and `n` have in common for the remainder.  It is right
exactly if another check fails or the two agree, and it is wrong whenever there are as many keys
as parties, so that the protocol as it is set up never starts. -/
theorem matchesUse_iff (n k t : ℕ) :
    (MatchesUse n k t ↔ n ≤ t ∨ k = 0 ∨ (k &&& n = 0 ↔ n ∣ k)) ∧
    (t < n → ¬MatchesUse n n t) ∧
    ∀ bestAuthorities authorityPublicKey keyIds,
      initializeKeygenProtocol bestAuthorities authorityPublicKey t ≠ some (.ok keyIds) := by
  refine ⟨⟨fun h => ?_, fun h => ?_⟩, fun hlt h => ?_, ?_⟩
  · by_contra hnot
    rw [not_or, not_or] at hnot
    obtain ⟨hle, hzero, hdiffer⟩ := hnot
    have haccepts := h.accepts
    rw [validateParameters_eq_ok] at haccepts
    have hpos := Nat.pos_of_ne_zero hzero
    have hlt := Nat.not_le.mp hle
    refine hdiffer ⟨fun hand => ?_, fun hdvd => ?_⟩
    · exact (haccepts.mp ⟨hand, hpos, hlt⟩).2.1
    · exact (haccepts.mpr ⟨hpos, hdvd, hlt⟩).1
  · have haccepts : validateParameters n k t = .ok () ↔ 0 < k ∧ n ∣ k ∧ t < n := by
      rw [validateParameters_eq_ok]
      rcases h with hle | rfl | hiff
      · exact iff_of_false (fun h => absurd h.2.2 (Nat.not_lt.mpr hle))
          fun h => absurd h.2.2 (Nat.not_lt.mpr hle)
      · exact iff_of_false (fun h => absurd h.2.1 (lt_irrefl 0)) fun h => absurd h.1 (lt_irrefl 0)
      · rw [hiff, and_left_comm]
    exact ⟨haccepts, fun hok => isPartition_generatePartyKeyIds (haccepts.mp hok).2.1⟩
  · have hpos := Nat.zero_lt_of_lt hlt
    have hok := h.accepts.mpr ⟨hpos, dvd_refl n, hlt⟩
    rw [validateParameters_self hpos] at hok
    cases hok
  · intro bestAuthorities authorityPublicKey keyIds
    exact initializeKeygenProtocol_ne_ok bestAuthorities authorityPublicKey t keyIds

theorem ten_keys_not_matchesUse : ¬MatchesUse 4 10 1 ∧ ¬MatchesUse 2 2 1 := by
  refine ⟨fun h => ?_, fun h => ?_⟩
  · have hcovers := (h.partition (by decide)).consecutive
    exact absurd hcovers (by decide)
  · have hok := h.accepts.mpr (by decide)
    exact absurd hok (by decide)

/-- A party, with the shares that it has for the keys. -/
structure Party (Scalar PolyCommitment : Type) where
  partyId : ℕ
  shares : StorageMap ℕ Scalar
  keyIds : List ℕ
  polyCommitment : PolyCommitment

inductive FrostMessage (Scalar PolyCommitment Nonce Share : Type) where
  | dkg (partyId : ℕ) (shares : StorageMap ℕ Scalar) (keyIds : List ℕ)
      (polyCommitment : PolyCommitment)
  | sign (partyId : ℕ) (keyIds : List ℕ) (nonce : Nonce)
  | signFinal (partyId : ℕ) (signatureShare : Share)

/-- What a call of `next_message` returns.  There is no message if the connection has died. -/
abbrev Delivery (Scalar PolyCommitment Nonce Share : Type) :=
  Except DKGError (Option (FrostMessage Scalar PolyCommitment Nonce Share))

variable {Scalar PolyCommitment Nonce Share Secret : Type}

def Party.message (party : Party Scalar PolyCommitment) :
    FrostMessage Scalar PolyCommitment Nonce Share :=
  .dkg party.partyId party.shares party.keyIds party.polyCommitment

structure Received (Scalar PolyCommitment : Type) where
  receivedShares : StorageMap ℕ (StorageMap ℕ Scalar)
  receivedKeyIds : StorageMap ℕ (List ℕ)
  receivedPolyCommitments : StorageMap ℕ PolyCommitment

def Received.insert (received : Received Scalar PolyCommitment)
    (party : Party Scalar PolyCommitment) : Received Scalar PolyCommitment where
  receivedShares := AList.insert party.partyId party.shares received.receivedShares
  receivedKeyIds := AList.insert party.partyId party.keyIds received.receivedKeyIds
  receivedPolyCommitments :=
    AList.insert party.partyId party.polyCommitment received.receivedPolyCommitments

def Received.own (signer : Party Scalar PolyCommitment) : Received Scalar PolyCommitment :=
  Received.insert ⟨∅, ∅, ∅⟩ signer

inductive LoopEnd (Scalar PolyCommitment Nonce Share : Type) where
  | waiting
  | died
  | complete (received : Received Scalar PolyCommitment)
      (rest : List (Delivery Scalar PolyCommitment Nonce Share))

def onDelivery (ownId : ℕ) (received : Received Scalar PolyCommitment) :
    Delivery Scalar PolyCommitment Nonce Share → Option (Received Scalar PolyCommitment)
  | .ok (some (.dkg partyId shares keyIds polyCommitment)) =>
      if partyId ≠ ownId then some (received.insert ⟨partyId, shares, keyIds, polyCommitment⟩)
      else some received
  | .ok (some (.sign ..)) | .ok (some (.signFinal ..)) | .error _ => some received
  | .ok none => none

def receiveLoop (ownId nSigners : ℕ) (received : Received Scalar PolyCommitment) :
    List (Delivery Scalar PolyCommitment Nonce Share) →
      LoopEnd Scalar PolyCommitment Nonce Share
  | [] =>
      if received.receivedShares.entries.length < nSigners then .waiting
      else .complete received []
  | delivery :: rest =>
      if received.receivedShares.entries.length < nSigners then
        match onDelivery ownId received delivery with
        | some received => receiveLoop ownId nSigners received rest
        | none => .died
      else .complete received (delivery :: rest)

abbrev ShareTable (Scalar : Type) := ℕ → Option (ℕ → Option Scalar)

/-- The table, unless a share is missing. -/
def partyShares (keyIds : List ℕ) (receivedShares : StorageMap ℕ (StorageMap ℕ Scalar)) :
    Option (ShareTable Scalar) :=
  if keyIds.all fun keyId =>
      (receivedShares.iter id).all fun entry => entry.2.containsKey keyId then
    some fun keyId =>
      if keyIds.contains keyId then
        some fun id => (receivedShares.lookup id).bind fun shares => shares.lookup keyId
      else none
  else none

def sortedPolys (received : Received Scalar PolyCommitment) : List PolyCommitment :=
  (received.receivedPolyCommitments.iter id).map Prod.snd

inductive Outcome (PolyCommitment Secret : Type) where
  | waiting
  | panicked
  | returned (result : Except KeygenError (List PolyCommitment × Secret))

def runDkg (sent : Except String Unit)
    (computeSecret : ShareTable Scalar → List PolyCommitment → Except String Secret)
    (signer : Party Scalar PolyCommitment) (nSigners : ℕ)
    (deliveries : List (Delivery Scalar PolyCommitment Nonce Share)) :
    Outcome PolyCommitment Secret :=
  match sent with
  | .error err => .returned (.error (.genericError ("Error sending FROST message: " ++ err)))
  | .ok () =>
      match receiveLoop signer.partyId nSigners (.own signer) deliveries with
      | .waiting => .waiting
      | .died => .returned (.error (.genericError "NetListen connection died"))
      | .complete received _ =>
          match partyShares signer.keyIds received.receivedShares with
          | none => .panicked
          | some table =>
              let polys := sortedPolys received
              match computeSecret table polys with
              | .error err => .returned (.error (.genericError err))
              | .ok secret => .returned (.ok (polys, secret))

section Agreement

variable {n : ℕ} (parties : Fin n → Party Scalar PolyCommitment)

def agreedPolys : List PolyCommitment :=
  (byKey fun i => (parties i).partyId).map fun i => (parties i).polyCommitment

def agreedShares (j : Fin n) : ShareTable Scalar := fun keyId =>
  if (parties j).keyIds.contains keyId then
    some fun id => ((List.finRange n).find? fun i => (parties i).partyId == id).bind fun i =>
      (parties i).shares.lookup keyId
  else none

inductive Allowed : Delivery Scalar PolyCommitment Nonce Share → Prop
  | message (i : Fin n) : Allowed (.ok (some (parties i).message))
  | sign (partyId : ℕ) (keyIds : List ℕ) (nonce : Nonce) :
      Allowed (.ok (some (.sign partyId keyIds nonce)))
  | signFinal (partyId : ℕ) (signatureShare : Share) :
      Allowed (.ok (some (.signFinal partyId signatureShare)))
  | error (err : DKGError) : Allowed (.error err)

/-- The messages of all other parties come in, in any order and among noise. -/
structure Delivered (j : Fin n) (deliveries : List (Delivery Scalar PolyCommitment Nonce Share)) :
    Prop where
  allowed : ∀ d ∈ deliveries, Allowed parties d
  all : ∀ i, i ≠ j → .ok (some (parties i).message) ∈ deliveries

structure UpToLastMissing (known : Finset (Fin n))
    (pre : List (Delivery Scalar PolyCommitment Nonce Share)) : Prop where
  all : ∀ i, i ∉ known → .ok (some (parties i).message) ∈ pre
  missing : ∀ pre' d, pre = pre' ++ [d] → ∃ i, i ∉ known ∧ .ok (some (parties i).message) ∉ pre'

structure Holds (received : Received Scalar PolyCommitment) (known : Finset (Fin n)) : Prop where
  shares : Represents (fun i => (parties i).partyId) (fun i => (parties i).shares)
    received.receivedShares known
  keyIds : Represents (fun i => (parties i).partyId) (fun i => (parties i).keyIds)
    received.receivedKeyIds known
  polyCommitments : Represents (fun i => (parties i).partyId) (fun i => (parties i).polyCommitment)
    received.receivedPolyCommitments known

variable {parties} {received : Received Scalar PolyCommitment} {known : Finset (Fin n)} {j : Fin n}

theorem upToLastMissing_nil :
    UpToLastMissing parties Finset.univ
      ([] : List (Delivery Scalar PolyCommitment Nonce Share)) where
  all i hi := absurd (Finset.mem_univ i) hi
  missing pre' d h := by simp at h

theorem UpToLastMissing.cons {known' : Finset (Fin n)}
    {d : Delivery Scalar PolyCommitment Nonce Share}
    {pre : List (Delivery Scalar PolyCommitment Nonce Share)}
    (h : UpToLastMissing parties known' pre)
    (hknown : ∀ i, i ∉ known' ↔ i ∉ known ∧ .ok (some (parties i).message) ≠ d)
    (hmissing : ∃ i, i ∉ known) : UpToLastMissing parties known (d :: pre) where
  all i hi := by
    by_cases hd : .ok (some (parties i).message) = d
    · rw [hd]
      exact List.mem_cons_self
    · exact List.mem_cons_of_mem d (h.all i ((hknown i).mpr ⟨hi, hd⟩))
  missing pre' d' hpre := by
    cases pre' with
    | nil =>
        obtain ⟨i, hi⟩ := hmissing
        exact ⟨i, hi, List.not_mem_nil⟩
    | cons d'' pre' =>
        rw [List.cons_append, List.cons.injEq] at hpre
        obtain ⟨rfl, hpre⟩ := hpre
        obtain ⟨i, hi, hmem⟩ := h.missing pre' d' hpre
        obtain ⟨hi, hne⟩ := (hknown i).mp hi
        exact ⟨i, hi, List.not_mem_cons_of_ne_of_not_mem hne hmem⟩

theorem receiveLoop_of_le {nSigners ownId : ℕ}
    (h : nSigners ≤ received.receivedShares.entries.length)
    (deliveries : List (Delivery Scalar PolyCommitment Nonce Share)) :
    receiveLoop ownId nSigners received deliveries = .complete received deliveries := by
  cases deliveries with
  | nil => rw [receiveLoop, if_neg (Nat.not_lt.mpr h)]
  | cons d rest => rw [receiveLoop, if_neg (Nat.not_lt.mpr h)]

variable (hids : Function.Injective fun i => (parties i).partyId)
include hids

theorem Holds.insert (h : Holds parties received known) (i : Fin n) :
    Holds parties (received.insert (parties i)) (insert i known) where
  shares := h.shares.insert hids i
  keyIds := h.keyIds.insert hids i
  polyCommitments := h.polyCommitments.insert hids i

theorem holds_own (j : Fin n) :
    Holds parties (.own (parties j)) {j} := by
  have hempty : Holds parties ⟨∅, ∅, ∅⟩ ∅ := ⟨represents_empty, represents_empty, represents_empty⟩
  have hown := hempty.insert hids j
  rwa [insert_empty_eq] at hown

theorem message_inj {i k : Fin n}
    (h : (.ok (some (parties k).message) : Delivery Scalar PolyCommitment Nonce Share) =
      .ok (some (parties i).message)) : k = i := by
  simp only [Party.message, Except.ok.injEq, Option.some.injEq, FrostMessage.dkg.injEq] at h
  exact hids h.1

theorem onDelivery_of_allowed (h : Holds parties received known) (hj : j ∈ known)
    {d : Delivery Scalar PolyCommitment Nonce Share} (hd : Allowed parties d) :
    ∃ received' known', onDelivery (parties j).partyId received d = some received' ∧
      Holds parties received' known' ∧
        ∀ i, i ∉ known' ↔ i ∉ known ∧ .ok (some (parties i).message) ≠ d := by
  cases hd with
  | message i =>
      by_cases hi : i = j
      · subst hi
        refine ⟨received, known, if_neg (not_not.mpr rfl), h, fun k => ?_⟩
        refine (and_iff_left_of_imp fun hk hmessage => ?_).symm
        exact hk (message_inj hids hmessage ▸ hj)
      · refine ⟨_, _, if_pos fun heq => hi (hids heq), h.insert hids i, fun k => ?_⟩
        rw [Finset.mem_insert, not_or, and_comm]
        refine and_congr_right fun _ => not_congr ⟨?_, message_inj hids⟩
        rintro rfl
        rfl
  | sign | signFinal | error =>
      refine ⟨received, known, rfl, h, fun k => ?_⟩
      exact (and_iff_left_of_imp fun _ hmessage => by cases hmessage).symm

theorem receiveLoop_of_holds_univ (h : Holds parties received Finset.univ) (ownId : ℕ)
    (deliveries : List (Delivery Scalar PolyCommitment Nonce Share)) :
    receiveLoop ownId n received deliveries = .complete received deliveries := by
  refine receiveLoop_of_le ?_ deliveries
  rw [h.shares.length hids, Finset.card_univ, Fintype.card_fin]

theorem receiveLoop_complete (h : Holds parties received known) (hj : j ∈ known)
    {deliveries : List (Delivery Scalar PolyCommitment Nonce Share)}
    (hallowed : ∀ d ∈ deliveries, Allowed parties d)
    (hall : ∀ i, i ∉ known → .ok (some (parties i).message) ∈ deliveries) :
    ∃ pre post received', deliveries = pre ++ post ∧ UpToLastMissing parties known pre ∧
      receiveLoop (parties j).partyId n received deliveries = .complete received' post ∧
        Holds parties received' Finset.univ := by
  induction deliveries generalizing received known with
  | nil =>
      have huniv : known = Finset.univ := by
        refine Finset.eq_univ_iff_forall.mpr fun i => ?_
        by_contra hi
        exact absurd (hall i hi) List.not_mem_nil
      subst huniv
      exact ⟨[], [], received, rfl, upToLastMissing_nil,
        receiveLoop_of_holds_univ hids h _ _, h⟩
  | cons d rest ih =>
      by_cases huniv : known = Finset.univ
      · subst huniv
        exact ⟨[], d :: rest, received, rfl, upToLastMissing_nil,
          receiveLoop_of_holds_univ hids h _ _, h⟩
      · have hmissing : ∃ i, i ∉ known := by
          by_contra hnone
          push Not at hnone
          exact huniv (Finset.eq_univ_iff_forall.mpr hnone)
        have hlt : received.receivedShares.entries.length < n := by
          rw [h.shares.length hids]
          exact ((Finset.card_lt_iff_ne_univ known).mpr huniv).trans_eq (Fintype.card_fin n)
        obtain ⟨received', known', hdelivery, hholds, hknown⟩ :=
          onDelivery_of_allowed hids h hj (hallowed d List.mem_cons_self)
        have hj' : j ∈ known' := by
          by_contra hnot
          exact ((hknown j).mp hnot).1 hj
        have hall' : ∀ i, i ∉ known' → .ok (some (parties i).message) ∈ rest := by
          intro i hi
          obtain ⟨hi, hne⟩ := (hknown i).mp hi
          exact (List.mem_cons.mp (hall i hi)).resolve_left hne
        obtain ⟨pre, post, final, rfl, hpre, hloop, hfinal⟩ := ih hholds hj'
          (fun d' hd' => hallowed d' (List.mem_cons_of_mem d hd')) hall'
        refine ⟨d :: pre, post, final, rfl, hpre.cons hknown hmissing, ?_, hfinal⟩
        rw [receiveLoop, if_pos hlt, hdelivery]
        exact hloop

theorem sortedPolys_of_holds_univ (h : Holds parties received Finset.univ) :
    sortedPolys received = agreedPolys parties := by
  have hmem : ∀ i, i ∈ byKey (fun i => (parties i).partyId) ↔ i ∈ Finset.univ :=
    fun i => iff_of_true (mem_byKey _ i) (Finset.mem_univ i)
  rw [sortedPolys, agreedPolys, h.polyCommitments.iter hmem (pairwise_byKey hids), List.map_map]
  rfl

theorem lookup_receivedShares (h : Holds parties received Finset.univ) (id : ℕ) :
    received.receivedShares.lookup id =
      ((List.finRange n).find? fun i => (parties i).partyId == id).map fun i =>
        (parties i).shares := by
  refine Option.ext fun shares => ?_
  rw [h.shares id shares, Option.map_eq_some_iff]
  constructor
  · rintro ⟨i, -, hid, hshares⟩
    have hsome : ((List.finRange n).find? fun i => (parties i).partyId == id).isSome = true :=
      List.find?_isSome.mpr ⟨i, List.mem_finRange i, beq_iff_eq.mpr hid⟩
    obtain ⟨k, hk⟩ := Option.isSome_iff_exists.mp hsome
    have hfound := List.find?_some hk
    have hki : k = i := hids ((beq_iff_eq.mp hfound).trans hid.symm)
    exact ⟨k, hk, hki ▸ hshares⟩
  · rintro ⟨i, hi, hshares⟩
    have hfound := List.find?_some hi
    exact ⟨i, Finset.mem_univ i, beq_iff_eq.mp hfound, hshares⟩

theorem partyShares_of_holds_univ
    (hcover : ∀ i, ∀ keyId ∈ (parties j).keyIds, (parties i).shares.containsKey keyId = true)
    (h : Holds parties received Finset.univ) :
    partyShares (parties j).keyIds received.receivedShares = some (agreedShares parties j) := by
  have hcovered : ((parties j).keyIds.all fun keyId => (received.receivedShares.iter id).all
      fun entry => entry.2.containsKey keyId) = true := by
    refine List.all_eq_true.mpr fun keyId hkeyId => List.all_eq_true.mpr ?_
    rintro ⟨id, shares⟩ hentry
    obtain ⟨i, -, -, rfl⟩ := (h.shares id shares).mp (StorageMap.mem_iter.mp hentry)
    exact hcover i keyId hkeyId
  rw [partyShares, if_pos hcovered]
  refine congrArg some (funext fun keyId => ?_)
  rw [agreedShares]
  split
  · refine congrArg some (funext fun id => ?_)
    rw [lookup_receivedShares hids h, Option.bind_map]
    rfl
  · rfl

end Agreement

/-- However the messages of the parties come in, a party leaves its receive loop with the last one
that was missing, computes its secret from the same shares, and returns the same commitments. -/
theorem runDkg_delivered {n : ℕ} (parties : Fin n → Party Scalar PolyCommitment)
    (hids : Function.Injective fun i => (parties i).partyId)
    (hcover : ∀ i j, ∀ keyId ∈ (parties j).keyIds, (parties i).shares.containsKey keyId = true)
    (computeSecret : Fin n → ShareTable Scalar → List PolyCommitment → Except String Secret)
    (haccepts : ∀ j, ∃ secret,
      computeSecret j (agreedShares parties j) (agreedPolys parties) = .ok secret)
    (j : Fin n) {deliveries : List (Delivery Scalar PolyCommitment Nonce Share)}
    (hdelivered : Delivered parties j deliveries) :
    ∃ pre post received secret, deliveries = pre ++ post ∧ UpToLastMissing parties {j} pre ∧
      receiveLoop (parties j).partyId n (.own (parties j)) deliveries = .complete received post ∧
      partyShares (parties j).keyIds received.receivedShares = some (agreedShares parties j) ∧
      computeSecret j (agreedShares parties j) (agreedPolys parties) = .ok secret ∧
      runDkg (.ok ()) (computeSecret j) (parties j) n deliveries =
        .returned (.ok (agreedPolys parties, secret)) := by
  have hall : ∀ i, i ∉ ({j} : Finset (Fin n)) → .ok (some (parties i).message) ∈ deliveries :=
    fun i hi => hdelivered.all i fun heq => hi (Finset.mem_singleton.mpr heq)
  obtain ⟨pre, post, received, hsplit, hpre, hloop, hholds⟩ := receiveLoop_complete hids
    (holds_own hids j) (Finset.mem_singleton_self j) hdelivered.allowed hall
  obtain ⟨secret, hsecret⟩ := haccepts j
  have hshares := partyShares_of_holds_univ hids (fun i => hcover i j) hholds
  refine ⟨pre, post, received, secret, hsplit, hpre, hloop, hshares, hsecret, ?_⟩
  rw [runDkg, hloop]
  dsimp only
  rw [hshares, sortedPolys_of_holds_univ hids hholds]
  dsimp only
  rw [hsecret]

def sampleParties (i : Fin 2) : Party ℕ ℕ where
  partyId := 5 - i
  shares := AList.insert 0 (10 + i) (AList.insert 1 (20 + i) ∅)
  keyIds := [i]
  polyCommitment := 100 + i

def sampleDeliveries : List (Delivery ℕ ℕ Unit Unit) :=
  [.error .noHeader, .ok (some (.sign 4 [] ())), .ok (some (sampleParties 0).message),
    .ok (some (sampleParties 1).message), .ok (some (sampleParties 1).message)]

theorem injective_sampleParties : Function.Injective fun i => (sampleParties i).partyId := by
  decide

theorem delivered_sampleDeliveries : Delivered sampleParties 0 sampleDeliveries where
  allowed := by
    simp only [sampleDeliveries, List.forall_mem_cons]
    exact ⟨.error _, .sign _ _ _, .message 0, .message 1, .message 1, by simp⟩
  all i hi := by
    have hone : i = 1 := by omega
    rw [hone]
    exact List.mem_of_getElem? (i := 3) rfl

def sampleSecret (_ : Fin 2) (_ : ShareTable ℕ) (polys : List ℕ) : Except String ℕ := .ok polys.sum

theorem runDkg_sampleDeliveries :
    (∀ i j, ∀ keyId ∈ (sampleParties j).keyIds,
      (sampleParties i).shares.containsKey keyId = true) ∧
    Delivered sampleParties 0 sampleDeliveries ∧
    agreedPolys sampleParties = [101, 100] ∧
    ∃ pre post received secret, sampleDeliveries = pre ++ post ∧
      UpToLastMissing sampleParties {0} pre ∧
      receiveLoop (sampleParties 0).partyId 2 (.own (sampleParties 0)) sampleDeliveries =
        .complete received post ∧
      partyShares (sampleParties 0).keyIds received.receivedShares =
        some (agreedShares sampleParties 0) ∧
      sampleSecret 0 (agreedShares sampleParties 0) (agreedPolys sampleParties) = .ok secret ∧
      runDkg (.ok ()) (sampleSecret 0) (sampleParties 0) 2 sampleDeliveries =
        .returned (.ok (agreedPolys sampleParties, secret)) := by
  have hcover : ∀ i j, ∀ keyId ∈ (sampleParties j).keyIds,
      (sampleParties i).shares.containsKey keyId = true := by
    decide
  exact ⟨hcover, delivered_sampleDeliveries, by decide,
    runDkg_delivered sampleParties injective_sampleParties hcover sampleSecret
      (fun _ => ⟨_, rfl⟩) 0 delivered_sampleDeliveries⟩

structure Network (Scalar PolyCommitment Nonce Share : Type) where
  verifySignatureAgainstAuthorities : SignedDKGMessage → Except DKGError DKGMessage
  sha2256 : Bytes → FixedBytes 32
  deserialize : Bytes → Except String (FrostMessage Scalar PolyCommitment Nonce Share)

namespace Network

variable (net : Network Scalar PolyCommitment Nonce Share)

def delivery (messageBin : Bytes) : Delivery Scalar PolyCommitment Nonce Share :=
  match net.deserialize messageBin with
  | .ok deserialized => .ok (some deserialized)
  | .error err => .error (.genericError err)

def nextMessages (receivedMessages : List (FixedBytes 32)) :
    List SignedDKGMessage → List (Delivery Scalar PolyCommitment Nonce Share)
  | [] => []
  | signed :: rest =>
      match net.verifySignatureAgainstAuthorities signed with
      | .error _ => nextMessages receivedMessages rest
      | .ok message =>
          let messageBin := FrostSigning.payload message.payload
          let messageHash := net.sha2256 messageBin
          if receivedMessages.contains messageHash then nextMessages receivedMessages rest
          else net.delivery messageBin :: nextMessages (messageHash :: receivedMessages) rest

def payloads (channel : List SignedDKGMessage) : List Bytes :=
  channel.filterMap fun signed =>
    match net.verifySignatureAgainstAuthorities signed with
    | .error _ => none
    | .ok message => some (FrostSigning.payload message.payload)

variable {net}

theorem payloads_cons_of_error {signed : SignedDKGMessage} {err : DKGError}
    (h : net.verifySignatureAgainstAuthorities signed = .error err)
    (channel : List SignedDKGMessage) :
    net.payloads (signed :: channel) = net.payloads channel := by
  rw [payloads, List.filterMap_cons_none (by rw [h])]
  rfl

theorem payloads_cons_of_ok {signed : SignedDKGMessage} {message : DKGMessage}
    (h : net.verifySignatureAgainstAuthorities signed = .ok message)
    (channel : List SignedDKGMessage) :
    net.payloads (signed :: channel) =
      FrostSigning.payload message.payload :: net.payloads channel := by
  rw [payloads, List.filterMap_cons_some (by rw [h])]
  rfl

theorem exists_payload_of_mem_nextMessages {receivedMessages : List (FixedBytes 32)}
    {channel : List SignedDKGMessage} {d : Delivery Scalar PolyCommitment Nonce Share}
    (h : d ∈ net.nextMessages receivedMessages channel) :
    ∃ messageBin ∈ net.payloads channel, net.delivery messageBin = d := by
  induction channel generalizing receivedMessages with
  | nil => exact absurd h List.not_mem_nil
  | cons signed rest ih =>
      rw [nextMessages] at h
      split at h
      · rename_i err hverify
        rw [payloads_cons_of_error hverify]
        exact ih h
      · rename_i message hverify
        rw [payloads_cons_of_ok hverify, List.exists_mem_cons_iff]
        dsimp only at h
        split at h
        · exact .inr (ih h)
        · rcases List.mem_cons.mp h with rfl | h
          · exact .inl rfl
          · exact .inr (ih h)

theorem delivery_mem_nextMessages {receivedMessages : List (FixedBytes 32)}
    {channel : List SignedDKGMessage}
    (hhash : ∀ a ∈ net.payloads channel, ∀ b ∈ net.payloads channel,
      net.sha2256 a = net.sha2256 b → a = b)
    {messageBin : Bytes} (hmem : messageBin ∈ net.payloads channel)
    (hnew : net.sha2256 messageBin ∉ receivedMessages) :
    net.delivery messageBin ∈ net.nextMessages receivedMessages channel := by
  induction channel generalizing receivedMessages with
  | nil => exact absurd hmem List.not_mem_nil
  | cons signed rest ih =>
      rw [nextMessages]
      cases hverify : net.verifySignatureAgainstAuthorities signed with
      | error err =>
          rw [payloads_cons_of_error hverify] at hhash hmem
          exact ih hhash hmem hnew
      | ok message =>
          rw [payloads_cons_of_ok hverify] at hhash hmem
          have hrest : ∀ a ∈ net.payloads rest, ∀ b ∈ net.payloads rest,
              net.sha2256 a = net.sha2256 b → a = b := fun a ha b hb =>
            hhash a (List.mem_cons_of_mem _ ha) b (List.mem_cons_of_mem _ hb)
          dsimp only
          by_cases hsame : net.sha2256 messageBin =
              net.sha2256 (FrostSigning.payload message.payload)
          · -- The hash is met for the first time.
            rw [hsame] at hnew
            rw [if_neg (by rwa [List.contains_iff_mem]),
              hhash messageBin hmem _ List.mem_cons_self hsame]
            exact List.mem_cons_self
          · have hlater : messageBin ∈ net.payloads rest := by
              refine (List.mem_cons.mp hmem).resolve_left fun heq => hsame ?_
              rw [heq]
            split
            · exact ih hrest hlater hnew
            · refine List.mem_cons_of_mem _ (ih hrest hlater ?_)
              exact List.not_mem_cons_of_ne_of_not_mem hsame hnew

end Network

theorem delivered_nextMessages {n : ℕ} {parties : Fin n → Party Scalar PolyCommitment} {j : Fin n}
    {net : Network Scalar PolyCommitment Nonce Share} {channel : List SignedDKGMessage}
    (hhash : ∀ a ∈ net.payloads channel, ∀ b ∈ net.payloads channel,
      net.sha2256 a = net.sha2256 b → a = b)
    (hallowed : ∀ messageBin ∈ net.payloads channel, Allowed parties (net.delivery messageBin))
    (hall : ∀ i, i ≠ j → ∃ messageBin ∈ net.payloads channel,
      net.deserialize messageBin = .ok (parties i).message) :
    Delivered parties j (net.nextMessages [] channel) where
  allowed d hd := by
    obtain ⟨messageBin, hmem, rfl⟩ := Network.exists_payload_of_mem_nextMessages hd
    exact hallowed messageBin hmem
  all i hi := by
    obtain ⟨messageBin, hmem, hdeserialize⟩ := hall i hi
    have hdelivery : net.delivery messageBin = .ok (some (parties i).message) := by
      rw [Network.delivery, hdeserialize]
    rw [← hdelivery]
    exact Network.delivery_mem_nextMessages hhash hmem List.not_mem_nil

end DkgSubstrate.FrostKeygen
