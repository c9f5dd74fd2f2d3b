import DkgSubstrate.FrostKeygen
import DkgSubstrate.Runs

/-!
The FROST key generation of one party, among parties that send whatever they like.
-/

namespace DkgSubstrate.FrostRobustness

open DkgSubstrate.FrostKeygen
open DkgSubstrate.Runs

variable {Scalar PolyCommitment Nonce Share Secret : Type}

/-- A delivery as a step of the loop.  There is no state after the connection has died, and nothing
is read any more when enough parties are there. -/
def loopStep (ownId nSigners : ℕ) (state : Option (Received Scalar PolyCommitment))
    (delivery : Delivery Scalar PolyCommitment Nonce Share) :
    Option (Received Scalar PolyCommitment) :=
  state.bind fun received =>
    if received.receivedShares.entries.length < nSigners then onDelivery ownId received delivery
    else some received

def countedIds (received : Received Scalar PolyCommitment) : Finset ℕ :=
  received.receivedShares.keys.toFinset

/-- What a delivery adds to the parties, if the connection is alive. -/
def taken (ownId : ℕ) :
    Delivery Scalar PolyCommitment Nonce Share → Option (List (Party Scalar PolyCommitment))
  | .ok (some (.dkg partyId shares keyIds polyCommitment)) =>
      if partyId ≠ ownId then some [⟨partyId, shares, keyIds, polyCommitment⟩] else some []
  | .ok (some (.sign ..)) | .ok (some (.signFinal ..)) | .error _ => some []
  | .ok none => none

def idsOf (parties : List (Party Scalar PolyCommitment)) : Finset ℕ :=
  (parties.map Party.partyId).toFinset

/-- The messages of others that are read before enough ids are known, or the connection dies. -/
def counted (ownId nSigners : ℕ) :
    Finset ℕ → List (Delivery Scalar PolyCommitment Nonce Share) →
      List (Party Scalar PolyCommitment)
  | _, [] => []
  | known, delivery :: rest =>
      if known.card < nSigners then
        match taken ownId delivery with
        | none => []
        | some parties => parties ++ counted ownId nSigners (known ∪ idsOf parties) rest
      else []

def heard (signer : Party Scalar PolyCommitment) (nSigners : ℕ)
    (deliveries : List (Delivery Scalar PolyCommitment Nonce Share)) :
    List (Party Scalar PolyCommitment) :=
  signer :: counted signer.partyId nSigners {signer.partyId} deliveries

def lastFrom (parties : List (Party Scalar PolyCommitment)) (id : ℕ) :
    Option (Party Scalar PolyCommitment) :=
  (parties.filter fun party => party.partyId = id).getLast?

def collected (signer : Party Scalar PolyCommitment) (nSigners : ℕ)
    (deliveries : List (Delivery Scalar PolyCommitment Nonce Share)) :
    Received Scalar PolyCommitment :=
  (counted signer.partyId nSigners {signer.partyId} deliveries).foldl Received.insert (.own signer)

def OnlyExpected (ownId nSigners : ℕ) (state : Option (Received Scalar PolyCommitment)) : Prop :=
  ∀ received ∈ state, ∀ id ∈ countedIds received, id ≠ ownId → id < nSigners

/-- A party gets through whatever is delivered.  It may have to wait, until the connection dies at
the latest. -/
structure Survives (sent : Except String Unit)
    (computeSecret : ShareTable Scalar → List PolyCommitment → Except String Secret)
    (signer : Party Scalar PolyCommitment) (nSigners : ℕ)
    (deliveries : List (Delivery Scalar PolyCommitment Nonce Share)) : Prop where
  neverPanics : runDkg sent computeSecret signer nSigners deliveries ≠ .panicked
  returns : ∃ result,
    runDkg sent computeSecret signer nSigners (deliveries ++ [.ok none]) = .returned result
  counts : sent = .ok () → Always (loopStep signer.partyId nSigners)
    (OnlyExpected signer.partyId nSigners) (some (.own signer)) deliveries

/-- What is asked of the messages that are read. -/
structure WellFormed (signer : Party Scalar PolyCommitment) (nSigners : ℕ)
    (deliveries : List (Delivery Scalar PolyCommitment Nonce Share)) : Prop where
  ids : ∀ party ∈ counted signer.partyId nSigners {signer.partyId} deliveries,
    party.partyId < nSigners
  shares : nSigners ≤ (idsOf (heard signer nSigners deliveries)).card →
    ∀ id, ∀ party ∈ lastFrom (heard signer nSigners deliveries) id,
      ∀ keyId ∈ signer.keyIds, party.shares.containsKey keyId = true

section Received

variable {ownId nSigners : ℕ} {received : Received Scalar PolyCommitment}

theorem length_eq_card (received : Received Scalar PolyCommitment) :
    received.receivedShares.entries.length = (countedIds received).card :=
  IndexedMap.length_entries received.receivedShares

theorem countedIds_insert (party : Party Scalar PolyCommitment) :
    countedIds (received.insert party) = insert party.partyId (countedIds received) := by
  ext id
  simp only [countedIds, Received.insert, List.mem_toFinset, Finset.mem_insert, ← AList.mem_keys,
    AList.mem_insert]

theorem countedIds_own (signer : Party Scalar PolyCommitment) :
    countedIds (.own signer) = {signer.partyId} := by
  rw [Received.own, countedIds_insert]
  rfl

theorem idsOf_cons (party : Party Scalar PolyCommitment)
    (parties : List (Party Scalar PolyCommitment)) :
    idsOf (party :: parties) = insert party.partyId (idsOf parties) := by
  rw [idsOf, List.map_cons, List.toFinset_cons]
  rfl

theorem countedIds_foldl (parties : List (Party Scalar PolyCommitment))
    (received : Received Scalar PolyCommitment) :
    countedIds (parties.foldl Received.insert received) = countedIds received ∪ idsOf parties := by
  induction parties generalizing received with
  | nil => exact (Finset.union_empty _).symm
  | cons party parties ih =>
      rw [List.foldl_cons, ih, countedIds_insert, idsOf_cons, Finset.insert_union,
        Finset.union_insert]

theorem receivedShares_foldl (parties : List (Party Scalar PolyCommitment))
    (received : Received Scalar PolyCommitment) :
    (parties.foldl Received.insert received).receivedShares =
      parties.foldl (fun m party => AList.insert party.partyId party.shares m)
        received.receivedShares := by
  induction parties generalizing received with
  | nil => rfl
  | cons party parties ih => exact ih (received.insert party)

theorem onDelivery_eq (ownId : ℕ) (received : Received Scalar PolyCommitment)
    (delivery : Delivery Scalar PolyCommitment Nonce Share) :
    onDelivery ownId received delivery =
      (taken ownId delivery).map fun parties => parties.foldl Received.insert received := by
  rcases delivery with err | (_ | (_ | _ | _))
  · rfl
  · rfl
  · rw [onDelivery, taken]
    split
    · rfl
    · rfl
  · rfl
  · rfl

theorem ne_of_mem_taken {delivery : Delivery Scalar PolyCommitment Nonce Share}
    {parties : List (Party Scalar PolyCommitment)} (h : taken ownId delivery = some parties)
    {party : Party Scalar PolyCommitment} (hparty : party ∈ parties) : party.partyId ≠ ownId := by
  rcases delivery with err | (_ | (_ | _ | _))
  · cases h
    cases hparty
  · cases h
  · rw [taken] at h
    split at h
    · rename_i hne
      cases h
      rw [List.mem_singleton.mp hparty]
      exact hne
    · cases h
      cases hparty
  · cases h
    cases hparty
  · cases h
    cases hparty

end Received

section Loop

variable {ownId nSigners : ℕ} {received : Received Scalar PolyCommitment}
  {delivery : Delivery Scalar PolyCommitment Nonce Share}
  {parties : List (Party Scalar PolyCommitment)}

theorem counted_of_le {known : Finset ℕ} (h : nSigners ≤ known.card)
    (deliveries : List (Delivery Scalar PolyCommitment Nonce Share)) :
    counted ownId nSigners known deliveries = [] := by
  cases deliveries with
  | nil => rfl
  | cons delivery rest => rw [counted, if_neg (Nat.not_lt.mpr h)]

theorem counted_cons_of_none {known : Finset ℕ} (hlt : known.card < nSigners)
    (h : taken ownId delivery = none)
    (rest : List (Delivery Scalar PolyCommitment Nonce Share)) :
    counted ownId nSigners known (delivery :: rest) = [] := by
  rw [counted, if_pos hlt, h]

theorem counted_cons_of_some {known : Finset ℕ} (hlt : known.card < nSigners)
    (h : taken ownId delivery = some parties)
    (rest : List (Delivery Scalar PolyCommitment Nonce Share)) :
    counted ownId nSigners known (delivery :: rest) =
      parties ++ counted ownId nSigners (known ∪ idsOf parties) rest := by
  rw [counted, if_pos hlt, h]

theorem loopStep_of_le (h : nSigners ≤ (countedIds received).card)
    (delivery : Delivery Scalar PolyCommitment Nonce Share) :
    loopStep ownId nSigners (some received) delivery = some received := by
  rw [← length_eq_card] at h
  exact if_neg (Nat.not_lt.mpr h)

theorem loopStep_of_lt (h : (countedIds received).card < nSigners)
    (delivery : Delivery Scalar PolyCommitment Nonce Share) :
    loopStep ownId nSigners (some received) delivery =
      (taken ownId delivery).map fun parties => parties.foldl Received.insert received := by
  rw [← length_eq_card] at h
  rw [← onDelivery_eq]
  exact if_pos h

theorem run_loopStep_none (ownId nSigners : ℕ)
    (deliveries : List (Delivery Scalar PolyCommitment Nonce Share)) :
    run (loopStep ownId nSigners) (none : Option (Received Scalar PolyCommitment)) deliveries =
      none := by
  induction deliveries with
  | nil => rfl
  | cons delivery rest ih => exact ih

theorem run_loopStep_of_le (h : nSigners ≤ (countedIds received).card)
    (deliveries : List (Delivery Scalar PolyCommitment Nonce Share)) :
    run (loopStep ownId nSigners) (some received) deliveries = some received := by
  induction deliveries with
  | nil => rfl
  | cons delivery rest ih => rw [run_cons, loopStep_of_le h, ih]

theorem run_loopStep (ownId nSigners : ℕ) (received : Received Scalar PolyCommitment)
    (deliveries : List (Delivery Scalar PolyCommitment Nonce Share)) :
    let final := (counted ownId nSigners (countedIds received) deliveries).foldl
      Received.insert received
    run (loopStep ownId nSigners) (some received) deliveries = some final ∨
      run (loopStep ownId nSigners) (some received) deliveries = none ∧
        (countedIds final).card < nSigners := by
  induction deliveries generalizing received with
  | nil => exact .inl rfl
  | cons delivery rest ih =>
      rcases Nat.lt_or_ge (countedIds received).card nSigners with hlt | hle
      · rw [run_cons, loopStep_of_lt hlt]
        cases htaken : taken ownId delivery with
        | none =>
            rw [counted_cons_of_none hlt htaken]
            exact .inr ⟨run_loopStep_none ownId nSigners rest, hlt⟩
        | some parties =>
            rw [counted_cons_of_some hlt htaken, ← countedIds_foldl, List.foldl_append]
            exact ih (parties.foldl Received.insert received)
      · rw [run_loopStep_of_le hle, counted_of_le hle]
        exact .inl rfl

theorem receiveLoop_of_run (ownId nSigners : ℕ) (received : Received Scalar PolyCommitment)
    (deliveries : List (Delivery Scalar PolyCommitment Nonce Share)) :
    (run (loopStep ownId nSigners) (some received) deliveries = none →
      receiveLoop ownId nSigners received deliveries = .died) ∧
    ∀ final, run (loopStep ownId nSigners) (some received) deliveries = some final →
      ((countedIds final).card < nSigners →
        receiveLoop ownId nSigners received deliveries = .waiting) ∧
      (nSigners ≤ (countedIds final).card →
        ∃ rest, receiveLoop ownId nSigners received deliveries = .complete final rest) := by
  induction deliveries generalizing received with
  | nil =>
      refine ⟨fun h => ?_, fun final h => ?_⟩
      · cases h
      · cases h
        rw [← length_eq_card, receiveLoop]
        exact ⟨fun hlt => if_pos hlt, fun hle => ⟨[], if_neg (Nat.not_lt.mpr hle)⟩⟩
  | cons delivery rest ih =>
      rcases Nat.lt_or_ge (countedIds received).card nSigners with hlt | hle
      · rw [run_cons, loopStep_of_lt hlt, receiveLoop, length_eq_card, if_pos hlt, onDelivery_eq]
        cases taken ownId delivery with
        | none =>
            refine ⟨fun _ => rfl, fun final h => ?_⟩
            rw [Option.map_none, run_loopStep_none] at h
            cases h
        | some parties => exact ih (parties.foldl Received.insert received)
      · rw [run_loopStep_of_le hle]
        refine ⟨fun h => ?_, fun final h => ?_⟩
        · cases h
        · cases h
          refine ⟨fun hlt => absurd hlt (Nat.not_lt.mpr hle), fun _ => ⟨delivery :: rest, ?_⟩⟩
          exact receiveLoop_of_le (by rwa [length_eq_card]) (delivery :: rest)

theorem run_loopStep_concat (ownId nSigners : ℕ) (received : Received Scalar PolyCommitment)
    (deliveries : List (Delivery Scalar PolyCommitment Nonce Share)) :
    run (loopStep ownId nSigners) (some received) (deliveries ++ [.ok none]) =
      (run (loopStep ownId nSigners) (some received) deliveries).bind fun final =>
        if (countedIds final).card < nSigners then none else some final := by
  rw [run_append]
  cases run (loopStep ownId nSigners) (some received) deliveries with
  | none => rfl
  | some final =>
      rcases Nat.lt_or_ge (countedIds final).card nSigners with hlt | hle
      · exact (loopStep_of_lt hlt _).trans (if_pos hlt).symm
      · exact (loopStep_of_le hle _).trans (if_neg (Nat.not_lt.mpr hle)).symm

theorem onlyExpected_none (ownId nSigners : ℕ) :
    OnlyExpected ownId nSigners (none : Option (Received Scalar PolyCommitment)) :=
  fun _ hreceived => absurd hreceived (Option.not_mem_none _)

theorem mem_idsOf {id : ℕ} : id ∈ idsOf parties ↔ ∃ party ∈ parties, party.partyId = id := by
  rw [idsOf, List.mem_toFinset, List.mem_map]

theorem onlyExpected_foldl (hreceived : OnlyExpected ownId nSigners (some received))
    (hne : ∀ party ∈ parties, party.partyId ≠ ownId) :
    OnlyExpected ownId nSigners (some (parties.foldl Received.insert received)) ↔
      ∀ party ∈ parties, party.partyId < nSigners := by
  constructor
  · intro h party hparty
    refine h _ (Option.mem_some_self _) party.partyId ?_ (hne party hparty)
    rw [countedIds_foldl]
    exact Finset.mem_union_right _ (mem_idsOf.mpr ⟨party, hparty, rfl⟩)
  · intro h final hfinal id hid hown
    rw [← Option.some.inj hfinal, countedIds_foldl] at hid
    rcases Finset.mem_union.mp hid with hid | hid
    · exact hreceived received (Option.mem_some_self _) id hid hown
    · obtain ⟨party, hparty, rfl⟩ := mem_idsOf.mp hid
      exact h party hparty

theorem onlyExpected_own (signer : Party Scalar PolyCommitment) (nSigners : ℕ) :
    OnlyExpected signer.partyId nSigners (some (.own signer)) := by
  intro received hreceived id hid hne
  rw [← Option.some.inj hreceived, countedIds_own] at hid
  exact absurd (Finset.mem_singleton.mp hid) hne

theorem always_onlyExpected_iff (ownId nSigners : ℕ) (received : Received Scalar PolyCommitment)
    (deliveries : List (Delivery Scalar PolyCommitment Nonce Share)) :
    Always (loopStep ownId nSigners) (OnlyExpected ownId nSigners) (some received) deliveries ↔
      OnlyExpected ownId nSigners (some received) ∧
        ∀ party ∈ counted ownId nSigners (countedIds received) deliveries,
          party.partyId < nSigners := by
  induction deliveries generalizing received with
  | nil => simp [always_nil, counted]
  | cons delivery rest ih =>
      rw [always_cons]
      refine and_congr_right fun hreceived => ?_
      rcases Nat.lt_or_ge (countedIds received).card nSigners with hlt | hle
      · rw [loopStep_of_lt hlt]
        cases htaken : taken ownId delivery with
        | none =>
            rw [counted_cons_of_none hlt htaken]
            refine iff_of_true (fun pre post _ => ?_) fun party hparty => by cases hparty
            rw [Option.map_none, run_loopStep_none]
            exact onlyExpected_none ownId nSigners
        | some parties =>
            rw [counted_cons_of_some hlt htaken, Option.map_some, ih, countedIds_foldl,
              List.forall_mem_append]
            refine and_congr_left fun _ => ?_
            exact onlyExpected_foldl hreceived fun party hparty => ne_of_mem_taken htaken hparty
      · rw [loopStep_of_le hle, ih, counted_of_le hle, counted_of_le hle]
        exact and_iff_right hreceived

end Loop

section Outcome

variable {computeSecret : ShareTable Scalar → List PolyCommitment → Except String Secret}
  {signer : Party Scalar PolyCommitment} {nSigners : ℕ}
  {deliveries : List (Delivery Scalar PolyCommitment Nonce Share)}

theorem runDkg_of_waiting
    (h : receiveLoop signer.partyId nSigners (.own signer) deliveries = .waiting) :
    runDkg (.ok ()) computeSecret signer nSigners deliveries = .waiting := by
  rw [runDkg, h]

theorem runDkg_of_died
    (h : receiveLoop signer.partyId nSigners (.own signer) deliveries = .died) :
    runDkg (.ok ()) computeSecret signer nSigners deliveries =
      .returned (.error (.genericError "NetListen connection died")) := by
  rw [runDkg, h]

theorem runDkg_of_complete
    (computeSecret : ShareTable Scalar → List PolyCommitment → Except String Secret)
    {received : Received Scalar PolyCommitment}
    {rest : List (Delivery Scalar PolyCommitment Nonce Share)}
    (h : receiveLoop signer.partyId nSigners (.own signer) deliveries = .complete received rest) :
    partyShares signer.keyIds received.receivedShares = none ∧
        runDkg (.ok ()) computeSecret signer nSigners deliveries = .panicked ∨
      partyShares signer.keyIds received.receivedShares ≠ none ∧
        ∃ result, runDkg (.ok ()) computeSecret signer nSigners deliveries = .returned result := by
  rw [runDkg, h]
  dsimp only
  cases partyShares signer.keyIds received.receivedShares with
  | none => exact .inl ⟨rfl, rfl⟩
  | some table =>
      refine .inr ⟨Option.some_ne_none table, ?_⟩
      dsimp only
      cases computeSecret table (sortedPolys received) with
      | error err => exact ⟨_, rfl⟩
      | ok secret => exact ⟨_, rfl⟩

theorem countedIds_collected :
    countedIds (collected signer nSigners deliveries) =
      idsOf (heard signer nSigners deliveries) := by
  rw [collected, countedIds_foldl, countedIds_own, heard, idsOf_cons]
  rfl

theorem lookup_collected (id : ℕ) :
    (collected signer nSigners deliveries).receivedShares.lookup id =
      (lastFrom (heard signer nSigners deliveries) id).map Party.shares := by
  have hfoldl : collected signer nSigners deliveries =
      (heard signer nSigners deliveries).foldl Received.insert ⟨∅, ∅, ∅⟩ := rfl
  rw [hfoldl, receivedShares_foldl, StorageMap.lookup_foldl_insert, AList.lookup_empty,
    Option.or_none]
  rfl

theorem run_collected (signer : Party Scalar PolyCommitment) (nSigners : ℕ)
    (deliveries : List (Delivery Scalar PolyCommitment Nonce Share)) :
    run (loopStep signer.partyId nSigners) (some (.own signer)) deliveries =
        some (collected signer nSigners deliveries) ∨
      run (loopStep signer.partyId nSigners) (some (.own signer)) deliveries = none ∧
        (countedIds (collected signer nSigners deliveries)).card < nSigners := by
  have hrun := run_loopStep signer.partyId nSigners (.own signer) deliveries
  rwa [countedIds_own] at hrun

theorem partyShares_ne_none_iff {keyIds : List ℕ}
    {receivedShares : StorageMap ℕ (StorageMap ℕ Scalar)} :
    partyShares keyIds receivedShares ≠ none ↔
      ∀ id, ∀ shares ∈ receivedShares.lookup id, ∀ keyId ∈ keyIds,
        shares.containsKey keyId = true := by
  have hall : (keyIds.all fun keyId =>
      (receivedShares.iter id).all fun entry => entry.2.containsKey keyId) = true ↔
        ∀ id, ∀ shares ∈ receivedShares.lookup id, ∀ keyId ∈ keyIds,
          shares.containsKey keyId = true := by
    simp only [List.all_eq_true, Prod.forall, StorageMap.mem_iter, Option.mem_def]
    constructor
    · intro h id shares hlookup keyId hkeyId
      exact h keyId hkeyId id shares hlookup
    · intro h keyId hkeyId id shares hlookup
      exact h id shares hlookup keyId hkeyId
  rw [← hall, partyShares]
  split
  · rename_i h
    exact iff_of_true (Option.some_ne_none _) h
  · rename_i h
    exact iff_of_false (not_not.mpr rfl) h

theorem partyShares_collected_ne_none_iff :
    partyShares signer.keyIds (collected signer nSigners deliveries).receivedShares ≠ none ↔
      ∀ id, ∀ party ∈ lastFrom (heard signer nSigners deliveries) id,
        ∀ keyId ∈ signer.keyIds, party.shares.containsKey keyId = true := by
  rw [partyShares_ne_none_iff]
  refine forall_congr' fun id => ?_
  simp only [lookup_collected, Option.mem_def, Option.map_eq_some_iff, forall_exists_index,
    and_imp, forall_apply_eq_imp_iff₂]

theorem receiveLoop_of_card_lt
    (hlt : (countedIds (collected signer nSigners deliveries)).card < nSigners) :
    (receiveLoop signer.partyId nSigners (.own signer) deliveries = .waiting ∨
      receiveLoop signer.partyId nSigners (.own signer) deliveries = .died) ∧
    receiveLoop signer.partyId nSigners (.own signer) (deliveries ++ [.ok none]) = .died := by
  have hloop := receiveLoop_of_run signer.partyId nSigners (.own signer) deliveries
  have hclosed :=
    receiveLoop_of_run signer.partyId nSigners (.own signer) (deliveries ++ [.ok none])
  rw [run_loopStep_concat] at hclosed
  rcases run_collected signer nSigners deliveries with hrun | ⟨hrun, -⟩
  · rw [hrun] at hclosed
    exact ⟨.inl ((hloop.2 _ hrun).1 hlt), hclosed.1 (if_pos hlt)⟩
  · rw [hrun] at hclosed
    exact ⟨.inr (hloop.1 hrun), hclosed.1 rfl⟩

theorem receiveLoop_of_le_card
    (hle : nSigners ≤ (countedIds (collected signer nSigners deliveries)).card) :
    (∃ rest, receiveLoop signer.partyId nSigners (.own signer) deliveries =
      .complete (collected signer nSigners deliveries) rest) ∧
    ∃ rest, receiveLoop signer.partyId nSigners (.own signer) (deliveries ++ [.ok none]) =
      .complete (collected signer nSigners deliveries) rest := by
  have hloop := receiveLoop_of_run signer.partyId nSigners (.own signer) deliveries
  have hclosed :=
    receiveLoop_of_run signer.partyId nSigners (.own signer) (deliveries ++ [.ok none])
  have hrun := (run_collected signer nSigners deliveries).resolve_right
    fun h => Nat.not_lt.mpr hle h.2
  rw [run_loopStep_concat, hrun] at hclosed
  exact ⟨(hloop.2 _ hrun).2 hle, (hclosed.2 _ (if_neg (Nat.not_lt.mpr hle))).2 hle⟩

theorem returns_iff
    (computeSecret : ShareTable Scalar → List PolyCommitment → Except String Secret)
    (signer : Party Scalar PolyCommitment) (nSigners : ℕ)
    (deliveries : List (Delivery Scalar PolyCommitment Nonce Share)) :
    (runDkg (.ok ()) computeSecret signer nSigners deliveries ≠ .panicked ∧
      ∃ result, runDkg (.ok ()) computeSecret signer nSigners (deliveries ++ [.ok none]) =
        .returned result) ↔
      (nSigners ≤ (idsOf (heard signer nSigners deliveries)).card →
        ∀ id, ∀ party ∈ lastFrom (heard signer nSigners deliveries) id,
          ∀ keyId ∈ signer.keyIds, party.shares.containsKey keyId = true) := by
  rw [← partyShares_collected_ne_none_iff, ← countedIds_collected]
  rcases Nat.lt_or_ge (countedIds (collected signer nSigners deliveries)).card nSigners
    with hlt | hle
  · obtain ⟨hloop, hclosed⟩ := receiveLoop_of_card_lt hlt
    refine iff_of_true ⟨fun hpanicked => ?_, _, runDkg_of_died hclosed⟩
      fun hle => absurd hlt (Nat.not_lt.mpr hle)
    rcases hloop with hwaiting | hdied
    · rw [runDkg_of_waiting hwaiting] at hpanicked
      cases hpanicked
    · rw [runDkg_of_died hdied] at hpanicked
      cases hpanicked
  · obtain ⟨⟨rest, hloop⟩, rest', hclosed⟩ := receiveLoop_of_le_card hle
    rcases runDkg_of_complete computeSecret hloop with ⟨hnone, hpanicked⟩ | ⟨hsome, result, hresult⟩
    · exact iff_of_false (fun h => h.1 hpanicked) fun h => h hle hnone
    · -- the end of the connection comes too late to matter
      have hreturned := (runDkg_of_complete computeSecret hclosed).resolve_left
        fun h => hsome h.1
      refine iff_of_true ⟨fun hpanicked => ?_, hreturned.2⟩ fun _ => hsome
      rw [hresult] at hpanicked
      cases hpanicked

end Outcome

/-- Nothing is checked about the messages of the others.  A party gets through exactly if every
counted message has an expected id, and none of the last ones, if they are enough, lacks a share. -/
theorem survives_iff (sent : Except String Unit)
    (computeSecret : ShareTable Scalar → List PolyCommitment → Except String Secret)
    (signer : Party Scalar PolyCommitment) (nSigners : ℕ)
    (deliveries : List (Delivery Scalar PolyCommitment Nonce Share)) :
    Survives sent computeSecret signer nSigners deliveries ↔
      (sent = .ok () → WellFormed signer nSigners deliveries) := by
  cases sent with
  | error err =>
      refine iff_of_true ⟨fun h => ?_, ⟨_, rfl⟩, fun h => ?_⟩ fun h => ?_
      · cases h
      · cases h
      · cases h
  | ok =>
      have hcounts := always_onlyExpected_iff signer.partyId nSigners (.own signer) deliveries
      rw [and_iff_right (onlyExpected_own signer nSigners), countedIds_own] at hcounts
      have hreturns := returns_iff computeSecret signer nSigners deliveries
      constructor
      · intro h _
        exact ⟨hcounts.mp (h.counts rfl), hreturns.mp ⟨h.neverPanics, h.returns⟩⟩
      · intro h
        obtain ⟨hids, hshares⟩ := h rfl
        obtain ⟨hpanics, hresult⟩ := hreturns.mpr hshares
        exact ⟨hpanics, hresult, fun _ => hcounts.mpr hids⟩

def firstSigner : Party ℕ ℕ where
  partyId := 0
  shares := AList.insert 0 10 (AList.insert 1 11 (AList.insert 2 12 (AList.insert 3 13 ∅)))
  keyIds := [0, 1]
  polyCommitment := 100

def noShares : List (Delivery ℕ ℕ Unit Unit) := [.ok (some (.dkg 1 ∅ [2, 3] 101))]

def strangeId : List (Delivery ℕ ℕ Unit Unit) :=
  [.ok (some (.dkg 7 firstSigner.shares [2, 3] 107))]

def sumOfPolys (_ : ShareTable ℕ) (polys : List ℕ) : Except String ℕ := .ok polys.sum

/-- The other party sends a message without shares, and the lookup of a share panics.  It sends a
message of a party 7 that is not there, and the protocol is completed with that. -/
theorem firstSigner_not_survives :
    ownKeyIds 2 0 4 1 = .ok firstSigner.keyIds ∧
    runDkg (.ok ()) sumOfPolys firstSigner 2 noShares = .panicked ∧
    ¬Survives (.ok ()) sumOfPolys firstSigner 2 noShares ∧
    runDkg (.ok ()) sumOfPolys firstSigner 2 strangeId = .returned (.ok ([100, 107], 207)) ∧
    ¬Survives (.ok ()) sumOfPolys firstSigner 2 strangeId := by
  refine ⟨rfl, rfl, fun h => h.neverPanics rfl, rfl, fun h => ?_⟩
  have hexpected := h.counts rfl strangeId [] rfl _ rfl 7 (by decide) (by decide)
  exact absurd hexpected (by decide)

end DkgSubstrate.FrostRobustness
