import DkgSubstrate.KeySubmissions

/-!
The rule by which the chain accepts a submission of keys, what it stores and whom it rewards.
-/

namespace DkgSubstrate.KeyAcceptance

open DkgSubstrate.Dispatch
open DkgSubstrate.KeySubmissions
open DkgSubstrate.Metadata
open DkgSubstrate.MetadataCalls
open DkgSubstrate.Primitives
open DkgSubstrate.SampleRuntime
open DkgSubstrate.Words

/-- The key is signed by a key with the x-coordinate. -/
def hasSigned (crypto : Crypto) (keys : List (Bytes × Bytes)) (key x : Bytes) : Bool :=
  keys.any fun pair => decide (pair.1 = key) && recoversTo crypto pair.1 pair.2 x

def leads (members : List Public) (id : Public) : Bool :=
  (members.find? fun other => decide (xCoordinate other = xCoordinate id)) == some id

def keySigners (crypto : Crypto) (members : List Public) (keys : List (Bytes × Bytes))
    (key : Bytes) : List Public :=
  members.dedup.filter fun id => leads members id && hasSigned crypto keys key (xCoordinate id)

def EnoughSigned (crypto : Crypto) (members : List Public) (threshold : ℕ)
    (keys : List (Bytes × Bytes)) (key : Bytes) : Prop :=
  key ∈ keys.map Prod.fst ∧ threshold ≤ (keySigners crypto members keys key).length

def Wins (crypto : Crypto) (members : List Public) (threshold : ℕ)
    (keys : List (Bytes × Bytes)) (key : Bytes) : Prop :=
  EnoughSigned crypto members threshold keys key ∧
    ∀ key', EnoughSigned crypto members threshold keys key' → key ≤ key'

section Signers

variable {crypto : Crypto} {members : List Public} {keys : List (Bytes × Bytes)} {key : Bytes}
variable {id : Public}

theorem hasSigned_iff {x : Bytes} : hasSigned crypto keys key x = true ↔
    ∃ pair ∈ keys, pair.1 = key ∧ recoversTo crypto pair.1 pair.2 x = true := by
  simp [hasSigned]

theorem recoversTo_eq_decide {pair : Bytes × Bytes}
    (h : recoversTo crypto pair.1 pair.2 (xCoordinate id) = true) :
    (fun other => recoversTo crypto pair.1 pair.2 (xCoordinate other)) =
      fun other => decide (xCoordinate other = xCoordinate id) := by
  funext other
  rw [Bool.eq_iff_iff, recoversTo_iff_of_recoversTo h, decide_eq_true_iff]

theorem signerOf_eq_some_iff {pair : Bytes × Bytes} :
    signerOf crypto members pair = some id ↔
      leads members id = true ∧ recoversTo crypto pair.1 pair.2 (xCoordinate id) = true := by
  rw [leads, beq_iff_eq, signerOf]
  constructor
  · intro hfind
    have hrecovers := List.find?_some hfind
    rw [recoversTo_eq_decide hrecovers] at hfind
    exact ⟨hfind, hrecovers⟩
  · rintro ⟨hfind, hrecovers⟩
    rwa [recoversTo_eq_decide hrecovers]

theorem mem_of_leads (h : leads members id = true) : id ∈ members := by
  rw [leads, beq_iff_eq] at h
  exact List.mem_of_find?_eq_some h

theorem mem_keySigners_iff : id ∈ keySigners crypto members keys key ↔
    id ∈ signersOf crypto members key keys := by
  simp only [keySigners, mem_signersOf, signerOf_eq_some_iff, List.mem_filter, List.mem_dedup,
    Bool.and_eq_true, hasSigned_iff]
  constructor
  · rintro ⟨-, hleads, pair, hpair, hkey, hrecovers⟩
    exact ⟨pair, hpair, hkey, hleads, hrecovers⟩
  · rintro ⟨pair, hpair, hkey, hleads, hrecovers⟩
    exact ⟨mem_of_leads hleads, hleads, pair, hpair, hkey, hrecovers⟩

theorem length_keySigners : (keySigners crypto members keys key).length =
    (signersOf crypto members key keys).length := by
  refine List.Perm.length_eq ((List.perm_ext_iff_of_nodup ?_ ?_).mpr fun _ => mem_keySigners_iff)
  · exact (List.nodup_dedup _).filter _
  · exact List.nodup_dedup _

theorem enoughSigned_iff {threshold : ℕ} : EnoughSigned crypto members threshold keys key ↔
    Supported crypto members threshold keys key := by
  rw [EnoughSigned, length_keySigners, Supported]

theorem acceptable_iff {L : Limits} {threshold : ℕ} :
    Acceptable L crypto members threshold keys ↔
      (∀ pair ∈ keys, ∃ id ∈ members,
        recoversTo crypto pair.1 pair.2 (xCoordinate id) = true) ∧
      ∃ key, Wins crypto members threshold keys key ∧ key.length ≤ L.maxKeyLength := by
  simp only [Acceptable, Wins, enoughSigned_iff]
  refine and_congr_right fun _ => exists_congr fun key => ?_
  tauto

end Signers

theorem lookup_updateReputations {update : ℕ → ℕ} {ids : List Public} (hnodup : ids.Nodup)
    (reputations : StorageMap Public ℕ) (id : Public) :
    (updateReputations update ids reputations).lookup id =
      if id ∈ ids then some (update (reputations.getD id 0)) else reputations.lookup id := by
  induction ids generalizing reputations with
  | nil => rfl
  | cons first ids ih =>
      obtain ⟨hnew, hrest⟩ := List.nodup_cons.mp hnodup
      rw [updateReputations, List.foldl_cons]
      change (updateReputations update ids (reputations.insert first _)).lookup id = _
      rw [ih hrest, StorageMap.getD_insert, StorageMap.lookup_insert_eq]
      by_cases hid : id = first
      · subst hid
        simp [hnew]
      · simp [hid]

section Submissions

variable {L : Limits} {AccountId World : Type} {cfg : Config L AccountId World}
variable {members : List Public} {threshold : ℕ} {keys : List (Bytes × Bytes)}

def Rewards (increase : ℕ → ℕ) (signers : List Public)
    (reputations reputations' : StorageMap Public ℕ) : Prop :=
  ∀ id, reputations'.lookup id =
    if signers.contains id then some (increase (reputations.getD id 0))
    else reputations.lookup id

/-- The submission goes through exactly if every signature is by a member and the least key
with enough signers is not too long.  Then this key is stored and its signers are rewarded. -/
structure AcceptanceRule (crypto : Crypto) (members : List Public) (threshold setId : ℕ)
    (increase : ℕ → ℕ) (keys : List (Bytes × Bytes)) (s : State L AccountId World)
    (stored : State L AccountId World → Option (ℕ × Key L))
    (result : Outcome (State L AccountId World)) : Prop where
  accepted_iff : (∃ s', result = .ok s') ↔
    (∀ pair ∈ keys, ∃ id ∈ members, recoversTo crypto pair.1 pair.2 (xCoordinate id) = true) ∧
      ∃ key, Wins crypto members threshold keys key ∧ key.length ≤ L.maxKeyLength
  effect : ∀ s', result = .ok s' → ∃ key : Key L,
    Wins crypto members threshold keys key.toList ∧ stored s' = some (setId, key) ∧
      Rewards increase (keySigners crypto members keys key.toList) s.authorityReputations
        s'.authorityReputations

theorem acceptedKey_wins {dict : StorageMap Bytes (List Public)} {key : Bytes}
    {signers : List Public}
    (hdict : processPublicKeySubmissions cfg members keys ∅ = .ok dict)
    (haccepted : acceptedKey dict threshold = some (key, signers)) :
    Wins cfg.crypto members threshold keys key ∧ signers.Nodup ∧
      ∀ id, id ∈ signers ↔ id ∈ keySigners cfg.crypto members keys key := by
  have htallies : Tallies cfg.crypto members keys dict :=
    tallies_processPublicKeySubmissions (tallies_nil cfg.crypto members) hdict
  rw [acceptedKey, StorageMap.find?_iter_eq_some Function.injective_id] at haccepted
  obtain ⟨hlookup, henough, hleast⟩ := haccepted
  have hsigners : dict.getD key [] = signers := by rw [StorageMap.getD, hlookup, Option.getD_some]
  refine ⟨⟨?_, ?_⟩, ?_, ?_⟩
  · exact enoughSigned_iff.mpr (htallies.supported_iff.mpr
      ⟨signers, hlookup, of_decide_eq_true henough⟩)
  · intro key' hkey'
    obtain ⟨signers', hlookup', henough'⟩ :=
      htallies.supported_iff.mp (enoughSigned_iff.mp hkey')
    exact hleast key' signers' hlookup' (decide_eq_true henough')
  · exact hsigners ▸ htallies.nodup key
  · intro id
    rw [← hsigners, htallies.signers, mem_keySigners_iff]

theorem rewards_updateReputations {increase : ℕ → ℕ} {ids signers : List Public}
    (hnodup : ids.Nodup) (hmem : ∀ id, id ∈ ids ↔ id ∈ signers)
    (reputations : StorageMap Public ℕ) :
    Rewards increase signers reputations (updateReputations increase ids reputations) := by
  intro id
  rw [lookup_updateReputations hnodup]
  simp only [hmem, List.contains_iff_mem]

theorem accepted_effect {dict : StorageMap Bytes (List Public)} {key : Bytes}
    {signers : List Public} {bounded : Key L}
    (hdict : processPublicKeySubmissions cfg members keys ∅ = .ok dict)
    (haccepted : acceptedKey dict threshold = some (key, signers))
    (hbounded : BoundedVec.tryFrom key = some bounded) (increase : ℕ → ℕ)
    (reputations : StorageMap Public ℕ) :
    Wins cfg.crypto members threshold keys bounded.toList ∧
      Rewards increase (keySigners cfg.crypto members keys bounded.toList) reputations
        (updateReputations increase signers reputations) := by
  obtain ⟨hwins, hnodup, hmem⟩ := acceptedKey_wins hdict haccepted
  obtain rfl := BoundedVec.tryFrom_eq_some.mp hbounded
  exact ⟨hwins, rewards_updateReputations hnodup hmem reputations⟩

theorem submitNextPublicKey_rule {s : State L AccountId World}
    (hunset : s.nextDkgPublicKey = none) :
    AcceptanceRule cfg.crypto s.nextBestIds s.nextSignatureThreshold s.nextAuthoritySetId
      (fun reputation => saturatingAdd 128 reputation reputationIncrement) keys s
      State.nextDkgPublicKey (submitNextPublicKey cfg .none keys s) where
  accepted_iff := (exists_submitNextPublicKey_iff hunset).trans acceptable_iff
  effect s' h := by
    simp only [submitNextPublicKey, bind_eq_ok, okOr_eq_ok] at h
    obtain ⟨_, -, _, -, dict, hdict, ⟨key, signers⟩, haccepted, bounded, hbounded, h⟩ := h
    obtain ⟨hwins, hrewards⟩ := accepted_effect hdict haccepted hbounded _ _
    rw [← Except.ok.inj h]
    exact ⟨bounded, hwins, rfl, hrewards⟩

theorem submitPublicKey_rule {s : State L AccountId World} (hunset : s.dkgPublicKey = none) :
    AcceptanceRule cfg.crypto s.bestIds s.signatureThreshold s.authoritySetId
      (fun reputation => saturatingAdd 128 (decay cfg reputation) initialReputation) keys s
      State.dkgPublicKey (submitPublicKey cfg .none keys s) where
  accepted_iff := (exists_submitPublicKey_iff hunset).trans acceptable_iff
  effect s' h := by
    simp only [submitPublicKey, bind_eq_ok, okOr_eq_ok] at h
    obtain ⟨_, -, _, -, dict, hdict, ⟨key, signers⟩, haccepted, bounded, hbounded, h⟩ := h
    obtain ⟨hwins, hrewards⟩ := accepted_effect hdict haccepted hbounded _ _
    rw [← Except.ok.inj h]
    exact ⟨bounded, hwins, rfl, hrewards⟩

/-- Both submissions follow the rule, each with its own set, threshold and reward. -/
theorem keySubmissions_rule (cfg : Config L AccountId World) (keys : List (Bytes × Bytes))
    (s : State L AccountId World) :
    (s.nextDkgPublicKey = none →
      AcceptanceRule cfg.crypto s.nextBestIds s.nextSignatureThreshold s.nextAuthoritySetId
        (fun reputation => saturatingAdd 128 reputation reputationIncrement) keys s
        State.nextDkgPublicKey (submitNextPublicKey cfg .none keys s)) ∧
    (s.dkgPublicKey = none →
      AcceptanceRule cfg.crypto s.bestIds s.signatureThreshold s.authoritySetId
        (fun reputation => saturatingAdd 128 (decay cfg reputation) initialReputation) keys s
        State.dkgPublicKey (submitPublicKey cfg .none keys s)) :=
  ⟨submitNextPublicKey_rule, submitPublicKey_rule⟩

end Submissions

theorem keySubmissions_rule_two_of_three :
    let s := sampleGenesis 3 2 3
    ∃ (s' : State runtimeLimits ℕ Unit) (key : Key runtimeLimits),
      submitNextPublicKey sampleConfig .none (sampleSubmission 7 2) s = .ok s' ∧
      s'.nextDkgPublicKey = some (1, key) ∧
      Rewards (fun reputation => saturatingAdd 128 reputation reputationIncrement)
        (keySigners sampleCrypto s.nextBestIds (sampleSubmission 7 2) key.toList)
        s.authorityReputations s'.authorityReputations := by
  have hrule := (keySubmissions_rule sampleConfig (sampleSubmission 7 2) (sampleGenesis 3 2 3)).1
    (by decide +kernel)
  have haccepted := eq_ok_commit (sampleGenesis 3 2 3) (show (submitNextPublicKey sampleConfig
    .none (sampleSubmission 7 2) (sampleGenesis 3 2 3)).isOk = true by decide +kernel)
  obtain ⟨key, -, hstored, hrewards⟩ := hrule.effect _ haccepted
  exact ⟨_, key, haccepted, hstored, hrewards⟩

def sampleTwins : State runtimeLimits ℕ Unit :=
  commit (State.empty ()) (genesisState sampleConfig (sampleGenesisConfig 3 2 3)
    [(0, (toFixed 33 (2 :: List.replicate 32 1)).getD (samplePublic 1)),
      (1, (toFixed 33 (3 :: List.replicate 32 1)).getD (samplePublic 2)), (2, samplePublic 3)] ())

theorem keySubmission_by_twins_refused :
    let members := sampleTwins.nextBestIds
    let keys := sampleSubmission 7 1
    sampleTwins.nextDkgPublicKey = none ∧ sampleTwins.nextSignatureThreshold = 2 ∧
      keys.map Prod.fst = [(samplePublic 7).toList] ∧
      (keys.all fun pair => members.any fun id =>
        recoversTo sampleCrypto pair.1 pair.2 (xCoordinate id)) = true ∧
      (members.dedup.filter fun id => hasSigned sampleCrypto keys (samplePublic 7).toList
        (xCoordinate id)).length = 2 ∧
      (samplePublic 7).toList.length ≤ runtimeLimits.maxKeyLength ∧
      (submitNextPublicKey sampleConfig .none keys sampleTwins).isOk = false := by
  decide +kernel

end DkgSubstrate.KeyAcceptance
