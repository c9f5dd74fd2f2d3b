import DkgSubstrate.GossipMessages
import Mathlib.Data.List.Dedup

/-!
Keys that a node has stored for submission, and whether the chain takes them.  The node counts
pairs of a key and a signature of any authority, and the chain counts the authorities of the
best set that have signed one key.
-/

namespace DkgSubstrate.KeySubmissions

open DkgSubstrate.ChainHeader
open DkgSubstrate.Dispatch
open DkgSubstrate.GossipMessages
open DkgSubstrate.IncomingMessages hiding Node
open DkgSubstrate.Metadata hiding Config
open DkgSubstrate.MetadataCalls
open DkgSubstrate.OffchainWorker hiding sampleStorage
open DkgSubstrate.Primitives
open DkgSubstrate.Runs
open DkgSubstrate.SampleRuntime
open DkgSubstrate.Words

def signerOf (crypto : Crypto) (authorities : List Public) (pair : Bytes × Bytes) :
    Option Public :=
  authorities.find? fun x => recoversTo crypto pair.1 pair.2 (xCoordinate x)

def signersOf (crypto : Crypto) (authorities : List Public) (key : Bytes)
    (keys : AggregatedPublicKeys) : List Public :=
  ((keys.filter fun pair => pair.1 = key).filterMap (signerOf crypto authorities)).dedup

/-- Enough authorities have signed the key. -/
def Supported (crypto : Crypto) (authorities : List Public) (threshold : ℕ)
    (keys : AggregatedPublicKeys) (key : Bytes) : Prop :=
  key ∈ keys.map Prod.fst ∧ threshold ≤ (signersOf crypto authorities key keys).length

def Acceptable (L : Limits) (crypto : Crypto) (authorities : List Public) (threshold : ℕ)
    (keys : AggregatedPublicKeys) : Prop :=
  (∀ pair ∈ keys, ∃ x ∈ authorities, recoversTo crypto pair.1 pair.2 (xCoordinate x) = true) ∧
    ∃ key, Supported crypto authorities threshold keys key ∧ key.length ≤ L.maxKeyLength ∧
      ∀ key', Supported crypto authorities threshold keys key' → key ≤ key'

section Tally

variable {L : Limits} {AccountId World : Type}
variable {cfg : Metadata.Config L AccountId World} {authorities : List Public}
variable {dict dict' : StorageMap Bytes (List Public)} {keys rest : AggregatedPublicKeys}

theorem verifySignerFromSetEcdsa_fst (crypto : Crypto) (pair : Bytes × Bytes) :
    (verifySignerFromSetEcdsa crypto authorities pair.1 pair.2).1 =
      signerOf crypto authorities pair := by
  rw [verifySignerFromSetEcdsa, signerOf]
  cases authorities.find? fun x => recoversTo crypto pair.1 pair.2 (xCoordinate x) with
  | none => rfl
  | some x => rfl

structure Tallies (crypto : Crypto) (authorities : List Public) (keys : AggregatedPublicKeys)
    (dict : StorageMap Bytes (List Public)) : Prop where
  listed : ∀ key, (dict.lookup key).isSome = true ↔ key ∈ keys.map Prod.fst
  nodup : ∀ key, (dict.getD key []).Nodup
  signers : ∀ key x, x ∈ dict.getD key [] ↔ x ∈ signersOf crypto authorities key keys

theorem tallies_nil (crypto : Crypto) (authorities : List Public) :
    Tallies crypto authorities [] ∅ where
  listed _ := iff_of_false Bool.false_ne_true List.not_mem_nil
  nodup _ := List.nodup_nil
  signers _ _ := Iff.rfl

theorem mem_signersOf {crypto : Crypto} {key : Bytes} {x : Public} :
    x ∈ signersOf crypto authorities key keys ↔
      ∃ pair ∈ keys, pair.1 = key ∧ signerOf crypto authorities pair = some x := by
  simp [signersOf, and_assoc]

theorem Tallies.length {crypto : Crypto} (h : Tallies crypto authorities keys dict)
    (key : Bytes) :
    (dict.getD key []).length = (signersOf crypto authorities key keys).length := by
  refine List.Perm.length_eq ((List.perm_ext_iff_of_nodup (h.nodup key) ?_).mpr (h.signers key))
  exact List.nodup_dedup _

theorem mem_signersOf_append {crypto : Crypto} {pair : Bytes × Bytes} {key : Bytes}
    {authority x : Public} (hsigner : signerOf crypto authorities pair = some authority) :
    x ∈ signersOf crypto authorities key (keys ++ [pair]) ↔
      x ∈ signersOf crypto authorities key keys ∨ pair.1 = key ∧ authority = x := by
  simp only [mem_signersOf, List.mem_append, List.mem_singleton, or_and_right, exists_or,
    exists_eq_left, hsigner, Option.some.injEq]

theorem tallies_addSubmission {crypto : Crypto} (h : Tallies crypto authorities keys dict)
    {pair : Bytes × Bytes} {authority : Public}
    (hsigner : signerOf crypto authorities pair = some authority) :
    Tallies crypto authorities (keys ++ [pair]) (addSubmission dict pair.1 authority) := by
  have hnodup := h.nodup pair.1
  have hmem : ∀ key x, x ∈ (addSubmission dict pair.1 authority).getD key [] ↔
      x ∈ dict.getD key [] ∨ pair.1 = key ∧ authority = x := by
    intro key x
    rw [addSubmission, StorageMap.getD_insert]
    by_cases hkey : key = pair.1
    · subst hkey
      rw [if_pos rfl]
      split
      · rename_i hold
        exact ⟨Or.inl, fun hx => hx.elim id fun hx => hx.2 ▸ hold⟩
      · rw [List.mem_append, List.mem_singleton, and_iff_right rfl, eq_comm]
    · rw [if_neg hkey]
      exact ⟨Or.inl, fun hx => hx.resolve_right fun hx => hkey hx.1.symm⟩
  refine ⟨fun key => ?_, fun key => ?_, fun key x => ?_⟩
  · rw [addSubmission, StorageMap.lookup_insert_eq, List.map_append, List.mem_append,
      ← h.listed key]
    by_cases hkey : key = pair.1
    · simp [hkey]
    · simp [hkey]
  · rw [addSubmission, StorageMap.getD_insert]
    split
    · split
      · exact hnodup
      · rename_i hnew
        exact hnodup.append (List.nodup_singleton _) (List.disjoint_singleton.mpr hnew)
    · exact h.nodup key
  · rw [hmem, h.signers, mem_signersOf_append hsigner]

theorem tallies_processPublicKeySubmissions (h : Tallies cfg.crypto authorities keys dict)
    (hok : processPublicKeySubmissions cfg authorities rest dict = .ok dict') :
    Tallies cfg.crypto authorities (keys ++ rest) dict' := by
  induction rest generalizing keys dict with
  | nil =>
      cases hok
      rwa [List.append_nil]
  | cons pair rest ih =>
      rw [processPublicKeySubmissions, bind_eq_ok] at hok
      obtain ⟨authority, hsigner, hok⟩ := hok
      rw [okOr_eq_ok, verifySignerFromSetEcdsa_fst] at hsigner
      rw [← List.singleton_append, ← List.append_assoc]
      exact ih (tallies_addSubmission h hsigner) hok

theorem exists_processPublicKeySubmissions (dict : StorageMap Bytes (List Public)) :
    (∃ dict', processPublicKeySubmissions cfg authorities keys dict = .ok dict') ↔
      ∀ pair ∈ keys, ∃ x ∈ authorities,
        recoversTo cfg.crypto pair.1 pair.2 (xCoordinate x) = true := by
  induction keys generalizing dict with
  | nil => exact iff_of_true ⟨dict, rfl⟩ nofun
  | cons pair keys ih =>
      rw [List.forall_mem_cons, ← List.find?_isSome]
      simp only [processPublicKeySubmissions, bind_eq_ok, okOr_eq_ok,
        verifySignerFromSetEcdsa_fst, signerOf]
      cases authorities.find? fun x => recoversTo cfg.crypto pair.1 pair.2 (xCoordinate x) with
      | none => simp
      | some authority => simp [ih]

theorem Tallies.supported_iff {crypto : Crypto} (h : Tallies crypto authorities keys dict)
    {threshold : ℕ} {key : Bytes} :
    Supported crypto authorities threshold keys key ↔
      ∃ reporters, dict.lookup key = some reporters ∧ threshold ≤ reporters.length := by
  rw [Supported, ← h.listed, ← h.length, StorageMap.getD]
  cases dict.lookup key with
  | none => simp
  | some reporters => simp

theorem Tallies.exists_acceptedKey_iff {crypto : Crypto}
    (h : Tallies crypto authorities keys dict) {threshold bound : ℕ} :
    (∃ entry, acceptedKey dict threshold = some entry ∧ entry.1.length ≤ bound) ↔
      ∃ key, Supported crypto authorities threshold keys key ∧ key.length ≤ bound ∧
        ∀ key', Supported crypto authorities threshold keys key' → key ≤ key' := by
  simp only [acceptedKey, h.supported_iff, Prod.exists,
    StorageMap.find?_iter_eq_some Function.injective_id, id_eq, decide_eq_true_eq]
  constructor
  · rintro ⟨key, reporters, ⟨hlookup, henough, hleast⟩, hlength⟩
    refine ⟨key, ⟨reporters, hlookup, henough⟩, hlength, ?_⟩
    rintro key' ⟨reporters', hlookup', henough'⟩
    exact hleast key' reporters' hlookup' henough'
  · rintro ⟨key, ⟨reporters, hlookup, henough⟩, hlength, hleast⟩
    refine ⟨key, reporters, ⟨hlookup, henough, ?_⟩, hlength⟩
    intro key' reporters' hlookup' henough'
    exact hleast key' ⟨reporters', hlookup', henough'⟩

theorem exists_accepted_iff {threshold : ℕ} :
    (∃ dict, processPublicKeySubmissions cfg authorities keys ∅ = .ok dict ∧
      ∃ entry, acceptedKey dict threshold = some entry ∧ entry.1.length ≤ L.maxKeyLength) ↔
      Acceptable L cfg.crypto authorities threshold keys := by
  rw [Acceptable, ← exists_processPublicKeySubmissions ∅]
  constructor
  · rintro ⟨dict, hok, hentry⟩
    have htallies := tallies_processPublicKeySubmissions (tallies_nil cfg.crypto authorities) hok
    exact ⟨⟨dict, hok⟩, htallies.exists_acceptedKey_iff.mp hentry⟩
  · rintro ⟨⟨dict, hok⟩, hkey⟩
    have htallies := tallies_processPublicKeySubmissions (tallies_nil cfg.crypto authorities) hok
    exact ⟨dict, hok, htallies.exists_acceptedKey_iff.mpr hkey⟩

variable {s : State L AccountId World}

theorem exists_submitPublicKey_iff (hunset : s.dkgPublicKey = none) :
    (∃ s', submitPublicKey cfg .none keys s = .ok s') ↔
      Acceptable L cfg.crypto s.bestIds s.signatureThreshold keys := by
  rw [← exists_accepted_iff]
  simp [submitPublicKey, exists_bind_eq_ok, hunset, BoundedVec.exists_tryFrom_eq_some]

theorem exists_submitNextPublicKey_iff (hunset : s.nextDkgPublicKey = none) :
    (∃ s', submitNextPublicKey cfg .none keys s = .ok s') ↔
      Acceptable L cfg.crypto s.nextBestIds s.nextSignatureThreshold keys := by
  rw [← exists_accepted_iff]
  simp [submitNextPublicKey, exists_bind_eq_ok, hunset, BoundedVec.exists_tryFrom_eq_some]

end Tally

section Stored

variable {L : Limits} {AccountId World : Type}

def storedBy (cfg : GossipMessages.Config L AccountId World) (n : Node L AccountId World) :
    Event L AccountId World → Option (ℕ × AggregatedPublicKeys)
  | .incoming submitAt signed => (n.worker.processIncomingDkgMessage cfg submitAt signed).stored
  | _ => none

def roundOf (sessionId : ℕ) : Round := if sessionId = 0 then .genesis else .next

variable {cfg : GossipMessages.Config L AccountId World} {w : Worker L AccountId World}
variable {sessionId : ℕ} {keys : AggregatedPublicKeys}

theorem stored_storeAggregatedPublicKeys {submitAt : Option ℕ} {sessionId' : ℕ}
    (h : (w.storeAggregatedPublicKeys (sessionId' == 0) sessionId' submitAt).stored =
      some (sessionId, keys)) :
    sessionId' = sessionId ∧ w.aggregatedPublicKeys.lookup sessionId = some keys ∧
      ∃ storage, (w.storeAggregatedPublicKeys (sessionId' == 0) sessionId'
          submitAt).worker.offchain = some storage ∧
        (storage.keys (roundOf sessionId)).aggregatedKeys = .value keys ∧
        (w.storeAggregatedPublicKeys (sessionId' == 0) sessionId'
          submitAt).worker.aggregatedPublicKeys.lookup sessionId = none := by
  cases hoffchain : w.offchain with
  | none => simp [Worker.storeAggregatedPublicKeys, hoffchain] at h
  | some storage =>
      cases hlookup : w.aggregatedPublicKeys.lookup sessionId' with
      | none => simp [Worker.storeAggregatedPublicKeys, hoffchain, hlookup] at h
      | some collected =>
          simp only [Worker.storeAggregatedPublicKeys, hoffchain, hlookup, Option.some.injEq,
            Prod.mk.injEq] at h ⊢
          obtain ⟨rfl, rfl⟩ := h
          refine ⟨rfl, hlookup, _, rfl, ?_, ?_⟩
          · by_cases hgenesis : sessionId' = 0
            · simp [hgenesis, roundOf, LocalStorage.keys, performStoringOfAggregatedPublicKeys]
            · simp [hgenesis, roundOf, LocalStorage.keys, performStoringOfAggregatedPublicKeys]
          · simp [StorageMap.lookup_retain]

structure Stored (w : Worker L AccountId World) (msg : PublicKeyMessage)
    (keys : AggregatedPublicKeys) (w' : Worker L AccountId World) : Prop where
  added : keys = Worker.addKey (msg.pubKey, msg.signature)
    (w.aggregatedPublicKeys.getD msg.sessionId [])
  enough : ∃ s, w.latest = some s ∧ s.nextSignatureThreshold < keys.length
  slot : ∃ storage, w'.offchain = some storage ∧
    (storage.keys (roundOf msg.sessionId)).aggregatedKeys = .value keys
  dropped : w'.aggregatedPublicKeys.lookup msg.sessionId = none

theorem stored_handlePublicKeyBroadcast {submitAt : Option ℕ} {dkgMsg : DKGMessage}
    (h : (w.handlePublicKeyBroadcast cfg submitAt dkgMsg).stored = some (sessionId, keys)) :
    ∃ msg, dkgMsg.payload = .publicKeyBroadcast msg ∧ msg.sessionId = sessionId ∧
      Stored w msg keys (w.handlePublicKeyBroadcast cfg submitAt dkgMsg).worker := by
  revert h
  cases hlatest : w.latest with
  | none => simp [Worker.handlePublicKeyBroadcast, Worker.header, hlatest]
  | some s =>
      have hheader : w.header = .ok (headerOf s, announced s) := by
        simp only [Worker.header, hlatest, validatorSet_headerOf]
      rw [Worker.handlePublicKeyBroadcast, hheader]
      dsimp only
      split
      · rename_i msg hpayload
        split
        · intro h
          cases h
        · split
          · rename_i hmany
            intro h
            obtain ⟨rfl, hlookup, storage, hoffchain, hslot, hdropped⟩ :=
              stored_storeAggregatedPublicKeys h
            rw [AList.lookup_insert] at hlookup
            cases hlookup
            exact ⟨msg, hpayload, rfl, rfl, ⟨s, hlatest, hmany⟩, ⟨storage, hoffchain, hslot⟩,
              hdropped⟩
          · intro h
            cases h
      · intro h
        cases h

theorem stored_collect (own : Bool) (key : ReportReplay.ReportKey)
    (updated : AggregatedMisbehaviourReports L × Except DKGError Unit) :
    (w.collect own key updated).stored = none := by
  simp only [Worker.collect]
  split <;> rfl

theorem stored_handleMisbehaviourReport (dkgMsg : DKGMessage) :
    (w.handleMisbehaviourReport cfg dkgMsg).stored = none := by
  unfold Worker.handleMisbehaviourReport
  split
  · rfl
  · split
    · split
      · split
        · rfl
        · exact stored_collect ..
      · rfl
    · rfl

theorem stored_step [DecidableEq AccountId] {n : Node L AccountId World}
    {e : Event L AccountId World} (h : storedBy cfg n e = some (sessionId, keys)) :
    ∃ submitAt signed msg, e = .incoming submitAt signed ∧
      signed.msg.payload = .publicKeyBroadcast msg ∧ msg.sessionId = sessionId ∧
        Stored n.worker msg keys (GossipMessages.step cfg n e).worker := by
  cases e with
  | incoming submitAt signed =>
      refine ⟨submitAt, signed, ?_⟩
      revert h
      rw [GossipMessages.step, storedBy]
      unfold Worker.processIncomingDkgMessage
      split
      · intro h
        cases h
      · intro h
        cases h
      · intro h
        cases h
      · split
        · rename_i hverified
          intro h
          obtain ⟨msg, hpayload, hsession, hstored⟩ := stored_handlePublicKeyBroadcast h
          rw [(verifySignature_eq_ok.mp hverified).1] at hpayload
          exact ⟨msg, rfl, hpayload, hsession, hstored⟩
        · intro h
          cases h
      · split
        · intro h
          rw [stored_handleMisbehaviourReport] at h
          cases h
        · intro h
          cases h
  | chain | finality | advance | task | gossipPublicKey | report | storePending => cases h

end Stored

section Agreement

variable {L : Limits} {AccountId World : Type}

/-- The chain takes the keys for the session, if it has none yet. -/
def Takes (cfg : Metadata.Config L AccountId World) (s : State L AccountId World)
    (sessionId : ℕ) (keys : AggregatedPublicKeys) : Prop :=
  if sessionId = 0 then
    s.dkgPublicKey = none → ∃ s', submitPublicKey cfg .none keys s = .ok s'
  else s.nextDkgPublicKey = none → ∃ s', submitNextPublicKey cfg .none keys s = .ok s'

/-- The chain takes what an event stores, in the state of the latest header. -/
def StoredTaken (cfg : GossipMessages.Config L AccountId World) (n : Node L AccountId World)
    (e : Event L AccountId World) : Prop :=
  ∀ sessionId keys, storedBy cfg n e = some (sessionId, keys) →
    ∀ s ∈ n.worker.latest, Takes cfg.chain s sessionId keys

def membersOf (s : State L AccountId World) (sessionId : ℕ) : List Public :=
  if sessionId = 0 then s.bestIds else s.nextBestIds

def thresholdOf (s : State L AccountId World) (sessionId : ℕ) : ℕ :=
  if sessionId = 0 then s.signatureThreshold else s.nextSignatureThreshold

theorem takes_iff (cfg : Metadata.Config L AccountId World) (s : State L AccountId World)
    (sessionId : ℕ) (keys : AggregatedPublicKeys) :
    Takes cfg s sessionId keys ↔
      ((if sessionId = 0 then s.dkgPublicKey.isNone else s.nextDkgPublicKey.isNone) = true →
        Acceptable L cfg.crypto (membersOf s sessionId) (thresholdOf s sessionId) keys) := by
  rw [Takes, membersOf, thresholdOf]
  split
  · rw [Option.isNone_iff_eq_none]
    exact imp_congr_right exists_submitPublicKey_iff
  · rw [Option.isNone_iff_eq_none]
    exact imp_congr_right exists_submitNextPublicKey_iff

/-- The pairs are for one key, and come from the members, at most one of each. -/
structure OneEach (L : Limits) (crypto : Crypto) (members : List Public)
    (pairs : List (Bytes × Bytes)) : Prop where
  signed : ∀ pair ∈ pairs, ∃ x ∈ members,
    recoversTo crypto pair.1 pair.2 (xCoordinate x) = true
  one : ∀ x ∈ members, ∀ pair ∈ pairs, ∀ pair' ∈ pairs,
    recoversTo crypto pair.1 pair.2 (xCoordinate x) = true →
      recoversTo crypto pair'.1 pair'.2 (xCoordinate x) = true → pair = pair'
  sameKey : ∀ pair ∈ pairs, ∀ pair' ∈ pairs, pair.1 = pair'.1
  fits : ∀ pair ∈ pairs, pair.1.length ≤ L.maxKeyLength

theorem OneEach.of_subset {crypto : Crypto} {members : List Public}
    {pairs pairs' : List (Bytes × Bytes)} (h : OneEach L crypto members pairs)
    (hsub : pairs' ⊆ pairs) : OneEach L crypto members pairs' where
  signed pair hpair := h.signed pair (hsub hpair)
  one x hx pair hpair pair' hpair' := h.one x hx pair (hsub hpair) pair' (hsub hpair')
  sameKey pair hpair pair' hpair' := h.sameKey pair (hsub hpair) pair' (hsub hpair')
  fits pair hpair := h.fits pair (hsub hpair)

theorem recovers_of_signerOf {crypto : Crypto} {members : List Public} {pair : Bytes × Bytes}
    {x : Public} (h : signerOf crypto members pair = some x) :
    recoversTo crypto pair.1 pair.2 (xCoordinate x) = true :=
  List.find?_some (p := fun x => recoversTo crypto pair.1 pair.2 (xCoordinate x)) h

theorem OneEach.length_signersOf {crypto : Crypto} {members : List Public}
    {keys : AggregatedPublicKeys} (h : OneEach L crypto members keys) (hnodup : keys.Nodup)
    {pair : Bytes × Bytes} (hpair : pair ∈ keys) :
    (signersOf crypto members pair.1 keys).length = keys.length := by
  have hall : (keys.filter fun other => other.1 = pair.1) = keys := by
    rw [List.filter_eq_self]
    intro other hother
    exact decide_eq_true (h.sameKey other hother pair hpair)
  have hdistinct : (keys.filterMap (signerOf crypto members)).Nodup := by
    have hsigners : keys.Pairwise fun a b => ∀ x, signerOf crypto members a = some x →
        ∀ y, signerOf crypto members b = some y → x ≠ y := by
      refine hnodup.imp_of_mem fun ha hb hne x hx y hy hxy => hne ?_
      subst hxy
      exact h.one x (List.mem_of_find?_eq_some hx) _ ha _ hb (recovers_of_signerOf hx)
        (recovers_of_signerOf hy)
    exact List.pairwise_filterMap.mpr hsigners
  rw [signersOf, hall, hdistinct.dedup, List.length_filterMap_eq_countP, List.countP_eq_length]
  intro other hother
  exact List.find?_isSome.mpr (h.signed other hother)

theorem OneEach.acceptable {crypto : Crypto} {members : List Public} {threshold : ℕ}
    {keys : AggregatedPublicKeys} (h : OneEach L crypto members keys) (hnodup : keys.Nodup)
    (hpos : 0 < keys.length) (henough : threshold ≤ keys.length) :
    Acceptable L crypto members threshold keys := by
  obtain ⟨pair, hpair⟩ := List.exists_mem_of_length_pos hpos
  refine ⟨h.signed, pair.1, ⟨List.mem_map_of_mem hpair, ?_⟩, h.fits pair hpair, ?_⟩
  · rw [h.length_signersOf hnodup hpair]
    exact henough
  · rintro key' ⟨hkey', -⟩
    obtain ⟨pair', hpair', rfl⟩ := List.mem_map.mp hkey'
    rw [h.sameKey pair hpair pair' hpair']
    exact List.le_refl _

/-- When a key is broadcast, the pairs in memory and the new one are from the members of the best
set, and no pair is in memory twice. -/
def MembersAgree (cfg : GossipMessages.Config L AccountId World) (n : Node L AccountId World) :
    Event L AccountId World → Prop
  | .incoming _ signed => ∀ msg, signed.msg.payload = .publicKeyBroadcast msg →
      ∀ s ∈ n.worker.latest,
        (n.worker.aggregatedPublicKeys.getD msg.sessionId []).Nodup ∧
        OneEach L cfg.chain.crypto (membersOf s msg.sessionId)
          ((msg.pubKey, msg.signature) :: n.worker.aggregatedPublicKeys.getD msg.sessionId []) ∧
        thresholdOf s msg.sessionId ≤ s.nextSignatureThreshold + 1
  | _ => True

theorem storedTaken_of_membersAgree [DecidableEq AccountId]
    {cfg : GossipMessages.Config L AccountId World} {n : Node L AccountId World}
    {e : Event L AccountId World} (h : MembersAgree cfg n e) : StoredTaken cfg n e := by
  intro sessionId keys hstored s hlatest
  obtain ⟨submitAt, signed, msg, rfl, hpayload, rfl, hentry⟩ := stored_step hstored
  obtain ⟨hnodup, hone, hthreshold⟩ := h msg hpayload s hlatest
  obtain ⟨s', hlatest', hmany⟩ := hentry.enough
  obtain rfl := Option.some.inj (hlatest'.symm.trans hlatest)
  have hkeys := hentry.added
  have hnodup' : keys.Nodup := by
    rw [hkeys, Worker.addKey]
    split
    · exact hnodup
    · rename_i hnew
      exact hnodup.append (List.nodup_singleton _) (List.disjoint_singleton.mpr hnew)
  have hone' : OneEach L cfg.chain.crypto (membersOf s' msg.sessionId) keys := by
    refine hone.of_subset ?_
    rw [hkeys, Worker.addKey]
    split
    · exact List.subset_cons_self _ _
    · exact List.append_subset.mpr ⟨List.subset_cons_self _ _,
        List.cons_subset.mpr ⟨List.mem_cons_self, List.nil_subset _⟩⟩
  refine (takes_iff cfg.chain s' msg.sessionId keys).mpr fun _ => ?_
  exact hone'.acceptable hnodup' (Nat.zero_lt_of_lt hmany) (hthreshold.trans hmany)

/-- The chain takes whatever the node stores in a run in which every key that is broadcast agrees
with the pairs in memory. -/
theorem storedTaken_run [DecidableEq AccountId]
    (cfg : GossipMessages.Config L AccountId World) (n : Node L AccountId World)
    (es : List (Event L AccountId World))
    (h : StepsMeet (GossipMessages.step cfg) (MembersAgree cfg) n es) :
    StepsMeet (GossipMessages.step cfg) (StoredTaken cfg) n es :=
  fun pre e post heq => storedTaken_of_membersAgree (h pre e post heq)

end Agreement

def sampleKeyEvent (signer : UInt8) : Event runtimeLimits ℕ Unit :=
  .incoming (some 1)
    (sampleBroadcast signer (.publicKeyBroadcast (sampleKeyBroadcast 1 9 signer)))

def sampleKeyPair (signer : UInt8) : Bytes × Bytes :=
  ((samplePublic 9).toList, sampleSignature signer (samplePublic 9).toList)

def sampleSynced : Node runtimeLimits ℕ Unit :=
  run (GossipMessages.step sampleGadget) ⟨sampleGenesis 2 1 3, Worker.new (some sampleStorage)⟩
    [.chain (.initializeBlock 1), .finality false]

def sampleCollecting : Node runtimeLimits ℕ Unit :=
  GossipMessages.step sampleGadget sampleSynced (sampleKeyEvent 1)

theorem oneEach_sampleKeyPair :
    OneEach runtimeLimits sampleConfig.crypto [samplePublic 1, samplePublic 2]
      [sampleKeyPair 2, sampleKeyPair 1] where
  signed := List.forall_mem_cons.mpr ⟨⟨samplePublic 2, by decide +kernel, by decide +kernel⟩,
    List.forall_mem_singleton.mpr ⟨samplePublic 1, by decide +kernel, by decide +kernel⟩⟩
  one := List.forall_mem_cons.mpr
    ⟨by decide +kernel, List.forall_mem_singleton.mpr (by decide +kernel)⟩
  sameKey := by decide +kernel
  fits := by decide +kernel

theorem membersAgree_sampleKeyEvent {n : Node runtimeLimits ℕ Unit} {signer : UInt8}
    (pairs : List (Bytes × Bytes))
    (hlatest : n.worker.latest.map (fun s => (membersOf s 1, thresholdOf s 1)) =
      some ([samplePublic 1, samplePublic 2], 1))
    (hpairs : n.worker.aggregatedPublicKeys.getD 1 [] = pairs) (hnodup : pairs.Nodup)
    (hsub : sampleKeyPair signer :: pairs ⊆ [sampleKeyPair 2, sampleKeyPair 1]) :
    MembersAgree sampleGadget n (sampleKeyEvent signer) := by
  rintro _ ⟨⟩ s hs
  obtain ⟨s', hs', heq⟩ := Option.map_eq_some_iff.mp hlatest
  obtain rfl := Option.some.inj (hs'.symm.trans hs)
  obtain ⟨hmembers, hthreshold⟩ := Prod.mk.inj heq
  dsimp only [sampleKeyBroadcast]
  rw [hpairs, hmembers]
  refine ⟨hnodup, oneEach_sampleKeyPair.of_subset hsub, ?_⟩
  exact Nat.le_succ _

theorem storedTaken_run_sample :
    storedBy sampleGadget sampleCollecting (sampleKeyEvent 2) =
      some (1, [sampleKeyPair 1, sampleKeyPair 2]) ∧
    StepsMeet (GossipMessages.step sampleGadget) (StoredTaken sampleGadget) sampleSynced
      [sampleKeyEvent 1, sampleKeyEvent 2] := by
  refine ⟨by decide +kernel, storedTaken_run sampleGadget sampleSynced _ ?_⟩
  refine stepsMeet_cons.mpr ⟨?_, stepsMeet_cons.mpr ⟨?_, stepsMeet_nil⟩⟩
  · exact membersAgree_sampleKeyEvent [] (by decide +kernel) rfl List.nodup_nil (by decide +kernel)
  · exact membersAgree_sampleKeyEvent [sampleKeyPair 1] (by decide +kernel)
      (by decide +kernel) (List.nodup_singleton _) (by decide +kernel)

/-- Authority 3 is not in the best set. -/
theorem outsider_spoils_submission :
    ¬StoredTaken sampleGadget sampleCollecting (sampleKeyEvent 3) := by
  intro h
  have hstored : storedBy sampleGadget sampleCollecting (sampleKeyEvent 3) =
      some (1, [sampleKeyPair 1, sampleKeyPair 3]) := by
    decide +kernel
  have hfails : sampleCollecting.worker.latest.map (fun s => (s.nextDkgPublicKey,
      (submitNextPublicKey sampleConfig .none [sampleKeyPair 1, sampleKeyPair 3] s).isOk)) =
      some (none, false) := by
    decide +kernel
  obtain ⟨s, hlatest, hresult⟩ := Option.map_eq_some_iff.mp hfails
  obtain ⟨hunset, hfails⟩ := Prod.mk.inj hresult
  have htakes := h _ _ hstored s hlatest
  rw [Takes, if_neg Nat.one_ne_zero] at htakes
  obtain ⟨s', hok⟩ := htakes hunset
  have hgadget : sampleGadget.chain = sampleConfig := rfl
  rw [← hgadget, hok] at hfails
  cases hfails

end DkgSubstrate.KeySubmissions
