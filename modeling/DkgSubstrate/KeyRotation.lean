import DkgSubstrate.BestAuthorities
import DkgSubstrate.KeyAcceptance
import DkgSubstrate.SessionSpacing

/-!
The way of a key through the metadata pallet.  Every key has been signed by enough authorities,
and the next key becomes the active one when its rotation is signed.
-/

namespace DkgSubstrate.KeyRotation

open DkgSubstrate.BestAuthorities
open DkgSubstrate.Dispatch
open DkgSubstrate.KeyAcceptance
open DkgSubstrate.Metadata
open DkgSubstrate.MetadataCalls
open DkgSubstrate.MetadataEffects
open DkgSubstrate.MetadataRotation
open DkgSubstrate.MetadataStep
open DkgSubstrate.Primitives
open DkgSubstrate.Proposals
open DkgSubstrate.Runs
open DkgSubstrate.SampleRuntime
open DkgSubstrate.SessionSpacing (shouldEndSession_iff)
open DkgSubstrate.SetIds
open DkgSubstrate.Words

variable {L : Limits} {AccountId World : Type} [DecidableEq AccountId]
variable {cfg : Config L AccountId World} {s : State L AccountId World}
variable {call : Call L AccountId World} {calls : List (Call L AccountId World)}

/-- The first round of the history starts from the default key if there was no other one. -/
def Knows (s : State L AccountId World) (key : Key L) : Prop :=
  (∃ id, s.dkgPublicKey = some (id, key)) ∨ (∃ id, s.nextDkgPublicKey = some (id, key)) ∨
    ∃ id round, s.historicalRounds.lookup id = some round ∧
      (round.nextRoundPubKey = key ∨ round.currRoundPubKey = key ∧ key ≠ default)

/-- The call submits the key with the signatures of enough members of its set. -/
inductive Certifies (cfg : Config L AccountId World) (s : State L AccountId World) :
    Call L AccountId World → Key L → Prop
  | submitPublicKey {keys : List (Bytes × Bytes)} {key : Key L}
      (h : EnoughSigned cfg.crypto s.bestIds s.signatureThreshold keys key.toList) :
      Certifies cfg s (.submitPublicKey .none keys) key
  | submitNextPublicKey {keys : List (Bytes × Bytes)} {key : Key L}
      (h : EnoughSigned cfg.crypto s.nextBestIds s.nextSignatureThreshold keys key.toList) :
      Certifies cfg s (.submitNextPublicKey .none keys) key

theorem certifies_submitPublicKey {origin : Origin AccountId} {keys : List (Bytes × Bytes)}
    {id : ℕ} {key : Key L} (haccepted : Accepted cfg s (.submitPublicKey origin keys))
    (hkey : (step cfg s (.submitPublicKey origin keys)).dkgPublicKey = some (id, key)) :
    Certifies cfg s (.submitPublicKey origin keys) key := by
  have hok : submitPublicKey cfg origin keys s = .ok (step cfg s (.submitPublicKey origin keys)) :=
    eq_ok_commit s haccepted
  obtain ⟨rfl, hunset, -⟩ := submitPublicKey_ok hok
  obtain ⟨stored, hwins, hstored, -⟩ := (submitPublicKey_rule hunset).effect _ hok
  rw [hkey] at hstored
  obtain ⟨-, rfl⟩ := Prod.mk.inj (Option.some.inj hstored)
  exact .submitPublicKey hwins.1

theorem certifies_submitNextPublicKey {origin : Origin AccountId} {keys : List (Bytes × Bytes)}
    {id : ℕ} {key : Key L} (haccepted : Accepted cfg s (.submitNextPublicKey origin keys))
    (hkey : (step cfg s (.submitNextPublicKey origin keys)).nextDkgPublicKey = some (id, key)) :
    Certifies cfg s (.submitNextPublicKey origin keys) key := by
  have hok : submitNextPublicKey cfg origin keys s =
      .ok (step cfg s (.submitNextPublicKey origin keys)) := eq_ok_commit s haccepted
  obtain ⟨rfl, hunset, -⟩ := submitNextPublicKey_ok hok
  obtain ⟨stored, hwins, hstored, -⟩ := (submitNextPublicKey_rule hunset).effect _ hok
  rw [hkey] at hstored
  obtain ⟨-, rfl⟩ := Prod.mk.inj (Option.some.inj hstored)
  exact .submitNextPublicKey hwins.1

omit [DecidableEq AccountId] in
theorem knows_withPending {proposal : RefreshProposal} {key : Key L} :
    Knows (withPending proposal s) key ↔ Knows s key :=
  Iff.rfl

omit [DecidableEq AccountId] in
theorem knows_of_activate {authorities : BoundedVec Public L.maxAuthorities}
    {accounts : BoundedVec AccountId L.maxAuthorities} {nextKey : ℕ × Key L}
    {signature : Signature L} {shifted : State L AccountId World} {key : Key L}
    (hnext : s.nextDkgPublicKey = some nextKey)
    (h : Knows (activate authorities accounts nextKey signature s shifted) key) : Knows s key := by
  rcases h with ⟨id, hactive⟩ | ⟨id, hnone⟩ | ⟨id, round, hround, hkey⟩
  · obtain rfl := Option.some.inj hactive
    exact .inr (.inl ⟨id, hnext⟩)
  · cases hnone
  · simp only [activate, StorageMap.lookup_insert_eq] at hround
    split at hround
    · obtain rfl := Option.some.inj hround
      rcases hkey with hkey | ⟨hkey, hne⟩
      · exact .inr (.inl ⟨nextKey.1, hkey ▸ hnext⟩)
      · rw [State.currentKey] at hkey
        cases hactive : s.dkgPublicKey with
        | none =>
            rw [hactive] at hkey
            exact absurd hkey.symm hne
        | some active =>
            rw [hactive] at hkey
            exact .inl ⟨active.1, hkey ▸ hactive⟩
    · exact .inr (.inr ⟨id, round, hround, hkey⟩)

theorem certifies_of_step {key : Key L} (hold : ¬Knows s key) (hnew : Knows (step cfg s call) key) :
    Accepted cfg s call ∧ Certifies cfg s call key := by
  rcases step_effect cfg s call with ⟨-, hsame⟩ | ⟨haccepted, t, ht, hstep⟩
  · rw [hsame] at hnew
    exact absurd hnew hold
  · refine ⟨haccepted, ?_⟩
    have hknows : Knows t key := by
      change Knows (core t) key
      rw [← hstep]
      exact hnew
    cases ht with
    | submitPublicKey hnone =>
        rcases hknows with ⟨id, hactive⟩ | hrest
        · obtain ⟨-, rfl⟩ := Prod.mk.inj (Option.some.inj hactive)
          exact certifies_submitPublicKey haccepted (congrArg State.dkgPublicKey hstep)
        · exact absurd (.inr hrest) hold
    | submitNextPublicKey hnone =>
        rcases hknows with hactive | ⟨id, hnext⟩ | hround
        · exact absurd (.inl hactive) hold
        · obtain ⟨-, rfl⟩ := Prod.mk.inj (Option.some.inj hnext)
          exact certifies_submitNextPublicKey haccepted (congrArg State.nextDkgPublicKey hstep)
        · exact absurd (.inr (.inr hround)) hold
    | triggerEmergencyKeygen hforce =>
        rcases hknows with hactive | ⟨id, hnone⟩ | hround
        · exact absurd (.inl hactive) hold
        · cases hnone
        · exact absurd (.inr (.inr hround)) hold
    | forcedRotation world hforce hkey hbest hpub hnonce =>
        rw [knows_withPending] at hknows
        exact absurd (knows_of_activate (s := withoutRefresh s) hkey hknows) hold
    | sessionRotation world hkey hsig hnext hbest hactive =>
        exact absurd (knows_of_activate hkey hknows) hold
    | idle | setSignatureThreshold | setKeygenThreshold | keygenReplaced | keygenDropped
    | keygenOutside | signReport | forcedShift | blockStarted | refreshCreated | signedOther
    | signedRefresh | sessionShift => exact absurd hknows hold

/-- Every key that is ever active, next in line or in the history has been submitted before, in a
call that the pallet has accepted with the signatures of enough members of the set at the time. -/
theorem known_key_certified (cfg : Config L AccountId World) (genesis : GenesisConfig AccountId)
    (validators : List (AccountId × Public)) (world : World) (s : State L AccountId World)
    (calls : List (Call L AccountId World))
    (hgenesis : genesisState cfg genesis validators world = .ok s) {key : Key L}
    (h : Knows (run (step cfg) s calls) key) :
    ∃ pre call post, calls = pre ++ call :: post ∧ Accepted cfg (run (step cfg) s pre) call ∧
      Certifies cfg (run (step cfg) s pre) call key := by
  have hinit : ¬Knows s key := by
    have hkeys : s.dkgPublicKey = none ∧ s.nextDkgPublicKey = none ∧ s.historicalRounds = ∅ := by
      by_cases hvalidators : validators = []
      · subst hvalidators
        rw [genesisState_nil_ok hgenesis]
        exact ⟨rfl, rfl, rfl⟩
      · obtain ⟨world', authorities, accounts, best, -, -, -, -, rfl⟩ :=
          genesisState_ok hvalidators hgenesis
        exact ⟨rfl, rfl, rfl⟩
    rw [Knows, hkeys.1, hkeys.2.1, hkeys.2.2]
    rintro (⟨id, hactive⟩ | ⟨id, hnext⟩ | ⟨id, round, hround, -⟩)
    · cases hactive
    · cases hnext
    · cases hround
  obtain ⟨pre, call, post, hsplit, hold, hnew⟩ :=
    exists_step_of_run (P := fun t => Knows t key) hinit h
  exact ⟨pre, call, post, hsplit, certifies_of_step hold hnew⟩

theorem known_key_certified_sampleRotationRun :
    ∃ key : Key runtimeLimits,
      (run (step sampleConfig) (sampleGenesis 2 1 2) sampleRotationRun).dkgPublicKey =
        some (1, key) ∧
      ∃ pre call post, sampleRotationRun = pre ++ call :: post ∧
        Accepted sampleConfig (run (step sampleConfig) (sampleGenesis 2 1 2) pre) call ∧
        Certifies sampleConfig (run (step sampleConfig) (sampleGenesis 2 1 2) pre) call key := by
  have hactive : ((run (step sampleConfig) (sampleGenesis 2 1 2)
      sampleRotationRun).dkgPublicKey.map Prod.fst) = some 1 := by
    decide +kernel
  obtain ⟨⟨id, key⟩, hkey, rfl⟩ := Option.map_eq_some_iff.mp hactive
  exact ⟨key, hkey, known_key_certified sampleConfig (sampleGenesisConfig 2 1 2)
    (sampleValidators 2) () (sampleGenesis 2 1 2) sampleRotationRun rfl (.inl ⟨_, hkey⟩)⟩

def interrupts : Call L AccountId World → Bool
  | .triggerEmergencyKeygen _ | .forceChangeAuthorities _ | .newSession _ _ => true
  | _ => false

structure RotationSigned (current next : ℕ × Key L) (signature : Signature L) (setId : ℕ)
    (s : State L AccountId World) : Prop where
  current : s.dkgPublicKey = some current
  next : s.nextDkgPublicKey = some next
  signature : s.nextPublicKeySignature = some signature
  setId : s.nextAuthoritySetId = setId

section Rotation

variable {current next : ℕ × Key L} {signature : Signature L} {setId : ℕ}

omit [DecidableEq AccountId] in
theorem rotationSigned_core :
    RotationSigned current next signature setId s ↔
      RotationSigned current next signature setId (core s) :=
  ⟨fun h => ⟨h.current, h.next, h.signature, h.setId⟩,
    fun h => ⟨h.current, h.next, h.signature, h.setId⟩⟩

theorem rotationSigned_step (h : RotationSigned current next signature setId s)
    (hcall : interrupts call = false) :
    RotationSigned current next signature setId (step cfg s call) := by
  refine keeps_step_of_effect (P := RotationSigned current next signature setId)
    (fun _ => rotationSigned_core) h fun t ht => ?_
  cases ht with
  | submitPublicKey hnone => cases hnone.symm.trans h.current
  | submitNextPublicKey hnone => cases hnone.symm.trans h.next
  | signedRefresh hsigned hkind hkey hnone hpending hdata hsignature hunused =>
      cases hnone.symm.trans h.signature
  | forcedShift | forcedRotation | triggerEmergencyKeygen | sessionShift | sessionRotation =>
      cases hcall
  | idle | setSignatureThreshold | setKeygenThreshold | keygenReplaced | keygenDropped
  | keygenOutside | signReport | blockStarted | refreshCreated | signedOther =>
      exact ⟨h.current, h.next, h.signature, h.setId⟩

theorem rotationSigned_run (h : RotationSigned current next signature setId s)
    (hcalls : ∀ call ∈ calls, interrupts call = false) :
    RotationSigned current next signature setId (run (step cfg) s calls) :=
  invariant_run (RotationSigned current next signature setId)
    (fun _ _ h hcall => rotationSigned_step h hcall) h
    (stepsMeet_of_forall_mem (fun call hcall _ => hcalls call hcall) s)

theorem rotationSigned_signedProposal {proposal : Proposal L} {refresh : RefreshProposal}
    (hcurrent : s.dkgPublicKey = some current) (hnext : s.nextDkgPublicKey = some next)
    (hunsigned : s.nextPublicKeySignature = none)
    (hpending : s.pendingRefreshProposal = some refresh)
    (hsigned : proposal.isSigned = true) (hkind : proposal.kind = .refresh)
    (hdata : refresh.encode = proposal.data)
    (hsignature : signature.toList = proposal.signature.getD [])
    (hunused : signature ∉ s.usedSignatures.toList) :
    RotationSigned current next signature s.nextAuthoritySetId
      (step cfg s (.signedProposal proposal)) := by
  have hbounded : BoundedVec.tryFrom (proposal.signature.getD []) = some signature :=
    BoundedVec.tryFrom_eq_some.mpr hsignature
  have hstep : step cfg s (.signedProposal proposal) =
      { s with
        nextPublicKeySignature := some signature
        currentRefreshProposal := some refresh
        pendingRefreshProposal := none } := by
    simp only [step, dispatch, onSignedProposal, ensure, hsigned, hkind, hnext, hunsigned,
      hpending, hdata, hbounded, hunused, okOr, commit, Option.isSome_some, if_true, bind,
      Except.bind, not_false_eq_true]
  rw [hstep]
  exact ⟨hcurrent, hnext, rfl, rfl⟩

variable {validators queued : List (AccountId × Public)}

theorem accepted_newSession (hvalidators : validators.length ≤ L.maxAuthorities)
    (hqueued : queued.length ≤ L.maxAuthorities) {world : World}
    (hworld : cfg.onAuthoritySetChanged (validators.map Prod.fst) (validators.map Prod.snd)
      s.world = .ok world) :
    Accepted cfg s (.newSession validators queued) := by
  have hfits : ∀ {α : Type} {l : List α}, l.length ≤ L.maxAuthorities →
      ∃ v : BoundedVec α L.maxAuthorities, BoundedVec.tryFrom l = some v :=
    fun h => BoundedVec.exists_tryFrom_eq_some.mpr h
  obtain ⟨ids, hids⟩ := hfits (l := validators.map Prod.snd) (by simpa using hvalidators)
  obtain ⟨accounts, haccounts⟩ := hfits (l := validators.map Prod.fst) (by simpa using hvalidators)
  obtain ⟨nextIds, hnextIds⟩ := hfits (l := queued.map Prod.snd) (by simpa using hqueued)
  obtain ⟨nextAccounts, hnextAccounts⟩ := hfits (l := queued.map Prod.fst) (by simpa using hqueued)
  obtain ⟨best, hbest⟩ := hfits (l := getBestAuthorities s.authorityReputations
      s.jailedKeygenAuthorities (repairKeygenThreshold (queued.map Prod.snd).length
        s.pendingKeygenThreshold) (queued.map Prod.snd)) (by
    rw [length_getBestAuthorities, List.length_map]
    exact (Nat.min_le_right _ _).trans hqueued)
  rw [Accepted, dispatch, onNewSession]
  simp only [changeAuthorities, hworld, hids, haccounts, hnextIds, hnextAccounts, hbest, expect,
    bind, Except.bind]
  split <;> rfl

/-- The next key is active, with the set and the thresholds that were chosen for it. -/
structure Activated {World' : Type} (current next : ℕ × Key L) (signature : Signature L)
    (setId : ℕ) (validators : List (AccountId × Public)) (before : State L AccountId World)
    (s : State L AccountId World') : Prop where
  active : s.dkgPublicKey = some next
  previous : s.previousPublicKey = current
  setId : s.authoritySetId = setId
  authorities : s.authorities.toList = validators.map Prod.snd
  best : s.bestAuthorities = before.nextBestAuthorities
  signatureThreshold : s.signatureThreshold = before.nextSignatureThreshold
  keygenThreshold : s.keygenThreshold = before.nextKeygenThreshold
  round : s.historicalRounds.lookup next.1 = some ⟨current.2, next.2, signature⟩
  noNext : s.nextDkgPublicKey = none
  noSignature : s.nextPublicKeySignature = none

omit [DecidableEq AccountId] in
theorem activated_of_core {before : State L AccountId World}
    (h : Activated current next signature setId validators before (core s)) :
    Activated current next signature setId validators before s :=
  ⟨h.active, h.previous, h.setId, h.authorities, h.best, h.signatureThreshold, h.keygenThreshold,
    h.round, h.noNext, h.noSignature⟩

theorem activated_newSession (h : RotationSigned current next signature setId s)
    (haccepted : Accepted cfg s (.newSession validators queued)) :
    Activated current next signature setId validators s
      (step cfg s (.newSession validators queued)) := by
  rcases step_effect cfg s (.newSession validators queued) with ⟨hrejected, -⟩ | ⟨-, t, ht, hcore⟩
  · exact absurd haccepted hrejected
  · refine activated_of_core ?_
    rw [hcore]
    cases ht with
    | idle hidle => cases hidle
    | sessionShift world hkeys hnext hbest =>
        rw [rotationKeys, h.next, h.signature] at hkeys
        cases hkeys
    | sessionRotation world hkey hsig hnext hbest hactive =>
        obtain rfl := Option.some.inj (hkey.symm.trans h.next)
        obtain rfl := Option.some.inj (hsig.symm.trans h.signature)
        have hcurrent : s.currentKey = current := by
          rw [State.currentKey, h.current, Option.getD_some]
        exact {
          active := rfl
          previous := hcurrent
          setId := h.setId
          authorities := hactive
          best := rfl
          signatureThreshold := rfl
          keygenThreshold := rfl
          round := by
            rw [← hcurrent]
            exact AList.lookup_insert _
          noNext := rfl
          noSignature := rfl }

/-- Once the pending refresh proposal is signed, the session is to end, and whatever else happens
but an emergency or a forced rotation, the next session starts with the next key. -/
theorem signed_rotation_completes (cfg : Config L AccountId World) {s : State L AccountId World}
    {proposal : Proposal L} {refresh : RefreshProposal}
    (hcurrent : s.dkgPublicKey = some current) (hnext : s.nextDkgPublicKey = some next)
    (hunsigned : s.nextPublicKeySignature = none)
    (hpending : s.pendingRefreshProposal = some refresh)
    (hsigned : proposal.isSigned = true) (hkind : proposal.kind = .refresh)
    (hdata : refresh.encode = proposal.data)
    (hsignature : signature.toList = proposal.signature.getD [])
    (hunused : signature ∉ s.usedSignatures.toList)
    (hcalls : ∀ call ∈ calls, interrupts call = false)
    (hvalidators : validators.length ≤ L.maxAuthorities)
    (hqueued : queued.length ≤ L.maxAuthorities) {world : World}
    (hworld : cfg.onAuthoritySetChanged (validators.map Prod.fst) (validators.map Prod.snd)
      (run (step cfg) s (.signedProposal proposal :: calls)).world = .ok world) :
    let s' := run (step cfg) s (.signedProposal proposal :: calls)
    (∀ now, cfg.sessionOffset ≤ now → shouldEndSession cfg now s' = true) ∧
      Activated current next signature s.nextAuthoritySetId validators s'
        (step cfg s' (.newSession validators queued)) := by
  have hrun : RotationSigned current next signature s.nextAuthoritySetId
      (run (step cfg) s (.signedProposal proposal :: calls)) := by
    rw [run_cons]
    exact rotationSigned_run (rotationSigned_signedProposal hcurrent hnext hunsigned hpending
      hsigned hkind hdata hsignature hunused) hcalls
  refine ⟨fun now hnow => ?_, activated_newSession hrun
    (accepted_newSession hvalidators hqueued hworld)⟩
  rw [shouldEndSession_iff, hrun.next, hrun.signature]
  exact ⟨rfl, rfl, hnow⟩

end Rotation

def samplePendingRotation : State runtimeLimits ℕ Unit :=
  run (step sampleConfig) (sampleGenesis 2 1 2)
    [.submitPublicKey .none (sampleSubmission 8 1),
      .submitNextPublicKey .none (sampleSubmission 9 1), .initializeBlock 1]

def sampleKeyBytes (key : UInt8) : Key runtimeLimits :=
  (BoundedVec.tryFrom (samplePublic key).toList).getD default

def sampleRotationSignature : Signature runtimeLimits :=
  (BoundedVec.tryFrom (sampleSignature 8 (sampleRefresh 9 1 2).encode)).getD default

theorem signed_rotation_completes_sample :
    let s' := run (step sampleConfig) samplePendingRotation
      [.signedProposal (sampleSigned (sampleRefresh 9 1 2) 8), .initializeBlock 2]
    (∀ now, sampleConfig.sessionOffset ≤ now → shouldEndSession sampleConfig now s' = true) ∧
      Activated (0, sampleKeyBytes 8) (1, sampleKeyBytes 9) sampleRotationSignature
        samplePendingRotation.nextAuthoritySetId (sampleValidators 2) s'
        (step sampleConfig s' (.newSession (sampleValidators 2) (sampleValidators 2))) := by
  have hcurrent : samplePendingRotation.dkgPublicKey = some (0, sampleKeyBytes 8) := by
    decide +kernel
  have hnext : samplePendingRotation.nextDkgPublicKey = some (1, sampleKeyBytes 9) := by
    decide +kernel
  have hpending : samplePendingRotation.pendingRefreshProposal = some (sampleRefresh 9 1 2) := by
    decide +kernel
  have hdata : (sampleRefresh 9 1 2).encode = (sampleSigned (sampleRefresh 9 1 2) 8).data := by
    decide +kernel
  have hsignature : sampleRotationSignature.toList =
      (sampleSigned (sampleRefresh 9 1 2) 8).signature.getD [] := by
    decide +kernel
  exact signed_rotation_completes sampleConfig hcurrent hnext (by decide +kernel) hpending rfl rfl
    hdata hsignature (by decide +kernel) (by decide) (by decide) (by decide) rfl

end DkgSubstrate.KeyRotation
