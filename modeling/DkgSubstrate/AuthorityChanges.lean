import DkgSubstrate.ChainHeader

/-!
The changes of the authority set that a header announces.  A header announces the sets of its
state, as long as every change makes the next set the active one and no block holds two changes.
-/

namespace DkgSubstrate.AuthorityChanges

open DkgSubstrate.ChainHeader
open DkgSubstrate.Dispatch
open DkgSubstrate.IncomingMessages
open DkgSubstrate.Metadata
open DkgSubstrate.MetadataCalls
open DkgSubstrate.MetadataEffects
open DkgSubstrate.MetadataRotation
open DkgSubstrate.MetadataStep
open DkgSubstrate.Primitives
open DkgSubstrate.Proposals
open DkgSubstrate.SetIds
open DkgSubstrate.Words

variable {L : Limits} {AccountId World : Type}

/-- Whether the call would make the next set the active one. -/
def activates (s : State L AccountId World) : Call L AccountId World → Bool
  | .forceChangeAuthorities _ => (rotationKeys true s).isSome
  | .newSession _ _ => (rotationKeys false s).isSome
  | _ => false

/-- What a change of the authorities finds: a key for the next set, no other change in the block,
and an id that can still be counted up. -/
def Orderly (s : State L AccountId World) (call : Call L AccountId World) : Prop :=
  match call with
  | .forceChangeAuthorities _ | .newSession _ _ =>
      activates s call = true ∧ findAuthoritiesChange ⟨s.digest⟩ = none ∧
        s.nextAuthoritySetId < 2 ^ 64 - 1
  | _ => True

section Digest

variable {cfg : Config L AccountId World} {s s' : State L AccountId World}

theorem digest_dropThresholds (unjailed : ℕ) :
    (dropThresholds unjailed s).digest = s.digest := by
  have heq : dropThresholds unjailed s = _ :=
    dropThresholds_eq unjailed s.authorityReputations s.jailedKeygenAuthorities
  rw [heq]

theorem digest_punishKeygen {offender : Public} (h : punishKeygen cfg offender s = .ok s') :
    s'.digest = s.digest := by
  rw [punishKeygen] at h
  dsimp only at h
  split at h
  · split at h
    · obtain ⟨best, -, -, rfl⟩ := setNextBestAuthorities_ok h
      rfl
    · obtain ⟨t, ht, rfl⟩ := map_eq_ok.mp h
      obtain ⟨best, -, -, rfl⟩ := setNextBestAuthorities_ok ht
      exact digest_dropThresholds _
  · obtain ⟨t, ht, rfl⟩ := map_eq_ok.mp h
    obtain ⟨best, -, -, rfl⟩ := setNextBestAuthorities_ok ht
    rfl

theorem digest_punishSigning (offender : Public) :
    (punishSigning cfg offender s).digest = s.digest := by
  rw [punishSigning]
  dsimp only
  split
  · split <;> rfl
  · rfl

theorem digest_submitMisbehaviourReports {origin : Origin AccountId}
    {reports : AggregatedMisbehaviourReports L}
    (h : submitMisbehaviourReports cfg origin reports s = .ok s') : s'.digest = s.digest := by
  obtain ⟨-, -, -, reputations, ⟨-, h⟩ | ⟨-, rfl⟩⟩ := submitMisbehaviourReports_cases h
  · have hdigest := digest_punishKeygen h
    exact hdigest
  · exact digest_punishSigning _

theorem digest_onInitialize {n : ℕ} (h : onInitialize cfg n s = .ok s') :
    s'.digest = s.digest := by
  obtain ⟨triggered, rfl | ⟨key, -, -, hrefresh⟩⟩ := onInitialize_cases h
  · rfl
  · rcases doRefresh_cases hrefresh with rfl | ⟨p, data, -, -, hsubmit⟩
    · rfl
    · obtain ⟨world, rfl | rfl⟩ := submitRefresh_ok hsubmit
      · rfl
      · rfl

theorem digest_onSignedProposal {proposal : Proposal L}
    (h : onSignedProposal proposal s = .ok s') : s'.digest = s.digest := by
  simp only [onSignedProposal, bind_eq_ok] at h
  obtain ⟨_, -, h⟩ := h
  split at h
  · simp only [bind_eq_ok] at h
    obtain ⟨_, -, _, -, curr, -, _, -, signature, -, _, -, h⟩ := h
    rw [← Except.ok.inj h]
  · rw [← Except.ok.inj h]

/-- The digest of a change announces what the change leaves in the state. -/
def Announced (activated : Bool) (digest : List (ConsensusLog L)) (s' : State L AccountId World) :
    Prop :=
  s'.digest = if activated then
    digest ++ [.authoritiesChange s'.authoritySet s'.nextAuthoritySet] else digest

theorem announced_changeAuthorities {newIds nextIds : List Public}
    {newAccounts nextAccounts : List AccountId} {forced : Bool}
    (h : changeAuthorities cfg newIds nextIds newAccounts nextAccounts forced s = .ok s') :
    Announced (rotationKeys forced s).isSome s.digest s' := by
  obtain ⟨world, next, accounts, best, -, -, -, hcases⟩ := changeAuthorities_ok h
  rcases hcases with ⟨hkeys, rfl⟩ | ⟨key, signature, active, activeAccounts, hkeys, -, -, rfl⟩
  · rw [Announced, hkeys]
    rfl
  · rw [Announced, hkeys]
    rfl

theorem announced_forceChangeAuthorities {origin : Origin AccountId}
    (h : forceChangeAuthorities cfg origin s = .ok s') :
    Announced (rotationKeys true s).isSome s.digest s' := by
  obtain ⟨-, rotated, hrotated, hrefresh⟩ := forceChangeAuthorities_cases h
  have hannounced := announced_changeAuthorities hrotated
  rw [show rotationKeys true (withoutRefresh s) = rotationKeys true s from rfl,
    show (withoutRefresh s).digest = s.digest from rfl] at hannounced
  rcases hrefresh with ⟨-, rfl⟩ | ⟨key, p, data, -, -, -, hsubmit⟩
  · exact hannounced
  · obtain ⟨world, rfl | rfl⟩ := submitRefresh_ok hsubmit
    · exact hannounced
    · exact hannounced

variable [DecidableEq AccountId] {call : Call L AccountId World}

theorem announced_dispatch (h : dispatch cfg s call = .ok s') :
    Announced (activates s call) s.digest s' ∨ activates s call = false ∧
      findAuthoritiesChange ⟨s'.digest⟩ = none ∨
      activates s call = false ∧ ∃ index, s'.digest = s.digest ++ [.onDisabled index] := by
  cases call with
  | setSignatureThreshold origin t =>
      obtain ⟨-, -, -, rfl⟩ := setSignatureThreshold_ok h
      exact .inl rfl
  | setKeygenThreshold origin t =>
      obtain ⟨-, -, -, rfl⟩ := setKeygenThreshold_ok h
      exact .inl rfl
  | submitPublicKey origin keys =>
      obtain ⟨-, -, key, reputations, rfl⟩ := submitPublicKey_ok h
      exact .inl rfl
  | submitNextPublicKey origin keys =>
      obtain ⟨-, -, key, reputations, rfl⟩ := submitNextPublicKey_ok h
      exact .inl rfl
  | submitMisbehaviourReports origin reports =>
      exact .inl (digest_submitMisbehaviourReports h)
  | unjail origin =>
      obtain ⟨account, authority, -, -, rfl⟩ := unjail_ok h
      exact .inl rfl
  | forceUnjailKeygen origin authority =>
      rw [forceUnjailKeygen_ok h]
      exact .inl rfl
  | forceUnjailSigning origin authority =>
      rw [forceUnjailSigning_ok h]
      exact .inl rfl
  | forceChangeAuthorities origin => exact .inl (announced_forceChangeAuthorities h)
  | triggerEmergencyKeygen origin =>
      obtain ⟨-, rfl⟩ := triggerEmergencyKeygen_ok h
      exact .inl rfl
  | initializeBlock n =>
      refine .inr (.inl ⟨rfl, ?_⟩)
      rw [digest_onInitialize h]
      rfl
  | signedProposal proposal => exact .inl (digest_onSignedProposal h)
  | newSession validators queued =>
      have hannounced := announced_changeAuthorities h
      exact .inl hannounced
  | disabled index =>
      rw [← Except.ok.inj h]
      exact .inr (.inr ⟨rfl, index, rfl⟩)
  | environment world =>
      rw [← Except.ok.inj h]
      exact .inl rfl

end Digest

/-- The ids of the keys and of the sets go up together. -/
structure InStep (s : State L AccountId World) : Prop where
  keyId : ∀ id key, s.dkgPublicKey = some (id, key) → id = s.authoritySetId
  nextKeyId : ∀ id key, s.nextDkgPublicKey = some (id, key) → id = s.nextAuthoritySetId
  consecutive : s.nextAuthoritySetId = s.authoritySetId + 1
  fits : s.nextAuthoritySetId < 2 ^ 64

/-- A header announces nothing else than the sets of its state. -/
structure Truthful (s : State L AccountId World) : Prop where
  ids : InStep s
  change : ∀ sets, findAuthoritiesChange ⟨s.digest⟩ = some sets →
    sets = (s.authoritySet, s.nextAuthoritySet)

section Steps

variable {cfg : Config L AccountId World} {s t : State L AccountId World}

theorem InStep.queuedAuthoritySet_eq (h : InStep s) :
    queuedAuthoritySet s = s.nextAuthoritySet := by
  have hid : wrappingAdd 64 s.authoritySetId 1 = s.nextAuthoritySetId := by
    have hfits := h.fits
    rw [wrappingAdd, ← h.consecutive, Nat.mod_eq_of_lt hfits]
  rw [queuedAuthoritySet, hid]
  rfl

theorem Truthful.announced_eq (h : Truthful s) :
    announced s = (s.authoritySet, s.nextAuthoritySet) := by
  rw [announced]
  cases hchange : findAuthoritiesChange ⟨s.digest⟩ with
  | none =>
      rw [Option.getD_none, h.ids.queuedAuthoritySet_eq]
  | some sets => exact h.change sets hchange

theorem inStep_activate {world : World} {next authorities : BoundedVec Public L.maxAuthorities}
    {accounts nextAccounts : BoundedVec AccountId L.maxAuthorities}
    {best : BoundedVec (ℕ × Public) L.maxAuthorities} {key : ℕ × Key L}
    {signature : Signature L} (h : InStep s) (hkey : s.nextDkgPublicKey = some key)
    (hbelow : s.nextAuthoritySetId < 2 ^ 64 - 1) :
    InStep (activate authorities accounts key signature s
      (shiftNext world next nextAccounts best s)) := by
  have hnext : saturatingAdd 64 s.nextAuthoritySetId 1 = s.nextAuthoritySetId + 1 := by
    rw [saturatingAdd]
    omega
  refine ⟨?_, ?_, hnext, ?_⟩
  · intro id key' hsome
    obtain rfl := Option.some.inj hsome
    exact h.nextKeyId _ _ hkey
  · intro id key' hsome
    cases hsome
  · change saturatingAdd 64 s.nextAuthoritySetId 1 < 2 ^ 64
    omega

theorem inStep_withPending {proposal : RefreshProposal} (h : InStep s) :
    InStep (withPending proposal s) :=
  ⟨h.keyId, h.nextKeyId, h.consecutive, h.fits⟩

variable {call : Call L AccountId World}

theorem inStep_effect (h : InStep s) (heffect : Effect cfg s call t) (horderly : Orderly s call) :
    InStep t := by
  cases heffect with
  | submitPublicKey hnone =>
      refine ⟨?_, h.nextKeyId, h.consecutive, h.fits⟩
      intro id key hsome
      exact (congrArg Prod.fst (Option.some.inj hsome)).symm
  | submitNextPublicKey hnone =>
      refine ⟨h.keyId, ?_, h.consecutive, h.fits⟩
      intro id key hsome
      exact (congrArg Prod.fst (Option.some.inj hsome)).symm
  | forcedShift world hforce hkey hbest =>
      have hkeys := horderly.1
      simp [activates, rotationKeys, hkey] at hkeys
  | forcedRotation world hforce hkey hbest hpub hnonce =>
      have hwithout : InStep (withoutRefresh s) :=
        ⟨h.keyId, h.nextKeyId, h.consecutive, h.fits⟩
      exact inStep_withPending (inStep_activate hwithout hkey horderly.2.2)
  | triggerEmergencyKeygen hforce =>
      refine ⟨h.keyId, ?_, h.consecutive, h.fits⟩
      intro id key hsome
      cases hsome
  | sessionShift world hkeys hnext hbest =>
      have hsome := horderly.1
      simp [activates, hkeys] at hsome
  | sessionRotation world hkey hsig hnext hbest hactive =>
      exact inStep_activate h hkey horderly.2.2
  | _ => exact ⟨h.keyId, h.nextKeyId, h.consecutive, h.fits⟩

theorem sets_effect (heffect : Effect cfg s call t) (horderly : Orderly s call)
    (hkept : activates s call = false) :
    t.authoritySet = s.authoritySet ∧ t.nextAuthoritySet = s.nextAuthoritySet := by
  cases heffect with
  | forcedShift | forcedRotation | sessionShift | sessionRotation =>
      rw [horderly.1] at hkept
      cases hkept
  | _ => exact ⟨rfl, rfl⟩

theorem activated_effect (heffect : Effect cfg s call t) (hactivates : activates s call = true) :
    t.authoritySetId = s.nextAuthoritySetId := by
  cases heffect with
  | forcedShift world hforce hkey hbest => simp [activates, rotationKeys, hkey] at hactivates
  | sessionShift world hkeys hnext hbest => simp [activates, hkeys] at hactivates
  | forcedRotation | sessionRotation => rfl
  | idle hidle =>
      cases call with
      | forceChangeAuthorities origin => cases hidle
      | newSession validators queued => cases hidle
      | _ => cases hactivates
  | _ => cases hactivates

theorem inStep_core : InStep s ↔ InStep (core s) :=
  ⟨fun h => ⟨h.keyId, h.nextKeyId, h.consecutive, h.fits⟩,
    fun h => ⟨h.keyId, h.nextKeyId, h.consecutive, h.fits⟩⟩

variable [DecidableEq AccountId]

theorem sets_dispatch (hdispatch : dispatch cfg s call = .ok t) (horderly : Orderly s call)
    (hkept : activates s call = false) :
    t.authoritySet = s.authoritySet ∧ t.nextAuthoritySet = s.nextAuthoritySet := by
  obtain ⟨u, heffect, hcore⟩ := dispatch_effect hdispatch
  obtain ⟨hactive, hnext⟩ := sets_effect heffect horderly hkept
  exact ⟨(congrArg State.authoritySet hcore).trans hactive,
    (congrArg State.nextAuthoritySet hcore).trans hnext⟩

theorem activated_dispatch (hdispatch : dispatch cfg s call = .ok t)
    (hactivates : activates s call = true) : t.authoritySetId = s.nextAuthoritySetId := by
  obtain ⟨u, heffect, hcore⟩ := dispatch_effect hdispatch
  exact (congrArg State.authoritySetId hcore).trans (activated_effect heffect hactivates)

/-- The step lemma. -/
theorem truthful_dispatch (h : Truthful s) (hdispatch : dispatch cfg s call = .ok t)
    (horderly : Orderly s call) : Truthful t := by
  refine ⟨?_, ?_⟩
  · obtain ⟨u, heffect, hcore⟩ := dispatch_effect hdispatch
    rw [inStep_core, hcore, ← inStep_core]
    exact inStep_effect h.ids heffect horderly
  · intro sets hsets
    cases hactivates : activates s call with
    | true =>
        have hfirst : findAuthoritiesChange ⟨s.digest⟩ = none := by
          cases call with
          | forceChangeAuthorities origin => exact horderly.2.1
          | newSession validators queued => exact horderly.2.1
          | _ => cases hactivates
        have hdigest := announced_dispatch hdispatch
        simp only [hactivates, Bool.true_eq_false, false_and, or_false, Announced,
          if_true] at hdigest
        rw [findAuthoritiesChange] at hfirst hsets
        dsimp only at hfirst hsets
        rw [hdigest, List.findSome?_append, hfirst, Option.none_or] at hsets
        exact (Option.some.inj hsets).symm
    | false =>
        obtain ⟨hactive, hnext⟩ := sets_dispatch hdispatch horderly hactivates
        rw [hactive, hnext]
        refine h.change sets ?_
        rcases announced_dispatch hdispatch with hsame | ⟨-, hnone⟩ | ⟨-, index, hdisabled⟩
        · rw [Announced, hactivates, if_neg Bool.false_ne_true] at hsame
          rw [← hsame]
          exact hsets
        · rw [hnone] at hsets
          cases hsets
        · rw [findAuthoritiesChange] at hsets ⊢
          dsimp only at hsets ⊢
          rw [hdisabled, List.findSome?_append] at hsets
          rwa [show List.findSome? matchConsensusLog [ConsensusLog.onDisabled index] = none
            from rfl, Option.or_none] at hsets

end Steps

theorem truthful_genesis {cfg : Config L AccountId World} {genesis : GenesisConfig AccountId}
    {validators : List (AccountId × Public)} {world : World} {s : State L AccountId World}
    (hvalidators : validators ≠ [])
    (hgenesis : genesisState cfg genesis validators world = .ok s) : Truthful s := by
  obtain ⟨world', authorities, accounts, best, -, -, -, -, rfl⟩ :=
    genesisState_ok hvalidators hgenesis
  refine ⟨⟨?_, ?_, rfl, (by decide : 1 < 2 ^ 64)⟩, ?_⟩
  · intro id key hsome
    cases hsome
  · intro id key hsome
    cases hsome
  · intro sets hsets
    cases hsets

end DkgSubstrate.AuthorityChanges
