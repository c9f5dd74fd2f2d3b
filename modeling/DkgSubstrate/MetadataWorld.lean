import DkgSubstrate.MetadataStep

/-!
What the calls of the metadata pallet do to the other pallets, and to the accounts of the
active authorities.
-/

namespace DkgSubstrate.MetadataWorld

open DkgSubstrate.Dispatch
open DkgSubstrate.Metadata
open DkgSubstrate.MetadataCalls
open DkgSubstrate.MetadataEffects
open DkgSubstrate.MetadataRotation
open DkgSubstrate.MetadataStep
open DkgSubstrate.Primitives

variable {L : Limits} {AccountId World : Type}
variable {cfg : Config L AccountId World} {s s' : State L AccountId World}

/-- The other pallets are left alone, or the proposal handler is called. -/
def Handles (cfg : Config L AccountId World) (world world' : World) : Prop :=
  world' = world ∨
    ∃ n proposal result, cfg.handleUnsignedProposal n proposal world = .ok (world', result)

/-- The other pallets are left alone, or the handler gets a refresh proposal. -/
def HandlesRefresh (cfg : Config L AccountId World) (world world' : World) : Prop :=
  world' = world ∨ ∃ n data result,
    cfg.handleUnsignedProposal n (.unsigned .refresh data) world = .ok (world', result)

theorem HandlesRefresh.handles {world world' : World} (h : HandlesRefresh cfg world world') :
    Handles cfg world world' := by
  rcases h with rfl | ⟨n, data, result, h⟩
  · exact .inl rfl
  · exact .inr ⟨n, _, result, h⟩

/-- A change of the authorities first announces them, and makes them the active ones only
with the keys of a rotation. -/
structure Announces (cfg : Config L AccountId World) (newAccounts : List AccountId)
    (newIds : List Public) (forced : Bool) (s s' : State L AccountId World) : Prop where
  announced : ∃ world, cfg.onAuthoritySetChanged newAccounts newIds s.world = .ok world ∧
    Handles cfg world s'.world
  rotated : (rotationKeys forced s).isSome = true →
    s'.currentAuthoritiesAccounts.toList = newAccounts
  kept : rotationKeys forced s = none →
    s'.currentAuthoritiesAccounts = s.currentAuthoritiesAccounts

theorem changeAuthorities_world {newIds nextIds : List Public}
    {newAccounts nextAccounts : List AccountId} {forced : Bool}
    (h : changeAuthorities cfg newIds nextIds newAccounts nextAccounts forced s = .ok s') :
    cfg.onAuthoritySetChanged newAccounts newIds s.world = .ok s'.world ∧
      ((rotationKeys forced s).isSome = true →
        s'.currentAuthoritiesAccounts.toList = newAccounts) ∧
      (rotationKeys forced s = none →
        s'.currentAuthoritiesAccounts = s.currentAuthoritiesAccounts) := by
  simp only [changeAuthorities, bind_eq_ok, expect_eq_ok, BoundedVec.tryFrom_eq_some] at h
  -- The hook has been called before the keys are looked at.
  obtain ⟨world, hworld, next, -, accounts, -, best, -, h⟩ := h
  cases hkeys : rotationKeys forced s with
  | none =>
      rw [hkeys] at h
      rw [← Except.ok.inj h]
      refine ⟨hworld, ?_, fun _ => rfl⟩
      intro hsome
      cases hsome
  | some keys =>
      rw [hkeys] at h
      simp only [bind_eq_ok, expect_eq_ok, BoundedVec.tryFrom_eq_some] at h
      obtain ⟨active, -, activeAccounts, haccounts, h⟩ := h
      rw [← Except.ok.inj h]
      refine ⟨hworld, fun _ => haccounts, ?_⟩
      intro hnone
      cases hnone

theorem submitRefresh_handles {accepted : State L AccountId World → State L AccountId World}
    {data : BoundedVec UInt8 L.maxProposalLength}
    (h : submitRefresh cfg accepted (.unsigned .refresh data) s = .ok s')
    (haccepted : ∀ t, (accepted t).world = t.world ∧
      (accepted t).currentAuthoritiesAccounts = t.currentAuthoritiesAccounts) :
    HandlesRefresh cfg s.world s'.world ∧
      s'.currentAuthoritiesAccounts = s.currentAuthoritiesAccounts := by
  simp only [submitRefresh, bind_eq_ok] at h
  obtain ⟨⟨world, result⟩, hhandle, h⟩ := h
  have hhandles : HandlesRefresh cfg s.world world := .inr ⟨_, _, _, hhandle⟩
  cases result with
  | ok _ =>
      rw [← Except.ok.inj h, (haccepted _).1, (haccepted _).2]
      exact ⟨hhandles, rfl⟩
  | error e =>
      rw [← Except.ok.inj h]
      exact ⟨hhandles, rfl⟩

theorem forceChangeAuthorities_refreshes {origin : Origin AccountId}
    (h : forceChangeAuthorities cfg origin s = .ok s') :
    ∃ rotated,
      changeAuthorities cfg s.nextAuthorities.toList s.nextAuthorities.toList
        s.nextAuthoritiesAccounts.toList s.nextAuthoritiesAccounts.toList true
        (withoutRefresh s) = .ok rotated ∧
      HandlesRefresh cfg rotated.world s'.world ∧
      s'.currentAuthoritiesAccounts = rotated.currentAuthoritiesAccounts := by
  obtain ⟨-, rotated, hrotated, hrefresh⟩ := forceChangeAuthorities_cases h
  refine ⟨rotated, hrotated, ?_⟩
  rcases hrefresh with ⟨-, rfl⟩ | ⟨key, p, data, -, -, -, hsubmit⟩
  · exact ⟨.inl rfl, rfl⟩
  · have hhandles := submitRefresh_handles hsubmit fun _ => ⟨rfl, rfl⟩
    exact hhandles

theorem forceChangeAuthorities_announces {origin : Origin AccountId}
    (h : forceChangeAuthorities cfg origin s = .ok s') :
    Announces cfg s.nextAuthoritiesAccounts.toList s.nextAuthorities.toList true s s' := by
  obtain ⟨rotated, hrotated, hhandles, haccounts⟩ := forceChangeAuthorities_refreshes h
  obtain ⟨hworld, hactive, hkept⟩ := changeAuthorities_world hrotated
  exact ⟨⟨_, hworld, hhandles.handles⟩, haccounts ▸ hactive, haccounts ▸ hkept⟩

theorem onInitialize_handles {n : ℕ} (h : onInitialize cfg n s = .ok s') :
    HandlesRefresh cfg s.world s'.world ∧
      s'.currentAuthoritiesAccounts = s.currentAuthoritiesAccounts := by
  obtain ⟨triggered, rfl | ⟨key, -, -, hrefresh⟩⟩ := onInitialize_cases h
  · exact ⟨.inl rfl, rfl⟩
  · rcases doRefresh_cases hrefresh with rfl | ⟨p, data, -, -, hsubmit⟩
    · exact ⟨.inl rfl, rfl⟩
    · have hhandles := submitRefresh_handles hsubmit fun _ => ⟨rfl, rfl⟩
      exact hhandles

theorem world_dropThresholds (unjailed : ℕ) :
    (dropThresholds unjailed s).world = s.world := by
  have heq : dropThresholds unjailed s = _ :=
    dropThresholds_eq unjailed s.authorityReputations s.jailedKeygenAuthorities
  rw [heq]

theorem punishKeygen_world {offender : Public} (h : punishKeygen cfg offender s = .ok s') :
    s'.world = s.world := by
  rw [punishKeygen] at h
  dsimp only at h
  split at h
  · split at h
    · obtain ⟨best, -, -, rfl⟩ := setNextBestAuthorities_ok h
      rfl
    · obtain ⟨t, ht, rfl⟩ := map_eq_ok.mp h
      obtain ⟨best, -, -, rfl⟩ := setNextBestAuthorities_ok ht
      exact world_dropThresholds _
  · obtain ⟨t, ht, rfl⟩ := map_eq_ok.mp h
    obtain ⟨best, -, -, rfl⟩ := setNextBestAuthorities_ok ht
    rfl

theorem punishSigning_world (offender : Public) :
    (punishSigning cfg offender s).world = s.world := by
  rw [punishSigning]
  dsimp only
  split
  · split <;> rfl
  · rfl

theorem submitMisbehaviourReports_world {origin : Origin AccountId}
    {reports : AggregatedMisbehaviourReports L}
    (h : submitMisbehaviourReports cfg origin reports s = .ok s') : s'.world = s.world := by
  obtain ⟨-, -, -, reputations, ⟨-, h⟩ | ⟨-, rfl⟩⟩ := submitMisbehaviourReports_cases h
  · have hworld := punishKeygen_world h
    exact hworld
  · exact punishSigning_world _

section Calls

variable [DecidableEq AccountId]

def HandlesOnly : Call L AccountId World → Prop
  | .forceChangeAuthorities _ => False
  | .newSession _ _ => False
  | .environment _ => False
  | _ => True

theorem dispatch_world {call : Call L AccountId World} (h : dispatch cfg s call = .ok s')
    (hcall : HandlesOnly call) : HandlesRefresh cfg s.world s'.world := by
  cases call with
  | setSignatureThreshold origin t =>
      obtain ⟨-, -, -, rfl⟩ := setSignatureThreshold_ok h
      exact .inl rfl
  | setKeygenThreshold origin t =>
      obtain ⟨-, -, -, rfl⟩ := setKeygenThreshold_ok h
      exact .inl rfl
  | submitPublicKey origin keys =>
      obtain ⟨-, -, key, reputations, rfl⟩ := submitPublicKey_ok h
      exact .inl rfl
  | submitNextPublicKey origin keys =>
      obtain ⟨-, -, key, reputations, rfl⟩ := submitNextPublicKey_ok h
      exact .inl rfl
  | submitMisbehaviourReports origin reports =>
      exact .inl (submitMisbehaviourReports_world h)
  | unjail origin =>
      obtain ⟨account, authority, -, -, rfl⟩ := unjail_ok h
      exact .inl rfl
  | forceUnjailKeygen origin authority =>
      rw [forceUnjailKeygen_ok h]
      exact .inl rfl
  | forceUnjailSigning origin authority =>
      rw [forceUnjailSigning_ok h]
      exact .inl rfl
  | triggerEmergencyKeygen origin =>
      obtain ⟨-, rfl⟩ := triggerEmergencyKeygen_ok h
      exact .inl rfl
  | initializeBlock n => exact (onInitialize_handles h).1
  | signedProposal proposal =>
      have heffect : Effect cfg s (.signedProposal proposal) s' := onSignedProposal_ok h
      cases heffect <;> exact .inl rfl
  | disabled index =>
      rw [← Except.ok.inj h]
      exact .inl rfl
  | forceChangeAuthorities origin => exact hcall.elim
  | newSession validators queued => exact hcall.elim
  | environment world => exact hcall.elim

theorem dispatch_accounts {call : Call L AccountId World} (h : dispatch cfg s call = .ok s')
    (hcall : HandlesOnly call) :
    s'.currentAuthoritiesAccounts = s.currentAuthoritiesAccounts := by
  obtain ⟨t, heffect, hcore⟩ := dispatch_effect h
  change (core s').currentAuthoritiesAccounts = s.currentAuthoritiesAccounts
  rw [hcore]
  cases heffect with
  | forcedShift world hforce hkey hbest => exact hcall.elim
  | forcedRotation world hforce hkey hbest hpub hnonce => exact hcall.elim
  | sessionShift world hkeys hnext hbest => exact hcall.elim
  | sessionRotation world hkey hsig hnext hbest hactive => exact hcall.elim
  | _ => rfl

theorem onNewSession_announces {validators queued : List (AccountId × Public)}
    (h : onNewSession cfg validators queued s = .ok s') :
    Announces cfg (validators.map Prod.fst) (validators.map Prod.snd) false s s' := by
  obtain ⟨hworld, hactive, hkept⟩ := changeAuthorities_world h
  exact ⟨⟨_, hworld, .inl rfl⟩, hactive, hkept⟩

end Calls

end DkgSubstrate.MetadataWorld
