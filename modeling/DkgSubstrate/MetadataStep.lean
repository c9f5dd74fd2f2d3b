import DkgSubstrate.MetadataEffects

/-!
The inversion of every call of the metadata pallet into its effect.
-/

namespace DkgSubstrate.MetadataStep

open DkgSubstrate.Dispatch
open DkgSubstrate.Metadata
open DkgSubstrate.MetadataCalls
open DkgSubstrate.MetadataEffects
open DkgSubstrate.MetadataRotation
open DkgSubstrate.Primitives
open DkgSubstrate.Proposals
open DkgSubstrate.Words

variable {L : Limits} {AccountId World : Type}
variable {cfg : Config L AccountId World}
variable {s s' : State L AccountId World}

theorem setSignatureThreshold_ok {origin : Origin AccountId} {t : ℕ}
    (h : setSignatureThreshold cfg origin t s = .ok s') :
    cfg.forceOrigin origin = true ∧ 0 < t ∧ t < s.nextAuthorities.length ∧
      s' = { s with pendingSignatureThreshold := t } := by
  simp only [setSignatureThreshold, bind_eq_ok, ensure_eq_ok, Except.ok.injEq] at h
  obtain ⟨_, hforce, _, hpos, _, hlt, rfl⟩ := h
  exact ⟨hforce, hpos, hlt, rfl⟩

theorem setKeygenThreshold_ok {origin : Origin AccountId} {t : ℕ}
    (h : setKeygenThreshold cfg origin t s = .ok s') :
    cfg.forceOrigin origin = true ∧ 1 < t ∧ t ≤ s.nextAuthorities.length ∧
      s' = { s with
        pendingSignatureThreshold :=
          if t ≤ s.pendingSignatureThreshold then t - 1 else s.pendingSignatureThreshold
        pendingKeygenThreshold := t } := by
  simp only [setKeygenThreshold, bind_eq_ok, ensure_eq_ok, Except.ok.injEq] at h
  obtain ⟨_, hforce, _, hone, _, hle, rfl⟩ := h
  exact ⟨hforce, hone, hle, rfl⟩

theorem origin_eq_none {origin : Origin AccountId} (h : (origin matches .none) = true) :
    origin = .none := by
  cases origin with
  | none => rfl
  | root => cases h
  | signed account => cases h

theorem submitPublicKey_ok {origin : Origin AccountId} {keys : List (Bytes × Bytes)}
    (h : submitPublicKey cfg origin keys s = .ok s') :
    origin = .none ∧ s.dkgPublicKey = none ∧
      ∃ (key : Key L) (reputations : StorageMap Public ℕ),
        s' = { s with
          dkgPublicKey := some (s.authoritySetId, key)
          authorityReputations := reputations
          nextUnsignedAt := nextUnsignedBlock cfg s } := by
  simp only [submitPublicKey, bind_eq_ok, ensure_eq_ok, okOr_eq_ok, Except.ok.injEq] at h
  obtain ⟨_, horigin, _, hnone, dict, -, accepted, -, key, -, rfl⟩ := h
  exact ⟨origin_eq_none horigin, hnone, key, _, rfl⟩

theorem submitNextPublicKey_ok {origin : Origin AccountId} {keys : List (Bytes × Bytes)}
    (h : submitNextPublicKey cfg origin keys s = .ok s') :
    origin = .none ∧ s.nextDkgPublicKey = none ∧
      ∃ (key : Key L) (reputations : StorageMap Public ℕ),
        s' = { s with
          nextDkgPublicKey := some (s.nextAuthoritySetId, key)
          authorityReputations := reputations
          nextUnsignedAt := nextUnsignedBlock cfg s
          refreshInProgress := false } := by
  simp only [submitNextPublicKey, bind_eq_ok, ensure_eq_ok, okOr_eq_ok, Except.ok.injEq] at h
  obtain ⟨_, horigin, _, hnone, dict, -, accepted, -, key, -, rfl⟩ := h
  exact ⟨origin_eq_none horigin, hnone, key, _, rfl⟩

theorem forceUnjailKeygen_ok {origin : Origin AccountId} {authority : Public}
    (h : forceUnjailKeygen cfg origin authority s = .ok s') :
    s' = { s with jailedKeygenAuthorities := s.jailedKeygenAuthorities.erase authority } := by
  simp only [forceUnjailKeygen, bind_eq_ok] at h
  obtain ⟨_, -, h⟩ := h
  exact (Except.ok.inj h).symm

theorem forceUnjailSigning_ok {origin : Origin AccountId} {authority : Public}
    (h : forceUnjailSigning cfg origin authority s = .ok s') :
    s' = { s with jailedSigningAuthorities := s.jailedSigningAuthorities.erase authority } := by
  simp only [forceUnjailSigning, bind_eq_ok] at h
  obtain ⟨_, -, h⟩ := h
  exact (Except.ok.inj h).symm

theorem unjail_ok [DecidableEq AccountId] {origin : Origin AccountId}
    (h : unjail cfg origin s = .ok s') :
    ∃ account authority, origin = .signed account ∧
      s.accountToAuthority.lookup account = some authority ∧
      s' = { s with
        jailedKeygenAuthorities := releaseAfter s.blockNumber cfg.keygenJailSentence
          authority s.jailedKeygenAuthorities
        jailedSigningAuthorities := releaseAfter s.blockNumber cfg.signingJailSentence
          authority s.jailedSigningAuthorities } := by
  simp only [unjail, bind_eq_ok, okOr_eq_ok] at h
  obtain ⟨account, haccount, authority, hauthority, h⟩ := h
  cases origin with
  | signed controller =>
      obtain rfl : controller = account := Option.some.inj haccount
      exact ⟨controller, authority, rfl, hauthority, (Except.ok.inj h).symm⟩
  | root => cases haccount
  | none => cases haccount

theorem triggerEmergencyKeygen_ok {origin : Origin AccountId}
    (h : triggerEmergencyKeygen cfg origin s = .ok s') :
    cfg.forceOrigin origin = true ∧
      s' = { s with
        nextDkgPublicKey := none
        nextPublicKeySignature := none
        shouldExecuteNewKeygen := (true, true) } := by
  simp only [triggerEmergencyKeygen, bind_eq_ok, ensure_eq_ok] at h
  obtain ⟨_, hforce, h⟩ := h
  exact ⟨hforce, (Except.ok.inj h).symm⟩

theorem setNextBestAuthorities_ok {ids : List Public}
    (h : setNextBestAuthorities ids s = .ok s') :
    ∃ best : BoundedVec (ℕ × Public) L.maxAuthorities,
      SelectsBest s.nextKeygenThreshold ids best.toList ∧ 2 ≤ best.length ∧
      s' = { s with nextBestAuthorities := best } := by
  simp only [setNextBestAuthorities, bind_eq_ok, ensure_eq_ok, okOr_eq_ok,
    Except.ok.injEq] at h
  obtain ⟨best, hbest, _, htwo, rfl⟩ := h
  refine ⟨best, ?_, htwo, rfl⟩
  rw [BoundedVec.tryFrom_eq_some.mp hbest]
  exact selectsBest_getBestAuthorities _ _ _ _

theorem replacementCandidates_jailed {offender : Public} {now : ℕ}
    (hmem : offender ∈ unjailedNextBest s) :
    replacementCandidates (unjailedNextBest s)
        { s with
          jailedKeygenAuthorities := s.jailedKeygenAuthorities.insert offender now } =
      replacementCandidates (unjailedNextBest s) s := by
  rw [replacementCandidates]
  apply List.filter_congr
  intro id _
  by_cases hid : id = offender
  · subst hid
    simp [hmem]
  · simp [hid]

theorem highestReputationAuthority_mem {reputations : StorageMap Public ℕ}
    {candidates : List Public} {first : Public} (hfirst : first ∈ candidates) :
    highestReputationAuthority cfg reputations candidates first ∈ candidates := by
  unfold highestReputationAuthority
  dsimp only
  split
  · rename_i entry hlast
    have hmem := List.mem_of_getLast? hlast
    rw [List.mem_insertionSort, List.mem_filter] at hmem
    exact of_decide_eq_true hmem.2
  · exact hfirst

theorem dropThresholds_eq (unjailed : ℕ) (reputations jail : StorageMap Public ℕ) :
    dropThresholds unjailed
        { s with
          authorityReputations := reputations
          jailedKeygenAuthorities := jail } =
      { s with
        authorityReputations := reputations
        jailedKeygenAuthorities := jail
        nextKeygenThreshold := (dropThresholds unjailed s).nextKeygenThreshold
        pendingKeygenThreshold := (dropThresholds unjailed s).pendingKeygenThreshold
        nextSignatureThreshold := (dropThresholds unjailed s).nextSignatureThreshold
        pendingSignatureThreshold := (dropThresholds unjailed s).pendingSignatureThreshold } := by
  unfold dropThresholds
  dsimp only
  split
  · split <;> rfl
  · rfl

theorem core_dropThresholds (unjailed : ℕ) (reputations jail : StorageMap Public ℕ)
    (best : BoundedVec (ℕ × Public) L.maxAuthorities) (unsignedAt : ℕ) :
    core { dropThresholds unjailed
        { s with
          authorityReputations := reputations
          jailedKeygenAuthorities := jail } with
        nextBestAuthorities := best
        nextUnsignedAt := unsignedAt } =
      core { s with
        nextKeygenThreshold := (dropThresholds unjailed s).nextKeygenThreshold
        pendingKeygenThreshold := (dropThresholds unjailed s).pendingKeygenThreshold
        nextSignatureThreshold := (dropThresholds unjailed s).nextSignatureThreshold
        pendingSignatureThreshold := (dropThresholds unjailed s).pendingSignatureThreshold
        nextBestAuthorities := best } := by
  rw [dropThresholds_eq]
  rfl

theorem nextKeygenThreshold_dropThresholds (unjailed : ℕ)
    (reputations jail : StorageMap Public ℕ) :
    (dropThresholds unjailed
        { s with
          authorityReputations := reputations
          jailedKeygenAuthorities := jail }).nextKeygenThreshold =
      (dropThresholds unjailed s).nextKeygenThreshold := by
  rw [dropThresholds_eq]

theorem punishKeygen_ok [DecidableEq AccountId] (origin : Origin AccountId)
    {reports : AggregatedMisbehaviourReports L} {reputations : StorageMap Public ℕ}
    (htype : reports.misbehaviourType = .keygen)
    (h : punishKeygen cfg reports.offender
      { s with authorityReputations := reputations } = .ok s') :
    ∃ t, Effect cfg s (.submitMisbehaviourReports origin reports) t ∧
      core s' = core t := by
  rw [punishKeygen] at h
  dsimp only at h
  split at h
  · rename_i hmem
    rw [replacementCandidates_jailed hmem] at h
    split at h
    · rename_i first others hcandidates
      obtain ⟨best, hbest, -, rfl⟩ := setNextBestAuthorities_ok h
      refine ⟨_, .keygenReplaced htype hmem ?_ hbest, rfl⟩
      change _ ∈ replacementCandidates
        (unjailedNextBest { s with authorityReputations := reputations })
        { s with authorityReputations := reputations }
      rw [hcandidates]
      exact highestReputationAuthority_mem List.mem_cons_self
    · rename_i hnone
      obtain ⟨s₁, hs₁, rfl⟩ := map_eq_ok.mp h
      obtain ⟨best, hbest, htwo, rfl⟩ := setNextBestAuthorities_ok hs₁
      rw [nextKeygenThreshold_dropThresholds] at hbest
      exact ⟨_, .keygenDropped htype hmem hnone hbest htwo, core_dropThresholds _ _ _ _ _⟩
  · rename_i hmem
    obtain ⟨s₁, hs₁, rfl⟩ := map_eq_ok.mp h
    obtain ⟨best, hbest, -, rfl⟩ := setNextBestAuthorities_ok hs₁
    have hfilter : (unjailedNextBest s).filter (fun id => id ≠ reports.offender) =
        unjailedNextBest s := by
      apply List.filter_eq_self.mpr
      intro id hid
      have hne : id ≠ reports.offender := fun heq => hmem (heq ▸ hid)
      exact decide_eq_true hne
    have hbest' : SelectsBest s.nextKeygenThreshold (unjailedNextBest s) best.toList := by
      rw [← hfilter]
      exact hbest
    exact ⟨_, .keygenOutside htype hmem hbest', rfl⟩

theorem punishSigning_core {offender : Public} {reputations : StorageMap Public ℕ}
    (h : punishSigning cfg offender { s with authorityReputations := reputations } = s') :
    ∃ nextThreshold pendingThreshold,
      core s' = core { s with
        nextSignatureThreshold := nextThreshold
        pendingSignatureThreshold := pendingThreshold } := by
  rw [← h]
  rw [punishSigning]
  dsimp only
  split
  · split
    · exact ⟨s.nextSignatureThreshold, s.pendingSignatureThreshold, rfl⟩
    · exact ⟨_, _, rfl⟩
  · exact ⟨s.nextSignatureThreshold, s.pendingSignatureThreshold, rfl⟩

theorem submitMisbehaviourReports_cases {origin : Origin AccountId}
    {reports : AggregatedMisbehaviourReports L}
    (h : submitMisbehaviourReports cfg origin reports s = .ok s') :
    origin = .none ∧
      s.jailedKeygenAuthorities.containsKey reports.offender = false ∧
      s.jailedSigningAuthorities.containsKey reports.offender = false ∧
      ∃ reputations : StorageMap Public ℕ,
        reports.misbehaviourType = .keygen ∧ punishKeygen cfg reports.offender
            { s with authorityReputations := reputations } = .ok s' ∨
        reports.misbehaviourType = .sign ∧ punishSigning cfg reports.offender
            { s with authorityReputations := reputations } = s' := by
  simp only [submitMisbehaviourReports, bind_eq_ok, ensure_eq_ok] at h
  obtain ⟨_, horigin, _, hkeygen, _, hsigning, _, -, reporters, -, _, -, h⟩ := h
  refine ⟨origin_eq_none horigin, hkeygen, hsigning, ?_⟩
  cases htype : reports.misbehaviourType with
  | keygen =>
      rw [htype] at h
      exact ⟨_, .inl ⟨rfl, h⟩⟩
  | sign =>
      rw [htype] at h
      exact ⟨_, .inr ⟨rfl, Except.ok.inj h⟩⟩

theorem submitMisbehaviourReports_ok [DecidableEq AccountId] {origin : Origin AccountId}
    {reports : AggregatedMisbehaviourReports L}
    (h : submitMisbehaviourReports cfg origin reports s = .ok s') :
    ∃ t, Effect cfg s (.submitMisbehaviourReports origin reports) t ∧
      core s' = core t := by
  obtain ⟨-, -, -, reputations, ⟨htype, h⟩ | ⟨htype, h⟩⟩ := submitMisbehaviourReports_cases h
  · exact punishKeygen_ok origin htype h
  · obtain ⟨nextThreshold, pendingThreshold, hcore⟩ := punishSigning_core h
    exact ⟨_, .signReport htype, hcore⟩

theorem changeAuthorities_ok {newIds nextIds : List Public}
    {newAccounts nextAccounts : List AccountId} {forced : Bool}
    (h : changeAuthorities cfg newIds nextIds newAccounts nextAccounts forced s = .ok s') :
    ∃ (world : World) (next : BoundedVec Public L.maxAuthorities)
      (accounts : BoundedVec AccountId L.maxAuthorities)
      (best : BoundedVec (ℕ × Public) L.maxAuthorities),
      next.toList = nextIds ∧ accounts.toList = nextAccounts ∧
      SelectsBest (repairKeygenThreshold next.length s.pendingKeygenThreshold) next.toList
        best.toList ∧
      ((rotationKeys forced s = none ∧ s' = shiftNext world next accounts best s) ∨
        ∃ (key : ℕ × Key L) (signature : Signature L)
          (active : BoundedVec Public L.maxAuthorities)
          (activeAccounts : BoundedVec AccountId L.maxAuthorities),
          rotationKeys forced s = some (key, signature) ∧ active.toList = newIds ∧
          activeAccounts.toList = newAccounts ∧
          s' = activate active activeAccounts key signature s
            (shiftNext world next accounts best s)) := by
  simp only [changeAuthorities, bind_eq_ok, expect_eq_ok, BoundedVec.tryFrom_eq_some] at h
  obtain ⟨world, -, next, rfl, accounts, rfl, best, hbest, h⟩ := h
  refine ⟨world, next, accounts, best, rfl, rfl, ?_, ?_⟩
  · rw [hbest]
    exact selectsBest_getBestAuthorities _ _ _ _
  · cases hkeys : rotationKeys forced s with
    | none =>
        rw [hkeys] at h
        exact .inl ⟨rfl, (Except.ok.inj h).symm⟩
    | some keys =>
        rw [hkeys] at h
        simp only [bind_eq_ok, expect_eq_ok, BoundedVec.tryFrom_eq_some] at h
        obtain ⟨active, hactive, activeAccounts, haccounts, h⟩ := h
        exact .inr ⟨keys.1, keys.2, active, activeAccounts, rfl, hactive, haccounts,
          (Except.ok.inj h).symm⟩

theorem createRefreshProposal_ok {pubKey : Bytes} {nonce : ℕ} {proposal : Proposal L}
    (h : createRefreshProposal cfg pubKey nonce s = .ok (s', proposal)) :
    ∃ p : RefreshProposal, decompressPublicKey cfg.crypto pubKey = some p.pubKey ∧
      p.nonce = nonce ∧ s' = { s with pendingRefreshProposal := some p } ∧
      proposal = .unsigned .refresh ((BoundedVec.tryFrom p.encode).getD default) := by
  simp only [createRefreshProposal, bind_eq_ok, okOr_eq_ok, expect_eq_ok,
    Except.ok.injEq, Prod.mk.injEq] at h
  obtain ⟨pub, hpub, root, -, rfl, rfl⟩ := h
  exact ⟨_, hpub, rfl, rfl, rfl⟩

theorem submitRefresh_ok {accepted : State L AccountId World → State L AccountId World}
    {proposal : Proposal L} (h : submitRefresh cfg accepted proposal s = .ok s') :
    ∃ world, s' = { s with world := world } ∨ s' = accepted { s with world := world } := by
  simp only [submitRefresh, bind_eq_ok] at h
  obtain ⟨⟨world, result⟩, -, h⟩ := h
  refine ⟨world, ?_⟩
  cases result with
  | ok _ => exact .inr (Except.ok.inj h).symm
  | error e => exact .inl (Except.ok.inj h).symm

/-- The rotation is forced without the stored refresh proposals.  A new one is created if
there is a next key. -/
theorem forceChangeAuthorities_cases {origin : Origin AccountId}
    (h : forceChangeAuthorities cfg origin s = .ok s') :
    cfg.forceOrigin origin = true ∧ ∃ rotated,
      changeAuthorities cfg s.nextAuthorities.toList s.nextAuthorities.toList
        s.nextAuthoritiesAccounts.toList s.nextAuthoritiesAccounts.toList true
        (withoutRefresh s) = .ok rotated ∧
      (s.nextDkgPublicKey = none ∧ s' = rotated ∨
        ∃ (key : ℕ × Key L) (p : RefreshProposal)
          (data : BoundedVec UInt8 L.maxProposalLength),
          s.nextDkgPublicKey = some key ∧
          decompressPublicKey cfg.crypto key.2.toList = some p.pubKey ∧
          p.nonce = rotated.refreshNonce ∧
          submitRefresh cfg
            (fun handled =>
              { handled with
                refreshInProgress := true
                refreshNonce := rotated.refreshNonce }) (.unsigned .refresh data)
            { rotated with
              shouldSubmitProposerVote := true
              pendingRefreshProposal := some p } = .ok s') := by
  simp only [forceChangeAuthorities, bind_eq_ok, ensure_eq_ok] at h
  obtain ⟨_, hforce, rotated, hrotated, h⟩ := h
  refine ⟨hforce, rotated, hrotated, ?_⟩
  cases hkey : s.nextDkgPublicKey with
  | none =>
      rw [hkey] at h
      exact .inl ⟨rfl, (Except.ok.inj h).symm⟩
  | some key =>
      rw [hkey] at h
      simp only [bind_eq_ok] at h
      obtain ⟨⟨created, proposal⟩, hcreated, h⟩ := h
      obtain ⟨p, hpub, hnonce, rfl, rfl⟩ := createRefreshProposal_ok hcreated
      exact .inr ⟨key, p, _, rfl, hpub, hnonce, h⟩

theorem forceChangeAuthorities_ok [DecidableEq AccountId] {origin : Origin AccountId}
    (h : forceChangeAuthorities cfg origin s = .ok s') :
    ∃ t, Effect cfg s (.forceChangeAuthorities origin) t ∧ core s' = core t := by
  obtain ⟨hforce, rotated, hrotated, hrefresh⟩ := forceChangeAuthorities_cases h
  obtain ⟨world, next, accounts, best, hnext, haccounts, hbest, hcases⟩ :=
    changeAuthorities_ok hrotated
  obtain rfl : next = s.nextAuthorities := BoundedVec.ext hnext
  obtain rfl : accounts = s.nextAuthoritiesAccounts := BoundedVec.ext haccounts
  rcases hrefresh with ⟨hkey, rfl⟩ | ⟨key, p, data, hkey, hpub, hnonce, hsubmit⟩
  · rcases hcases with ⟨-, rfl⟩ | ⟨key, signature, active, activeAccounts, hkeys, -⟩
    · exact ⟨_, .forcedShift world hforce hkey hbest, rfl⟩
    · simp [rotationKeys, withoutRefresh, hkey] at hkeys
  · rcases hcases with ⟨hkeys, -⟩ | ⟨key', signature, active, activeAccounts, hkeys,
      hactive, hactiveAccounts, rfl⟩
    · simp [rotationKeys, withoutRefresh, hkey] at hkeys
    · simp only [rotationKeys, withoutRefresh, hkey, if_true, Option.some.injEq,
        Prod.mk.injEq] at hkeys
      obtain ⟨rfl, rfl⟩ := hkeys
      obtain rfl : active = s.nextAuthorities := BoundedVec.ext hactive
      obtain rfl : activeAccounts = s.nextAuthoritiesAccounts := BoundedVec.ext hactiveAccounts
      refine ⟨_, .forcedRotation world hforce hkey hbest hpub hnonce, ?_⟩
      obtain ⟨world', rfl | rfl⟩ := submitRefresh_ok hsubmit <;> rfl

theorem doRefresh_cases {pubKey : Bytes} (h : doRefresh cfg pubKey s = .ok s') :
    s' = s ∨ ∃ (p : RefreshProposal) (data : BoundedVec UInt8 L.maxProposalLength),
      decompressPublicKey cfg.crypto pubKey = some p.pubKey ∧
      p.nonce = wrappingAdd 32 s.refreshNonce 1 ∧
      submitRefresh cfg (fun handled => { handled with refreshInProgress := true })
        (.unsigned .refresh data) { s with pendingRefreshProposal := some p } = .ok s' := by
  rw [doRefresh] at h
  split at h
  · exact .inl (Except.ok.inj h).symm
  · cases h
  · rename_i created proposal hcreated
    obtain ⟨p, hpub, hnonce, rfl, rfl⟩ := createRefreshProposal_ok hcreated
    exact .inr ⟨p, _, hpub, hnonce, h⟩

theorem onInitialize_cases {n : ℕ} (h : onInitialize cfg n s = .ok s') :
    ∃ triggered : Bool × Bool, s' = { s with shouldExecuteNewKeygen := triggered } ∨
      ∃ key, s.nextDkgPublicKey = some key ∧ s.nextPublicKeySignature = none ∧
        doRefresh cfg key.2.toList { s with shouldExecuteNewKeygen := triggered } = .ok s' := by
  rw [onInitialize] at h
  split at h
  · rename_i pubKey hkey
    split at h
    · rename_i hrefresh
      simp only [shouldRefresh, Bool.and_eq_true, Option.isNone_iff_eq_none] at hrefresh
      exact ⟨_, .inr ⟨pubKey, hkey, hrefresh.1.2, h⟩⟩
    · exact ⟨_, .inl (Except.ok.inj h).symm⟩
  · exact ⟨_, .inl (Except.ok.inj h).symm⟩

theorem onInitialize_ok [DecidableEq AccountId] {n : ℕ}
    (h : onInitialize cfg n { s with blockNumber := n, digest := [] } = .ok s') :
    ∃ t, Effect cfg s (.initializeBlock n) t ∧ core s' = core t := by
  obtain ⟨triggered, rfl | ⟨key, hkey, hsig, hrefresh⟩⟩ := onInitialize_cases h
  · exact ⟨s, .blockStarted, rfl⟩
  · rcases doRefresh_cases hrefresh with rfl | ⟨p, data, hpub, hnonce, hsubmit⟩
    · exact ⟨s, .blockStarted, rfl⟩
    · refine ⟨_, .refreshCreated hkey hsig hpub hnonce, ?_⟩
      obtain ⟨world, rfl | rfl⟩ := submitRefresh_ok hsubmit <;> rfl

theorem onSignedProposal_ok [DecidableEq AccountId] {proposal : Proposal L}
    (h : onSignedProposal proposal s = .ok s') :
    Effect cfg s (.signedProposal proposal) s' := by
  simp only [onSignedProposal, bind_eq_ok, ensure_eq_ok] at h
  obtain ⟨_, hsigned, h⟩ := h
  split at h
  · rename_i hkind
    simp only [bind_eq_ok, ensure_eq_ok, okOr_eq_ok, BoundedVec.tryFrom_eq_some] at h
    obtain ⟨_, hkey, _, hnone, curr, hpending, _, hdata, signature, hsignature, _, hunused,
      h⟩ := h
    rw [← Except.ok.inj h]
    exact .signedRefresh hsigned hkind hkey hnone hpending hdata hsignature hunused
  · rename_i hkind
    rw [← Except.ok.inj h]
    exact .signedOther hkind

theorem onNewSession_ok [DecidableEq AccountId]
    {validators queued : List (AccountId × Public)}
    (h : onNewSession cfg validators queued s = .ok s') :
    ∃ t, Effect cfg s (.newSession validators queued) t ∧ core s' = core t := by
  obtain ⟨world, next, accounts, best, hnext, -, hbest, hcases⟩ := changeAuthorities_ok h
  rcases hcases with ⟨hkeys, rfl⟩ | ⟨key, signature, active, activeAccounts, hkeys, hactive,
    -, rfl⟩
  · exact ⟨_, .sessionShift world hkeys hnext hbest, rfl⟩
  · cases hkey : s.nextDkgPublicKey with
    | none => simp [rotationKeys, hkey] at hkeys
    | some key' =>
        cases hsig : s.nextPublicKeySignature with
        | none => simp [rotationKeys, hkey, hsig] at hkeys
        | some signature' =>
            simp only [rotationKeys, hkey, hsig, Bool.false_eq_true, if_false,
              Option.map_some, Option.some.injEq, Prod.mk.injEq] at hkeys
            obtain ⟨rfl, rfl⟩ := hkeys
            exact ⟨_, .sessionRotation world hkey hsig hnext hbest hactive, rfl⟩

theorem genesisState_thresholds {genesis : GenesisConfig AccountId}
    {validators : List (AccountId × Public)} {world : World}
    (h : genesisState cfg genesis validators world = .ok s) :
    genesis.signatureThreshold.toNat < genesis.keygenThreshold.toNat ∧
      1 < genesis.keygenThreshold.toNat := by
  simp only [genesisState, GenesisConfig.build, bind_eq_ok] at h
  obtain ⟨built, hbuilt, -⟩ := h
  split at hbuilt
  · rename_i hthresholds
    exact ⟨hthresholds.1, hthresholds.2.1⟩
  · cases hbuilt

theorem genesisState_nil_ok {genesis : GenesisConfig AccountId} {world : World}
    (h : genesisState cfg genesis [] world = .ok s) :
    s = { State.empty world with
      signatureThreshold := genesis.signatureThreshold.toNat
      keygenThreshold := genesis.keygenThreshold.toNat
      nextSignatureThreshold := genesis.signatureThreshold.toNat
      nextKeygenThreshold := genesis.keygenThreshold.toNat
      pendingSignatureThreshold := genesis.signatureThreshold.toNat
      pendingKeygenThreshold := genesis.keygenThreshold.toNat } := by
  simp only [genesisState, GenesisConfig.build, bind_eq_ok] at h
  obtain ⟨built, hbuilt, h⟩ := h
  rw [← Except.ok.inj h]
  split at hbuilt
  · exact (Except.ok.inj hbuilt).symm
  · cases hbuilt

theorem genesisState_ok {genesis : GenesisConfig AccountId}
    {validators : List (AccountId × Public)} {world : World}
    (hvalidators : validators ≠ [])
    (h : genesisState cfg genesis validators world = .ok s) :
    ∃ (world' : World) (authorities : BoundedVec Public L.maxAuthorities)
      (accounts : BoundedVec AccountId L.maxAuthorities)
      (best : BoundedVec (ℕ × Public) L.maxAuthorities),
      authorities.toList = validators.map Prod.snd ∧
      SelectsBest genesis.keygenThreshold.toNat authorities.toList best.toList ∧
      accounts.toList = validators.map Prod.fst ∧
      cfg.onAuthoritySetChanged (validators.map Prod.fst) (validators.map Prod.snd) world =
        .ok world' ∧
      s = { State.empty world' with
        signatureThreshold := genesis.signatureThreshold.toNat
        keygenThreshold := genesis.keygenThreshold.toNat
        nextSignatureThreshold := genesis.signatureThreshold.toNat
        nextKeygenThreshold := genesis.keygenThreshold.toNat
        pendingSignatureThreshold := genesis.signatureThreshold.toNat
        pendingKeygenThreshold := genesis.keygenThreshold.toNat
        authorities := authorities
        nextAuthorities := authorities
        nextAuthoritySetId := 1
        currentAuthoritiesAccounts := accounts
        nextAuthoritiesAccounts := accounts
        bestAuthorities := best
        nextBestAuthorities := best } := by
  have hne : validators.map Prod.snd ≠ [] := by simpa using hvalidators
  simp only [genesisState, GenesisConfig.build, bind_eq_ok] at h
  obtain ⟨built, hbuilt, h⟩ := h
  split at hbuilt
  · rw [← Except.ok.inj hbuilt] at h
    simp only [onGenesisSession, initializeAuthorities, if_neg hne, bind_eq_ok,
      expect_eq_ok, BoundedVec.tryFrom_eq_some] at h
    obtain ⟨_, -, authorities, hauthorities, accounts, haccounts, best, hbest, world',
      hannounced, h⟩ := h
    refine ⟨world', authorities, accounts, best, hauthorities, ?_, haccounts, hannounced,
      (Except.ok.inj h).symm⟩
    rw [hbest, ← hauthorities]
    exact selectsBest_getBestAuthorities _ _ _ _
  · cases hbuilt

theorem dispatch_effect [DecidableEq AccountId] {call : Call L AccountId World}
    (hdispatch : dispatch cfg s call = .ok s') :
    ∃ t, Effect cfg s call t ∧ core s' = core t := by
  cases call with
  | setSignatureThreshold origin t =>
      obtain ⟨hforce, hpos, hlt, rfl⟩ := setSignatureThreshold_ok hdispatch
      exact ⟨_, .setSignatureThreshold hforce hpos hlt, rfl⟩
  | setKeygenThreshold origin t =>
      obtain ⟨hforce, hone, hle, rfl⟩ := setKeygenThreshold_ok hdispatch
      exact ⟨_, .setKeygenThreshold hforce hone hle, rfl⟩
  | submitPublicKey origin keys =>
      obtain ⟨-, hnone, key, reputations, rfl⟩ := submitPublicKey_ok hdispatch
      exact ⟨_, .submitPublicKey hnone, rfl⟩
  | submitNextPublicKey origin keys =>
      obtain ⟨-, hnone, key, reputations, rfl⟩ := submitNextPublicKey_ok hdispatch
      exact ⟨_, .submitNextPublicKey hnone, rfl⟩
  | submitMisbehaviourReports origin reports =>
      exact submitMisbehaviourReports_ok hdispatch
  | unjail origin =>
      obtain ⟨account, authority, -, -, rfl⟩ := unjail_ok hdispatch
      exact ⟨s, .idle rfl, rfl⟩
  | forceUnjailKeygen origin authority =>
      rw [forceUnjailKeygen_ok hdispatch]
      exact ⟨s, .idle rfl, rfl⟩
  | forceUnjailSigning origin authority =>
      rw [forceUnjailSigning_ok hdispatch]
      exact ⟨s, .idle rfl, rfl⟩
  | forceChangeAuthorities origin => exact forceChangeAuthorities_ok hdispatch
  | triggerEmergencyKeygen origin =>
      obtain ⟨hforce, rfl⟩ := triggerEmergencyKeygen_ok hdispatch
      exact ⟨_, .triggerEmergencyKeygen hforce, rfl⟩
  | initializeBlock n => exact onInitialize_ok hdispatch
  | signedProposal proposal => exact ⟨s', onSignedProposal_ok hdispatch, rfl⟩
  | newSession validators queued => exact onNewSession_ok hdispatch
  | disabled index =>
      refine ⟨s, .idle rfl, ?_⟩
      rw [← Except.ok.inj hdispatch]
      rfl
  | environment world =>
      refine ⟨s, .idle rfl, ?_⟩
      rw [← Except.ok.inj hdispatch]
      rfl

theorem step_effect [DecidableEq AccountId] (cfg : Config L AccountId World)
    (s : State L AccountId World) (call : Call L AccountId World) :
    (¬Accepted cfg s call ∧ step cfg s call = s) ∨
      (Accepted cfg s call ∧
        ∃ t, Effect cfg s call t ∧ core (step cfg s call) = core t) := by
  rw [Accepted, step]
  cases hdispatch : dispatch cfg s call with
  | error fault => exact .inl ⟨Bool.false_ne_true, rfl⟩
  | ok s' => exact .inr ⟨rfl, dispatch_effect hdispatch⟩

section Properties

variable [DecidableEq AccountId] {cfg : Config L AccountId World}
variable {s : State L AccountId World} {call : Call L AccountId World}
variable {P : State L AccountId World → Prop} {Q : State L AccountId Unit → Prop}

theorem keeps_step_of_effect (hcore : ∀ t, P t ↔ Q (core t)) (h : P s)
    (heffect : ∀ t, Effect cfg s call t → P t) : P (step cfg s call) := by
  rcases step_effect cfg s call with ⟨-, hsame⟩ | ⟨-, t, ht, hstep⟩
  · rw [hsame]
    exact h
  · rw [hcore, hstep, ← hcore]
    exact heffect t ht

theorem step_iff_of_effect {cond : Prop} (hcore : ∀ t, P t ↔ Q (core t)) (h : P s)
    (heffect : ∀ t, Effect cfg s call t → (P t ↔ cond)) :
    P (step cfg s call) ↔ (Accepted cfg s call → cond) := by
  rcases step_effect cfg s call with ⟨hrejected, hsame⟩ | ⟨haccepted, t, ht, hstep⟩
  · rw [hsame]
    exact iff_of_true h (fun haccepted => absurd haccepted hrejected)
  · rw [hcore, hstep, ← hcore, heffect t ht, forall_prop_of_true haccepted]

end Properties

end DkgSubstrate.MetadataStep
