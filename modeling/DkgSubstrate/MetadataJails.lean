import DkgSubstrate.MetadataStep

/-!
What the calls of the metadata pallet do to the block number, the delay of unsigned calls, the
jails and the block of the last rotation, all of which the core of the state leaves out.
-/

namespace DkgSubstrate.MetadataJails

open DkgSubstrate.Dispatch
open DkgSubstrate.Metadata
open DkgSubstrate.MetadataCalls
open DkgSubstrate.MetadataEffects
open DkgSubstrate.MetadataRotation
open DkgSubstrate.MetadataStep
open DkgSubstrate.Primitives

variable {L : Limits} {AccountId World : Type}

structure Outer (AccountId : Type) where
  blockNumber : ℕ
  nextUnsignedAt : ℕ
  lastSessionRotationBlock : ℕ
  accountToAuthority : StorageMap AccountId Public
  jailedKeygenAuthorities : StorageMap Public ℕ
  jailedSigningAuthorities : StorageMap Public ℕ

def outer (s : State L AccountId World) : Outer AccountId where
  blockNumber := s.blockNumber
  nextUnsignedAt := s.nextUnsignedAt
  lastSessionRotationBlock := s.lastSessionRotationBlock
  accountToAuthority := s.accountToAuthority
  jailedKeygenAuthorities := s.jailedKeygenAuthorities
  jailedSigningAuthorities := s.jailedSigningAuthorities

/-- Whether accepted reports put the offender into a jail.  For keygen it has to be among the
next best authorities; for signing there have to be best authorities. -/
def jails (reports : AggregatedMisbehaviourReports L) (s : State L AccountId World) : Bool :=
  match reports.misbehaviourType with
  | .keygen => (unjailedNextBest s).contains reports.offender
  | .sign => !s.bestAuthorities.toList.isEmpty || s.signatureThreshold == 0

/-- Whether accepted reports replace the offender by another authority. -/
def replaces (reports : AggregatedMisbehaviourReports L) (s : State L AccountId World) :
    Bool :=
  match reports.misbehaviourType with
  | .keygen => (unjailedNextBest s).contains reports.offender &&
      !(replacementCandidates (unjailedNextBest s) s).isEmpty
  | .sign => false

variable (cfg : Config L AccountId World)

def afterReports (reports : AggregatedMisbehaviourReports L) (s : State L AccountId World) :
    Outer AccountId :=
  { outer s with
    nextUnsignedAt := if replaces reports s then s.nextUnsignedAt else nextUnsignedBlock cfg s
    jailedKeygenAuthorities :=
      if reports.misbehaviourType = .keygen ∧ jails reports s = true then
        s.jailedKeygenAuthorities.insert reports.offender s.blockNumber
      else s.jailedKeygenAuthorities
    jailedSigningAuthorities :=
      if reports.misbehaviourType = .sign ∧ jails reports s = true then
        s.jailedSigningAuthorities.insert reports.offender s.blockNumber
      else s.jailedSigningAuthorities }

variable {cfg} {s s' : State L AccountId World}

theorem outer_dropThresholds (unjailed : ℕ) (best : BoundedVec (ℕ × Public) L.maxAuthorities)
    (unsignedAt : ℕ) :
    outer { dropThresholds unjailed s with
        nextBestAuthorities := best
        nextUnsignedAt := unsignedAt } =
      { outer s with nextUnsignedAt := unsignedAt } := by
  have heq : dropThresholds unjailed s = _ :=
    dropThresholds_eq unjailed s.authorityReputations s.jailedKeygenAuthorities
  rw [heq]
  rfl

theorem punishKeygen_outer {reports : AggregatedMisbehaviourReports L}
    {reputations : StorageMap Public ℕ} (htype : reports.misbehaviourType = .keygen)
    (h : punishKeygen cfg reports.offender
      { s with authorityReputations := reputations } = .ok s') :
    outer s' = afterReports cfg reports s := by
  rw [punishKeygen] at h
  dsimp only at h
  split at h
  · rename_i hmem
    have hmem' : reports.offender ∈ unjailedNextBest s := hmem
    rw [replacementCandidates_jailed hmem] at h
    split at h
    · rename_i first others hcandidates
      have hsome : replacementCandidates (unjailedNextBest s) s = first :: others := hcandidates
      obtain ⟨best, -, -, rfl⟩ := setNextBestAuthorities_ok h
      simp [afterReports, outer, jails, replaces, htype, hmem', hsome]
    · rename_i hcandidates
      have hnone : replacementCandidates (unjailedNextBest s) s = [] := hcandidates
      obtain ⟨t, ht, rfl⟩ := map_eq_ok.mp h
      obtain ⟨best, -, -, rfl⟩ := setNextBestAuthorities_ok ht
      refine (outer_dropThresholds _ best _).trans ?_
      simp [afterReports, outer, jails, replaces, htype, hmem', hnone, nextUnsignedBlock]
  · rename_i hmem
    have hmem' : reports.offender ∉ unjailedNextBest s := hmem
    obtain ⟨t, ht, rfl⟩ := map_eq_ok.mp h
    obtain ⟨best, -, -, rfl⟩ := setNextBestAuthorities_ok ht
    simp [afterReports, outer, jails, replaces, htype, hmem', nextUnsignedBlock]

/-- An offender that is not yet jailed takes no authority out of the best ones. -/
theorem filter_unjailedSigning {offender : Public}
    (hfree : s.jailedSigningAuthorities.containsKey offender = false) :
    (s.bestAuthorities.toList.filter fun entry =>
      !s.jailedSigningAuthorities.containsKey entry.2 || decide (entry.2 ≠ offender)) =
      s.bestAuthorities.toList := by
  apply List.filter_eq_self.mpr
  intro entry _
  by_cases hentry : entry.2 = offender
  · simp [hentry, hfree]
  · simp [hentry]

theorem punishSigning_outer {reports : AggregatedMisbehaviourReports L}
    {reputations : StorageMap Public ℕ} (htype : reports.misbehaviourType = .sign)
    (hfree : s.jailedSigningAuthorities.containsKey reports.offender = false) :
    outer (punishSigning cfg reports.offender { s with authorityReputations := reputations }) =
      afterReports cfg reports s := by
  rw [punishSigning]
  dsimp only
  rw [filter_unjailedSigning hfree]
  split
  · rename_i hfew
    have hpos : s.signatureThreshold ≠ 0 := by omega
    split
    · rename_i hnone
      simp [afterReports, outer, jails, replaces, htype, hnone, hpos, nextUnsignedBlock]
    · rename_i hsome
      simp [afterReports, outer, jails, replaces, htype, hsome, nextUnsignedBlock]
  · rename_i hmany
    have hjails : s.bestAuthorities.toList ≠ [] ∨ s.signatureThreshold = 0 := by
      cases hbest : s.bestAuthorities.toList with
      | nil =>
          rw [hbest, List.length_nil] at hmany
          exact .inr (by omega)
      | cons entry rest => exact .inl (List.cons_ne_nil entry rest)
    simp [afterReports, outer, jails, replaces, htype, hjails, nextUnsignedBlock]

theorem submitMisbehaviourReports_outer {origin : Origin AccountId}
    {reports : AggregatedMisbehaviourReports L}
    (h : submitMisbehaviourReports cfg origin reports s = .ok s') :
    s.jailedKeygenAuthorities.containsKey reports.offender = false ∧
      s.jailedSigningAuthorities.containsKey reports.offender = false ∧
      outer s' = afterReports cfg reports s := by
  obtain ⟨-, hkeygen, hsigning, reputations, ⟨htype, h⟩ | ⟨htype, rfl⟩⟩ :=
    submitMisbehaviourReports_cases h
  · exact ⟨hkeygen, hsigning, punishKeygen_outer htype h⟩
  · exact ⟨hkeygen, hsigning, punishSigning_outer htype hsigning⟩

def quiet : Call L AccountId World → Bool
  | .setSignatureThreshold _ _ => true
  | .setKeygenThreshold _ _ => true
  | .forceChangeAuthorities _ => true
  | .triggerEmergencyKeygen _ => true
  | .signedProposal _ => true
  | .disabled _ => true
  | .environment _ => true
  | _ => false

def submitsKey : Call L AccountId World → Bool
  | .submitPublicKey _ _ => true
  | .submitNextPublicKey _ _ => true
  | _ => false

variable (cfg) in
inductive OuterEffect [DecidableEq AccountId] (s : State L AccountId World) :
    Call L AccountId World → Outer AccountId → Prop
  | kept {call} (hquiet : quiet call = true) : OuterEffect s call (outer s)
  | keySubmitted {call} (hsubmits : submitsKey call = true) :
      OuterEffect s call { outer s with nextUnsignedAt := nextUnsignedBlock cfg s }
  | reported {origin reports}
      (hkeygen : s.jailedKeygenAuthorities.containsKey reports.offender = false)
      (hsigning : s.jailedSigningAuthorities.containsKey reports.offender = false) :
      OuterEffect s (.submitMisbehaviourReports origin reports) (afterReports cfg reports s)
  | unjailed {account authority}
      (hcontroller : s.accountToAuthority.lookup account = some authority) :
      OuterEffect s (.unjail (.signed account))
        { outer s with
          jailedKeygenAuthorities := releaseAfter s.blockNumber cfg.keygenJailSentence
            authority s.jailedKeygenAuthorities
          jailedSigningAuthorities := releaseAfter s.blockNumber cfg.signingJailSentence
            authority s.jailedSigningAuthorities }
  | forcedKeygen {origin authority} :
      OuterEffect s (.forceUnjailKeygen origin authority)
        { outer s with
          jailedKeygenAuthorities := s.jailedKeygenAuthorities.erase authority }
  | forcedSigning {origin authority} :
      OuterEffect s (.forceUnjailSigning origin authority)
        { outer s with
          jailedSigningAuthorities := s.jailedSigningAuthorities.erase authority }
  | blockStarted {n} : OuterEffect s (.initializeBlock n) { outer s with blockNumber := n }
  | sessionStarted {validators queued} :
      OuterEffect s (.newSession validators queued)
        { outer s with
          accountToAuthority := (validators ++ queued).foldl
            (fun acc entry => acc.insert entry.1 entry.2) s.accountToAuthority
          lastSessionRotationBlock := s.blockNumber }

theorem changeAuthorities_outer {newIds nextIds : List Public}
    {newAccounts nextAccounts : List AccountId} {forced : Bool}
    (h : changeAuthorities cfg newIds nextIds newAccounts nextAccounts forced s = .ok s') :
    outer s' = outer s := by
  obtain ⟨world, next, accounts, best, -, -, -, hcases⟩ := changeAuthorities_ok h
  rcases hcases with ⟨-, rfl⟩ | ⟨key, signature, active, activeAccounts, -, -, -, rfl⟩
  · rfl
  · rfl

theorem forceChangeAuthorities_outer {origin : Origin AccountId}
    (h : forceChangeAuthorities cfg origin s = .ok s') : outer s' = outer s := by
  obtain ⟨-, rotated, hrotated, hrefresh⟩ := forceChangeAuthorities_cases h
  have houter := changeAuthorities_outer hrotated
  change outer s' = outer (withoutRefresh s)
  rw [← houter]
  rcases hrefresh with ⟨-, rfl⟩ | ⟨key, p, proposal, -, -, -, hsubmit⟩
  · rfl
  · obtain ⟨world, rfl | rfl⟩ := submitRefresh_ok hsubmit <;> rfl

theorem onInitialize_outer {n : ℕ} (h : onInitialize cfg n s = .ok s') : outer s' = outer s := by
  obtain ⟨triggered, rfl | ⟨key, -, -, hrefresh⟩⟩ := onInitialize_cases h
  · rfl
  · rcases doRefresh_cases hrefresh with rfl | ⟨p, data, -, -, hsubmit⟩
    · rfl
    · obtain ⟨world, rfl | rfl⟩ := submitRefresh_ok hsubmit <;> rfl

theorem dispatch_outer [DecidableEq AccountId] {call : Call L AccountId World}
    (h : dispatch cfg s call = .ok s') : OuterEffect cfg s call (outer s') := by
  cases call with
  | setSignatureThreshold origin t =>
      obtain ⟨-, -, -, rfl⟩ := setSignatureThreshold_ok h
      exact .kept rfl
  | setKeygenThreshold origin t =>
      obtain ⟨-, -, -, rfl⟩ := setKeygenThreshold_ok h
      exact .kept rfl
  | submitPublicKey origin keys =>
      obtain ⟨-, -, key, reputations, rfl⟩ := submitPublicKey_ok h
      exact .keySubmitted rfl
  | submitNextPublicKey origin keys =>
      obtain ⟨-, -, key, reputations, rfl⟩ := submitNextPublicKey_ok h
      exact .keySubmitted rfl
  | submitMisbehaviourReports origin reports =>
      obtain ⟨hkeygen, hsigning, houter⟩ := submitMisbehaviourReports_outer h
      rw [houter]
      exact .reported hkeygen hsigning
  | unjail origin =>
      obtain ⟨account, authority, rfl, hcontroller, rfl⟩ := unjail_ok h
      exact .unjailed hcontroller
  | forceUnjailKeygen origin authority =>
      rw [forceUnjailKeygen_ok h]
      exact .forcedKeygen
  | forceUnjailSigning origin authority =>
      rw [forceUnjailSigning_ok h]
      exact .forcedSigning
  | forceChangeAuthorities origin =>
      rw [forceChangeAuthorities_outer h]
      exact .kept rfl
  | triggerEmergencyKeygen origin =>
      obtain ⟨-, rfl⟩ := triggerEmergencyKeygen_ok h
      exact .kept rfl
  | initializeBlock n =>
      rw [onInitialize_outer h]
      exact .blockStarted
  | signedProposal proposal =>
      have heffect : Effect cfg s (.signedProposal proposal) s' := onSignedProposal_ok h
      cases heffect <;> exact .kept rfl
  | newSession validators queued =>
      have houter := changeAuthorities_outer h
      rw [houter]
      exact .sessionStarted
  | disabled index =>
      rw [← Except.ok.inj h]
      exact .kept rfl
  | environment world =>
      rw [← Except.ok.inj h]
      exact .kept rfl

end DkgSubstrate.MetadataJails
