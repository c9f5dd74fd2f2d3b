import DkgSubstrate.MetadataRotation
import DkgSubstrate.Runs

/-!
What a call can do to the keys, thresholds, authorities and refresh proposals.
-/

namespace DkgSubstrate.MetadataEffects

open DkgSubstrate.Metadata
open DkgSubstrate.MetadataCalls
open DkgSubstrate.MetadataRotation
open DkgSubstrate.Primitives
open DkgSubstrate.Proposals
open DkgSubstrate.Words

variable {L : Limits} {AccountId World : Type}
variable (cfg : Config L AccountId World)

/-- The state without what the rotation only passes through: the block, the flags for
the gadget, the jails, the reputations and the other pallets. -/
def core (s : State L AccountId World) : State L AccountId Unit :=
  { s with
    blockNumber := 0
    digest := []
    nextUnsignedAt := 0
    refreshInProgress := false
    shouldExecuteNewKeygen := (false, false)
    shouldSubmitProposerVote := false
    accountToAuthority := ∅
    authorityReputations := ∅
    jailedKeygenAuthorities := ∅
    jailedSigningAuthorities := ∅
    lastSessionRotationBlock := 0
    world := () }

def idle : Call L AccountId World → Bool
  | .unjail _ => true
  | .forceUnjailKeygen _ _ => true
  | .forceUnjailSigning _ _ => true
  | .disabled _ => true
  | .environment _ => true
  | _ => false

def withPending (proposal : RefreshProposal) (s : State L AccountId World) :
    State L AccountId World :=
  { s with pendingRefreshProposal := some proposal }

variable [DecidableEq AccountId]

/-- Whether a call is executed, and not rolled back. -/
def Accepted (s : State L AccountId World) (call : Call L AccountId World) : Prop :=
  (dispatch cfg s call).isOk = true

inductive Effect (s : State L AccountId World) :
    Call L AccountId World → State L AccountId World → Prop
  | idle {call} (h : idle call = true) : Effect s call s
  | setSignatureThreshold {origin} {t : UInt16}
      (hforce : cfg.forceOrigin origin = true) (hpos : 0 < t.toNat)
      (hlt : t.toNat < s.nextAuthorities.length) :
      Effect s (.setSignatureThreshold origin t)
        { s with pendingSignatureThreshold := t.toNat }
  | setKeygenThreshold {origin} {t : UInt16}
      (hforce : cfg.forceOrigin origin = true) (hone : 1 < t.toNat)
      (hle : t.toNat ≤ s.nextAuthorities.length) :
      Effect s (.setKeygenThreshold origin t)
        { s with
          pendingSignatureThreshold :=
            if t.toNat ≤ s.pendingSignatureThreshold then t.toNat - 1
            else s.pendingSignatureThreshold
          pendingKeygenThreshold := t.toNat }
  | submitPublicKey {origin keys} {key : Key L} (hnone : s.dkgPublicKey = none) :
      Effect s (.submitPublicKey origin keys)
        { s with dkgPublicKey := some (s.authoritySetId, key) }
  | submitNextPublicKey {origin keys} {key : Key L} (hnone : s.nextDkgPublicKey = none) :
      Effect s (.submitNextPublicKey origin keys)
        { s with nextDkgPublicKey := some (s.nextAuthoritySetId, key) }
  | keygenReplaced {origin reports} {candidate : Public}
      {best : BoundedVec (ℕ × Public) L.maxAuthorities}
      (htype : reports.misbehaviourType = .keygen)
      (hmem : reports.offender ∈ unjailedNextBest s)
      (hcandidate : candidate ∈ replacementCandidates (unjailedNextBest s) s)
      (hbest : SelectsBest s.nextKeygenThreshold
        ((unjailedNextBest s).filter (fun id => id ≠ reports.offender) ++ [candidate])
        best.toList) :
      Effect s (.submitMisbehaviourReports origin reports)
        { s with nextBestAuthorities := best }
  | keygenDropped {origin reports} {best : BoundedVec (ℕ × Public) L.maxAuthorities}
      (htype : reports.misbehaviourType = .keygen)
      (hmem : reports.offender ∈ unjailedNextBest s)
      (hnone : replacementCandidates (unjailedNextBest s) s = [])
      (hbest : SelectsBest
        (dropThresholds (unjailedNextBest s).length s).nextKeygenThreshold
        ((unjailedNextBest s).filter fun id => id ≠ reports.offender) best.toList)
      (htwo : 2 ≤ best.length) :
      Effect s (.submitMisbehaviourReports origin reports)
        (let dropped := dropThresholds (unjailedNextBest s).length s
        { s with
          nextKeygenThreshold := dropped.nextKeygenThreshold
          pendingKeygenThreshold := dropped.pendingKeygenThreshold
          nextSignatureThreshold := dropped.nextSignatureThreshold
          pendingSignatureThreshold := dropped.pendingSignatureThreshold
          nextBestAuthorities := best })
  | keygenOutside {origin reports} {best : BoundedVec (ℕ × Public) L.maxAuthorities}
      (htype : reports.misbehaviourType = .keygen)
      (hmem : reports.offender ∉ unjailedNextBest s)
      (hbest : SelectsBest s.nextKeygenThreshold (unjailedNextBest s) best.toList) :
      Effect s (.submitMisbehaviourReports origin reports)
        { s with nextBestAuthorities := best }
  | signReport {origin reports} {nextThreshold pendingThreshold : ℕ}
      (htype : reports.misbehaviourType = .sign) :
      Effect s (.submitMisbehaviourReports origin reports)
        { s with
          nextSignatureThreshold := nextThreshold
          pendingSignatureThreshold := pendingThreshold }
  | forcedShift {origin best} (world : World) (hforce : cfg.forceOrigin origin = true)
      (hkey : s.nextDkgPublicKey = none)
      (hbest : SelectsBest
        (repairKeygenThreshold s.nextAuthorities.length s.pendingKeygenThreshold)
        s.nextAuthorities.toList best.toList) :
      Effect s (.forceChangeAuthorities origin)
        (shiftNext world s.nextAuthorities s.nextAuthoritiesAccounts best
          (withoutRefresh s))
  | forcedRotation {origin best} (world : World) {key : ℕ × Key L} {proposal : RefreshProposal}
      (hforce : cfg.forceOrigin origin = true)
      (hkey : s.nextDkgPublicKey = some key)
      (hbest : SelectsBest
        (repairKeygenThreshold s.nextAuthorities.length s.pendingKeygenThreshold)
        s.nextAuthorities.toList best.toList)
      (hpub : decompressPublicKey cfg.crypto key.2.toList = some proposal.pubKey)
      (hnonce : proposal.nonce = saturatingAdd 32 s.refreshNonce 1) :
      Effect s (.forceChangeAuthorities origin)
        (withPending proposal
          (activate s.nextAuthorities s.nextAuthoritiesAccounts key default
            (withoutRefresh s)
            (shiftNext world s.nextAuthorities s.nextAuthoritiesAccounts best
              (withoutRefresh s))))
  | triggerEmergencyKeygen {origin} (hforce : cfg.forceOrigin origin = true) :
      Effect s (.triggerEmergencyKeygen origin)
        { s with
          nextDkgPublicKey := none
          nextPublicKeySignature := none }
  | blockStarted {n} : Effect s (.initializeBlock n) s
  | refreshCreated {n} {key : ℕ × Key L} {proposal : RefreshProposal}
      (hkey : s.nextDkgPublicKey = some key) (hsig : s.nextPublicKeySignature = none)
      (hpub : decompressPublicKey cfg.crypto key.2.toList = some proposal.pubKey)
      (hnonce : proposal.nonce = wrappingAdd 32 s.refreshNonce 1) :
      Effect s (.initializeBlock n) (withPending proposal s)
  | signedOther {proposal} (hkind : proposal.kind ≠ .refresh) :
      Effect s (.signedProposal proposal) s
  | signedRefresh {proposal} {curr : RefreshProposal} {signature : Signature L}
      (hsigned : proposal.isSigned = true) (hkind : proposal.kind = .refresh)
      (hkey : s.nextDkgPublicKey.isSome = true) (hnone : s.nextPublicKeySignature = none)
      (hpending : s.pendingRefreshProposal = some curr)
      (hdata : curr.encode = proposal.data)
      (hsignature : signature.toList = proposal.signature.getD [])
      (hunused : signature ∉ s.usedSignatures.toList) :
      Effect s (.signedProposal proposal)
        { s with
          nextPublicKeySignature := some signature
          currentRefreshProposal := some curr
          pendingRefreshProposal := none }
  | sessionShift {validators queued nextAuthorities nextAccounts best} (world : World)
      (hkeys : rotationKeys false s = none)
      (hnext : nextAuthorities.toList = queued.map Prod.snd)
      (hbest : SelectsBest
        (repairKeygenThreshold nextAuthorities.length s.pendingKeygenThreshold)
        nextAuthorities.toList best.toList) :
      Effect s (.newSession validators queued)
        (shiftNext world nextAuthorities nextAccounts best s)
  | sessionRotation {validators queued nextAuthorities nextAccounts best}
      (world : World) {authorities accounts} {key : ℕ × Key L} {signature : Signature L}
      (hkey : s.nextDkgPublicKey = some key)
      (hsig : s.nextPublicKeySignature = some signature)
      (hnext : nextAuthorities.toList = queued.map Prod.snd)
      (hbest : SelectsBest
        (repairKeygenThreshold nextAuthorities.length s.pendingKeygenThreshold)
        nextAuthorities.toList best.toList)
      (hactive : authorities.toList = validators.map Prod.snd) :
      Effect s (.newSession validators queued)
        (activate authorities accounts key signature s
          (shiftNext world nextAuthorities nextAccounts best s))

end DkgSubstrate.MetadataEffects
