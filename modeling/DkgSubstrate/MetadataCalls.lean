import DkgSubstrate.Metadata

/-!
The extrinsics, hooks and callbacks of the metadata pallet.
-/

namespace DkgSubstrate.MetadataCalls

open DkgSubstrate.Dispatch
open DkgSubstrate.Metadata
open DkgSubstrate.Primitives
open DkgSubstrate.Words

variable {L : Limits} {AccountId World : Type}
variable (cfg : Config L AccountId World)

def setSignatureThreshold (origin : Origin AccountId) (newThreshold : ℕ)
    (s : State L AccountId World) : Outcome (State L AccountId World) := do
  ensure (cfg.forceOrigin origin = true) .badOrigin
  ensure (0 < newThreshold) (.metadata .invalidThreshold)
  ensure (newThreshold < s.nextAuthorities.length) (.metadata .invalidThreshold)
  .ok { s with pendingSignatureThreshold := newThreshold }

def setKeygenThreshold (origin : Origin AccountId) (newThreshold : ℕ)
    (s : State L AccountId World) : Outcome (State L AccountId World) := do
  ensure (cfg.forceOrigin origin = true) .badOrigin
  ensure (1 < newThreshold) (.metadata .invalidThreshold)
  ensure (newThreshold ≤ s.nextAuthorities.length) (.metadata .invalidThreshold)
  .ok { s with
    pendingSignatureThreshold :=
      if newThreshold ≤ s.pendingSignatureThreshold then newThreshold - 1
      else s.pendingSignatureThreshold
    pendingKeygenThreshold := newThreshold }

def addSubmission (dict : StorageMap Bytes (List Public)) (pubKey : Bytes)
    (authority : Public) : StorageMap Bytes (List Public) :=
  let reporters := dict.getD pubKey []
  dict.insert pubKey
    (if authority ∈ reporters then reporters else reporters ++ [authority])

def processPublicKeySubmissions (authorities : List Public) :
    List (Bytes × Bytes) → StorageMap Bytes (List Public) →
      Outcome (StorageMap Bytes (List Public))
  | [], dict => .ok dict
  | (pubKey, signature) :: rest, dict => do
      let authority ← okOr
        (verifySignerFromSetEcdsa cfg.crypto authorities pubKey signature).1
        (.metadata .cannotRetreiveSigner)
      processPublicKeySubmissions authorities rest (addSubmission dict pubKey authority)

def acceptedKey (dict : StorageMap Bytes (List Public)) (threshold : ℕ) :
    Option (Bytes × List Public) :=
  (dict.iter id).find? fun entry => threshold ≤ entry.2.length

def updateReputations (update : ℕ → ℕ) (authorities : List Public)
    (reputations : StorageMap Public ℕ) : StorageMap Public ℕ :=
  authorities.foldl (fun acc id => acc.insert id (update (acc.getD id 0))) reputations

def decay (reputation : ℕ) : ℕ := cfg.decayPercentage * reputation / 100

def nextUnsignedBlock (s : State L AccountId World) : ℕ :=
  wrappingAdd 32 s.blockNumber cfg.unsignedInterval

def submitPublicKey (origin : Origin AccountId) (keysAndSignatures : List (Bytes × Bytes))
    (s : State L AccountId World) : Outcome (State L AccountId World) := do
  ensure (origin matches .none) .badOrigin
  ensure (s.dkgPublicKey = none) (.metadata .alreadySubmittedPublicKey)
  let dict ← processPublicKeySubmissions cfg s.bestIds keysAndSignatures ∅
  let (key, reporters) ← okOr (acceptedKey dict s.signatureThreshold)
    (.metadata .invalidPublicKeys)
  let boundedKey ← okOr (BoundedVec.tryFrom key) (.metadata .outOfBounds)
  .ok { s with
    dkgPublicKey := some (s.authoritySetId, boundedKey)
    authorityReputations := updateReputations
      (fun reputation => saturatingAdd 128 (decay cfg reputation) initialReputation)
      reporters s.authorityReputations
    nextUnsignedAt := nextUnsignedBlock cfg s }

def submitNextPublicKey (origin : Origin AccountId)
    (keysAndSignatures : List (Bytes × Bytes)) (s : State L AccountId World) :
    Outcome (State L AccountId World) := do
  ensure (origin matches .none) .badOrigin
  ensure (s.nextDkgPublicKey = none) (.metadata .alreadySubmittedPublicKey)
  let dict ← processPublicKeySubmissions cfg s.nextBestIds keysAndSignatures ∅
  let (key, accounts) ← okOr (acceptedKey dict s.nextSignatureThreshold)
    (.metadata .invalidPublicKeys)
  let boundedKey ← okOr (BoundedVec.tryFrom key) (.metadata .outOfBounds)
  .ok { s with
    nextDkgPublicKey := some (s.nextAuthoritySetId, boundedKey)
    authorityReputations := updateReputations
      (fun reputation => saturatingAdd 128 reputation reputationIncrement)
      accounts s.authorityReputations
    nextUnsignedAt := nextUnsignedBlock cfg s
    refreshInProgress := false }

def misbehaviourPayload (reports : AggregatedMisbehaviourReports L) : Bytes :=
  (match reports.misbehaviourType with
    | .keygen => [0x01]
    | .sign => [0x02]) ++
  (toBeBytes 8 reports.sessionId.toNat ++ reports.offender.toList)

/-- The loop over the signatures.  The signer that a signature recovers to is dropped:
the reporter at the same index is taken. -/
def collectReporters (payload : Bytes) (verifyingSet reporters : List Public) :
    List (Signature L × ℕ) → List Public → Outcome (List Public)
  | [], validReporters => .ok validReporters
  | (signature, inx) :: rest, validReporters =>
      if (verifySignerFromSetEcdsa cfg.crypto verifyingSet payload signature.toList).2 then
        match reporters[inx]? with
        | none => .error .panic
        | some reporter =>
            collectReporters payload verifyingSet reporters rest
              (if reporter ∈ validReporters then validReporters
                else validReporters ++ [reporter])
      else collectReporters payload verifyingSet reporters rest validReporters

def processMisbehaviourReports (reports : AggregatedMisbehaviourReports L)
    (verifyingSet : List Public) : Outcome (List Public) :=
  collectReporters cfg (misbehaviourPayload reports)
    (verifyingSet.filter fun x => x ≠ List.Vector.replicate 33 0)
    reports.reporters.toList reports.signatures.toList.zipIdx []

/-- `u16::try_from` with the default for a number that does not fit. -/
def tryIntoU16 (n : ℕ) : ℕ := if n < 2 ^ 16 then n else 0

def unjailedNextBest (s : State L AccountId World) : List Public :=
  (s.nextBestAuthorities.toList.filter fun entry =>
    !s.jailedKeygenAuthorities.containsKey entry.2).map Prod.snd

def replacementCandidates (unjailed : List Public) (s : State L AccountId World) :
    List Public :=
  s.nextAuthorities.toList.filter fun id =>
    !decide (id ∈ unjailed) && !s.jailedKeygenAuthorities.containsKey id

def highestReputationAuthority (reputations : StorageMap Public ℕ)
    (candidates : List Public) (first : Public) : Public :=
  let stored := (reputations.iter fun id =>
    (cfg.crypto.blake2128 id.toList).toList ++ id.toList).filter fun entry =>
      entry.1 ∈ candidates
  match (stored.insertionSort fun a b => a.2 ≤ b.2).getLast? with
  | some entry => entry.1
  | none => first

def setNextBestAuthorities (ids : List Public) (s : State L AccountId World) :
    Outcome (State L AccountId World) := do
  let best ← okOr (BoundedVec.tryFrom (getBestAuthorities s.authorityReputations
    s.jailedKeygenAuthorities s.nextKeygenThreshold ids)) (.metadata .outOfBounds)
  ensure (2 ≤ best.length) (.metadata .notEnoughAuthoritiesToJail)
  .ok { s with nextBestAuthorities := best }

/-- The keygen threshold drops when no authority is left to replace a jailed one. -/
def dropThresholds (unjailed : ℕ) (s : State L AccountId World) :
    State L AccountId World :=
  if unjailed ≤ s.nextKeygenThreshold ∧ 2 < unjailed then
    let newVal := tryIntoU16 (unjailed - 1)
    if newVal ≤ s.nextSignatureThreshold ∧ s.nextSignatureThreshold ≠ 1 then
      { s with
        nextKeygenThreshold := newVal
        pendingKeygenThreshold := newVal
        nextSignatureThreshold := wrappingSub 16 s.nextSignatureThreshold 1
        pendingSignatureThreshold := wrappingSub 16 s.nextSignatureThreshold 1 }
    else
      { s with
        nextKeygenThreshold := newVal
        pendingKeygenThreshold := newVal }
  else s

def punishKeygen (offender : Public) (s : State L AccountId World) :
    Outcome (State L AccountId World) :=
  let unjailed := unjailedNextBest s
  let remaining := unjailed.filter fun id => id ≠ offender
  let delayed := fun s' : State L AccountId World =>
    { s' with nextUnsignedAt := nextUnsignedBlock cfg s }
  if offender ∈ unjailed then
    let jailed : State L AccountId World :=
      { s with
        jailedKeygenAuthorities :=
          s.jailedKeygenAuthorities.insert offender s.blockNumber }
    match replacementCandidates unjailed jailed with
    | first :: others =>
        setNextBestAuthorities (remaining ++
          [highestReputationAuthority cfg s.authorityReputations (first :: others) first])
          jailed
    | [] => (setNextBestAuthorities remaining
        (dropThresholds unjailed.length jailed)).map delayed
  else (setNextBestAuthorities remaining s).map delayed

def punishSigning (offender : Public) (s : State L AccountId World) :
    State L AccountId World :=
  let unjailed := s.bestAuthorities.toList.filter fun entry =>
    !s.jailedSigningAuthorities.containsKey entry.2 || decide (entry.2 ≠ offender)
  let jailed := s.jailedSigningAuthorities.insert offender s.blockNumber
  let newVal := tryIntoU16 (unjailed.length - 1)
  let punished : State L AccountId World :=
    if unjailed.length < s.signatureThreshold then
      if unjailed = [] then s
      else { s with
        jailedSigningAuthorities := jailed
        nextSignatureThreshold := newVal
        pendingSignatureThreshold := newVal }
    else { s with jailedSigningAuthorities := jailed }
  { punished with nextUnsignedAt := nextUnsignedBlock cfg s }

def submitMisbehaviourReports (origin : Origin AccountId)
    (reports : AggregatedMisbehaviourReports L) (s : State L AccountId World) :
    Outcome (State L AccountId World) := do
  ensure (origin matches .none) .badOrigin
  ensure (s.jailedKeygenAuthorities.containsKey reports.offender = false)
    (.metadata .alreadyJailed)
  ensure (s.jailedSigningAuthorities.containsKey reports.offender = false)
    (.metadata .alreadyJailed)
  let authorities := match reports.misbehaviourType with
    | .keygen => s.nextAuthorities
    | .sign => s.authorities
  ensure (reports.offender ∈ authorities.toList) (.metadata .offenderNotAuthority)
  let validReporters ← processMisbehaviourReports cfg reports authorities.toList
  let signatureThreshold := match reports.misbehaviourType with
    | .keygen => s.nextSignatureThreshold
    | .sign => s.signatureThreshold
  ensure (signatureThreshold < validReporters.length)
    (.metadata .invalidMisbehaviourReports)
  let decayed : State L AccountId World :=
    { s with
      authorityReputations := s.authorityReputations.insert reports.offender
        (decay cfg (s.authorityReputations.getD reports.offender 0)) }
  match reports.misbehaviourType with
    | .keygen => punishKeygen cfg reports.offender decayed
    | .sign => .ok (punishSigning cfg reports.offender decayed)

end DkgSubstrate.MetadataCalls
