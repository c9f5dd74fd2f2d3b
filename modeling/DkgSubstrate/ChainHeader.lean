import DkgSubstrate.IncomingMessages
import DkgSubstrate.SetIds

/-!
What the gadget reads of the chain at a finalized header: the authority sets in the digest of
the header, and the answers of the runtime API.
-/

namespace DkgSubstrate.ChainHeader

open DkgSubstrate.IncomingMessages
open DkgSubstrate.Metadata
open DkgSubstrate.Primitives
open DkgSubstrate.SetIds
open DkgSubstrate.Words

structure AnticipatedKeygenExecutionStatus where
  execute : Bool
  forceExecute : Bool
deriving DecidableEq

/-- `validatorSet` are the active and the queued set, if they can be read. -/
structure FinalizedHeader (L : Limits) where
  number : ℕ
  validatorSet : Option (AuthoritySet L × AuthoritySet L)
  dkgPubKey : ℕ × Bytes
  nextDkgPubKey : Option (ℕ × Bytes)
  shouldExecuteNewKeygen : AnticipatedKeygenExecutionStatus
  signatureThreshold : ℕ
  nextSignatureThreshold : ℕ
  bestAuthorities : List (ℕ × Public)
  nextBestAuthorities : List (ℕ × Public)
deriving DecidableEq

namespace FinalizedHeader

variable {L : Limits} (header : FinalizedHeader L)

def dkgPubKeyIsUnset : Bool := header.dkgPubKey.2.isEmpty

def partyIndex (authority : Public) (authorities : List (ℕ × Public)) : Option ℕ :=
  (authorities.find? fun elt => elt.2 = authority).map Prod.fst

def getPartyIndex (authority : Public) : Option ℕ :=
  partyIndex authority header.bestAuthorities

def getNextPartyIndex (authority : Public) : Option ℕ :=
  partyIndex authority header.nextBestAuthorities

end FinalizedHeader

section Chain

variable {L : Limits} {AccountId World : Type}

def chainNode (s : State L AccountId World) : Node L where
  latestHeader := some ⟨s.digest⟩
  authoritySet _ := some s.authoritySet
  queuedAuthoritySet _ := some (queuedAuthoritySet s)

def headerOf (s : State L AccountId World) : FinalizedHeader L where
  number := s.blockNumber
  validatorSet := validatorSetInner (chainNode s) ⟨s.digest⟩
  dkgPubKey := (s.currentKey.1, s.currentKey.2.toList)
  nextDkgPubKey := s.nextDkgPublicKey.map fun key => (key.1, key.2.toList)
  shouldExecuteNewKeygen := ⟨s.shouldExecuteNewKeygen.1, s.shouldExecuteNewKeygen.2⟩
  signatureThreshold := s.signatureThreshold
  nextSignatureThreshold := s.nextSignatureThreshold
  bestAuthorities := s.bestAuthorities.toList
  nextBestAuthorities := s.nextBestAuthorities.toList

/-- The sets of a header can always be read.  A change that the header announces goes before
the sets in the state. -/
def announced (s : State L AccountId World) : AuthoritySet L × AuthoritySet L :=
  (findAuthoritiesChange ⟨s.digest⟩).getD (s.authoritySet, queuedAuthoritySet s)

theorem validatorSet_headerOf (s : State L AccountId World) :
    (headerOf s).validatorSet = some (announced s) := by
  simp only [headerOf, validatorSetInner, announced, chainNode]
  cases findAuthoritiesChange ⟨s.digest⟩ with
  | none => rfl
  | some sets => rfl

end Chain

end DkgSubstrate.ChainHeader
