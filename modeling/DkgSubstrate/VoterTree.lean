import DkgSubstrate.Primitives

/-!
The Merkle tree over a voter set.  `none` stands for an index that is out of bounds
and for a padding loop that never meets its length.
-/

namespace DkgSubstrate.VoterTree

open DkgSubstrate.Words
open DkgSubstrate.Primitives

def twoSaturatingPow (height : ℕ) : ℕ := min (2 ^ height) (2 ^ 32 - 1)

/-- The loop that counts the height up.  At height 32 the saturating power is at least
every voter count. -/
def heightLoop (voterCount : ℕ) : ℕ → ℕ → ℕ
  | 0, height => height
  | fuel + 1, height =>
      if twoSaturatingPow height < truncate 32 voterCount then
        heightLoop voterCount fuel (height + 1)
      else height

def getVoterSetTreeHeight (voterCount : ℕ) : ℕ :=
  if voterCount = 1 then 1 else heightLoop voterCount 33 0

variable (crypto : Crypto) (toMerkleLeaf : Public → Bytes)

def preProcessForMerkleize (voters : List Public) : Option (List (FixedBytes 32)) :=
  let height := getVoterSetTreeHeight voters.length
  let baseLayer := voters.map fun account => crypto.keccak256 (toMerkleLeaf account)
  if baseLayer.length ≤ twoSaturatingPow height then
    some (baseLayer ++ List.replicate (twoSaturatingPow height - baseLayer.length)
      (crypto.keccak256 [0]))
  else none

def nextLayer : List (FixedBytes 32) → Option (List (FixedBytes 32))
  | [] => some []
  | [_] => none
  | left :: right :: rest =>
      (nextLayer rest).map fun layer =>
        crypto.keccak256 (left.toList ++ right.toList) :: layer

def climb : ℕ → List (FixedBytes 32) → Option (List (FixedBytes 32))
  | 0, layer => some layer
  | height + 1, layer => (nextLayer crypto layer).bind (climb height)

def getVoterSetTreeRoot (voters : List Public) : Option (FixedBytes 32) :=
  ((preProcessForMerkleize crypto toMerkleLeaf voters).bind
    (climb crypto (getVoterSetTreeHeight voters.length))).bind List.head?

end DkgSubstrate.VoterTree
