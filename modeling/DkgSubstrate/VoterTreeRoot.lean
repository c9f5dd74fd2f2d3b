import DkgSubstrate.Loops
import DkgSubstrate.Merkle
import DkgSubstrate.SampleRuntime

/-!
The Merkle tree over a voter set: its height, its base layer and its root.
-/

namespace DkgSubstrate.VoterTreeRoot

open DkgSubstrate.Loops
open DkgSubstrate.Merkle
open DkgSubstrate.Primitives
open DkgSubstrate.SampleRuntime
open DkgSubstrate.VoterTree
open DkgSubstrate.Words

def growing (voterCount height : ℕ) : Bool :=
  decide (twoSaturatingPow height < truncate 32 voterCount)

def unpadded (height : ℕ) (layer : List (FixedBytes 32)) : Bool :=
  decide (layer.length ≠ twoSaturatingPow height)

def pad (crypto : Crypto) (layer : List (FixedBytes 32)) : List (FixedBytes 32) :=
  layer ++ [crypto.keccak256 [0]]

theorem twoSaturatingPow_of_le {height : ℕ} (h : height ≤ 31) :
    twoSaturatingPow height = 2 ^ height := by
  have hpow : 2 ^ height ≤ 2 ^ 31 := Nat.pow_le_pow_right Nat.two_pos h
  rw [twoSaturatingPow]
  omega

theorem growing_of_lt {voterCount height : ℕ} (hcount : voterCount < 2 ^ 31) :
    growing voterCount height = true ↔ 2 ^ height < voterCount := by
  have hcount32 : truncate 32 voterCount = voterCount := truncate_of_lt (by omega)
  rw [growing, decide_eq_true_iff, hcount32, twoSaturatingPow]
  omega

theorem exits_heightLoop {voterCount fuel height : ℕ} (h : 32 < height + fuel) :
    Exits (growing voterCount) (fun height => height + 1) height
      (heightLoop voterCount fuel height) := by
  induction fuel generalizing height with
  | zero =>
      have hbound : truncate 32 voterCount < 2 ^ 32 := Nat.mod_lt _ (by decide)
      have hpow : 2 ^ 32 ≤ 2 ^ height := Nat.pow_le_pow_right Nat.two_pos (by omega)
      refine .done (decide_eq_false ?_)
      rw [twoSaturatingPow]
      omega
  | succ fuel ih =>
      rw [heightLoop]
      split
      · rename_i hgrowing
        exact .next (decide_eq_true hgrowing) (ih (by omega))
      · rename_i hstop
        exact .done (decide_eq_false hstop)

theorem isLeast_of_exits {voterCount height : ℕ} (hcount : voterCount < 2 ^ 31)
    (h : Exits (growing voterCount) (fun height => height + 1) 0 height) :
    voterCount ≤ 2 ^ height ∧ ∀ k, voterCount ≤ 2 ^ k → height ≤ k := by
  have hbody : ∀ height, growing voterCount height = true →
      (∀ k < height, 2 ^ k < voterCount) → ∀ k < height + 1, 2 ^ k < voterCount := by
    intro height hgrowing hinv k hk
    rcases Nat.lt_succ_iff_lt_or_eq.mp hk with hlt | rfl
    · exact hinv k hlt
    · exact (growing_of_lt hcount).mp hgrowing
  obtain ⟨hbelow, hstop⟩ := h.invariant hbody fun k hk => absurd hk (Nat.not_lt_zero k)
  refine ⟨?_, ?_⟩
  · rw [← Bool.not_eq_true, growing_of_lt hcount, Nat.not_lt] at hstop
    exact hstop
  · intro k hk
    by_contra hlt
    exact absurd (hbelow k (Nat.not_le.mp hlt)) (Nat.not_lt.mpr hk)

theorem exits_pad (crypto : Crypto) {height : ℕ} {layer : List (FixedBytes 32)}
    (h : layer.length ≤ twoSaturatingPow height) :
    Exits (unpadded height) (pad crypto) layer
      (layer ++ List.replicate (twoSaturatingPow height - layer.length)
        (crypto.keccak256 [0])) := by
  generalize hmissing : twoSaturatingPow height - layer.length = missing
  induction missing generalizing layer with
  | zero =>
      rw [List.replicate_zero, List.append_nil]
      exact .done (decide_eq_false (by omega))
  | succ missing ih =>
      refine .next (decide_eq_true (by omega)) ?_
      have hlength : (pad crypto layer).length = layer.length + 1 := by simp [pad]
      have hrest := @ih (pad crypto layer) (by omega) (by omega)
      rwa [pad, List.append_assoc, List.singleton_append, ← List.replicate_succ] at hrest

def hashNode (crypto : Crypto) (left right : FixedBytes 32) : FixedBytes 32 :=
  crypto.keccak256 (left.toList ++ right.toList)

def leafLayer (crypto : Crypto) (toMerkleLeaf : Public → Bytes) (voters : List Public) :
    List (FixedBytes 32) :=
  voters.map fun account => crypto.keccak256 (toMerkleLeaf account)

/-- What is hashed above the base layer. -/
def hashedInputs (crypto : Crypto) (toMerkleLeaf : Public → Bytes) (voters : List Public) :
    List Bytes :=
  (ascentPairs (hashNode crypto) (getVoterSetTreeHeight voters.length)
    ((preProcessForMerkleize crypto toMerkleLeaf voters).getD [])).map fun pair =>
      pair.1.toList ++ pair.2.toList

/-- The tree over the voters with its base layer and its root. -/
structure IsVoterTree (crypto : Crypto) (toMerkleLeaf : Public → Bytes) (voters : List Public)
    (base : List (FixedBytes 32)) (root : FixedBytes 32) : Prop where
  height_single : voters.length = 1 → getVoterSetTreeHeight voters.length = 1
  height_exits : voters.length ≠ 1 → Exits (growing voters.length) (fun height => height + 1) 0
    (getVoterSetTreeHeight voters.length)
  height_least : voters.length ≠ 1 →
    voters.length ≤ 2 ^ getVoterSetTreeHeight voters.length ∧
      ∀ k, voters.length ≤ 2 ^ k → getVoterSetTreeHeight voters.length ≤ k
  base_exits : Exits (unpadded (getVoterSetTreeHeight voters.length)) (pad crypto)
    (leafLayer crypto toMerkleLeaf voters) base
  base_eq : preProcessForMerkleize crypto toMerkleLeaf voters = some base
  base_length : base.length = 2 ^ getVoterSetTreeHeight voters.length
  layers : ∀ k ≤ getVoterSetTreeHeight voters.length, ∃ layer, climb crypto k base = some layer ∧
    layer.length = 2 ^ (getVoterSetTreeHeight voters.length - k)
  root_eq : getVoterSetTreeRoot crypto toMerkleLeaf voters = some root
  root_path : ∀ i leaf, base[i]? = some leaf → ∃ path,
    siblingPath (hashNode crypto) (getVoterSetTreeHeight voters.length) i base = some path ∧
      path.length = getVoterSetTreeHeight voters.length ∧
      pathRoot (hashNode crypto) leaf path = root

section Tree

variable {crypto : Crypto} {toMerkleLeaf : Public → Bytes} {voters : List Public}

theorem nextLayer_eq (crypto : Crypto) (layer : List (FixedBytes 32)) :
    nextLayer crypto layer = pairUp (hashNode crypto) layer := by
  induction layer using pairUp.induct with
  | case1 => rfl
  | case2 a => rfl
  | case3 left right rest ih => rw [nextLayer, pairUp, ih, hashNode]

theorem climb_eq (crypto : Crypto) (height : ℕ) (layer : List (FixedBytes 32)) :
    climb crypto height layer = ascend (hashNode crypto) height layer := by
  induction height generalizing layer with
  | zero => rfl
  | succ height ih =>
      rw [climb, ascend, nextLayer_eq]
      exact congrArg _ (funext ih)

theorem exits_height (h : voters.length ≠ 1) :
    Exits (growing voters.length) (fun height => height + 1) 0
      (getVoterSetTreeHeight voters.length) := by
  rw [getVoterSetTreeHeight, if_neg h]
  exact exits_heightLoop (by decide)

theorem height_fits (hcount : voters.length < 2 ^ 31) :
    voters.length ≤ 2 ^ getVoterSetTreeHeight voters.length ∧
      getVoterSetTreeHeight voters.length ≤ 31 := by
  by_cases hsingle : voters.length = 1
  · rw [hsingle]
    decide
  · obtain ⟨hle, hleast⟩ := isLeast_of_exits hcount (exits_height hsingle)
    exact ⟨hle, hleast 31 hcount.le⟩

theorem exists_isVoterTree (crypto : Crypto) (toMerkleLeaf : Public → Bytes)
    (hcount : voters.length < 2 ^ 31) :
    ∃ base root, IsVoterTree crypto toMerkleLeaf voters base root := by
  obtain ⟨hle, h31⟩ := height_fits hcount
  have hpow := twoSaturatingPow_of_le h31
  have hfits : (leafLayer crypto toMerkleLeaf voters).length ≤
      twoSaturatingPow (getVoterSetTreeHeight voters.length) := by
    rw [hpow, leafLayer, List.length_map]
    exact hle
  have hpadded := exits_pad crypto hfits
  have hbase : preProcessForMerkleize crypto toMerkleLeaf voters = some _ := if_pos hfits
  generalize hlayer : leafLayer crypto toMerkleLeaf voters ++ List.replicate
    (twoSaturatingPow (getVoterSetTreeHeight voters.length) -
      (leafLayer crypto toMerkleLeaf voters).length) (crypto.keccak256 [0]) = base at hpadded
  have hlength : base.length = 2 ^ getVoterSetTreeHeight voters.length := by
    rw [← hlayer, List.length_append, List.length_replicate]
    omega
  obtain ⟨root, hroot⟩ := exists_root (hashNode crypto) hlength
  have hbase' : preProcessForMerkleize crypto toMerkleLeaf voters = some base :=
    hbase.trans (congrArg some hlayer)
  refine ⟨base, root, ?_, exits_height, ?_, hpadded, hbase', hlength, ?_, ?_, ?_⟩
  · intro hsingle
    rw [hsingle]
    rfl
  · intro hsingle
    exact isLeast_of_exits hcount (exits_height hsingle)
  · intro k hk
    rw [climb_eq]
    exact exists_ascend (hashNode crypto) hlength hk
  · rw [getVoterSetTreeRoot, hbase', Option.bind_some, climb_eq, hroot]
    rfl
  · intro i leaf hleaf
    exact pathRoot_siblingPath hlength hroot hleaf

theorem IsVoterTree.ascend_eq {base : List (FixedBytes 32)} {root : FixedBytes 32}
    (h : IsVoterTree crypto toMerkleLeaf voters base root) :
    ascend (hashNode crypto) (getVoterSetTreeHeight voters.length) base = some [root] := by
  obtain ⟨top, htop⟩ := exists_root (hashNode crypto) h.base_length
  have hroot := h.root_eq
  rw [getVoterSetTreeRoot, h.base_eq, Option.bind_some, climb_eq, htop] at hroot
  obtain rfl : top = root := Option.some.inj hroot
  exact htop

theorem eq_of_append_toList_eq {a b c d : FixedBytes 32}
    (h : a.toList ++ b.toList = c.toList ++ d.toList) : (a, b) = (c, d) := by
  obtain ⟨hleft, hright⟩ := List.append_inj h (a.toList_length.trans c.toList_length.symm)
  rw [List.Vector.eq _ _ hleft, List.Vector.eq _ _ hright]

theorem preProcess_eq_of_root_eq {voters' : List Public} (hcount : voters.length < 2 ^ 31)
    (hcount' : voters'.length < 2 ^ 31)
    (hheight : getVoterSetTreeHeight voters.length = getVoterSetTreeHeight voters'.length)
    (hroot : getVoterSetTreeRoot crypto toMerkleLeaf voters =
      getVoterSetTreeRoot crypto toMerkleLeaf voters')
    (hinj : ∀ a ∈ hashedInputs crypto toMerkleLeaf voters,
      ∀ b ∈ hashedInputs crypto toMerkleLeaf voters',
        crypto.keccak256 a = crypto.keccak256 b → a = b) :
    preProcessForMerkleize crypto toMerkleLeaf voters =
      preProcessForMerkleize crypto toMerkleLeaf voters' := by
  obtain ⟨base, root, htree⟩ := exists_isVoterTree crypto toMerkleLeaf hcount
  obtain ⟨base', root', htree'⟩ := exists_isVoterTree crypto toMerkleLeaf hcount'
  obtain rfl : root = root' :=
    Option.some.inj (htree.root_eq.symm.trans (hroot.trans htree'.root_eq))
  have hascend' := htree'.ascend_eq
  have hlength' := htree'.base_length
  simp only [hashedInputs, htree.base_eq, htree'.base_eq, Option.getD_some,
    List.forall_mem_map] at hinj
  rw [← hheight] at hascend' hlength' hinj
  rw [htree.base_eq, htree'.base_eq]
  refine congrArg some (ascend_injective htree.base_length hlength' htree.ascend_eq hascend' ?_)
  intro p hp p' hp' hnode
  exact eq_of_append_toList_eq (hinj p hp p' hp' hnode)

end Tree

/-- The tree of fewer than `2 ^ 31` voters is built without an index out of bounds, has the
least height, and its root binds its base layer. -/
theorem voterTree_spec (crypto : Crypto) (toMerkleLeaf : Public → Bytes) (voters : List Public)
    (hcount : voters.length < 2 ^ 31) :
    (∃ base root, IsVoterTree crypto toMerkleLeaf voters base root) ∧
      ∀ voters' : List Public, voters'.length < 2 ^ 31 →
        getVoterSetTreeHeight voters.length = getVoterSetTreeHeight voters'.length →
        getVoterSetTreeRoot crypto toMerkleLeaf voters =
          getVoterSetTreeRoot crypto toMerkleLeaf voters' →
        (∀ a ∈ hashedInputs crypto toMerkleLeaf voters,
          ∀ b ∈ hashedInputs crypto toMerkleLeaf voters',
            crypto.keccak256 a = crypto.keccak256 b → a = b) →
        preProcessForMerkleize crypto toMerkleLeaf voters =
          preProcessForMerkleize crypto toMerkleLeaf voters' :=
  ⟨exists_isVoterTree crypto toMerkleLeaf hcount, fun _ hcount' hheight hroot hinj =>
    preProcess_eq_of_root_eq hcount hcount' hheight hroot hinj⟩

def samplePaddingLeaf (key : Public) : Bytes :=
  if key = samplePublic 4 then [0] else key.toList

theorem voterTree_spec_three_of_four :
    let voters := [samplePublic 1, samplePublic 2, samplePublic 3]
    let voters' := voters ++ [samplePublic 4]
    (∃ base root, IsVoterTree sampleCrypto samplePaddingLeaf voters base root) ∧
      preProcessForMerkleize sampleCrypto samplePaddingLeaf voters =
        preProcessForMerkleize sampleCrypto samplePaddingLeaf voters' := by
  have hspec := voterTree_spec sampleCrypto samplePaddingLeaf
    [samplePublic 1, samplePublic 2, samplePublic 3] (by decide)
  refine ⟨hspec.1, hspec.2 _ (by decide) (by decide) (by decide +kernel) ?_⟩
  decide +kernel

end DkgSubstrate.VoterTreeRoot
