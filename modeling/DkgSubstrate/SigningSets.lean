import DkgSubstrate.SampleRuntime
import DkgSubstrate.SigningManager

/-!
Which parties the generated signing sets leave out.  Only the first sets of the
enumeration are generated, and these tend to have the first parties in common.
-/

namespace DkgSubstrate.SigningSets

open DkgSubstrate.Combinations
open DkgSubstrate.Primitives
open DkgSubstrate.SampleRuntime
open DkgSubstrate.SigningManager
open DkgSubstrate.Words

variable {L : Limits} {cfg : Config L}

/-- The numbers of `n` parties. -/
def parties (n : ℕ) : List ℕ := (List.range n).map partyNumber

theorem signingSets_perm (cfg : Config L) (dkgPubKey bytes : Bytes)
    (best : List (ℕ × Public)) (threshold : ℕ) :
    ((generateSigningSets cfg dkgPubKey bytes best threshold).map
      ProposedSigningSet.signingSet).Perm
      ((combinations (threshold + 1) (parties best.length)).take maxSigningSets) := by
  have hparties : (best.zipIdx.map fun r => partyNumber r.2) = parties best.length := by
    rw [parties, List.range_eq_range', ← List.zipIdx_map_snd 0 best, List.map_map]
    rfl
  rw [generateSigningSets, hparties, List.map_map]
  have hsets : ∀ sets : List (List ℕ), sets.zipIdx.map (ProposedSigningSet.signingSet ∘
      fun r => ⟨truncate 16 r.2, none, r.1⟩) = sets := List.zipIdx_map_fst 0
  rw [hsets]
  exact cfg.sampler.chooseMultiple_perm _ _ _ (List.length_take_le _ _)

theorem exists_signingSet_iff {dkgPubKey bytes : Bytes} {best : List (ℕ × Public)}
    {threshold p : ℕ} :
    (∃ set ∈ generateSigningSets cfg dkgPubKey bytes best threshold, p ∉ set.signingSet) ↔
      ∃ c ∈ (combinations (threshold + 1) (parties best.length)).take maxSigningSets, p ∉ c := by
  constructor
  · rintro ⟨set, hset, hp⟩
    exact ⟨set.signingSet, (signingSets_perm cfg dkgPubKey bytes best threshold).mem_iff.mp
      (List.mem_map_of_mem hset), hp⟩
  · rintro ⟨c, hc, hp⟩
    obtain ⟨set, hset, rfl⟩ := List.mem_map.mp
      ((signingSets_perm cfg dkgPubKey bytes best threshold).mem_iff.mpr hc)
    exact ⟨set, hset, hp⟩

theorem generateSigningSets_ne_nil {dkgPubKey bytes : Bytes} {best : List (ℕ × Public)}
    {threshold : ℕ} (h : threshold < best.length) :
    generateSigningSets cfg dkgPubKey bytes best threshold ≠ [] := by
  intro hnil
  have hlength := (signingSets_perm cfg dkgPubKey bytes best threshold).length_eq
  rw [hnil, List.map_nil, List.length_nil, List.length_take, length_combinations, parties,
    List.length_map, List.length_range, maxSigningSets] at hlength
  have hpos : 0 < best.length.choose (threshold + 1) := Nat.choose_pos h
  omega

theorem partyNumber_of_lt {index : ℕ} (h : index + 1 < 2 ^ 16) : partyNumber index = index + 1 := by
  rw [partyNumber, truncate_of_lt (by omega), wrappingAdd_of_lt h]

theorem partyNumber_lt (index : ℕ) : partyNumber index < 2 ^ 16 :=
  Nat.mod_lt _ (by decide)

theorem add_le_of_partyNumber_eq {i j : ℕ} (hij : i < j) (h : partyNumber j = i + 1) :
    i + 2 ^ 16 ≤ j := by
  rw [partyNumber, wrappingAdd, truncate] at h
  omega

theorem parties_split {n i : ℕ} (h : i < n) :
    parties n =
      parties i ++ partyNumber i :: (List.range' (i + 1) (n - (i + 1))).map partyNumber := by
  have hrange : List.range n = List.range i ++ i :: List.range' (i + 1) (n - (i + 1)) := by
    have happend : List.range' 0 i ++ List.range' (0 + i) (n - i) = List.range' 0 (i + (n - i)) :=
      List.range'_append_1
    rw [Nat.zero_add, Nat.add_sub_cancel' h.le, ← Nat.succ_pred_eq_of_pos (Nat.sub_pos_of_lt h),
      List.range'_succ] at happend
    rw [List.range_eq_range', List.range_eq_range', ← happend, Nat.pred_eq_sub_one, Nat.sub_sub]
  rw [parties, hrange, List.map_append, List.map_cons]
  rfl

theorem lt_choose {m j : ℕ} (h : j < m) : j < m.choose j := by
  calc j < j + 1 := j.lt_succ_self
    _ = (j + 1).choose j := (Nat.choose_succ_self_right j).symm
    _ ≤ m.choose j := Nat.choose_le_choose j h

section Coverage

variable {n threshold p : ℕ}

theorem notMem_parties {i : ℕ} (hi : i + 1 < 2 ^ 16) : i + 1 ∉ parties i := by
  intro hmem
  obtain ⟨j, hj, hnumber⟩ := List.mem_map.mp hmem
  rw [partyNumber_of_lt (by have := List.mem_range.mp hj; omega)] at hnumber
  have := List.mem_range.mp hj
  omega

theorem notMem_take_parties {i m k : ℕ} (h : k < i + 2 ^ 16) :
    i + 1 ∉ ((List.range' (i + 1) m).map partyNumber).take (k - i) := by
  intro hmem
  rw [← List.map_take] at hmem
  obtain ⟨j, hj, hnumber⟩ := List.mem_map.mp hmem
  have hlt : j < i + 1 + (k - i) := by
    obtain ⟨index, hindex, hget⟩ := List.mem_take_iff_getElem.mp hj
    rw [List.getElem_range'] at hget
    omega
  have hij : i < j := by
    have := List.mem_range'_1.mp (List.mem_of_mem_take hj)
    omega
  have := add_le_of_partyNumber_eq hij hnumber
  omega

theorem exists_notMem_first_iff (hthreshold : threshold < 2 ^ 16) (hn : threshold + 1 < n)
    (hp : 1 ≤ p) (hpn : p ≤ n) (hp16 : p < 2 ^ 16) :
    (∃ c ∈ (combinations (threshold + 1) (parties n)).take maxSigningSets, p ∉ c) ↔
      threshold + 1 < p ∨ (n - p).choose (threshold + 1 - p) < maxSigningSets := by
  obtain ⟨i, rfl⟩ := Nat.exists_eq_add_of_le' hp
  have hlength : ((List.range' (i + 1) (n - (i + 1))).map partyNumber).length = n - (i + 1) := by
    rw [List.length_map, List.length_range']
  have hpre : (parties i).length = i := by
    rw [parties, List.length_map, List.length_range]
  rw [parties_split (show i < n by omega), partyNumber_of_lt hp16]
  by_cases hwrap : threshold + 1 < i + 2 ^ 16
  · have hpost : i + 1 ∉ ((List.range' (i + 1) (n - (i + 1))).map partyNumber).take
        (threshold + 1 - (parties i).length) := by
      rw [hpre]
      exact notMem_take_parties hwrap
    rw [exists_notMem_take_combinations_iff (notMem_parties hp16) hpost (by omega) (by decide),
      hpre, hlength, show threshold + 1 - 1 - i = threshold + 1 - (i + 1) by omega]
    exact or_congr_left Nat.lt_succ_iff.symm
  · -- The first party, which all sets of the largest size contain.
    have hi : i = 0 := by omega
    have ht : threshold = 65535 := by omega
    subst hi
    have hchoose : maxSigningSets ≤ (n - 1).choose threshold := by
      have hlt := lt_choose (show threshold < n - 1 by omega)
      rw [maxSigningSets]
      omega
    refine iff_of_false ?_ ?_
    · rintro ⟨c, hc, hnot⟩
      refine hnot (mem_of_mem_take_combinations ?_ ?_ hc)
      · rw [hpre]
        omega
      · rw [hpre, hlength]
        exact hchoose
    · rw [Nat.zero_add, Nat.add_sub_cancel]
      exact not_or.mpr ⟨by omega, Nat.not_lt.mpr hchoose⟩

theorem exists_notMem_of_le (hn : threshold + 1 < n) (hp16 : 2 ^ 16 ≤ p) :
    ∃ c ∈ (combinations (threshold + 1) (parties n)).take maxSigningSets, p ∉ c := by
  have hlength : threshold + 1 ≤ (parties n).length := by
    rw [parties, List.length_map, List.length_range]
    exact hn.le
  have hget := head?_combinations hlength
  rw [← List.getElem?_take_of_lt (show 0 < maxSigningSets by decide)] at hget
  refine ⟨_, List.mem_of_getElem? hget, ?_⟩
  intro hmem
  obtain ⟨j, -, rfl⟩ := List.mem_map.mp (List.mem_of_mem_take hmem)
  exact absurd (partyNumber_lt j) (Nat.not_lt.mpr hp16)

end Coverage

/-- Some generated signing set leaves a party out exactly if the party stands behind the
first set, or if less than 256 sets have all parties up to it in common. -/
theorem exists_set_without_party_iff (cfg : Config L) (dkgPubKey bytes : Bytes)
    (best : List (ℕ × Public)) (threshold p : ℕ) (hthreshold : threshold < 2 ^ 16)
    (hn : threshold + 1 < best.length) (hp : 1 ≤ p) (hpn : p ≤ best.length) :
    (∃ set ∈ generateSigningSets cfg dkgPubKey bytes best threshold, p ∉ set.signingSet) ↔
      threshold + 1 < p ∨ (best.length - p).choose (threshold + 1 - p) < 256 := by
  rw [exists_signingSet_iff]
  by_cases hp16 : p < 2 ^ 16
  · exact exists_notMem_first_iff hthreshold hn hp hpn hp16
  · refine iff_of_true (exists_notMem_of_le hn (Nat.le_of_not_lt hp16)) ?_
    rcases Nat.lt_or_ge (threshold + 1) p with hlt | hge
    · exact .inl hlt
    · rw [Nat.sub_eq_zero_of_le (show threshold + 1 ≤ p by omega), Nat.choose_zero_right]
      exact .inr (by decide)

def sampleSampler : Sampler where
  chooseMultiple _ items amount := items.take amount
  chooseMultiple_perm _ items amount h := by
    rw [List.take_of_length_le h]

def sampleSigning : Config runtimeLimits where
  crypto := sampleCrypto
  sampler := sampleSampler
  authorityPublicKey := samplePublic 1
  encode batch := batch.data

def sampleAuthorities (n : ℕ) : List (ℕ × Public) :=
  (List.range n).map fun i => (i + 1, samplePublic (UInt8.ofNat (i + 1)))

theorem exists_set_without_sampleParty :
    ∃ set ∈ generateSigningSets sampleSigning [7] [1, 2, 3] (sampleAuthorities 3) 1,
      1 ∉ set.signingSet :=
  (exists_set_without_party_iff sampleSigning [7] [1, 2, 3] (sampleAuthorities 3) 1 1 (by decide)
    (by decide) (by decide) (by decide)).mpr (by decide)

theorem no_set_without_first_party :
    ¬∃ set ∈ generateSigningSets sampleSigning [7] [1, 2, 3] (sampleAuthorities 12) 4,
      1 ∉ set.signingSet := by
  decide +kernel

end DkgSubstrate.SigningSets
