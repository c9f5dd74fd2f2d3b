import DkgSubstrate.SigningSets

/-!
The shape of the schedule of signing sets.  The parties are numbered from one on in 16 bits, and
only the first sets of the enumeration are generated.
-/

namespace DkgSubstrate.SigningSchedule

open DkgSubstrate.Combinations
open DkgSubstrate.Primitives
open DkgSubstrate.SampleRuntime
open DkgSubstrate.SigningManager
open DkgSubstrate.SigningSets
open DkgSubstrate.Words

structure IsSigningSet (n threshold : ℕ) (signingSet : List ℕ) : Prop where
  ascending : signingSet.Pairwise (· < ·)
  length : signingSet.length = threshold + 1
  parties : ∀ p ∈ signingSet, 1 ≤ p ∧ p ≤ n

/-- The schedule has as many different signing sets as there can be, but not more than 256.
They are numbered by their places, and if all of them are there, then each is there once. -/
structure WellShaped (n threshold : ℕ) (sets : List ProposedSigningSet) : Prop where
  length : sets.length = min maxSigningSets (n.choose (threshold + 1))
  nodup : (sets.map ProposedSigningSet.signingSet).Nodup
  isSigningSet : ∀ set ∈ sets, IsSigningSet n threshold set.signingSet
  ssid : ∀ (i : ℕ) set, sets[i]? = some set → set.ssid = i
  complete : n.choose (threshold + 1) ≤ maxSigningSets → ∀ signingSet,
    IsSigningSet n threshold signingSet →
      (sets.map ProposedSigningSet.signingSet).count signingSet = 1

def positions (n threshold : ℕ) : List (List ℕ) :=
  (combinations (threshold + 1) (List.range n)).take maxSigningSets

/-- No number of a party in the first sets is too large. -/
def Fits (n threshold : ℕ) : Prop :=
  ∀ places ∈ positions n threshold, ∀ i ∈ places, i + 1 < 2 ^ 16

section Positions

variable {n threshold : ℕ}

theorem nodup_positions (n threshold : ℕ) : (positions n threshold).Nodup :=
  (nodup_combinations _ List.nodup_range).sublist (List.take_sublist _ _)

theorem length_positions (n threshold : ℕ) :
    (positions n threshold).length = min maxSigningSets (n.choose (threshold + 1)) := by
  rw [positions, List.length_take, length_combinations, List.length_range]

theorem isSigningSet_map_succ {places : List ℕ}
    (h : places ∈ combinations (threshold + 1) (List.range n)) :
    IsSigningSet n threshold (places.map (· + 1)) := by
  obtain ⟨hsub, hlength⟩ := mem_combinations.mp h
  refine ⟨?_, ?_, ?_⟩
  · refine List.Pairwise.map _ (fun _ _ => Nat.succ_lt_succ) ?_
    exact List.pairwise_lt_range.sublist hsub
  · rw [List.length_map, hlength]
  · intro p hp
    obtain ⟨i, hi, rfl⟩ := List.mem_map.mp hp
    have hlt := List.mem_range.mp (hsub.subset hi)
    omega

theorem exists_positions_of_isSigningSet {signingSet : List ℕ}
    (h : IsSigningSet n threshold signingSet) :
    ∃ places ∈ combinations (threshold + 1) (List.range n),
      places.map (· + 1) = signingSet := by
  have hascending : ((List.range n).map (· + 1)).Pairwise (· < ·) :=
    List.Pairwise.map _ (fun _ _ => Nat.succ_lt_succ) List.pairwise_lt_range
  have hsubset : signingSet ⊆ (List.range n).map (· + 1) := by
    intro p hp
    obtain ⟨hone, hn⟩ := h.parties p hp
    refine List.mem_map.mpr ⟨p - 1, List.mem_range.mpr (by omega), ?_⟩
    omega
  have hsub : signingSet.Sublist ((List.range n).map (· + 1)) :=
    List.sublist_of_subperm_of_pairwise
      (List.subperm_of_subset h.ascending.nodup hsubset) h.ascending hascending
  obtain ⟨places, hplaces, rfl⟩ := List.sublist_map_iff.mp hsub
  refine ⟨places, mem_combinations.mpr ⟨hplaces, ?_⟩, rfl⟩
  rw [← h.length, List.length_map]

theorem lt_of_mem_positions {places : List ℕ} (h : places ∈ positions n threshold) {i : ℕ}
    (hi : i ∈ places) : i < n ∧ i < threshold + maxSigningSets := by
  have hmem := mem_take_of_mem_take_combinations h hi
  rw [List.take_range, List.mem_range] at hmem
  omega

theorem exists_mem_positions {i n threshold : ℕ} (hn : i < n) (hsize : threshold < n)
    (hi : i < threshold + maxSigningSets) : ∃ places ∈ positions n threshold, i ∈ places := by
  have hlast : (List.range n)[threshold + (i - threshold)]? =
      some (threshold + (i - threshold)) := List.getElem?_range (by omega)
  have hget := getElem?_combinations_last hlast
  have hfirst : i - threshold < maxSigningSets := by
    rw [maxSigningSets] at hi ⊢
    omega
  rw [← List.getElem?_take_of_lt hfirst] at hget
  refine ⟨_, List.mem_of_getElem? hget, ?_⟩
  rw [List.take_range, List.mem_append, List.mem_range, List.mem_singleton]
  omega

theorem exists_wrapped (h : ¬Fits n threshold) :
    ∃ places ∈ positions n threshold, 2 ^ 16 - 1 ∈ places := by
  rw [Fits] at h
  push Not at h
  obtain ⟨places, hplaces, i, hi, hlarge⟩ := h
  obtain ⟨hn, hlt⟩ := lt_of_mem_positions hplaces hi
  obtain ⟨hsub, hlength⟩ := mem_combinations.mp (List.mem_of_mem_take hplaces)
  have hle := hsub.length_le
  rw [List.length_range] at hle
  exact exists_mem_positions (by omega) (by omega) (by omega)

theorem fits_iff : Fits n threshold ↔ n < 2 ^ 16 ∨ n ≤ threshold ∨ threshold < 65280 := by
  constructor
  · intro h
    by_contra hnot
    obtain ⟨hn, hnot⟩ := not_or.mp hnot
    obtain ⟨hsize, hlarge⟩ := not_or.mp hnot
    have hfirst : 2 ^ 16 - 1 < threshold + maxSigningSets := by
      rw [maxSigningSets]
      omega
    obtain ⟨places, hplaces, hmem⟩ := exists_mem_positions (by omega) (Nat.lt_of_not_le hsize)
      hfirst
    have hlt := h places hplaces _ hmem
    omega
  · intro h places hplaces i hi
    obtain ⟨hn, hlt⟩ := lt_of_mem_positions hplaces hi
    obtain ⟨hsub, hlength⟩ := mem_combinations.mp (List.mem_of_mem_take hplaces)
    have hle := hsub.length_le
    rw [List.length_range] at hle
    rw [maxSigningSets] at hlt
    omega

end Positions

section Schedule

variable {L : Limits} (cfg : Config L) (dkgPubKey bytes : Bytes) (best : List (ℕ × Public))
variable (threshold : ℕ)

theorem signingSets_perm_positions :
    ((generateSigningSets cfg dkgPubKey bytes best threshold).map
      ProposedSigningSet.signingSet).Perm
      ((positions best.length threshold).map (List.map partyNumber)) := by
  have hperm := signingSets_perm cfg dkgPubKey bytes best threshold
  rw [parties, combinations_map, ← List.map_take] at hperm
  exact hperm

theorem ssid_of_getElem? {i : ℕ} {set : ProposedSigningSet}
    (h : (generateSigningSets cfg dkgPubKey bytes best threshold)[i]? = some set) :
    set.ssid = i := by
  have hlength := (signingSets_perm_positions cfg dkgPubKey bytes best threshold).length_eq
  rw [List.length_map, List.length_map, length_positions] at hlength
  have hi := (List.getElem?_eq_some_iff.mp h).1
  have hlt : i < 2 ^ 16 := by
    rw [hlength, maxSigningSets] at hi
    omega
  rw [generateSigningSets] at h
  simp only [List.getElem?_map, List.getElem?_zipIdx, Option.map_map, Option.map_eq_some_iff,
    Function.comp_apply, Nat.zero_add] at h
  obtain ⟨signingSet, -, rfl⟩ := h
  exact truncate_of_lt hlt

variable {best threshold}

theorem signingSets_perm_of_fits (h : Fits best.length threshold) :
    ((generateSigningSets cfg dkgPubKey bytes best threshold).map
      ProposedSigningSet.signingSet).Perm
      ((positions best.length threshold).map (List.map (· + 1))) := by
  have hnumbers : (positions best.length threshold).map (List.map partyNumber) =
      (positions best.length threshold).map (List.map (· + 1)) := by
    refine List.map_congr_left fun places hplaces => List.map_congr_left fun i hi => ?_
    exact partyNumber_of_lt (h places hplaces i hi)
  rw [← hnumbers]
  exact signingSets_perm_positions cfg dkgPubKey bytes best threshold

variable {cfg dkgPubKey bytes}

theorem wellShaped_of_fits (h : Fits best.length threshold) :
    WellShaped best.length threshold
      (generateSigningSets cfg dkgPubKey bytes best threshold) := by
  have hperm := signingSets_perm_of_fits cfg dkgPubKey bytes h
  have hnodup : ((positions best.length threshold).map (List.map (· + 1))).Nodup :=
    (nodup_positions _ _).map (List.map_injective_iff.mpr (add_left_injective 1))
  refine ⟨?_, hperm.nodup_iff.mpr hnodup, ?_, fun i set => ssid_of_getElem? _ _ _ _ _, ?_⟩
  · have hlength := hperm.length_eq
    rw [List.length_map, List.length_map, length_positions] at hlength
    exact hlength
  · intro set hset
    obtain ⟨places, hplaces, heq⟩ :=
      List.mem_map.mp (hperm.mem_iff.mp (List.mem_map_of_mem hset))
    rw [← heq]
    exact isSigningSet_map_succ (List.mem_of_mem_take hplaces)
  · intro hfew signingSet hset
    obtain ⟨places, hplaces, rfl⟩ := exists_positions_of_isSigningSet hset
    have hall : places ∈ positions best.length threshold := by
      rw [positions, List.take_of_length_le]
      · exact hplaces
      · rw [length_combinations, List.length_range]
        exact hfew
    rw [hperm.count_eq]
    exact List.count_eq_one_of_mem hnodup (List.mem_map_of_mem hall)

theorem fits_of_wellShaped
    (h : WellShaped best.length threshold
      (generateSigningSets cfg dkgPubKey bytes best threshold)) :
    Fits best.length threshold := by
  by_contra hwrapped
  obtain ⟨places, hplaces, hmem⟩ := exists_wrapped hwrapped
  have hset : places.map partyNumber ∈ (generateSigningSets cfg dkgPubKey bytes best
      threshold).map ProposedSigningSet.signingSet :=
    (signingSets_perm_positions cfg dkgPubKey bytes best threshold).mem_iff.mpr
      (List.mem_map_of_mem hplaces)
  obtain ⟨set, hmemSet, hsigning⟩ := List.mem_map.mp hset
  have hzero : partyNumber (2 ^ 16 - 1) ∈ set.signingSet := by
    rw [hsigning]
    exact List.mem_map_of_mem hmem
  have hone := ((h.isSigningSet set hmemSet).parties _ hzero).1
  have hnumber : partyNumber (2 ^ 16 - 1) = 0 := by decide
  omega

end Schedule

/-- The generated signing sets have the right shape exactly if there are fewer than `2 ^ 16`
parties or too few to sign, or if the threshold is so low that the first sets do not reach the
party at the place `2 ^ 16`. -/
theorem generateSigningSets_wellShaped_iff {L : Limits} (cfg : Config L)
    (dkgPubKey bytes : Bytes) (best : List (ℕ × Public)) (threshold : ℕ) :
    WellShaped best.length threshold
        (generateSigningSets cfg dkgPubKey bytes best threshold) ↔
      best.length < 2 ^ 16 ∨ best.length ≤ threshold ∨ threshold < 65280 := by
  rw [← fits_iff]
  exact ⟨fits_of_wellShaped, wellShaped_of_fits⟩

def sampleCrowd : List (ℕ × Public) := List.replicate (2 ^ 16) (1, samplePublic 1)

theorem crowd_not_wellShaped :
    ¬WellShaped sampleCrowd.length 65280
      (generateSigningSets sampleSigning [7] [1, 2, 3] sampleCrowd 65280) := by
  intro h
  have hfits := fits_of_wellShaped h
  rw [fits_iff, sampleCrowd, List.length_replicate] at hfits
  omega

end DkgSubstrate.SigningSchedule
