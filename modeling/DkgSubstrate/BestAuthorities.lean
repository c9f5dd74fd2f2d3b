import DkgSubstrate.NextBest
import DkgSubstrate.Thresholds

/-!
The selection of the best authorities, and the thresholds that a rotation repairs for it.
-/

namespace DkgSubstrate.BestAuthorities

open DkgSubstrate.Dispatch
open DkgSubstrate.Metadata
open DkgSubstrate.MetadataRotation
open DkgSubstrate.MetadataStep
open DkgSubstrate.NextBest
open DkgSubstrate.Primitives
open DkgSubstrate.Ranking
open DkgSubstrate.SampleRuntime
open DkgSubstrate.Thresholds
open DkgSubstrate.Words

section Filled

variable {α : Type} {rank : α → ℕ} {jailed : α → Bool} {count : ℕ} {l : List α} {a b : α}

def filled (rank : α → ℕ) (jailed : α → Bool) (count : ℕ) (l : List α) : List α :=
  let unjailed := l.filter fun a => !jailed a
  if unjailed.length < count then
    unjailed ++ highest rank (count - unjailed.length) (l.filter jailed)
  else unjailed

/-- What is left out comes behind what is selected from the same class, and entries of the same
rank are in the order of the list, the unjailed ones before the jailed ones. -/
structure Best (rank : α → ℕ) (jailed : α → Bool) (count : ℕ) (l best : List α) : Prop where
  length : best.length = min count l.length
  nodup : best.Nodup
  subset : best ⊆ l
  sorted : best.Pairwise fun a b => rank b ≤ rank a
  jailed_last : ∀ a ∈ best, jailed a = true → ∀ b ∈ l, jailed b = false → b ∈ best
  omitted : ∀ a ∈ l, a ∉ best → ∀ b ∈ best, jailed a = jailed b →
    rank a ≤ rank b ∧ (rank a = rank b → [b, a].Sublist l)
  ties : ∀ a b, [a, b].Sublist best → rank a = rank b →
    (jailed a = jailed b → [a, b].Sublist l) ∧ (jailed a = true → jailed b = true)

theorem filled_of_lt (h : (l.filter fun a => !jailed a).length < count) :
    filled rank jailed count l = (l.filter fun a => !jailed a) ++
      highest rank (count - (l.filter fun a => !jailed a).length) (l.filter jailed) :=
  if_pos h

theorem filled_of_le (h : count ≤ (l.filter fun a => !jailed a).length) :
    filled rank jailed count l = l.filter fun a => !jailed a :=
  if_neg (Nat.not_lt.mpr h)

theorem mem_filled_of_unjailed (ha : a ∈ l) (hfree : jailed a = false) :
    a ∈ filled rank jailed count l := by
  have hmem : a ∈ l.filter fun a => !jailed a := List.mem_filter.mpr ⟨ha, by simp [hfree]⟩
  rw [filled]
  split
  · exact List.mem_append_left _ hmem
  · exact hmem

theorem filled_subperm (rank : α → ℕ) (jailed : α → Bool) (count : ℕ) (l : List α) :
    (filled rank jailed count l).Subperm l := by
  have hsplit : ((l.filter fun a => !jailed a) ++ l.filter jailed).Perm l := by
    simpa using List.filter_append_perm (fun a => !jailed a) l
  rw [filled]
  split
  · exact ((List.subperm_append_left _).mpr (highest_subperm _ _ _)).trans hsplit.subperm
  · exact List.filter_sublist.subperm

theorem nodup_filled (hnodup : l.Nodup) : (filled rank jailed count l).Nodup := by
  obtain ⟨l', hperm, hsub⟩ := filled_subperm rank jailed count l
  exact hperm.nodup_iff.mp (hnodup.sublist hsub)

theorem length_filled (rank : α → ℕ) (jailed : α → Bool) (count : ℕ) (l : List α) :
    min count (filled rank jailed count l).length = min count l.length := by
  have hsplit : (l.filter fun a => !jailed a).length + (l.filter jailed).length = l.length := by
    have hperm := (List.filter_append_perm (fun a => !jailed a) l).length_eq
    simpa using hperm
  rw [filled]
  split
  · rw [List.length_append, length_highest]
    omega
  · omega

theorem mem_best_iff_of_lt (h : (l.filter fun a => !jailed a).length < count) :
    a ∈ highest rank count (filled rank jailed count l) ↔ a ∈ filled rank jailed count l := by
  apply mem_highest_of_length_le
  rw [filled_of_lt h, List.length_append, length_highest]
  omega

theorem mem_filled_jailed (ha : a ∈ filled rank jailed count l) (hjailed : jailed a = true) :
    (l.filter fun a => !jailed a).length < count ∧
      a ∈ highest rank (count - (l.filter fun a => !jailed a).length) (l.filter jailed) := by
  have hout : a ∉ l.filter fun a => !jailed a := by simp [hjailed]
  by_cases hlt : (l.filter fun a => !jailed a).length < count
  · rw [filled_of_lt hlt, List.mem_append] at ha
    exact ⟨hlt, ha.resolve_left hout⟩
  · rw [filled_of_le (Nat.not_lt.mp hlt)] at ha
    exact absurd ha hout

theorem omitted_of_jailed (hnodup : l.Nodup) (ha : a ∈ l)
    (hout : a ∉ highest rank count (filled rank jailed count l))
    (hb : b ∈ highest rank count (filled rank jailed count l)) (hjailed : jailed a = true)
    (hjailed' : jailed b = true) :
    rank a ≤ rank b ∧ (rank a = rank b → [b, a].Sublist l) := by
  obtain ⟨hlt, hb'⟩ := mem_filled_jailed ((highest_subperm _ _ _).subset hb) hjailed'
  rw [mem_best_iff_of_lt hlt, filled_of_lt hlt, List.mem_append, not_or] at hout
  have ha' : a ∈ l.filter jailed := List.mem_filter.mpr ⟨ha, hjailed⟩
  obtain ⟨hle, hties⟩ := rank_le_of_omitted (hnodup.filter _) ha' hout.2 hb'
  exact ⟨hle, fun hrank => (hties hrank).trans List.filter_sublist⟩

theorem omitted_of_unjailed (hnodup : l.Nodup) (ha : a ∈ l)
    (hout : a ∉ highest rank count (filled rank jailed count l))
    (hb : b ∈ highest rank count (filled rank jailed count l)) (hfree : jailed a = false) :
    rank a ≤ rank b ∧ (rank a = rank b → [b, a].Sublist l) := by
  have ha' : a ∈ filled rank jailed count l := mem_filled_of_unjailed ha hfree
  have hle : count ≤ (l.filter fun a => !jailed a).length := by
    by_contra hlt
    exact hout ((mem_best_iff_of_lt (Nat.not_le.mp hlt)).mpr ha')
  rw [filled_of_le hle] at ha' hout hb
  obtain ⟨hrank, hties⟩ := rank_le_of_omitted (hnodup.filter _) ha' hout hb
  exact ⟨hrank, fun heq => (hties heq).trans List.filter_sublist⟩

theorem ties_of_best (hnodup : l.Nodup)
    (h : [a, b].Sublist (highest rank count (filled rank jailed count l)))
    (hrank : rank a = rank b) :
    (jailed a = jailed b → [a, b].Sublist l) ∧ (jailed a = true → jailed b = true) := by
  have hpair := pair_sublist_of_highest (nodup_filled hnodup) h hrank
  by_cases hlt : (l.filter fun a => !jailed a).length < count
  · rw [filled_of_lt hlt] at hpair
    rcases pair_sublist_append hpair with hfree | ⟨ha, hb⟩ | hjailed
    · refine ⟨fun _ => hfree.trans List.filter_sublist, ?_⟩
      intro hja
      have ha := hfree.subset (List.mem_cons_self (a := a))
      simp [hja] at ha
    · have ha' : jailed a = false := by simpa using (List.mem_filter.mp ha).2
      have hb' : jailed b = true := (List.mem_filter.mp ((highest_subperm _ _ _).subset hb)).2
      simp [ha', hb']
    · have hlist := pair_sublist_of_highest (hnodup.filter _) hjailed hrank
      refine ⟨fun _ => hlist.trans List.filter_sublist, fun _ => ?_⟩
      exact (List.mem_filter.mp (hlist.subset (by simp))).2
  · rw [filled_of_le (Nat.not_lt.mp hlt)] at hpair
    refine ⟨fun _ => hpair.trans List.filter_sublist, ?_⟩
    intro hja
    have ha := hpair.subset (List.mem_cons_self (a := a))
    simp [hja] at ha

theorem best_highest_filled (rank : α → ℕ) (jailed : α → Bool) (count : ℕ)
    (hnodup : l.Nodup) :
    Best rank jailed count l (highest rank count (filled rank jailed count l)) where
  length := by rw [length_highest, length_filled]
  nodup := nodup_highest (nodup_filled hnodup)
  subset := ((highest_subperm _ _ _).trans (filled_subperm _ _ _ _)).subset
  sorted := pairwise_highest _ _ _
  jailed_last a ha hjailed b hb hfree := by
    obtain ⟨hlt, -⟩ := mem_filled_jailed ((highest_subperm _ _ _).subset ha) hjailed
    exact (mem_best_iff_of_lt hlt).mpr (mem_filled_of_unjailed hb hfree)
  omitted a ha hout b hb hclass := by
    cases hja : jailed a with
    | true => exact omitted_of_jailed hnodup ha hout hb hja (hclass ▸ hja)
    | false => exact omitted_of_unjailed hnodup ha hout hb hja
  ties a b h hrank := ties_of_best hnodup h hrank

end Filled

theorem getBestAuthorities_eq (reputations jail : StorageMap Public ℕ) (count : ℕ)
    (ids : List Public) :
    getBestAuthorities reputations jail count ids = numbered 16 (highest
      (fun id => reputations.getD id 0) count
      (filled (fun id => reputations.getD id 0) (fun id => jail.containsKey id) count ids)) := by
  simp only [getBestAuthorities, getBestAuthoritiesByReputation, map_snd_numbered]
  rfl

theorem length_getBestAuthorities (reputations jail : StorageMap Public ℕ) (count : ℕ)
    (ids : List Public) :
    (getBestAuthorities reputations jail count ids).length = min count ids.length := by
  obtain ⟨selected, -, hlength, hbest⟩ := selectsBest_getBestAuthorities reputations jail count ids
  rw [hbest, length_numbered, hlength]

/-- The best authorities are numbered from one on, and are the best ones of the list by their
reputation, the jailed ones last. -/
theorem getBestAuthorities_best (reputations jail : StorageMap Public ℕ) (count : ℕ)
    (ids : List Public) (hcount : count ≤ 65535) (hnodup : ids.Nodup) :
    let best := getBestAuthorities reputations jail count ids
    best.map Prod.fst = List.range' 1 (min count ids.length) ∧
      Best (fun id => reputations.getD id 0) (fun id => jail.containsKey id) count ids
        (best.map Prod.snd) := by
  have hbest := best_highest_filled (fun id => reputations.getD id 0)
    (fun id => jail.containsKey id) count hnodup
  have hlength := hbest.length
  rw [getBestAuthorities_eq]
  dsimp only
  rw [map_snd_numbered]
  refine ⟨?_, hbest⟩
  rw [map_fst_numbered (by omega), hlength]

theorem getBestAuthorities_best_two_of_three :
    let best := getBestAuthorities ∅ ((∅ : StorageMap Public ℕ).insert (samplePublic 1) 0) 2
      [samplePublic 1, samplePublic 2, samplePublic 3]
    best = [(1, samplePublic 2), (2, samplePublic 3)] ∧ best.map Prod.fst = [1, 2] := by
  refine ⟨by decide +kernel, ?_⟩
  exact (getBestAuthorities_best ∅ ((∅ : StorageMap Public ℕ).insert (samplePublic 1) 0) 2
    [samplePublic 1, samplePublic 2, samplePublic 3] (by decide) (by decide)).1

section Rotation

variable {L : Limits} {AccountId World : Type} {cfg : Config L AccountId World}
variable {newIds nextIds : List Public} {newAccounts nextAccounts : List AccountId}
variable {forced : Bool} {s s' : State L AccountId World}

def Repaired (nextIds : List Public) (s : State L AccountId World) : Prop :=
  ValidPair s.nextSignatureThreshold s.nextKeygenThreshold ∧
    s.nextKeygenThreshold ≤ nextIds.length ∧
    ValidPair s.pendingSignatureThreshold s.pendingKeygenThreshold ∧
    NumbersMembers s.nextKeygenThreshold nextIds s.nextBestAuthorities.toList

theorem exists_changeAuthorities_iff :
    (∃ s', changeAuthorities cfg newIds nextIds newAccounts nextAccounts forced s = .ok s') ↔
      (∃ world, cfg.onAuthoritySetChanged newAccounts newIds s.world = .ok world) ∧
        nextIds.length ≤ L.maxAuthorities ∧ nextAccounts.length ≤ L.maxAuthorities ∧
        ((rotationKeys forced s).isSome = true →
          newIds.length ≤ L.maxAuthorities ∧ newAccounts.length ≤ L.maxAuthorities) := by
  have hbest : nextIds.length ≤ L.maxAuthorities →
      min (repairKeygenThreshold nextIds.length s.pendingKeygenThreshold) nextIds.length ≤
        L.maxAuthorities := by omega
  rw [changeAuthorities]
  cases hkeys : rotationKeys forced s
  all_goals
    simp only [exists_bind_eq_ok, expect_eq_ok, Except.ok.injEq, exists_eq', and_true,
      exists_and_right, BoundedVec.exists_tryFrom_eq_some, length_getBestAuthorities]
    tauto

theorem repaired_shiftNext {world : World} {next : BoundedVec Public L.maxAuthorities}
    {accounts : BoundedVec AccountId L.maxAuthorities}
    {best : BoundedVec (ℕ × Public) L.maxAuthorities}
    (hbits : s.pendingKeygenThreshold < 2 ^ 16)
    (hpending : ValidPair s.pendingSignatureThreshold s.pendingKeygenThreshold)
    (hnodup : next.toList.Nodup) (htwo : 2 ≤ next.length)
    (hbest : SelectsBest (repairKeygenThreshold next.length s.pendingKeygenThreshold)
      next.toList best.toList) :
    Repaired next.toList (shiftNext world next accounts best s) := by
  have hpair := validPair_repair htwo hbits hpending
  refine ⟨hpair, ?_, hpair, numbersMembers_repaired hbits hnodup hbest⟩
  change repairKeygenThreshold next.length s.pendingKeygenThreshold ≤ next.length
  rw [repairKeygenThreshold_fits hbits]
  exact Nat.min_le_left _ _

/-- The subtraction from the size of the next set does not underflow, and the thresholds are
valid for the set after the rotation. -/
theorem changeAuthorities_repairs (cfg : Config L AccountId World)
    (newIds nextIds : List Public) (newAccounts nextAccounts : List AccountId) (forced : Bool)
    (s : State L AccountId World) (hbits : s.pendingKeygenThreshold < 2 ^ 16)
    (hpending : ValidPair s.pendingSignatureThreshold s.pendingKeygenThreshold)
    (hnodup : nextIds.Nodup) (htwo : 2 ≤ nextIds.length) (hcount : nextIds.length ≤ 65535) :
    1 ≤ truncate 16 nextIds.length ∧
      ((∃ s', changeAuthorities cfg newIds nextIds newAccounts nextAccounts forced s = .ok s') ↔
        (∃ world, cfg.onAuthoritySetChanged newAccounts newIds s.world = .ok world) ∧
          nextIds.length ≤ L.maxAuthorities ∧ nextAccounts.length ≤ L.maxAuthorities ∧
          ((rotationKeys forced s).isSome = true →
            newIds.length ≤ L.maxAuthorities ∧ newAccounts.length ≤ L.maxAuthorities)) ∧
      ∀ s', changeAuthorities cfg newIds nextIds newAccounts nextAccounts forced s = .ok s' →
        Repaired nextIds s' := by
  refine ⟨?_, exists_changeAuthorities_iff, ?_⟩
  · rw [truncate_of_lt (by omega)]
    omega
  · intro s' hs'
    obtain ⟨world, next, accounts, best, rfl, -, hbest, hcases⟩ := changeAuthorities_ok hs'
    have hshifted : Repaired next.toList (shiftNext world next accounts best s) :=
      repaired_shiftNext hbits hpending hnodup htwo hbest
    rcases hcases with ⟨-, rfl⟩ | ⟨key, signature, active, activeAccounts, -, -, -, rfl⟩
    · exact hshifted
    · exact hshifted

theorem changeAuthorities_repairs_sample :
    Repaired [samplePublic 3, samplePublic 1]
      (commit (sampleGenesis 4 3 4) (changeAuthorities sampleConfig [samplePublic 1]
        [samplePublic 3, samplePublic 1] [0] [2, 0] false (sampleGenesis 4 3 4))) := by
  have hreturns := eq_ok_commit (sampleGenesis 4 3 4) (show (changeAuthorities sampleConfig
    [samplePublic 1] [samplePublic 3, samplePublic 1] [0] [2, 0] false
      (sampleGenesis 4 3 4)).isOk = true by decide +kernel)
  exact (changeAuthorities_repairs sampleConfig [samplePublic 1]
    [samplePublic 3, samplePublic 1] [0] [2, 0] false (sampleGenesis 4 3 4) (by decide +kernel)
    (by decide +kernel) (by decide +kernel) (by decide) (by decide)).2.2 _ hreturns

end Rotation

end DkgSubstrate.BestAuthorities
