import DkgSubstrate.MetadataStep
import DkgSubstrate.SampleRuntime

/-!
The authorities that are selected for the next keygen.
-/

namespace DkgSubstrate.NextBest

open DkgSubstrate.Metadata
open DkgSubstrate.MetadataCalls
open DkgSubstrate.MetadataEffects
open DkgSubstrate.MetadataRotation
open DkgSubstrate.MetadataStep
open DkgSubstrate.Primitives
open DkgSubstrate.Ranking
open DkgSubstrate.Runs
open DkgSubstrate.SampleRuntime
open DkgSubstrate.Words

variable {L : Limits} {AccountId World : Type}

def NumbersMembers (count : ℕ) (ids : List Public) (best : List (ℕ × Public)) : Prop :=
  best.map Prod.fst = List.range' 1 count ∧ (best.map Prod.snd).Nodup ∧
    ∀ id ∈ best.map Prod.snd, id ∈ ids

instance (count : ℕ) (ids : List Public) (best : List (ℕ × Public)) :
    Decidable (NumbersMembers count ids best) :=
  inferInstanceAs (Decidable (_ ∧ _))

/-- The next best authorities are as many different members of the next set as take part
in the next keygen. -/
def NextBestSelected (s : State L AccountId World) : Prop :=
  NumbersMembers s.nextKeygenThreshold s.nextAuthorities.toList s.nextBestAuthorities.toList

def NextSetFits (s : State L AccountId World) : Prop :=
  s.nextAuthorities.toList.Nodup ∧ s.nextKeygenThreshold < 2 ^ 16 ∧
    s.pendingKeygenThreshold < 2 ^ 16

def QueuesDistinct (_ : State L AccountId World) : Call L AccountId World → Prop
  | .newSession _ queued => (queued.map Prod.snd).Nodup ∧ 2 ≤ queued.length ∧
      queued.length ≤ L.maxAuthorities
  | _ => True

/-- A keygen report finds no jailed authority among the next best ones, unless it drops
the threshold, which recounts them. -/
def ReportsOnUnjailed (s : State L AccountId World) : Call L AccountId World → Prop
  | .submitMisbehaviourReports _ reports => reports.misbehaviourType = .keygen →
      (∀ id ∈ s.nextBestIds, s.jailedKeygenAuthorities.containsKey id = false) ∨
      (reports.offender ∈ unjailedNextBest s ∧
        replacementCandidates (unjailedNextBest s) s = [])
  | _ => True

theorem numbersMembers_iff_of_selectsBest {count threshold : ℕ} {ids members : List Public}
    {best : List (ℕ × Public)} (hbest : SelectsBest count ids best)
    (hcount : count < 2 ^ 16) (hnodup : ids.Nodup) (hsub : ids ⊆ members) :
    NumbersMembers threshold members best ↔ min count ids.length = threshold := by
  obtain ⟨selected, hselected, hlength, rfl⟩ := hbest
  have hfst := map_fst_numbered (l := selected) (show selected.length < 2 ^ 16 by omega)
  rw [NumbersMembers]
  rw [hfst, map_snd_numbered, hlength]
  constructor
  · rintro ⟨hrange, -, -⟩
    simpa using congrArg List.length hrange
  · rintro rfl
    refine ⟨rfl, ?_, ?_⟩
    · obtain ⟨l, hperm, hsublist⟩ := hselected
      exact hperm.nodup_iff.mp (hnodup.sublist hsublist)
    · intro id hid
      exact hsub (hselected.subset hid)

section Unjailed

variable {s : State L AccountId World}

theorem unjailedNextBest_eq : unjailedNextBest s =
    s.nextBestIds.filter fun id => !s.jailedKeygenAuthorities.containsKey id := by
  rw [unjailedNextBest, State.nextBestIds]
  rw [List.filter_map]
  rfl

theorem length_nextBestIds (h : NextBestSelected s) :
    s.nextBestIds.length = s.nextKeygenThreshold := by
  have hlength := congrArg List.length h.1
  simpa [State.nextBestIds] using hlength

theorem length_unjailedNextBest_le (h : NextBestSelected s) :
    (unjailedNextBest s).length ≤ s.nextKeygenThreshold := by
  rw [← length_nextBestIds h, unjailedNextBest_eq]
  exact List.length_filter_le _ _

theorem length_unjailedNextBest_eq_iff (h : NextBestSelected s) :
    (unjailedNextBest s).length = s.nextKeygenThreshold ↔
      ∀ id ∈ s.nextBestIds, s.jailedKeygenAuthorities.containsKey id = false := by
  rw [← length_nextBestIds h, unjailedNextBest_eq, List.length_filter_eq_length_iff]
  simp

theorem nodup_unjailedNextBest (h : NextBestSelected s) : (unjailedNextBest s).Nodup := by
  rw [unjailedNextBest_eq]
  exact h.2.1.filter _

theorem unjailedNextBest_subset (h : NextBestSelected s) :
    unjailedNextBest s ⊆ s.nextAuthorities.toList := by
  intro id hid
  rw [unjailedNextBest_eq] at hid
  exact h.2.2 id (List.mem_of_mem_filter hid)

theorem length_filter_ne {ids : List Public} {offender : Public} (hnodup : ids.Nodup)
    (hmem : offender ∈ ids) :
    (ids.filter fun id => id ≠ offender).length = ids.length - 1 := by
  have hfilter : (ids.filter fun id => id ≠ offender) = ids.erase offender := by
    rw [hnodup.erase_eq_filter offender]
    apply List.filter_congr
    intro id _
    by_cases hid : id = offender <;> simp [hid]
  rw [hfilter, List.length_erase_of_mem hmem]

end Unjailed

section Selections

variable {s : State L AccountId World} {best : BoundedVec (ℕ × Public) L.maxAuthorities}

theorem nextBestSelected_replaced {offender candidate : Public} (hfits : NextSetFits s)
    (h : NextBestSelected s) (hmem : offender ∈ unjailedNextBest s)
    (hcandidate : candidate ∈ replacementCandidates (unjailedNextBest s) s)
    (hbest : SelectsBest s.nextKeygenThreshold
      ((unjailedNextBest s).filter (fun id => id ≠ offender) ++ [candidate]) best.toList) :
    NumbersMembers s.nextKeygenThreshold s.nextAuthorities.toList best.toList ↔
      ∀ id ∈ s.nextBestIds, s.jailedKeygenAuthorities.containsKey id = false := by
  obtain ⟨hnext, hnew⟩ : candidate ∈ s.nextAuthorities.toList ∧
      candidate ∉ unjailedNextBest s := by
    simp only [replacementCandidates, List.mem_filter, Bool.and_eq_true,
      Bool.not_eq_true', decide_eq_false_iff_not] at hcandidate
    exact ⟨hcandidate.1, hcandidate.2.1⟩
  have hnodup : ((unjailedNextBest s).filter (fun id => id ≠ offender) ++
      [candidate]).Nodup := by
    refine ((nodup_unjailedNextBest h).filter _).append (List.nodup_singleton candidate) ?_
    rw [List.disjoint_singleton]
    intro hfilter
    exact hnew (List.mem_of_mem_filter hfilter)
  have hsub : (unjailedNextBest s).filter (fun id => id ≠ offender) ++ [candidate] ⊆
      s.nextAuthorities.toList := by
    refine List.append_subset.mpr ⟨?_, ?_⟩
    · intro id hid
      exact unjailedNextBest_subset h (List.mem_of_mem_filter hid)
    · simpa using hnext
  have hpos := List.length_pos_of_mem hmem
  have hle := length_unjailedNextBest_le h
  rw [numbersMembers_iff_of_selectsBest hbest hfits.2.1 hnodup hsub,
    ← length_unjailedNextBest_eq_iff h,
    List.length_append, length_filter_ne (nodup_unjailedNextBest h) hmem, List.length_singleton]
  omega

theorem nextBestSelected_outside (hfits : NextSetFits s) (h : NextBestSelected s)
    (hbest : SelectsBest s.nextKeygenThreshold (unjailedNextBest s) best.toList) :
    NumbersMembers s.nextKeygenThreshold s.nextAuthorities.toList best.toList ↔
      ∀ id ∈ s.nextBestIds, s.jailedKeygenAuthorities.containsKey id = false := by
  have hle := length_unjailedNextBest_le h
  rw [numbersMembers_iff_of_selectsBest hbest hfits.2.1 (nodup_unjailedNextBest h)
    (unjailedNextBest_subset h), ← length_unjailedNextBest_eq_iff h]
  omega

theorem two_lt_length_of_selectsBest {offender : Public} {ids : List Public} {count : ℕ}
    (hnodup : ids.Nodup) (hmem : offender ∈ ids)
    (hbest : SelectsBest count (ids.filter fun id => id ≠ offender) best.toList)
    (htwo : 2 ≤ best.length) : 2 < ids.length := by
  obtain ⟨selected, -, hlength, hnumbered⟩ := hbest
  have hbestLength : best.length = selected.length := by
    rw [BoundedVec.length]
    rw [hnumbered, length_numbered]
  rw [length_filter_ne hnodup hmem] at hlength
  omega

theorem dropThresholds_eq_ite {unjailed : ℕ} (hbits : s.nextKeygenThreshold < 2 ^ 16)
    (hle : unjailed ≤ s.nextKeygenThreshold) (htwo : 2 < unjailed) :
    dropThresholds unjailed s =
      if unjailed - 1 ≤ s.nextSignatureThreshold ∧ s.nextSignatureThreshold ≠ 1 then
        { s with
          nextKeygenThreshold := unjailed - 1
          pendingKeygenThreshold := unjailed - 1
          nextSignatureThreshold := wrappingSub 16 s.nextSignatureThreshold 1
          pendingSignatureThreshold := wrappingSub 16 s.nextSignatureThreshold 1 }
      else
        { s with
          nextKeygenThreshold := unjailed - 1
          pendingKeygenThreshold := unjailed - 1 } := by
  have hu16 : tryIntoU16 (unjailed - 1) = unjailed - 1 := if_pos (by omega)
  rw [dropThresholds]
  rw [if_pos ⟨hle, htwo⟩, hu16]

theorem nextKeygenThreshold_dropped {offender : Public} (hfits : NextSetFits s)
    (h : NextBestSelected s) (hmem : offender ∈ unjailedNextBest s)
    (hbest : SelectsBest (dropThresholds (unjailedNextBest s).length s).nextKeygenThreshold
      ((unjailedNextBest s).filter fun id => id ≠ offender) best.toList)
    (htwo : 2 ≤ best.length) :
    (dropThresholds (unjailedNextBest s).length s).nextKeygenThreshold =
      (unjailedNextBest s).length - 1 := by
  have hlt := two_lt_length_of_selectsBest (nodup_unjailedNextBest h) hmem hbest htwo
  rw [dropThresholds_eq_ite hfits.2.1 (length_unjailedNextBest_le h) hlt]
  split <;> rfl

theorem numbersMembers_repaired {next : BoundedVec Public L.maxAuthorities} {pending : ℕ}
    (hpending : pending < 2 ^ 16) (hnodup : next.toList.Nodup)
    (hbest : SelectsBest (repairKeygenThreshold next.length pending) next.toList
      best.toList) :
    NumbersMembers (repairKeygenThreshold next.length pending) next.toList
      best.toList := by
  refine (numbersMembers_iff_of_selectsBest hbest (repairKeygenThreshold_lt hpending)
    hnodup (List.Subset.refl _)).mpr ?_
  change min _ next.length = _
  rw [repairKeygenThreshold_fits hpending]
  omega

theorem nextBestSelected_dropped {offender : Public} (hfits : NextSetFits s)
    (h : NextBestSelected s) (hmem : offender ∈ unjailedNextBest s)
    (hbest : SelectsBest (dropThresholds (unjailedNextBest s).length s).nextKeygenThreshold
      ((unjailedNextBest s).filter fun id => id ≠ offender) best.toList)
    (htwo : 2 ≤ best.length) :
    NumbersMembers (dropThresholds (unjailedNextBest s).length s).nextKeygenThreshold
      s.nextAuthorities.toList best.toList := by
  have hdropped := nextKeygenThreshold_dropped hfits h hmem hbest htwo
  have hle := length_unjailedNextBest_le h
  have hthreshold := hfits.2.1
  refine (numbersMembers_iff_of_selectsBest hbest ?_
    ((nodup_unjailedNextBest h).filter _) ?_).mpr ?_
  · omega
  · intro id hid
    exact unjailedNextBest_subset h (List.mem_of_mem_filter hid)
  · rw [hdropped, length_filter_ne (nodup_unjailedNextBest h) hmem]
    omega

theorem tryIntoU16_lt (n : ℕ) : tryIntoU16 n < 2 ^ 16 := by
  rw [tryIntoU16]
  split <;> omega

theorem dropThresholds_fits (n : ℕ) (hfits : NextSetFits s) :
    (dropThresholds n s).nextKeygenThreshold < 2 ^ 16 ∧
      (dropThresholds n s).pendingKeygenThreshold < 2 ^ 16 := by
  rw [dropThresholds]
  split
  · dsimp only
    split <;> exact ⟨tryIntoU16_lt _, tryIntoU16_lt _⟩
  · exact hfits.2

end Selections

section Steps

variable [DecidableEq AccountId] {cfg : Config L AccountId World}
variable {s : State L AccountId World} {call : Call L AccountId World}

theorem nextSetFits_step (hfits : NextSetFits s) (hcall : QueuesDistinct s call) :
    NextSetFits (step cfg s call) := by
  refine keeps_step_of_effect (Q := NextSetFits) (fun _ => Iff.rfl) hfits ?_
  intro t heffect
  obtain ⟨hnodup, hnext, hpending⟩ := hfits
  cases heffect with
  | @setKeygenThreshold origin t hforce hone hle => exact ⟨hnodup, hnext, t.toNat_lt⟩
  | keygenDropped htype hmem hnone hbest htwo =>
      exact ⟨hnodup, dropThresholds_fits _ ⟨hnodup, hnext, hpending⟩⟩
  | forcedShift world hforce hkey hbest =>
      exact ⟨hnodup, repairKeygenThreshold_lt hpending, repairKeygenThreshold_lt hpending⟩
  | forcedRotation world hforce hkey hbest hpub hnonce =>
      exact ⟨hnodup, repairKeygenThreshold_lt hpending, repairKeygenThreshold_lt hpending⟩
  | sessionShift world hkeys hnext hbest =>
      exact ⟨hnext ▸ hcall.1, repairKeygenThreshold_lt hpending,
        repairKeygenThreshold_lt hpending⟩
  | sessionRotation world hkey hsig hnext hbest hactive =>
      exact ⟨hnext ▸ hcall.1, repairKeygenThreshold_lt hpending,
        repairKeygenThreshold_lt hpending⟩
  | _ => exact ⟨hnodup, hnext, hpending⟩

theorem nextBestSelected_step_iff (hfits : NextSetFits s) (h : NextBestSelected s)
    (hcall : QueuesDistinct s call) :
    NextBestSelected (step cfg s call) ↔
      (Accepted cfg s call → ReportsOnUnjailed s call) := by
  refine step_iff_of_effect (Q := NextBestSelected) (fun _ => Iff.rfl) h ?_
  intro t heffect
  cases heffect with
  | keygenReplaced htype hmem hcandidate hbest =>
      have hsome : replacementCandidates (unjailedNextBest s) s ≠ [] :=
        List.ne_nil_of_mem hcandidate
      refine (nextBestSelected_replaced hfits h hmem hcandidate hbest).trans ?_
      simp only [ReportsOnUnjailed, htype, hsome, and_false, or_false, forall_const]
  | keygenDropped htype hmem hnone hbest htwo =>
      refine iff_of_true (nextBestSelected_dropped hfits h hmem hbest htwo) ?_
      exact fun _ => .inr ⟨hmem, hnone⟩
  | keygenOutside htype hmem hbest =>
      refine (nextBestSelected_outside hfits h hbest).trans ?_
      simp only [ReportsOnUnjailed, htype, hmem, false_and, or_false, forall_const]
  | signReport htype =>
      refine iff_of_true h ?_
      intro hkeygen
      rw [htype] at hkeygen
      cases hkeygen
  | forcedShift world hforce hkey hbest =>
      refine iff_of_true ?_ trivial
      exact numbersMembers_repaired hfits.2.2 hfits.1 hbest
  | forcedRotation world hforce hkey hbest hpub hnonce =>
      refine iff_of_true ?_ trivial
      exact numbersMembers_repaired hfits.2.2 hfits.1 hbest
  | sessionShift world hkeys hnext hbest =>
      refine iff_of_true ?_ trivial
      exact numbersMembers_repaired hfits.2.2 (hnext ▸ hcall.1) hbest
  | sessionRotation world hkey hsig hnext hbest hactive =>
      refine iff_of_true ?_ trivial
      exact numbersMembers_repaired hfits.2.2 (hnext ▸ hcall.1) hbest
  | idle hidle =>
      refine iff_of_true h ?_
      cases call with
      | submitMisbehaviourReports origin reports => cases hidle
      | _ => trivial
  | _ => exact iff_of_true h trivial

end Steps

/-- The next best authorities are selected in every state of a run exactly if no keygen
report that is accepted in it finds a jailed authority among them, those that drop the
threshold apart. -/
theorem nextBestSelected_run_iff [DecidableEq AccountId] (cfg : Config L AccountId World)
    (genesis : GenesisConfig AccountId) (validators : List (AccountId × Public))
    (world : World) (s : State L AccountId World) (calls : List (Call L AccountId World))
    (hnodup : (validators.map Prod.snd).Nodup)
    (hkeygen : genesis.keygenThreshold.toNat ≤ validators.length)
    (hgenesis : genesisState cfg genesis validators world = .ok s)
    (hlegal : StepsMeet (step cfg) QueuesDistinct s calls) :
    Always (step cfg) NextBestSelected s calls ↔
      StepsMeet (step cfg) (fun t call => Accepted cfg t call → ReportsOnUnjailed t call)
        s calls := by
  have hthresholds := genesisState_thresholds hgenesis
  have hvalidators : validators ≠ [] := by
    rintro rfl
    simp only [List.length_nil] at hkeygen
    omega
  have hbits := genesis.keygenThreshold.toNat_lt
  obtain ⟨world', authorities, accounts, best, hauthorities, hbest, -, -, rfl⟩ :=
    genesisState_ok hvalidators hgenesis
  have hnext : authorities.toList.Nodup := hauthorities ▸ hnodup
  refine always_iff_stepsMeet NextSetFits ?_ ?_ ⟨hnext, hbits, hbits⟩ ?_ hlegal
  · intro t call hfits _ hcall _
    exact nextSetFits_step hfits hcall
  · intro t call hfits h hcall
    exact nextBestSelected_step_iff hfits h hcall
  · refine (numbersMembers_iff_of_selectsBest hbest hbits hnext
      (List.Subset.refl _)).mpr ?_
    rw [hauthorities, List.length_map]
    exact Nat.min_eq_left hkeygen

def sampleKeygenReport (offender first second : UInt8) : Call runtimeLimits ℕ Unit :=
  .submitMisbehaviourReports .none
    (sampleReport .keygen offender [first, second] [first, second])

theorem nextBestSelected_run_replaced :
    NextBestSelected
      (run (step sampleConfig) (sampleGenesis 3 1 4) [sampleKeygenReport 1 2 3]) := by
  have hrun := nextBestSelected_run_iff sampleConfig (sampleGenesisConfig 3 1 4)
    (sampleValidators 4) () (sampleGenesis 3 1 4) [sampleKeygenReport 1 2 3]
    (by decide) (by decide) rfl (stepsMeet_cons.mpr ⟨trivial, stepsMeet_nil⟩)
  refine hrun.mpr (stepsMeet_cons.mpr ⟨fun _ _ => .inl ?_, stepsMeet_nil⟩) _ [] rfl
  rw [← List.forall_iff_forall_mem]
  decide +kernel

/-- Two authorities are jailed and one of them is selected again, because there are not
enough others.  After the other one is released, a report on it leaves a next best
authority less than the threshold. -/
theorem nextBestSelected_fails_with_jailed :
    ¬NextBestSelected (run (step sampleConfig) (sampleGenesis 3 1 4)
      [sampleKeygenReport 1 2 3, sampleKeygenReport 2 3 4, .setKeygenThreshold .root 3,
        .forceChangeAuthorities .root, .forceUnjailKeygen .root (samplePublic 2),
        sampleKeygenReport 2 3 4]) := by
  rw [NextBestSelected]
  decide +kernel

end DkgSubstrate.NextBest
