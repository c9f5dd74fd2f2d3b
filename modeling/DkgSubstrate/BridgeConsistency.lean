import DkgSubstrate.BridgeRegistry
import DkgSubstrate.Runs

/-!
The two maps of the bridge registry.  The resources that are assigned to a bridge are those
that the bridge lists, as long as no bridge overflows and no resource is linked with itself.
-/

namespace DkgSubstrate.BridgeConsistency

open DkgSubstrate.BridgeRegistry
open DkgSubstrate.Dispatch
open DkgSubstrate.Primitives
open DkgSubstrate.Runs
open DkgSubstrate.Words

variable {L : Limits} {cfg : Config} {AccountId Info : Type}

/-- The resources that a bridge lists, none if there is no such bridge. -/
def members (bridges : StorageMap ℕ (BridgeMetadata cfg Info)) (index : ℕ) :
    List ResourceId :=
  ((bridges.lookup index).map fun metadata => metadata.resourceIds.toList).getD []

theorem members_of_lookup {bridges : StorageMap ℕ (BridgeMetadata cfg Info)} {index : ℕ}
    {metadata : BridgeMetadata cfg Info} (h : bridges.lookup index = some metadata) :
    members bridges index = metadata.resourceIds.toList := by
  rw [members, h]
  rfl

theorem exists_lookup_of_mem {bridges : StorageMap ℕ (BridgeMetadata cfg Info)} {index : ℕ}
    {r : ResourceId} (h : r ∈ members bridges index) :
    ∃ metadata, bridges.lookup index = some metadata := by
  rw [members] at h
  cases hlookup : bridges.lookup index with
  | none =>
      rw [hlookup] at h
      cases h
  | some metadata => exact ⟨metadata, rfl⟩

theorem members_insert {bridges : StorageMap ℕ (BridgeMetadata cfg Info)} {index b : ℕ}
    {metadata : BridgeMetadata cfg Info} :
    members (bridges.insert index metadata) b =
      if b = index then metadata.resourceIds.toList else members bridges b := by
  rw [members, StorageMap.lookup_insert_eq]
  split <;> rfl

/-- A resource is assigned to a bridge exactly if the bridge lists it, once, and the index of
the bridge has been given out. -/
structure Consistent (s : State cfg Info) : Prop where
  agree : ∀ r b, s.resourceToBridgeIndex.lookup r = some b ↔ r ∈ members s.bridges b
  nodup : ∀ b, (members s.bridges b).Nodup
  below : ∀ r b, s.resourceToBridgeIndex.lookup r = some b → b < s.nextBridgeIndex

/-- What of it stays when a resource is linked with itself.  The index zero stands for no
bridge and must not be given out. -/
structure Registered (s : State cfg Info) : Prop where
  agree : ∀ r b, s.resourceToBridgeIndex.lookup r = some b ↔ r ∈ members s.bridges b
  below : ∀ r b, s.resourceToBridgeIndex.lookup r = some b → b < s.nextBridgeIndex
  next_ne_zero : s.nextBridgeIndex ≠ 0
  assigned_ne_zero : ∀ r, s.resourceToBridgeIndex.lookup r ≠ some 0

theorem Registered.consistent_iff {s : State cfg Info} (h : Registered s) :
    Consistent s ↔ ∀ b, (members s.bridges b).Nodup :=
  ⟨fun hconsistent => hconsistent.nodup, fun hnodup => ⟨h.agree, hnodup, h.below⟩⟩

theorem registered_genesis : Registered (genesisState [] : State cfg Info) where
  agree r b := by
    change (none : Option ℕ) = some b ↔ r ∈ []
    simp
  below r b h := by cases h
  next_ne_zero := Nat.one_ne_zero
  assigned_ne_zero r h := by cases h

theorem consistent_genesis : Consistent (genesisState [] : State cfg Info) :=
  registered_genesis.consistent_iff.mpr fun _ => List.nodup_nil

structure Adds (s s' : State cfg Info) (index : ℕ) (added : List ResourceId) : Prop where
  unassigned : ∀ r ∈ added, s.resourceToBridgeIndex.lookup r = none
  lookup : ∀ r, s'.resourceToBridgeIndex.lookup r =
    if r ∈ added then some index else s.resourceToBridgeIndex.lookup r
  members : ∀ b, members s'.bridges b =
    members s.bridges b ++ if b = index then added else []

theorem Registered.notMem_of_unassigned {s : State cfg Info} (h : Registered s)
    {r : ResourceId} (hr : s.resourceToBridgeIndex.lookup r = none) (b : ℕ) :
    r ∉ members s.bridges b := by
  rw [← h.agree, hr]
  intro hassigned
  cases hassigned

theorem Registered.adds {s s' : State cfg Info} {index : ℕ} {added : List ResourceId}
    (h : Registered s) (hadds : Adds s s' index added) (hindex : index ≠ 0)
    (hbelow : index < s'.nextBridgeIndex) (hnext : s.nextBridgeIndex ≤ s'.nextBridgeIndex) :
    Registered s' where
  agree r b := by
    rw [hadds.lookup, hadds.members, List.mem_append]
    by_cases hr : r ∈ added
    · have hnot := h.notMem_of_unassigned (hadds.unassigned r hr) b
      rw [if_pos hr, Option.some.injEq]
      split <;> simp_all [eq_comm]
    · rw [if_neg hr, h.agree]
      split <;> simp_all
  below r b hlookup := by
    rw [hadds.lookup] at hlookup
    split at hlookup
    · exact Option.some.inj hlookup ▸ hbelow
    · exact Nat.lt_of_lt_of_le (h.below r b hlookup) hnext
  next_ne_zero := by omega
  assigned_ne_zero r := by
    rw [hadds.lookup]
    split
    · simpa using hindex
    · exact h.assigned_ne_zero r

theorem Registered.nodup_adds_iff {s s' : State cfg Info} {index : ℕ}
    {added : List ResourceId} (h : Registered s) (hadds : Adds s s' index added)
    (hnodup : ∀ b, (members s.bridges b).Nodup) :
    (∀ b, (members s'.bridges b).Nodup) ↔ added.Nodup := by
  have hdisjoint : ∀ b, (members s.bridges b).Disjoint added :=
    fun b r hr hadded => h.notMem_of_unassigned (hadds.unassigned r hadded) b hr
  constructor
  · intro hall
    have hindex := hall index
    rw [hadds.members, if_pos rfl] at hindex
    exact (List.nodup_append'.mp hindex).2.1
  · intro hadded b
    rw [hadds.members]
    split
    · exact List.nodup_append'.mpr ⟨hnodup b, hadded, hdisjoint b⟩
    · rw [List.append_nil]
      exact hnodup b

/-- No bridge and no index overflows when the resources are linked. -/
def HasRoom (src dest : ResourceId) (s : State cfg Info) : Prop :=
  match s.resourceToBridgeIndex.lookup src, s.resourceToBridgeIndex.lookup dest with
  | none, none => 2 ≤ cfg.maxResources ∧ s.nextBridgeIndex + 1 < 2 ^ 32
  | none, some index | some index, none =>
      (members s.bridges index).length < cfg.maxResources
  | some _, some _ => True

instance (src dest : ResourceId) (s : State cfg Info) : Decidable (HasRoom src dest s) := by
  unfold HasRoom
  split <;> infer_instance

inductive Linked (s : State cfg Info) (src dest : ResourceId) :
    State cfg Info × Except DispatchError Unit → Prop
  | opened {s' : State cfg Info}
      (hsrc : s.resourceToBridgeIndex.lookup src = none)
      (hdest : s.resourceToBridgeIndex.lookup dest = none)
      (hmax : 2 ≤ cfg.maxResources)
      (hadds : Adds s s' s.nextBridgeIndex [src, dest])
      (hnext : s'.nextBridgeIndex = wrappingAdd 32 s.nextBridgeIndex 1) :
      Linked s src dest (s', .ok ())
  | joined {s' : State cfg Info} {r other : ResourceId} {index : ℕ}
      (hends : r = src ∧ other = dest ∨ r = dest ∧ other = src)
      (hother : s.resourceToBridgeIndex.lookup other = some index)
      (hroom : HasRoom src dest s)
      (hadds : Adds s s' index [r])
      (hnext : s'.nextBridgeIndex = s.nextBridgeIndex) :
      Linked s src dest (s', .ok ())
  | inside {index : ℕ}
      (hsrc : s.resourceToBridgeIndex.lookup src = some index)
      (hdest : s.resourceToBridgeIndex.lookup dest = some index) :
      Linked s src dest (s, .ok ())
  | apart {i j : ℕ}
      (hsrc : s.resourceToBridgeIndex.lookup src = some i)
      (hdest : s.resourceToBridgeIndex.lookup dest = some j) (hne : i ≠ j) :
      Linked s src dest (s, .error (.bridgeRegistry .bridgeIndexError))
  | overflown {s' : State cfg Info} {e : DispatchError} {r : ResourceId} {index : ℕ}
      (hfull : ¬HasRoom src dest s)
      (hunassigned : s.resourceToBridgeIndex.lookup r = none)
      (hassigned : s'.resourceToBridgeIndex.lookup r = some index)
      (hbridges : s'.bridges = s.bridges) :
      Linked s src dest (s', .error e)

theorem joinBridge_linked {s : State cfg Info} (h : Registered s) {src dest r other : ResourceId}
    {index : ℕ} (hother : s.resourceToBridgeIndex.lookup other = some index)
    (hends : r = src ∧ other = dest ∨ r = dest ∧ other = src)
    (hr : s.resourceToBridgeIndex.lookup r = none) :
    Linked s src dest (joinBridge r index s) := by
  obtain ⟨metadata, hmetadata⟩ := exists_lookup_of_mem ((h.agree other index).mp hother)
  have hroom : HasRoom src dest s ↔ metadata.resourceIds.toList.length < cfg.maxResources := by
    rw [← members_of_lookup hmetadata, HasRoom]
    rcases hends with ⟨rfl, rfl⟩ | ⟨rfl, rfl⟩
    · rw [hr, hother]
    · rw [hr, hother]
  simp only [joinBridge, bridges_assign, hmetadata]
  split
  · rename_i hpush
    refine Linked.overflown ?_ hr (by rw [lookup_assign, if_pos rfl]) rfl
    rw [hroom]
    exact Nat.not_lt.mpr (BoundedVec.tryPush_eq_none.mp hpush)
  · rename_i resourceIds hpush
    have hids := BoundedVec.tryPush_eq_some.mp hpush
    refine Linked.joined (r := r) hends hother ?_ ⟨?_, ?_, ?_⟩ rfl
    · rw [hroom]
      have hlength := resourceIds.length_le
      rw [hids, List.length_append] at hlength
      exact hlength
    · intro r' hr'
      rw [List.mem_singleton.mp hr']
      exact hr
    · intro r'
      simp only [lookup_assign, List.mem_singleton]
    · intro b
      rw [members_insert, hids, ← members_of_lookup hmetadata]
      split
      · rename_i hb
        rw [hb]
      · exact (List.append_nil _).symm

variable [Inhabited Info]

theorem openBridge_linked {s : State cfg Info} (h : Registered s) {src dest : ResourceId}
    (hsrc : s.resourceToBridgeIndex.lookup src = none)
    (hdest : s.resourceToBridgeIndex.lookup dest = none) :
    Linked s src dest (openBridge src dest s) := by
  have hempty : members s.bridges s.nextBridgeIndex = [] := by
    rw [List.eq_nil_iff_forall_not_mem]
    intro r hr
    exact Nat.lt_irrefl _ (h.below r _ ((h.agree r _).mpr hr))
  simp only [openBridge, BoundedVec.tryPush_bind_tryPush, bridges_assign,
    nextBridgeIndex_assign, BoundedVec.toList_default, List.nil_append]
  split
  · rename_i hfull
    refine Linked.overflown ?_ hdest (by rw [lookup_assign, if_pos rfl]) rfl
    rw [HasRoom, hsrc, hdest]
    rintro ⟨hmax, -⟩
    exact Nat.not_lt.mpr hmax (BoundedVec.tryFrom_eq_none.mp hfull)
  · rename_i resourceIds hpush
    have hids := BoundedVec.tryFrom_eq_some.mp hpush
    refine Linked.opened hsrc hdest ?_ ⟨?_, ?_, ?_⟩ rfl
    · have hlength := resourceIds.length_le
      rw [hids] at hlength
      exact hlength
    · intro r hr
      rcases List.mem_pair.mp hr with rfl | rfl
      · exact hsrc
      · exact hdest
    · intro r
      simp only [lookup_assign, List.mem_pair]
      split <;> split <;> simp_all
    · intro b
      rw [members_insert, hids]
      split
      · rename_i hb
        rw [hb, hempty, List.nil_append]
      · exact (List.append_nil _).symm

theorem linkResources_eq {s : State cfg Info} (h : Registered s) (src dest : ResourceId) :
    linkResources src dest s =
      match s.resourceToBridgeIndex.lookup src, s.resourceToBridgeIndex.lookup dest with
      | none, none => openBridge src dest s
      | none, some index => joinBridge src index s
      | some index, none => joinBridge dest index s
      | some i, some j =>
          if i = j then (s, .ok ()) else (s, .error (.bridgeRegistry .bridgeIndexError)) := by
  cases hi : s.resourceToBridgeIndex.lookup src with
  | none =>
      cases hj : s.resourceToBridgeIndex.lookup dest with
      | none => simp [linkResources, StorageMap.getD, hi, hj]
      | some j =>
          have hdest : j ≠ 0 := fun hzero => h.assigned_ne_zero dest (hzero ▸ hj)
          simp [linkResources, StorageMap.getD, hi, hj, hdest]
  | some i =>
      have hsrc : i ≠ 0 := fun hzero => h.assigned_ne_zero src (hzero ▸ hi)
      cases hj : s.resourceToBridgeIndex.lookup dest with
      | none => simp [linkResources, StorageMap.getD, hi, hj, hsrc]
      | some j =>
          have hdest : j ≠ 0 := fun hzero => h.assigned_ne_zero dest (hzero ▸ hj)
          simp [linkResources, StorageMap.getD, hi, hj, hsrc, hdest]

theorem linkResources_linked {s : State cfg Info} (h : Registered s) (src dest : ResourceId) :
    Linked s src dest (linkResources src dest s) := by
  rw [linkResources_eq h]
  cases hi : s.resourceToBridgeIndex.lookup src with
  | none =>
      cases hj : s.resourceToBridgeIndex.lookup dest with
      | none => exact openBridge_linked h hi hj
      | some j => exact joinBridge_linked h hj (Or.inl ⟨rfl, rfl⟩) hi
  | some i =>
      cases hj : s.resourceToBridgeIndex.lookup dest with
      | none => exact joinBridge_linked h hi (Or.inr ⟨rfl, rfl⟩) hj
      | some j =>
          dsimp only
          split
          · rename_i heq
            exact Linked.inside hi (heq ▸ hj)
          · rename_i hne
            exact Linked.apart hi hj hne

theorem registered_linkResources {s : State cfg Info} (h : Registered s)
    {src dest : ResourceId} (hroom : HasRoom src dest s) :
    Registered (linkResources src dest s).1 := by
  have hlinked := linkResources_linked h src dest
  generalize linkResources src dest s = out at hlinked ⊢
  cases hlinked with
  | @opened s' hsrc hdest hmax hadds hnext =>
      change Registered s'
      rw [HasRoom, hsrc, hdest] at hroom
      rw [wrappingAdd_of_lt hroom.2] at hnext
      exact h.adds hadds h.next_ne_zero (by omega) (by omega)
  | @joined s' r other index hends hother hroom hadds hnext =>
      have hne : index ≠ 0 := fun hzero => h.assigned_ne_zero other (hzero ▸ hother)
      have hbelow := h.below other index hother
      exact h.adds hadds hne (hnext ▸ hbelow) (Nat.le_of_eq hnext.symm)
  | inside hsrc hdest => exact h
  | apart hsrc hdest hne => exact h
  | overflown hfull => exact absurd hroom hfull

def LinksTwo (src dest : ResourceId) (s : State cfg Info) : Prop :=
  s.resourceToBridgeIndex.lookup src = none → s.resourceToBridgeIndex.lookup dest = none →
    src ≠ dest

instance (src dest : ResourceId) (s : State cfg Info) : Decidable (LinksTwo src dest s) :=
  inferInstanceAs (Decidable (_ → _ → _))

theorem consistent_linkResources_of_hasRoom {s : State cfg Info} (h : Registered s)
    (hconsistent : Consistent s) {src dest : ResourceId} (hroom : HasRoom src dest s) :
    Consistent (linkResources src dest s).1 ↔ LinksTwo src dest s := by
  rw [(registered_linkResources h hroom).consistent_iff]
  have hlinked := linkResources_linked h src dest
  generalize linkResources src dest s = out at hlinked ⊢
  rw [LinksTwo]
  cases hlinked with
  | opened hsrc hdest hmax hadds hnext =>
      rw [h.nodup_adds_iff hadds hconsistent.nodup, List.nodup_cons, List.mem_singleton]
      simp [hsrc, hdest]
  | joined hends hother hroom hadds hnext =>
      rw [h.nodup_adds_iff hadds hconsistent.nodup]
      refine iff_of_true (List.nodup_singleton _) ?_
      intro hsrc hdest
      rcases hends with ⟨-, rfl⟩ | ⟨-, rfl⟩
      · rw [hother] at hdest
        cases hdest
      · rw [hother] at hsrc
        cases hsrc
  | inside hsrc hdest => exact iff_of_true hconsistent.nodup (by simp [hsrc])
  | apart hsrc hdest hne => exact iff_of_true hconsistent.nodup (by simp [hsrc])
  | overflown hfull => exact absurd hroom hfull

theorem not_consistent_linkResources {s : State cfg Info} (h : Registered s)
    {src dest : ResourceId} (hroom : ¬HasRoom src dest s) :
    ¬Consistent (linkResources src dest s).1 := by
  intro hafter
  have hlinked := linkResources_linked h src dest
  generalize linkResources src dest s = out at hlinked hafter
  cases hlinked with
  | opened hsrc hdest hmax hadds hnext =>
      -- The next index has wrapped around.
      have hlookup := hadds.lookup src
      rw [if_pos (List.mem_cons_self)] at hlookup
      have hbelow := hafter.below src _ hlookup
      rw [HasRoom, hsrc, hdest] at hroom
      rw [hnext, wrappingAdd] at hbelow
      have := Nat.mod_lt (s.nextBridgeIndex + 1) (show 0 < 2 ^ 32 by decide)
      exact hroom ⟨hmax, by omega⟩
  | joined _ _ hfits => exact hroom hfits
  | inside hsrc hdest => exact hroom (by simp [HasRoom, hsrc, hdest])
  | apart hsrc hdest hne => exact hroom (by simp [HasRoom, hsrc, hdest])
  | overflown hfull hunassigned hassigned hbridges =>
      -- The resource has been assigned to a bridge that does not list it.
      have hmem := (hafter.agree _ _).mp hassigned
      rw [hbridges] at hmem
      exact h.notMem_of_unassigned hunassigned _ hmem

theorem consistent_linkResources_iff {s : State cfg Info} (h : Registered s)
    (hconsistent : Consistent s) (src dest : ResourceId) :
    Consistent (linkResources src dest s).1 ↔
      HasRoom src dest s ∧ LinksTwo src dest s := by
  by_cases hroom : HasRoom src dest s
  · rw [and_iff_right hroom]
    exact consistent_linkResources_of_hasRoom h hconsistent hroom
  · exact iff_of_false (not_consistent_linkResources h hroom) fun hboth => hroom hboth.1

def link (cfg : Config) : Call L AccountId Info → Option (ResourceId × ResourceId)
  | .onSignedProposal proposal => anchorUpdate cfg proposal
  | _ => none

def isForceReset : Call L AccountId Info → Bool
  | .forceResetIndices .. => true
  | _ => false

theorem step_link {admin : Admin AccountId Info} {s : State cfg Info}
    {call : Call L AccountId Info} {src dest : ResourceId}
    (h : link cfg call = some (src, dest)) :
    step admin s call = (linkResources src dest s).1 := by
  cases call with
  | onSignedProposal proposal =>
      rw [step, onSignedProposal_link h]
      rfl
  | setMetadata | forceResetIndices => cases h

theorem step_other (admin : Admin AccountId Info) {s : State cfg Info}
    {call : Call L AccountId Info} (h : link cfg call = none) (hreset : isForceReset call = false) :
    (step admin s call).resourceToBridgeIndex = s.resourceToBridgeIndex ∧
      (step admin s call).nextBridgeIndex = s.nextBridgeIndex ∧
      ∀ b, members (step admin s call).bridges b = members s.bridges b := by
  cases call with
  | onSignedProposal proposal =>
      rw [step, onSignedProposal_other h]
      exact ⟨rfl, rfl, fun b => rfl⟩
  | setMetadata origin bridgeIndex info =>
      rw [step]
      refine commit_cases (P := fun t : State cfg Info =>
        t.resourceToBridgeIndex = s.resourceToBridgeIndex ∧ t.nextBridgeIndex = s.nextBridgeIndex ∧
        ∀ b, members t.bridges b = members s.bridges b) ⟨rfl, rfl, fun b => rfl⟩ ?_
      intro s' hs'
      simp only [setMetadata, bind_eq_ok, ensure_eq_ok] at hs'
      obtain ⟨-, -, -, -, hs'⟩ := hs'
      rw [← Except.ok.inj hs']
      refine ⟨rfl, rfl, ?_⟩
      intro b
      rw [members_insert]
      split
      · rename_i hb
        rw [hb, members]
        cases s.bridges.lookup bridgeIndex <;> rfl
      · rfl
  | forceResetIndices => cases hreset

/-- Every link of the call has room, and no unassigned resource is linked with itself. -/
def KeepsConsistent (s : State cfg Info) (call : Call L AccountId Info) : Prop :=
  ∀ l ∈ link cfg call, HasRoom l.1 l.2 s ∧ LinksTwo l.1 l.2 s

instance (s : State cfg Info) (call : Call L AccountId Info) :
    Decidable (KeepsConsistent s call) :=
  Option.decidableForallMem _

theorem registered_step {admin : Admin AccountId Info} {s : State cfg Info}
    {call : Call L AccountId Info} (h : Registered s) (hreset : isForceReset call = false)
    (hroom : ∀ l ∈ link cfg call, HasRoom l.1 l.2 s) : Registered (step admin s call) := by
  cases hlink : link cfg call with
  | none =>
      obtain ⟨hresources, hnext, hmembers⟩ := step_other admin (s := s) hlink hreset
      refine ⟨?_, ?_, ?_, ?_⟩
      · intro r b
        rw [hresources, hmembers]
        exact h.agree r b
      · rw [hresources, hnext]
        exact h.below
      · rw [hnext]
        exact h.next_ne_zero
      · rw [hresources]
        exact h.assigned_ne_zero
  | some l =>
      rw [step_link hlink]
      exact registered_linkResources h (hroom l hlink)

theorem consistent_step_iff {admin : Admin AccountId Info} {s : State cfg Info}
    {call : Call L AccountId Info} (h : Registered s) (hconsistent : Consistent s)
    (hreset : isForceReset call = false) :
    Consistent (step admin s call) ↔ KeepsConsistent s call := by
  rw [KeepsConsistent]
  cases hlink : link cfg call with
  | none =>
      have hregistered : Registered (step admin s call) :=
        registered_step h hreset (by simp [hlink])
      obtain ⟨-, -, hmembers⟩ := step_other admin (s := s) hlink hreset
      refine iff_of_true (hregistered.consistent_iff.mpr ?_) (by simp)
      intro b
      rw [hmembers]
      exact hconsistent.nodup b
  | some l =>
      rw [step_link hlink, consistent_linkResources_iff h hconsistent]
      simp

/-- The maps stay consistent exactly in the runs in which no bridge and no index overflows and
no unassigned resource is linked with itself. -/
theorem consistent_iff_stepsMeet (admin : Admin AccountId Info)
    (calls : List (Call L AccountId Info)) (hcalls : ∀ call ∈ calls, isForceReset call = false) :
    Always (step admin) Consistent (genesisState [] : State cfg Info) calls ↔
      StepsMeet (step admin) KeepsConsistent (genesisState [] : State cfg Info) calls := by
  have hlegal : StepsMeet (step admin) (fun _ call => isForceReset call = false)
      (genesisState [] : State cfg Info) calls := by
    intro pre call post hsplit
    exact hcalls call (by simp [hsplit])
  refine always_iff_stepsMeet Registered ?_ ?_ registered_genesis consistent_genesis hlegal
  · intro s call h hconsistent hreset hafter
    have hkeeps := (consistent_step_iff h hconsistent hreset).mp hafter
    exact registered_step h hreset fun l hl => (hkeeps l hl).1
  · intro s call h hconsistent hreset
    exact consistent_step_iff h hconsistent hreset

def sampleRegistry (maxResources : ℕ) : Config where
  maxResources := maxResources
  anchorUpdateLength := 104
  decodeAnchorUpdate data :=
    (toFixed 32 (data.drop 72)).bind fun src =>
      (toFixed 32 (data.take 32)).map fun dest => (src, dest)

def sampleAdmin : Admin ℕ Unit where
  forceOrigin origin := origin matches .root
  maxAdditionalFields := 100
  additionalFields _ := 0

def sampleResource (i : UInt8) : ResourceId := List.Vector.replicate 32 i

def sampleUpdate (src dest : UInt8) : Call runtimeLimits ℕ Unit :=
  .onSignedProposal (.signed .anchorUpdate ((BoundedVec.tryFrom
    ((sampleResource dest).toList ++ List.replicate 40 0 ++ (sampleResource src).toList)).getD
      default) [])

def sampleUpdates : List (Call runtimeLimits ℕ Unit) :=
  [sampleUpdate 1 2, .setMetadata .root 1 (), sampleUpdate 3 2, sampleUpdate 4 5]

theorem sampleUpdates_consistent :
    (∀ call ∈ sampleUpdates, isForceReset call = false) ∧
      Always (step sampleAdmin) Consistent
        (genesisState [] : State (sampleRegistry 1000) Unit) sampleUpdates :=
  ⟨by decide, (consistent_iff_stepsMeet sampleAdmin sampleUpdates (by decide)).mpr
    (by decide +kernel)⟩

theorem sampleUpdates_inconsistent :
    ¬Always (step sampleAdmin) Consistent (genesisState [] : State (sampleRegistry 2) Unit)
        [sampleUpdate 1 2, sampleUpdate 1 3] ∧
      ¬Always (step sampleAdmin) Consistent (genesisState [] : State (sampleRegistry 1000) Unit)
        [sampleUpdate 1 1] := by
  constructor
  · intro h
    have hagree := (h [sampleUpdate 1 2, sampleUpdate 1 3] [] rfl).agree (sampleResource 3) 1
    revert hagree
    decide +kernel
  · intro h
    have hnodup := (h [sampleUpdate 1 1] [] rfl).nodup 1
    revert hnodup
    decide +kernel

end DkgSubstrate.BridgeConsistency
