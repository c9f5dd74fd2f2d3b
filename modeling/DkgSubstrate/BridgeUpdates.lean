import DkgSubstrate.BridgeConsistency

/-!
What an anchor update leaves behind in the bridge registry: the resources that it has assigned
before it fails, and the default metadata with which it opens a bridge.
-/

namespace DkgSubstrate.BridgeUpdates

open DkgSubstrate.BridgeConsistency
open DkgSubstrate.BridgeRegistry
open DkgSubstrate.Dispatch
open DkgSubstrate.Primitives
open DkgSubstrate.Proposals
open DkgSubstrate.Runs
open DkgSubstrate.Words

variable {L : Limits} {cfg : Config} {AccountId Info : Type}

def BothUnassigned (src dest : ResourceId) (s : State cfg Info) : Prop :=
  s.resourceToBridgeIndex.getD src 0 = 0 ∧ s.resourceToBridgeIndex.getD dest 0 = 0

instance decidableBothUnassigned (src dest : ResourceId) (s : State cfg Info) :
    Decidable (BothUnassigned src dest s) :=
  instDecidableAnd

def Extensible (index : ℕ) (s : State cfg Info) : Prop :=
  ∃ metadata, s.bridges.lookup index = some metadata ∧
    metadata.resourceIds.length < cfg.maxResources

theorem tryPush_pair_eq_none {n : ℕ} {src dest : ResourceId} :
    ((default : BoundedVec ResourceId n).tryPush src).bind (fun ids => ids.tryPush dest) = none ↔
      n < 2 := by
  cases hsrc : (default : BoundedVec ResourceId n).tryPush src with
  | none =>
      rw [BoundedVec.tryPush, BoundedVec.tryFrom_eq_none] at hsrc
      have hone : n < 1 := hsrc
      exact iff_of_true rfl (hone.trans one_lt_two)
  | some ids =>
      rw [BoundedVec.tryPush, BoundedVec.tryFrom_eq_some] at hsrc
      rw [Option.bind_some, BoundedVec.tryPush, BoundedVec.tryFrom_eq_none, hsrc]
      rfl

theorem openBridge_cases [Inhabited Info] (src dest : ResourceId) (s : State cfg Info) :
    (2 ≤ cfg.maxResources ∧ ∃ resourceIds, openBridge src dest s =
      ({ assign dest s.nextBridgeIndex (assign src s.nextBridgeIndex s) with
        bridges := s.bridges.insert s.nextBridgeIndex ⟨default, resourceIds⟩
        nextBridgeIndex := wrappingAdd 32 s.nextBridgeIndex 1 }, .ok ())) ∨
    cfg.maxResources < 2 ∧ openBridge src dest s =
      (assign dest s.nextBridgeIndex (assign src s.nextBridgeIndex s),
        .error (.bridgeRegistry .outOfBounds)) := by
  rw [openBridge]
  cases hids : ((default : BoundedVec ResourceId cfg.maxResources).tryPush src).bind
      (fun ids => ids.tryPush dest) with
  | none => exact .inr ⟨tryPush_pair_eq_none.mp hids, rfl⟩
  | some resourceIds =>
      refine .inl ⟨?_, resourceIds, rfl⟩
      refine Nat.not_lt.mp fun hfew => ?_
      rw [tryPush_pair_eq_none.mpr hfew] at hids
      cases hids

theorem joinBridge_cases (resource : ResourceId) (index : ℕ) (s : State cfg Info) :
    (∃ metadata resourceIds, s.bridges.lookup index = some metadata ∧
      metadata.resourceIds.length < cfg.maxResources ∧ joinBridge resource index s =
        ({ assign resource index s with
          bridges := s.bridges.insert index { metadata with resourceIds := resourceIds } },
          .ok ())) ∨
    ¬Extensible index s ∧ ∃ e, joinBridge resource index s =
      (assign resource index s, .error e) := by
  rw [joinBridge]
  dsimp only [bridges_assign]
  cases hlookup : s.bridges.lookup index with
  | none =>
      refine .inr ⟨?_, _, rfl⟩
      rintro ⟨metadata, hsome, -⟩
      rw [hlookup] at hsome
      cases hsome
  | some metadata =>
      dsimp only
      cases hids : metadata.resourceIds.tryPush resource with
      | none =>
          rw [BoundedVec.tryPush, BoundedVec.tryFrom_eq_none, List.length_append] at hids
          refine .inr ⟨?_, _, rfl⟩
          rintro ⟨found, hsome, hroom⟩
          rw [hlookup] at hsome
          rw [← Option.some.inj hsome] at hroom
          exact absurd hroom (Nat.not_lt.mpr (Nat.lt_succ_iff.mp hids))
      | some resourceIds =>
          have hlength := resourceIds.length_le
          rw [BoundedVec.tryPush, BoundedVec.tryFrom_eq_some] at hids
          rw [hids, List.length_append] at hlength
          exact .inl ⟨metadata, resourceIds, rfl, hlength, rfl⟩

structure Unchanged (s s' : State cfg Info) : Prop where
  nextBridgeIndex : s'.nextBridgeIndex = s.nextBridgeIndex
  resourceToBridgeIndex : ∀ r,
    s'.resourceToBridgeIndex.lookup r = s.resourceToBridgeIndex.lookup r
  bridges : ∀ index, s'.bridges.lookup index = s.bridges.lookup index

theorem Unchanged.refl (s : State cfg Info) : Unchanged s s :=
  ⟨rfl, fun _ => rfl, fun _ => rfl⟩

/-- An update that returns an error has changed nothing. -/
def UnchangedOnError [Inhabited Info] (proposal : Proposal L) (s : State cfg Info) : Prop :=
  ∀ s' e, onSignedProposal proposal s = .ok (s', .error e) → Unchanged s s'

/-- The resources can be linked, or they have the indices already that they would be
assigned.  The latter needs a next index that has come round to zero. -/
def Linkable (src dest : ResourceId) (s : State cfg Info) : Prop :=
  let srcIndex := s.resourceToBridgeIndex.getD src 0
  let destIndex := s.resourceToBridgeIndex.getD dest 0
  (BothUnassigned src dest s → 2 ≤ cfg.maxResources ∨
    s.resourceToBridgeIndex.lookup src = some s.nextBridgeIndex ∧
      s.resourceToBridgeIndex.lookup dest = some s.nextBridgeIndex) ∧
    (srcIndex = 0 → destIndex ≠ 0 → Extensible destIndex s) ∧
    (srcIndex ≠ 0 → destIndex = 0 → Extensible srcIndex s)

theorem unchanged_assign {r : ResourceId} {index : ℕ} {s : State cfg Info} :
    Unchanged s (assign r index s) ↔ s.resourceToBridgeIndex.lookup r = some index := by
  constructor
  · intro h
    have hr := h.resourceToBridgeIndex r
    rw [lookup_assign, if_pos rfl] at hr
    exact hr.symm
  · intro hlookup
    refine ⟨rfl, ?_, fun _ => rfl⟩
    intro r'
    rw [lookup_assign]
    by_cases hr : r' = r
    · rw [if_pos hr, hr, hlookup]
    · rw [if_neg hr]

theorem unchanged_assign_pair {src dest : ResourceId} {index : ℕ} {s : State cfg Info} :
    Unchanged s (assign dest index (assign src index s)) ↔
      s.resourceToBridgeIndex.lookup src = some index ∧
        s.resourceToBridgeIndex.lookup dest = some index := by
  constructor
  · intro h
    have hsrc := h.resourceToBridgeIndex src
    have hdest := h.resourceToBridgeIndex dest
    rw [lookup_assign, lookup_assign, if_pos rfl, ite_self] at hsrc
    rw [lookup_assign, if_pos rfl] at hdest
    exact ⟨hsrc.symm, hdest.symm⟩
  · rintro ⟨hsrc, hdest⟩
    refine ⟨rfl, ?_, fun _ => rfl⟩
    intro r
    rw [lookup_assign, lookup_assign]
    by_cases hd : r = dest
    · rw [if_pos hd, hd, hdest]
    · rw [if_neg hd]
      by_cases hs : r = src
      · rw [if_pos hs, hs, hsrc]
      · rw [if_neg hs]

theorem openBridge_unchanged_iff [Inhabited Info] (src dest : ResourceId) (s : State cfg Info) :
    (∀ s' e, openBridge src dest s = (s', .error e) → Unchanged s s') ↔
      2 ≤ cfg.maxResources ∨ s.resourceToBridgeIndex.lookup src = some s.nextBridgeIndex ∧
        s.resourceToBridgeIndex.lookup dest = some s.nextBridgeIndex := by
  rcases openBridge_cases src dest s with ⟨hmax, resourceIds, heq⟩ | ⟨hmax, heq⟩
  · refine iff_of_true ?_ (.inl hmax)
    intro s' e herror
    rw [heq] at herror
    cases (Prod.mk.inj herror).2
  · rw [← unchanged_assign_pair]
    constructor
    · exact fun h => .inr (h _ _ heq)
    · rintro (hfits | hsame) s' e herror
      · exact absurd hmax (Nat.not_lt.mpr hfits)
      · rw [heq] at herror
        rw [← (Prod.mk.inj herror).1]
        exact hsame

theorem joinBridge_unchanged_iff {resource : ResourceId} {index : ℕ} {s : State cfg Info}
    (hresource : s.resourceToBridgeIndex.getD resource 0 = 0) (hindex : index ≠ 0) :
    (∀ s' e, joinBridge resource index s = (s', .error e) → Unchanged s s') ↔
      Extensible index s := by
  rcases joinBridge_cases resource index s with
    ⟨metadata, resourceIds, hlookup, hroom, heq⟩ | ⟨hfull, e, heq⟩
  · refine iff_of_true ?_ ⟨metadata, hlookup, hroom⟩
    intro s' e herror
    rw [heq] at herror
    cases (Prod.mk.inj herror).2
  · refine iff_of_false ?_ hfull
    intro h
    have hassigned := unchanged_assign.mp (h _ e heq)
    rw [StorageMap.getD, hassigned] at hresource
    exact hindex hresource

theorem linkResources_unchanged_iff [Inhabited Info] (src dest : ResourceId) (s : State cfg Info) :
    (∀ s' e, linkResources src dest s = (s', .error e) → Unchanged s s') ↔
      Linkable src dest s := by
  rw [Linkable, linkResources]
  by_cases hsrc : s.resourceToBridgeIndex.getD src 0 = 0
  · by_cases hdest : s.resourceToBridgeIndex.getD dest 0 = 0
    · rw [if_pos ⟨hsrc, hdest⟩, openBridge_unchanged_iff]
      simp [BothUnassigned, hsrc, hdest]
    · rw [if_neg (fun h => hdest h.2), if_pos hsrc, joinBridge_unchanged_iff hsrc hdest]
      simp [BothUnassigned, hsrc, hdest]
  · by_cases hdest : s.resourceToBridgeIndex.getD dest 0 = 0
    · rw [if_neg (fun h => hsrc h.1), if_neg hsrc, if_pos hdest,
        joinBridge_unchanged_iff hdest hsrc]
      simp [BothUnassigned, hsrc, hdest]
    · rw [if_neg (fun h => hsrc h.1), if_neg hsrc, if_neg hdest]
      refine iff_of_true ?_ (by simp [BothUnassigned, hsrc, hdest])
      intro s' e herror
      split at herror
      · cases (Prod.mk.inj herror).2
      · rw [← (Prod.mk.inj herror).1]
        exact .refl s

/-- A failed update has no effect exactly if it is no anchor update, or its resources can be
linked. -/
theorem unchangedOnError_iff [Inhabited Info] (proposal : Proposal L) (s : State cfg Info) :
    UnchangedOnError proposal s ↔
      ∀ src dest, anchorUpdate cfg proposal = some (src, dest) → Linkable src dest s := by
  cases hupdate : anchorUpdate cfg proposal with
  | none =>
      refine iff_of_true ?_ (fun _ _ h => by cases h)
      intro s' e herror
      have hsame := onSignedProposal_other hupdate s
      rw [herror] at hsame
      rw [show s' = s from hsame]
      exact .refl s
  | some resources =>
      obtain ⟨src, dest⟩ := resources
      rw [UnchangedOnError, onSignedProposal_link hupdate]
      simp only [Except.ok.injEq, linkResources_unchanged_iff]
      constructor
      · rintro h src' dest' heq
        cases heq
        exact h
      · exact fun h => h src dest rfl

def sampleAnchorUpdate (src dest : UInt8) : Proposal runtimeLimits :=
  .signed .anchorUpdate ((BoundedVec.tryFrom
    ((sampleResource dest).toList ++ List.replicate 40 0 ++ (sampleResource src).toList)).getD
      default) []

def sampleFull : State (sampleRegistry 2) Unit :=
  run (step sampleAdmin) (genesisState []) [sampleUpdate 1 2]

theorem failed_update_assigns :
    ∃ s', onSignedProposal (sampleAnchorUpdate 1 3) sampleFull =
        .ok (s', .error (.bridgeRegistry .tooManyResources)) ∧
      sampleFull.resourceToBridgeIndex.lookup (sampleResource 3) = none ∧
      s'.resourceToBridgeIndex.lookup (sampleResource 3) = some 1 := by
  refine ⟨(linkResources (sampleResource 1) (sampleResource 3) sampleFull).1, ?_,
    by decide +kernel, by decide +kernel⟩
  have hlink : anchorUpdate (sampleRegistry 2) (sampleAnchorUpdate 1 3) =
      some (sampleResource 1, sampleResource 3) := by
    decide +kernel
  rw [onSignedProposal_link hlink]
  have herror : (linkResources (sampleResource 1) (sampleResource 3) sampleFull).2 =
      .error (.bridgeRegistry .tooManyResources) := by
    decide +kernel
  rw [← herror]

def infoAt (s : State cfg Info) (index : ℕ) : Option Info :=
  (s.bridges.lookup index).map BridgeMetadata.info

def Sets (admin : Admin AccountId Info) (index : ℕ) : Call L AccountId Info → Prop
  | .setMetadata origin bridgeIndex info =>
      bridgeIndex = index ∧ admin.forceOrigin origin = true ∧
        admin.additionalFields info ≤ admin.maxAdditionalFields
  | _ => False

theorem infoAt_openBridge [Inhabited Info] (src dest : ResourceId) (s : State cfg Info)
    (index : ℕ) : infoAt (openBridge src dest s).1 index =
      if 2 ≤ cfg.maxResources ∧ index = s.nextBridgeIndex then some default
      else infoAt s index := by
  rcases openBridge_cases src dest s with ⟨hmax, resourceIds, heq⟩ | ⟨hmax, heq⟩
  · rw [heq, infoAt, StorageMap.lookup_insert_eq]
    by_cases hindex : index = s.nextBridgeIndex
    · simp [hmax, hindex]
    · simp [hindex, infoAt]
  · rw [heq, if_neg (fun h => absurd hmax (Nat.not_lt.mpr h.1))]
    rfl

theorem infoAt_joinBridge (resource : ResourceId) (joined : ℕ) (s : State cfg Info)
    (index : ℕ) : infoAt (joinBridge resource joined s).1 index = infoAt s index := by
  rcases joinBridge_cases resource joined s with
    ⟨metadata, resourceIds, hlookup, -, heq⟩ | ⟨-, e, heq⟩
  · rw [heq, infoAt, infoAt, StorageMap.lookup_insert_eq]
    by_cases hindex : index = joined
    · rw [if_pos hindex, hindex, hlookup]
      rfl
    · rw [if_neg hindex]
  · rw [heq]
    rfl

theorem infoAt_linkResources [Inhabited Info] (src dest : ResourceId) (s : State cfg Info)
    (index : ℕ) : infoAt (linkResources src dest s).1 index =
      if BothUnassigned src dest s ∧ 2 ≤ cfg.maxResources ∧ index = s.nextBridgeIndex then
        some default
      else infoAt s index := by
  by_cases hboth : BothUnassigned src dest s
  · have hopened : linkResources src dest s = openBridge src dest s := if_pos hboth
    rw [hopened, infoAt_openBridge]
    simp [hboth]
  · rw [if_neg (fun h => hboth h.1), linkResources, if_neg (by exact hboth)]
    split
    · exact infoAt_joinBridge _ _ s index
    · split
      · exact infoAt_joinBridge _ _ s index
      · split <;> rfl

theorem bridges_foldl_assign (resourceIds : List ResourceId) (index : ℕ) (s : State cfg Info) :
    (resourceIds.foldl (fun t r => assign r index t) s).bridges = s.bridges := by
  induction resourceIds generalizing s with
  | nil => rfl
  | cons r rs ih => exact ih (assign r index s)

def Opens (s : State cfg Info) (call : Call L AccountId Info) : Prop :=
  ∃ src dest, link cfg call = some (src, dest) ∧ BothUnassigned src dest s ∧
    2 ≤ cfg.maxResources

theorem infoAt_step_of_link_none [Inhabited Info] (admin : Admin AccountId Info)
    (s : State cfg Info) {call : Call L AccountId Info} {index : ℕ}
    (hlink : link cfg call = none) (hsets : ¬Sets admin index call) :
    infoAt (step admin s call) index = infoAt s index := by
  cases call with
  | onSignedProposal proposal => rw [step, onSignedProposal_other hlink]
  | setMetadata origin bridgeIndex info =>
      rw [step]
      refine commit_cases (P := fun t : State cfg Info => infoAt t index = infoAt s index)
        rfl ?_
      intro s' hs'
      simp only [setMetadata, bind_eq_ok, ensure_eq_ok] at hs'
      obtain ⟨_, horigin, _, hfields, hs'⟩ := hs'
      have hother : index ≠ bridgeIndex := by
        rintro rfl
        exact hsets ⟨rfl, horigin, hfields⟩
      rw [← Except.ok.inj hs', infoAt, StorageMap.lookup_insert_eq, if_neg hother]
      rfl
  | forceResetIndices origin resourceIds bridgeIndex =>
      rw [step]
      refine commit_cases (P := fun t : State cfg Info => infoAt t index = infoAt s index)
        rfl ?_
      intro s' hs'
      simp only [forceResetIndices, bind_eq_ok] at hs'
      obtain ⟨_, -, _, -, hs'⟩ := hs'
      rw [← Except.ok.inj hs', infoAt, bridges_foldl_assign, infoAt]

theorem infoAt_step [Inhabited Info] (admin : Admin AccountId Info) (s : State cfg Info)
    {call : Call L AccountId Info} {index : ℕ} (hsets : ¬Sets admin index call) :
    (Opens s call ∧ index = s.nextBridgeIndex ∧
        infoAt (step admin s call) index = some default) ∨
      ¬(Opens s call ∧ index = s.nextBridgeIndex) ∧
        infoAt (step admin s call) index = infoAt s index := by
  cases hlink : link cfg call with
  | some resources =>
      obtain ⟨src, dest⟩ := resources
      have hopens : Opens s call ↔ BothUnassigned src dest s ∧ 2 ≤ cfg.maxResources := by
        rw [Opens, hlink]
        constructor
        · rintro ⟨src', dest', heq, hboth⟩
          cases heq
          exact hboth
        · exact fun h => ⟨src, dest, rfl, h⟩
      rw [step_link hlink, infoAt_linkResources, hopens, and_assoc]
      by_cases hreset : BothUnassigned src dest s ∧ 2 ≤ cfg.maxResources ∧
          index = s.nextBridgeIndex
      · exact .inl ⟨hreset.1, hreset.2.1, hreset.2.2, if_pos hreset⟩
      · exact .inr ⟨fun h => hreset ⟨h.1.1, h.1.2, h.2⟩, if_neg hreset⟩
  | none =>
      refine .inr ⟨?_, infoAt_step_of_link_none admin s hlink hsets⟩
      rintro ⟨⟨src, dest, heq, -⟩, -⟩
      rw [hlink] at heq
      cases heq

/-- Once `set_metadata` has stored the info of a bridge, only another one for the same bridge
changes it. -/
def InfoKept [Inhabited Info] (admin : Admin AccountId Info) (s : State cfg Info)
    (calls : List (Call L AccountId Info)) : Prop :=
  ∀ pre call post, calls = pre ++ call :: post → ∀ index, (∃ c ∈ pre, Sets admin index c) →
    ¬Sets admin index call →
      infoAt (step admin (run (step admin) s pre) call) index =
        infoAt (run (step admin) s pre) index

/-- The info of the bridges is kept exactly in the runs in which no bridge is opened at an
index whose info has been set before, other than to the default. -/
theorem infoKept_iff [Inhabited Info] (admin : Admin AccountId Info)
    (bridges : List (BridgeMetadata cfg Info)) (calls : List (Call L AccountId Info)) :
    InfoKept admin (genesisState bridges) calls ↔
      ∀ pre call post, calls = pre ++ call :: post →
        Opens (run (step admin) (genesisState bridges) pre) call →
        (∃ c ∈ pre, Sets admin
          (run (step admin) (genesisState bridges) pre).nextBridgeIndex c) →
        infoAt (run (step admin) (genesisState bridges) pre)
          (run (step admin) (genesisState bridges) pre).nextBridgeIndex = some default := by
  constructor
  · intro h pre call post hsplit hopens hset
    have hsets : ¬Sets admin (run (step admin) (genesisState bridges) pre).nextBridgeIndex
        call := by
      obtain ⟨src, dest, hlink, -⟩ := hopens
      cases call with
      | onSignedProposal proposal => exact id
      | setMetadata | forceResetIndices => cases hlink
    rw [← h pre call post hsplit _ hset hsets]
    rcases infoAt_step admin (run (step admin) (genesisState bridges) pre) hsets with
      ⟨-, -, hreset⟩ | ⟨hnot, -⟩
    · exact hreset
    · exact absurd ⟨hopens, rfl⟩ hnot
  · intro h pre call post hsplit index hset hsets
    rcases infoAt_step admin (run (step admin) (genesisState bridges) pre) hsets with
      ⟨hopens, rfl, hreset⟩ | ⟨-, hsame⟩
    · rw [hreset, h pre call post hsplit hopens hset]
    · exact hsame

def numberAdmin : Admin ℕ ℕ where
  forceOrigin origin := origin matches .root
  maxAdditionalFields := 100
  additionalFields _ := 0

def sampleEarly : List (Call runtimeLimits ℕ ℕ) :=
  [.setMetadata .root 1 5, .onSignedProposal (sampleAnchorUpdate 1 2)]

theorem info_is_reset :
    ¬InfoKept numberAdmin (genesisState [] : State (sampleRegistry 1000) ℕ) sampleEarly := by
  intro h
  have hkept := h [.setMetadata .root 1 5] (.onSignedProposal (sampleAnchorUpdate 1 2)) [] rfl 1
    ⟨_, List.mem_singleton_self _, rfl, by decide, by decide⟩ id
  revert hkept
  decide +kernel

end DkgSubstrate.BridgeUpdates
