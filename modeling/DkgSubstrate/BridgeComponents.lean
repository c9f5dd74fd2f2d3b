import DkgSubstrate.BridgeConsistency
import DkgSubstrate.Components

/-!
The bridges are the connected components of the resources.  The anchor updates that the registry
accepts are the links, and the index of a bridge is the label of its component.
-/

namespace DkgSubstrate.BridgeComponents

open DkgSubstrate.BridgeConsistency
open DkgSubstrate.BridgeRegistry
open DkgSubstrate.Components
open DkgSubstrate.Primitives
open DkgSubstrate.Proposals
open DkgSubstrate.Runs

variable {L : Limits} {cfg : Config} {AccountId Info : Type}

theorem lookup_adds_iff {s s' : State cfg Info} {index : ℕ} {added : List ResourceId}
    (h : Adds s s' index added) (r : ResourceId) (b : ℕ) :
    s'.resourceToBridgeIndex.lookup r = some b ↔
      s.resourceToBridgeIndex.lookup r = some b ∨ b = index ∧ r ∈ added := by
  rw [h.lookup]
  split
  · rename_i hr
    simp [h.unassigned r hr, hr, eq_comm]
  · rename_i hr
    simp [hr]

variable [Inhabited Info]

def accepts (proposal : Proposal L) (s : State cfg Info) : Bool :=
  match onSignedProposal proposal s with
  | .ok (_, .ok _) => true
  | _ => false

/-- The links of the graph: the resources of the accepted anchor updates. -/
def acceptedLinks (s : State cfg Info) :
    Call L AccountId Info → List (ResourceId × ResourceId)
  | .onSignedProposal proposal =>
      if accepts proposal s = true then (anchorUpdate cfg proposal).toList else []
  | _ => []

def SameBridge (s : State cfg Info) (r r' : ResourceId) : Prop :=
  ∃ b, s.resourceToBridgeIndex.lookup r = some b ∧ s.resourceToBridgeIndex.lookup r' = some b

theorem acceptedLinks_of_link {s : State cfg Info} {call : Call L AccountId Info}
    {src dest : ResourceId} (h : link cfg call = some (src, dest)) :
    acceptedLinks s call =
      match (linkResources src dest s).2 with
      | .ok _ => [(src, dest)]
      | .error _ => [] := by
  cases call with
  | onSignedProposal proposal =>
      rw [acceptedLinks, accepts, onSignedProposal_link h]
      rw [link] at h
      rw [h]
      rcases linkResources src dest s with ⟨s', _ | _⟩ <;> rfl
  | setMetadata | forceResetIndices => cases h

theorem acceptedLinks_of_no_link {s : State cfg Info} {call : Call L AccountId Info}
    (h : link cfg call = none) : acceptedLinks s call = [] := by
  cases call with
  | onSignedProposal proposal =>
      rw [link] at h
      rw [acceptedLinks, h, Option.toList_none, ite_self]
  | setMetadata | forceResetIndices => rfl

omit [Inhabited Info] in
theorem or_joined_iff {s : State cfg Info} {r other c : ResourceId} {index b : ℕ}
    (hother : s.resourceToBridgeIndex.lookup other = some index) :
    s.resourceToBridgeIndex.lookup c = some b ∨ b = index ∧ c = r ↔
      s.resourceToBridgeIndex.lookup c = some b ∨ b = index ∧ (c = r ∨ c = other) := by
  constructor
  · rintro (hold | ⟨hb, hc⟩)
    · exact Or.inl hold
    · exact Or.inr ⟨hb, Or.inl hc⟩
  · rintro (hold | ⟨rfl, rfl | rfl⟩)
    · exact Or.inl hold
    · exact Or.inr ⟨rfl, rfl⟩
    · exact Or.inl hother

theorem labels_linkResources {s : State cfg Info} (h : Registered s)
    {links : List (ResourceId × ResourceId)}
    (hlabels : Labels links fun r => s.resourceToBridgeIndex.lookup r)
    {src dest : ResourceId} (hroom : HasRoom src dest s) :
    Labels
      (links ++ match (linkResources src dest s).2 with
        | .ok _ => [(src, dest)]
        | .error _ => [])
      fun r => (linkResources src dest s).1.resourceToBridgeIndex.lookup r := by
  have hlinked := linkResources_linked h src dest
  generalize linkResources src dest s = out at hlinked ⊢
  cases hlinked with
  | opened hsrc hdest hmax hadds hnext =>
      refine hlabels.link (i := s.nextBridgeIndex) ?_ ?_
      · intro r b
        rw [lookup_adds_iff hadds, List.mem_pair]
      · intro r hr
        exact absurd (h.below r _ hr) (Nat.lt_irrefl _)
  | @joined s' r other index hends hother hroom hadds hnext =>
      refine hlabels.link (i := index) ?_ ?_
      · intro c b
        rw [lookup_adds_iff hadds, List.mem_singleton]
        rcases hends with ⟨rfl, rfl⟩ | ⟨rfl, rfl⟩
        · exact or_joined_iff hother
        · rw [or_comm (a := c = other)]
          exact or_joined_iff hother
      · intro c _
        rcases hends with ⟨-, rfl⟩ | ⟨-, rfl⟩
        · exact Or.inr hother
        · exact Or.inl hother
  | @inside index hsrc hdest =>
      refine hlabels.link (i := index) ?_ ?_
      · intro r b
        constructor
        · exact Or.inl
        · rintro (hold | ⟨rfl, rfl | rfl⟩)
          · exact hold
          · exact hsrc
          · exact hdest
      · intro r _
        exact Or.inl hsrc
  | apart hsrc hdest hne =>
      rw [List.append_nil]
      exact hlabels
  | overflown hfull => exact absurd hroom hfull

/-- Every link of the call has room. -/
def FitsRegistry (s : State cfg Info) (call : Call L AccountId Info) : Prop :=
  isForceReset call = false ∧ ∀ l ∈ link cfg call, HasRoom l.1 l.2 s

instance (s : State cfg Info) (call : Call L AccountId Info) :
    Decidable (FitsRegistry s call) :=
  @instDecidableAnd _ _ _ (Option.decidableForallMem _)

theorem labels_step {admin : Admin AccountId Info} {s : State cfg Info}
    {call : Call L AccountId Info} {links : List (ResourceId × ResourceId)}
    (h : Registered s) (hlabels : Labels links fun r => s.resourceToBridgeIndex.lookup r)
    (hfits : FitsRegistry s call) :
    Labels (links ++ acceptedLinks s call)
      fun r => (step admin s call).resourceToBridgeIndex.lookup r := by
  cases hlink : link cfg call with
  | none =>
      obtain ⟨hresources, -, -⟩ := step_other admin (s := s) hlink hfits.1
      rw [hresources, acceptedLinks_of_no_link hlink, List.append_nil]
      exact hlabels
  | some l =>
      rw [step_link hlink, acceptedLinks_of_link hlink]
      exact labels_linkResources h hlabels (hfits.2 l hlink)

theorem registered_labels_run (admin : Admin AccountId Info)
    (calls : List (Call L AccountId Info))
    (hfits : StepsMeet (step admin) FitsRegistry (genesisState [] : State cfg Info) calls) :
    Registered (run (step admin) (genesisState [] : State cfg Info) calls) ∧
      Labels (trace (step admin) acceptedLinks (genesisState [] : State cfg Info) calls)
        fun r => (run (step admin) (genesisState [] : State cfg Info)
          calls).resourceToBridgeIndex.lookup r := by
  refine invariant_trace
    (fun (links : List (ResourceId × ResourceId)) (s : State cfg Info) =>
      Registered s ∧ Labels links fun r => s.resourceToBridgeIndex.lookup r) ?_ [] ?_ hfits
  · rintro links s call ⟨h, hlabels⟩ hcall
    exact ⟨registered_step h hcall.1 hcall.2, labels_step h hlabels hcall⟩
  · exact ⟨registered_genesis, labels_nil⟩

theorem accepts_eq_false_iff {s : State cfg Info} (h : Registered s)
    {links : List (ResourceId × ResourceId)}
    (hlabels : Labels links fun r => s.resourceToBridgeIndex.lookup r)
    {proposal : Proposal L} {src dest : ResourceId}
    (hupdate : anchorUpdate cfg proposal = some (src, dest)) (hroom : HasRoom src dest s) :
    accepts proposal s = false ↔
      Occurs links src ∧ Occurs links dest ∧ ¬(linkGraph links).Reachable src dest := by
  have hunlabelled : ∀ r, s.resourceToBridgeIndex.lookup r = none → ¬Occurs links r := by
    intro r hr hoccurs
    obtain ⟨b, hb⟩ := (hlabels.exists_label_iff r).mpr hoccurs
    rw [hr] at hb
    cases hb
  rw [accepts, onSignedProposal_link hupdate]
  have hlinked := linkResources_linked h src dest
  generalize linkResources src dest s = out at hlinked ⊢
  cases hlinked with
  | opened hsrc hdest hmax hadds hnext =>
      exact iff_of_false Bool.noConfusion fun hboth => hunlabelled src hsrc hboth.1
  | @joined s' r other index hends hother hroom hadds hnext =>
      refine iff_of_false Bool.noConfusion ?_
      rintro ⟨hsrc, hdest, -⟩
      have hr := hunlabelled r (hadds.unassigned r List.mem_cons_self)
      rcases hends with ⟨rfl, -⟩ | ⟨rfl, -⟩
      · exact hr hsrc
      · exact hr hdest
  | inside hsrc hdest =>
      exact iff_of_false Bool.noConfusion
        fun hboth => hboth.2.2 (hlabels.connected src dest _ hsrc hdest)
  | apart hsrc hdest hne =>
      refine iff_of_true rfl ⟨hlabels.occurs src _ hsrc, hlabels.occurs dest _ hdest, ?_⟩
      intro hreachable
      have hsame : s.resourceToBridgeIndex.lookup src = s.resourceToBridgeIndex.lookup dest :=
        hlabels.label_eq_of_reachable hreachable
      rw [hsrc, hdest] at hsame
      exact hne (Option.some.inj hsame)
  | overflown hfull => exact absurd hroom hfull

/-- Resources of accepted updates are in one bridge exactly if the accepted updates connect
them, and an update is rejected exactly if its resources are in different components. -/
theorem bridges_are_components (admin : Admin AccountId Info)
    (calls : List (Call L AccountId Info))
    (hfits : StepsMeet (step admin) FitsRegistry (genesisState [] : State cfg Info) calls) :
    let s := run (step admin) (genesisState [] : State cfg Info) calls
    let links := trace (step admin) acceptedLinks (genesisState [] : State cfg Info) calls
    (∀ r r', Occurs links r → Occurs links r' →
      (SameBridge s r r' ↔ (linkGraph links).Reachable r r')) ∧
    ∀ (proposal : Proposal L) (src dest : ResourceId),
      anchorUpdate cfg proposal = some (src, dest) → HasRoom src dest s →
      (accepts proposal s = false ↔
        Occurs links src ∧ Occurs links dest ∧ ¬(linkGraph links).Reachable src dest) := by
  intro s links
  obtain ⟨h, hlabels⟩ := registered_labels_run admin calls hfits
  refine ⟨?_, ?_⟩
  · intro r r' hr _
    exact hlabels.same_label_iff hr
  · intro proposal src dest hupdate hroom
    exact accepts_eq_false_iff h hlabels hupdate hroom

theorem sampleUpdates_components :
    StepsMeet (step sampleAdmin) FitsRegistry
        (genesisState [] : State (sampleRegistry 1000) Unit) sampleUpdates ∧
      (linkGraph (trace (step sampleAdmin) acceptedLinks
        (genesisState [] : State (sampleRegistry 1000) Unit) sampleUpdates)).Reachable
          (sampleResource 1) (sampleResource 3) ∧
      ¬(linkGraph (trace (step sampleAdmin) acceptedLinks
        (genesisState [] : State (sampleRegistry 1000) Unit) sampleUpdates)).Reachable
          (sampleResource 1) (sampleResource 4) := by
  have hfits : StepsMeet (step sampleAdmin) FitsRegistry
      (genesisState [] : State (sampleRegistry 1000) Unit) sampleUpdates := by decide +kernel
  have hlinks : trace (step sampleAdmin) acceptedLinks
      (genesisState [] : State (sampleRegistry 1000) Unit) sampleUpdates =
        [(sampleResource 1, sampleResource 2), (sampleResource 3, sampleResource 2),
          (sampleResource 4, sampleResource 5)] := by decide +kernel
  obtain ⟨hsame, -⟩ := bridges_are_components sampleAdmin sampleUpdates hfits
  rw [hlinks] at hsame ⊢
  refine ⟨hfits, ?_, ?_⟩
  · refine (hsame _ _ ?_ ?_).mp ⟨1, by decide +kernel, by decide +kernel⟩
    · exact ⟨_, List.mem_cons_self, Or.inl rfl⟩
    · exact ⟨_, List.mem_cons_of_mem _ List.mem_cons_self, Or.inl rfl⟩
  · rw [← hsame _ _ ⟨_, List.mem_cons_self, Or.inl rfl⟩
      ⟨_, List.mem_cons_of_mem _ (List.mem_cons_of_mem _ List.mem_cons_self), Or.inl rfl⟩]
    rintro ⟨b, hfirst, hfourth⟩
    revert hfourth
    rw [← hfirst]
    decide +kernel

end DkgSubstrate.BridgeComponents
