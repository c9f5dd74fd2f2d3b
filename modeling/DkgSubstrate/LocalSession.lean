import DkgSubstrate.AuthorityChanges

/-!
The session of the gadget: the authority sets that a node keeps, from the headers that it is
notified of.  A node is started at any block, and does not look at the blocks that it gets
during a major sync.
-/

namespace DkgSubstrate.LocalSession

open DkgSubstrate.AuthorityChanges
open DkgSubstrate.ChainHeader
open DkgSubstrate.Dispatch
open DkgSubstrate.IncomingMessages hiding Node
open DkgSubstrate.Metadata
open DkgSubstrate.MetadataEffects
open DkgSubstrate.MetadataRotation hiding step
open DkgSubstrate.MetadataStep
open DkgSubstrate.Primitives
open DkgSubstrate.Runs
open DkgSubstrate.SampleRuntime

def genesisAuthoritySetId : ℕ := 0

structure Worker (L : Limits) where
  latestHeader : Option ℕ
  currentValidatorSet : AuthoritySet L
  queuedValidatorSet : AuthoritySet L
  bestAuthorities : List (ℕ × Public)
  nextBestAuthorities : List (ℕ × Public)

variable {L : Limits} {AccountId World : Type}

namespace Worker

def new : Worker L where
  latestHeader := none
  currentValidatorSet := ⟨default, 0⟩
  queuedValidatorSet := ⟨default, 0⟩
  bestAuthorities := []
  nextBestAuthorities := []

def maybeEnactGenesisAuthorities (header : FinalizedHeader L) (w : Worker L) : Worker L :=
  match header.validatorSet with
  | some (active, _) =>
      if active.id = genesisAuthoritySetId then
        { w with
          currentValidatorSet := active
          bestAuthorities := header.bestAuthorities
          nextBestAuthorities := header.nextBestAuthorities }
      else w
  | none => w

def maybeRotateLocalSession (header : FinalizedHeader L) (w : Worker L) : Worker L :=
  match header.validatorSet with
  | some (active, queued) =>
      if header.dkgPubKey.1 ≠ w.queuedValidatorSet.id then w
      else
        { w with
          currentValidatorSet := active
          queuedValidatorSet := queued
          bestAuthorities := w.nextBestAuthorities
          nextBestAuthorities := header.nextBestAuthorities }
  | none => w

def isNew (header : FinalizedHeader L) (w : Worker L) : Bool :=
  match w.latestHeader with
  | some latest => decide (latest < header.number)
  | none => true

def processBlockNotification (majorSyncing : Bool) (header : FinalizedHeader L)
    (w : Worker L) : Worker L :=
  if w.isNew header then
    let w := { w with latestHeader := some header.number }
    if majorSyncing then w
    else if header.dkgPubKeyIsUnset then w.maybeEnactGenesisAuthorities header
    else w.maybeRotateLocalSession header
  else w

def initialization (majorSyncing : Bool) (header : FinalizedHeader L) : Option (Worker L) :=
  match header.validatorSet with
  | some (active, queued) =>
      some (processBlockNotification majorSyncing header { (new : Worker L) with
        bestAuthorities := header.bestAuthorities
        currentValidatorSet := active
        queuedValidatorSet := queued })
  | none => none

end Worker

/-- The finalized chain, and the node if it has been started. -/
structure Node (L : Limits) (AccountId World : Type) where
  chain : State L AccountId World
  worker : Option (Worker L)

inductive Event (L : Limits) (AccountId World : Type) where
  | chain (call : Call L AccountId World)
  | start (majorSyncing : Bool)
  | finality (majorSyncing : Bool)

variable [DecidableEq AccountId] (cfg : Config L AccountId World)

def step (s : Node L AccountId World) : Event L AccountId World → Node L AccountId World
  | .chain call => { s with chain := MetadataRotation.step cfg s.chain call }
  | .start majorSyncing =>
      { s with worker := Worker.initialization majorSyncing (headerOf s.chain) }
  | .finality majorSyncing =>
      { s with
        worker := s.worker.map fun w =>
          w.processBlockNotification majorSyncing (headerOf s.chain) }

def ProcessesKey (s : Node L AccountId World) : Event L AccountId World → Prop
  | .chain _ => False
  | .start majorSyncing =>
      majorSyncing = false ∧ (headerOf s.chain).dkgPubKeyIsUnset = false
  | .finality majorSyncing =>
      majorSyncing = false ∧ (headerOf s.chain).dkgPubKeyIsUnset = false ∧
        ∀ w ∈ s.worker, w.isNew (headerOf s.chain) = true

/-- After a header has been processed the node holds the set that is active in it. -/
def Follows (s : Node L AccountId World) (e : Event L AccountId World) : Prop :=
  ProcessesKey s e →
    ∀ w ∈ (step cfg s e).worker, w.currentValidatorSet = s.chain.authoritySet

/-- The call changes the active set. -/
def Changes (s : Node L AccountId World) (call : Call L AccountId World) : Prop :=
  Accepted cfg s.chain call ∧ activates s.chain call = true

/-- The event brings the node to the sets of the chain. -/
def CatchesUp (s : Node L AccountId World) (e : Event L AccountId World) : Prop :=
  ProcessesKey s e ∨ ∃ majorSyncing, e = .start majorSyncing

/-- The changes of the authorities on the chain are orderly. -/
def OrderlyChain (s : Node L AccountId World) : Event L AccountId World → Prop
  | .chain call => Accepted cfg s.chain call → Orderly s.chain call
  | _ => True

/-- Between two changes of the active set a running node catches up. -/
def Paced (s : Node L AccountId World) (es : List (Event L AccountId World)) : Prop :=
  ∀ pre call mid call' post, es = pre ++ .chain call :: (mid ++ .chain call' :: post) →
    Changes cfg (run (step cfg) s pre) call →
    Changes cfg (run (step cfg) s (pre ++ .chain call :: mid)) call' →
      (run (step cfg) s (pre ++ .chain call :: mid)).worker = none ∨
      ∃ mid₁ e mid₂, mid = mid₁ ++ e :: mid₂ ∧
        CatchesUp (run (step cfg) s (pre ++ .chain call :: mid₁)) e

/-- The node knows the active set, and waits for the next one. -/
structure UpToDate (s : State L AccountId World) (w : Worker L) : Prop where
  current : w.currentValidatorSet = s.authoritySet
  queued : w.queuedValidatorSet.id = s.nextAuthoritySetId

/-- The set that the node waits for has become active. -/
def OneBehind (s : State L AccountId World) (w : Worker L) : Prop :=
  w.queuedValidatorSet.id = s.authoritySetId

section Follow

variable {s : State L AccountId World} {w : Worker L}

omit [DecidableEq AccountId] in
theorem currentKey_eq (h : Truthful s) (hkey : (headerOf s).dkgPubKeyIsUnset = false) :
    s.currentKey.1 = s.authoritySetId := by
  rw [State.currentKey]
  cases hset : s.dkgPublicKey with
  | none =>
      rw [FinalizedHeader.dkgPubKeyIsUnset, headerOf, State.currentKey, hset] at hkey
      cases hkey
  | some key => exact h.ids.keyId key.1 key.2 hset

omit [DecidableEq AccountId] in
theorem upToDate_maybeRotate (h : Truthful s)
    (hkey : (headerOf s).dkgPubKeyIsUnset = false)
    (hw : UpToDate s w ∨ OneBehind s w) :
    UpToDate s (w.maybeRotateLocalSession (headerOf s)) := by
  have hid : (headerOf s).dkgPubKey.1 = s.authoritySetId := currentKey_eq h hkey
  rw [Worker.maybeRotateLocalSession, validatorSet_headerOf, h.announced_eq]
  dsimp only
  rw [hid]
  rcases hw with hdone | hbehind
  · have hne : s.authoritySetId ≠ w.queuedValidatorSet.id := by
      have hnext := h.ids.consecutive
      rw [hdone.queued]
      omega
    rw [if_pos hne]
    exact hdone
  · rw [if_neg (not_not.mpr hbehind.symm)]
    exact ⟨rfl, rfl⟩

omit [DecidableEq AccountId] in
theorem upToDate_processBlockNotification (h : Truthful s) (majorSyncing : Bool)
    (hw : UpToDate s w) :
    UpToDate s (w.processBlockNotification majorSyncing (headerOf s)) := by
  rw [Worker.processBlockNotification]
  split
  · dsimp only
    have hseen : UpToDate s { w with latestHeader := some (headerOf s).number } :=
      ⟨hw.current, hw.queued⟩
    split
    · exact hseen
    · split
      · rw [Worker.maybeEnactGenesisAuthorities, validatorSet_headerOf, h.announced_eq]
        dsimp only
        split
        · exact ⟨rfl, hw.queued⟩
        · exact hseen
      · rename_i hkey
        exact upToDate_maybeRotate h (Bool.eq_false_iff.mpr hkey) (.inl hseen)
  · exact hw

omit [DecidableEq AccountId] in
theorem catchesUp_processBlockNotification (h : Truthful s)
    (hkey : (headerOf s).dkgPubKeyIsUnset = false) (hnew : w.isNew (headerOf s) = true)
    (hw : OneBehind s w) :
    UpToDate s (w.processBlockNotification false (headerOf s)) := by
  rw [Worker.processBlockNotification, if_pos hnew]
  dsimp only
  rw [if_neg Bool.false_ne_true, hkey, if_neg Bool.false_ne_true]
  exact upToDate_maybeRotate h hkey (.inr hw)

omit [DecidableEq AccountId] in
theorem queuedId_processBlockNotification (majorSyncing : Bool)
    (hskipped : ¬(majorSyncing = false ∧ (headerOf s).dkgPubKeyIsUnset = false ∧
      w.isNew (headerOf s) = true)) :
    (w.processBlockNotification majorSyncing (headerOf s)).queuedValidatorSet =
      w.queuedValidatorSet := by
  rw [Worker.processBlockNotification]
  split
  · rename_i hnew
    dsimp only
    split
    · rfl
    · rename_i hsyncing
      split
      · rw [Worker.maybeEnactGenesisAuthorities, validatorSet_headerOf]
        dsimp only
        split
        · rfl
        · rfl
      · rename_i hkey
        exact absurd ⟨Bool.eq_false_iff.mpr hsyncing, Bool.eq_false_iff.mpr hkey, hnew⟩ hskipped
  · rfl

omit [DecidableEq AccountId] in
theorem upToDate_initialization (h : Truthful s) (majorSyncing : Bool)
    (hw : Worker.initialization majorSyncing (headerOf s) = some w) : UpToDate s w := by
  rw [Worker.initialization, validatorSet_headerOf, h.announced_eq] at hw
  rw [← Option.some.inj hw]
  exact upToDate_processBlockNotification h majorSyncing ⟨rfl, rfl⟩

end Follow

section Run

variable {cfg} {s : Node L AccountId World} {es : List (Event L AccountId World)}

/-- The last change of the active set has not been caught up. -/
def Pending (cfg : Config L AccountId World) (s : Node L AccountId World)
    (es : List (Event L AccountId World)) : Prop :=
  ∃ pre call mid, es = pre ++ .chain call :: mid ∧ Changes cfg (run (step cfg) s pre) call ∧
    ∀ mid₁ e mid₂, mid = mid₁ ++ e :: mid₂ →
      ¬CatchesUp (run (step cfg) s (pre ++ .chain call :: mid₁)) e

/-- What holds after a run: the node is up to date, or one set behind since the last change. -/
structure Tracks (cfg : Config L AccountId World) (s : Node L AccountId World)
    (es : List (Event L AccountId World)) : Prop where
  chain : Truthful (run (step cfg) s es).chain
  worker : ∀ w ∈ (run (step cfg) s es).worker, UpToDate (run (step cfg) s es).chain w ∨
    OneBehind (run (step cfg) s es).chain w ∧ Pending cfg s es

theorem Pending.snoc {e : Event L AccountId World} (h : Pending cfg s es)
    (he : ¬CatchesUp (run (step cfg) s es) e) : Pending cfg s (es ++ [e]) := by
  obtain ⟨pre, call, mid, rfl, hchanges, hmid⟩ := h
  refine ⟨pre, call, mid ++ [e], by simp, hchanges, ?_⟩
  intro mid₁ e' mid₂ hsplit
  rcases List.eq_nil_or_concat mid₂ with rfl | ⟨mid₂, last, rfl⟩
  · obtain ⟨rfl, hlast⟩ := List.append_inj' hsplit rfl
    obtain rfl := List.singleton_inj.mp hlast
    exact he
  · rw [List.concat_eq_append, ← List.cons_append, ← List.append_assoc] at hsplit
    exact hmid mid₁ e' mid₂ (List.append_inj' hsplit rfl).1

/-- Two changes of the active set have a running node catch up between them. -/
theorem Pending.not_running {call : Call L AccountId World}
    {post : List (Event L AccountId World)} (h : Pending cfg s es)
    (hchanges : Changes cfg (run (step cfg) s es) call)
    (hpaced : Paced cfg s (es ++ .chain call :: post)) (w : Worker L) :
    w ∉ (run (step cfg) s es).worker := by
  obtain ⟨pre, call', mid, rfl, hchanges', hmid⟩ := h
  rcases hpaced pre call' mid call post (by simp) hchanges' hchanges with
    hnone | ⟨mid₁, e, mid₂, hsplit, hcatches⟩
  · rw [hnone]
    exact Option.not_mem_none w
  · exact absurd hcatches (hmid mid₁ e mid₂ hsplit)

theorem run_snoc (cfg : Config L AccountId World) (s : Node L AccountId World)
    (es : List (Event L AccountId World)) (e : Event L AccountId World) :
    run (step cfg) s (es ++ [e]) = step cfg (run (step cfg) s es) e := by
  rw [run_append]
  rfl

omit [DecidableEq AccountId] in
theorem not_catchesUp_chain {call : Call L AccountId World} :
    ¬CatchesUp s (.chain call) := by
  rintro (hprocesses | ⟨majorSyncing, hstart⟩)
  · exact hprocesses
  · cases hstart

theorem tracks_chain {call : Call L AccountId World} {post : List (Event L AccountId World)}
    (h : Tracks cfg s es) (horderly : OrderlyChain cfg (run (step cfg) s es) (.chain call))
    (hpaced : Paced cfg s (es ++ .chain call :: post)) :
    Tracks cfg s (es ++ [.chain call]) := by
  have hrun := run_snoc cfg s es (.chain call)
  cases hdispatch : dispatch cfg (run (step cfg) s es).chain call with
  | error fault =>
      have hsame : run (step cfg) s (es ++ [.chain call]) = run (step cfg) s es := by
        rw [hrun, step, MetadataRotation.step, hdispatch]
        rfl
      refine ⟨hsame ▸ h.chain, ?_⟩
      rw [hsame]
      intro w hw
      refine (h.worker w hw).imp_right fun hbehind => ⟨hbehind.1, ?_⟩
      exact hbehind.2.snoc not_catchesUp_chain
  | ok c =>
      have haccepted : Accepted cfg (run (step cfg) s es).chain call := by
        rw [Accepted, hdispatch]
        rfl
      have hnext : run (step cfg) s (es ++ [.chain call]) =
          { run (step cfg) s es with chain := c } := by
        rw [hrun, step, MetadataRotation.step, hdispatch]
        rfl
      refine ⟨hnext ▸ truthful_dispatch h.chain hdispatch (horderly haccepted), ?_⟩
      rw [hnext]
      intro w hw
      change UpToDate c w ∨ OneBehind c w ∧ _
      cases hactivates : activates (run (step cfg) s es).chain call with
      | false =>
          obtain ⟨hactive, hqueued⟩ := sets_dispatch hdispatch (horderly haccepted) hactivates
          rcases h.worker w hw with hdone | ⟨hbehind, hpending⟩
          · refine .inl ⟨hdone.current.trans hactive.symm, hdone.queued.trans ?_⟩
            exact (congrArg AuthoritySet.id hqueued).symm
          · refine .inr ⟨hbehind.trans (congrArg AuthoritySet.id hactive).symm, ?_⟩
            exact hpending.snoc not_catchesUp_chain
      | true =>
          have hid := activated_dispatch hdispatch hactivates
          rcases h.worker w hw with hdone | ⟨-, hpending⟩
          · refine .inr ⟨hdone.queued.trans hid.symm, es, call, [], rfl,
              ⟨haccepted, hactivates⟩, ?_⟩
            intro mid₁ e mid₂ hsplit
            simp at hsplit
          · exact absurd hw (hpending.not_running ⟨haccepted, hactivates⟩ hpaced w)

theorem tracks_finality {majorSyncing : Bool} (h : Tracks cfg s es) :
    Tracks cfg s (es ++ [.finality majorSyncing]) := by
  have hrun := run_snoc cfg s es (.finality majorSyncing)
  refine ⟨by rw [hrun]; exact h.chain, ?_⟩
  rw [hrun]
  intro w' hw'
  obtain ⟨w, hw, rfl⟩ := Option.map_eq_some_iff.mp hw'
  change UpToDate (run (step cfg) s es).chain _ ∨ OneBehind (run (step cfg) s es).chain _ ∧ _
  rcases h.worker w hw with hdone | ⟨hbehind, hpending⟩
  · exact .inl (upToDate_processBlockNotification h.chain majorSyncing hdone)
  · by_cases hprocesses : majorSyncing = false ∧
        (headerOf (run (step cfg) s es).chain).dkgPubKeyIsUnset = false ∧
          w.isNew (headerOf (run (step cfg) s es).chain) = true
    · obtain ⟨rfl, hkey, hnew⟩ := hprocesses
      exact .inl (catchesUp_processBlockNotification h.chain hkey hnew hbehind)
    · refine .inr ⟨?_, hpending.snoc ?_⟩
      · rw [OneBehind, queuedId_processBlockNotification majorSyncing hprocesses]
        exact hbehind
      · rintro (⟨hsyncing, hkey, hnew⟩ | ⟨_, hstart⟩)
        · exact hprocesses ⟨hsyncing, hkey, hnew w hw⟩
        · cases hstart

theorem tracks_start {majorSyncing : Bool} (h : Tracks cfg s es) :
    Tracks cfg s (es ++ [.start majorSyncing]) := by
  have hrun := run_snoc cfg s es (.start majorSyncing)
  refine ⟨by rw [hrun]; exact h.chain, ?_⟩
  rw [hrun]
  intro w hw
  exact .inl (upToDate_initialization h.chain majorSyncing hw)

/-- The run lemma, by induction on the prefix. -/
theorem tracks_run {pre post : List (Event L AccountId World)}
    (hchain : Truthful s.chain) (hworker : s.worker = none)
    (horderly : StepsMeet (step cfg) (OrderlyChain cfg) s es) (hpaced : Paced cfg s es)
    (hsplit : es = pre ++ post) : Tracks cfg s pre := by
  induction pre using List.reverseRecOn generalizing post with
  | nil =>
      refine ⟨hchain, ?_⟩
      intro w hw
      rw [run_nil, hworker] at hw
      cases hw
  | append_singleton pre e ih =>
      rw [List.append_assoc, List.singleton_append] at hsplit
      have htracks := ih hsplit
      cases e with
      | chain call =>
          rw [hsplit] at hpaced
          exact tracks_chain htracks (horderly pre (.chain call) post hsplit) hpaced
      | start majorSyncing => exact tracks_start htracks
      | finality majorSyncing => exact tracks_finality htracks

theorem follows_of_tracks {e : Event L AccountId World} (h : Tracks cfg s es) :
    Follows cfg (run (step cfg) s es) e := by
  intro hprocesses w' hw'
  cases e with
  | chain call => exact hprocesses.elim
  | start majorSyncing =>
      exact (upToDate_initialization h.chain majorSyncing hw').current
  | finality majorSyncing =>
      obtain ⟨rfl, hkey, hnew⟩ := hprocesses
      obtain ⟨w, hw, rfl⟩ := Option.map_eq_some_iff.mp hw'
      rcases h.worker w hw with hdone | ⟨hbehind, -⟩
      · exact (upToDate_processBlockNotification h.chain false hdone).current
      · exact (catchesUp_processBlockNotification h.chain hkey (hnew w hw) hbehind).current

end Run

/-- A node that is started at any block of a chain holds the active set after every header that it
processes, if every change of the authorities is orderly and the node catches up between two of
them. -/
theorem follows_run (cfg : Config L AccountId World) (genesis : GenesisConfig AccountId)
    (validators : List (AccountId × Public)) (world : World) (s : State L AccountId World)
    (es : List (Event L AccountId World)) (hvalidators : validators ≠ [])
    (hgenesis : genesisState cfg genesis validators world = .ok s)
    (horderly : StepsMeet (step cfg) (OrderlyChain cfg) ⟨s, none⟩ es)
    (hpaced : Paced cfg ⟨s, none⟩ es) :
    StepsMeet (step cfg) (Follows cfg) ⟨s, none⟩ es := by
  intro pre e post hsplit
  exact follows_of_tracks
    (tracks_run (truthful_genesis hvalidators hgenesis) rfl horderly hpaced hsplit)

def isChange : Event L AccountId World → Bool
  | .chain (.forceChangeAuthorities _) => true
  | .chain (.newSession _ _) => true
  | _ => false

theorem paced_of_countP_le_one {cfg : Config L AccountId World} {s : Node L AccountId World}
    {es : List (Event L AccountId World)} (h : es.countP isChange ≤ 1) : Paced cfg s es := by
  have hchange : ∀ (c : State L AccountId World) call, activates c call = true →
      isChange (.chain call : Event L AccountId World) = true := by
    intro c call hactivates
    cases call with
    | forceChangeAuthorities origin => rfl
    | newSession validators queued => rfl
    | _ => cases hactivates
  rintro pre call mid call' post rfl ⟨-, hfirst⟩ ⟨-, hsecond⟩
  rw [List.countP_append, List.countP_cons_of_pos (hchange _ call hfirst), List.countP_append,
    List.countP_cons_of_pos (hchange _ call' hsecond)] at h
  omega

def sampleRotation : List (Event runtimeLimits ℕ Unit) :=
  [.chain (.initializeBlock 1), .chain (.submitPublicKey .none (sampleSubmission 8 1)),
    .start false, .chain (.initializeBlock 2),
    .chain (.submitNextPublicKey .none (sampleSubmission 9 1)), .finality false,
    .chain (.initializeBlock 3), .chain (.signedProposal (sampleSigned (sampleRefresh 9 1 2) 7)),
    .chain (.newSession (sampleValidators 2) (sampleValidators 2)), .finality false]

theorem orderlyChain_sampleRotation :
    StepsMeet (step sampleConfig) (OrderlyChain sampleConfig) ⟨sampleGenesis 2 1 2, none⟩
      sampleRotation := by
  refine stepsMeet_cons.mpr ⟨fun _ => trivial, stepsMeet_cons.mpr ⟨fun _ => trivial,
    stepsMeet_cons.mpr ⟨trivial, stepsMeet_cons.mpr ⟨fun _ => trivial,
    stepsMeet_cons.mpr ⟨fun _ => trivial, stepsMeet_cons.mpr ⟨trivial,
    stepsMeet_cons.mpr ⟨fun _ => trivial, stepsMeet_cons.mpr ⟨fun _ => trivial,
    stepsMeet_cons.mpr ⟨fun _ => ?_, stepsMeet_cons.mpr ⟨trivial, stepsMeet_nil⟩⟩⟩⟩⟩⟩⟩⟩⟩⟩
  refine ⟨?_, ?_, ?_⟩
  · decide +kernel
  · decide +kernel
  · decide +kernel

theorem follows_sampleRotation :
    StepsMeet (step sampleConfig) (Follows sampleConfig) ⟨sampleGenesis 2 1 2, none⟩
      sampleRotation ∧
    (run (step sampleConfig) ⟨sampleGenesis 2 1 2, none⟩ sampleRotation).worker.map
      (fun w => w.currentValidatorSet.id) = some 1 :=
  ⟨follows_run sampleConfig (sampleGenesisConfig 2 1 2) (sampleValidators 2) ()
    (sampleGenesis 2 1 2) sampleRotation (by decide) rfl orderlyChain_sampleRotation
    (paced_of_countP_le_one (by decide)), by decide +kernel⟩

def sampleHistory : List (Event runtimeLimits ℕ Unit) :=
  [.chain (.initializeBlock 1), .chain (.submitPublicKey .none (sampleSubmission 8 1)),
    .start false, .chain (.initializeBlock 2), .chain (.forceChangeAuthorities .root),
    .finality false, .chain (.initializeBlock 3),
    .chain (.submitNextPublicKey .none (sampleSubmission 9 1)), .finality false,
    .chain (.initializeBlock 4), .chain (.signedProposal (sampleSigned (sampleRefresh 9 1 2) 7)),
    .chain (.newSession (sampleValidators 2) (sampleValidators 2))]

def sampleMissed : Node runtimeLimits ℕ Unit :=
  run (step sampleConfig) ⟨sampleGenesis 2 1 2, none⟩ sampleHistory

theorem rotation_missed : ¬Follows sampleConfig sampleMissed (.finality false) := by
  intro h
  have hprocesses : ProcessesKey sampleMissed (.finality false) := by
    refine ⟨rfl, ?_, ?_⟩
    · decide +kernel
    · decide +kernel
  have hheld : (step sampleConfig sampleMissed (.finality false)).worker.map
      (fun w => w.currentValidatorSet.id) = some 0 := by
    decide +kernel
  have hactive : sampleMissed.chain.authoritySet.id = 2 := by
    decide +kernel
  obtain ⟨w, hworker, hid⟩ := Option.map_eq_some_iff.mp hheld
  rw [h hprocesses w hworker, hactive] at hid
  cases hid

end DkgSubstrate.LocalSession
