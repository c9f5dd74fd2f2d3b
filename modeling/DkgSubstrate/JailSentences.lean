import DkgSubstrate.MetadataJails
import DkgSubstrate.SampleRuntime

/-!
How long an authority stays in a jail.  It is released at its own request when its sentence is
over, and before that only by force.
-/

namespace DkgSubstrate.JailSentences

open DkgSubstrate.Dispatch
open DkgSubstrate.Metadata
open DkgSubstrate.MetadataCalls
open DkgSubstrate.MetadataEffects
open DkgSubstrate.MetadataJails
open DkgSubstrate.MetadataRotation
open DkgSubstrate.MetadataStep
open DkgSubstrate.Primitives
open DkgSubstrate.Runs
open DkgSubstrate.SampleRuntime
open DkgSubstrate.StorageMap
open DkgSubstrate.Words

variable {L : Limits} {AccountId World : Type}

/-- The blocks at which the authorities were jailed. -/
def Outer.jail (o : Outer AccountId) : MisbehaviourType → StorageMap Public ℕ
  | .keygen => o.jailedKeygenAuthorities
  | .sign => o.jailedSigningAuthorities

def jailOf (misbehaviourType : MisbehaviourType) (s : State L AccountId World) :
    StorageMap Public ℕ :=
  Outer.jail (outer s) misbehaviourType

def sentenceOf (cfg : Config L AccountId World) : MisbehaviourType → ℕ
  | .keygen => cfg.keygenJailSentence
  | .sign => cfg.signingJailSentence

/-- The call takes the authority out of the jail by force. -/
def forces (misbehaviourType : MisbehaviourType) (authority : Public) :
    Call L AccountId World → Bool
  | .forceUnjailKeygen _ other => misbehaviourType = .keygen ∧ other = authority
  | .forceUnjailSigning _ other => misbehaviourType = .sign ∧ other = authority
  | _ => false

def Onward (s : State L AccountId World) : Call L AccountId World → Prop
  | .initializeBlock n => s.blockNumber ≤ n
  | _ => True

variable (cfg : Config L AccountId World)

def lastBlock (misbehaviourType : MisbehaviourType) (jailedAt : ℕ) : ℕ :=
  saturatingAdd 32 jailedAt (sentenceOf cfg misbehaviourType)

def Serves (misbehaviourType : MisbehaviourType) (authority : Public) (jailedAt : ℕ)
    (o : Outer AccountId) : Prop :=
  (Outer.jail o misbehaviourType).lookup authority = some jailedAt ∨
    lastBlock cfg misbehaviourType jailedAt < o.blockNumber

variable {cfg} {misbehaviourType : MisbehaviourType} {authority : Public} {jailedAt : ℕ}
variable {s s' : State L AccountId World}

theorem lookup_releaseAfter {now sentence : ℕ} {other : Public} {jail : StorageMap Public ℕ}
    (h : jail.lookup authority = some jailedAt) :
    (releaseAfter now sentence other jail).lookup authority =
      if authority = other ∧ saturatingAdd 32 jailedAt sentence < now then none
      else some jailedAt := by
  rw [releaseAfter]
  by_cases hother : authority = other
  · subst hother
    rw [getD, h, Option.getD_some]
    by_cases hover : saturatingAdd 32 jailedAt sentence < now
    · rw [if_pos hover, if_pos ⟨rfl, hover⟩, lookup_erase_eq, if_pos rfl]
    · rw [if_neg hover, if_neg fun hboth => hover hboth.2, h]
  · have hkept : ¬(authority = other ∧ saturatingAdd 32 jailedAt sentence < now) :=
      fun hboth => hother hboth.1
    rw [if_neg hkept]
    split
    · rw [lookup_erase_eq, if_neg hother, h]
    · exact h

theorem lookup_afterReports {reports : AggregatedMisbehaviourReports L}
    (hkeygen : s.jailedKeygenAuthorities.containsKey reports.offender = false)
    (hsigning : s.jailedSigningAuthorities.containsKey reports.offender = false)
    (h : (jailOf misbehaviourType s).lookup authority = some jailedAt) :
    (Outer.jail (afterReports cfg reports s) misbehaviourType).lookup authority =
      some jailedAt := by
  have hne : ∀ jail : StorageMap Public ℕ, jail.containsKey reports.offender = false →
      jail.lookup authority = some jailedAt → authority ≠ reports.offender := by
    rintro jail hfree hlookup rfl
    rw [containsKey, hlookup] at hfree
    cases hfree
  cases misbehaviourType with
  | keygen =>
      simp only [Outer.jail, afterReports]
      split
      · rw [lookup_insert_eq, if_neg (hne _ hkeygen h)]
        exact h
      · exact h
  | sign =>
      simp only [Outer.jail, afterReports]
      split
      · rw [lookup_insert_eq, if_neg (hne _ hsigning h)]
        exact h
      · exact h

theorem serves_unjail (h : (jailOf misbehaviourType s).lookup authority = some jailedAt)
    (other : Public) :
    Serves cfg misbehaviourType authority jailedAt { outer s with
      jailedKeygenAuthorities := releaseAfter s.blockNumber cfg.keygenJailSentence other
        s.jailedKeygenAuthorities
      jailedSigningAuthorities := releaseAfter s.blockNumber cfg.signingJailSentence other
        s.jailedSigningAuthorities } := by
  have hreleased : ∀ sentence jail, jail.lookup authority = some jailedAt →
      (releaseAfter s.blockNumber sentence other jail).lookup authority = some jailedAt ∨
        saturatingAdd 32 jailedAt sentence < s.blockNumber := by
    intro sentence jail hjail
    rw [lookup_releaseAfter hjail]
    split
    · rename_i hover
      exact .inr hover.2
    · exact .inl rfl
  cases misbehaviourType with
  | keygen => exact hreleased _ _ h
  | sign => exact hreleased _ _ h

theorem serves_erase {other : Public} (o : Outer AccountId)
    (h : Serves cfg misbehaviourType authority jailedAt o) (hne : authority ≠ other) :
    ((Outer.jail o misbehaviourType).erase other).lookup authority = some jailedAt ∨
      lastBlock cfg misbehaviourType jailedAt < o.blockNumber := by
  refine h.imp_left fun hlookup => ?_
  rw [lookup_erase_eq, if_neg hne, hlookup]

variable [DecidableEq AccountId]

theorem serves_step (h : Serves cfg misbehaviourType authority jailedAt (outer s))
    {call : Call L AccountId World} (hcall : Accepted cfg s call → Onward s call ∧
      forces misbehaviourType authority call = false) :
    Serves cfg misbehaviourType authority jailedAt (outer (step cfg s call)) := by
  rw [step]
  refine commit_cases (P := fun t => Serves cfg misbehaviourType authority jailedAt (outer t)) h
    fun t hdispatch => ?_
  have haccepted : Accepted cfg s call := by
    rw [Accepted, hdispatch]
    rfl
  obtain ⟨honward, hforces⟩ := hcall haccepted
  have heffect := dispatch_outer hdispatch
  generalize outer t = o at heffect
  cases heffect with
  | kept => exact h
  | keySubmitted => exact h
  | reported hkeygen hsigning =>
      refine h.imp (lookup_afterReports hkeygen hsigning) id
  | unjailed =>
      rcases h with hjailed | hover
      · exact serves_unjail hjailed _
      · exact .inr hover
  | @forcedKeygen origin other =>
      cases misbehaviourType with
      | keygen =>
          refine serves_erase (outer s) h ?_
          rintro rfl
          simp [forces] at hforces
      | sign => exact h
  | @forcedSigning origin other =>
      cases misbehaviourType with
      | keygen => exact h
      | sign =>
          refine serves_erase (outer s) h ?_
          rintro rfl
          simp [forces] at hforces
  | blockStarted => exact h.imp id fun hover => lt_of_lt_of_le hover honward
  | sessionStarted => exact h

theorem serves_run (h : Serves cfg misbehaviourType authority jailedAt (outer s))
    {calls : List (Call L AccountId World)}
    (hcalls : StepsMeet (step cfg) (fun t call => Accepted cfg t call → Onward t call ∧
      forces misbehaviourType authority call = false) s calls) :
    Serves cfg misbehaviourType authority jailedAt (outer (run (step cfg) s calls)) :=
  invariant_run (fun t => Serves cfg misbehaviourType authority jailedAt (outer t))
    (fun _ _ ht hcall => serves_step ht hcall) h hcalls

theorem step_unjail {account : AccountId}
    (hcontroller : s.accountToAuthority.lookup account = some authority) :
    step cfg s (.unjail (.signed account)) = { s with
      jailedKeygenAuthorities := releaseAfter s.blockNumber cfg.keygenJailSentence
        authority s.jailedKeygenAuthorities
      jailedSigningAuthorities := releaseAfter s.blockNumber cfg.signingJailSentence
        authority s.jailedSigningAuthorities } := by
  simp only [step, dispatch, unjail, okOr, bind, Except.bind, hcontroller, commit]

/-- Whatever is called, an authority that is not released by force stays in its jail for the whole
sentence, which nothing prolongs.  Its request to be released is granted from the block after the
last one of the sentence on. -/
theorem sentence_served (h : (jailOf misbehaviourType s).lookup authority = some jailedAt)
    {calls : List (Call L AccountId World)}
    (hcalls : StepsMeet (step cfg) (fun t call => Accepted cfg t call → Onward t call ∧
      forces misbehaviourType authority call = false) s calls)
    {t : State L AccountId World} (ht : t = run (step cfg) s calls) :
    (t.blockNumber ≤ lastBlock cfg misbehaviourType jailedAt →
      (jailOf misbehaviourType t).lookup authority = some jailedAt) ∧
    ((jailOf misbehaviourType t).lookup authority = some jailedAt →
      ∀ account, t.accountToAuthority.lookup account = some authority →
        ((jailOf misbehaviourType (step cfg t (.unjail (.signed account)))).lookup authority =
          none ↔ lastBlock cfg misbehaviourType jailedAt < t.blockNumber)) := by
  constructor
  · intro hbefore
    rw [ht] at hbefore ⊢
    exact (serves_run (.inl h) hcalls).resolve_right hbefore.not_gt
  · intro hjailed account hcontroller
    rw [step_unjail hcontroller]
    have hreleased : ∀ sentence jail, jail.lookup authority = some jailedAt →
        ((releaseAfter t.blockNumber sentence authority jail).lookup authority = none ↔
          saturatingAdd 32 jailedAt sentence < t.blockNumber) := by
      intro sentence jail hjail
      rw [lookup_releaseAfter hjail]
      simp only [true_and, ite_eq_left_iff, reduceCtorEq, imp_false, not_not]
    cases misbehaviourType with
    | keygen => exact hreleased _ _ hjailed
    | sign => exact hreleased _ _ hjailed

def sampleJailed : State runtimeLimits ℕ Unit :=
  run (step sampleConfig) (sampleGenesis 3 1 4)
    [.newSession (sampleValidators 4) (sampleValidators 4), .initializeBlock 3,
      .submitMisbehaviourReports .none (sampleReport .keygen 1 [2, 3] [2, 3])]

def sampleSentence : List (Call runtimeLimits ℕ Unit) :=
  [.initializeBlock 9, .unjail (.signed 0),
    .submitMisbehaviourReports .none (sampleReport .sign 1 [2, 3] [2, 3]), .initializeBlock 13]

theorem sentence_served_sample :
    (jailOf .keygen sampleJailed).lookup (samplePublic 1) = some 3 ∧
      (jailOf .keygen (run (step sampleConfig) sampleJailed sampleSentence)).lookup
        (samplePublic 1) = some 3 ∧
      ((jailOf .keygen (step sampleConfig (run (step sampleConfig) sampleJailed sampleSentence)
        (.unjail (.signed 0)))).lookup (samplePublic 1) = none ↔
          lastBlock sampleConfig .keygen 3 <
            (run (step sampleConfig) sampleJailed sampleSentence).blockNumber) := by
  have hjailed : (jailOf .keygen sampleJailed).lookup (samplePublic 1) = some 3 := by
    decide +kernel
  have hcalls : StepsMeet (step sampleConfig) (fun t call => Accepted sampleConfig t call →
      Onward t call ∧ forces .keygen (samplePublic 1) call = false) sampleJailed
        sampleSentence := by
    refine stepsMeet_cons.mpr ⟨fun _ => ⟨?_, rfl⟩, stepsMeet_cons.mpr ⟨fun _ => ⟨trivial, rfl⟩,
      stepsMeet_cons.mpr ⟨fun _ => ⟨trivial, rfl⟩, stepsMeet_cons.mpr ⟨fun _ => ⟨?_, rfl⟩,
        stepsMeet_nil⟩⟩⟩⟩
    · simp only [Onward]
      decide +kernel
    · simp only [Onward]
      decide +kernel
  obtain ⟨hserved, hrequest⟩ := sentence_served hjailed hcalls rfl
  have hstill := hserved (by decide +kernel)
  exact ⟨hjailed, hstill, hrequest hstill 0 (by decide +kernel)⟩

end DkgSubstrate.JailSentences
