import Mathlib.Data.List.Basic
import Mathlib.Logic.Relation

/-!
Runs of a deterministic transition system given by a step function.  A rejected
call is a step that returns the state it was executed in.
-/

namespace DkgSubstrate.Runs

universe u v w x

variable {σ : Type u} {κ : Type v}

def run (step : σ → κ → σ) (s : σ) (cs : List κ) : σ :=
  cs.foldl step s

/-- `P` holds in every state that the calls reach from `s`, the first state
included. -/
def Always (step : σ → κ → σ) (P : σ → Prop) (s : σ) (cs : List κ) : Prop :=
  ∀ pre post, cs = pre ++ post → P (run step s pre)

/-- What the calls emit, in the order of the calls. -/
def trace {α : Type u} (step : σ → κ → σ) (emit : σ → κ → List α) : σ → List κ → List α
  | _, [] => []
  | s, c :: cs => emit s c ++ trace step emit (step s c) cs

/-- Every call of the run meets `cond` in the state it is executed in. -/
def StepsMeet (step : σ → κ → σ) (cond : σ → κ → Prop) (s : σ) (cs : List κ) : Prop :=
  ∀ pre c post, cs = pre ++ c :: post → cond (run step s pre) c

@[simp] theorem run_nil (step : σ → κ → σ) (s : σ) : run step s [] = s := rfl

@[simp] theorem run_cons (step : σ → κ → σ) (s : σ) (c : κ) (cs : List κ) :
    run step s (c :: cs) = run step (step s c) cs := rfl

theorem run_append (step : σ → κ → σ) (s : σ) (cs ds : List κ) :
    run step s (cs ++ ds) = run step (run step s cs) ds :=
  List.foldl_append

theorem always_nil {step : σ → κ → σ} {P : σ → Prop} {s : σ} :
    Always step P s [] ↔ P s := by
  constructor
  · intro h
    exact h [] [] rfl
  · intro h pre post hsplit
    obtain ⟨rfl, -⟩ := List.append_eq_nil_iff.mp hsplit.symm
    exact h

theorem always_cons {step : σ → κ → σ} {P : σ → Prop} {s : σ} {c : κ} {cs : List κ} :
    Always step P s (c :: cs) ↔ P s ∧ Always step P (step s c) cs := by
  constructor
  · intro h
    refine ⟨h [] (c :: cs) rfl, ?_⟩
    intro pre post hsplit
    exact h (c :: pre) post (by rw [hsplit]; rfl)
  · rintro ⟨hs, hrest⟩ pre post hsplit
    rcases pre with _ | ⟨c', pre⟩
    · exact hs
    · obtain ⟨rfl, htail⟩ := List.cons.inj hsplit
      exact hrest pre post htail

theorem stepsMeet_nil {step : σ → κ → σ} {cond : σ → κ → Prop} {s : σ} :
    StepsMeet step cond s [] := by
  intro pre c post hsplit
  simp at hsplit

theorem stepsMeet_cons {step : σ → κ → σ} {cond : σ → κ → Prop} {s : σ} {c : κ}
    {cs : List κ} :
    StepsMeet step cond s (c :: cs) ↔ cond s c ∧ StepsMeet step cond (step s c) cs := by
  constructor
  · intro h
    refine ⟨h [] c cs rfl, ?_⟩
    intro pre c' post hsplit
    exact h (c :: pre) c' post (by rw [hsplit]; rfl)
  · rintro ⟨hc, hrest⟩ pre c' post hsplit
    rcases pre with _ | ⟨d, pre⟩
    · obtain ⟨rfl, -⟩ := List.cons.inj hsplit
      exact hc
    · obtain ⟨rfl, htail⟩ := List.cons.inj hsplit
      exact hrest pre c' post htail

instance decidableStepsMeet (step : σ → κ → σ) (cond : σ → κ → Prop)
    [∀ s c, Decidable (cond s c)] :
    (s : σ) → (cs : List κ) → Decidable (StepsMeet step cond s cs)
  | _, [] => isTrue stepsMeet_nil
  | s, c :: cs =>
      have := decidableStepsMeet step cond (step s c) cs
      decidable_of_iff _ stepsMeet_cons.symm

theorem stepsMeet_true (step : σ → κ → σ) (s : σ) (cs : List κ) :
    StepsMeet step (fun _ _ => True) s cs :=
  fun _ _ _ _ => trivial

theorem stepsMeet_of_forall_mem {step : σ → κ → σ} {cond : σ → κ → Prop} {cs : List κ}
    (h : ∀ c ∈ cs, ∀ s, cond s c) (s : σ) : StepsMeet step cond s cs := by
  intro pre c post hsplit
  refine h c ?_ _
  rw [hsplit]
  exact List.mem_append_right _ List.mem_cons_self

theorem always_congr {step : σ → κ → σ} {P Q : σ → Prop} {s : σ} {cs : List κ}
    (h : Always step (fun s => P s ↔ Q s) s cs) : Always step P s cs ↔ Always step Q s cs := by
  constructor
  · intro hP pre post hsplit
    exact (h pre post hsplit).mp (hP pre post hsplit)
  · intro hQ pre post hsplit
    exact (h pre post hsplit).mpr (hQ pre post hsplit)

theorem StepsMeet.of_append {step : σ → κ → σ} {cond : σ → κ → Prop} {s : σ} {pre post : List κ}
    (h : StepsMeet step cond s (pre ++ post)) : StepsMeet step cond (run step s pre) post := by
  intro pre' c post' hsplit
  rw [← run_append]
  exact h (pre ++ pre') c post' (by rw [hsplit, List.append_assoc])

theorem StepsMeet.and {step : σ → κ → σ} {cond cond' : σ → κ → Prop} {s : σ} {cs : List κ}
    (h : StepsMeet step cond s cs) (h' : StepsMeet step cond' s cs) :
    StepsMeet step (fun s c => cond s c ∧ cond' s c) s cs :=
  fun pre c post hsplit => ⟨h pre c post hsplit, h' pre c post hsplit⟩

theorem always_of_invariant {step : σ → κ → σ} (Inv : σ → Prop)
    {legal : σ → κ → Prop}
    (hstep : ∀ s c, Inv s → legal s c → Inv (step s c))
    {s : σ} {cs : List κ} (hinit : Inv s) (hlegal : StepsMeet step legal s cs) :
    Always step Inv s cs := by
  induction cs generalizing s with
  | nil => exact always_nil.mpr hinit
  | cons c cs ih =>
      obtain ⟨hc, hrest⟩ := stepsMeet_cons.mp hlegal
      exact always_cons.mpr ⟨hinit, ih (hstep s c hinit hc) hrest⟩

theorem invariant_run {step : σ → κ → σ} (Inv : σ → Prop)
    {legal : σ → κ → Prop}
    (hstep : ∀ s c, Inv s → legal s c → Inv (step s c))
    {s : σ} {cs : List κ} (hinit : Inv s) (hlegal : StepsMeet step legal s cs) :
    Inv (run step s cs) :=
  always_of_invariant Inv hstep hinit hlegal cs [] (by simp)

theorem stepsMeet_of_invariant {step : σ → κ → σ} (Inv : σ → Prop)
    {legal cond : σ → κ → Prop}
    (hstep : ∀ s c, Inv s → legal s c → Inv (step s c))
    (hcond : ∀ s c, Inv s → legal s c → cond s c)
    {s : σ} {cs : List κ} (hinit : Inv s) (hlegal : StepsMeet step legal s cs) :
    StepsMeet step cond s cs := by
  intro pre c post hsplit
  have hinv := always_of_invariant Inv hstep hinit hlegal pre (c :: post) hsplit
  exact hcond _ c hinv (hlegal pre c post hsplit)

theorem exists_step_of_run {step : σ → κ → σ} {P : σ → Prop} {s : σ} {cs : List κ}
    (hinit : ¬P s) (h : P (run step s cs)) :
    ∃ pre c post, cs = pre ++ c :: post ∧ ¬P (run step s pre) ∧ P (step (run step s pre) c) := by
  induction cs generalizing s with
  | nil => exact absurd h hinit
  | cons c cs ih =>
      by_cases hc : P (step s c)
      · exact ⟨[], c, cs, rfl, hinit, hc⟩
      · obtain ⟨pre, d, post, rfl, hpre, hd⟩ := ih hc h
        exact ⟨c :: pre, d, post, rfl, hpre, hd⟩

theorem invariant_of_reflTransGen {r : σ → σ → Prop} (Inv : σ → Prop)
    (hstep : ∀ s t, Inv s → r s t → Inv t) {s t : σ} (hinit : Inv s)
    (h : Relation.ReflTransGen r s t) : Inv t := by
  induction h with
  | refl => exact hinit
  | tail _ hlast ih => exact hstep _ _ ih hlast

theorem filter_trace {α : Type u} (p : α → Bool) (step : σ → κ → σ) (emit : σ → κ → List α)
    (s : σ) (cs : List κ) :
    (trace step emit s cs).filter p = trace step (fun s c => (emit s c).filter p) s cs := by
  induction cs generalizing s with
  | nil => rfl
  | cons c cs ih => rw [trace, trace, List.filter_append, ih]

theorem log_run {α : Type u} {step : σ → κ → σ} (Inv : σ → Prop) {log : σ → List α}
    {emit : σ → κ → List α} (hinv : ∀ s c, Inv s → Inv (step s c))
    (hstep : ∀ s c, Inv s → log (step s c) = log s ++ emit s c) {s : σ} (hinit : Inv s)
    (cs : List κ) : log (run step s cs) = log s ++ trace step emit s cs := by
  induction cs generalizing s with
  | nil => exact (List.append_nil _).symm
  | cons c cs ih =>
      rw [run_cons, ih (hinv s c hinit), hstep s c hinit, List.append_assoc]
      rfl

theorem trace_append {α : Type u} (step : σ → κ → σ) (emit : σ → κ → List α) (s : σ)
    (cs ds : List κ) :
    trace step emit s (cs ++ ds) =
      trace step emit s cs ++ trace step emit (run step s cs) ds := by
  induction cs generalizing s with
  | nil => rfl
  | cons c cs ih => rw [List.cons_append, trace, trace, ih, run_cons, List.append_assoc]

theorem invariant_trace {α : Type u} {step : σ → κ → σ} {emit : σ → κ → List α}
    (Inv : List α → σ → Prop) {legal : σ → κ → Prop}
    (hstep : ∀ past s c, Inv past s → legal s c → Inv (past ++ emit s c) (step s c))
    (past : List α) {s : σ} {cs : List κ} (hinit : Inv past s)
    (hlegal : StepsMeet step legal s cs) :
    Inv (past ++ trace step emit s cs) (run step s cs) := by
  induction cs generalizing past s with
  | nil =>
      rw [trace, List.append_nil]
      exact hinit
  | cons c cs ih =>
      obtain ⟨hc, hrest⟩ := stepsMeet_cons.mp hlegal
      rw [trace, ← List.append_assoc]
      exact ih (past ++ emit s c) (hstep past s c hinit hc) hrest

theorem pairwise_trace {α : Type u} {step : σ → κ → σ} (emit : σ → κ → Option α)
    (R : α → α → Prop) (Seen : σ → α → Prop) {legal : σ → κ → Prop}
    (hfresh : ∀ s c, legal s c → ∀ b ∈ emit s c, ∀ a, Seen s a → R a b)
    (hkept : ∀ s c, legal s c → ∀ a, Seen s a → Seen (step s c) a)
    (hrecorded : ∀ s c, legal s c → ∀ b ∈ emit s c, Seen (step s c) b)
    {s : σ} {cs : List κ} (hlegal : StepsMeet step legal s cs) :
    (trace step (fun s c => (emit s c).toList) s cs).Pairwise R ∧
      ∀ a, Seen s a → ∀ b ∈ trace step (fun s c => (emit s c).toList) s cs, R a b := by
  induction cs generalizing s with
  | nil => exact ⟨List.Pairwise.nil, fun _ _ _ hb => absurd hb List.not_mem_nil⟩
  | cons c cs ih =>
      obtain ⟨hc, hrest⟩ := stepsMeet_cons.mp hlegal
      obtain ⟨hpairs, hlater⟩ := ih hrest
      have hnew : (emit s c).toList.Pairwise R := by
        cases emit s c with
        | none => exact List.Pairwise.nil
        | some b => exact List.pairwise_singleton R b
      refine ⟨List.pairwise_append.mpr ⟨hnew, hpairs, ?_⟩, ?_⟩
      · intro a ha
        exact hlater a (hrecorded s c hc a (Option.mem_toList.mp ha))
      · intro a ha b hb
        rcases List.mem_append.mp hb with hb | hb
        · exact hfresh s c hc b (Option.mem_toList.mp hb) a ha
        · exact hlater a (hkept s c hc a ha) b hb

theorem always_iff_stepsMeet {step : σ → κ → σ} (Inv : σ → Prop) {P : σ → Prop}
    {legal cond : σ → κ → Prop}
    (hinv : ∀ s c, Inv s → P s → legal s c → P (step s c) → Inv (step s c))
    (hstep : ∀ s c, Inv s → P s → legal s c → (P (step s c) ↔ cond s c))
    {s : σ} {cs : List κ} (hinit : Inv s) (hP : P s)
    (hlegal : StepsMeet step legal s cs) :
    Always step P s cs ↔ StepsMeet step cond s cs := by
  induction cs generalizing s with
  | nil => exact iff_of_true (always_nil.mpr hP) stepsMeet_nil
  | cons c cs ih =>
      obtain ⟨hc, hrest⟩ := stepsMeet_cons.mp hlegal
      rw [always_cons, stepsMeet_cons]
      have hinv' := hinv s c hinit hP hc
      constructor
      · rintro ⟨-, halways⟩
        have hnext : P (step s c) := by
          rcases cs with _ | ⟨d, cs⟩
          · exact always_nil.mp halways
          · exact (always_cons.mp halways).1
        exact ⟨(hstep s c hinit hP hc).mp hnext,
          (ih (hinv' hnext) hnext hrest).mp halways⟩
      · rintro ⟨hcond, hmeets⟩
        have hnext := (hstep s c hinit hP hc).mpr hcond
        exact ⟨hP, (ih (hinv' hnext) hnext hrest).mpr hmeets⟩

/-- The system that also remembers the calls it has executed. -/
def withPast (step : σ → κ → σ) (s : σ × List κ) (c : κ) : σ × List κ :=
  (step s.1 c, s.2 ++ [c])

section Relation

variable {σ' : Type w} {step : σ → κ → σ} {step' : σ' → κ → σ'} {R : σ → σ' → Prop}
variable {legal : σ → κ → Prop} {s : σ} {s' : σ'} {cs : List κ}

theorem run_related (hstep : ∀ s s' c, R s s' → legal s c → R (step s c) (step' s' c))
    (h : R s s') (hlegal : StepsMeet step legal s cs) : R (run step s cs) (run step' s' cs) := by
  induction cs generalizing s s' with
  | nil => exact h
  | cons c cs ih =>
      obtain ⟨hfirst, hrest⟩ := stepsMeet_cons.mp hlegal
      exact ih (hstep s s' c h hfirst) hrest

theorem trace_related {α τ : Type u} {next : τ → κ → τ} {Q : σ → τ → Prop}
    {emit : σ → κ → List α} {emit' : τ → κ → List α} {t : τ}
    (hstep : ∀ s t c, Q s t → legal s c → Q (step s c) (next t c))
    (hemit : ∀ s t c, Q s t → legal s c → emit s c = emit' t c)
    (h : Q s t) (hlegal : StepsMeet step legal s cs) :
    trace step emit s cs = trace next emit' t cs := by
  induction cs generalizing s t with
  | nil => rfl
  | cons c cs ih =>
      obtain ⟨hfirst, hrest⟩ := stepsMeet_cons.mp hlegal
      rw [trace, trace, hemit s t c h hfirst, ih (hstep s t c h hfirst) hrest]

theorem stepsMeet_iff_of_related {cond : σ → κ → Prop} {cond' : σ' → κ → Prop}
    (hstep : ∀ s s' c, R s s' → legal s c → R (step s c) (step' s' c))
    (hcond : ∀ s s' c, R s s' → legal s c → (cond s c ↔ cond' s' c))
    (h : R s s') (hlegal : StepsMeet step legal s cs) :
    StepsMeet step cond s cs ↔ StepsMeet step' cond' s' cs := by
  induction cs generalizing s s' with
  | nil => exact iff_of_true stepsMeet_nil stepsMeet_nil
  | cons c cs ih =>
      obtain ⟨hfirst, hrest⟩ := stepsMeet_cons.mp hlegal
      rw [stepsMeet_cons, stepsMeet_cons, hcond s s' c h hfirst,
        ih (hstep s s' c h hfirst) hrest]

end Relation

section Simulation

variable {σ' : Type w} {κ' : Type x}

def Simulates (step : σ → κ → σ) (step' : σ' → κ' → σ') (view : σ → σ') (call : κ → κ') :
    Prop :=
  ∀ s c, view (step s c) = step' (view s) (call c)

variable {step : σ → κ → σ} {step' : σ' → κ' → σ'} {view : σ → σ'} {call : κ → κ'}

theorem Simulates.withPast (h : Simulates step step' view call) :
    Simulates (withPast step) (withPast step') (fun s => (view s.1, s.2.map call)) call := by
  intro s c
  refine Prod.ext (h s.1 c) ?_
  exact List.map_append

theorem Simulates.always_iff (h : Simulates step step' view call) {P : σ → Prop}
    {P' : σ' → Prop} (hP : ∀ s, P s ↔ P' (view s)) {s : σ} {cs : List κ} :
    Always step P s cs ↔ Always step' P' (view s) (cs.map call) := by
  induction cs generalizing s with
  | nil => rw [List.map_nil, always_nil, always_nil, hP s]
  | cons c cs ih => rw [List.map_cons, always_cons, always_cons, ih, h s c, hP s]

theorem Simulates.stepsMeet_iff (h : Simulates step step' view call) {cond : σ → κ → Prop}
    {cond' : σ' → κ' → Prop} (hcond : ∀ s c, cond s c ↔ cond' (view s) (call c)) {s : σ}
    {cs : List κ} :
    StepsMeet step cond s cs ↔ StepsMeet step' cond' (view s) (cs.map call) := by
  induction cs generalizing s with
  | nil => exact iff_of_true stepsMeet_nil stepsMeet_nil
  | cons c cs ih => rw [List.map_cons, stepsMeet_cons, stepsMeet_cons, ih, h s c, hcond s c]

end Simulation

end DkgSubstrate.Runs
