import DkgSubstrate.Runs
import DkgSubstrate.Words
import Mathlib.Data.Finset.Insert

/-!
The wrapper around the state machine of a protocol.  Messages come in by gossip, and so more than
once.  The wrapper passes on a message of an earlier round never, and any other message once.
-/

namespace DkgSubstrate.StateMachineWrapper

open DkgSubstrate.Runs
open DkgSubstrate.Words

structure CurrentRoundBlame where
  unreceivedMessages : UInt16
  blamedParties : List UInt16
deriving DecidableEq

structure StateMachine (State Message Err : Type) where
  handleIncoming : Message → State → State × Except Err Unit
  proceed : State → State × Except Err Unit
  currentRound : State → ℕ
  roundBlame : State → CurrentRoundBlame
  roundId : Message → ℕ
  serialize : Message → Bytes

/-- The round of the state machine never decreases. -/
structure StateMachine.RoundsGrow {State Message Err : Type}
    (m : StateMachine State Message Err) : Prop where
  handleIncoming : ∀ msg sm, m.currentRound sm ≤ m.currentRound (m.handleIncoming msg sm).1
  proceed : ∀ sm, m.currentRound sm ≤ m.currentRound (m.proceed sm).1

structure Wrapper (State : Type) where
  sm : State
  receivedMessages : Finset Bytes
  currentRoundBlame : CurrentRoundBlame
deriving DecidableEq

def Wrapper.new {State : Type} (sm : State) (blame : CurrentRoundBlame) : Wrapper State :=
  ⟨sm, ∅, blame⟩

inductive Event (Message : Type) where
  | handleIncoming (msg : Message)
  | proceed

variable {State Message Err : Type} (m : StateMachine State Message Err)

namespace Wrapper

variable (w : Wrapper State)

def ignores (msg : Message) : Bool :=
  decide (m.roundId msg < m.currentRound w.sm) || decide (m.serialize msg ∈ w.receivedMessages)

def handleIncoming (msg : Message) : Wrapper State × Except Err Unit :=
  if w.ignores m msg then (w, .ok ())
  else
    let (sm, result) := m.handleIncoming msg w.sm
    ({ sm := sm
       receivedMessages := insert (m.serialize msg) w.receivedMessages
       currentRoundBlame := m.roundBlame sm }, result)

def proceed : Wrapper State × Except Err Unit :=
  let (sm, result) := m.proceed w.sm
  ({ w with sm := sm, currentRoundBlame := m.roundBlame sm }, result)

end Wrapper

def step (w : Wrapper State) : Event Message → Wrapper State
  | .handleIncoming msg => (w.handleIncoming m msg).1
  | .proceed => (w.proceed m).1

def passed (w : Wrapper State) : Event Message → List Message
  | .handleIncoming msg => if w.ignores m msg then [] else [msg]
  | .proceed => []

inductive WithCopies : List Message → List (Event Message) → List (Event Message) → Prop
  | nil (seen : List Message) : WithCopies seen [] []
  | proceed {seen es es'} : WithCopies seen es es' →
      WithCopies seen (.proceed :: es) (.proceed :: es')
  | first {seen es es'} (msg : Message) : WithCopies (msg :: seen) es es' →
      WithCopies seen (.handleIncoming msg :: es) (.handleIncoming msg :: es')
  | copy {seen es es'} {msg : Message} : msg ∈ seen → WithCopies seen es es' →
      WithCopies seen es (.handleIncoming msg :: es')

def Settled (seen : List Message) (w : Wrapper State) : Prop :=
  ∀ msg ∈ seen, w.ignores m msg = true

section Copies

variable {m} {w : Wrapper State} {seen : List Message}

theorem ignores_eq_true {msg : Message} : w.ignores m msg = true ↔
    m.roundId msg < m.currentRound w.sm ∨ m.serialize msg ∈ w.receivedMessages := by
  rw [Wrapper.ignores, Bool.or_eq_true, decide_eq_true_eq, decide_eq_true_eq]

theorem step_of_ignores {msg : Message} (h : w.ignores m msg = true) :
    step m w (.handleIncoming msg) = w := by
  rw [step, Wrapper.handleIncoming, if_pos h]

theorem passed_of_ignores {msg : Message} (h : w.ignores m msg = true) :
    passed m w (.handleIncoming msg) = [] := by
  rw [passed, if_pos h]

theorem ignores_step (hgrow : m.RoundsGrow) (e : Event Message) {msg : Message}
    (h : w.ignores m msg = true) : (step m w e).ignores m msg = true := by
  rw [ignores_eq_true] at h
  cases e with
  | handleIncoming other =>
      by_cases hother : w.ignores m other = true
      · rw [step_of_ignores hother, ignores_eq_true]
        exact h
      · rw [step, Wrapper.handleIncoming, if_neg hother, ignores_eq_true]
        refine h.imp ?_ ?_
        · intro hround
          exact Nat.lt_of_lt_of_le hround (hgrow.handleIncoming other w.sm)
        · intro hreceived
          exact Finset.mem_insert_of_mem hreceived
  | proceed =>
      rw [step, Wrapper.proceed, ignores_eq_true]
      refine h.imp ?_ id
      intro hround
      exact Nat.lt_of_lt_of_le hround (hgrow.proceed w.sm)

theorem ignores_step_self (msg : Message) :
    (step m w (.handleIncoming msg)).ignores m msg = true := by
  by_cases h : w.ignores m msg = true
  · rw [step_of_ignores h]
    exact h
  · rw [step, Wrapper.handleIncoming, if_neg h, ignores_eq_true]
    exact .inr (Finset.mem_insert_self _ _)

theorem settled_step (hgrow : m.RoundsGrow) (h : Settled m seen w) (e : Event Message) :
    Settled m seen (step m w e) :=
  fun msg hmsg => ignores_step hgrow e (h msg hmsg)

theorem run_withCopies (hgrow : m.RoundsGrow) {es es' : List (Event Message)}
    (h : WithCopies seen es es') (hseen : Settled m seen w) :
    trace (step m) (passed m) w es' = trace (step m) (passed m) w es ∧
      run (step m) w es' = run (step m) w es := by
  induction h generalizing w with
  | nil => exact ⟨rfl, rfl⟩
  | proceed _ ih =>
      obtain ⟨htrace, hrun⟩ := ih (settled_step hgrow hseen .proceed)
      rw [trace, trace, htrace, run_cons, run_cons, hrun]
      exact ⟨rfl, rfl⟩
  | first msg _ ih =>
      have hsettled : Settled m (msg :: _) (step m w (.handleIncoming msg)) :=
        List.forall_mem_cons.mpr ⟨ignores_step_self msg, settled_step hgrow hseen _⟩
      obtain ⟨htrace, hrun⟩ := ih hsettled
      rw [trace, trace, htrace, run_cons, run_cons, hrun]
      exact ⟨rfl, rfl⟩
  | copy hmsg _ ih =>
      rw [trace, run_cons, passed_of_ignores (hseen _ hmsg), step_of_ignores (hseen _ hmsg)]
      exact ih hseen

end Copies

/-- Further copies of messages leave the messages that are passed on to the state machine, and
the state of the machine and of the wrapper, as they are. -/
theorem copies_harmless (hgrow : m.RoundsGrow) (w : Wrapper State)
    {es es' : List (Event Message)} (h : WithCopies [] es es') :
    trace (step m) (passed m) w es' = trace (step m) (passed m) w es ∧
      run (step m) w es' = run (step m) w es :=
  run_withCopies hgrow h fun _ hmsg => absurd hmsg List.not_mem_nil

def sampleMachine : StateMachine (ℕ × List ℕ) (ℕ × ℕ) Unit where
  handleIncoming msg sm := ((sm.1, sm.2 ++ [msg.2]), .ok ())
  proceed sm := ((sm.1 + 1, sm.2), .ok ())
  currentRound := Prod.fst
  roundBlame _ := ⟨0, []⟩
  roundId := Prod.fst
  serialize msg := [UInt8.ofNat msg.1, UInt8.ofNat msg.2]

theorem roundsGrow_sampleMachine : sampleMachine.RoundsGrow where
  handleIncoming _ _ := Nat.le_refl _
  proceed sm := Nat.le_succ sm.1

def sampleEvents : List (Event (ℕ × ℕ)) :=
  [.handleIncoming (0, 1), .proceed, .handleIncoming (1, 2), .proceed]

def sampleCopies : List (Event (ℕ × ℕ)) :=
  [.handleIncoming (0, 1), .handleIncoming (0, 1), .proceed, .handleIncoming (1, 2),
    .handleIncoming (0, 1), .handleIncoming (1, 2), .proceed]

theorem withCopies_sampleCopies : WithCopies [] sampleEvents sampleCopies := by
  refine .first _ (.copy List.mem_cons_self (.proceed (.first _ (.copy ?_ (.copy ?_ ?_)))))
  · exact List.mem_cons_of_mem _ List.mem_cons_self
  · exact List.mem_cons_self
  · exact .proceed (.nil _)

theorem copies_harmless_sampleMachine :
    sampleMachine.RoundsGrow ∧ WithCopies [] sampleEvents sampleCopies ∧
      trace (step sampleMachine) (passed sampleMachine) (.new (0, []) ⟨0, []⟩) sampleEvents =
        [(0, 1), (1, 2)] ∧
      trace (step sampleMachine) (passed sampleMachine) (.new (0, []) ⟨0, []⟩) sampleCopies =
        trace (step sampleMachine) (passed sampleMachine) (.new (0, []) ⟨0, []⟩) sampleEvents ∧
      run (step sampleMachine) (.new (0, []) ⟨0, []⟩) sampleCopies =
        run (step sampleMachine) (.new (0, []) ⟨0, []⟩) sampleEvents :=
  ⟨roundsGrow_sampleMachine, withCopies_sampleCopies, by decide,
    copies_harmless sampleMachine roundsGrow_sampleMachine _ withCopies_sampleCopies⟩

end DkgSubstrate.StateMachineWrapper
