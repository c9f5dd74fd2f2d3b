import DkgSubstrate.Runs
import Mathlib.Algebra.BigOperators.Fin
import Mathlib.Data.Fintype.BigOperators
import Mathlib.Data.Fintype.Card

/-!
Parties that meet in two rounds.  Each of them sends a first message to all others, waits for
the first messages of all others, sends a second one and waits for the second ones.  Messages of
one sender arrive in order, those of different senders in any order, and a party that still waits
for first messages drops a second one.
-/

namespace DkgSubstrate.TwoRounds

open DkgSubstrate.Runs

variable {ι : Type} [Fintype ι] [DecidableEq ι]

/-- `taken i j` counts the messages of `i` that have reached `j`, and `kept j` are the parties
whose second message it has not dropped. -/
structure State (ι : Type) where
  started : Finset ι
  taken : ι → ι → ℕ
  kept : ι → Finset ι

def State.init : State ι := ⟨∅, fun _ _ => 0, fun _ => ∅⟩

def Ready (s : State ι) (j : ι) : Prop := ∀ i, i ≠ j → 0 < s.taken i j

instance decidableReady (s : State ι) (j : ι) : Decidable (Ready s j) :=
  inferInstanceAs (Decidable (∀ i, i ≠ j → 0 < s.taken i j))

/-- The number of messages that the party has sent to each other party. -/
def sent (s : State ι) (i : ι) : ℕ :=
  if i ∈ s.started then if Ready s i then 2 else 1 else 0

def Done (s : State ι) (j : ι) : Prop :=
  j ∈ s.started ∧ Ready s j ∧ ∀ i, i ≠ j → i ∈ s.kept j

inductive Event (ι : Type) where
  | start (i : ι)
  | deliver (i j : ι)
deriving DecidableEq

def Enabled (s : State ι) : Event ι → Prop
  | .start i => i ∉ s.started
  | .deliver i j => i ≠ j ∧ j ∈ s.started ∧ s.taken i j < sent s i

def step (s : State ι) : Event ι → State ι
  | .start i => { s with started := insert i s.started }
  | .deliver i j =>
      { s with
        taken := fun a b => if a = i ∧ b = j then s.taken i j + 1 else s.taken a b
        kept := if s.taken i j = 1 ∧ Ready s j then
            Function.update s.kept j (insert i (s.kept j)) else s.kept }

def InTime (s : State ι) : Event ι → Prop
  | .start _ => True
  | .deliver i j => s.taken i j = 1 → Ready s j

variable {s : State ι}

theorem sent_of_waits {i : ι} (hstarted : i ∈ s.started) (hwaits : ¬Ready s i) :
    sent s i = 1 := by
  rw [sent, if_pos hstarted, if_neg hwaits]

theorem sent_of_ready {i : ι} (hstarted : i ∈ s.started) (hready : Ready s i) :
    sent s i = 2 := by
  rw [sent, if_pos hstarted, if_pos hready]

theorem sent_le (s : State ι) (i : ι) : sent s i ≤ 2 := by
  rw [sent]
  split
  · split <;> omega
  · omega

theorem taken_deliver (i j a b : ι) :
    (step s (.deliver i j)).taken a b =
      if a = i ∧ b = j then s.taken i j + 1 else s.taken a b := rfl

theorem taken_deliver_self (i j : ι) :
    (step s (.deliver i j)).taken i j = s.taken i j + 1 :=
  if_pos ⟨rfl, rfl⟩

theorem taken_deliver_of_not {i j a b : ι} (h : ¬(a = i ∧ b = j)) :
    (step s (.deliver i j)).taken a b = s.taken a b :=
  if_neg h

theorem taken_le_deliver (i j a b : ι) : s.taken a b ≤ (step s (.deliver i j)).taken a b := by
  rw [taken_deliver]
  split
  · rename_i h
    obtain ⟨rfl, rfl⟩ := h
    exact Nat.le_succ _
  · exact le_rfl

def heard (s : State ι) (j : ι) : Finset ι := Finset.univ.filter fun i => i = j ∨ 0 < s.taken i j

theorem mem_heard {i j : ι} : i ∈ heard s j ↔ i = j ∨ 0 < s.taken i j := by
  simp [heard]

theorem ready_iff_heard {j : ι} : Ready s j ↔ heard s j = Finset.univ := by
  rw [Finset.eq_univ_iff_forall]
  simp only [mem_heard, Ready, or_iff_not_imp_left, ne_eq]

theorem heard_deliver (i j : ι) : heard (step s (.deliver i j)) j = insert i (heard s j) := by
  ext a
  simp only [mem_heard, Finset.mem_insert, taken_deliver]
  by_cases ha : a = i
  · simp [ha]
  · simp [ha]

/-- A party depends on whether it has started, on what has reached it and on what it has
kept. -/
structure SameAt (j : ι) (s s' : State ι) : Prop where
  started : j ∈ s'.started ↔ j ∈ s.started
  taken : ∀ i, s'.taken i j = s.taken i j
  kept : s'.kept j = s.kept j

namespace SameAt

variable {s' : State ι} {j : ι}

omit [Fintype ι] [DecidableEq ι] in
theorem ready (h : SameAt j s s') : Ready s' j ↔ Ready s j := by
  simp only [Ready, h.taken]

theorem heard (h : SameAt j s s') : heard s' j = heard s j := by
  ext i
  rw [mem_heard, mem_heard, h.taken]

omit [Fintype ι] [DecidableEq ι] in
theorem done (h : SameAt j s s') : Done s' j ↔ Done s j := by
  rw [Done, Done, h.started, h.ready, h.kept]

theorem sent (h : SameAt j s s') : sent s' j = sent s j := by
  simp only [TwoRounds.sent, h.started, h.ready]

end SameAt

theorem sameAt_start {i j : ι} (hne : j ≠ i) : SameAt j s (step s (.start i)) where
  started := by simp [step, hne]
  taken _ := rfl
  kept := rfl

theorem sameAt_deliver {i j b : ι} (hne : b ≠ j) : SameAt b s (step s (.deliver i j)) where
  started := Iff.rfl
  taken a := taken_deliver_of_not fun h => hne h.2
  kept := by
    simp only [step]
    split
    · exact Function.update_of_ne hne _ _
    · rfl

theorem Ready.step {j : ι} (h : Ready s j) (e : Event ι) : Ready (step s e) j := by
  intro i hne
  cases e with
  | start a => exact h i hne
  | deliver a b => exact (h i hne).trans_le (taken_le_deliver a b i j)

theorem sent_le_step (e : Event ι) (i : ι) : sent s i ≤ sent (step s e) i := by
  have hstarted : i ∈ s.started → i ∈ (TwoRounds.step s e).started := by
    intro hmem
    cases e with
    | start a => exact Finset.mem_insert_of_mem hmem
    | deliver a b => exact hmem
  rw [sent]
  split
  · rename_i hmem
    rw [sent, if_pos (hstarted hmem)]
    split
    · rename_i hready
      rw [if_pos (hready.step e)]
    · split <;> omega
  · exact Nat.zero_le _

/-- No message is taken before it is sent or before its receiver has started, and the second
messages that are kept have been taken by a party that is ready. -/
structure Sound (s : State ι) : Prop where
  taken_le : ∀ i j, s.taken i j ≤ sent s i
  taken_self : ∀ i, s.taken i i = 0
  taken_idle : ∀ i j, j ∉ s.started → s.taken i j = 0
  kept : ∀ i j, i ∈ s.kept j → s.taken i j = 2 ∧ Ready s j

theorem sound_init : Sound (State.init : State ι) where
  taken_le _ _ := Nat.zero_le _
  taken_self _ := rfl
  taken_idle _ _ _ := rfl
  kept i j h := by
    change i ∈ (∅ : Finset ι) at h
    simp at h

theorem mem_kept_deliver {i j a b : ι} :
    a ∈ (step s (.deliver i j)).kept b ↔
      a ∈ s.kept b ∨ (s.taken i j = 1 ∧ Ready s j) ∧ a = i ∧ b = j := by
  simp only [step]
  split
  · rename_i h
    by_cases hb : b = j
    · subst hb
      simp [h, or_comm]
    · simp [hb]
  · rename_i h
    simp [h]

theorem Sound.start (h : Sound s) (i : ι) : Sound (step s (.start i)) where
  taken_le a b := (h.taken_le a b).trans (sent_le_step _ a)
  taken_self := h.taken_self
  taken_idle a b hidle := h.taken_idle a b fun hmem => hidle (Finset.mem_insert_of_mem hmem)
  kept a b hmem := by
    obtain ⟨htwo, hready⟩ := h.kept a b hmem
    exact ⟨htwo, hready.step _⟩

theorem Sound.deliver {i j : ι} (h : Sound s) (henabled : Enabled s (.deliver i j)) :
    Sound (step s (.deliver i j)) := by
  obtain ⟨hne, hstarted, hlt⟩ := henabled
  refine ⟨?_, ?_, ?_, ?_⟩
  · intro a b
    refine le_trans ?_ (sent_le_step _ a)
    by_cases heq : a = i ∧ b = j
    · obtain ⟨rfl, rfl⟩ := heq
      rw [taken_deliver_self]
      exact hlt
    · rw [taken_deliver_of_not heq]
      exact h.taken_le a b
  · intro a
    rw [taken_deliver_of_not fun heq => hne (heq.1.symm.trans heq.2)]
    exact h.taken_self a
  · intro a b hidle
    have hother : b ≠ j := fun heq => hidle (heq ▸ hstarted)
    rw [taken_deliver_of_not fun heq => hother heq.2]
    exact h.taken_idle a b hidle
  · intro a b hmem
    rcases mem_kept_deliver.mp hmem with hold | ⟨⟨hone, hready⟩, rfl, rfl⟩
    · -- What was kept is not taken again, as there are no more than two messages.
      obtain ⟨htwo, hready⟩ := h.kept a b hold
      have hnot : ¬(a = i ∧ b = j) := by
        rintro ⟨rfl, rfl⟩
        have hle := sent_le s a
        omega
      rw [taken_deliver_of_not hnot]
      exact ⟨htwo, hready.step _⟩
    · rw [taken_deliver_self, hone]
      exact ⟨rfl, hready.step _⟩

theorem Sound.step {e : Event ι} (h : Sound s) (henabled : Enabled s e) : Sound (step s e) := by
  cases e with
  | start i => exact h.start i
  | deliver i j => exact h.deliver henabled

def left (s : State ι) : ℕ :=
  s.startedᶜ.card + ∑ p ∈ Finset.univ.offDiag, (2 - s.taken p.1 p.2)

theorem left_init : left (State.init : State ι) =
    Fintype.card ι + (Fintype.card ι * Fintype.card ι - Fintype.card ι) * 2 := by
  simp [left, State.init, Finset.offDiag_card]

theorem left_step {e : Event ι} (henabled : Enabled s e) :
    left (step s e) + 1 = left s := by
  cases e with
  | start i =>
      have hcard : (insert i s.started)ᶜ.card + 1 = s.startedᶜ.card := by
        rw [Finset.compl_insert]
        exact Finset.card_erase_add_one (Finset.mem_compl.mpr henabled)
      simp only [left, step]
      omega
  | deliver i j =>
      obtain ⟨hne, -, hlt⟩ := henabled
      have hle := sent_le s i
      have hmem : (i, j) ∈ (Finset.univ : Finset ι).offDiag := by simpa using hne
      have hothers : ∑ p ∈ Finset.univ.offDiag.erase (i, j),
          (2 - (step s (.deliver i j)).taken p.1 p.2) =
            ∑ p ∈ Finset.univ.offDiag.erase (i, j), (2 - s.taken p.1 p.2) := by
        refine Finset.sum_congr rfl ?_
        rintro ⟨a, b⟩ hp
        rw [taken_deliver_of_not]
        rintro ⟨rfl, rfl⟩
        exact Finset.notMem_erase _ _ hp
      rw [left, left, ← Finset.add_sum_erase _ _ hmem, ← Finset.add_sum_erase _ _ hmem, hothers,
        taken_deliver_self]
      change s.startedᶜ.card + (2 - (s.taken i j + 1) + _) + 1 =
        s.startedᶜ.card + (2 - s.taken i j + _)
      omega

theorem length_le_left {es : List (Event ι)} (henabled : StepsMeet step Enabled s es) :
    es.length ≤ left s := by
  induction es generalizing s with
  | nil => exact Nat.zero_le _
  | cons e es ih =>
      obtain ⟨hfirst, hrest⟩ := stepsMeet_cons.mp henabled
      have hleft := left_step hfirst
      have hlength := ih hrest
      rw [List.length_cons]
      omega

theorem taken_of_maximal (h : Sound s) (hmaximal : ∀ e, ¬Enabled s e) :
    (∀ i, i ∈ s.started) ∧ (∀ j, Ready s j) ∧ ∀ i j, i ≠ j → s.taken i j = 2 := by
  have hstarted : ∀ i, i ∈ s.started := by
    intro i
    by_contra hnot
    exact hmaximal (.start i) hnot
  have htaken : ∀ i j, i ≠ j → s.taken i j = sent s i := by
    intro i j hne
    refine le_antisymm (h.taken_le i j) (Nat.le_of_not_lt fun hlt => ?_)
    exact hmaximal (.deliver i j) ⟨hne, hstarted j, hlt⟩
  -- The first messages do not depend on anything but the start of their senders.
  have hready : ∀ j, Ready s j := by
    intro j i hne
    rw [htaken i j hne, sent, if_pos (hstarted i)]
    split <;> omega
  refine ⟨hstarted, hready, ?_⟩
  intro i j hne
  rw [htaken i j hne, sent_of_ready (hstarted i) (hready i)]

def AllKept (s : State ι) : Prop := ∀ i j, s.taken i j = 2 → i ∈ s.kept j

theorem allKept_step_iff {e : Event ι} (h : Sound s) (henabled : Enabled s e) :
    AllKept (step s e) ↔ AllKept s ∧ InTime s e := by
  cases e with
  | start i => exact (and_iff_left trivial).symm
  | deliver i j =>
      have hle := sent_le s i
      have hlt := henabled.2.2
      constructor
      · intro hkept
        refine ⟨?_, ?_⟩
        · intro a b htwo
          have hab : ¬(a = i ∧ b = j) := by
            rintro ⟨rfl, rfl⟩
            omega
          have hmem := hkept a b (by rw [taken_deliver_of_not hab, htwo])
          exact (mem_kept_deliver.mp hmem).resolve_right fun hnew => hab hnew.2
        · intro hone
          have hmem := hkept i j (by rw [taken_deliver_self, hone])
          rcases mem_kept_deliver.mp hmem with hold | hnew
          · obtain ⟨htwo, -⟩ := h.kept i j hold
            omega
          · exact hnew.1.2
      · rintro ⟨hkept, hintime⟩ a b htwo
        rw [taken_deliver] at htwo
        split at htwo
        · rename_i heq
          obtain ⟨rfl, rfl⟩ := heq
          have hone : s.taken a b = 1 := by omega
          exact mem_kept_deliver.mpr (.inr ⟨⟨hone, hintime hone⟩, rfl, rfl⟩)
        · exact mem_kept_deliver.mpr (.inl (hkept a b htwo))

theorem allKept_run_iff {es : List (Event ι)} (h : Sound s)
    (henabled : StepsMeet step Enabled s es) :
    AllKept (run step s es) ↔ AllKept s ∧ StepsMeet step InTime s es := by
  induction es generalizing s with
  | nil => exact (and_iff_left stepsMeet_nil).symm
  | cons e es ih =>
      obtain ⟨hfirst, hrest⟩ := stepsMeet_cons.mp henabled
      rw [run_cons, ih (h.step hfirst) hrest, allKept_step_iff h hfirst, stepsMeet_cons,
        and_assoc]

theorem done_iff_inTime {es : List (Event ι)}
    (henabled : StepsMeet step Enabled (State.init : State ι) es)
    (hmaximal : ∀ e, ¬Enabled (run step State.init es) e) :
    (∀ j, Done (run step (State.init : State ι) es) j) ↔
      StepsMeet step InTime (State.init : State ι) es := by
  have hsound : Sound (run step (State.init : State ι) es) :=
    invariant_run Sound (fun _ _ => Sound.step) sound_init henabled
  obtain ⟨hstarted, hready, htwo⟩ := taken_of_maximal hsound hmaximal
  have hinit : AllKept (State.init : State ι) := by
    intro i j htwo
    cases htwo
  have hiff := allKept_run_iff sound_init henabled
  rw [← and_iff_right hinit (b := StepsMeet _ _ _ _), ← hiff]
  constructor
  · intro hdone i j htaken
    refine (hdone j).2.2 i ?_
    rintro rfl
    rw [hsound.taken_self i] at htaken
    cases htaken
  · intro hkept j
    exact ⟨hstarted j, hready j, fun i hne => hkept i j (htwo i j hne)⟩

end DkgSubstrate.TwoRounds
