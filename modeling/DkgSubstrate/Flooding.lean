import DkgSubstrate.Runs
import Mathlib.Data.List.Nodup
import Mathlib.Data.Set.Insert
import Mathlib.Logic.Function.Basic

/-!
Flooding on a graph.  A node that gets hold of a message passes it on to those of its neighbours
of which it does not know that they have it already.  The links deliver in order, at any time.
-/

namespace DkgSubstrate.Flooding

universe u v

variable {V : Type u} {M : Type v}

/-- What the nodes hold, what a node knows its neighbour to have, and what has arrived over a
link and is still on its way. -/
@[ext] structure State (V : Type u) (M : Type v) where
  held : V → Set M
  known : V → V → Set M
  arrived : V → V → List M
  wire : V → V → List M

inductive Event (V : Type u) (M : Type v) where
  | originate (node : V) (message : M)
  | deliver (source target : V)
  | idle

def State.hold (s : State V M) (node : V) (message : M) : State V M :=
  { s with held := fun v => {m | m ∈ s.held v ∨ v = node ∧ m = message} }

open Classical in
noncomputable def State.spread (adj : V → V → Prop) (s : State V M) (node : V) (message : M) :
    State V M :=
  { s with
    known := fun v p => {m | m ∈ s.known v p ∨ v = node ∧ adj v p ∧ m = message}
    wire := fun v p =>
      s.wire v p ++ if v = node ∧ adj v p ∧ message ∉ s.known v p then [message] else [] }

open Classical in
/-- The first message of the link arrives, so that the target knows the source to have it. -/
noncomputable def State.receive (s : State V M) (source target : V) (message : M)
    (rest : List M) : State V M :=
  { s with
    known := fun v p => {m | m ∈ s.known v p ∨ v = target ∧ p = source ∧ m = message}
    arrived := fun v p =>
      s.arrived v p ++ if v = source ∧ p = target then [message] else []
    wire := fun v p => if v = source ∧ p = target then rest else s.wire v p }

noncomputable def step (adj : V → V → Prop) (s : State V M) : Event V M → State V M
  | .originate node message => (s.hold node message).spread adj node message
  | .deliver source target =>
      match s.wire source target with
      | [] => s
      | message :: rest =>
          ((s.receive source target message rest).hold target message).spread adj target message
  | .idle => s

/-- What passes over a link, from the beginning. -/
def State.sent (s : State V M) (v p : V) : List M := s.arrived v p ++ s.wire v p

structure Invariant (adj : V → V → Prop) (s : State V M) : Prop where
  spread : ∀ v p, adj v p → ∀ m ∈ s.held v, m ∈ s.known v p
  backed : ∀ v p, ∀ m ∈ s.known v p, m ∈ s.held p ∨ m ∈ s.wire v p
  owned : ∀ v p, ∀ m ∈ s.sent v p, m ∈ s.held v
  noted : ∀ v p, ∀ m ∈ s.sent v p, m ∈ s.known v p
  once : ∀ v p, (s.sent v p).Nodup

section Spread

variable {adj : V → V → Prop} {s : State V M} {node : V} {message : M}

theorem sent_spread (adj : V → V → Prop) (s : State V M) (node : V) (message : M) (v p : V) :
    (s.spread adj node message).sent v p = s.sent v p ∨
      v = node ∧ adj v p ∧ message ∉ s.known v p ∧
        (s.spread adj node message).sent v p = s.sent v p ++ [message] := by
  classical
  by_cases h : v = node ∧ adj v p ∧ message ∉ s.known v p
  · refine .inr ⟨h.1, h.2.1, h.2.2, ?_⟩
    simp only [State.sent, State.spread, if_pos h, List.append_assoc]
  · refine .inl ?_
    simp only [State.sent, State.spread, if_neg h, List.append_nil]

theorem mem_wire_spread {v p : V} {m : M} (h : m ∈ s.wire v p) :
    m ∈ (s.spread adj node message).wire v p :=
  List.mem_append_left _ h

theorem invariant_spread
    (hspread : ∀ v p, adj v p → ∀ m ∈ s.held v, m ∈ s.known v p ∨ v = node ∧ m = message)
    (hbacked : ∀ v p, ∀ m ∈ s.known v p, m ∈ s.held p ∨ m ∈ s.wire v p)
    (howned : ∀ v p, ∀ m ∈ s.sent v p, m ∈ s.held v)
    (hnoted : ∀ v p, ∀ m ∈ s.sent v p, m ∈ s.known v p)
    (honce : ∀ v p, (s.sent v p).Nodup) (hheld : message ∈ s.held node) :
    Invariant adj (s.spread adj node message) where
  spread v p hadj m hm := by
    rcases hspread v p hadj m hm with hknown | ⟨rfl, rfl⟩
    · exact .inl hknown
    · exact .inr ⟨rfl, hadj, rfl⟩
  backed v p m hm := by
    classical
    rcases hm with hknown | ⟨rfl, hadj, rfl⟩
    · exact (hbacked v p m hknown).imp_right mem_wire_spread
    · by_cases hknown : m ∈ s.known v p
      · exact (hbacked v p m hknown).imp_right mem_wire_spread
      · refine .inr (List.mem_append_right _ ?_)
        rw [if_pos ⟨rfl, hadj, hknown⟩]
        exact List.mem_singleton_self m
  owned v p m hm := by
    rcases sent_spread adj s node message v p with heq | ⟨rfl, -, -, heq⟩
    · exact howned v p m (heq ▸ hm)
    · rw [heq] at hm
      rcases List.mem_append.mp hm with hold | hnew
      · exact howned v p m hold
      · exact List.mem_singleton.mp hnew ▸ hheld
  noted v p m hm := by
    rcases sent_spread adj s node message v p with heq | ⟨rfl, hadj, -, heq⟩
    · exact .inl (hnoted v p m (heq ▸ hm))
    · rw [heq] at hm
      rcases List.mem_append.mp hm with hold | hnew
      · exact .inl (hnoted v p m hold)
      · exact .inr ⟨rfl, hadj, List.mem_singleton.mp hnew⟩
  once v p := by
    rcases sent_spread adj s node message v p with heq | ⟨rfl, -, hnew, heq⟩
    · exact heq ▸ honce v p
    · rw [heq]
      refine List.nodup_append.mpr ⟨honce v p, List.nodup_singleton _, ?_⟩
      rintro m hm m' hm' rfl
      exact hnew (List.mem_singleton.mp hm' ▸ hnoted v p m hm)

end Spread

variable {adj : V → V → Prop} {s : State V M}

theorem invariant_originate (h : Invariant adj s) (node : V) (message : M) :
    Invariant adj (step adj s (.originate node message)) := by
  refine invariant_spread ?_ ?_ (fun v p m hm => .inl (h.owned v p m hm)) h.noted h.once
    (.inr ⟨rfl, rfl⟩)
  · intro v p hadj m hm
    exact hm.imp (h.spread v p hadj m) id
  · intro v p m hm
    exact (h.backed v p m hm).imp_left .inl

theorem sent_receive {source target : V} {message : M} {rest : List M}
    (hwire : s.wire source target = message :: rest) (v p : V) :
    (s.receive source target message rest).sent v p = s.sent v p := by
  classical
  simp only [State.sent, State.receive]
  by_cases h : v = source ∧ p = target
  · obtain ⟨rfl, rfl⟩ := h
    simp only [and_self, if_true, hwire, List.append_assoc, List.singleton_append]
  · rw [if_neg h, if_neg h, List.append_nil]

theorem invariant_deliver (h : Invariant adj s) (source target : V) :
    Invariant adj (step adj s (.deliver source target)) := by
  classical
  rw [step]
  cases hwire : s.wire source target with
  | nil => exact h
  | cons message rest =>
      have hmem : message ∈ s.wire source target := by rw [hwire]; exact List.mem_cons_self
      have hsource : message ∈ s.held source :=
        h.owned source target message (List.mem_append_right _ hmem)
      have hsent : ∀ v p, ((s.receive source target message rest).hold target message).sent v p =
          s.sent v p := sent_receive hwire
      refine invariant_spread ?_ ?_ ?_ ?_ ?_ (.inr ⟨rfl, rfl⟩)
      · intro v p hadj m hm
        exact hm.imp (fun hold => .inl (h.spread v p hadj m hold)) id
      · rintro v p m (hknown | ⟨rfl, rfl, rfl⟩)
        · rcases h.backed v p m hknown with hheld | hm
          · exact .inl (.inl hheld)
          · simp only [State.hold, State.receive]
            by_cases hlink : v = source ∧ p = target
            · obtain ⟨rfl, rfl⟩ := hlink
              rw [hwire] at hm
              rcases List.mem_cons.mp hm with rfl | hrest
              · exact .inl (.inr ⟨rfl, rfl⟩)
              · rw [if_pos ⟨rfl, rfl⟩]
                exact .inr hrest
            · rw [if_neg hlink]
              exact .inr hm
        · exact .inl (.inl hsource)
      · intro v p m hm
        exact .inl (h.owned v p m (hsent v p ▸ hm))
      · intro v p m hm
        exact .inl (h.noted v p m (hsent v p ▸ hm))
      · intro v p
        exact hsent v p ▸ h.once v p

theorem invariant_step (h : Invariant adj s) (e : Event V M) : Invariant adj (step adj s e) := by
  cases e with
  | originate node message => exact invariant_originate h node message
  | deliver source target => exact invariant_deliver h source target
  | idle => exact h

theorem invariant_init (hheld : ∀ v, s.held v = ∅) (hknown : ∀ v p, s.known v p = ∅)
    (hsent : ∀ v p, s.sent v p = []) : Invariant adj s where
  spread v p _ m hm := by rw [hheld] at hm; exact hm.elim
  backed v p m hm := by rw [hknown] at hm; exact hm.elim
  owned v p m hm := by rw [hsent] at hm; cases hm
  noted v p m hm := by rw [hsent] at hm; cases hm
  once v p := by rw [hsent]; exact List.nodup_nil

theorem Invariant.known_subset {pool : Set M} (h : Invariant adj s)
    (hheld : ∀ v, s.held v ⊆ pool) (v p : V) : s.known v p ⊆ pool := by
  intro m hm
  rcases h.backed v p m hm with hother | hwire
  · exact hheld p hother
  · exact hheld v (h.owned v p m (List.mem_append_right _ hwire))

theorem Invariant.held_of_path (h : Invariant adj s) (hdrained : ∀ v p, s.wire v p = [])
    {m : M} {v w : V} (hv : m ∈ s.held v) (hpath : Relation.ReflTransGen adj v w) :
    m ∈ s.held w := by
  induction hpath with
  | refl => exact hv
  | tail _ hadj ih =>
      refine (h.backed _ _ m (h.spread _ _ hadj m ih)).resolve_right ?_
      rw [hdrained]
      exact List.not_mem_nil

end DkgSubstrate.Flooding
