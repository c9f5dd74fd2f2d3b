import DkgSubstrate.Runs
import Mathlib.Logic.Function.Basic

/-!
A table of connections and of the names that the peers go by.  A peer claims a name, and the
claim is genuine or not.  The table keeps for every name the peer that claimed it last, until
the connection of a peer with that name is closed.
-/

namespace DkgSubstrate.PeerTable

open DkgSubstrate.Runs

variable {Peer Name : Type} [DecidableEq Peer] [DecidableEq Name]

/-- `nameOf` has an entry for every connection, which is empty before the first claim. -/
@[ext] structure Table (Peer Name : Type) where
  nameOf : Peer → Option (Option Name)
  peerOf : Name → Option Peer

def Table.empty : Table Peer Name := ⟨fun _ => none, fun _ => none⟩

inductive Event (Peer Name : Type) where
  | opened (peer : Peer)
  | closed (peer : Peer)
  | claimed (peer : Peer) (name : Name) (genuine : Bool)
  | other
deriving DecidableEq

def step (t : Table Peer Name) : Event Peer Name → Table Peer Name
  | .opened peer => { t with nameOf := Function.update t.nameOf peer (some none) }
  | .closed peer =>
      { nameOf := Function.update t.nameOf peer none
        peerOf := match t.nameOf peer with
          | some (some name) => Function.update t.peerOf name none
          | _ => t.peerOf }
  | .claimed peer name _ =>
      { nameOf := Function.update t.nameOf peer ((t.nameOf peer).map fun _ => some name)
        peerOf := Function.update t.peerOf name (some peer) }
  | .other => t

variable {t : Table Peer Name} {past : List (Event Peer Name)} {peer : Peer} {name : Name}
variable {genuine : Bool}

theorem nameOf_opened (peer' : Peer) :
    (step t (.opened peer)).nameOf peer' = if peer' = peer then some none else t.nameOf peer' :=
  Function.update_apply ..

@[simp] theorem peerOf_opened : (step t (.opened peer)).peerOf = t.peerOf := rfl

theorem nameOf_closed (peer' : Peer) :
    (step t (.closed peer)).nameOf peer' = if peer' = peer then none else t.nameOf peer' :=
  Function.update_apply ..

theorem peerOf_closed (name : Name) :
    (step t (.closed peer)).peerOf name =
      if t.nameOf peer = some (some name) then none else t.peerOf name := by
  rw [step]
  split
  · rename_i name' hname'
    simp only [Function.update_apply, hname', Option.some.injEq, @eq_comm _ name]
  · rename_i hnone
    rw [if_neg (hnone name)]

theorem nameOf_claimed (peer' : Peer) :
    (step t (.claimed peer name genuine)).nameOf peer' =
      if peer' = peer then (t.nameOf peer).map fun _ => some name else t.nameOf peer' :=
  Function.update_apply ..

theorem peerOf_claimed (name' : Name) :
    (step t (.claimed peer name genuine)).peerOf name' =
      if name' = name then some peer else t.peerOf name' :=
  Function.update_apply ..

/-- The peer that is found under a name is connected, goes by that name and has once claimed
it genuinely. -/
def Backed (t : Table Peer Name) (past : List (Event Peer Name)) : Prop :=
  ∀ name peer, t.peerOf name = some peer →
    t.nameOf peer = some (some name) ∧ .claimed peer name true ∈ past

def Harmless (t : Table Peer Name) (past : List (Event Peer Name)) : Event Peer Name → Prop
  | .opened peer => ∀ name, t.peerOf name ≠ some peer
  | .claimed peer name genuine =>
      (t.nameOf peer).isSome = true ∧
        (genuine = true ∨ .claimed peer name true ∈ past) ∧
        ∀ name', t.peerOf name' = some peer → name' = name
  | .closed _ | .other => True

theorem backed_opened (h : Backed t past) :
    Backed (step t (.opened peer)) (past ++ [.opened peer]) ↔
      Harmless t past (.opened peer) := by
  constructor
  · intro hnext name hname
    obtain ⟨hgoes, -⟩ := hnext name peer hname
    rw [nameOf_opened, if_pos rfl] at hgoes
    cases hgoes
  · intro hfree name' peer' hname
    obtain ⟨hgoes, hclaimed⟩ := h name' peer' hname
    have hother : peer' ≠ peer := fun heq => hfree name' (heq ▸ hname)
    refine ⟨?_, List.mem_append_left _ hclaimed⟩
    rw [nameOf_opened, if_neg hother]
    exact hgoes

theorem backed_closed (h : Backed t past) :
    Backed (step t (.closed peer)) (past ++ [.closed peer]) := by
  intro name' peer' hname
  rw [peerOf_closed] at hname
  split at hname
  · cases hname
  · rename_i hkept
    obtain ⟨hgoes, hclaimed⟩ := h name' peer' hname
    have hother : peer' ≠ peer := fun heq => hkept (heq ▸ hgoes)
    refine ⟨?_, List.mem_append_left _ hclaimed⟩
    rw [nameOf_closed, if_neg hother]
    exact hgoes

theorem harmless_of_backed_claimed
    (hnext : Backed (step t (.claimed peer name genuine))
      (past ++ [.claimed peer name genuine])) :
    Harmless t past (.claimed peer name genuine) := by
  have hself : (step t (.claimed peer name genuine)).peerOf name = some peer := by
    rw [peerOf_claimed, if_pos rfl]
  obtain ⟨hgoes, hclaimed⟩ := hnext name peer hself
  refine ⟨?_, ?_, ?_⟩
  · rw [nameOf_claimed, if_pos rfl] at hgoes
    obtain ⟨entry, hentry, -⟩ := Option.map_eq_some_iff.mp hgoes
    exact Option.isSome_of_eq_some hentry
  · rcases List.mem_append.mp hclaimed with hpast | hnow
    · exact Or.inr hpast
    · injection List.mem_singleton.mp hnow with _ _ hgenuine
      exact Or.inl hgenuine.symm
  · intro name' hname'
    by_cases heq : name' = name
    · exact heq
    · -- The other name still leads to the peer, which goes by the new one.
      have hkept : (step t (.claimed peer name genuine)).peerOf name' = some peer := by
        rw [peerOf_claimed, if_neg heq]
        exact hname'
      obtain ⟨hgoes', -⟩ := hnext name' peer hkept
      rw [hgoes] at hgoes'
      exact (Option.some.inj (Option.some.inj hgoes')).symm

theorem backed_claimed (h : Backed t past)
    (hharmless : Harmless t past (.claimed peer name genuine)) :
    Backed (step t (.claimed peer name genuine)) (past ++ [.claimed peer name genuine]) := by
  obtain ⟨hconnected, hgenuine, honly⟩ := hharmless
  intro name' peer' hname
  rw [peerOf_claimed] at hname
  split at hname
  · rename_i heq
    obtain rfl := heq
    obtain rfl := Option.some.inj hname
    refine ⟨?_, ?_⟩
    · obtain ⟨entry, hentry⟩ := Option.isSome_iff_exists.mp hconnected
      rw [nameOf_claimed, if_pos rfl, hentry]
      rfl
    · rcases hgenuine with rfl | hpast
      · exact List.mem_append_right _ (List.mem_singleton_self _)
      · exact List.mem_append_left _ hpast
  · rename_i hne
    obtain ⟨hgoes, hclaimed⟩ := h name' peer' hname
    have hother : peer' ≠ peer := fun hpeer => hne (honly name' (hpeer ▸ hname))
    refine ⟨?_, List.mem_append_left _ hclaimed⟩
    rw [nameOf_claimed, if_neg hother]
    exact hgoes

theorem backed_step_iff (h : Backed t past) (e : Event Peer Name) :
    Backed (step t e) (past ++ [e]) ↔ Harmless t past e := by
  cases e with
  | opened peer => exact backed_opened h
  | closed peer => exact iff_of_true (backed_closed h) trivial
  | claimed peer name genuine => exact ⟨harmless_of_backed_claimed, backed_claimed h⟩
  | other =>
      refine iff_of_true ?_ trivial
      intro name peer hname
      obtain ⟨hgoes, hclaimed⟩ := h name peer hname
      exact ⟨hgoes, List.mem_append_left _ hclaimed⟩

theorem always_backed_iff (es : List (Event Peer Name)) :
    Always (withPast step) (fun s => Backed s.1 s.2) (Table.empty, []) es ↔
      StepsMeet (withPast step) (fun s => Harmless s.1 s.2) (Table.empty, []) es := by
  refine always_iff_stepsMeet (fun _ => True) (fun _ _ _ _ _ _ => trivial) ?_ trivial ?_
    (stepsMeet_true _ _ _)
  · intro s e _ hbacked _
    exact backed_step_iff hbacked e
  · intro name peer hname
    cases hname

end DkgSubstrate.PeerTable
