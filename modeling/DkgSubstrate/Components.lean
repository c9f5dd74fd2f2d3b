import Mathlib.Combinatorics.SimpleGraph.Connectivity.Connected

/-!
Labels of connected components.  A graph grows by one link at a time, and a partial labelling
of its vertices follows it, such that two labelled vertices are connected exactly if they have
the same label.
-/

namespace DkgSubstrate.Components

universe u v

variable {α : Type u} {ι : Type v}

/-- The undirected graph with the given links. -/
def linkGraph (links : List (α × α)) : SimpleGraph α :=
  SimpleGraph.fromRel fun a b => (a, b) ∈ links

def Occurs (links : List (α × α)) (a : α) : Prop :=
  ∃ link ∈ links, a = link.1 ∨ a = link.2

theorem reachable_mono {links links' : List (α × α)} (h : links ⊆ links') {a b : α}
    (hab : (linkGraph links).Reachable a b) : (linkGraph links').Reachable a b := by
  refine hab.mono ?_
  intro c d hadj
  rw [linkGraph, SimpleGraph.fromRel_adj] at hadj ⊢
  exact ⟨hadj.1, hadj.2.imp (@h _) (@h _)⟩

theorem reachable_of_mem {links : List (α × α)} {a b : α} (h : (a, b) ∈ links) :
    (linkGraph links).Reachable a b := by
  by_cases heq : a = b
  · rw [heq]
  · exact SimpleGraph.Adj.reachable ((SimpleGraph.fromRel_adj _ a b).mpr ⟨heq, Or.inl h⟩)

/-- The labelled vertices are those that occur in a link, links have the same label at both
ends, and vertices with the same label are connected. -/
structure Labels (links : List (α × α)) (label : α → Option ι) : Prop where
  linked : ∀ link ∈ links, ∃ i, label link.1 = some i ∧ label link.2 = some i
  occurs : ∀ a i, label a = some i → Occurs links a
  connected : ∀ a b i, label a = some i → label b = some i → (linkGraph links).Reachable a b

theorem labels_nil : Labels [] (fun _ : α => (none : Option ι)) where
  linked link hlink := by cases hlink
  occurs a i h := by cases h
  connected a b i h := by cases h

namespace Labels

variable {links : List (α × α)} {label : α → Option ι}

theorem label_eq_of_reachable (h : Labels links label) {a b : α}
    (hab : (linkGraph links).Reachable a b) : label a = label b := by
  obtain ⟨walk⟩ := hab
  induction walk with
  | nil => rfl
  | cons hadj _ ih =>
      rw [← ih]
      rw [linkGraph, SimpleGraph.fromRel_adj] at hadj
      rcases hadj.2 with hlink | hlink
      · obtain ⟨i, hfst, hsnd⟩ := h.linked _ hlink
        exact hfst.trans hsnd.symm
      · obtain ⟨i, hfst, hsnd⟩ := h.linked _ hlink
        exact hsnd.trans hfst.symm

theorem exists_label_iff (h : Labels links label) (a : α) :
    (∃ i, label a = some i) ↔ Occurs links a := by
  constructor
  · rintro ⟨i, hi⟩
    exact h.occurs a i hi
  · rintro ⟨link, hlink, rfl | rfl⟩
    · exact (h.linked link hlink).imp fun i hi => hi.1
    · exact (h.linked link hlink).imp fun i hi => hi.2

theorem same_label_iff (h : Labels links label) {a b : α} (ha : Occurs links a) :
    (∃ i, label a = some i ∧ label b = some i) ↔ (linkGraph links).Reachable a b := by
  constructor
  · rintro ⟨i, hai, hbi⟩
    exact h.connected a b i hai hbi
  · intro hab
    obtain ⟨i, hi⟩ := (h.exists_label_iff a).mpr ha
    exact ⟨i, hi, (h.label_eq_of_reachable hab).symm.trans hi⟩

theorem link (h : Labels links label) {label' : α → Option ι} {a b : α} {i : ι}
    (hlabel : ∀ c j, label' c = some j ↔ label c = some j ∨ j = i ∧ (c = a ∨ c = b))
    (hused : ∀ c, label c = some i → label a = some i ∨ label b = some i) :
    Labels (links ++ [(a, b)]) label' := by
  have hkept : ∀ c j, label c = some j → label' c = some j :=
    fun c j hc => (hlabel c j).mpr (Or.inl hc)
  have hsub : links ⊆ links ++ [(a, b)] := List.subset_append_left links [(a, b)]
  have hends : ∀ c, label' c = some i →
      (linkGraph (links ++ [(a, b)])).Reachable a c := by
    have hedge : (linkGraph (links ++ [(a, b)])).Reachable a b :=
      reachable_of_mem (List.mem_append_right links (List.mem_singleton_self (a, b)))
    intro c hc
    rcases (hlabel c i).mp hc with hold | ⟨-, rfl | rfl⟩
    · rcases hused c hold with ha | hb
      · exact reachable_mono hsub (h.connected a c i ha hold)
      · exact hedge.trans (reachable_mono hsub (h.connected b c i hb hold))
    · rfl
    · exact hedge
  refine ⟨?_, ?_, ?_⟩
  · intro link hlink
    rcases List.mem_append.mp hlink with hold | hnew
    · obtain ⟨j, hfst, hsnd⟩ := h.linked link hold
      exact ⟨j, hkept _ j hfst, hkept _ j hsnd⟩
    · rw [List.mem_singleton.mp hnew]
      exact ⟨i, (hlabel a i).mpr (Or.inr ⟨rfl, Or.inl rfl⟩),
        (hlabel b i).mpr (Or.inr ⟨rfl, Or.inr rfl⟩)⟩
  · intro c j hc
    rcases (hlabel c j).mp hc with hold | ⟨-, hend⟩
    · obtain ⟨link, hlink, hmem⟩ := h.occurs c j hold
      exact ⟨link, hsub hlink, hmem⟩
    · exact ⟨(a, b), List.mem_append_right links (List.mem_singleton_self (a, b)), hend⟩
  · intro c d j hc hd
    rcases (hlabel c j).mp hc with hc' | ⟨rfl, -⟩
    · rcases (hlabel d j).mp hd with hd' | ⟨rfl, -⟩
      · exact reachable_mono hsub (h.connected c d j hc' hd')
      · exact (hends c hc).symm.trans (hends d hd)
    · exact (hends c hc).symm.trans (hends d hd)

end Labels

end DkgSubstrate.Components
