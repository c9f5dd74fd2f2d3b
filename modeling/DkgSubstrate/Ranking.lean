import Mathlib.Algebra.Group.Nat.Defs
import Mathlib.Data.List.Sort
import Mathlib.Order.Basic

/-!
Selecting the entries of highest rank from a list, by a stable sort, and
numbering a selection.
-/

namespace DkgSubstrate.Ranking

universe u

variable {α : Type u}

/-- The first `count` entries after a stable sort by descending rank. -/
def highest (rank : α → ℕ) (count : ℕ) (l : List α) : List α :=
  (((l.map fun a => (rank a, a)).insertionSort fun a b => b.1 ≤ a.1).take count).map
    Prod.snd

/-- The entries with their positions, counted from one in `bits` bits. -/
def numbered (bits : ℕ) (l : List α) : List (ℕ × α) :=
  l.zipIdx.map fun e => ((e.2 + 1) % 2 ^ bits, e.1)

theorem highest_subperm (rank : α → ℕ) (count : ℕ) (l : List α) :
    (highest rank count l).Subperm l := by
  have hperm := List.perm_insertionSort (fun a b : ℕ × α => b.1 ≤ a.1)
    (l.map fun a => (rank a, a))
  have hmap : (l.map fun a => (rank a, a)).map Prod.snd = l := by
    simp [Function.comp_def]
  have hsorted := hperm.map Prod.snd
  rw [hmap] at hsorted
  exact ((List.take_sublist count _).map Prod.snd).subperm.trans hsorted.subperm

theorem length_highest (rank : α → ℕ) (count : ℕ) (l : List α) :
    (highest rank count l).length = min count l.length := by
  simp [highest]

@[simp] theorem map_snd_numbered (bits : ℕ) (l : List α) :
    (numbered bits l).map Prod.snd = l := by
  simp [numbered, Function.comp_def]

@[simp] theorem length_numbered (bits : ℕ) (l : List α) :
    (numbered bits l).length = l.length := by
  simp [numbered]

theorem map_fst_numbered {bits : ℕ} {l : List α} (h : l.length < 2 ^ bits) :
    (numbered bits l).map Prod.fst = List.range' 1 l.length := by
  apply List.ext_getElem
  · simp [numbered]
  · intro i h₁ h₂
    have hi : i < l.length := by simpa [numbered] using h₁
    have hmod : (i + 1) % 2 ^ bits = i + 1 := Nat.mod_eq_of_lt (by omega)
    simp [numbered, hmod, Nat.add_comm]

section Order

variable {rank : α → ℕ} {count : ℕ} {l : List α} {a b : α}

theorem pair_sublist_total (ha : a ∈ l) (hb : b ∈ l) (hne : a ≠ b) :
    [a, b].Sublist l ∨ [b, a].Sublist l := by
  induction l with
  | nil => cases ha
  | cons x l ih =>
      rcases List.mem_cons.mp ha with rfl | ha'
      · have hb' : b ∈ l := (List.mem_cons.mp hb).resolve_left hne.symm
        exact .inl ((List.singleton_sublist.mpr hb').cons_cons a)
      · rcases List.mem_cons.mp hb with rfl | hb'
        · exact .inr ((List.singleton_sublist.mpr ha').cons_cons b)
        · exact (ih ha' hb').imp (.cons x) (.cons x)

theorem not_pair_sublist_of_nodup (hnodup : l.Nodup) (h : [a, b].Sublist l) :
    ¬[b, a].Sublist l := by
  induction l with
  | nil => cases h
  | cons x l ih =>
      obtain ⟨hnew, hrest⟩ := List.nodup_cons.mp hnodup
      intro h'
      cases h with
      | cons _ h =>
          cases h' with
          | cons _ h' => exact ih hrest h h'
          | cons_cons _ h' => exact hnew (h.subset (by simp))
      | cons_cons _ h =>
          cases h' with
          | cons _ h' => exact hnew (h'.subset (by simp))
          | cons_cons _ h' => exact hnew (h.subset (by simp))

theorem pair_sublist_append {l₁ l₂ : List α} (h : [a, b].Sublist (l₁ ++ l₂)) :
    [a, b].Sublist l₁ ∨ (a ∈ l₁ ∧ b ∈ l₂) ∨ [a, b].Sublist l₂ := by
  induction l₁ with
  | nil => exact .inr (.inr h)
  | cons x l₁ ih =>
      cases h with
      | cons _ h =>
          rcases ih h with hfirst | ⟨ha, hb⟩ | hsecond
          · exact .inl (hfirst.cons x)
          · exact .inr (.inl ⟨List.mem_cons_of_mem x ha, hb⟩)
          · exact .inr (.inr hsecond)
      | cons_cons _ h =>
          rcases List.mem_append.mp (List.singleton_sublist.mp h) with hb | hb
          · exact .inl ((List.singleton_sublist.mpr hb).cons_cons a)
          · exact .inr (.inl ⟨List.mem_cons_self, hb⟩)

theorem highest_eq_take (rank : α → ℕ) (count : ℕ) (l : List α) :
    highest rank count l = (l.insertionSort fun a b => rank b ≤ rank a).take count := by
  have hsort := List.map_insertionSort (fun a b : α => rank b ≤ rank a)
    (fun a b : ℕ × α => b.1 ≤ a.1) (fun a => (rank a, a)) l (fun _ _ _ _ => Iff.rfl)
  rw [highest, ← hsort, ← List.map_take, List.map_map]
  exact List.map_id _

theorem pairwise_insertionSort_rank (rank : α → ℕ) (l : List α) :
    (l.insertionSort fun a b => rank b ≤ rank a).Pairwise fun a b => rank b ≤ rank a := by
  have htotal : Std.Total fun a b : α => rank b ≤ rank a := ⟨fun a b => Nat.le_total _ _⟩
  have htrans : IsTrans α fun a b => rank b ≤ rank a := ⟨fun _ _ _ h h' => h'.trans h⟩
  exact List.pairwise_insertionSort _ l

theorem pair_sublist_of_insertionSort (hnodup : l.Nodup)
    (h : [a, b].Sublist (l.insertionSort fun a b => rank b ≤ rank a))
    (hrank : rank a = rank b) : [a, b].Sublist l := by
  have hsorted : (l.insertionSort fun a b => rank b ≤ rank a).Nodup :=
    (List.perm_insertionSort _ l).nodup_iff.mpr hnodup
  have hne : a ≠ b := by simpa using hsorted.sublist h
  have ha : a ∈ l := List.mem_insertionSort _ |>.mp (h.subset (by simp))
  have hb : b ∈ l := List.mem_insertionSort _ |>.mp (h.subset (by simp))
  rcases pair_sublist_total ha hb hne with hpair | hpair
  · exact hpair
  · have hswapped : [b, a].Sublist (l.insertionSort fun a b => rank b ≤ rank a) :=
      List.sublist_insertionSort (List.pairwise_pair.mpr hrank.le) hpair
    exact absurd hswapped (not_pair_sublist_of_nodup hsorted h)

theorem pairwise_highest (rank : α → ℕ) (count : ℕ) (l : List α) :
    (highest rank count l).Pairwise fun a b => rank b ≤ rank a := by
  rw [highest_eq_take]
  exact (pairwise_insertionSort_rank rank l).sublist (List.take_sublist _ _)

theorem nodup_highest (hnodup : l.Nodup) : (highest rank count l).Nodup := by
  rw [highest_eq_take]
  exact ((List.perm_insertionSort _ l).nodup_iff.mpr hnodup).sublist (List.take_sublist _ _)

theorem pair_sublist_of_highest (hnodup : l.Nodup) (h : [a, b].Sublist (highest rank count l))
    (hrank : rank a = rank b) : [a, b].Sublist l := by
  rw [highest_eq_take] at h
  exact pair_sublist_of_insertionSort hnodup (h.trans (List.take_sublist _ _)) hrank

theorem pair_sublist_of_omitted (ha : a ∈ l) (hout : a ∉ highest rank count l)
    (hb : b ∈ highest rank count l) :
    [b, a].Sublist (l.insertionSort fun a b => rank b ≤ rank a) := by
  rw [highest_eq_take] at hout hb
  have hdrop : a ∈ (l.insertionSort fun a b => rank b ≤ rank a).drop count := by
    have hmem := (List.mem_insertionSort fun a b => rank b ≤ rank a).mpr ha
    rw [← List.take_append_drop count (l.insertionSort _), List.mem_append] at hmem
    exact hmem.resolve_left hout
  rw [← List.take_append_drop count (l.insertionSort _)]
  exact (List.singleton_sublist.mpr hb).append (List.singleton_sublist.mpr hdrop)

theorem rank_le_of_omitted (hnodup : l.Nodup) (ha : a ∈ l) (hout : a ∉ highest rank count l)
    (hb : b ∈ highest rank count l) :
    rank a ≤ rank b ∧ (rank a = rank b → [b, a].Sublist l) := by
  have hpair := pair_sublist_of_omitted ha hout hb
  constructor
  · exact List.pairwise_iff_forall_sublist.mp (pairwise_insertionSort_rank rank l) hpair
  · intro hrank
    exact pair_sublist_of_insertionSort hnodup hpair hrank.symm

theorem mem_highest_of_length_le (h : l.length ≤ count) : a ∈ highest rank count l ↔ a ∈ l := by
  rw [highest_eq_take, List.take_of_length_le (by simpa using h), List.mem_insertionSort]

end Order

end DkgSubstrate.Ranking
