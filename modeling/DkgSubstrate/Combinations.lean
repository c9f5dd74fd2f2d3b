import Mathlib.Data.List.Sublists
import Mathlib.Data.Nat.Choose.Basic

/-!
The sublists of a given length, in the lexicographic order of the positions that they
take.  A prefix of this enumeration varies the last positions only: how long it has to be
before an item is left out is a binomial coefficient.
-/

namespace DkgSubstrate

universe u v

variable {α : Type u}

/-- All sublists of length `k`, those with the head first. -/
def combinations : ℕ → List α → List (List α)
  | 0, _ => [[]]
  | _ + 1, [] => []
  | k + 1, a :: l => (combinations k l).map (a :: ·) ++ combinations (k + 1) l

namespace Combinations

theorem combinations_perm_sublistsLen (k : ℕ) (l : List α) :
    (combinations k l).Perm (l.sublistsLen k) := by
  induction l generalizing k with
  | nil =>
      cases k with
      | zero => exact .refl _
      | succ k => exact .refl _
  | cons a l ih =>
      cases k with
      | zero =>
          rw [List.sublistsLen_zero]
          exact .refl _
      | succ k =>
          rw [List.sublistsLen_succ_cons]
          exact (((ih k).map _).append (ih (k + 1))).trans List.perm_append_comm

theorem length_combinations (k : ℕ) (l : List α) :
    (combinations k l).length = l.length.choose k := by
  rw [(combinations_perm_sublistsLen k l).length_eq, List.length_sublistsLen]

theorem mem_combinations {k : ℕ} {l c : List α} :
    c ∈ combinations k l ↔ c.Sublist l ∧ c.length = k := by
  rw [(combinations_perm_sublistsLen k l).mem_iff, List.mem_sublistsLen]

theorem nodup_combinations (k : ℕ) {l : List α} (h : l.Nodup) : (combinations k l).Nodup :=
  (combinations_perm_sublistsLen k l).nodup_iff.mpr (List.nodup_sublistsLen k h)

theorem combinations_map {β : Type v} (f : α → β) (k : ℕ) (l : List α) :
    combinations k (l.map f) = (combinations k l).map (List.map f) := by
  induction l generalizing k with
  | nil =>
      cases k with
      | zero => rfl
      | succ k => rfl
  | cons a l ih =>
      cases k with
      | zero => rfl
      | succ k =>
          rw [List.map_cons, combinations, combinations, ih, ih, List.map_append, List.map_map,
            List.map_map]
          rfl

theorem head?_combinations {k : ℕ} {l : List α} (h : k ≤ l.length) :
    (combinations k l)[0]? = some (l.take k) := by
  induction l generalizing k with
  | nil =>
      obtain rfl := Nat.le_zero.mp h
      rfl
  | cons a l ih =>
      cases k with
      | zero => rfl
      | succ k =>
          rw [combinations, List.getElem?_append_left, List.getElem?_map,
            ih (Nat.le_of_succ_le_succ h)]
          · rfl
          · rw [List.length_map, length_combinations]
            exact Nat.choose_pos (Nat.le_of_succ_le_succ h)

theorem getElem?_combinations_last {k i : ℕ} {l : List α} {b : α} (h : l[k + i]? = some b) :
    (combinations (k + 1) l)[i]? = some (l.take k ++ [b]) := by
  induction k generalizing l with
  | zero =>
      rw [Nat.zero_add] at h
      induction l generalizing i with
      | nil => cases h
      | cons a l ih =>
          rw [combinations, combinations]
          cases i with
          | zero =>
              cases h
              rfl
          | succ i => exact ih h
  | succ k ih =>
      cases l with
      | nil => cases h
      | cons a l =>
          rw [Nat.succ_add, List.getElem?_cons_succ] at h
          have hlast := ih h
          rw [combinations, List.getElem?_append_left, List.getElem?_map, hlast]
          · rfl
          · rw [List.length_map]
            exact (List.getElem?_eq_some_iff.mp hlast).1

theorem pos_of_mem_take {l : List α} {a : α} {n : ℕ} (h : a ∈ l.take n) : 0 < n := by
  by_contra hzero
  rw [Nat.eq_zero_of_not_pos hzero, List.take_zero] at h
  cases h

theorem mem_take_of_mem_take_combinations {l c : List α} {a : α} {k N : ℕ}
    (hc : c ∈ (combinations (k + 1) l).take N) (ha : a ∈ c) : a ∈ l.take (k + N) := by
  induction l generalizing k N c with
  | nil => simp [combinations] at hc
  | cons b l ih =>
      rw [combinations, List.take_append, List.mem_append] at hc
      rcases hc with hhead | htail
      · rw [← List.map_take] at hhead
        obtain ⟨c, hc, rfl⟩ := List.mem_map.mp hhead
        obtain ⟨N, rfl⟩ := Nat.exists_eq_succ_of_ne_zero (pos_of_mem_take hc).ne'
        rw [Nat.add_succ, List.take_succ_cons]
        rcases List.mem_cons.mp ha with rfl | hrest
        · exact List.mem_cons_self
        · refine List.mem_cons_of_mem b ?_
          cases k with
          | zero =>
              rw [combinations] at hc
              rw [List.mem_singleton.mp (List.mem_of_mem_take hc)] at hrest
              cases hrest
          | succ k =>
              have hmem := ih hc hrest
              rw [Nat.succ_add]
              exact hmem
      · -- There is at least one combination with the head, and it comes before.
        have hsome : 0 < (combinations k l).length := by
          obtain ⟨hsub, hlength⟩ := mem_combinations.mp (List.mem_of_mem_take htail)
          have hle := hsub.length_le
          rw [length_combinations]
          exact Nat.choose_pos (by omega)
        have hleft := pos_of_mem_take htail
        have hmem := ih htail ha
        rw [List.length_map] at hleft hmem
        have hle : k + (N - (combinations k l).length) ≤ k + N - 1 := by omega
        rw [show k + N = (k + N - 1) + 1 by omega, List.take_succ_cons]
        exact List.mem_cons_of_mem b ((List.take_sublist_take_left hle).subset hmem)

theorem choose_le_choose_add (m j d : ℕ) : m.choose j ≤ (m + d).choose (j + d) := by
  induction d with
  | zero => exact le_rfl
  | succ d ih =>
      calc m.choose j ≤ (m + d).choose (j + d) := ih
        _ ≤ (m + d).choose (j + d) + (m + d).choose (j + d + 1) := Nat.le_add_right _ _
        _ = (m + (d + 1)).choose (j + (d + 1)) := (Nat.choose_succ_succ _ _).symm

theorem mem_of_mem_take_combinations {pre post c : List α} {a : α} {k N : ℕ}
    (hk : pre.length < k) (hN : N ≤ post.length.choose (k - 1 - pre.length))
    (hc : c ∈ (combinations k (pre ++ a :: post)).take N) : a ∈ c := by
  induction pre generalizing k c with
  | nil =>
      obtain ⟨k, rfl⟩ := Nat.exists_eq_succ_of_ne_zero (Nat.ne_of_gt hk)
      rw [List.nil_append, combinations, List.take_append_of_le_length] at hc
      · obtain ⟨c, -, rfl⟩ := List.mem_map.mp (List.mem_of_mem_take hc)
        exact List.mem_cons_self
      · rw [List.length_map, length_combinations]
        exact hN
  | cons b pre ih =>
      obtain ⟨k, rfl⟩ := Nat.exists_eq_succ_of_ne_zero (Nat.ne_zero_of_lt hk)
      have hk' : pre.length < k := Nat.lt_of_succ_lt_succ hk
      have hN' : N ≤ post.length.choose (k - 1 - pre.length) := by
        rw [List.length_cons, show k + 1 - 1 - (pre.length + 1) = k - 1 - pre.length by omega] at hN
        exact hN
      -- The combinations that start with the first item already make up the prefix.
      have hall : N ≤ (combinations k (pre ++ a :: post)).length := by
        have hmono := choose_le_choose_add post.length (k - 1 - pre.length) (pre.length + 1)
        rw [show k - 1 - pre.length + (pre.length + 1) = k by omega] at hmono
        rw [length_combinations, List.length_append, List.length_cons, Nat.add_left_comm]
        exact hN'.trans hmono
      rw [List.cons_append, combinations, List.take_append_of_le_length, ← List.map_take] at hc
      · obtain ⟨c', hc', rfl⟩ := List.mem_map.mp hc
        exact List.mem_cons_of_mem b (ih hk' hN' hc')
      · rw [List.length_map]
        exact hall

theorem getElem?_combinations {pre post : List α} {a : α} {k : ℕ} (hk : pre.length < k)
    (hpost : k ≤ pre.length + post.length) :
    (combinations k (pre ++ a :: post))[post.length.choose (k - 1 - pre.length)]? =
      some (pre ++ post.take (k - pre.length)) := by
  induction pre generalizing k with
  | nil =>
      obtain ⟨k, rfl⟩ := Nat.exists_eq_succ_of_ne_zero (Nat.ne_of_gt hk)
      rw [List.nil_append, combinations, List.getElem?_append_right, List.length_map,
        length_combinations]
      · simpa using head?_combinations (k := k + 1) (l := post) (by simpa using hpost)
      · rw [List.length_map, length_combinations]
        exact le_rfl
  | cons b pre ih =>
      obtain ⟨k, rfl⟩ := Nat.exists_eq_succ_of_ne_zero (Nat.ne_zero_of_lt hk)
      simp only [List.length_cons] at hk hpost ⊢
      have hnext := ih (Nat.lt_of_succ_lt_succ hk) (by omega)
      rw [show k + 1 - 1 - (pre.length + 1) = k - 1 - pre.length by omega,
        show k + 1 - (pre.length + 1) = k - pre.length by omega, List.cons_append, combinations,
        List.getElem?_append_left, List.getElem?_map, hnext]
      · rfl
      · rw [List.length_map]
        exact (List.getElem?_eq_some_iff.mp hnext).1

/-- Among the first `N` combinations there is one without the item exactly if the item
stands behind the first `k`, or if the combinations with it do not use them up. -/
theorem exists_notMem_take_combinations_iff {pre post : List α} {a : α} {k N : ℕ}
    (hpre : a ∉ pre) (hpost : a ∉ post.take (k - pre.length))
    (hk : k ≤ pre.length + post.length) (hN : 0 < N) :
    (∃ c ∈ (combinations k (pre ++ a :: post)).take N, a ∉ c) ↔
      k ≤ pre.length ∨ post.length.choose (k - 1 - pre.length) < N := by
  constructor
  · rintro ⟨c, hc, ha⟩
    by_contra hnot
    obtain ⟨hlt, hle⟩ := not_or.mp hnot
    exact ha (mem_of_mem_take_combinations (Nat.lt_of_not_le hlt) (Nat.le_of_not_lt hle) hc)
  · intro h
    by_cases hlt : pre.length < k
    · have hindex := h.resolve_left (Nat.not_le.mpr hlt)
      have hget := getElem?_combinations (a := a) hlt hk
      rw [← List.getElem?_take_of_lt hindex] at hget
      refine ⟨_, List.mem_of_getElem? hget, ?_⟩
      rw [List.mem_append]
      exact not_or.mpr ⟨hpre, hpost⟩
    · have hlength : k ≤ (pre ++ a :: post).length := by
        rw [List.length_append, List.length_cons]
        omega
      have hget := head?_combinations hlength
      rw [← List.getElem?_take_of_lt hN] at hget
      refine ⟨_, List.mem_of_getElem? hget, ?_⟩
      rw [List.take_append_of_le_length (Nat.le_of_not_lt hlt)]
      exact fun ha => hpre (List.mem_of_mem_take ha)

end Combinations

end DkgSubstrate
