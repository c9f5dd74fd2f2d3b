import Mathlib.Data.List.Basic

/-!
Parts of arrays.  A part that is out of range, or a copy of the wrong length, is a panic.
-/

namespace DkgSubstrate.Slices

universe u

variable {α : Type u}

/-- The parts that `l.chunks(size)` goes through, for a size that is not zero. -/
def chunks (size : ℕ) : List α → List (List α)
  | [] => []
  | a :: l => (a :: l.take (size - 1)) :: chunks size (l.drop (size - 1))
termination_by l => l.length

theorem flatten_chunks (size : ℕ) (l : List α) : (chunks size l).flatten = l := by
  fun_induction chunks size l with
  | case1 => rfl
  | case2 a l ih => rw [List.flatten_cons, ih, List.cons_append, List.take_append_drop]

theorem ne_nil_of_mem_chunks {size : ℕ} {l chunk : List α} (h : chunk ∈ chunks size l) :
    chunk ≠ [] := by
  fun_induction chunks size l with
  | case1 => cases h
  | case2 a l ih =>
      rcases List.mem_cons.mp h with rfl | hrest
      · exact List.cons_ne_nil _ _
      · exact ih hrest

theorem length_le_of_mem_chunks {size : ℕ} (hsize : 1 ≤ size) {l chunk : List α}
    (h : chunk ∈ chunks size l) : chunk.length ≤ size := by
  fun_induction chunks size l with
  | case1 => cases h
  | case2 a l ih =>
      rcases List.mem_cons.mp h with rfl | hrest
      · have htake := List.length_take_le (size - 1) l
        rw [List.length_cons]
        omega
      · exact ih hrest

/-- The array `l` after `l[start..stop].copy_from_slice(src)`. -/
def copyFromSlice (start stop : ℕ) (src l : List α) : Option (List α) :=
  if start ≤ stop ∧ stop ≤ l.length ∧ src.length = stop - start then
    some (l.take start ++ src ++ l.drop stop)
  else none

theorem copyFromSlice_append_replicate {start stop k left : ℕ} {done src : List α} {a : α}
    (hstart : done.length = start) (hstop : start + src.length = stop)
    (hk : k = src.length + left) :
    copyFromSlice start stop src (done ++ List.replicate k a) =
      some (done ++ src ++ List.replicate left a) := by
  have hin : stop ≤ (done ++ List.replicate k a).length := by
    rw [List.length_append, List.length_replicate]
    omega
  rw [copyFromSlice, if_pos ⟨by omega, hin, by omega⟩, List.take_left' hstart, ← hstop, ← hstart,
    ← List.drop_drop, List.drop_left, List.drop_replicate, hk, Nat.add_sub_cancel_left]

theorem copyFromSlice_of_length_ne {start stop : ℕ} {src l : List α}
    (h : src.length ≠ stop - start) : copyFromSlice start stop src l = none :=
  if_neg fun hcopy => h hcopy.2.2

theorem extract_append_of_length {pre l post : List α} {start stop : ℕ}
    (hstart : pre.length = start) (hstop : start + l.length = stop) :
    (pre ++ l ++ post).extract start stop = l := by
  rw [List.extract_eq_take_drop, List.append_assoc, List.drop_left' hstart,
    List.take_left' (by omega)]

theorem length_extract_of_le {l : List α} {start stop : ℕ} (h : stop ≤ l.length) :
    (l.extract start stop).length = stop - start := by
  rw [List.extract_eq_take_drop, List.length_take, List.length_drop]
  omega

theorem extract_append_extract {l : List α} {start mid stop : ℕ} (h₁ : start ≤ mid)
    (h₂ : mid ≤ stop) : l.extract start mid ++ l.extract mid stop = l.extract start stop := by
  rw [List.extract_eq_take_drop, List.extract_eq_take_drop, List.extract_eq_take_drop,
    show l.drop mid = (l.drop start).drop (mid - start) by rw [List.drop_drop]; congr 1; omega,
    ← List.take_add]
  congr 1
  omega

end DkgSubstrate.Slices
