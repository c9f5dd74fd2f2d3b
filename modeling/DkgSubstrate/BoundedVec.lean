import Mathlib.Data.List.Basic

/-!
Vectors with a length bound that is part of the type.
-/

namespace DkgSubstrate

universe u

/-- A list of at most `bound` entries. -/
structure BoundedVec (α : Type u) (bound : ℕ) where
  toList : List α
  length_le : toList.length ≤ bound
deriving DecidableEq

namespace BoundedVec

variable {α : Type u} {bound : ℕ}

@[ext] theorem ext {v w : BoundedVec α bound} (h : v.toList = w.toList) : v = w := by
  cases v
  cases w
  cases h
  rfl

def empty : BoundedVec α bound := ⟨[], Nat.zero_le _⟩

instance : Inhabited (BoundedVec α bound) := ⟨empty⟩

def length (v : BoundedVec α bound) : ℕ := v.toList.length

theorem length_of_toList_eq {v : BoundedVec α bound} {l : List α} (h : v.toList = l) :
    v.length = l.length :=
  congrArg List.length h

def tryFrom (l : List α) : Option (BoundedVec α bound) :=
  if h : l.length ≤ bound then some ⟨l, h⟩ else none

def tryPush (v : BoundedVec α bound) (a : α) : Option (BoundedVec α bound) :=
  tryFrom (v.toList ++ [a])

@[simp] theorem toList_default : (default : BoundedVec α bound).toList = [] := rfl

theorem tryFrom_eq_some {l : List α} {v : BoundedVec α bound} :
    tryFrom l = some v ↔ v.toList = l := by
  rw [tryFrom]
  constructor
  · intro h
    split at h
    · cases h
      rfl
    · cases h
  · rintro rfl
    rw [dif_pos v.length_le]

theorem tryFrom_eq_none {l : List α} :
    (tryFrom l : Option (BoundedVec α bound)) = none ↔ bound < l.length := by
  rw [tryFrom]
  split
  · exact iff_of_false nofun (Nat.not_lt.mpr ‹_›)
  · exact iff_of_true rfl (Nat.not_le.mp ‹_›)

theorem exists_tryFrom_eq_some {l : List α} :
    (∃ v : BoundedVec α bound, tryFrom l = some v) ↔ l.length ≤ bound := by
  rw [← Option.isSome_iff_exists, Option.isSome_iff_ne_none, ne_eq, tryFrom_eq_none, Nat.not_lt]

theorem tryPush_eq_some {v w : BoundedVec α bound} {a : α} :
    v.tryPush a = some w ↔ w.toList = v.toList ++ [a] :=
  tryFrom_eq_some

theorem tryPush_eq_none {v : BoundedVec α bound} {a : α} :
    v.tryPush a = none ↔ bound ≤ v.toList.length := by
  rw [tryPush, tryFrom_eq_none, List.length_append, List.length_singleton]
  exact Nat.lt_succ_iff

theorem tryPush_bind_tryPush (v : BoundedVec α bound) (a b : α) :
    ((v.tryPush a).bind fun w => w.tryPush b) = tryFrom (v.toList ++ [a, b]) := by
  cases hpush : v.tryPush a with
  | none =>
      have hfull := tryPush_eq_none.mp hpush
      refine (tryFrom_eq_none.mpr ?_).symm
      rw [List.length_append]
      exact Nat.lt_add_right 1 (Nat.lt_succ_of_le hfull)
  | some w =>
      rw [Option.bind_some, tryPush, tryPush_eq_some.mp hpush, List.append_assoc]
      rfl

end BoundedVec

end DkgSubstrate
