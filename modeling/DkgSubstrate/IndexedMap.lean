import DkgSubstrate.StorageMap
import Mathlib.Data.Finset.Card
import Mathlib.Data.List.FinRange
import Mathlib.Data.List.Sort

/-!
Maps whose entries belong to a finite set of indices: which entries there are, how many, and in
which order they are visited does not depend on how the map was filled.
-/

namespace DkgSubstrate.IndexedMap

universe u v w

variable {K : Type u} {V : Type v} {ι : Type w} [DecidableEq K] [DecidableEq ι]

theorem length_entries (m : StorageMap K V) : m.entries.length = m.keys.toFinset.card := by
  rw [List.toFinset_card_of_nodup m.keys_nodup, AList.keys, List.keys, List.length_map]

/-- The entries of the map are those of the indices in `A`. -/
def Represents (key : ι → K) (val : ι → V) (m : StorageMap K V) (A : Finset ι) : Prop :=
  ∀ k v, m.lookup k = some v ↔ ∃ i ∈ A, key i = k ∧ val i = v

variable {key : ι → K} {val : ι → V} {m : StorageMap K V} {A : Finset ι}

omit [DecidableEq ι] in
theorem represents_empty : Represents key val ∅ ∅ := by
  intro k v
  simp

theorem Represents.insert (hkey : Function.Injective key) (h : Represents key val m A) (i : ι) :
    Represents key val (m.insert (key i) (val i)) (insert i A) := by
  intro k v
  rw [StorageMap.lookup_insert_eq]
  split
  · rename_i hk
    subst hk
    simp only [Option.some.injEq, Finset.mem_insert, hkey.eq_iff]
    constructor
    · intro hv
      exact ⟨i, .inl rfl, rfl, hv⟩
    · rintro ⟨j, -, rfl, hv⟩
      exact hv
  · rename_i hk
    rw [h k v]
    constructor
    · rintro ⟨j, hj, hjk⟩
      exact ⟨j, Finset.mem_insert_of_mem hj, hjk⟩
    · rintro ⟨j, hj, hjk, hjv⟩
      rcases Finset.mem_insert.mp hj with rfl | hj
      · exact absurd hjk.symm hk
      · exact ⟨j, hj, hjk, hjv⟩

omit [DecidableEq ι] in
theorem Represents.length (hkey : Function.Injective key) (h : Represents key val m A) :
    m.entries.length = A.card := by
  have hkeys : m.keys.toFinset = A.image key := by
    ext k
    rw [List.mem_toFinset, Finset.mem_image, ← AList.mem_keys, ← AList.lookup_isSome,
      Option.isSome_iff_exists]
    constructor
    · rintro ⟨v, hv⟩
      obtain ⟨i, hi, hk, -⟩ := (h k v).mp hv
      exact ⟨i, hi, hk⟩
    · rintro ⟨i, hi, rfl⟩
      exact ⟨val i, (h _ _).mpr ⟨i, hi, rfl, rfl⟩⟩
  rw [length_entries, hkeys, Finset.card_image_of_injective A hkey]

omit [DecidableEq ι] in
theorem Represents.iter {K : Type u} [LinearOrder K] {key : ι → K} {m : StorageMap K V}
    (h : Represents key val m A) {l : List ι} (hmem : ∀ i, i ∈ l ↔ i ∈ A)
    (hsorted : l.Pairwise fun i j => key i < key j) :
    m.iter id = l.map fun i => (key i, val i) := by
  have hirrefl : Std.Irrefl fun a b : K × V => a.1 < b.1 := ⟨fun a => lt_irrefl a.1⟩
  have hantisymm : Std.Antisymm fun a b : K × V => a.1 < b.1 :=
    ⟨fun a b hab hba => absurd hba hab.asymm⟩
  have hstrict : (m.iter id).Pairwise fun a b => a.1 < b.1 := by
    have hne := List.pairwise_map.mp (StorageMap.nodup_keys_iter id m)
    exact ((StorageMap.pairwise_iter id m).and hne).imp fun hle => lt_of_le_of_ne hle.1 hle.2
  refine hstrict.eq_of_mem_iff (List.pairwise_map.mpr hsorted) ?_
  rintro ⟨k, v⟩
  rw [StorageMap.mem_iter, h k v, List.mem_map]
  constructor
  · rintro ⟨i, hi, rfl, rfl⟩
    exact ⟨i, (hmem i).mpr hi, rfl⟩
  · rintro ⟨i, hi, hkv⟩
    obtain ⟨rfl, rfl⟩ := Prod.mk.inj hkv
    exact ⟨i, (hmem i).mp hi, rfl, rfl⟩

/-- The indices in the order of their keys. -/
def byKey {n : ℕ} (key : Fin n → ℕ) : List (Fin n) :=
  (List.finRange n).insertionSort fun i j => key i ≤ key j

theorem mem_byKey {n : ℕ} (key : Fin n → ℕ) (i : Fin n) : i ∈ byKey key := by
  rw [byKey, List.mem_insertionSort]
  exact List.mem_finRange i

theorem pairwise_byKey {n : ℕ} {key : Fin n → ℕ} (hkey : Function.Injective key) :
    (byKey key).Pairwise fun i j => key i < key j := by
  have htotal : Std.Total fun i j : Fin n => key i ≤ key j := ⟨fun i j => le_total _ _⟩
  have htrans : IsTrans (Fin n) fun i j => key i ≤ key j := ⟨fun _ _ _ => le_trans⟩
  have hnodup : (byKey key).Nodup :=
    (List.perm_insertionSort _ _).nodup_iff.mpr (List.nodup_finRange n)
  have hle := List.pairwise_insertionSort (fun i j => key i ≤ key j) (List.finRange n)
  exact (hle.and hnodup).imp fun h => lt_of_le_of_ne h.1 fun heq => h.2 (hkey heq)

end DkgSubstrate.IndexedMap
