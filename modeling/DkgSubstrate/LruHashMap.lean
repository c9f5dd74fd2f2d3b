import Mathlib.Data.List.Basic
import Mathlib.Data.List.Dedup
import Mathlib.Data.List.DropRight
import Mathlib.Data.List.Nodup
import Mathlib.Data.List.Perm.Subperm

/-!
Maps and sets of bounded growth, which forget what was inserted the longest time ago.
-/

namespace DkgSubstrate

universe u v

/-- The entries, the oldest first.  The limit is never reached. -/
structure LruHashMap (K : Type u) (V : Type v) (limit : ℕ) where
  entries : List (K × V)
  nodup : (entries.map Prod.fst).Nodup
  length_lt : entries.length < limit

namespace LruHashMap

variable {K : Type u} {V : Type v} {limit : ℕ} [DecidableEq K]

def new (h : 0 < limit) : LruHashMap K V limit := ⟨[], List.nodup_nil, h⟩

def get (m : LruHashMap K V limit) (k : K) : Option V :=
  (m.entries.find? fun e => e.1 = k).map Prod.snd

def inserted (m : LruHashMap K V limit) (k : K) (v : V) : List (K × V) :=
  m.entries.filter (fun e => e.1 ≠ k) ++ [(k, v)]

theorem nodup_inserted (m : LruHashMap K V limit) (k : K) (v : V) :
    ((m.inserted k v).map Prod.fst).Nodup := by
  rw [inserted, List.map_append]
  refine List.nodup_append'.mpr ⟨?_, List.nodup_singleton k, ?_⟩
  · exact m.nodup.sublist (List.filter_sublist.map Prod.fst)
  · intro k' hk' hmem
    obtain ⟨e, he, rfl⟩ := List.mem_map.mp hk'
    have hne := (List.mem_filter.mp he).2
    simp only [List.map_cons, List.map_nil, List.mem_singleton] at hmem
    exact of_decide_eq_true hne hmem

theorem length_inserted_le (m : LruHashMap K V limit) (k : K) (v : V) :
    (m.inserted k v).length ≤ limit := by
  have hfilter := List.length_filter_le (fun e : K × V => decide (e.1 ≠ k)) m.entries
  have hlt := m.length_lt
  rw [inserted, List.length_append, List.length_singleton]
  omega

/-- The oldest entry is removed when the limit is reached.  Tells whether the entry is
new. -/
def insert (m : LruHashMap K V limit) (k : K) (v : V) : LruHashMap K V limit × Bool :=
  (if h : (m.inserted k v).length < limit then ⟨m.inserted k v, m.nodup_inserted k v, h⟩
    else
      { entries := (m.inserted k v).tail
        nodup := (m.nodup_inserted k v).sublist ((List.tail_sublist _).map Prod.fst)
        length_lt := by
          have hle := m.length_inserted_le k v
          have hpos : 0 < (m.inserted k v).length := by simp [inserted]
          rw [List.length_tail]
          omega },
    !m.entries.any fun e => e.1 = k)

def keys (m : LruHashMap K V limit) : List K := m.entries.map Prod.fst

theorem insert_snd_iff {m : LruHashMap K V limit} {k : K} {v : V} :
    (m.insert k v).2 = true ↔ k ∉ m.keys := by
  simp only [insert, keys, Bool.not_eq_true', List.any_eq_false, decide_eq_true_eq,
    List.mem_map, not_exists, not_and]

theorem mem_keys_of_insert {m : LruHashMap K V limit} {k k' : K} {v : V}
    (h : k' ∈ (m.insert k v).1.keys) : k' = k ∨ k' ∈ m.keys := by
  have hinserted : k' ∈ (m.inserted k v).map Prod.fst := by
    simp only [insert, keys] at h
    split at h
    · exact h
    · exact (List.tail_sublist _).map Prod.fst |>.subset h
  obtain ⟨e, he, rfl⟩ := List.mem_map.mp hinserted
  rcases List.mem_append.mp he with hold | hnew
  · exact .inr (List.mem_map.mpr ⟨e, (List.mem_filter.mp hold).1, rfl⟩)
  · exact .inl (congrArg Prod.fst (List.mem_singleton.mp hnew))

theorem mem_keys_insert_iff {m : LruHashMap K V limit} {pool : List K} {k k' : K} {v : V}
    (hkeys : m.keys ⊆ pool) (hk : k ∈ pool) (hpool : pool.length < limit) :
    k' ∈ (m.insert k v).1.keys ↔ k' = k ∨ k' ∈ m.keys := by
  refine ⟨mem_keys_of_insert, fun h => ?_⟩
  have hsubset : (m.inserted k v).map Prod.fst ⊆ pool := by
    intro x hx
    obtain ⟨e, he, rfl⟩ := List.mem_map.mp hx
    rcases List.mem_append.mp he with hold | hnew
    · exact hkeys (List.mem_map_of_mem (List.mem_filter.mp hold).1)
    · rw [List.mem_singleton.mp hnew]
      exact hk
  have hlength : (m.inserted k v).length < limit := by
    have hle := (List.subperm_of_subset (m.nodup_inserted k v) hsubset).length_le
    rw [List.length_map] at hle
    exact hle.trans_lt hpool
  rw [insert, dif_pos hlength]
  by_cases heq : k' = k
  · exact List.mem_map.mpr ⟨(k, v), List.mem_append_right _ (List.mem_singleton_self _), heq.symm⟩
  · obtain ⟨e, he, rfl⟩ := List.mem_map.mp (h.resolve_left heq)
    refine List.mem_map_of_mem (List.mem_append_left _ (List.mem_filter.mpr ⟨he, ?_⟩))
    exact decide_eq_true heq

def recent (limit : ℕ) (history : List K) : List K := history.dedup.rtake (limit - 1)

theorem dedup_append_singleton (history : List K) (k : K) :
    (history ++ [k]).dedup = history.dedup.filter (fun x => x ≠ k) ++ [k] := by
  induction history with
  | nil => rfl
  | cons x history ih =>
      rw [List.cons_append]
      by_cases hx : x ∈ history
      · rw [List.dedup_cons_of_mem hx, List.dedup_cons_of_mem (List.mem_append_left _ hx), ih]
      · rw [List.dedup_cons_of_notMem hx, List.filter_cons]
        by_cases hk : x = k
        · rw [List.dedup_cons_of_mem (List.mem_append_right _ (List.mem_singleton.mpr hk)), ih,
            if_neg (by simpa using hk)]
        · rw [List.dedup_cons_of_notMem, ih, if_pos (by simpa using hk), List.cons_append]
          rw [List.mem_append, List.mem_singleton, not_or]
          exact ⟨hx, hk⟩

theorem recent_append_self (history : List K) (k : K) :
    recent limit (history ++ [k] ++ [k]) = recent limit (history ++ [k]) := by
  rw [recent, recent, dedup_append_singleton (history ++ [k]), dedup_append_singleton history,
    List.filter_append, List.filter_filter]
  simp

theorem rtake_append_of_length_le {α : Type u} (pre l : List α) {n : ℕ} (h : n ≤ l.length) :
    (pre ++ l).rtake n = l.rtake n := by
  rw [List.rtake, List.rtake, List.length_append, List.drop_append,
    List.drop_eq_nil_of_le (by omega), List.nil_append]
  congr 1
  omega

theorem keys_inserted (m : LruHashMap K V limit) (k : K) (v : V) :
    (m.inserted k v).map Prod.fst = m.keys.filter (fun x => x ≠ k) ++ [k] := by
  rw [inserted, List.map_append, keys, List.filter_map]
  rfl

theorem length_inserted (m : LruHashMap K V limit) (k : K) (v : V) :
    (m.inserted k v).length = (m.keys.filter fun x => x ≠ k).length + 1 := by
  rw [← List.length_map Prod.fst, keys_inserted, List.length_append, List.length_singleton]

theorem length_keys_le_length_inserted (m : LruHashMap K V limit) (k : K) (v : V) :
    m.keys.length ≤ (m.inserted k v).length := by
  have hnodup : m.keys.Nodup := m.nodup
  have hfilter : m.keys.filter (fun x => x ≠ k) = m.keys.erase k := by
    rw [hnodup.erase_eq_filter]
    exact List.filter_congr fun x _ => by rw [bne, Bool.beq_eq_decide_eq, decide_not]
  have hle : m.keys.length - 1 ≤ (m.keys.erase k).length := List.le_length_erase
  rw [length_inserted, hfilter]
  omega

theorem exists_dedup_eq_append {m : LruHashMap K V limit} {history : List K}
    (h : m.keys = recent limit history) :
    ∃ pre, history.dedup = pre ++ m.keys ∧ (pre = [] ∨ m.keys.length = limit - 1) := by
  refine ⟨history.dedup.take (history.dedup.length - (limit - 1)), ?_, ?_⟩
  · rw [h, recent, List.rtake, List.take_append_drop]
  · rcases Nat.le_total history.dedup.length (limit - 1) with hle | hle
    · exact .inl (by rw [Nat.sub_eq_zero_of_le hle, List.take_zero])
    · refine .inr ?_
      rw [h, recent, List.rtake, List.length_drop]
      omega

theorem keys_insert_of_recent {m : LruHashMap K V limit} {history : List K}
    (h : m.keys = recent limit history) (k : K) (v : V) :
    (m.insert k v).1.keys = recent limit (history ++ [k]) := by
  have hlength := m.length_keys_le_length_inserted k v
  obtain ⟨pre, hpre, hfull⟩ := exists_dedup_eq_append h
  rw [recent, dedup_append_singleton, hpre, List.filter_append, List.append_assoc,
    ← keys_inserted m k v]
  simp only [insert]
  split
  · rename_i hlt
    have hall : ((m.inserted k v).map Prod.fst).rtake (limit - 1) =
        (m.inserted k v).map Prod.fst := by
      rw [List.rtake, List.length_map, Nat.sub_eq_zero_of_le (by omega), List.drop_zero]
    rcases hfull with rfl | hfull
    · rw [List.filter_nil, List.nil_append, hall]
      rfl
    · rw [rtake_append_of_length_le _ _ (by rw [List.length_map]; omega), hall]
      rfl
  · rename_i hge
    have hle := m.length_inserted_le k v
    rw [rtake_append_of_length_le _ _ (by rw [List.length_map]; omega), List.rtake,
      List.length_map]
    have hone : (m.inserted k v).length - (limit - 1) = 1 := by
      have hinserted := m.length_inserted k v
      omega
    rw [hone, List.drop_one, ← List.map_tail]
    rfl

end LruHashMap

abbrev LruHashSet (K : Type u) (limit : ℕ) := LruHashMap K Unit limit

end DkgSubstrate
