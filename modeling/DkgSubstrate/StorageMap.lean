import Mathlib.Data.List.AList
import Mathlib.Data.List.Sort
import Mathlib.Order.Basic

/-!
Key-value storage.  A map is a finite association list without repeated keys;
iteration visits the keys in the order of an image of theirs, which for a hashed
storage map is the stored key.
-/

namespace DkgSubstrate

universe u v w

/-- A storage map from `K` to `V`. -/
abbrev StorageMap (K : Type u) (V : Type v) := AList (fun _ : K => V)

namespace StorageMap

variable {K : Type u} {V : Type v} [DecidableEq K]

def getD (m : StorageMap K V) (k : K) (default : V) : V :=
  (m.lookup k).getD default

def containsKey (m : StorageMap K V) (k : K) : Bool :=
  (m.lookup k).isSome

theorem orderedInsert_eq_append {α : Type u} {r : α → α → Prop} [DecidableRel r] {a : α}
    {l : List α} (h : ∀ b ∈ l, ¬r a b) : l.orderedInsert r a = l ++ [a] := by
  induction l with
  | nil => rfl
  | cons b l ih =>
      obtain ⟨hb, hl⟩ := List.forall_mem_cons.mp h
      rw [List.orderedInsert_of_not_le r l hb, ih hl]
      rfl

section

variable {ι : Type w} [LE ι] [DecidableLE ι]

/-- The entries, in ascending order of the image of their keys. -/
def iter (order : K → ι) (m : StorageMap K V) : List (K × V) :=
  (m.entries.map fun e => (e.1, e.2)).insertionSort fun a b => order a.1 ≤ order b.1

theorem mem_iter {order : K → ι} {m : StorageMap K V} {k : K} {v : V} :
    (k, v) ∈ m.iter order ↔ m.lookup k = some v := by
  rw [iter, List.mem_insertionSort, List.mem_map]
  constructor
  · rintro ⟨e, he, hkv⟩
    obtain ⟨rfl, rfl⟩ := Prod.mk.inj hkv
    exact AList.mem_lookup_iff.mpr he
  · intro h
    exact ⟨⟨k, v⟩, AList.mem_lookup_iff.mp h, rfl⟩

omit [DecidableEq K] in
theorem nodup_keys_iter (order : K → ι) (m : StorageMap K V) :
    ((m.iter order).map Prod.fst).Nodup := by
  have hperm := (List.perm_insertionSort (fun a b : K × V => order a.1 ≤ order b.1)
    (m.entries.map fun e => (e.1, e.2))).map Prod.fst
  refine hperm.nodup_iff.mpr ?_
  rw [List.map_map]
  exact m.nodupKeys

end

section

variable {ι : Type w} [LE ι] [DecidableLE ι] [Std.IsLinearOrder ι] {order : K → ι}

omit [DecidableEq K] in
theorem pairwise_iter (order : K → ι) (m : StorageMap K V) :
    (m.iter order).Pairwise fun a b => order a.1 ≤ order b.1 := by
  have htotal : Std.Total fun a b : K × V => order a.1 ≤ order b.1 := ⟨fun _ _ => Std.le_total⟩
  have htrans : IsTrans (K × V) fun a b => order a.1 ≤ order b.1 := ⟨fun _ _ _ => Std.le_trans⟩
  exact List.pairwise_insertionSort _ _

theorem find?_iter_eq_some (hinj : Function.Injective order) {m : StorageMap K V}
    {p : K × V → Bool} {k : K} {v : V} :
    (m.iter order).find? p = some (k, v) ↔ m.lookup k = some v ∧ p (k, v) = true ∧
      ∀ k' v', m.lookup k' = some v' → p (k', v') = true → order k ≤ order k' := by
  have hfirst : ∀ {k v}, (m.iter order).find? p = some (k, v) → m.lookup k = some v ∧
      p (k, v) = true ∧
      ∀ k' v', m.lookup k' = some v' → p (k', v') = true → order k ≤ order k' := by
    intro k v h
    obtain ⟨hp, before, after, hiter, hbefore⟩ := List.find?_eq_some_iff_append.mp h
    refine ⟨mem_iter.mp (List.mem_of_find?_eq_some h), hp, fun k' v' hlookup hp' => ?_⟩
    have hmem : (k', v') ∈ m.iter order := mem_iter.mpr hlookup
    have hpairwise := pairwise_iter order m
    rw [hiter] at hmem hpairwise
    rcases List.mem_append.mp hmem with hold | hrest
    · have hnot := hbefore _ hold
      rw [hp'] at hnot
      cases hnot
    · rcases List.mem_cons.mp hrest with heq | hlater
      · rw [(Prod.mk.inj heq).1]
        exact Std.le_refl _
      · exact List.rel_of_pairwise_cons (List.pairwise_append.mp hpairwise).2.1 hlater
  refine ⟨hfirst, ?_⟩
  rintro ⟨hlookup, hp, hleast⟩
  have hsome : ((m.iter order).find? p).isSome = true :=
    List.find?_isSome.mpr ⟨(k, v), mem_iter.mpr hlookup, hp⟩
  obtain ⟨⟨k', v'⟩, hfind⟩ := Option.isSome_iff_exists.mp hsome
  obtain ⟨hlookup', hp', hleast'⟩ := hfirst hfind
  have hkey : k' = k := hinj (Std.le_antisymm (hleast' k v hlookup hp) (hleast k' v' hlookup' hp'))
  subst hkey
  rw [hfind, Option.some.inj (hlookup.symm.trans hlookup')]

end

/-- The entries with a property of their keys. -/
def retain (p : K → Bool) (m : StorageMap K V) : StorageMap K V :=
  ⟨m.entries.filter fun e => p e.1, m.nodupKeys.sublist List.filter_sublist⟩

theorem lookup_retain {p : K → Bool} {m : StorageMap K V} {k : K} :
    AList.lookup k (m.retain p) = if p k then m.lookup k else none := by
  ext v
  rw [← Option.mem_def, AList.mem_lookup_iff, retain, List.mem_filter]
  split
  · rename_i hk
    rw [and_iff_left hk, ← AList.mem_lookup_iff, Option.mem_def]
  · rename_i hk
    exact iff_of_false (fun h => hk h.2) nofun

def retainValues (p : V → Bool) (m : StorageMap K V) : StorageMap K V :=
  ⟨m.entries.filter fun e => p e.2, m.nodupKeys.sublist List.filter_sublist⟩

theorem lookup_retainValues {p : V → Bool} {m : StorageMap K V} {k : K} :
    AList.lookup k (m.retainValues p) = (m.lookup k).filter p := by
  ext v
  rw [← Option.mem_def, AList.mem_lookup_iff, retainValues, List.mem_filter,
    ← AList.mem_lookup_iff, Option.filter_eq_some_iff]
  rfl

def mapValues {W : Type w} (f : V → W) (m : StorageMap K V) : StorageMap K W where
  entries := m.entries.map fun e => ⟨e.1, f e.2⟩
  nodupKeys := by
    rw [List.NodupKeys, List.keys, List.map_map]
    exact m.nodupKeys

theorem lookup_mapValues {W : Type w} {f : V → W} {m : StorageMap K V} {k : K} :
    AList.lookup k (m.mapValues f) = (m.lookup k).map f := by
  ext w
  rw [← Option.mem_def, AList.mem_lookup_iff, mapValues, Option.map_eq_some_iff]
  constructor
  · intro h
    obtain ⟨⟨k', v⟩, he, heq⟩ := List.mem_map.mp h
    cases heq
    exact ⟨v, AList.mem_lookup_iff.mpr he, rfl⟩
  · rintro ⟨v, hv, rfl⟩
    exact List.mem_map.mpr ⟨⟨k, v⟩, AList.mem_lookup_iff.mp hv, rfl⟩

theorem isEmpty_entries_iff {m : StorageMap K V} :
    m.entries.isEmpty = true ↔ ∀ k, m.lookup k = none := by
  rw [List.isEmpty_iff]
  constructor
  · intro h k
    have hempty : m = ∅ := AList.ext h
    rw [hempty, AList.lookup_empty]
  · intro h
    refine List.eq_nil_iff_forall_not_mem.mpr fun e he => ?_
    have hlookup := AList.mem_lookup_iff.mpr he
    rw [h e.1] at hlookup
    cases hlookup

theorem iter_insert_of_lt {ι : Type w} [LinearOrder ι] {order : K → ι} {m : StorageMap K V}
    {k : K} (v : V) (h : ∀ k', m.lookup k' ≠ none → order k' < order k) :
    StorageMap.iter order (m.insert k v) = m.iter order ++ [(k, v)] := by
  have hk : k ∉ m := by
    intro hmem
    exact lt_irrefl _ (h k (AList.lookup_eq_none.not_left.mpr hmem))
  have hentries : (m.insert k v).entries = ⟨k, v⟩ :: m.entries :=
    AList.entries_insert_of_notMem hk
  rw [iter, hentries, List.map_cons, List.insertionSort_cons]
  refine orderedInsert_eq_append ?_
  intro e he
  have hlookup : m.lookup e.1 = some e.2 := mem_iter.mp he
  exact not_le.mpr (h e.1 (by rw [hlookup]; exact nofun))

theorem containsKey_iff {m : StorageMap K V} {k : K} :
    m.containsKey k = true ↔ ∃ v, m.lookup k = some v :=
  Option.isSome_iff_exists

theorem lookup_insert_eq {m : StorageMap K V} {k k' : K} {v : V} :
    (m.insert k v).lookup k' = if k' = k then some v else m.lookup k' := by
  split
  · subst k'
    exact AList.lookup_insert m
  · exact AList.lookup_insert_ne ‹_›

theorem lookup_erase_eq {m : StorageMap K V} {k k' : K} :
    (m.erase k).lookup k' = if k' = k then none else m.lookup k' := by
  split
  · subst k'
    exact AList.lookup_erase _ m
  · exact AList.lookup_erase_ne ‹_›

theorem lookup_of_lookup_erase {m : StorageMap K V} {k k' : K} {v : V}
    (h : (m.erase k).lookup k' = some v) : m.lookup k' = some v := by
  rw [lookup_erase_eq] at h
  split at h
  · cases h
  · exact h

theorem lookup_foldl_erase {ι : Type w} (f : ι → K) (is : List ι) (m : StorageMap K V) (k : K) :
    AList.lookup k (is.foldl (fun m i => m.erase (f i)) m) =
      if ∃ i ∈ is, f i = k then none else m.lookup k := by
  induction is generalizing m with
  | nil => simp
  | cons i is ih =>
      rw [List.foldl_cons, ih, lookup_erase_eq]
      by_cases hrest : ∃ j ∈ is, f j = k
      · obtain ⟨j, hj, hk⟩ := hrest
        rw [if_pos ⟨j, hj, hk⟩, if_pos ⟨j, List.mem_cons_of_mem i hj, hk⟩]
      · rw [if_neg hrest]
        refine if_congr ?_ rfl rfl
        rw [List.exists_mem_cons_iff, or_iff_left hrest, eq_comm]

theorem lookup_foldl_insert {ι : Type w} (key : ι → K) (value : ι → V) (is : List ι)
    (m : StorageMap K V) (k : K) :
    AList.lookup k (is.foldl (fun m i => AList.insert (key i) (value i) m) m) =
      ((is.filter fun i => key i = k).getLast?.map value).or (m.lookup k) := by
  induction is generalizing m with
  | nil => rfl
  | cons i is ih =>
      rw [List.foldl_cons, ih, lookup_insert_eq]
      by_cases hkey : key i = k
      · rw [List.filter_cons, if_pos (decide_eq_true hkey), List.getLast?_cons, if_pos hkey.symm]
        cases (is.filter fun i => key i = k).getLast? with
        | none => rfl
        | some last => rfl
      · rw [List.filter_cons, decide_eq_false hkey, if_neg Bool.false_ne_true,
          if_neg (Ne.symm hkey)]

theorem getD_insert {m : StorageMap K V} {k k' : K} {v default : V} :
    StorageMap.getD (m.insert k v) k' default = if k' = k then v else m.getD k' default := by
  rw [getD]
  rw [lookup_insert_eq]
  split <;> rfl

theorem getD_erase {m : StorageMap K V} {k k' : K} {default : V} :
    StorageMap.getD (m.erase k) k' default =
      if k' = k then default else m.getD k' default := by
  rw [getD]
  rw [lookup_erase_eq]
  split <;> rfl

@[simp] theorem containsKey_insert {m : StorageMap K V} {k k' : K} {v : V} :
    (StorageMap.containsKey (m.insert k v) k') = (decide (k' = k) || m.containsKey k') := by
  simp only [containsKey]
  rw [lookup_insert_eq]
  split <;> simp_all

end StorageMap

end DkgSubstrate
