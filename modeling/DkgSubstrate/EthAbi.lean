import DkgSubstrate.Words

/-!
The contract ABI layout of one dynamic array whose items are fixed byte strings:
the offset of the array, its length, and the items in words of 32 bytes.
-/

namespace DkgSubstrate.EthAbi

open DkgSubstrate.Words

def fixedBytes (item : Bytes) : Bytes :=
  item ++ List.replicate ((32 - item.length % 32) % 32) 0

/-- The encoding of the single token that is an array of fixed byte strings. -/
def encodeArray (items : List Bytes) : Bytes :=
  toBeBytes 32 32 ++ (toBeBytes 32 items.length ++ (items.map fixedBytes).flatten)

theorem fixedBytes_injective {a b : Bytes} (hlen : a.length = b.length)
    (h : fixedBytes a = fixedBytes b) : a = b :=
  (List.append_inj h hlen).1

theorem flatten_fixedBytes_injective {as bs : List Bytes}
    (hlen : as.map List.length = bs.map List.length)
    (h : (as.map fixedBytes).flatten = (bs.map fixedBytes).flatten) : as = bs := by
  induction as generalizing bs with
  | nil =>
      rcases bs with _ | ⟨b, bs⟩
      · rfl
      · simp at hlen
  | cons a as ih =>
      rcases bs with _ | ⟨b, bs⟩
      · simp at hlen
      · simp only [List.map_cons, List.cons.injEq] at hlen
        obtain ⟨hab, hrest⟩ := hlen
        simp only [List.map_cons, List.flatten_cons] at h
        have hwords : (fixedBytes a).length = (fixedBytes b).length := by
          simp [fixedBytes, hab]
        obtain ⟨hhead, htail⟩ := List.append_inj h hwords
        rw [fixedBytes_injective hab hhead, ih hrest htail]

theorem encodeArray_injective {as bs : List Bytes}
    (hlen : as.map List.length = bs.map List.length)
    (h : encodeArray as = encodeArray bs) : as = bs := by
  have hcount : as.length = bs.length := by
    simpa using congrArg List.length hlen
  rw [encodeArray] at h
  rw [hcount] at h
  exact flatten_fixedBytes_injective hlen (List.append_cancel_left
    (List.append_cancel_left h))

def words (items : List Bytes) : Bytes := (items.map fixedBytes).flatten

theorem encodeArray_eq_iff {as bs : List Bytes} (has : as.length < 256 ^ 32)
    (hbs : bs.length < 256 ^ 32) :
    encodeArray as = encodeArray bs ↔ as.length = bs.length ∧ words as = words bs := by
  constructor
  · intro h
    have hrest := List.append_cancel_left h
    obtain ⟨hcount, hwords⟩ := List.append_inj hrest (by simp only [length_toBeBytes])
    refine ⟨?_, hwords⟩
    calc as.length = ofBeBytes (toBeBytes 32 as.length) := (ofBeBytes_toBeBytes has).symm
      _ = ofBeBytes (toBeBytes 32 bs.length) := congrArg ofBeBytes hcount
      _ = bs.length := ofBeBytes_toBeBytes hbs
  · rintro ⟨hcount, hwords⟩
    rw [encodeArray, hcount]
    exact congrArg (fun rest => toBeBytes 32 32 ++ (toBeBytes 32 bs.length ++ rest)) hwords

/-- Trailing zeros of an item are not recovered. -/
example : encodeArray [[1], [2]] = encodeArray [[1, 0], [2]] := by decide

end DkgSubstrate.EthAbi
