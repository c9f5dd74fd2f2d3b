import DkgSubstrate.Primitives
import DkgSubstrate.Slices
import Mathlib.Data.Nat.Digits.Lemmas
import Mathlib.Data.Set.Function

/-!
Signatures of the threshold protocol as arrays of 65 bytes.  The two numbers of a signature come as
byte strings without leading zeros and are filled up to 32 bytes each.
-/

namespace DkgSubstrate.SignaturePacking

open DkgSubstrate.Primitives
open DkgSubstrate.Slices
open DkgSubstrate.Words

/-- The bytes of a big integer, most significant first and as few as possible.  For zero this is no
byte or one. -/
structure BigInt where
  toBytes : ℕ → Bytes
  ofBeBytes_toBytes : ∀ n, ofBeBytes (toBytes n) = n
  length_le : ∀ bytes, bytes ≠ [] → (toBytes (ofBeBytes bytes)).length ≤ bytes.length

@[ext] structure SignatureRecid where
  r : ℕ
  s : ℕ
  recid : UInt8

def extendZeros : ℕ → Bytes → Bytes
  | 0, sigVec => sigVec
  | left + 1, sigVec => extendZeros left (sigVec ++ [0])

def convertSignature (big : BigInt) (sigRecid : SignatureRecid) : Option (FixedBytes 65) :=
  let r := big.toBytes sigRecid.r
  let s := big.toBytes sigRecid.s
  let v := sigRecid.recid + 27
  let sigVec := extendZeros (wrappingSub 64 32 r.length) []
  let sigVec := sigVec ++ r
  let sigVec := extendZeros (wrappingSub 64 32 s.length) sigVec
  let sigVec := sigVec ++ s
  let sigVec := sigVec ++ [v]
  toFixed 65 sigVec

structure Valid (x : SignatureRecid) : Prop where
  r_lt : x.r < 2 ^ 256
  s_lt : x.s < 2 ^ 256
  recid_le : x.recid.toNat ≤ 3

def unpack (sig : FixedBytes 65) : SignatureRecid where
  r := ofBeBytes (sig.toList.extract 0 32)
  s := ofBeBytes (sig.toList.extract 32 64)
  recid := sig.toList.getD 64 0 - 27

theorem extendZeros_eq (left : ℕ) (sigVec : Bytes) :
    extendZeros left sigVec = sigVec ++ List.replicate left 0 := by
  induction left generalizing sigVec with
  | zero => exact (List.append_nil sigVec).symm
  | succ left ih => rw [extendZeros, ih, List.append_assoc, List.replicate_succ]; rfl

theorem ofBeBytes_toBeBytes_32 {n : ℕ} (h : n < 2 ^ 256) : ofBeBytes (toBeBytes 32 n) = n := by
  have hpow : (256 : ℕ) ^ 32 = 2 ^ 256 := by norm_num
  exact ofBeBytes_toBeBytes (hpow ▸ h)

section Packing

variable (big : BigInt)

theorem length_toBytes_le {n : ℕ} (h : n < 2 ^ 256) : (big.toBytes n).length ≤ 32 := by
  have hne : toBeBytes 32 n ≠ [] := List.ne_nil_of_length_pos (by simp)
  have hle := big.length_le (toBeBytes 32 n) hne
  rwa [ofBeBytes_toBeBytes_32 h, length_toBeBytes] at hle

theorem extendZeros_append_toBytes (sigVec : Bytes) {n : ℕ} (h : n < 2 ^ 256) :
    extendZeros (wrappingSub 64 32 (big.toBytes n).length) sigVec ++ big.toBytes n =
      sigVec ++ toBeBytes 32 n := by
  have hle := length_toBytes_le big h
  have hsub : wrappingSub 64 32 (big.toBytes n).length = 32 - (big.toBytes n).length :=
    wrappingSub_of_le (by decide) hle
  rw [extendZeros_eq, hsub, List.append_assoc, replicate_append_eq_toBeBytes hle,
    big.ofBeBytes_toBytes]

theorem convertSignature_eq_some {x : SignatureRecid} (hx : Valid x) :
    ∃ sig, convertSignature big x = some sig ∧
      sig.toList = toBeBytes 32 x.r ++ toBeBytes 32 x.s ++ [x.recid + 27] := by
  have hlength : (toBeBytes 32 x.r ++ toBeBytes 32 x.s ++ [x.recid + 27]).length = 65 := by simp
  refine ⟨⟨_, hlength⟩, ?_, rfl⟩
  rw [convertSignature, extendZeros_append_toBytes big [] hx.r_lt, List.nil_append,
    extendZeros_append_toBytes big _ hx.s_lt, toFixed, dif_pos hlength]

end Packing

section Unpacking

variable {sig : FixedBytes 65} {x : SignatureRecid}
  (hsig : sig.toList = toBeBytes 32 x.r ++ toBeBytes 32 x.s ++ [x.recid + 27])

include hsig

theorem extract_r : sig.toList.extract 0 32 = toBeBytes 32 x.r := by
  rw [hsig, List.extract_eq_take_drop, List.drop_zero, List.append_assoc]
  exact List.take_left' (length_toBeBytes 32 x.r)

theorem extract_s : sig.toList.extract 32 64 = toBeBytes 32 x.s := by
  rw [hsig]
  exact extract_append_of_length (length_toBeBytes 32 x.r) (by simp)

theorem getElem_v : sig.toList[64]? = some (x.recid + 27) := by
  have hlength : (toBeBytes 32 x.r ++ toBeBytes 32 x.s).length = 64 := by simp
  rw [hsig, ← hlength]
  exact List.getElem?_concat_length

theorem unpack_eq (hx : Valid x) : unpack sig = x := by
  apply SignatureRecid.ext
  · exact (congrArg ofBeBytes (extract_r hsig)).trans (ofBeBytes_toBeBytes_32 hx.r_lt)
  · exact (congrArg ofBeBytes (extract_s hsig)).trans (ofBeBytes_toBeBytes_32 hx.s_lt)
  · rw [unpack, List.getD_eq_getElem?_getD, getElem_v hsig, Option.getD_some]
    exact UInt8.add_sub_cancel x.recid 27

end Unpacking

theorem toNat_recid_add {x : SignatureRecid} (hx : Valid x) :
    (x.recid + 27).toNat = x.recid.toNat + 27 := by
  have hle := hx.recid_le
  rw [UInt8.toNat_add]
  exact Nat.mod_eq_of_lt (show x.recid.toNat + 27 < 256 by omega)

/-- A signature is packed into 65 bytes with each number at its place, so that no two valid
signatures share an array. -/
theorem convertSignature_packs (big : BigInt) :
    (∀ x, Valid x → ∃ sig, convertSignature big x = some sig ∧
      sig.toList.extract 0 32 = toBeBytes 32 x.r ∧ ofBeBytes (toBeBytes 32 x.r) = x.r ∧
      sig.toList.extract 32 64 = toBeBytes 32 x.s ∧ ofBeBytes (toBeBytes 32 x.s) = x.s ∧
      sig.toList[64]?.map UInt8.toNat = some (x.recid.toNat + 27) ∧ unpack sig = x) ∧
    Set.InjOn (convertSignature big) {x | Valid x} := by
  constructor
  · intro x hx
    obtain ⟨sig, hconvert, hsig⟩ := convertSignature_eq_some big hx
    refine ⟨sig, hconvert, extract_r hsig, ofBeBytes_toBeBytes_32 hx.r_lt, extract_s hsig,
      ofBeBytes_toBeBytes_32 hx.s_lt, ?_, unpack_eq hsig hx⟩
    rw [getElem_v hsig, Option.map_some, toNat_recid_add hx]
  · intro x hx y hy hxy
    obtain ⟨sig, hconvert, hsig⟩ := convertSignature_eq_some big hx
    obtain ⟨sig', hconvert', hsig'⟩ := convertSignature_eq_some big hy
    have hsame : sig = sig' := by
      rw [hconvert, hconvert'] at hxy
      exact Option.some.inj hxy
    rw [← unpack_eq hsig hx, ← unpack_eq hsig' hy, hsame]

def digitBytes (n : ℕ) : Bytes := ((Nat.digits 256 n).map UInt8.ofNat).reverse

theorem ofBeBytes_reverse_map (digits : List ℕ) (h : ∀ d ∈ digits, d < 256) :
    ofBeBytes (digits.map UInt8.ofNat).reverse = Nat.ofDigits 256 digits := by
  induction digits with
  | nil => rfl
  | cons d digits ih =>
      have hd : (UInt8.ofNat d).toNat = d := by
        rw [UInt8.toNat_ofNat']
        exact Nat.mod_eq_of_lt (h d List.mem_cons_self)
      have hdigits := ih fun e he => h e (List.mem_cons_of_mem d he)
      rw [List.map_cons, List.reverse_cons, ofBeBytes_append_singleton, hdigits, hd,
        Nat.ofDigits_cons]
      ring

theorem ofBeBytes_digitBytes (n : ℕ) : ofBeBytes (digitBytes n) = n := by
  have hlt : ∀ d ∈ Nat.digits 256 n, d < 256 := fun d hd => Nat.digits_lt_base (by decide) hd
  rw [digitBytes, ofBeBytes_reverse_map _ hlt, Nat.ofDigits_digits]

theorem length_digitBytes_le (bytes : Bytes) :
    (digitBytes (ofBeBytes bytes)).length ≤ bytes.length := by
  rw [digitBytes, List.length_reverse, List.length_map, Nat.digits_length_le_iff (by decide)]
  exact ofBeBytes_lt bytes

def digitBigInt : BigInt where
  toBytes := digitBytes
  ofBeBytes_toBytes := ofBeBytes_digitBytes
  length_le bytes _ := length_digitBytes_le bytes

def smallSignature : SignatureRecid := ⟨0, 5, 3⟩

theorem valid_smallSignature : Valid smallSignature where
  r_lt := by decide
  s_lt := by decide
  recid_le := by decide

theorem convertSignature_packs_smallSignature :
    Valid smallSignature ∧ ∃ sig, convertSignature digitBigInt smallSignature = some sig ∧
      unpack sig = smallSignature := by
  obtain ⟨sig, hconvert, _, _, _, _, _, hunpack⟩ :=
    (convertSignature_packs digitBigInt).1 smallSignature valid_smallSignature
  exact ⟨valid_smallSignature, sig, hconvert, hunpack⟩

end DkgSubstrate.SignaturePacking
