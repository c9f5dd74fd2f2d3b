import Mathlib.Data.List.Basic
import Mathlib.Data.List.Induction
import Mathlib.Tactic.Ring

/-!
Unsigned machine arithmetic on natural numbers, at an explicit width, and the
big-endian byte strings of such numbers.
-/

namespace DkgSubstrate.Words

abbrev Bytes := List UInt8

def saturatingAdd (bits a b : ℕ) : ℕ := min (a + b) (2 ^ bits - 1)

def saturatingMul (bits a b : ℕ) : ℕ := min (a * b) (2 ^ bits - 1)

def wrappingAdd (bits a b : ℕ) : ℕ := (a + b) % 2 ^ bits

def wrappingSub (bits a b : ℕ) : ℕ := (a + 2 ^ bits - b % 2 ^ bits) % 2 ^ bits

def truncate (bits a : ℕ) : ℕ := a % 2 ^ bits

theorem saturatingAdd_of_lt {bits a b : ℕ} (h : a + b < 2 ^ bits) :
    saturatingAdd bits a b = a + b := by
  rw [saturatingAdd]
  omega

theorem saturatingAdd_le (bits a b : ℕ) : saturatingAdd bits a b ≤ 2 ^ bits - 1 :=
  Nat.min_le_right _ _

theorem truncate_of_lt {bits a : ℕ} (h : a < 2 ^ bits) : truncate bits a = a :=
  Nat.mod_eq_of_lt h

theorem wrappingAdd_of_lt {bits a b : ℕ} (h : a + b < 2 ^ bits) :
    wrappingAdd bits a b = a + b :=
  Nat.mod_eq_of_lt h

theorem wrappingSub_of_le {bits a b : ℕ} (ha : a < 2 ^ bits) (hba : b ≤ a) :
    wrappingSub bits a b = a - b := by
  rw [wrappingSub]
  rw [Nat.mod_eq_of_lt (show b < 2 ^ bits by omega),
    show a + 2 ^ bits - b = (a - b) + 2 ^ bits by omega, Nat.add_mod_right]
  exact Nat.mod_eq_of_lt (by omega)

/-- The last `width` bytes of a number, most significant first. -/
def toBeBytes : ℕ → ℕ → Bytes
  | 0, _ => []
  | width + 1, n => toBeBytes width (n / 256) ++ [UInt8.ofNat n]

/-- The number that a big-endian byte string denotes. -/
def ofBeBytes (bytes : Bytes) : ℕ :=
  bytes.foldl (fun acc b => acc * 256 + b.toNat) 0

@[simp] theorem length_toBeBytes (width n : ℕ) : (toBeBytes width n).length = width := by
  induction width generalizing n with
  | zero => rfl
  | succ width ih => simp [toBeBytes, ih]

theorem ofBeBytes_append_singleton (bytes : Bytes) (b : UInt8) :
    ofBeBytes (bytes ++ [b]) = ofBeBytes bytes * 256 + b.toNat := by
  simp [ofBeBytes]

theorem ofBeBytes_toBeBytes {width n : ℕ} (h : n < 256 ^ width) :
    ofBeBytes (toBeBytes width n) = n := by
  induction width generalizing n with
  | zero =>
      have hn : n = 0 := by simpa using h
      rw [hn]
      rfl
  | succ width ih =>
      have hdiv : n / 256 < 256 ^ width := by
        apply Nat.div_lt_of_lt_mul
        calc n < 256 ^ (width + 1) := h
          _ = 256 * 256 ^ width := by ring
      rw [toBeBytes, ofBeBytes_append_singleton, ih hdiv]
      simp only [UInt8.toNat_ofNat']
      omega

theorem ofBeBytes_append (a b : Bytes) :
    ofBeBytes (a ++ b) = ofBeBytes a * 256 ^ b.length + ofBeBytes b := by
  induction b using List.reverseRecOn with
  | nil => simp [ofBeBytes]
  | append_singleton b byte ih =>
      rw [← List.append_assoc, ofBeBytes_append_singleton, ih, ofBeBytes_append_singleton,
        List.length_append, List.length_singleton]
      ring

theorem ofBeBytes_lt (bytes : Bytes) : ofBeBytes bytes < 256 ^ bytes.length := by
  induction bytes using List.reverseRecOn with
  | nil => exact Nat.one_pos
  | append_singleton bytes byte ih =>
      have hbyte := byte.toNat_lt
      rw [ofBeBytes_append_singleton, List.length_append, List.length_singleton, pow_succ]
      omega

theorem toBeBytes_ofBeBytes (bytes : Bytes) : toBeBytes bytes.length (ofBeBytes bytes) = bytes := by
  induction bytes using List.reverseRecOn with
  | nil => rfl
  | append_singleton bytes byte ih =>
      have hbyte := byte.toNat_lt
      have hdiv : (ofBeBytes bytes * 256 + byte.toNat) / 256 = ofBeBytes bytes := by omega
      have hmod : UInt8.ofNat (ofBeBytes bytes * 256 + byte.toNat) = byte := by
        rw [← UInt8.toNat_inj, UInt8.toNat_ofNat']
        omega
      rw [List.length_append, List.length_singleton, toBeBytes, ofBeBytes_append_singleton, hdiv,
        ih, hmod]

@[simp] theorem ofBeBytes_replicate_zero (k : ℕ) : ofBeBytes (List.replicate k 0) = 0 := by
  induction k with
  | zero => rfl
  | succ k ih => rw [List.replicate_succ', ofBeBytes_append_singleton, ih]; rfl

theorem replicate_append_eq_toBeBytes {width : ℕ} {bytes : Bytes} (h : bytes.length ≤ width) :
    List.replicate (width - bytes.length) 0 ++ bytes = toBeBytes width (ofBeBytes bytes) := by
  have hlength : (List.replicate (width - bytes.length) 0 ++ bytes).length = width := by
    rw [List.length_append, List.length_replicate]
    omega
  have hvalue : ofBeBytes (List.replicate (width - bytes.length) 0 ++ bytes) = ofBeBytes bytes := by
    rw [ofBeBytes_append, ofBeBytes_replicate_zero, Nat.zero_mul, Nat.zero_add]
  have hbytes := toBeBytes_ofBeBytes (List.replicate (width - bytes.length) 0 ++ bytes)
  rw [hlength, hvalue] at hbytes
  exact hbytes.symm

end DkgSubstrate.Words
