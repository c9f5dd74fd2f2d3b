import DkgSubstrate.Words

/-!
Byte strings as texts with two hexadecimal digits for each byte.
-/

namespace DkgSubstrate.Hex

open DkgSubstrate.Words

def digit (n : ℕ) : Char :=
  if n < 10 then Char.ofNat ('0'.toNat + n) else Char.ofNat ('a'.toNat + (n - 10))

/-- The number of a digit, which may be in either case. -/
def value (c : Char) : Option ℕ :=
  if 'A' ≤ c ∧ c ≤ 'F' then some (c.toNat - 'A'.toNat + 10)
  else if 'a' ≤ c ∧ c ≤ 'f' then some (c.toNat - 'a'.toNat + 10)
  else if '0' ≤ c ∧ c ≤ '9' then some (c.toNat - '0'.toNat)
  else none

def encodeDigits (bytes : Bytes) : List Char :=
  bytes.flatMap fun b => [digit (b.toNat / 16), digit (b.toNat % 16)]

/-- The bytes of the digits, unless their number is odd or one of them is none. -/
def decodeDigits : List Char → Option Bytes
  | [] => some []
  | [_] => none
  | high :: low :: rest =>
      match value high, value low with
      | some h, some l => (decodeDigits rest).map fun bytes => UInt8.ofNat (16 * h + l) :: bytes
      | _, _ => none

def encode (bytes : Bytes) : String := String.ofList (encodeDigits bytes)

def decode (text : String) : Option Bytes := decodeDigits text.toList

theorem value_digit {n : ℕ} (h : n < 16) : value (digit n) = some n := by
  have hall : ∀ n < 16, value (digit n) = some n := by decide
  exact hall n h

theorem decodeDigits_encodeDigits (bytes : Bytes) :
    decodeDigits (encodeDigits bytes) = some bytes := by
  induction bytes with
  | nil => rfl
  | cons b bytes ih =>
      have hlt := b.toNat_lt
      have hhigh : value (digit (b.toNat / 16)) = some (b.toNat / 16) := value_digit (by omega)
      have hlow : value (digit (b.toNat % 16)) = some (b.toNat % 16) := value_digit (by omega)
      have hbyte : UInt8.ofNat (16 * (b.toNat / 16) + b.toNat % 16) = b := by
        rw [Nat.div_add_mod, UInt8.ofNat_toNat]
      rw [encodeDigits, List.flatMap_cons, List.cons_append, List.cons_append, List.nil_append,
        decodeDigits, hhigh, hlow]
      dsimp only
      rw [← encodeDigits, ih, Option.map_some, hbyte]

theorem decode_encode (bytes : Bytes) : decode (encode bytes) = some bytes := by
  rw [decode, encode, String.toList_ofList, decodeDigits_encodeDigits]

example : encode [14, 255] = "0eff" := by decide

end DkgSubstrate.Hex
