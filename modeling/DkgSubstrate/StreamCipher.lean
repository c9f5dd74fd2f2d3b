import DkgSubstrate.Words

/-!
Authenticated encryption by a stream cipher: what a user of the cipher may rely on, and what two
texts under one key and one nonce give away.
-/

namespace DkgSubstrate.StreamCipher

open DkgSubstrate.Words

/-- A cipher takes a key, a nonce and the data, which it refuses only if they are too long. -/
structure Cipher where
  encrypt : Bytes → Bytes → Bytes → Option Bytes
  decrypt : Bytes → Bytes → Bytes → Option Bytes
  maxLength : ℕ
  decrypt_encrypt : ∀ {key nonce data bytes}, encrypt key nonce data = some bytes →
    decrypt key nonce bytes = some data
  isSome_encrypt : ∀ key nonce data,
    (encrypt key nonce data).isSome = true ↔ data.length ≤ maxLength

def mask (stream : ℕ → UInt8) (data : Bytes) : Bytes :=
  data.mapIdx fun i b => b ^^^ stream i

@[simp] theorem length_mask (stream : ℕ → UInt8) (data : Bytes) :
    (mask stream data).length = data.length :=
  List.length_mapIdx

theorem mask_mask (stream : ℕ → UInt8) (data : Bytes) :
    mask stream (mask stream data) = data := by
  refine List.ext_getElem (by simp) fun i hi hi' => ?_
  simp only [mask, List.getElem_mapIdx, UInt8.xor_assoc, UInt8.xor_self, UInt8.xor_zero]

/-- The data are masked by a stream that the key and the nonce determine. -/
def Cipher.Masks (c : Cipher) (keystream : Bytes → Bytes → ℕ → UInt8) : Prop :=
  ∀ key nonce data bytes, c.encrypt key nonce data = some bytes →
    mask (keystream key nonce) data <+: bytes

variable {c : Cipher} {key nonce data bytes : Bytes}

theorem encrypt_eq_none : c.encrypt key nonce data = none ↔ c.maxLength < data.length := by
  rw [← not_le, ← c.isSome_encrypt key nonce data, Option.not_isSome_iff_eq_none]

theorem length_le_of_encrypt (h : c.encrypt key nonce data = some bytes) :
    data.length ≤ c.maxLength :=
  (c.isSome_encrypt key nonce data).mp (Option.isSome_of_eq_some h)

/-- What is read from encrypted bytes with the help of other ones whose content is known. -/
def reveal (known knownBytes bytes : Bytes) : Bytes :=
  List.zipWith (· ^^^ ·) (List.zipWith (· ^^^ ·) known knownBytes) bytes

theorem take_reveal {keystream : Bytes → Bytes → ℕ → UInt8} (hmasks : c.Masks keystream)
    {known knownBytes : Bytes} (hknown : c.encrypt key nonce known = some knownBytes)
    (h : c.encrypt key nonce data = some bytes) :
    (reveal known knownBytes bytes).take data.length = data.take known.length := by
  obtain ⟨knownTag, rfl⟩ := hmasks key nonce known knownBytes hknown
  obtain ⟨tag, rfl⟩ := hmasks key nonce data bytes h
  refine List.ext_getElem ?_ fun i hi hi' => ?_
  · simp only [reveal, List.length_take, List.length_zipWith, List.length_append, length_mask]
    omega
  · rw [List.length_take] at hi'
    have hdata : i < data.length := by omega
    have hlt : i < known.length := by omega
    have hcancel : ∀ a b s : UInt8, (a ^^^ (a ^^^ s)) ^^^ (b ^^^ s) = b := by
      intro a b s
      rw [← UInt8.xor_assoc a a s, UInt8.xor_self, UInt8.zero_xor, UInt8.xor_comm b s,
        ← UInt8.xor_assoc, UInt8.xor_self, UInt8.zero_xor]
    simp only [reveal, List.getElem_take, List.getElem_zipWith, mask]
    rw [List.getElem_append_left (by simpa using hlt),
      List.getElem_append_left (by simpa using hdata), List.getElem_mapIdx, List.getElem_mapIdx]
    exact hcancel _ _ _

end DkgSubstrate.StreamCipher
