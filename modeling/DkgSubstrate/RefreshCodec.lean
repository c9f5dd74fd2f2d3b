import DkgSubstrate.Proposals
import DkgSubstrate.Slices

/-!
Refresh proposals as bytes.  The fields stand at fixed places of an array, and the key is a vector
of any length.
-/

namespace DkgSubstrate.RefreshCodec

open DkgSubstrate.Primitives
open DkgSubstrate.Proposals (ValidationError refreshCreate)
open DkgSubstrate.Slices
open DkgSubstrate.Words

@[ext] structure RefreshProposal where
  voterMerkleRoot : FixedBytes 32
  sessionLength : UInt64
  voterCount : UInt32
  nonce : UInt32
  pubKey : Bytes
deriving DecidableEq

namespace RefreshProposal

def length : ℕ := 32 + 8 + 4 + 4 + 64

/-- Writes the fields to their places.  A key of another length makes the copy panic. -/
def encode (p : RefreshProposal) : Option Bytes := do
  let ret := List.replicate length 0
  let ret ← copyFromSlice 0 32 p.voterMerkleRoot.toList ret
  let ret ← copyFromSlice 32 40 (toBeBytes 8 p.sessionLength.toNat) ret
  let ret ← copyFromSlice 40 44 (toBeBytes 4 p.voterCount.toNat) ret
  let ret ← copyFromSlice 44 48 (toBeBytes 4 p.nonce.toNat) ret
  copyFromSlice 48 length p.pubKey ret

theorem length_root {input : Bytes} (h : ¬input.length < length) :
    ((input.take length).extract 0 32).length = 32 := by
  rw [length_extract_of_le]
  rw [List.length_take]
  exact Nat.le_min.mpr ⟨by decide, (Nat.le_of_lt (by decide)).trans (Nat.not_lt.mp h)⟩

/-- Reads the fields from the first bytes of the input. -/
def decode (input : Bytes) : Except String RefreshProposal :=
  if h : input.length < length then
    .error "input bytes are less than the expected size (112 bytes)"
  else
    let data := input.take length
    .ok
      { voterMerkleRoot := ⟨data.extract 0 32, length_root h⟩
        sessionLength := UInt64.ofNat (ofBeBytes (data.extract 32 40))
        voterCount := UInt32.ofNat (ofBeBytes (data.extract 40 44))
        nonce := UInt32.ofNat (ofBeBytes (data.extract 44 48))
        pubKey := data.extract 48 length }

def ofBytes (bytes : Bytes) : Except String RefreshProposal :=
  match decode bytes with
  | .ok p => .ok p
  | .error _ => .error "Failed to decode RefreshProposal"

end RefreshProposal

def create (data : Bytes) : Except ValidationError RefreshProposal :=
  if data.length = RefreshProposal.length then
    match RefreshProposal.ofBytes data with
    | .ok p => .ok p
    | .error e => .error (.invalidDecoding e)
  else .error .invalidProposalBytesLength

namespace RefreshProposal

def header (p : RefreshProposal) : Bytes :=
  p.voterMerkleRoot.toList ++ toBeBytes 8 p.sessionLength.toNat ++
    toBeBytes 4 p.voterCount.toNat ++ toBeBytes 4 p.nonce.toNat

theorem length_header (p : RefreshProposal) : p.header.length = 48 := by
  simp [header]

theorem encode_eq_copy (p : RefreshProposal) :
    p.encode = copyFromSlice 48 length p.pubKey (p.header ++ List.replicate 64 0) := by
  have hroot : p.voterMerkleRoot.toList.length = 32 := p.voterMerkleRoot.toList_length
  have h₁ : copyFromSlice 0 32 p.voterMerkleRoot.toList ([] ++ List.replicate length 0) =
      some ([] ++ p.voterMerkleRoot.toList ++ List.replicate 80 0) :=
    copyFromSlice_append_replicate rfl (by rw [hroot]) (by rw [hroot]; rfl)
  have h₂ : copyFromSlice 32 40 (toBeBytes 8 p.sessionLength.toNat)
      (p.voterMerkleRoot.toList ++ List.replicate 80 0) = some (p.voterMerkleRoot.toList ++
        toBeBytes 8 p.sessionLength.toNat ++ List.replicate 72 0) :=
    copyFromSlice_append_replicate hroot (by simp) (by simp)
  have h₃ : copyFromSlice 40 44 (toBeBytes 4 p.voterCount.toNat) (p.voterMerkleRoot.toList ++
      toBeBytes 8 p.sessionLength.toNat ++ List.replicate 72 0) = some (p.voterMerkleRoot.toList ++
        toBeBytes 8 p.sessionLength.toNat ++ toBeBytes 4 p.voterCount.toNat ++
          List.replicate 68 0) :=
    copyFromSlice_append_replicate (by simp) (by simp) (by simp)
  have h₄ : copyFromSlice 44 48 (toBeBytes 4 p.nonce.toNat) (p.voterMerkleRoot.toList ++
      toBeBytes 8 p.sessionLength.toNat ++ toBeBytes 4 p.voterCount.toNat ++
        List.replicate 68 0) = some (p.header ++ List.replicate 64 0) :=
    copyFromSlice_append_replicate (by simp) (by simp) (by simp)
  rw [List.nil_append] at h₁
  rw [encode]
  simp only [h₁, Option.bind_eq_bind, Option.bind_some, List.nil_append, h₂, h₃, h₄]

theorem encode_eq_some {p : RefreshProposal} {bytes : Bytes} :
    p.encode = some bytes ↔ p.pubKey.length = 64 ∧ p.header ++ p.pubKey = bytes := by
  rw [encode_eq_copy]
  by_cases hkey : p.pubKey.length = 64
  · have hcopy : copyFromSlice 48 length p.pubKey (p.header ++ List.replicate 64 0) =
        some (p.header ++ p.pubKey ++ List.replicate 0 0) :=
      copyFromSlice_append_replicate p.length_header (by rw [hkey]; rfl) (by rw [hkey])
    rw [hcopy, List.replicate_zero, List.append_nil, Option.some.injEq, and_iff_right hkey]
  · rw [copyFromSlice_of_length_ne hkey]
    exact iff_of_false (by simp) fun h => hkey h.1

theorem toBeBytes_ofBeBytes_uInt64 {bytes : Bytes} (h : bytes.length = 8) :
    toBeBytes 8 (UInt64.ofNat (ofBeBytes bytes)).toNat = bytes := by
  have hlt := ofBeBytes_lt bytes
  have hbytes := toBeBytes_ofBeBytes bytes
  rw [h] at hlt hbytes
  rw [UInt64.toNat_ofNat', Nat.mod_eq_of_lt (show _ < 2 ^ 64 from hlt), hbytes]

theorem toBeBytes_ofBeBytes_uInt32 {bytes : Bytes} (h : bytes.length = 4) :
    toBeBytes 4 (UInt32.ofNat (ofBeBytes bytes)).toNat = bytes := by
  have hlt := ofBeBytes_lt bytes
  have hbytes := toBeBytes_ofBeBytes bytes
  rw [h] at hlt hbytes
  rw [UInt32.toNat_ofNat', Nat.mod_eq_of_lt (show _ < 2 ^ 32 from hlt), hbytes]

theorem exists_decode {bytes : Bytes} (h : bytes.length = length) : ∃ p, decode bytes = .ok p :=
  ⟨_, dif_neg (Nat.not_lt.mpr h.ge)⟩

theorem decode_eq_ok {bytes : Bytes} (h : bytes.length = length) {p : RefreshProposal} :
    decode bytes = .ok p ↔ p.voterMerkleRoot.toList = bytes.extract 0 32 ∧
      p.sessionLength = UInt64.ofNat (ofBeBytes (bytes.extract 32 40)) ∧
      p.voterCount = UInt32.ofNat (ofBeBytes (bytes.extract 40 44)) ∧
      p.nonce = UInt32.ofNat (ofBeBytes (bytes.extract 44 48)) ∧
      p.pubKey = bytes.extract 48 length := by
  have htake : bytes.take length = bytes := List.take_of_length_le h.le
  have hextract (start stop : ℕ) :
      (bytes.take length).extract start stop = bytes.extract start stop := by
    rw [htake]
  rw [decode, dif_neg (Nat.not_lt.mpr h.ge), Except.ok.injEq, hextract 32, hextract 40,
    hextract 44, hextract 48]
  constructor
  · rintro rfl
    exact ⟨hextract 0 32, rfl, rfl, rfl, rfl⟩
  · rintro ⟨hroot, hsession, hcount, hnonce, hkey⟩
    refine RefreshProposal.ext (List.Vector.eq _ _ ?_) hsession.symm hcount.symm hnonce.symm
      hkey.symm
    exact (hextract 0 32).trans hroot.symm

theorem encode_of_decode {bytes : Bytes} (h : bytes.length = length) {p : RefreshProposal}
    (hp : decode bytes = .ok p) : p.encode = some bytes := by
  obtain ⟨hroot, hsession, hcount, hnonce, hkey⟩ := (decode_eq_ok h).mp hp
  have hlength (start stop : ℕ) (hstop : stop ≤ 112) :
      (bytes.extract start stop).length = stop - start :=
    length_extract_of_le (hstop.trans h.ge)
  refine encode_eq_some.mpr ⟨?_, ?_⟩
  · rw [hkey]
    exact hlength 48 112 (by omega)
  · rw [header, hroot, hsession, hcount, hnonce, hkey,
      toBeBytes_ofBeBytes_uInt64 (hlength 32 40 (by omega)),
      toBeBytes_ofBeBytes_uInt32 (hlength 40 44 (by omega)),
      toBeBytes_ofBeBytes_uInt32 (hlength 44 48 (by omega)),
      extract_append_extract (by omega) (by omega), extract_append_extract (by omega) (by omega),
      extract_append_extract (by omega) (by omega), extract_append_extract (by omega) (by decide),
      List.extract_eq_take_drop, List.drop_zero]
    exact List.take_of_length_le h.le

theorem decode_of_encode {bytes : Bytes} {p : RefreshProposal} (hp : p.encode = some bytes) :
    bytes.length = length ∧ decode bytes = .ok p := by
  obtain ⟨hkey, rfl⟩ := encode_eq_some.mp hp
  have hlength : (p.header ++ p.pubKey).length = length := by
    rw [List.length_append, length_header, hkey]
    rfl
  have hroot : p.header ++ p.pubKey = [] ++ p.voterMerkleRoot.toList ++
      (toBeBytes 8 p.sessionLength.toNat ++ toBeBytes 4 p.voterCount.toNat ++
        toBeBytes 4 p.nonce.toNat ++ p.pubKey) := by
    simp [header]
  have hsession : p.header ++ p.pubKey = p.voterMerkleRoot.toList ++
      toBeBytes 8 p.sessionLength.toNat ++
        (toBeBytes 4 p.voterCount.toNat ++ toBeBytes 4 p.nonce.toNat ++ p.pubKey) := by
    simp [header]
  have hcount : p.header ++ p.pubKey = p.voterMerkleRoot.toList ++
      toBeBytes 8 p.sessionLength.toNat ++ toBeBytes 4 p.voterCount.toNat ++
        (toBeBytes 4 p.nonce.toNat ++ p.pubKey) := by
    simp [header]
  have hnonce : p.header ++ p.pubKey = p.voterMerkleRoot.toList ++
      toBeBytes 8 p.sessionLength.toNat ++ toBeBytes 4 p.voterCount.toNat ++
        toBeBytes 4 p.nonce.toNat ++ p.pubKey := rfl
  refine ⟨hlength, (decode_eq_ok hlength).mpr ⟨?_, ?_, ?_, ?_, ?_⟩⟩
  · rw [hroot, extract_append_of_length List.length_nil (by simp)]
  · rw [hsession, extract_append_of_length (by simp) (by simp),
      ofBeBytes_toBeBytes p.sessionLength.toNat_lt, UInt64.ofNat_toNat]
  · rw [hcount, extract_append_of_length (by simp) (by simp),
      ofBeBytes_toBeBytes p.voterCount.toNat_lt, UInt32.ofNat_toNat]
  · rw [hnonce, extract_append_of_length (by simp) (by simp),
      ofBeBytes_toBeBytes p.nonce.toNat_lt, UInt32.ofNat_toNat]
  · rw [← List.append_nil (p.header ++ p.pubKey),
      extract_append_of_length p.length_header (by rw [hkey]; rfl)]

def toModel (p : RefreshProposal) (hkey : p.pubKey.length = 64) : Proposals.RefreshProposal where
  voterMerkleRoot := p.voterMerkleRoot
  sessionLength := p.sessionLength.toNat
  voterCount := p.voterCount.toNat
  nonce := p.nonce.toNat
  pubKey := ⟨p.pubKey, hkey⟩

theorem encode_eq_some_encode_toModel (p : RefreshProposal) (hkey : p.pubKey.length = 64) :
    p.encode = some (p.toModel hkey).encode := by
  refine encode_eq_some.mpr ⟨hkey, ?_⟩
  simp only [header, List.append_assoc]
  rfl

end RefreshProposal

open RefreshProposal

theorem create_eq_ok {data : Bytes} {p : RefreshProposal} :
    create data = .ok p ↔ p.encode = some data := by
  rw [create]
  by_cases h : data.length = length
  · obtain ⟨q, hq⟩ := exists_decode h
    rw [if_pos h, ofBytes, hq]
    dsimp only
    rw [Except.ok.injEq]
    constructor
    · rintro rfl
      exact encode_of_decode h hq
    · intro hp
      exact Except.ok.inj (hq.symm.trans (decode_of_encode hp).2)
  · rw [if_neg h]
    exact iff_of_false (fun herror => by cases herror) fun hp => h (decode_of_encode hp).1

theorem exists_create_iff {data : Bytes} : (∃ p, create data = .ok p) ↔ data.length = length := by
  constructor
  · rintro ⟨p, hp⟩
    exact (decode_of_encode (create_eq_ok.mp hp)).1
  · intro h
    obtain ⟨p, hp⟩ := exists_decode h
    exact ⟨p, create_eq_ok.mpr (encode_of_decode h hp)⟩

theorem refreshCreate_eq_map_create (data : Bytes) :
    refreshCreate data = (create data).map fun p => p.nonce.toNat := by
  by_cases h : data.length = length
  · obtain ⟨p, hp⟩ := exists_decode h
    have hlength : (data.extract 44 48).length = 4 := length_extract_of_le (by rw [h]; decide)
    have hlt := ofBeBytes_lt (data.extract 44 48)
    rw [hlength] at hlt
    rw [create_eq_ok.mpr (encode_of_decode h hp), Except.map, ((decode_eq_ok h).mp hp).2.2.2.1,
      UInt32.toNat_ofNat', Nat.mod_eq_of_lt (show _ < 2 ^ 32 from hlt)]
    exact if_pos h
  · rw [create, if_neg h]
    exact if_neg h

/-- Proposals with a key of 64 bytes and arrays of 112 bytes correspond to each other. -/
theorem encode_decode_correspond :
    (∀ p : RefreshProposal, p.pubKey.length = 64 → ∃ bytes, p.encode = some bytes ∧
      bytes.length = 112 ∧ decode bytes = .ok p) ∧
    (∀ bytes : Bytes, bytes.length = 112 → ∃ p, decode bytes = .ok p ∧ p.encode = some bytes) ∧
    (∀ data : Bytes, (∃ p, create data = .ok p) ↔ data.length = 112) ∧
    ∀ (p q : RefreshProposal) (bytes : Bytes),
      p.encode = some bytes → q.encode = some bytes → p = q := by
  refine ⟨fun p hkey => ?_, fun bytes h => ?_, fun data => exists_create_iff, ?_⟩
  · have hp : p.encode = some (p.header ++ p.pubKey) := encode_eq_some.mpr ⟨hkey, rfl⟩
    exact ⟨_, hp, decode_of_encode hp⟩
  · obtain ⟨p, hp⟩ := exists_decode h
    exact ⟨p, hp, encode_of_decode h hp⟩
  · intro p q bytes hp hq
    exact Except.ok.inj ((decode_of_encode hp).2.symm.trans (decode_of_encode hq).2)

def sampleRefresh : RefreshProposal where
  voterMerkleRoot := List.Vector.replicate 32 1
  sessionLength := 6000
  voterCount := 4
  nonce := 2
  pubKey := List.replicate 64 7

theorem encode_decode_correspond_sampleRefresh :
    sampleRefresh.pubKey.length = 64 ∧ ∃ bytes, sampleRefresh.encode = some bytes ∧
      bytes.length = 112 ∧ decode bytes = .ok sampleRefresh :=
  ⟨by decide, encode_decode_correspond.1 sampleRefresh (by decide)⟩

end DkgSubstrate.RefreshCodec
