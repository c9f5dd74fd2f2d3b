import DkgSubstrate.BoundedVec
import DkgSubstrate.Words
import Mathlib.Data.Vector.Basic

/-!
Keys, hashes and ECDSA signatures.  Hashing, signature recovery and the parsing of
curve points are parameters.
-/

namespace DkgSubstrate.Primitives

open DkgSubstrate.Words

abbrev FixedBytes (n : ℕ) := List.Vector UInt8 n

/-- A compressed ECDSA public key, which is also the identifier of a DKG authority. -/
abbrev Public := FixedBytes 33

structure Limits where
  maxKeyLength : ℕ
  maxSignatureLength : ℕ
  maxAuthorities : ℕ
  maxReporters : ℕ
  maxProposalLength : ℕ
  maxProposalsPerBatch : ℕ

def runtimeLimits : Limits where
  maxKeyLength := 512
  maxSignatureLength := 512
  maxAuthorities := 1024
  maxReporters := 128
  maxProposalLength := 10000
  maxProposalsPerBatch := 10

structure Crypto where
  keccak256 : Bytes → FixedBytes 32
  blake2128 : Bytes → FixedBytes 16
  secp256k1EcdsaRecover : FixedBytes 65 → FixedBytes 32 → Option (FixedBytes 64)
  parseCompressed : Bytes → Option (FixedBytes 65)

def toFixed (n : ℕ) (bytes : Bytes) : Option (FixedBytes n) :=
  if h : bytes.length = n then some ⟨bytes, h⟩ else none

def signatureLength : ℕ := 65

def xCoordinate (key : Public) : Bytes := key.toList.drop 1

variable (crypto : Crypto)

def recoverEcdsaPubKey (data signature : Bytes) : Option (FixedBytes 64) :=
  match toFixed signatureLength signature with
  | some sig => crypto.secp256k1EcdsaRecover sig (crypto.keccak256 data)
  | none => none

def validateEcdsaSignature (data signature : Bytes) : Bool :=
  match toFixed signatureLength signature with
  | some sig => (crypto.secp256k1EcdsaRecover sig (crypto.keccak256 data)).isSome
  | none => false

def recoversTo (msg signature x : Bytes) : Bool :=
  match recoverEcdsaPubKey crypto msg signature with
  | some data => x == data.toList.take 32
  | none => false

def verifySignerFromSetEcdsa (maybeSigners : List Public) (msg signature : Bytes) :
    Option Public × Bool :=
  match maybeSigners.find? fun x => recoversTo crypto msg signature (xCoordinate x) with
  | some signer => (some signer, true)
  | none => (none, false)

inductive SignatureError where
  | invalidDKGKey
  | invalidRecovery (expected actual : Bytes)
  | invalidECDSASignature
deriving DecidableEq

def ensureSignedByDkg (dkgKey signature data : Bytes) : Except SignatureError Unit :=
  match recoverEcdsaPubKey crypto data signature with
  | none => .error .invalidECDSASignature
  | some recoveredKey =>
      if dkgKey = [] ∨ dkgKey.length ≠ 33 then .error .invalidDKGKey
      else if recoveredKey.toList.take 32 = dkgKey.drop 1 then .ok ()
      else .error (.invalidRecovery dkgKey recoveredKey.toList)

/-- The acceptance condition of `ensureSignedByDkg`. -/
def SignedByDkg (dkgKey signature data : Bytes) : Prop :=
  dkgKey.length = 33 ∧ recoversTo crypto data signature (dkgKey.drop 1) = true

instance (dkgKey signature data : Bytes) :
    Decidable (SignedByDkg crypto dkgKey signature data) :=
  inferInstanceAs (Decidable (_ ∧ _))

variable {crypto}

theorem recoversTo_iff {msg signature x : Bytes} :
    recoversTo crypto msg signature x = true ↔
      ∃ data, recoverEcdsaPubKey crypto msg signature = some data ∧
        data.toList.take 32 = x := by
  rw [recoversTo]
  cases recoverEcdsaPubKey crypto msg signature with
  | none => simp
  | some data =>
      rw [beq_iff_eq]
      constructor
      · rintro rfl
        exact ⟨data, rfl, rfl⟩
      · rintro ⟨_, hdata, hx⟩
        rw [Option.some.inj hdata, hx]

theorem recoversTo_iff_of_recoversTo {msg signature x y : Bytes}
    (h : recoversTo crypto msg signature x = true) :
    recoversTo crypto msg signature y = true ↔ y = x := by
  obtain ⟨data, hdata, rfl⟩ := recoversTo_iff.mp h
  rw [recoversTo_iff]
  constructor
  · rintro ⟨data', hdata', rfl⟩
    rw [Option.some.inj (hdata.symm.trans hdata')]
  · rintro rfl
    exact ⟨data, hdata, rfl⟩

theorem length_of_recoversTo {msg signature x : Bytes}
    (h : recoversTo crypto msg signature x = true) : signature.length = signatureLength := by
  obtain ⟨data, hdata, -⟩ := recoversTo_iff.mp h
  rw [recoverEcdsaPubKey, toFixed] at hdata
  by_contra hlength
  rw [dif_neg hlength] at hdata
  cases hdata

theorem ensureSignedByDkg_eq_ok {dkgKey signature data : Bytes} :
    ensureSignedByDkg crypto dkgKey signature data = .ok () ↔
      SignedByDkg crypto dkgKey signature data := by
  rw [ensureSignedByDkg, SignedByDkg, recoversTo]
  cases recoverEcdsaPubKey crypto data signature with
  | none => simp
  | some recovered =>
      by_cases hlen : dkgKey.length = 33
      · have hkey : ¬(dkgKey = [] ∨ dkgKey.length ≠ 33) := by
          rintro (rfl | h)
          · simp at hlen
          · exact h hlen
        simp only [hkey, if_false, beq_iff_eq]
        simp only [hlen, true_and]
        by_cases hx : recovered.toList.take 32 = dkgKey.drop 1
        · simp only [hx, if_true]
        · simp only [hx, if_false, reduceCtorEq, false_iff]
          exact fun h => hx h.symm
      · simp [hlen]

theorem verifySignerFromSetEcdsa_success {set : List Public} {msg signature : Bytes} :
    (verifySignerFromSetEcdsa crypto set msg signature).2 = true ↔
      ∃ x ∈ set, recoversTo crypto msg signature (xCoordinate x) = true := by
  rw [verifySignerFromSetEcdsa]
  cases hfind : set.find? fun x => recoversTo crypto msg signature (xCoordinate x) with
  | none =>
      have hnone := List.find?_eq_none.mp hfind
      simp only [Bool.false_eq_true, false_iff, not_exists, not_and]
      exact hnone
  | some x =>
      simp only [true_iff]
      have hx := List.find?_some hfind
      exact ⟨x, List.mem_of_find?_eq_some hfind, hx⟩

end DkgSubstrate.Primitives
