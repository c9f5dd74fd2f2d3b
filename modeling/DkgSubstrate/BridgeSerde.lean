import DkgSubstrate.BridgeRegistry
import DkgSubstrate.Hex

/-!
The metadata of bridges as text.  A chain specification has the names of a bridge as hexadecimal
texts, and reads them as the bytes of a name.
-/

namespace DkgSubstrate.BridgeSerde

open DkgSubstrate.BridgeRegistry
open DkgSubstrate.Primitives
open DkgSubstrate.Words

inductive Data where
  | none
  | raw (bytes : BoundedVec UInt8 32)
  | blakeTwo256 (hash : FixedBytes 32)
  | sha256 (hash : FixedBytes 32)
  | keccak256 (hash : FixedBytes 32)
  | shaThree256 (hash : FixedBytes 32)
deriving DecidableEq

/-- The first byte tells the variant, and for raw bytes also their number. -/
def Data.encode : Data → Bytes
  | .none => [0]
  | .raw bytes => (UInt8.ofNat bytes.length + 1) :: bytes.toList
  | .blakeTwo256 hash => 34 :: hash.toList
  | .sha256 hash => 35 :: hash.toList
  | .keccak256 hash => 36 :: hash.toList
  | .shaThree256 hash => 37 :: hash.toList

inductive SerdeError where
  | invalidValue (unexpected expected : String)
  | custom (message : String)
deriving DecidableEq

structure SerdeData where
  data : Data
deriving DecidableEq

namespace SerdeData

def fromStr (s : String) : Option SerdeData :=
  (BoundedVec.tryFrom s.toUTF8.data.toList).map fun rawData => ⟨.raw rawData⟩

def expecting : String := "a hex string with at most 32 bytes"

def visitStr (v : String) : Except SerdeError SerdeData :=
  match Hex.decode v with
  | none => .error (.invalidValue v expecting)
  | some decoded =>
      match BoundedVec.tryFrom decoded with
      | none => .error (.invalidValue v expecting)
      | some bounded => .ok ⟨.raw bounded⟩

def deserialize (text : String) : Except SerdeError SerdeData := visitStr text

def serialize (d : SerdeData) : String := Hex.encode d.data.encode

def Survives (d : SerdeData) : Prop := deserialize d.serialize = .ok d

theorem deserialize_serialize_eq_ok {d d' : SerdeData} :
    deserialize d.serialize = .ok d' ↔
      ∃ bytes : BoundedVec UInt8 32, bytes.toList = d.data.encode ∧ d' = ⟨.raw bytes⟩ := by
  rw [deserialize, visitStr, serialize, Hex.decode_encode]
  dsimp only
  constructor
  · intro h
    split at h
    · cases h
    · rename_i bounded hbounded
      exact ⟨bounded, BoundedVec.tryFrom_eq_some.mp hbounded, (Except.ok.inj h).symm⟩
  · rintro ⟨bytes, hbytes, rfl⟩
    rw [BoundedVec.tryFrom_eq_some.mpr hbytes]

theorem not_survives (d : SerdeData) : ¬d.Survives := by
  intro h
  obtain ⟨bytes, hbytes, rfl⟩ := deserialize_serialize_eq_ok.mp h
  have hlength := congrArg List.length hbytes
  rw [Data.encode, List.length_cons] at hlength
  omega

theorem exists_deserialize_serialize_iff (d : SerdeData) :
    (∃ d', deserialize d.serialize = .ok d') ↔
      d.data = .none ∨ ∃ bytes, d.data = .raw bytes ∧ bytes.length < 32 := by
  have hfits : (∃ d', deserialize d.serialize = .ok d') ↔ d.data.encode.length ≤ 32 := by
    constructor
    · rintro ⟨d', h⟩
      obtain ⟨bytes, hbytes, -⟩ := deserialize_serialize_eq_ok.mp h
      rw [← hbytes]
      exact bytes.length_le
    · intro h
      exact ⟨_, deserialize_serialize_eq_ok.mpr ⟨⟨d.data.encode, h⟩, rfl, rfl⟩⟩
  rw [hfits]
  cases d.data with
  | none => exact iff_of_true (Nat.le_add_left 1 31) (.inl rfl)
  | raw bytes =>
      rw [Data.encode, List.length_cons, Nat.succ_le_iff]
      constructor
      · intro h
        exact .inr ⟨bytes, rfl, h⟩
      · rintro (h | ⟨bytes', h, hlt⟩)
        · cases h
        · cases h
          exact hlt
  | blakeTwo256 hash | sha256 hash | keccak256 hash | shaThree256 hash =>
      rw [Data.encode, List.length_cons, List.Vector.toList_length]
      refine iff_of_false (by omega) ?_
      rintro (h | ⟨bytes, h, -⟩)
      · cases h
      · cases h

end SerdeData

structure BridgeInfo (fieldLimit : ℕ) where
  additional : BoundedVec (SerdeData × SerdeData) fieldLimit
  display : SerdeData
deriving DecidableEq

structure InfoValue where
  additional : List (String × String)
  display : String

namespace BridgeInfo

variable {fieldLimit : ℕ}

def serialize (info : BridgeInfo fieldLimit) : InfoValue where
  additional := info.additional.toList.map fun entry => (entry.1.serialize, entry.2.serialize)
  display := info.display.serialize

def deserializeAdditional : List (String × String) →
    BoundedVec (SerdeData × SerdeData) fieldLimit →
      Except SerdeError (BoundedVec (SerdeData × SerdeData) fieldLimit)
  | [], values => .ok values
  | entry :: rest, values => do
      let key ← SerdeData.deserialize entry.1
      let value ← SerdeData.deserialize entry.2
      match values.tryPush (key, value) with
      | some values => deserializeAdditional rest values
      | none => .error (.custom "out of bounds")

def deserialize (v : InfoValue) : Except SerdeError (BridgeInfo fieldLimit) := do
  let additional ← deserializeAdditional v.additional default
  let display ← SerdeData.deserialize v.display
  .ok ⟨additional, display⟩

theorem deserialize_display {v : InfoValue} {info : BridgeInfo fieldLimit}
    (h : deserialize v = .ok info) : SerdeData.deserialize v.display = .ok info.display := by
  rw [deserialize] at h
  cases hadditional : (deserializeAdditional v.additional default :
      Except SerdeError (BoundedVec (SerdeData × SerdeData) fieldLimit)) with
  | error err =>
      rw [hadditional] at h
      cases h
  | ok additional =>
      rw [hadditional] at h
      cases hdisplay : SerdeData.deserialize v.display with
      | error err =>
          rw [hdisplay] at h
          cases h
      | ok display =>
          rw [hdisplay] at h
          cases h
          rfl

end BridgeInfo

def RestoresInfo {cfg : Config} {fieldLimit : ℕ} (s : State cfg (BridgeInfo fieldLimit)) : Prop :=
  ∀ index metadata, s.bridges.lookup index = some metadata →
    BridgeInfo.deserialize metadata.info.serialize = .ok metadata.info

/-- No value is read back as it was.  A value without bytes and a name of less than 32 bytes are
read as another name, and all other values are rejected.  So a chain specification restores the
data of the bridges exactly if there are none. -/
theorem restoresInfo_iff (cfg : Config) (fieldLimit : ℕ) :
    (∀ d : SerdeData, ¬d.Survives) ∧
    (∀ d : SerdeData, (∃ d', SerdeData.deserialize d.serialize = .ok d') ↔
      d.data = .none ∨ ∃ bytes, d.data = .raw bytes ∧ bytes.length < 32) ∧
    ∀ s : State cfg (BridgeInfo fieldLimit),
      RestoresInfo s ↔ ∀ index, s.bridges.lookup index = none := by
  refine ⟨SerdeData.not_survives, SerdeData.exists_deserialize_serialize_iff, fun s => ?_⟩
  constructor
  · intro h index
    cases hlookup : s.bridges.lookup index with
    | none => rfl
    | some metadata =>
        have hdisplay := BridgeInfo.deserialize_display (h index metadata hlookup)
        exact absurd hdisplay metadata.info.display.not_survives
  · intro h index metadata hlookup
    rw [h index] at hlookup
    cases hlookup

def hermesAthenaBytes : Bytes := [104, 101, 114, 109, 101, 115, 45, 97, 116, 104, 101, 110, 97]

theorem length_hermesAthenaBytes : hermesAthenaBytes.length ≤ 32 := by decide

def hermesAthena : SerdeData := ⟨.raw ⟨hermesAthenaBytes, length_hermesAthenaBytes⟩⟩

theorem hermesAthena_not_survives :
    SerdeData.fromStr "hermes-athena" = some hermesAthena ∧
      hermesAthena.serialize = "0e6865726d65732d617468656e61" ∧ ¬hermesAthena.Survives :=
  ⟨by decide, by decide, hermesAthena.not_survives⟩

end DkgSubstrate.BridgeSerde
