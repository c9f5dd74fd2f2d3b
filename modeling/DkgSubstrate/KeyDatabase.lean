import DkgSubstrate.IncomingMessages
import DkgSubstrate.Runs
import DkgSubstrate.StorageMap
import DkgSubstrate.StreamCipher

/-!
The databases in which a node keeps the local keys of its sessions: one in memory, and one in
the offchain storage under a secret of the node's keystore.
-/

namespace DkgSubstrate.KeyDatabase

open DkgSubstrate.Words
open DkgSubstrate.Runs
open DkgSubstrate.StorageMap
open DkgSubstrate.StreamCipher
open DkgSubstrate.Primitives
open DkgSubstrate.IncomingMessages

structure DKGDbBackend (σ Key : Type) where
  getLocalKey : σ → UInt64 → Except DKGError (Option Key)
  storeLocalKey : σ → UInt64 → Key → Except DKGError σ

variable {σ τ Key Env : Type}

def fetchLocalKeys (db : DKGDbBackend σ Key) (s : σ) (currentSessionId : UInt64) :
    Option Key × Option Key :=
  let nextSessionId := currentSessionId + 1
  let activeLocalKey := (db.getLocalKey s currentSessionId).toOption.join
  let nextLocalKey := (db.getLocalKey s nextSessionId).toOption.join
  (activeLocalKey, nextLocalKey)

inductive Operation (Key : Type) where
  | store (sessionId : UInt64) (localKey : Key)
  | get (sessionId : UInt64)
  | fetch (currentSessionId : UInt64)

inductive Answer (Key : Type) where
  | stored (fault : Option DKGError)
  | loaded (result : Except DKGError (Option Key))
  | fetched (keys : Option Key × Option Key)

/-- A failed call leaves the content as it is. -/
def step (db : Env → DKGDbBackend σ Key) (s : σ) : Env × Operation Key → σ
  | (env, .store sessionId localKey) =>
      match (db env).storeLocalKey s sessionId localKey with
      | .ok s' => s'
      | .error _ => s
  | _ => s

def answer (db : Env → DKGDbBackend σ Key) (s : σ) : Env × Operation Key → List (Answer Key)
  | (env, .store sessionId localKey) =>
      match (db env).storeLocalKey s sessionId localKey with
      | .ok _ => [.stored none]
      | .error fault => [.stored (some fault)]
  | (env, .get sessionId) => [.loaded ((db env).getLocalKey s sessionId)]
  | (env, .fetch currentSessionId) => [.fetched (fetchLocalKeys (db env) s currentSessionId)]

inductive Stored (R : σ → τ → Prop) : Except DKGError σ → Except DKGError τ → Prop where
  | ok {s : σ} {t : τ} (h : R s t) : Stored R (.ok s) (.ok t)
  | error (fault : DKGError) : Stored R (.error fault) (.error fault)

structure Refines (R : σ → τ → Prop) (legal : Key → Prop) (db : DKGDbBackend σ Key)
    (db' : DKGDbBackend τ Key) : Prop where
  get : ∀ {s t}, R s t → ∀ sessionId, db.getLocalKey s sessionId = db'.getLocalKey t sessionId
  store : ∀ {s t}, R s t → ∀ sessionId localKey, legal localKey →
    Stored R (db.storeLocalKey s sessionId localKey) (db'.storeLocalKey t sessionId localKey)

def legalKeys (legal : Key → Prop) : Operation Key → Prop
  | .store _ localKey => legal localKey
  | _ => True

section Refines

variable {R : σ → τ → Prop} {legal : Key → Prop} {db : Env → DKGDbBackend σ Key}
variable {db' : Env → DKGDbBackend τ Key} {s : σ} {t : τ} {c : Env × Operation Key}

theorem related_step (h : Refines R legal (db c.1) (db' c.1)) (hs : R s t)
    (hc : legalKeys legal c.2) : R (step db s c) (step db' t c) := by
  obtain ⟨env, operation⟩ := c
  cases operation with
  | store sessionId localKey =>
      have hstored := h.store hs sessionId localKey hc
      dsimp only at hstored
      simp only [step]
      generalize (db env).storeLocalKey s sessionId localKey = r,
        (db' env).storeLocalKey t sessionId localKey = r' at hstored
      cases hstored with
      | ok hnext => exact hnext
      | error fault => exact hs
  | get sessionId => exact hs
  | fetch currentSessionId => exact hs

theorem answer_eq (h : Refines R legal (db c.1) (db' c.1)) (hs : R s t)
    (hc : legalKeys legal c.2) : answer db s c = answer db' t c := by
  obtain ⟨env, operation⟩ := c
  cases operation with
  | store sessionId localKey =>
      have hstored := h.store hs sessionId localKey hc
      dsimp only at hstored
      simp only [answer]
      generalize (db env).storeLocalKey s sessionId localKey = r,
        (db' env).storeLocalKey t sessionId localKey = r' at hstored
      cases hstored with
      | ok hnext => rfl
      | error fault => rfl
  | get sessionId => rw [answer, answer, h.get hs]
  | fetch currentSessionId =>
      simp only [answer, fetchLocalKeys, h.get hs]

variable {calls : List (Env × Operation Key)}

theorem trace_answer_eq
    (h : ∀ c ∈ calls, Refines R legal (db c.1) (db' c.1) ∧ legalKeys legal c.2) (hs : R s t) :
    trace (step db) (answer db) s calls = trace (step db') (answer db') t calls := by
  have hmeets : StepsMeet (step db)
      (fun _ c => Refines R legal (db c.1) (db' c.1) ∧ legalKeys legal c.2) s calls :=
    stepsMeet_of_forall_mem (fun c hc _ => h c hc) s
  exact trace_related (fun _ _ _ hR hc => related_step hc.1 hR hc.2)
    (fun _ _ _ hR hc => answer_eq hc.1 hR hc.2) hs hmeets

theorem run_related_of_refines
    (h : ∀ c ∈ calls, Refines R legal (db c.1) (db' c.1) ∧ legalKeys legal c.2) (hs : R s t) :
    R (run (step db) s calls) (run (step db') t calls) := by
  have hmeets : StepsMeet (step db)
      (fun _ c => Refines R legal (db c.1) (db' c.1) ∧ legalKeys legal c.2) s calls :=
    stepsMeet_of_forall_mem (fun c hc _ => h c hc) s
  exact run_related (fun _ _ _ hR hc => related_step hc.1 hR hc.2) hs hmeets

end Refines

/-- The database in memory.  The lock is never poisoned. -/
def inMemoryDb : DKGDbBackend (StorageMap UInt64 Key) Key where
  getLocalKey localKeys sessionId := .ok (localKeys.lookup sessionId)
  storeLocalKey localKeys sessionId localKey := .ok (localKeys.insert sessionId localKey)

abbrev Sr25519Public := FixedBytes 32

structure Keystore where
  sr25519PublicKeys : List Sr25519Public
  hasKeys : Sr25519Public → Bool

structure Environment where
  keyStore : Option Keystore
  localKeystore : Option (Sr25519Public → Except String (Option Bytes))
  hasOffchainStorage : Bool

structure Config (Key : Type) where
  cipher : Cipher
  toVec : Key → Except String Bytes
  fromSlice : Bytes → Except String Key
  fromSlice_toVec : ∀ {key bytes}, toVec key = .ok bytes → fromSlice bytes = .ok key

def sr25519PublicKeys : Option Keystore → Except String (List Sr25519Public)
  | none => .error "no Keystore"
  | some store => .ok store.sr25519PublicKeys

def sr25519PublicKey (keyStore : Option Keystore) (keys : List Sr25519Public) :
    Option Sr25519Public :=
  keyStore.bind fun store => (keys.filter store.hasKeys).head?

def secretKey (env : Environment) : Except DKGError Bytes :=
  match sr25519PublicKey env.keyStore
      ((sr25519PublicKeys env.keyStore).toOption.getD []) with
  | none => .error (.criticalError "No sr25519 Keys in the Keystore!!")
  | some publicKey =>
      match env.localKeystore with
      | none => .error (.criticalError "No Local Keystore!!")
      | some keyPair =>
          match keyPair publicKey with
          | .error e =>
              .error (.criticalError ("Error getting key pair from local keystore: " ++ e))
          | .ok none => .error (.criticalError "No Key Pair in the Local Keystore!!")
          | .ok (some pair) => .ok pair

def cipherKey (secretKeyBytes : Bytes) : Bytes × Bytes :=
  (secretKeyBytes.take 32, (secretKeyBytes.drop 32).take 24)

def encryptData (cipher : Cipher) (data secretKeyBytes : Bytes) : Except String Bytes :=
  if secretKeyBytes.length ≠ 64 then .error "Secret key bytes must be 64bytes long"
  else
    match cipher.encrypt (cipherKey secretKeyBytes).1 (cipherKey secretKeyBytes).2 data with
    | some encryptedData => .ok encryptedData
    | none => .error "File encryption failed"

def decryptData (cipher : Cipher) (data secretKeyBytes : Bytes) : Except String Bytes :=
  if secretKeyBytes.length ≠ 64 then .error "Secret key bytes must be 64-bytes long"
  else
    match cipher.decrypt (cipherKey secretKeyBytes).1 (cipherKey secretKeyBytes).2 data with
    | some decryptedData => .ok decryptedData
    | none => .error "File decryption failed"

abbrev OffchainStorage := StorageMap (Bytes × Bytes) Bytes

def storagePrefix : Bytes := [100, 107, 103]

/-- The encoding of a database key: the letters "dkg", the name "local_key" and the session. -/
def dbKey (sessionId : UInt64) : Bytes :=
  [100, 107, 103] ++ [108, 111, 99, 97, 108, 95, 107, 101, 121] ++
    (toBeBytes 8 sessionId.toNat).reverse

def store (env : Environment) (storage : OffchainStorage) (key value : Bytes) :
    Except DKGError OffchainStorage :=
  if env.hasOffchainStorage then .ok (storage.insert (storagePrefix, key) value)
  else .error (.criticalError "No Offchain Storage available!!")

def load (env : Environment) (storage : OffchainStorage) (key : Bytes) :
    Except DKGError (Option Bytes) :=
  if env.hasOffchainStorage then .ok (storage.lookup (storagePrefix, key))
  else .error (.criticalError "No Offchain Storage available!!")

def encryptAndStore (cfg : Config Key) (env : Environment) (storage : OffchainStorage)
    (key value : Bytes) : Except DKGError OffchainStorage := do
  let secretKey ← secretKey env
  let encryptedData ← (encryptData cfg.cipher value secretKey).mapError
    fun e => .criticalError ("Error encrypting data: " ++ e)
  store env storage key encryptedData

def loadAndDecrypt (cfg : Config Key) (env : Environment) (storage : OffchainStorage)
    (key : Bytes) : Except DKGError (Option Bytes) := do
  let secretKey ← secretKey env
  match ← load env storage key with
  | none => return none
  | some encryptedData =>
      let decryptedData ← (decryptData cfg.cipher encryptedData secretKey).mapError
        fun e => .criticalError ("Error decrypting data: " ++ e)
      return some decryptedData

def offchainStorageDb (cfg : Config Key) (env : Environment) :
    DKGDbBackend OffchainStorage Key where
  getLocalKey storage sessionId := do
    match ← loadAndDecrypt cfg env storage (dbKey sessionId) with
    | none => return none
    | some decryptedBytes =>
        let localKey ← (cfg.fromSlice decryptedBytes).mapError .criticalError
        return some localKey
  storeLocalKey storage sessionId localKey := do
    let value ← (cfg.toVec localKey).mapError .criticalError
    encryptAndStore cfg env storage (dbKey sessionId) value

theorem dbKey_injective : Function.Injective dbKey := by
  intro sessionId other h
  have hbytes := List.reverse_injective (List.append_cancel_left h)
  have hvalue := congrArg ofBeBytes hbytes
  rw [ofBeBytes_toBeBytes sessionId.toNat_lt, ofBeBytes_toBeBytes other.toNat_lt] at hvalue
  exact UInt64.toNat_inj.mp hvalue

abbrev LockedKeys (Key : Type) := StorageMap UInt64 ((Bytes × Bytes) × Key)

def requireStorage (env : Environment) : Except DKGError Unit :=
  if env.hasOffchainStorage then .ok ()
  else .error (.criticalError "No Offchain Storage available!!")

def unlock (secret : Bytes) (lock : Bytes × Bytes) (key : Key) : Except DKGError (Option Key) :=
  if secret.length ≠ 64 then
    .error (.criticalError "Error decrypting data: Secret key bytes must be 64-bytes long")
  else if cipherKey secret = lock then .ok (some key)
  else .error (.criticalError "Error decrypting data: File decryption failed")

def checkLockable (cipher : Cipher) (secret value : Bytes) : Except DKGError Unit :=
  if secret.length ≠ 64 then
    .error (.criticalError "Error encrypting data: Secret key bytes must be 64bytes long")
  else if value.length ≤ cipher.maxLength then .ok ()
  else .error (.criticalError "Error encrypting data: File encryption failed")

def lockedDb (cfg : Config Key) (env : Environment) : DKGDbBackend (LockedKeys Key) Key where
  getLocalKey locked sessionId := do
    let secret ← secretKey env
    requireStorage env
    match locked.lookup sessionId with
    | none => return none
    | some (lock, key) => unlock secret lock key
  storeLocalKey locked sessionId localKey := do
    let value ← (cfg.toVec localKey).mapError .criticalError
    let secret ← secretKey env
    checkLockable cfg.cipher secret value
    requireStorage env
    return locked.insert sessionId (cipherKey secret, localKey)

section Locked

variable {cfg : Config Key} {env : Environment} {secrets : List Bytes} {keys : List Key}
variable {storage : OffchainStorage} {locked : LockedKeys Key} {secret value bytes : Bytes}

/-- What is encrypted with one of the secrets does not decrypt with another one, unless the two
agree in the bytes that are used. -/
def Authentic (cfg : Config Key) (secrets : List Bytes) (keys : List Key) : Prop :=
  ∀ secret ∈ secrets, ∀ other ∈ secrets, cipherKey other ≠ cipherKey secret →
    ∀ key ∈ keys, ∀ value bytes, cfg.toVec key = .ok value →
      cfg.cipher.encrypt (cipherKey secret).1 (cipherKey secret).2 value = some bytes →
        cfg.cipher.decrypt (cipherKey other).1 (cipherKey other).2 bytes = none

structure Locks (cfg : Config Key) (secrets : List Bytes) (keys : List Key)
    (storage : OffchainStorage) (locked : LockedKeys Key) : Prop where
  missing : ∀ {sessionId}, locked.lookup sessionId = none →
    storage.lookup (storagePrefix, dbKey sessionId) = none
  kept : ∀ {sessionId lock key}, locked.lookup sessionId = some (lock, key) →
    key ∈ keys ∧ (∃ secret ∈ secrets, cipherKey secret = lock) ∧
      ∃ value bytes, cfg.toVec key = .ok value ∧
        cfg.cipher.encrypt lock.1 lock.2 value = some bytes ∧
        storage.lookup (storagePrefix, dbKey sessionId) = some bytes

theorem locks_empty
    (h : ∀ sessionId, storage.lookup (storagePrefix, dbKey sessionId) = none) :
    Locks cfg secrets keys storage ∅ where
  missing _ := h _
  kept hkept := by cases hkept

theorem Locks.insert (h : Locks cfg secrets keys storage locked) {sessionId : UInt64} {key : Key}
    (hkey : key ∈ keys) (hsecret : secret ∈ secrets) (hvalue : cfg.toVec key = .ok value)
    (hbytes : cfg.cipher.encrypt (cipherKey secret).1 (cipherKey secret).2 value = some bytes) :
    Locks cfg secrets keys (storage.insert (storagePrefix, dbKey sessionId) bytes)
      (locked.insert sessionId (cipherKey secret, key)) where
  missing {other} hother := by
    rw [lookup_insert_eq] at hother
    split at hother
    · cases hother
    · rename_i hne
      rw [lookup_insert_eq, if_neg, h.missing hother]
      exact fun heq => hne (dbKey_injective (Prod.mk.inj heq).2)
  kept {other lock key'} hother := by
    rw [lookup_insert_eq] at hother
    split at hother
    · rename_i heq
      subst heq
      obtain ⟨rfl, rfl⟩ := Prod.mk.inj (Option.some.inj hother)
      exact ⟨hkey, ⟨secret, hsecret, rfl⟩, value, bytes, hvalue, hbytes,
        by rw [lookup_insert_eq, if_pos rfl]⟩
    · rename_i hne
      rw [lookup_insert_eq, if_neg fun heq => hne (dbKey_injective (Prod.mk.inj heq).2)]
      exact h.kept hother

theorem getLocalKey_eq (hauth : Authentic cfg secrets keys)
    (hsecrets : ∀ secret, secretKey env = .ok secret → secret ∈ secrets)
    (h : Locks cfg secrets keys storage locked) (sessionId : UInt64) :
    (offchainStorageDb cfg env).getLocalKey storage sessionId =
      (lockedDb cfg env).getLocalKey locked sessionId := by
  simp only [offchainStorageDb, lockedDb, loadAndDecrypt, load, requireStorage]
  cases hsecret : secretKey env with
  | error fault => rfl
  | ok secret =>
      cases env.hasOffchainStorage with
      | false => rfl
      | true =>
          cases hlocked : locked.lookup sessionId with
          | none =>
              simp only [h.missing hlocked]
              rfl
          | some entry =>
              obtain ⟨lock, key⟩ := entry
              obtain ⟨hkey, ⟨owner, howner, rfl⟩, value, bytes, hvalue, hbytes, hstored⟩ :=
                h.kept hlocked
              simp only [hstored, unlock, decryptData, bind, Except.bind, if_true]
              by_cases hlength : secret.length ≠ 64
              · simp only [if_pos hlength]
                rfl
              · simp only [if_neg hlength]
                by_cases hlock : cipherKey secret = cipherKey owner
                · simp only [hlock, cfg.cipher.decrypt_encrypt hbytes, if_true]
                  simp only [Except.mapError, pure, Except.pure, cfg.fromSlice_toVec hvalue]
                · have hrefused := hauth owner howner secret (hsecrets secret hsecret) hlock key
                    hkey value bytes hvalue hbytes
                  simp only [hrefused, if_neg hlock]
                  rfl

theorem stored_storeLocalKey
    (hsecrets : ∀ secret, secretKey env = .ok secret → secret ∈ secrets)
    (h : Locks cfg secrets keys storage locked) (sessionId : UInt64) {localKey : Key}
    (hkey : localKey ∈ keys) :
    Stored (Locks cfg secrets keys)
      ((offchainStorageDb cfg env).storeLocalKey storage sessionId localKey)
      ((lockedDb cfg env).storeLocalKey locked sessionId localKey) := by
  simp only [offchainStorageDb, lockedDb, encryptAndStore, store, requireStorage]
  cases hvalue : cfg.toVec localKey with
  | error fault => exact .error _
  | ok value =>
      cases hsecret : secretKey env with
      | error fault => exact .error _
      | ok secret =>
          simp only [Except.mapError, bind, Except.bind, encryptData, checkLockable]
          by_cases hlength : secret.length ≠ 64
          · simp only [if_pos hlength]
            exact .error _
          · simp only [if_neg hlength]
            cases hbytes : cfg.cipher.encrypt (cipherKey secret).1 (cipherKey secret).2 value with
            | none =>
                simp only [if_neg (not_le.mpr (encrypt_eq_none.mp hbytes))]
                exact .error _
            | some bytes =>
                simp only [if_pos (length_le_of_encrypt hbytes)]
                cases env.hasOffchainStorage with
                | false => exact .error _
                | true => exact .ok (h.insert hkey (hsecrets secret hsecret) hvalue hbytes)

theorem refines_lockedDb (hauth : Authentic cfg secrets keys)
    (hsecrets : ∀ secret, secretKey env = .ok secret → secret ∈ secrets) :
    Refines (Locks cfg secrets keys) (· ∈ keys) (offchainStorageDb cfg env)
      (lockedDb cfg env) where
  get h := getLocalKey_eq hauth hsecrets h
  store h sessionId _ := stored_storeLocalKey hsecrets h sessionId

end Locked

def secretsOf (calls : List (Environment × Operation Key)) : List Bytes :=
  calls.filterMap fun c => (secretKey c.1).toOption

def keyOf : Operation Key → Option Key
  | .store _ localKey => some localKey
  | _ => none

def keysOf (calls : List (Environment × Operation Key)) : List Key :=
  calls.filterMap fun c => keyOf c.2

section Runs

variable {cfg : Config Key} {calls : List (Environment × Operation Key)}
variable {storage : OffchainStorage}

theorem mem_secretsOf {c : Environment × Operation Key} (hc : c ∈ calls) {secret : Bytes}
    (h : secretKey c.1 = .ok secret) : secret ∈ secretsOf calls :=
  List.mem_filterMap.mpr ⟨c, hc, by rw [h]; rfl⟩

theorem legalKeys_of_mem {c : Environment × Operation Key} (hc : c ∈ calls) :
    legalKeys (· ∈ keysOf calls) c.2 := by
  obtain ⟨env, operation⟩ := c
  cases operation with
  | store sessionId localKey => exact List.mem_filterMap.mpr ⟨_, hc, rfl⟩
  | get sessionId => trivial
  | fetch currentSessionId => trivial

theorem refines_of_mem (hauth : Authentic cfg (secretsOf calls) (keysOf calls)) :
    ∀ c ∈ calls, Refines (Locks cfg (secretsOf calls) (keysOf calls)) (· ∈ keysOf calls)
      (offchainStorageDb cfg c.1) (lockedDb cfg c.1) ∧ legalKeys (· ∈ keysOf calls) c.2 :=
  fun _ hc => ⟨refines_lockedDb hauth fun _ => mem_secretsOf hc, legalKeys_of_mem hc⟩

/-- Whatever the keystores hold at each call, the database answers as one that keeps the keys
themselves, locked: no call ever gets another key than the last one that was stored for the
session, and after a change of the secret it gets an error. -/
theorem answers_eq_lockedDb (hauth : Authentic cfg (secretsOf calls) (keysOf calls))
    (hnew : ∀ sessionId, storage.lookup (storagePrefix, dbKey sessionId) = none) :
    trace (step (offchainStorageDb cfg)) (answer (offchainStorageDb cfg)) storage calls =
      trace (step (lockedDb cfg)) (answer (lockedDb cfg)) ∅ calls :=
  trace_answer_eq (refines_of_mem hauth) (locks_empty hnew)

end Runs

section Samples

def sampleStream (key _ : Bytes) (i : ℕ) : UInt8 := key.headD 0 + UInt8.ofNat i

def sampleEncrypt (key nonce data : Bytes) : Option Bytes :=
  if data.length ≤ 100 then some (mask (sampleStream key nonce) data ++ [key.headD 0]) else none

def sampleDecrypt (key nonce bytes : Bytes) : Option Bytes :=
  if bytes.getLast? = some (key.headD 0) then some (mask (sampleStream key nonce) bytes.dropLast)
  else none

theorem sampleEncrypt_eq_some {key nonce data bytes : Bytes} :
    sampleEncrypt key nonce data = some bytes ↔
      data.length ≤ 100 ∧ bytes = mask (sampleStream key nonce) data ++ [key.headD 0] := by
  rw [sampleEncrypt]
  split
  · rename_i hlength
    rw [Option.some.injEq, and_iff_right hlength, eq_comm]
  · rename_i hlength
    exact iff_of_false nofun fun h => hlength h.1

theorem sampleDecrypt_sampleEncrypt {key nonce data bytes : Bytes}
    (h : sampleEncrypt key nonce data = some bytes) :
    sampleDecrypt key nonce bytes = some data := by
  obtain ⟨-, rfl⟩ := sampleEncrypt_eq_some.mp h
  rw [sampleDecrypt, List.getLast?_concat, if_pos rfl, List.dropLast_concat, mask_mask]

theorem isSome_sampleEncrypt (key nonce data : Bytes) :
    (sampleEncrypt key nonce data).isSome = true ↔ data.length ≤ 100 := by
  rw [Option.isSome_iff_exists]
  constructor
  · rintro ⟨bytes, hbytes⟩
    exact (sampleEncrypt_eq_some.mp hbytes).1
  · intro hlength
    exact ⟨_, sampleEncrypt_eq_some.mpr ⟨hlength, rfl⟩⟩

def sampleCipher : Cipher where
  encrypt := sampleEncrypt
  decrypt := sampleDecrypt
  maxLength := 100
  decrypt_encrypt := sampleDecrypt_sampleEncrypt
  isSome_encrypt := isSome_sampleEncrypt

theorem masks_sampleCipher : sampleCipher.Masks sampleStream := by
  intro key nonce data bytes h
  obtain ⟨-, rfl⟩ := sampleEncrypt_eq_some.mp h
  exact List.prefix_append _ _

theorem sampleDecrypt_eq_none {key key' nonce nonce' data bytes : Bytes}
    (h : sampleEncrypt key nonce data = some bytes) (hne : key.headD 0 ≠ key'.headD 0) :
    sampleDecrypt key' nonce' bytes = none := by
  obtain ⟨-, rfl⟩ := sampleEncrypt_eq_some.mp h
  rw [sampleDecrypt, List.getLast?_concat, if_neg]
  exact fun heq => hne (Option.some.inj heq)

def sampleConfig : Config UInt8 where
  cipher := sampleCipher
  toVec key := .ok [key]
  fromSlice
    | [key] => .ok key
    | _ => .error "expected one byte"
  fromSlice_toVec h := by
    obtain rfl := Except.ok.inj h
    rfl

def sampleEnvironment (b : UInt8) : Environment where
  keyStore := some
    { sr25519PublicKeys := [List.Vector.replicate 32 0], hasKeys := fun _ => true }
  localKeystore := some fun _ => .ok (some (List.replicate 64 b))
  hasOffchainStorage := true

def sampleCalls : List (Environment × Operation UInt8) :=
  [(sampleEnvironment 1, .store 5 10), (sampleEnvironment 2, .get 5),
    (sampleEnvironment 2, .store 6 11), (sampleEnvironment 1, .fetch 5)]

theorem authentic_sample :
    Authentic sampleConfig (secretsOf sampleCalls) (keysOf sampleCalls) := by
  have hsecrets : ∀ secret ∈ secretsOf sampleCalls,
      secret = List.replicate 64 1 ∨ secret = List.replicate 64 2 := by
    decide +kernel
  intro secret hsecret other hother hne key _ value bytes _ hbytes
  refine sampleDecrypt_eq_none hbytes ?_
  rcases hsecrets secret hsecret with rfl | rfl
  · rcases hsecrets other hother with rfl | rfl
    · exact absurd rfl hne
    · decide
  · rcases hsecrets other hother with rfl | rfl
    · decide
    · exact absurd rfl hne

theorem answers_eq_lockedDb_sample :
    trace (step (offchainStorageDb sampleConfig)) (answer (offchainStorageDb sampleConfig)) ∅
        sampleCalls =
      trace (step (lockedDb sampleConfig)) (answer (lockedDb sampleConfig)) ∅ sampleCalls :=
  answers_eq_lockedDb authentic_sample fun _ => rfl

end Samples

section Memory

variable {cfg : Config Key} {env : Environment} {secret : Bytes} {storage : OffchainStorage}

def LockedWith (lock : Bytes × Bytes) (locked : LockedKeys Key)
    (localKeys : StorageMap UInt64 Key) : Prop :=
  ∀ sessionId, locked.lookup sessionId = (localKeys.lookup sessionId).map (lock, ·)

def Fits (cfg : Config Key) (key : Key) : Prop :=
  ∃ value, cfg.toVec key = .ok value ∧ value.length ≤ cfg.cipher.maxLength

/-- The node has a secret of the right length, and its offchain storage. -/
structure Works (env : Environment) (secret : Bytes) : Prop where
  secretKey_eq : secretKey env = .ok secret
  length : secret.length = 64
  storage : env.hasOffchainStorage = true

theorem refines_inMemoryDb (h : Works env secret) :
    Refines (LockedWith (cipherKey secret)) (Fits cfg) (lockedDb cfg env) inMemoryDb where
  get {locked localKeys} hlocked sessionId := by
    simp only [lockedDb, inMemoryDb, h.secretKey_eq, requireStorage, h.storage, hlocked sessionId]
    cases localKeys.lookup sessionId with
    | none => rfl
    | some key =>
        simp only [Option.map_some, unlock, bind, Except.bind, if_true]
        rw [if_neg (not_not.mpr h.length)]
  store {locked localKeys} hlocked sessionId localKey hfits := by
    obtain ⟨value, hvalue, hlength⟩ := hfits
    simp only [lockedDb, inMemoryDb, hvalue, h.secretKey_eq, checkLockable, requireStorage,
      h.storage, Except.mapError, bind, Except.bind, if_true]
    rw [if_neg (not_not.mpr h.length), if_pos hlength]
    refine .ok (R := LockedWith _) fun other => ?_
    rw [lookup_insert_eq, lookup_insert_eq]
    split
    · rfl
    · exact hlocked other

variable {operations : List (Operation Key)}

theorem authentic_of_works (h : Works env secret) (keys : List Key) :
    Authentic cfg (secretsOf (operations.map (env, ·))) keys := by
  have hsecrets : ∀ other ∈ secretsOf (operations.map (env, ·)), other = secret := by
    intro other hother
    obtain ⟨c, hc, hsome⟩ := List.mem_filterMap.mp hother
    obtain ⟨operation, -, rfl⟩ := List.mem_map.mp hc
    rw [h.secretKey_eq] at hsome
    exact (Option.some.inj hsome).symm
  intro first hfirst second hsecond hne
  rw [hsecrets first hfirst, hsecrets second hsecond] at hne
  exact absurd rfl hne

theorem refines_inMemoryDb_of_mem (h : Works env secret)
    (hkeys : ∀ operation ∈ operations, ∀ key ∈ keyOf operation, Fits cfg key) :
    ∀ c ∈ operations.map (env, ·), Refines (LockedWith (cipherKey secret)) (Fits cfg)
      (lockedDb cfg c.1) inMemoryDb ∧ legalKeys (Fits cfg) c.2 := by
  intro c hc
  obtain ⟨operation, hoperation, rfl⟩ := List.mem_map.mp hc
  refine ⟨refines_inMemoryDb h, ?_⟩
  cases operation with
  | store sessionId localKey => exact hkeys _ hoperation localKey rfl
  | get sessionId => trivial
  | fetch currentSessionId => trivial

/-- As long as the node keeps its secret, the database in the offchain storage is
indistinguishable from the one in memory. -/
theorem answers_eq_inMemoryDb (h : Works env secret)
    (hkeys : ∀ operation ∈ operations, ∀ key ∈ keyOf operation, Fits cfg key)
    (hnew : ∀ sessionId, storage.lookup (storagePrefix, dbKey sessionId) = none) :
    trace (step (offchainStorageDb cfg)) (answer (offchainStorageDb cfg)) storage
        (operations.map (env, ·)) =
      trace (step fun _ => inMemoryDb) (answer fun _ => inMemoryDb) ∅
        (operations.map (env, ·)) := by
  rw [trace_answer_eq (refines_of_mem (authentic_of_works h _)) (locks_empty hnew)]
  exact trace_answer_eq (refines_inMemoryDb_of_mem h hkeys) fun _ => rfl

end Memory

section Samples

def sampleOperations : List (Operation UInt8) :=
  [.get 5, .store 5 10, .store 6 11, .store 5 12, .fetch 5]

theorem works_sample : Works (sampleEnvironment 1) (List.replicate 64 1) :=
  ⟨rfl, by decide, rfl⟩

theorem fits_sample : ∀ operation ∈ sampleOperations, ∀ key ∈ keyOf operation,
    Fits sampleConfig key := by
  intro operation _ key _
  exact ⟨[key], rfl, Nat.one_le_ofNat⟩

theorem answers_eq_inMemoryDb_sample :
    trace (step (offchainStorageDb sampleConfig)) (answer (offchainStorageDb sampleConfig)) ∅
        (sampleOperations.map (sampleEnvironment 1, ·)) =
      trace (step fun _ => inMemoryDb) (answer fun _ => inMemoryDb) ∅
        (sampleOperations.map (sampleEnvironment 1, ·)) :=
  answers_eq_inMemoryDb works_sample fits_sample fun _ => rfl

end Samples

section Memory

variable {cfg : Config Key} {env : Environment} {secret : Bytes} {storage : OffchainStorage}
variable {operations : List (Operation Key)}

/-- All keys are encrypted under the same key and the same nonce.  Whoever reads the storage and
knows the key of one session can compute those of the others, without the secret. -/
theorem session_keys_revealed {keystream : Bytes → Bytes → ℕ → UInt8}
    (hmasks : cfg.cipher.Masks keystream) (h : Works env secret)
    (hkeys : ∀ operation ∈ operations, ∀ key ∈ keyOf operation, Fits cfg key)
    (hnew : ∀ sessionId, storage.lookup (storagePrefix, dbKey sessionId) = none)
    {localKeys : StorageMap UInt64 Key}
    (hlocal : localKeys = run (step fun _ => inMemoryDb) ∅ (operations.map (env, ·)))
    {first second : UInt64} {known other : Key} (hfirst : localKeys.lookup first = some known)
    (hsecond : localKeys.lookup second = some other) :
    ∃ value bytes value' bytes', cfg.toVec known = .ok value ∧ cfg.toVec other = .ok value' ∧
      (run (step (offchainStorageDb cfg)) storage (operations.map (env, ·))).lookup
        (storagePrefix, dbKey first) = some bytes ∧
      (run (step (offchainStorageDb cfg)) storage (operations.map (env, ·))).lookup
        (storagePrefix, dbKey second) = some bytes' ∧
      (reveal value bytes bytes').take value'.length = value'.take value.length := by
  let calls := operations.map (env, ·)
  have hlocks : Locks cfg (secretsOf calls) (keysOf calls)
      (run (step (offchainStorageDb cfg)) storage calls) (run (step (lockedDb cfg)) ∅ calls) :=
    run_related_of_refines (refines_of_mem (authentic_of_works h _)) (locks_empty hnew)
  have hlocked : LockedWith (cipherKey secret) (run (step (lockedDb cfg)) ∅ calls) localKeys := by
    rw [hlocal]
    exact run_related_of_refines (refines_inMemoryDb_of_mem h hkeys) fun _ => rfl
  have hfirst' := hlocked first
  have hsecond' := hlocked second
  rw [hfirst] at hfirst'
  rw [hsecond] at hsecond'
  obtain ⟨-, -, value, bytes, hvalue, hbytes, hstored⟩ := hlocks.kept hfirst'
  obtain ⟨-, -, value', bytes', hvalue', hbytes', hstored'⟩ := hlocks.kept hsecond'
  exact ⟨value, bytes, value', bytes', hvalue, hvalue', hstored, hstored',
    take_reveal hmasks hbytes hbytes'⟩

end Memory

theorem session_keys_revealed_sample :
    ∃ value bytes value' bytes', sampleConfig.toVec 12 = .ok value ∧
      sampleConfig.toVec 11 = .ok value' ∧
      (run (step (offchainStorageDb sampleConfig)) ∅
        (sampleOperations.map (sampleEnvironment 1, ·))).lookup (storagePrefix, dbKey 5) =
          some bytes ∧
      (run (step (offchainStorageDb sampleConfig)) ∅
        (sampleOperations.map (sampleEnvironment 1, ·))).lookup (storagePrefix, dbKey 6) =
          some bytes' ∧
      (reveal value bytes bytes').take value'.length = value'.take value.length :=
  session_keys_revealed masks_sampleCipher works_sample fits_sample (fun _ => rfl) rfl
    (by decide) (by decide)

end DkgSubstrate.KeyDatabase
