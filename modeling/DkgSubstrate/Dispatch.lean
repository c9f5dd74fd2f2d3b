import Mathlib.Data.List.Basic

/-!
The outcome of dispatched calls.  An extrinsic that fails or panics leaves no trace,
so its outcome is either the new state or the fault.
-/

namespace DkgSubstrate.Dispatch

universe u v

inductive Origin (AccountId : Type u) where
  | root
  | signed (account : AccountId)
  | none
deriving DecidableEq

inductive MetadataError where
  | invalidThreshold
  | invalidPublicKeys
  | alreadySubmittedPublicKey
  | alreadySubmittedSignature
  | usedSignature
  | invalidSignature
  | invalidMisbehaviourReports
  | noRefreshProposal
  | invalidRefreshProposal
  | noNextPublicKey
  | invalidControllerAccount
  | outOfBounds
  | cannotRetreiveSigner
  | proposalNotSigned
  | offenderNotAuthority
  | alreadyJailed
  | notEnoughAuthoritiesToJail
deriving DecidableEq

inductive ProposalHandlerError where
  | proposalFormatInvalid
  | proposalMustBeUnsigned
  | invalidProposalBytesLength
  | proposalSignatureInvalid
  | proposalDoesNotExists
  | proposalsLengthOverflow
  | cannotOverwriteSignedProposal
  | unsignedProposalQueueOverflow
  | arithmeticOverflow
  | emptyBatch
  | notSignedByCurrentDKG
  | invalidSignedData
  | proposalExistsAndIsValid
  | proposalBatchNotFound
deriving DecidableEq

inductive BridgeRegistryError where
  | parametersNotInitialized
  | verifyError
  | proposalNotSigned
  | bridgeIndexError
  | tooManyFields
  | bridgeNotFound
  | tooManyResources
  | outOfBounds
deriving DecidableEq

inductive ProposalsError where
  | invalidChainId
  | invalidThreshold
  | chainNotWhitelisted
  | chainAlreadyWhitelisted
  | resourceDoesNotExist
  | mustBeProposer
  | proposerAlreadyVoted
  | proposalDoesNotExist
  | proposalAlreadyComplete
  | proposalExpired
  | outOfBounds
  | invalidProposal
deriving DecidableEq

inductive DispatchError where
  | badOrigin
  | metadata (error : MetadataError)
  | proposalHandler (error : ProposalHandlerError)
  | bridgeRegistry (error : BridgeRegistryError)
  | proposals (error : ProposalsError)
deriving DecidableEq

inductive Fault where
  | error (error : DispatchError)
  | panic
deriving DecidableEq

abbrev Outcome (α : Type u) := Except Fault α

def ensure (p : Prop) [Decidable p] (e : DispatchError) : Outcome Unit :=
  if p then .ok () else .error (.error e)

def okOr {α : Type u} (o : Option α) (e : DispatchError) : Outcome α :=
  match o with
  | some a => .ok a
  | none => .error (.error e)

def expect {α : Type u} (o : Option α) : Outcome α :=
  match o with
  | some a => .ok a
  | none => .error .panic

/-- The state after a transactional call. -/
def commit {σ : Type u} (s : σ) : Outcome σ → σ
  | .ok s' => s'
  | .error _ => s

theorem bind_eq_ok {ε : Type v} {α β : Type u} {x : Except ε α} {f : α → Except ε β} {b : β} :
    (x >>= f) = .ok b ↔ ∃ a, x = .ok a ∧ f a = .ok b := by
  cases x <;> simp [bind, Except.bind]

theorem mapError_eq_ok {ε ε' : Type v} {α : Type u} {x : Except ε α} {f : ε → ε'} {a : α} :
    x.mapError f = .ok a ↔ x = .ok a := by
  cases x <;> simp [Except.mapError]

theorem mapError_eq_error {ε ε' : Type v} {α : Type u} {x : Except ε α} {f : ε → ε'} {e : ε'} :
    x.mapError f = .error e ↔ ∃ err, x = .error err ∧ f err = e := by
  cases x <;> simp [Except.mapError]

theorem exists_bind_eq_ok {α β : Type u} {x : Outcome α} {f : α → Outcome β} :
    (∃ b, (x >>= f) = .ok b) ↔ ∃ a, x = .ok a ∧ ∃ b, f a = .ok b := by
  cases x <;> simp [bind, Except.bind]

theorem map_eq_ok {α β : Type u} {x : Outcome α} {f : α → β} {b : β} :
    x.map f = .ok b ↔ ∃ a, x = .ok a ∧ f a = b := by
  cases x <;> simp [Except.map]

@[simp] theorem ensure_eq_ok {p : Prop} [Decidable p] {e : DispatchError} {u : Unit} :
    ensure p e = .ok u ↔ p := by
  rw [ensure]
  split <;> simp_all

@[simp] theorem okOr_eq_ok {α : Type u} {o : Option α} {e : DispatchError} {a : α} :
    okOr o e = .ok a ↔ o = some a := by
  cases o <;> simp [okOr]

@[simp] theorem expect_eq_ok {α : Type u} {o : Option α} {a : α} :
    expect o = .ok a ↔ o = some a := by
  cases o <;> simp [expect]

theorem bind_eq_error {ε : Type v} {α β : Type u} {x : Except ε α} {f : α → Except ε β} {e : ε} :
    (x >>= f) = .error e ↔ x = .error e ∨ ∃ a, x = .ok a ∧ f a = .error e := by
  cases x <;> simp [bind, Except.bind]

theorem map_eq_error {α β : Type u} {x : Outcome α} {f : α → β} {e : Fault} :
    x.map f = .error e ↔ x = .error e := by
  cases x <;> simp [Except.map]

theorem ensure_eq_error {p : Prop} [Decidable p] {e : DispatchError} {e' : Fault} :
    ensure p e = .error e' ↔ ¬p ∧ e' = .error e := by
  rw [ensure]
  split <;> simp_all [eq_comm]

theorem okOr_eq_error {α : Type u} {o : Option α} {e : DispatchError} {e' : Fault} :
    okOr o e = .error e' ↔ o = none ∧ e' = .error e := by
  cases o <;> simp [okOr, eq_comm]

@[simp] theorem ensure_ne_panic (p : Prop) [Decidable p] (e : DispatchError) :
    ensure p e ≠ .error .panic := by
  rw [ensure]
  split <;> simp

@[simp] theorem okOr_ne_panic {α : Type u} (o : Option α) (e : DispatchError) :
    okOr o e ≠ .error .panic := by
  cases o <;> simp [okOr]

@[simp] theorem commit_ok {σ : Type u} (s s' : σ) : commit s (.ok s') = s' := rfl

@[simp] theorem commit_error {σ : Type u} (s : σ) (f : Fault) :
    commit s (.error f) = s := rfl

theorem eq_ok_commit {σ : Type u} (s : σ) {r : Outcome σ} (h : r.isOk = true) :
    r = .ok (commit s r) := by
  cases r with
  | ok s' => rfl
  | error f => cases h

theorem commit_cases {σ : Type u} {P : σ → Prop} {s : σ} {r : Outcome σ}
    (hfail : P s) (hok : ∀ s', r = .ok s' → P s') : P (commit s r) := by
  cases r with
  | ok s' => exact hok s' rfl
  | error f => exact hfail

end DkgSubstrate.Dispatch
