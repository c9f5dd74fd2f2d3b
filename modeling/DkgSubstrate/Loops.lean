import Mathlib.Logic.Basic

/-!
While loops, as the relation between the states before and after.
-/

namespace DkgSubstrate.Loops

universe u

variable {σ : Type u}

/-- The loop with the condition and the body terminates and leaves the second state. -/
inductive Exits (cond : σ → Bool) (body : σ → σ) : σ → σ → Prop
  | done {s : σ} (h : cond s = false) : Exits cond body s s
  | next {s t : σ} (h : cond s = true) (hrest : Exits cond body (body s) t) :
      Exits cond body s t

variable {cond : σ → Bool} {body : σ → σ} {s t : σ}

/-- What the body keeps while the condition holds is true at the end, and the condition is
not. -/
theorem Exits.invariant (h : Exits cond body s t) {Inv : σ → Prop}
    (hbody : ∀ s, cond s = true → Inv s → Inv (body s)) (hs : Inv s) :
    Inv t ∧ cond t = false := by
  induction h with
  | done hfalse => exact ⟨hs, hfalse⟩
  | next htrue _ ih => exact ih (hbody _ htrue hs)

end DkgSubstrate.Loops
