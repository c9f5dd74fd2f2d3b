import Mathlib.Algebra.Group.Nat.Defs
import Mathlib.Data.List.Basic

/-!
Merkle trees over lists of nodes, layer by layer.
-/

namespace DkgSubstrate.Merkle

universe u

variable {α : Type u} (node : α → α → α)

/-- The layer above.  There is none if an entry has no partner. -/
def pairUp : List α → Option (List α)
  | [] => some []
  | [_] => none
  | left :: right :: rest => (pairUp rest).map fun above => node left right :: above

def ascend : ℕ → List α → Option (List α)
  | 0, layer => some layer
  | height + 1, layer => (pairUp node layer).bind (ascend height)

def layerPairs : List α → List (α × α)
  | left :: right :: rest => (left, right) :: layerPairs rest
  | _ => []

def ascentPairs : ℕ → List α → List (α × α)
  | 0, _ => []
  | height + 1, layer =>
      layerPairs layer ++ ((pairUp node layer).map (ascentPairs height)).getD []

/-- The siblings on the way from an entry to the root, and whether they are on the left. -/
def siblingPath : ℕ → ℕ → List α → Option (List (Bool × α))
  | 0, _, _ => some []
  | height + 1, i, layer =>
      match layer[if i % 2 = 0 then i + 1 else i - 1]?, pairUp node layer with
      | some sibling, some above =>
          (siblingPath height (i / 2) above).map fun path => (i % 2 == 1, sibling) :: path
      | _, _ => none

def pathRoot (leaf : α) (path : List (Bool × α)) : α :=
  path.foldl (fun acc step => if step.1 then node step.2 acc else node acc step.2) leaf

variable {node} {layer layer' above : List α} {root : α}

theorem exists_pairUp (node : α → α → α) {n : ℕ} (h : layer.length = 2 * n) :
    ∃ above, pairUp node layer = some above ∧ above.length = n := by
  induction n generalizing layer with
  | zero =>
      obtain rfl : layer = [] := List.length_eq_zero_iff.mp h
      exact ⟨[], rfl, rfl⟩
  | succ n ih =>
      match layer, h with
      | left :: right :: rest, h =>
          simp only [List.length_cons] at h
          have hrest : rest.length = 2 * n := by omega
          obtain ⟨above, habove, hlength⟩ := ih hrest
          exact ⟨node left right :: above, by rw [pairUp, habove]; rfl, by simp [hlength]⟩

theorem getElem?_pairUp (h : pairUp node layer = some above) (i : ℕ) {left right : α}
    (hleft : layer[2 * i]? = some left) (hright : layer[2 * i + 1]? = some right) :
    above[i]? = some (node left right) := by
  induction layer using pairUp.induct generalizing above i with
  | case1 => simp at hleft
  | case2 a =>
      cases i with
      | zero => simp at hright
      | succ i => simp at hleft
  | case3 a b rest ih =>
      rw [pairUp, Option.map_eq_some_iff] at h
      obtain ⟨above', habove', rfl⟩ := h
      cases i with
      | zero =>
          simp only [Nat.mul_zero, List.getElem?_cons_zero, Option.some.injEq] at hleft
          simp only [Nat.mul_zero, Nat.zero_add, List.getElem?_cons_succ,
            List.getElem?_cons_zero, Option.some.injEq] at hright
          simp [hleft, hright]
      | succ i =>
          rw [Nat.mul_succ] at hleft hright
          simp only [List.getElem?_cons_succ] at hleft hright ⊢
          exact ih habove' i hleft hright

theorem exists_ascend (node : α → α → α) {height k : ℕ} (h : layer.length = 2 ^ height)
    (hk : k ≤ height) :
    ∃ upper, ascend node k layer = some upper ∧ upper.length = 2 ^ (height - k) := by
  induction k generalizing layer height with
  | zero => exact ⟨layer, rfl, h⟩
  | succ k ih =>
      obtain ⟨height, rfl⟩ : ∃ n, height = n + 1 := ⟨height - 1, by omega⟩
      have hdouble : layer.length = 2 * 2 ^ height := by rw [h, Nat.pow_succ, Nat.mul_comm]
      obtain ⟨above, habove, hlength⟩ := exists_pairUp node hdouble
      obtain ⟨upper, hupper, hsize⟩ := ih hlength (Nat.le_of_succ_le_succ hk)
      refine ⟨upper, by rw [ascend, habove, Option.bind_some, hupper], ?_⟩
      rw [hsize, Nat.succ_sub_succ]

theorem exists_root (node : α → α → α) {height : ℕ} (h : layer.length = 2 ^ height) :
    ∃ root, ascend node height layer = some [root] := by
  obtain ⟨upper, hupper, hsize⟩ := exists_ascend node h (Nat.le_refl height)
  rw [Nat.sub_self, Nat.pow_zero] at hsize
  obtain ⟨root, rfl⟩ := List.length_eq_one_iff.mp hsize
  exact ⟨root, hupper⟩

theorem exists_sibling {n i : ℕ} {leaf : α} (h : layer.length = 2 * n)
    (habove : pairUp node layer = some above) (hleaf : layer[i]? = some leaf) :
    ∃ sibling, layer[if i % 2 = 0 then i + 1 else i - 1]? = some sibling ∧
      above[i / 2]? = some (if i % 2 == 1 then node sibling leaf else node leaf sibling) := by
  obtain ⟨hi, -⟩ := List.getElem?_eq_some_iff.mp hleaf
  obtain ⟨k, rfl | rfl⟩ : ∃ k, i = 2 * k ∨ i = 2 * k + 1 := ⟨i / 2, by omega⟩
  · have hsibling : layer[2 * k + 1]? = some layer[2 * k + 1] :=
      List.getElem?_eq_getElem (by omega)
    refine ⟨_, by rw [if_pos (by omega), hsibling], ?_⟩
    rw [Nat.mul_div_cancel_left k Nat.two_pos, getElem?_pairUp habove k hleaf hsibling]
    simp
  · have hsibling : layer[2 * k]? = some layer[2 * k] := List.getElem?_eq_getElem (by omega)
    refine ⟨_, by rw [if_neg (by omega), Nat.add_sub_cancel, hsibling], ?_⟩
    rw [show (2 * k + 1) / 2 = k by omega, getElem?_pairUp habove k hsibling hleaf]
    simp [Nat.add_mod]

theorem pathRoot_siblingPath {height : ℕ} (h : layer.length = 2 ^ height)
    (hroot : ascend node height layer = some [root]) {i : ℕ} {leaf : α}
    (hleaf : layer[i]? = some leaf) :
    ∃ path, siblingPath node height i layer = some path ∧ path.length = height ∧
      pathRoot node leaf path = root := by
  induction height generalizing layer i leaf with
  | zero =>
      obtain rfl : layer = [root] := Option.some.inj hroot
      obtain rfl : root = leaf := by
        rw [List.getElem?_singleton] at hleaf
        split at hleaf
        · exact Option.some.inj hleaf
        · cases hleaf
      exact ⟨[], rfl, rfl, rfl⟩
  | succ height ih =>
      have hdouble : layer.length = 2 * 2 ^ height := by rw [h, Nat.pow_succ, Nat.mul_comm]
      obtain ⟨above, habove, hlength⟩ := exists_pairUp node hdouble
      rw [ascend, habove, Option.bind_some] at hroot
      obtain ⟨sibling, hsibling, hparent⟩ := exists_sibling hdouble habove hleaf
      obtain ⟨path, hpath, hheight, hfold⟩ := ih hlength hroot hparent
      refine ⟨(i % 2 == 1, sibling) :: path, ?_, by rw [List.length_cons, hheight], hfold⟩
      rw [siblingPath, hsibling, habove]
      simp only [hpath, Option.map_some]

theorem pairUp_injective (hlength : layer.length = layer'.length)
    (h : pairUp node layer = some above) (h' : pairUp node layer' = some above)
    (hinj : ∀ p ∈ layerPairs layer, ∀ p' ∈ layerPairs layer',
      node p.1 p.2 = node p'.1 p'.2 → p = p') : layer = layer' := by
  induction layer using pairUp.induct generalizing layer' above with
  | case1 => exact (List.length_eq_zero_iff.mp hlength.symm).symm
  | case2 a => cases h
  | case3 a b rest ih =>
      match layer', hlength with
      | c :: d :: rest', hlength =>
          rw [pairUp, Option.map_eq_some_iff] at h h'
          obtain ⟨upper, hupper, rfl⟩ := h
          obtain ⟨upper', hupper', heq⟩ := h'
          obtain ⟨hnode, rfl⟩ := List.cons.inj heq
          have hpair : (a, b) = (c, d) := hinj (a, b) List.mem_cons_self (c, d)
            List.mem_cons_self hnode.symm
          obtain ⟨rfl, rfl⟩ := Prod.mk.inj hpair
          rw [ih (by simpa using hlength) hupper hupper' ?_]
          intro p hp p' hp'
          exact hinj p (List.mem_cons_of_mem _ hp) p' (List.mem_cons_of_mem _ hp')

theorem ascend_injective {height : ℕ} (h : layer.length = 2 ^ height)
    (h' : layer'.length = 2 ^ height) (hroot : ascend node height layer = some [root])
    (hroot' : ascend node height layer' = some [root])
    (hinj : ∀ p ∈ ascentPairs node height layer, ∀ p' ∈ ascentPairs node height layer',
      node p.1 p.2 = node p'.1 p'.2 → p = p') : layer = layer' := by
  induction height generalizing layer layer' with
  | zero => exact Option.some.inj (hroot.trans hroot'.symm)
  | succ height ih =>
      have hdouble : 2 ^ (height + 1) = 2 * 2 ^ height := by rw [Nat.pow_succ, Nat.mul_comm]
      obtain ⟨above, habove, hlength⟩ := exists_pairUp node (h.trans hdouble)
      obtain ⟨above', habove', hlength'⟩ := exists_pairUp node (h'.trans hdouble)
      rw [ascend, habove, Option.bind_some] at hroot
      rw [ascend, habove', Option.bind_some] at hroot'
      simp only [ascentPairs, habove, habove', Option.map_some, Option.getD_some,
        List.mem_append] at hinj
      obtain rfl : above = above' := ih hlength hlength' hroot hroot' fun p hp p' hp' =>
        hinj p (.inr hp) p' (.inr hp')
      exact pairUp_injective (h.trans h'.symm) habove habove' fun p hp p' hp' =>
        hinj p (.inl hp) p' (.inl hp')

end DkgSubstrate.Merkle
