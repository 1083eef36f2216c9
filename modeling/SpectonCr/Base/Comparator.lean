import Mathlib

namespace SpectonCr.Comparator

open Std

variable {α β : Type}

/-- The elements compared by their images. -/
def on (cmp : α → α → Ordering) (image : β → α) (x y : β) : Ordering := cmp (image x) (image y)

instance (cmp : α → α → Ordering) [TransCmp cmp] (image : β → α) : TransCmp (on cmp image) where
  eq_swap {x y} := @OrientedCmp.eq_swap _ cmp _ (image x) (image y)
  isLE_trans {x y z} := @TransCmp.isLE_trans _ cmp _ (image x) (image y) (image z)

section Rounds

variable (cmp : α → α → Ordering) (rest : α → α)

/-- A comparison in rounds: each decides by a part of what is left, and goes on with the rest. -/
def rounds : Nat → α → α → Ordering
  | 0, _, _ => .eq
  | count + 1, x, y => (cmp x y).then (rounds count (rest x) (rest y))

variable {cmp rest}

instance rounds.transCmp [TransCmp cmp] (count : Nat) : TransCmp (rounds cmp rest count) := by
  induction count with
  | zero => exact { eq_swap := rfl, isLE_trans := fun _ _ => rfl }
  | succ count ih =>
    exact inferInstanceAs (TransCmp (compareLex cmp (on (rounds cmp rest count) rest)))

theorem rounds_self [TransCmp cmp] (count : Nat) (x : α) : rounds cmp rest count x x = .eq :=
  ReflCmp.compare_self

end Rounds

section Padded

variable (cmp : α → α → Ordering) (fill : α)

/-- The first elements compared in order, with the fill where a list has ended. -/
def paddedTo : Nat → List α → List α → Ordering
  | 0, _, _ => .eq
  | count + 1, xs, ys => (cmp (xs.headD fill) (ys.headD fill)).then (paddedTo count xs.tail ys.tail)

/-- Lists compared up to the length of the longer one. -/
def padded (xs ys : List α) : Ordering := paddedTo cmp fill (max xs.length ys.length) xs ys

variable {cmp fill} [TransCmp cmp]

instance paddedTo.transCmp (count : Nat) : TransCmp (paddedTo cmp fill count) := by
  induction count with
  | zero => exact { eq_swap := rfl, isLE_trans := fun _ _ => rfl }
  | succ count ih =>
    exact inferInstanceAs (TransCmp (compareLex (on cmp fun xs : List α => xs.headD fill)
      (on (paddedTo cmp fill count) List.tail)))

theorem paddedTo_nil (count : Nat) : paddedTo cmp fill count [] [] = .eq := by
  induction count with
  | zero => rfl
  | succ count ih =>
    have same : cmp fill fill = .eq := ReflCmp.compare_self
    rw [paddedTo, List.headD_nil, same, Ordering.eq_then]
    exact ih

theorem paddedTo_eq_padded (left : xs.length ≤ count) (right : ys.length ≤ count) :
    paddedTo cmp fill count xs ys = padded cmp fill xs ys := by
  induction count generalizing xs ys with
  | zero =>
    rw [List.length_eq_zero_iff.mp (Nat.le_zero.mp left), List.length_eq_zero_iff.mp (Nat.le_zero.mp right)]
    rfl
  | succ count ih =>
    by_cases ended : xs = [] ∧ ys = []
    · rw [ended.1, ended.2]
      exact paddedTo_nil (count + 1)
    have tails : max xs.length ys.length = max xs.tail.length ys.tail.length + 1 := by
      rw [List.length_tail, List.length_tail]
      have filled : 0 < max xs.length ys.length := by
        by_contra none
        exact ended ⟨List.length_eq_zero_iff.mp (by omega), List.length_eq_zero_iff.mp (by omega)⟩
      omega
    have left : xs.tail.length ≤ count := by
      rw [List.length_tail]
      omega
    have right : ys.tail.length ≤ count := by
      rw [List.length_tail]
      omega
    rw [padded, tails, paddedTo, paddedTo, ih left right]
    rfl

/-- A padded comparison begins with the first elements, present or not. -/
theorem padded_step (xs ys : List α) :
    padded cmp fill xs ys = (cmp (xs.headD fill) (ys.headD fill)).then (padded cmp fill xs.tail ys.tail) := by
  have left : xs.tail.length ≤ max xs.length ys.length := by
    rw [List.length_tail]
    omega
  have right : ys.tail.length ≤ max xs.length ys.length := by
    rw [List.length_tail]
    omega
  rw [← paddedTo_eq_padded left right, ← paddedTo]
  exact (paddedTo_eq_padded (by omega) (by omega)).symm

instance padded.transCmp : TransCmp (padded cmp fill) where
  eq_swap {xs ys} := by
    rw [padded, padded, max_comm]
    exact OrientedCmp.eq_swap
  isLE_trans {xs ys zs} := by
    have first : xs.length ≤ xs.length + ys.length + zs.length := by omega
    have second : ys.length ≤ xs.length + ys.length + zs.length := by omega
    have third : zs.length ≤ xs.length + ys.length + zs.length := by omega
    rw [← paddedTo_eq_padded first second, ← paddedTo_eq_padded second third,
      ← paddedTo_eq_padded first third]
    exact TransCmp.isLE_trans

end Padded

end SpectonCr.Comparator
