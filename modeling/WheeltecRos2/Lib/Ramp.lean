/-
Ramps: a value that goes to its target in bounded steps.

`ramp step target x` is the value after `x`.  It lies between `x` and the target
(`ramp_between`), is at most a step away from `x` (`abs_ramp_sub_le`), and comes nearer to the
target by exactly a step as long as it is further away than that (`abs_sub_ramp`, `Advances`).
-/
import Mathlib.Algebra.Order.Group.Abs
import Mathlib.Algebra.Order.Group.MinMax
import Mathlib.Tactic.Abel

namespace Ramp

variable {α : Type*} [AddCommGroup α] [LinearOrder α] [IsOrderedAddMonoid α]
variable {step target x y : α}

/-- One step towards the target. -/
def ramp (step target x : α) : α :=
  if x < target then min target (x + step)
  else if target < x then max target (x - step)
  else target

/-- `y` lies between `x` and the target. -/
def Between (x y target : α) : Prop := x ≤ y ∧ y ≤ target ∨ target ≤ y ∧ y ≤ x

/-- `y` is a step nearer to the target than `x`, or there. -/
def Advances (step x y target : α) : Prop := |target - y| = max 0 (|target - x| - step)

omit [IsOrderedAddMonoid α] in
@[simp] theorem ramp_self : ramp step target target = target := by
  rw [ramp, if_neg (lt_irrefl _), if_neg (lt_irrefl _)]

omit [AddCommGroup α] [IsOrderedAddMonoid α] in
theorem between_self (x target : α) : Between x target target :=
  (le_total x target).imp (fun h => ⟨h, le_rfl⟩) fun h => ⟨le_rfl, h⟩

theorem ramp_between (hstep : 0 ≤ step) : Between x (ramp step target x) target := by
  rw [ramp]
  split_ifs with hlt hgt
  · exact .inl ⟨le_min hlt.le (le_add_of_nonneg_right hstep), min_le_left _ _⟩
  · exact .inr ⟨le_max_left _ _, max_le hgt.le (sub_le_self _ hstep)⟩
  · exact .inl ⟨not_lt.mp hgt, le_rfl⟩

/-- **The distance to the target.** -/
theorem abs_sub_ramp (hstep : 0 ≤ step) : Advances step x (ramp step target x) target := by
  rw [Advances, ramp]
  split_ifs with hlt hgt
  · rw [abs_of_pos (sub_pos.mpr hlt), abs_of_nonneg (sub_nonneg.mpr (min_le_left _ _)),
      ← max_sub_sub_left, sub_self, sub_add_eq_sub_sub]
  · rw [abs_of_neg (sub_neg.mpr hgt), abs_of_nonpos (sub_nonpos.mpr (le_max_left _ _)),
      neg_sub, neg_sub, ← max_sub_sub_right, sub_self, sub_right_comm]
  · have heq : x = target := le_antisymm (not_lt.mp hgt) (not_lt.mp hlt)
    rw [heq, sub_self, abs_zero, zero_sub, max_eq_left (neg_nonpos.mpr hstep)]

/-- **The length of a step.** -/
theorem abs_ramp_sub_le (hstep : 0 ≤ step) : |ramp step target x - x| ≤ step := by
  rw [ramp]
  split_ifs with hlt hgt
  · rw [abs_of_nonneg (sub_nonneg.mpr (le_min hlt.le (le_add_of_nonneg_right hstep)))]
    exact sub_le_iff_le_add'.mpr (min_le_right _ _)
  · rw [abs_of_nonpos (sub_nonpos.mpr (max_le hgt.le (sub_le_self _ hstep))), neg_sub]
    exact sub_le_comm.mp (le_max_right _ _)
  · rw [le_antisymm (not_lt.mp hgt) (not_lt.mp hlt), sub_self, abs_zero]
    exact hstep

/-- A ramp to 0 takes one step less after each step. -/
theorem abs_ramp_zero_le {n : ℕ} (hstep : 0 ≤ step) (hx : |x| ≤ n • step) :
    |ramp step 0 x| ≤ (n - 1) • step := by
  have hdistance : |0 - ramp step 0 x| = max 0 (|0 - x| - step) := abs_sub_ramp hstep
  rw [zero_sub, abs_neg, zero_sub, abs_neg] at hdistance
  rw [hdistance]
  refine max_le (nsmul_nonneg hstep _) (sub_le_iff_le_add.mpr ?_)
  calc |x| ≤ n • step := hx
    _ ≤ (n - 1 + 1) • step := nsmul_le_nsmul_left hstep (Nat.sub_le_iff_le_add.mp le_rfl)
    _ = (n - 1) • step + step := succ_nsmul _ _

end Ramp
