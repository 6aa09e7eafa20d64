/-
Rotations of the plane, given by half their angle.

`z` and `w` are the sine and the cosine of half the angle, so that `-z` and `-w` stand for
the same rotation.  The angle `yaw` in `(-π, π]` is that of the square of `w + z i`, and
`atan2` reads it off (`yaw_eq_atan2`).  Whatever the branch of `atan2`, `yaw` and `ofHalf` are
inverse up to a full turn (`yaw_ofHalf`) and up to the common sign (`eq_or_eq_neg`).
-/
import Mathlib.Analysis.SpecialFunctions.Complex.Arg

namespace HalfAngle

/-- The angle of the point `(x, y)`. -/
noncomputable def atan2 (y x : ℝ) : ℝ := Complex.arg ⟨x, y⟩

@[ext] structure Rotation where
  z : ℝ
  w : ℝ
  unit : z ^ 2 + w ^ 2 = 1

namespace Rotation

instance : Neg Rotation := ⟨fun r => ⟨-r.z, -r.w, by simpa using r.unit⟩⟩

@[simp] theorem neg_z (r : Rotation) : (-r).z = -r.z := rfl

@[simp] theorem neg_w (r : Rotation) : (-r).w = -r.w := rfl

/-- The rotation with this half angle. -/
noncomputable def ofHalf (half : ℝ) : Rotation :=
  ⟨Real.sin half, Real.cos half, Real.sin_sq_add_cos_sq half⟩

/-- The angle of a rotation. -/
noncomputable def yaw (r : Rotation) : ℝ := Complex.arg (⟨r.w, r.z⟩ ^ 2)

end Rotation

section Atan2

variable {x y : ℝ}

theorem norm_eq_one (h : x ^ 2 + y ^ 2 = 1) : ‖(⟨x, y⟩ : ℂ)‖ = 1 := by
  rw [Complex.norm_def, Complex.normSq_mk, ← sq, ← sq, h, Real.sqrt_one]

theorem cos_atan2 (h : x ^ 2 + y ^ 2 = 1) : Real.cos (atan2 y x) = x := by
  have hne : (⟨x, y⟩ : ℂ) ≠ 0 := norm_ne_zero_iff.mp (by rw [norm_eq_one h]; exact one_ne_zero)
  rw [atan2, Complex.cos_arg hne, norm_eq_one h, div_one]

theorem sin_atan2 (h : x ^ 2 + y ^ 2 = 1) : Real.sin (atan2 y x) = y := by
  rw [atan2, Complex.sin_arg, norm_eq_one h, div_one]

end Atan2

namespace Rotation

theorem yaw_eq_atan2 (r : Rotation) :
    r.yaw = atan2 (2 * (r.w * r.z)) (1 - 2 * r.z ^ 2) := by
  have hsquare : (⟨r.w, r.z⟩ : ℂ) ^ 2 = ⟨1 - 2 * r.z ^ 2, 2 * (r.w * r.z)⟩ := by
    have hunit := r.unit
    refine Complex.ext ?_ ?_
    · rw [sq, Complex.mul_re]
      linarith
    · rw [sq, Complex.mul_im]
      ring
  rw [yaw, hsquare, atan2]

/-- The doubled angle is on the unit circle. -/
theorem double_unit (r : Rotation) : (1 - 2 * r.z ^ 2) ^ 2 + (2 * (r.w * r.z)) ^ 2 = 1 := by
  have hw : r.w ^ 2 = 1 - r.z ^ 2 := eq_sub_of_add_eq' r.unit
  calc (1 - 2 * r.z ^ 2) ^ 2 + (2 * (r.w * r.z)) ^ 2
      = (1 - 2 * r.z ^ 2) ^ 2 + 4 * (r.w ^ 2 * r.z ^ 2) := by ring
    _ = 1 := by rw [hw]; ring

theorem cos_yaw (r : Rotation) : Real.cos r.yaw = 1 - 2 * r.z ^ 2 := by
  rw [yaw_eq_atan2, cos_atan2 r.double_unit]

theorem sin_yaw (r : Rotation) : Real.sin r.yaw = 2 * (r.w * r.z) := by
  rw [yaw_eq_atan2, sin_atan2 r.double_unit]

/-- **The angle of the rotation by half of `θ`.**  It is `θ` up to full turns. -/
theorem yaw_ofHalf (θ : ℝ) : ((ofHalf (θ / 2)).yaw : Real.Angle) = θ := by
  have hdouble : 2 * (θ / 2) = θ := mul_div_cancel₀ θ two_ne_zero
  refine Real.Angle.cos_sin_inj ?_ ?_
  · calc Real.cos (ofHalf (θ / 2)).yaw = 1 - 2 * Real.sin (θ / 2) ^ 2 := cos_yaw _
      _ = Real.cos (2 * (θ / 2)) := by rw [Real.cos_two_mul, Real.cos_sq']; ring
      _ = Real.cos θ := by rw [hdouble]
  · calc Real.sin (ofHalf (θ / 2)).yaw = 2 * (Real.cos (θ / 2) * Real.sin (θ / 2)) := sin_yaw _
      _ = Real.sin (2 * (θ / 2)) := by rw [Real.sin_two_mul]; ring
      _ = Real.sin θ := by rw [hdouble]

/-- **Rotations by the same angle.**  They agree up to their sign. -/
theorem eq_or_eq_neg {r r' : Rotation} (h : (r.yaw : Real.Angle) = r'.yaw) :
    r = r' ∨ r = -r' := by
  have hcos : Real.cos r.yaw = Real.cos r'.yaw := congrArg Real.Angle.cos h
  have hsin : Real.sin r.yaw = Real.sin r'.yaw := congrArg Real.Angle.sin h
  rw [cos_yaw, cos_yaw] at hcos
  rw [sin_yaw, sin_yaw] at hsin
  have hz : r.z ^ 2 = r'.z ^ 2 := by linarith
  have hw : r.w ^ 2 = r'.w ^ 2 := by linarith [r.unit, r'.unit]
  have hwz : r.w * r.z = r'.w * r'.z := by linarith
  rcases eq_or_ne r'.z 0 with hzero | hzero
  · -- half a turn or none: only the cosine is left
    have hzero' : r.z = 0 := by simpa [hzero] using hz
    rcases sq_eq_sq_iff_eq_or_eq_neg.mp hw with hw | hw
    · exact .inl (Rotation.ext (hzero'.trans hzero.symm) hw)
    · exact .inr (Rotation.ext (by simp [hzero, hzero']) hw)
  · rcases sq_eq_sq_iff_eq_or_eq_neg.mp hz with hz | hz
    · rw [hz] at hwz
      exact .inl (Rotation.ext hz (mul_right_cancel₀ hzero hwz))
    · rw [hz, mul_neg, ← neg_mul] at hwz
      exact .inr (Rotation.ext hz (neg_eq_iff_eq_neg.mp (mul_right_cancel₀ hzero hwz)))

end Rotation

end HalfAngle
