/-
The charger position and its marker.

`Position_Update_callback` moves the position it receives by `diff_point` along its heading and
turns it by `diff_angle`; the result is what the node navigates to.  `Pub_Charger_marker` goes
back to the position received (`marker_undoes_update`).  The file between the two is the
identity, and the marker's other fields are left out.
-/
import WheeltecRos2.Lib.HalfAngle

namespace Recharge

open HalfAngle

/-- `json_data`: a position and the two non-zero parts of its orientation. -/
structure ChargerPosition where
  pX : ℝ
  pY : ℝ
  orienZ : ℝ
  orienW : ℝ

/-- The parameters of the node. -/
structure Offset where
  diffPoint : ℝ
  diffAngle : ℝ

/-- `math.radians`. -/
noncomputable def radians (degrees : ℝ) : ℝ := degrees * (Real.pi / 180)

namespace Offset

variable (offset : Offset)

/-- `Position_Update_callback`. -/
noncomputable def positionUpdateCallback (pose : ChargerPosition) : ChargerPosition :=
  let tmpYaw := atan2 (2 * (pose.orienW * pose.orienZ)) (1 - 2 * pose.orienZ ^ 2)
  let diffX := Real.cos tmpYaw
  let diffY := Real.sin tmpYaw
  let tmpAngle := radians offset.diffAngle
  let newYaw := (tmpYaw + tmpAngle) / 2
  { pX := pose.pX + diffX * offset.diffPoint
    pY := pose.pY + diffY * offset.diffPoint
    orienZ := Real.sin newYaw
    orienW := Real.cos newYaw }

/-- `Pub_Charger_marker`: the pose of the arrow. -/
noncomputable def pubChargerMarker (position : ChargerPosition) : ChargerPosition :=
  let tmpYaw := atan2 (2 * (position.orienW * position.orienZ)) (1 - 2 * position.orienZ ^ 2)
  let tmpAngle := radians (-offset.diffAngle)
  let newYaw := (tmpYaw + tmpAngle) / 2
  let oZ := Real.sin newYaw
  let oW := Real.cos newYaw
  -- the heading is read again, from the orientation turned back
  let tmpYaw := atan2 (2 * (oW * oZ)) (1 - 2 * oZ ^ 2)
  let diffX := Real.cos tmpYaw
  let diffY := Real.sin tmpYaw
  { pX := position.pX - diffX * offset.diffPoint
    pY := position.pY - diffY * offset.diffPoint
    orienZ := oZ
    orienW := oW }

end Offset

/-- The orientations are rotations. -/
def ChargerPosition.Oriented (position : ChargerPosition) (r : Rotation) : Prop :=
  position.orienZ = r.z ∧ position.orienW = r.w

variable (offset : Offset) {position : ChargerPosition} {r : Rotation}

theorem ChargerPosition.Oriented.update (h : position.Oriented r) :
    offset.positionUpdateCallback position =
      { pX := position.pX + Real.cos r.yaw * offset.diffPoint
        pY := position.pY + Real.sin r.yaw * offset.diffPoint
        orienZ := (Rotation.ofHalf ((r.yaw + radians offset.diffAngle) / 2)).z
        orienW := (Rotation.ofHalf ((r.yaw + radians offset.diffAngle) / 2)).w } := by
  rw [Offset.positionUpdateCallback, h.1, h.2, r.yaw_eq_atan2]
  rfl

theorem ChargerPosition.Oriented.marker (h : position.Oriented r) :
    offset.pubChargerMarker position =
      let back := Rotation.ofHalf ((r.yaw + radians (-offset.diffAngle)) / 2)
      { pX := position.pX - Real.cos back.yaw * offset.diffPoint
        pY := position.pY - Real.sin back.yaw * offset.diffPoint
        orienZ := back.z
        orienW := back.w } := by
  rw [Offset.pubChargerMarker, h.1, h.2, ← r.yaw_eq_atan2]
  dsimp only
  rw [Rotation.yaw_eq_atan2 (Rotation.ofHalf _)]
  rfl

/-- Turning there and back keeps the angle up to full turns. -/
theorem yaw_turned_back (r : Rotation) (angle : ℝ) :
    ((Rotation.ofHalf (((Rotation.ofHalf ((r.yaw + radians angle) / 2)).yaw +
      radians (-angle)) / 2)).yaw : Real.Angle) = r.yaw := by
  have hback : radians (-angle) = -radians angle := neg_mul _ _
  rw [Rotation.yaw_ofHalf, Real.Angle.coe_add, Rotation.yaw_ofHalf, ← Real.Angle.coe_add, hback,
    add_neg_cancel_right]

/-- **The marker is where the charger was.**  Its orientation is the one received up to the
sign. -/
theorem marker_undoes_update (offset : Offset) (pose : ChargerPosition)
    (hunit : pose.orienZ ^ 2 + pose.orienW ^ 2 = 1) :
    let marker := offset.pubChargerMarker (offset.positionUpdateCallback pose)
    marker.pX = pose.pX ∧ marker.pY = pose.pY ∧
      (marker.orienZ = pose.orienZ ∧ marker.orienW = pose.orienW ∨
        marker.orienZ = -pose.orienZ ∧ marker.orienW = -pose.orienW) := by
  intro marker
  let r : Rotation := ⟨pose.orienZ, pose.orienW, hunit⟩
  let stored := Rotation.ofHalf ((r.yaw + radians offset.diffAngle) / 2)
  let back := Rotation.ofHalf ((stored.yaw + radians (-offset.diffAngle)) / 2)
  have hpose : pose.Oriented r := ⟨rfl, rfl⟩
  have hupdate := hpose.update offset
  have hstored : (offset.positionUpdateCallback pose).Oriented stored := by
    rw [hupdate]
    exact ⟨rfl, rfl⟩
  have hmarker : marker =
      { pX := pose.pX + Real.cos r.yaw * offset.diffPoint - Real.cos back.yaw * offset.diffPoint
        pY := pose.pY + Real.sin r.yaw * offset.diffPoint - Real.sin back.yaw * offset.diffPoint
        orienZ := back.z
        orienW := back.w } := by
    have hposition := hstored.marker offset
    rw [hupdate] at hposition
    exact (congrArg offset.pubChargerMarker hupdate).trans hposition
  have hyaw : (back.yaw : Real.Angle) = r.yaw := yaw_turned_back r offset.diffAngle
  have hcos : Real.cos back.yaw = Real.cos r.yaw := congrArg Real.Angle.cos hyaw
  have hsin : Real.sin back.yaw = Real.sin r.yaw := congrArg Real.Angle.sin hyaw
  rw [hmarker]
  refine ⟨?_, ?_, ?_⟩
  · show pose.pX + Real.cos r.yaw * offset.diffPoint - Real.cos back.yaw * offset.diffPoint = _
    rw [hcos, add_sub_cancel_right]
  · show pose.pY + Real.sin r.yaw * offset.diffPoint - Real.sin back.yaw * offset.diffPoint = _
    rw [hsin, add_sub_cancel_right]
  · rcases Rotation.eq_or_eq_neg hyaw with hback | hback
    · exact .inl ⟨congrArg Rotation.z hback, congrArg Rotation.w hback⟩
    · exact .inr ⟨congrArg Rotation.z hback, congrArg Rotation.w hback⟩

/-- With the offset of the node, for a charger at an angle. -/
theorem marker_undoes_update_angled :
    let marker := (⟨1.2, -15⟩ : Offset).pubChargerMarker
      ((⟨1.2, -15⟩ : Offset).positionUpdateCallback ⟨1, 2, 0.6, 0.8⟩)
    marker.pX = 1 ∧ marker.pY = 2 ∧
      (marker.orienZ = 0.6 ∧ marker.orienW = 0.8 ∨
        marker.orienZ = -0.6 ∧ marker.orienW = -0.8) :=
  marker_undoes_update ⟨1.2, -15⟩ ⟨1, 2, 0.6, 0.8⟩ (by norm_num)

end Recharge
