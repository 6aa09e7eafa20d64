/-
The velocity commands `Cmd_Vel_Callback` and `Red_Vel_Callback`.

Both scale the three components of a twist by a thousand, assign them to a `short`
and send its two bytes.  Nothing bounds the components: from 32.768 on the
conversion wraps around, and a command forward comes out as one backward
(`wrappedVelocity_not_survives`).  `velocitySurvives_iff` is the exact condition.

The product is rounded as doubles are, by any `Rounding` that is monotone and exact
on integers below 2^53.  Out of range, the conversion to `short` reduces the integer
part modulo 2^16.
-/
import WheeltecRos2.Chassis.Frame
import WheeltecRos2.Lib.Truncate
import Mathlib.Data.Rat.Floor

namespace Chassis

open Truncate

/-- The parts of `geometry_msgs::msg::Twist` the callbacks read. -/
structure Twist where
  linearX : ℚ
  linearY : ℚ
  angularZ : ℚ

/-- What the multiplication of doubles does to the exact product. -/
abbrev DoubleRounding := Rounding ℚ (2 ^ 53)

/-- The assignment of a double to a `short`. -/
def toShort (x : ℚ) : BitVec 16 := BitVec.ofInt 16 (trunc x)

/-- `transition = v*1000`. -/
def transition (r : DoubleRounding) (v : ℚ) : BitVec 16 := toShort (r.round (v * 1000))

/-- `transition>>8`, stored in a byte. -/
def highByte (transition : BitVec 16) : UInt8 := ⟨(transition.sshiftRight 8).setWidth 8⟩

/-- `transition`, stored in a byte. -/
def lowByte (transition : BitVec 16) : UInt8 := ⟨transition.setWidth 8⟩

/-- The frame both callbacks write to the controller, with their mark in `tx[1]`. -/
def velocityFrame (r : DoubleRounding) (mark : UInt8) (twistAux : Twist) : List UInt8 :=
  let x := transition r twistAux.linearX
  let y := transition r twistAux.linearY
  let z := transition r twistAux.angularZ
  let tx := [frameHeader, mark, 0, highByte x, lowByte x, highByte y, lowByte y, highByte z,
    lowByte z]
  tx ++ [checkSum tx 9, frameTail]

/-- `Cmd_Vel_Callback`: the mark is the recharge flag. -/
def cmdVelCallback (r : DoubleRounding) (autoRecharge : Int8) (twistAux : Twist) : List UInt8 :=
  velocityFrame r autoRecharge.toUInt8 twistAux

/-- `Red_Vel_Callback`: the mark is 3, for the infrared docking speed. -/
def redVelCallback (r : DoubleRounding) (twistAux : Twist) : List UInt8 :=
  velocityFrame r 3 twistAux

/-! ### What the controller reads back -/

/-- The bounds of a `short`. -/
def shortBounds : List ℤ := [-32768, 32767]

/-- A bound no other bound is nearer to `y` than. -/
def NearestBound (y : ℚ) (n : ℤ) : Prop :=
  n ∈ shortBounds ∧ ∀ bound ∈ shortBounds, |(n : ℚ) - y| ≤ |(bound : ℚ) - y|

/-- The field `n` tells the velocity `v`: up to less than one, or as far as a `short`
goes, and never in the other direction. -/
structure Survives (v : ℚ) (n : ℤ) : Prop where
  close : |(n : ℚ) - 1000 * v| < 1 ∨ NearestBound (1000 * v) n
  direction : 0 ≤ n * v

/-- All three fields of a frame tell the components of the twist. -/
structure VelocitySurvives (tx : List UInt8) (twist : Twist) : Prop where
  linearX : Survives twist.linearX (signed16 (byteAt tx 3) (byteAt tx 4))
  linearY : Survives twist.linearY (signed16 (byteAt tx 5) (byteAt tx 6))
  angularZ : Survives twist.angularZ (signed16 (byteAt tx 7) (byteAt tx 8))

/-- The integer fits a `short`, or wraps around to the bound it exceeds. -/
def FitsShort (n : ℤ) : Prop :=
  -32768 ≤ n ∧ n ≤ 32767 ∨ 32767 < n ∧ n % 65536 = 32767 ∨ n < -32768 ∧ n % 65536 = 32768

/-- The integer parts of all three products fit. -/
structure TwistFits (r : DoubleRounding) (twist : Twist) : Prop where
  linearX : FitsShort (trunc (r.round (twist.linearX * 1000)))
  linearY : FitsShort (trunc (r.round (twist.linearY * 1000)))
  angularZ : FitsShort (trunc (r.round (twist.angularZ * 1000)))

/-! ### The two bytes of a `short` -/

/-- The bytes are put together again. -/
theorem signed16_bytes (t : BitVec 16) : signed16 (highByte t) (lowByte t) = t.toInt := by
  rw [← imuTrans_eq, imuTrans]
  congr 1
  refine BitVec.eq_of_getLsbD_eq ?_
  intro i hi
  by_cases hlow : i < 8
  · simp [highByte, lowByte, hlow, hi]
  · have hshift : 8 + (i - 8) = i := by omega
    have hhigh : i - 8 < 8 ∧ ¬ 16 ≤ i - 8 := by omega
    simp [highByte, lowByte, hlow, hi, BitVec.getLsbD_sshiftRight, hshift, hhigh]

/-- A `short` holds the integer part modulo 2^16, from -32768 on. -/
theorem transition_toInt (r : DoubleRounding) (v : ℚ) :
    (transition r v).toInt = (trunc (r.round (v * 1000))).bmod 65536 := by
  rw [transition, toShort, BitVec.toInt_ofInt]

/-! ### One field -/

section Field

variable {r : DoubleRounding} {v : ℚ} {n : ℤ}

/-- A field within one of the command does not point the other way. -/
theorem direction_of_close (h : |(n : ℚ) - 1000 * v| < 1) : 0 ≤ n * v := by
  obtain ⟨hlo, hhi⟩ := abs_lt.mp h
  rcases lt_trichotomy n 0 with hn | hn | hn
  · have hle : (n : ℚ) ≤ -1 := by exact_mod_cast (by omega : n ≤ -1)
    exact mul_nonneg_of_nonpos_of_nonpos (by linarith) (by linarith)
  · simp [hn]
  · have hle : (1 : ℚ) ≤ n := by exact_mod_cast (by omega : 1 ≤ n)
    exact mul_nonneg (by linarith) (by linarith)

/-- In range, the field is the integer part. -/
theorem survives_of_inRange (hlo : -32768 ≤ trunc (r.round (v * 1000)))
    (hhi : trunc (r.round (v * 1000)) ≤ 32767) : Survives v (transition r v).toInt := by
  have hkeep : (transition r v).toInt = trunc (r.round (v * 1000)) := by
    rw [transition_toInt, Int.bmod_eq_of_le] <;> omega
  have hclose := r.abs_trunc_sub_lt (y := v * 1000) (abs_lt.mpr ⟨by omega, by omega⟩)
  rw [← hkeep, mul_comm v] at hclose
  exact ⟨Or.inl hclose, direction_of_close hclose⟩

/-- Above the range, the field tells the command only if it is the upper bound. -/
theorem survives_iff_of_above (hv : 32767 < 1000 * v) (hn : n ≤ 32767) :
    Survives v n ↔ n = 32767 := by
  constructor
  · rintro ⟨hclose | ⟨hmem, hnear⟩, -⟩
    · have hgt : (32766 : ℚ) < n := by linarith [(abs_lt.mp hclose).1]
      have hgt' : (32766 : ℤ) < n := by exact_mod_cast hgt
      omega
    · have hother := hnear 32767 (by simp [shortBounds])
      rcases List.mem_cons.mp hmem with rfl | hmem
      · -- the lower bound is farther away
        push_cast at hother
        rw [abs_of_neg (by linarith), abs_of_neg (by linarith)] at hother
        linarith
      · simpa using hmem
  · rintro rfl
    refine ⟨Or.inr ⟨by simp [shortBounds], ?_⟩, by push_cast; linarith⟩
    intro bound hmem
    have hle : (bound : ℚ) ≤ 32767 := by
      have : bound ≤ 32767 := by
        simp only [shortBounds, List.mem_cons, List.not_mem_nil, or_false] at hmem
        omega
      exact_mod_cast this
    push_cast
    rw [abs_of_neg (by linarith), abs_of_neg (by linarith)]
    linarith

/-- Below the range, the field tells the command only if it is the lower bound. -/
theorem survives_iff_of_below (hv : 1000 * v < -32768) (hn : -32768 ≤ n) :
    Survives v n ↔ n = -32768 := by
  constructor
  · rintro ⟨hclose | ⟨hmem, hnear⟩, -⟩
    · have hlt : (n : ℚ) < -32767 := by linarith [(abs_lt.mp hclose).2]
      have hlt' : n < (-32767 : ℤ) := by exact_mod_cast hlt
      omega
    · have hother := hnear (-32768) (by simp [shortBounds])
      rcases List.mem_cons.mp hmem with rfl | hmem
      · rfl
      · obtain rfl : n = 32767 := by simpa using hmem
        push_cast at hother
        rw [abs_of_pos (by linarith), abs_of_pos (by linarith)] at hother
        linarith
  · rintro rfl
    refine ⟨Or.inr ⟨by simp [shortBounds], ?_⟩, by push_cast; linarith⟩
    intro bound hmem
    have hge : (-32768 : ℚ) ≤ bound := by
      have : -32768 ≤ bound := by
        simp only [shortBounds, List.mem_cons, List.not_mem_nil, or_false] at hmem
        omega
      exact_mod_cast this
    push_cast
    rw [abs_of_pos (by linarith), abs_of_pos (by linarith)]
    linarith

/-- **One field.** -/
theorem survives_iff : Survives v (transition r v).toInt ↔
    FitsShort (trunc (r.round (v * 1000))) := by
  have hbounds : -32768 ≤ (transition r v).toInt ∧ (transition r v).toInt ≤ 32767 := by
    have hle := BitVec.le_toInt (transition r v)
    have hlt := BitVec.toInt_lt (x := transition r v)
    omega
  have hwrap := transition_toInt r v
  rw [Int.bmod_def] at hwrap
  rcases lt_or_ge 32767 (trunc (r.round (v * 1000))) with habove | hhi
  · -- the integer 32767 is kept by the rounding, so the product is above it too
    have hround : (32768 : ℚ) ≤ r.round (v * 1000) := by
      exact_mod_cast (le_trunc_iff (by norm_num)).mp (by omega : 32768 ≤ trunc _)
    have hv : (32767 : ℚ) < v * 1000 := by
      have := r.lt_of_lt_round (n := 32767) (y := v * 1000) (by norm_num) (by push_cast; linarith)
      exact_mod_cast this
    rw [survives_iff_of_above (by linarith) hbounds.2, FitsShort]
    omega
  · rcases lt_or_ge (trunc (r.round (v * 1000))) (-32768) with hbelow | hlo
    · have hround : r.round (v * 1000) ≤ (-32769 : ℚ) := by
        exact_mod_cast (trunc_le_iff (by norm_num)).mp (by omega : trunc _ ≤ -32769)
      have hv : v * 1000 < (-32768 : ℚ) := by
        have := r.lt_of_round_lt (n := -32768) (y := v * 1000) (by norm_num)
          (by push_cast; linarith)
        exact_mod_cast this
      rw [survives_iff_of_below (by linarith) hbounds.1, FitsShort]
      omega
    · exact iff_of_true (survives_of_inRange hlo hhi) (Or.inl ⟨hlo, hhi⟩)

end Field

/-! ### The frames -/

theorem velocityFrame_survives_iff (r : DoubleRounding) (mark : UInt8) (twist : Twist) :
    VelocitySurvives (velocityFrame r mark twist) twist ↔ TwistFits r twist := by
  have hx := survives_iff (r := r) (v := twist.linearX)
  have hy := survives_iff (r := r) (v := twist.linearY)
  have hz := survives_iff (r := r) (v := twist.angularZ)
  rw [← signed16_bytes] at hx hy hz
  constructor
  · rintro ⟨h1, h2, h3⟩
    exact ⟨hx.mp h1, hy.mp h2, hz.mp h3⟩
  · rintro ⟨h1, h2, h3⟩
    exact ⟨hx.mpr h1, hy.mpr h2, hz.mpr h3⟩

/-- **When a commanded velocity survives.**  In the frame of either callback all
three fields tell the components of the twist exactly if the integer part of a
thousand times each component fits a `short`, or exceeds it by as much as wraps
around to the bound. -/
theorem velocitySurvives_iff (r : DoubleRounding) (autoRecharge : Int8) (twist : Twist) :
    (VelocitySurvives (cmdVelCallback r autoRecharge twist) twist ↔ TwistFits r twist) ∧
      (VelocitySurvives (redVelCallback r twist) twist ↔ TwistFits r twist) :=
  ⟨velocityFrame_survives_iff r _ twist, velocityFrame_survives_iff r _ twist⟩

/-- Forty metres per second forward. -/
def fastTwist : Twist := { linearX := 40, linearY := 0, angularZ := 0 }

/-- The field written for it is -25536. -/
theorem wrappedVelocity_not_survives :
    ¬ VelocitySurvives (cmdVelCallback (.exact _) 0 fastTwist) fastTwist := by
  intro hsurvives
  have hfield : signed16 (byteAt (cmdVelCallback (.exact _) 0 fastTwist) 3)
      (byteAt (cmdVelCallback (.exact _) 0 fastTwist) 4) = -25536 := by
    decide +kernel
  have hdirection := hsurvives.linearX.direction
  rw [hfield, fastTwist] at hdirection
  norm_num at hdirection

end Chassis
