/-
The serial frames of the chassis controller.

The controller sends two kinds of frame on one line, without escaping:

* a 24-byte sensor frame, `0x7B … 0x7D`, byte 22 the XOR of bytes 0..21;
* an 8-byte automatic charging frame, `0x7C … 0x7F`, byte 6 the XOR of
  bytes 0..5.

This file has the constants of `wheeltec_robot.h`, the conversions of single
fields (`imuTrans`, `odomTrans`) and of whole frames (`sensorData`,
`chargeData`), and the frames themselves as windows of a `Collector`.  Floating
point values are rationals.
-/
import WheeltecRos2.Lib.Collector
import Mathlib.Data.Rat.Cast.Order
import Mathlib.Tactic.FieldSimp
import Mathlib.Tactic.Linarith
import Mathlib.Tactic.NormNum
import Mathlib.Tactic.Ring

namespace Chassis

open Collector

/-! ### Constants of the protocol -/

def frameHeader : UInt8 := 0x7B
def frameTail : UInt8 := 0x7D
def autoChargeHeader : UInt8 := 0x7C
def autoChargeTail : UInt8 := 0x7F

/-- `RECEIVE_DATA_SIZE`. -/
abbrev receiveDataSize : ℕ := 24

/-- `AutoCharge_DATA_SIZE`. -/
abbrev autoChargeDataSize : ℕ := 8

def accelRatio : ℚ := 1671.84
def gyroscopeRatio : ℚ := 0.00026644

/-! ### Single fields -/

/-- `transition_16 |= Data_High<<8; transition_16 |= Data_Low`, read as a
`short`. -/
def imuTrans (dataHigh dataLow : UInt8) : ℤ :=
  ((0#16 ||| dataHigh.toBitVec.setWidth 16 <<< 8) ||| dataLow.toBitVec.setWidth 16).toInt

/-- Thousandths to units, with the truncating `/` and `%` of C. -/
def milli (transition16 : ℤ) : ℚ :=
  (transition16.tdiv 1000 : ℚ) + (transition16.tmod 1000 : ℚ) * 0.001

def odomTrans (dataHigh dataLow : UInt8) : ℚ := milli (imuTrans dataHigh dataLow)

/-- The signed 16-bit number with the given high and low byte. -/
def signed16 (hi lo : UInt8) : ℤ :=
  if hi.toNat < 128 then 256 * hi.toNat + lo.toNat else 256 * hi.toNat + lo.toNat - 65536

theorem imuTrans_eq (hi lo : UInt8) : imuTrans hi lo = signed16 hi lo := by
  have hhi : hi.toBitVec.toNat < 2 ^ 8 := hi.toBitVec.isLt
  have hlo : lo.toBitVec.toNat < 2 ^ 8 := lo.toBitVec.isLt
  have hnat : ((0#16 ||| hi.toBitVec.setWidth 16 <<< 8) ||| lo.toBitVec.setWidth 16).toNat =
      256 * hi.toNat + lo.toNat := by
    rw [BitVec.zero_or, BitVec.toNat_or, BitVec.toNat_shiftLeft, BitVec.toNat_setWidth,
      BitVec.toNat_setWidth, Nat.mod_eq_of_lt (by omega : hi.toBitVec.toNat < 2 ^ 16),
      Nat.mod_eq_of_lt (by omega : lo.toBitVec.toNat < 2 ^ 16), Nat.shiftLeft_eq,
      Nat.mod_eq_of_lt (by omega), ← Nat.shiftLeft_eq, ← Nat.shiftLeft_add_eq_or_of_lt hlo,
      Nat.shiftLeft_eq]
    show hi.toBitVec.toNat * 2 ^ 8 + lo.toBitVec.toNat = 256 * hi.toBitVec.toNat + lo.toBitVec.toNat
    omega
  have hhi' : hi.toNat < 256 := hhi
  have hlo' : lo.toNat < 256 := hlo
  rw [imuTrans, signed16, BitVec.toInt_eq_toNat_cond, hnat]
  by_cases h : hi.toNat < 128
  · rw [if_pos (by omega), if_pos h]
    omega
  · rw [if_neg (by omega), if_neg h]
    omega

/-- Truncation loses nothing: the quotient and the remainder carry the same
sign. -/
theorem milli_eq (n : ℤ) : milli n = n / 1000 := by
  have h : n = 1000 * n.tdiv 1000 + n.tmod 1000 := (Int.mul_tdiv_add_tmod n 1000).symm
  have hq : (n : ℚ) = 1000 * (n.tdiv 1000 : ℚ) + (n.tmod 1000 : ℚ) := by
    exact_mod_cast h
  rw [milli, hq]
  ring

theorem odomTrans_eq (hi lo : UInt8) : odomTrans hi lo = (signed16 hi lo : ℚ) / 1000 := by
  rw [odomTrans, milli_eq, imuTrans_eq]

/-! ### Checksums -/

/-- `Check_Sum` in receive mode and `Check_Sum_AutoCharge`: the XOR of the
first `countNumber` bytes. -/
def checkSum (rx : List UInt8) (countNumber : ℕ) : UInt8 :=
  (rx.take countNumber).foldl (· ^^^ ·) 0

/-- Byte `i` of a buffer. -/
def byteAt (rx : List UInt8) (i : ℕ) : UInt8 := rx.getD i 0

/-! ### Whole frames -/

/-- `Vel_Pos_Data`. -/
structure VelPosData where
  x : ℚ
  y : ℚ
  z : ℚ
  deriving DecidableEq

/-- `MPU6050_DATA`, the raw readings. -/
structure Mpu6050Data where
  acceleX : ℤ
  acceleY : ℤ
  acceleZ : ℤ
  gyrosX : ℤ
  gyrosY : ℤ
  gyrosZ : ℤ
  deriving DecidableEq

/-- What the constructor and the frames write into `Mpu6050`. -/
structure Imu where
  linearAcceleration : VelPosData
  angularVelocity : VelPosData
  deriving DecidableEq

/-- Everything a sensor frame sets. -/
structure SensorData where
  flagStop : UInt8
  robotVel : VelPosData
  mpu6050Data : Mpu6050Data
  mpu6050 : Imu
  powerVoltage : ℚ
  deriving DecidableEq

/-- Everything an automatic charging frame sets. -/
structure ChargeData where
  chargingCurrent : ℚ
  red : UInt8
  charging : Bool
  chargeSetState : Bool
  deriving DecidableEq

/-- The assignments made from a received sensor frame. -/
def sensorData (rx : List UInt8) : SensorData :=
  let raw : Mpu6050Data :=
    { acceleX := imuTrans (byteAt rx 8) (byteAt rx 9)
      acceleY := imuTrans (byteAt rx 10) (byteAt rx 11)
      acceleZ := imuTrans (byteAt rx 12) (byteAt rx 13)
      gyrosX := imuTrans (byteAt rx 14) (byteAt rx 15)
      gyrosY := imuTrans (byteAt rx 16) (byteAt rx 17)
      gyrosZ := imuTrans (byteAt rx 18) (byteAt rx 19) }
  { flagStop := byteAt rx 1
    robotVel :=
      { x := odomTrans (byteAt rx 2) (byteAt rx 3)
        y := odomTrans (byteAt rx 4) (byteAt rx 5)
        z := odomTrans (byteAt rx 6) (byteAt rx 7) }
    mpu6050Data := raw
    mpu6050 :=
      { linearAcceleration :=
          { x := raw.acceleX / accelRatio
            y := raw.acceleY / accelRatio
            z := raw.acceleZ / accelRatio }
        angularVelocity :=
          { x := raw.gyrosX * gyroscopeRatio
            y := raw.gyrosY * gyroscopeRatio
            z := raw.gyrosZ * gyroscopeRatio } }
    powerVoltage := milli (imuTrans (byteAt rx 20) (byteAt rx 21)) }

/-- The assignments made from a received automatic charging frame. -/
def chargeData (rx : List UInt8) : ChargeData :=
  { chargingCurrent := milli (imuTrans (byteAt rx 1) (byteAt rx 2))
    red := byteAt rx 3
    charging := byteAt rx 4 != 0
    chargeSetState := byteAt rx 5 != 0 }

/-- The tail and checksum test on 24 received bytes. -/
def sensorOk (rx : List UInt8) : Bool :=
  byteAt rx 23 == frameTail && checkSum rx 22 == byteAt rx 22

/-- The tail and checksum test on 8 received bytes. -/
def chargeOk (rx : List UInt8) : Bool :=
  byteAt rx 7 == autoChargeTail && checkSum rx 6 == byteAt rx 6

/-- The windows the sensor collector gathers. -/
def sensorShape : Shape UInt8 := ⟨frameHeader, receiveDataSize, by decide⟩

/-- The windows the automatic charging collector gathers. -/
def chargeShape : Shape UInt8 := ⟨autoChargeHeader, autoChargeDataSize, by decide⟩

/-- A well-formed sensor frame. -/
structure SensorFrame extends Window sensorShape where
  ok : sensorOk symbols

/-- A well-formed automatic charging frame. -/
structure ChargeFrame extends Window chargeShape where
  ok : chargeOk symbols

/-- One frame on the line. -/
inductive Frame
  | sensor (f : SensorFrame)
  | charge (f : ChargeFrame)

/-- The bytes of a frame as sent. -/
def Frame.bytes : Frame → List UInt8
  | .sensor f => f.symbols
  | .charge f => f.symbols

end Chassis
