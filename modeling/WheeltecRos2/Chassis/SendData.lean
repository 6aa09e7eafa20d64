/-
The frames the node sends to the chassis controller.

Four callbacks share the buffer `Send_Data.tx`: `Cmd_Vel_Callback`, `Red_Vel_Callback` and
`Set_Charge_Callback` fill it and write it to the serial port, and `Recharge_Flag_Callback`
sets the flag that the first of them sends along.  Whatever was in the buffer, what is
written is a well-formed frame, but `Set_Charge_Callback` leaves byte 1 as it was if it does
not know the request: the frame then depends on the callbacks before it
(`unknownRequest_resends_mark`).  `outgoingFrame_iff` is the exact condition.

Doubles are values of any type, with any conversion of a component to thousandths in a
`short`.
-/
import WheeltecRos2.Chassis.Decoder
import WheeltecRos2.Chassis.Velocity
import WheeltecRos2.Lib.Runs
import Mathlib.Tactic.IntervalCases

namespace Chassis

/-- `SEND_DATA_SIZE`. -/
abbrev sendDataSize : ℕ := 11

/-- `Send_Data.tx`. -/
abbrev SendBuffer := Vector UInt8 sendDataSize

/-- The components of a twist that the callbacks read. -/
structure TwistMsg (D : Type) where
  linearX : D
  linearY : D
  angularZ : D

/-- The field `x` of a `Spawn` request: a number, or an infinity or NaN. -/
inductive SpawnX
  | number (x : ℚ)
  | notFinite

/-- `round`: halves away from zero.  An infinity and NaN equal no integer. -/
def SpawnX.round : SpawnX → Option ℤ
  | .number x => some (if 0 ≤ x then ⌊x + 1 / 2⌋ else ⌈x - 1 / 2⌉)
  | .notFinite => none

/-- How `Stm32_Serial.write` ends. -/
inductive WriteResult
  | written
  | ioException
  | otherException
  deriving DecidableEq

/-- What happens to the node: a call of `Get_Sensor_Data_New`, or one of the callbacks. -/
inductive ChassisEvent (D : Type)
  | read (read : SerialRead)
  | cmdVel (twistAux : TwistMsg D)
  | redVel (twistAux : TwistMsg D)
  | rechargeFlag (data : Int8)
  | setCharge (x : SpawnX) (write : WriteResult)

/-- The frame that a callback hands to the serial port, and `res->name`. -/
structure Output where
  frame : Option (List UInt8)
  name : Option String

/-- The part of the node that the callbacks share. -/
structure ChassisNode where
  decoder : Decoder
  tx : SendBuffer
  autoRecharge : Int8

/-! ### The buffer -/

namespace SendBuffer

/-- The last two bytes. -/
def finish (tx : SendBuffer) : SendBuffer :=
  let tx := tx.set 9 (checkSum tx.toList 9)
  tx.set 10 frameTail

/-- The fields of a velocity, and the end of the frame. -/
def putTwist {D : Type} (scaled : D → BitVec 16) (twistAux : TwistMsg D) (tx : SendBuffer) :
    SendBuffer :=
  let transition := scaled twistAux.linearX
  let tx := (tx.set 4 (lowByte transition)).set 3 (highByte transition)
  let transition := scaled twistAux.linearY
  let tx := (tx.set 6 (lowByte transition)).set 5 (highByte transition)
  let transition := scaled twistAux.angularZ
  let tx := (tx.set 8 (lowByte transition)).set 7 (highByte transition)
  finish tx

/-- The fields of a charge command, and the end of the frame. -/
def putZeros (tx : SendBuffer) : SendBuffer :=
  finish (((((((tx.set 2 0).set 3 0).set 4 0).set 5 0).set 6 0).set 7 0).set 8 0)

end SendBuffer

namespace ChassisNode

/-- The node after its constructor; the charging buffer keeps what the memory held. -/
def start (memory : Vector UInt8 0x7C) : ChassisNode :=
  { decoder := .init memory, tx := Vector.replicate sendDataSize 0, autoRecharge := 0 }

section Callbacks

variable {D : Type} (scaled : D → BitVec 16) (n : ChassisNode)

/-- `Cmd_Vel_Callback`. -/
def cmdVelCallback (twistAux : TwistMsg D) : ChassisNode × Output :=
  let tx := ((n.tx.set 0 frameHeader).set 1 n.autoRecharge.toUInt8).set 2 0
  let tx := SendBuffer.putTwist scaled twistAux tx
  ({ n with tx }, { frame := some tx.toList, name := none })

/-- `Red_Vel_Callback`. -/
def redVelCallback (twistAux : TwistMsg D) : ChassisNode × Output :=
  let tx := ((n.tx.set 0 frameHeader).set 1 3).set 2 0
  let tx := SendBuffer.putTwist scaled twistAux tx
  ({ n with tx }, { frame := some tx.toList, name := none })

/-- `Recharge_Flag_Callback`. -/
def rechargeFlagCallback (data : Int8) : ChassisNode × Output :=
  ({ n with autoRecharge := data }, { frame := none, name := none })

/-- The answer of `Set_Charge_Callback`, from its last test on. -/
def answerCharge : ChassisNode × String :=
  if n.tx[1] = 0 then
    if n.decoder.charge.chargeSetState = false then ({ n with autoRecharge := 0 }, "true")
    else (n, "false")
  else if n.decoder.charge.chargeSetState = true then (n, "true")
  else (n, "false")

/-- The mark in `tx[1]`, and the flag that a request to stop charging clears. -/
def markCharge (x : SpawnX) : ChassisNode :=
  if x.round = some 1 then { n with tx := n.tx.set 1 1 }
  else if x.round = some 2 then { n with tx := n.tx.set 1 2 }
  else if x.round = some 0 then { n with tx := n.tx.set 1 0, autoRecharge := 0 }
  else n

/-- `Set_Charge_Callback` up to the write. -/
def fillCharge (x : SpawnX) : ChassisNode :=
  let n := { n with tx := n.tx.set 0 frameHeader }
  let n := n.markCharge x
  { n with tx := SendBuffer.putZeros n.tx }

/-- `Set_Charge_Callback`.  Its `catch` clause sets the name to `false`, and the answer
sets it again. -/
def setChargeCallback (x : SpawnX) (write : WriteResult) : ChassisNode × Output :=
  let n := n.fillCharge x
  let frame := some n.tx.toList
  match write with
  | .otherException => (n, { frame, name := none })
  | .written | .ioException =>
    let (n, name) := n.answerCharge
    (n, { frame, name := some name })

/-- One event. -/
def handle : ChassisEvent D → ChassisNode × Output
  | .read read =>
    ({ n with decoder := (n.decoder.getSensorDataNew read).state }, { frame := none, name := none })
  | .cmdVel twistAux => n.cmdVelCallback scaled twistAux
  | .redVel twistAux => n.redVelCallback scaled twistAux
  | .rechargeFlag data => n.rechargeFlagCallback data
  | .setCharge x write => n.setChargeCallback x write

def step (event : ChassisEvent D) : ChassisNode := (n.handle scaled event).1

/-- The node after a history of events. -/
def after (memory : Vector UInt8 0x7C) (history : List (ChassisEvent D)) : ChassisNode :=
  Runs.run (step scaled) (start memory) history

end Callbacks

/-- What the last frame left in `tx[1]`. -/
def mark (n : ChassisNode) : UInt8 := n.tx[1]

/-- The mark of the frame that a request for charging sends. -/
def chargeMark (n : ChassisNode) (x : SpawnX) : UInt8 :=
  if x.round = some 1 then 1
  else if x.round = some 2 then 2
  else if x.round = some 0 then 0
  else n.mark

end ChassisNode

/-! ### Well-formed frames -/

/-- A frame as the controller expects it. -/
structure CommandFrame (tx : List UInt8) : Prop where
  length : tx.length = sendDataSize
  header : byteAt tx 0 = frameHeader
  checked : byteAt tx 9 = checkSum tx 9
  tail : byteAt tx 10 = frameTail

/-- The event writes well-formed frames, and the same on both nodes if their flags are
equal. -/
structure OutgoingFrame {D : Type} (scaled : D → BitVec 16) (n n' : ChassisNode)
    (event : ChassisEvent D) : Prop where
  wellFormed : ∀ frame ∈ (n.handle scaled event).2.frame, CommandFrame frame
  same : n.autoRecharge = n'.autoRecharge →
    (n.handle scaled event).2.frame = (n'.handle scaled event).2.frame

/-- The event is a request that no branch of `Set_Charge_Callback` knows. -/
def ChassisEvent.Unknown {D : Type} : ChassisEvent D → Prop
  | .setCharge x _ => x.round ≠ some 0 ∧ x.round ≠ some 1 ∧ x.round ≠ some 2
  | _ => False

/-! ### What is written -/

section Results

/-- A frame with its mark and its six bytes of data. -/
def commandFrame (mark b3 b4 b5 b6 b7 b8 : UInt8) : List UInt8 :=
  let tx := [frameHeader, mark, 0, b3, b4, b5, b6, b7, b8]
  tx ++ [checkSum tx 9, frameTail]

theorem commandFrame_wellFormed (mark b3 b4 b5 b6 b7 b8 : UInt8) :
    CommandFrame (commandFrame mark b3 b4 b5 b6 b7 b8) :=
  ⟨rfl, rfl, rfl, rfl⟩

/-- The mark can be read off the frame. -/
theorem commandFrame_inj {mark mark' b3 b4 b5 b6 b7 b8 : UInt8} :
    commandFrame mark b3 b4 b5 b6 b7 b8 = commandFrame mark' b3 b4 b5 b6 b7 b8 ↔ mark = mark' := by
  constructor
  · intro h
    exact congrArg (fun tx => byteAt tx 1) h
  · rintro rfl
    rfl

theorem exists_bytes (tx : SendBuffer) :
    ∃ b0 b1 b2 b3 b4 b5 b6 b7 b8 b9 b10, tx = #v[b0, b1, b2, b3, b4, b5, b6, b7, b8, b9, b10] := by
  refine ⟨tx[0], tx[1], tx[2], tx[3], tx[4], tx[5], tx[6], tx[7], tx[8], tx[9], tx[10], ?_⟩
  refine Vector.ext ?_
  intro i hi
  interval_cases i <;> rfl

variable {D : Type} {scaled : D → BitVec 16} {n n' : ChassisNode}

/-- Every byte of a velocity frame is set. -/
theorem putTwist_toList (tx : SendBuffer) (mark : UInt8) (twistAux : TwistMsg D) :
    (SendBuffer.putTwist scaled twistAux (((tx.set 0 frameHeader).set 1 mark).set 2 0)).toList =
      commandFrame mark (highByte (scaled twistAux.linearX)) (lowByte (scaled twistAux.linearX))
        (highByte (scaled twistAux.linearY)) (lowByte (scaled twistAux.linearY))
        (highByte (scaled twistAux.angularZ)) (lowByte (scaled twistAux.angularZ)) := by
  obtain ⟨b0, b1, b2, b3, b4, b5, b6, b7, b8, b9, b10, rfl⟩ := exists_bytes tx
  rfl

/-- Every byte of a charge command but the mark is set. -/
theorem putZeros_toList {tx : SendBuffer} (h : tx[0] = frameHeader) :
    (SendBuffer.putZeros tx).toList = commandFrame tx[1] 0 0 0 0 0 0 := by
  obtain ⟨b0, b1, b2, b3, b4, b5, b6, b7, b8, b9, b10, rfl⟩ := exists_bytes tx
  obtain rfl : b0 = frameHeader := h
  rfl

namespace ChassisNode

/-- The buffer before the zeros, and the flag. -/
theorem fillCharge_eq (n : ChassisNode) (x : SpawnX) :
    n.fillCharge x =
      { n with
        tx := SendBuffer.putZeros ((n.tx.set 0 frameHeader).set 1 (n.chargeMark x))
        autoRecharge := if x.round = some 0 then 0 else n.autoRecharge } := by
  obtain ⟨b0, b1, b2, b3, b4, b5, b6, b7, b8, b9, b10, htx⟩ := exists_bytes n.tx
  rw [fillCharge, chargeMark]
  by_cases h1 : x.round = some 1
  · simp [markCharge, h1]
  by_cases h2 : x.round = some 2
  · simp [markCharge, h2]
  by_cases h0 : x.round = some 0
  · simp [markCharge, h0]
  · rw [if_neg h1, if_neg h2, if_neg h0, if_neg h0, mark, markCharge, if_neg h1, if_neg h2,
      if_neg h0, htx]
    rfl

/-- The frame of a charge request. -/
theorem fillCharge_toList (n : ChassisNode) (x : SpawnX) :
    (n.fillCharge x).tx.toList = commandFrame (n.chargeMark x) 0 0 0 0 0 0 := by
  rw [fillCharge_eq]
  show (SendBuffer.putZeros ((n.tx.set 0 frameHeader).set 1 (n.chargeMark x))).toList = _
  rw [putZeros_toList]
  · simp
  · simp

theorem fillCharge_mark (n : ChassisNode) (x : SpawnX) :
    (n.fillCharge x).mark = n.chargeMark x := by
  have hbyte := congrArg (fun tx => byteAt tx 1) (n.fillCharge_toList x)
  simpa [byteAt, commandFrame, List.getD_eq_getElem?_getD, mark] using hbyte

/-- **The frame of a charge request** is handed to the serial port, however that ends. -/
theorem setCharge_frame (n : ChassisNode) (x : SpawnX) (write : WriteResult) :
    (n.setChargeCallback x write).2.frame = some (commandFrame (n.chargeMark x) 0 0 0 0 0 0) := by
  rw [← fillCharge_toList]
  cases write <;> rw [setChargeCallback]

/-- **What an event writes.**  Nothing, or a well-formed frame. -/
theorem handle_frame_wellFormed (n : ChassisNode) (event : ChassisEvent D) :
    ∀ frame ∈ (n.handle scaled event).2.frame, CommandFrame frame := by
  intro frame hframe
  cases event with
  | read read => cases hframe
  | rechargeFlag data => cases hframe
  | cmdVel twistAux =>
    obtain rfl := Option.some.inj hframe
    rw [putTwist_toList]
    exact commandFrame_wellFormed _ _ _ _ _ _ _
  | redVel twistAux =>
    obtain rfl := Option.some.inj hframe
    rw [putTwist_toList]
    exact commandFrame_wellFormed _ _ _ _ _ _ _
  | setCharge x write =>
    rw [handle, setCharge_frame] at hframe
    obtain rfl := Option.some.inj hframe
    exact commandFrame_wellFormed _ _ _ _ _ _ _

/-- A request that is known determines the mark. -/
theorem chargeMark_eq_iff {x : SpawnX} :
    n.chargeMark x = n'.chargeMark x ↔
      (x.round ≠ some 0 ∧ x.round ≠ some 1 ∧ x.round ≠ some 2 → n.mark = n'.mark) := by
  rw [chargeMark, chargeMark]
  by_cases h1 : x.round = some 1
  · simp [h1]
  by_cases h2 : x.round = some 2
  · simp [h2]
  by_cases h0 : x.round = some 0
  · simp [h0]
  · simp [h0, h1, h2]

/-- Two nodes with the same flag write the same, unless they complete an unknown request
with different marks. -/
theorem handle_frame_eq_iff (hflag : n.autoRecharge = n'.autoRecharge) (event : ChassisEvent D) :
    (n.handle scaled event).2.frame = (n'.handle scaled event).2.frame ↔
      (event.Unknown → n.mark = n'.mark) := by
  cases event with
  | read read => exact iff_of_true rfl False.elim
  | rechargeFlag data => exact iff_of_true rfl False.elim
  | cmdVel twistAux =>
    refine iff_of_true (congrArg some ?_) False.elim
    rw [putTwist_toList, putTwist_toList, hflag]
  | redVel twistAux =>
    refine iff_of_true (congrArg some ?_) False.elim
    rw [putTwist_toList, putTwist_toList]
  | setCharge x write =>
    rw [handle, handle, setCharge_frame, setCharge_frame, Option.some.injEq, commandFrame_inj]
    exact chargeMark_eq_iff

/-- **When a frame depends on its own request only.**  After any two histories that leave
the same flag an event writes the same well-formed frame exactly if it is not an unknown
charge request, or the last frames of both histories had the same mark. -/
theorem outgoingFrame_iff (scaled : D → BitVec 16) (memory memory' : Vector UInt8 0x7C)
    (history history' : List (ChassisEvent D)) (event : ChassisEvent D) :
    OutgoingFrame scaled (after scaled memory history) (after scaled memory' history') event ↔
      ((after scaled memory history).autoRecharge = (after scaled memory' history').autoRecharge →
        event.Unknown →
          (after scaled memory history).mark = (after scaled memory' history').mark) := by
  constructor
  · rintro ⟨-, hsame⟩ hflag
    exact (handle_frame_eq_iff hflag event).mp (hsame hflag)
  · intro hmark
    refine ⟨handle_frame_wellFormed _ event, ?_⟩
    intro hflag
    exact (handle_frame_eq_iff hflag event).mpr (hmark hflag)

/-- On rational components the frames of both velocity callbacks are those of
`velocityFrame`. -/
theorem velocity_frames (r : DoubleRounding) (n : ChassisNode) (twist : Twist) :
    let twistAux : TwistMsg ℚ := ⟨twist.linearX, twist.linearY, twist.angularZ⟩
    (n.cmdVelCallback (transition r) twistAux).2.frame =
        some (Chassis.cmdVelCallback r n.autoRecharge twist) ∧
      (n.redVelCallback (transition r) twistAux).2.frame =
        some (Chassis.redVelCallback r twist) := by
  refine ⟨congrArg some ?_, congrArg some ?_⟩
  · rw [putTwist_toList]
    rfl
  · rw [putTwist_toList]
    rfl

/-- A standing robot is told so by `Red_Vel_Callback`, then charging is requested with the
unknown number 5. -/
theorem unknownRequest_resends_mark :
    ¬ OutgoingFrame (transition (.exact _))
      (after (transition (.exact _)) (Vector.replicate 0x7C 0) [.redVel ⟨0, 0, 0⟩])
      (after (transition (.exact _)) (Vector.replicate 0x7C 0) [])
      (.setCharge (.number 5) .written) := by
  intro hsame
  have hframe := hsame.same rfl
  revert hframe
  decide +kernel

end ChassisNode

end Results

end Chassis
