/-
What the decoder accepts on arbitrary input.

Whatever bytes arrive, a call that returns true has just consumed a well-formed
24-byte sensor frame and unpacked exactly its fields, a call that assigns the
charging values has just consumed a well-formed 8-byte charging frame, any
other call leaves the values as they were, frames of one kind never overlap,
and the write indices stay inside the frame lengths (`acceptance_sound`).
-/
import WheeltecRos2.Chassis.Decoder

namespace Chassis

open Collector

/-- The big-endian signed 16-bit field at byte `i` of a window. -/
def field16 (w : List UInt8) (i : ℕ) : ℤ := signed16 (byteAt w i) (byteAt w (i + 1))

/-- The values unpacked are the fields of the window `w`. -/
structure SensorFields (v : SensorData) (w : List UInt8) : Prop where
  velX : v.robotVel.x = (field16 w 2 : ℚ) / 1000
  velY : v.robotVel.y = (field16 w 4 : ℚ) / 1000
  velZ : v.robotVel.z = (field16 w 6 : ℚ) / 1000
  acceleX : v.mpu6050Data.acceleX = field16 w 8
  acceleY : v.mpu6050Data.acceleY = field16 w 10
  acceleZ : v.mpu6050Data.acceleZ = field16 w 12
  gyrosX : v.mpu6050Data.gyrosX = field16 w 14
  gyrosY : v.mpu6050Data.gyrosY = field16 w 16
  gyrosZ : v.mpu6050Data.gyrosZ = field16 w 18

theorem sensorFields_sensorData (w : List UInt8) : SensorFields (sensorData w) w where
  velX := odomTrans_eq _ _
  velY := odomTrans_eq _ _
  velZ := odomTrans_eq _ _
  acceleX := imuTrans_eq _ _
  acceleY := imuTrans_eq _ _
  acceleZ := imuTrans_eq _ _
  gyrosX := imuTrans_eq _ _
  gyrosY := imuTrans_eq _ _
  gyrosZ := imuTrans_eq _ _

/-- The last `size` bytes of the stream `bs` are the bytes `w` with header
`first`, tail `last` and, next to it, the XOR of all bytes before. -/
structure EndsWithFrame (bs w : List UInt8) (size : ℕ) (first last : UInt8) : Prop where
  suffix : w <:+ bs
  length : w.length = size
  header : w[0]? = some first
  tail : w[size - 1]? = some last
  checksum : w[size - 2]? = some ((w.take (size - 2)).foldl (· ^^^ ·) 0)

theorem byteAt_eq_iff {w : List UInt8} {i : ℕ} {b : UInt8} (h : i < w.length) :
    byteAt w i = b ↔ w[i]? = some b := by
  rw [byteAt, List.getD_eq_getElem?_getD, List.getElem?_eq_getElem h]
  simp

/-- A window with the right tail and checksum is a frame. -/
theorem endsWithFrame_window {bs : List UInt8} {c : Shape UInt8} {w : Window c} {last : UInt8}
    (hsuffix : w.symbols <:+ bs) (htail : byteAt w.symbols (c.size - 1) = last)
    (hsum : checkSum w.symbols (c.size - 2) = byteAt w.symbols (c.size - 2)) :
    EndsWithFrame bs w.symbols c.size c.header last := by
  have hlen := w.length_eq
  have hsize := c.two_le
  refine ⟨hsuffix, hlen, ?_, ?_, ?_⟩
  · rw [← List.head?_eq_getElem?]
    exact w.header_first
  · exact (byteAt_eq_iff (by omega)).mp htail
  · exact (byteAt_eq_iff (by omega)).mp hsum.symm

theorem endsWithFrame_sensor {bs : List UInt8} {w : Window sensorShape}
    (hsuffix : w.symbols <:+ bs) (hok : sensorOk w.symbols) :
    EndsWithFrame bs w.symbols 24 frameHeader frameTail := by
  rw [sensorOk, Bool.and_eq_true, beq_iff_eq, beq_iff_eq] at hok
  exact endsWithFrame_window hsuffix hok.1 hok.2

theorem endsWithFrame_charge {bs : List UInt8} {w : Window chargeShape}
    (hsuffix : w.symbols <:+ bs) (hok : chargeOk w.symbols) :
    EndsWithFrame bs w.symbols 8 autoChargeHeader autoChargeTail := by
  rw [chargeOk, Bool.and_eq_true, beq_iff_eq, beq_iff_eq] at hok
  exact endsWithFrame_window hsuffix hok.1 hok.2

namespace Decoder

theorem sensorAnswer_eq_some {o : Option (Window sensorShape)} {v : SensorData}
    (h : sensorAnswer o = some v) :
    ∃ w, o = some w ∧ sensorOk w.symbols ∧ v = sensorData w.symbols := by
  obtain ⟨w, hw, hv⟩ := Option.map_eq_some_iff.mp h
  obtain ⟨ho, hok⟩ := Option.filter_eq_some_iff.mp hw
  exact ⟨w, ho, hok, hv.symm⟩

theorem chargeAnswer_eq_some {o : Option (Window chargeShape)} {v : ChargeData}
    (h : chargeAnswer o = some v) :
    ∃ w, o = some w ∧ chargeOk w.symbols ∧ v = chargeData w.symbols := by
  obtain ⟨w, hw, hv⟩ := Option.map_eq_some_iff.mp h
  obtain ⟨ho, hok⟩ := Option.filter_eq_some_iff.mp hw
  exact ⟨w, ho, hok, hv.symm⟩

/-- A call that returns true was handed a window by the sensor collector. -/
theorem returned_window {d : Decoder} {s : Buffer sensorShape} {t : Buffer chargeShape} {b : UInt8}
    (h : Tracks d s t) (hret : (d.getSensorDataNew (.byte b)).returned) :
    ∃ w, (feed s b).2 = some w ∧ sensorOk w.symbols ∧
      (d.getSensorDataNew (.byte b)).state.sensor = sensorData w.symbols := by
  have haccepted := congrArg Prod.fst (step_tracks h b).2
  rw [Call.accepted, if_pos hret] at haccepted
  exact sensorAnswer_eq_some haccepted.symm

/-- A call that assigns the charging values was handed a window by the charging
collector. -/
theorem charged_window {d : Decoder} {s : Buffer sensorShape} {t : Buffer chargeShape} {b : UInt8}
    (h : Tracks d s t) (hch : (d.getSensorDataNew (.byte b)).charged) :
    ∃ w, (feed t b).2 = some w ∧ chargeOk w.symbols ∧
      (d.getSensorDataNew (.byte b)).state.charge = chargeData w.symbols := by
  have haccepted := congrArg Prod.snd (step_tracks h b).2
  rw [Call.accepted, if_pos hch] at haccepted
  exact chargeAnswer_eq_some haccepted.symm

/-- The charging part assigns the charging values only where it says so. -/
theorem autoCharge_unchanged {d : Decoder} (h : ¬(autoCharge d).1) :
    (autoCharge d).2.charge = d.charge ∧
      (autoCharge d).2.checkAutoChargeData = d.checkAutoChargeData := by
  rw [autoCharge] at h ⊢
  dsimp only at h ⊢
  split_ifs at h ⊢
  · exact absurd rfl h
  · exact ⟨rfl, rfl⟩
  · exact ⟨rfl, rfl⟩

theorem sensorPacket_charge (d : Decoder) :
    (sensorPacket d).2.charge = d.charge ∧
      (sensorPacket d).2.checkAutoChargeData = d.checkAutoChargeData := by
  rw [sensorPacket]
  dsimp only
  split_ifs
  · exact ⟨rfl, rfl⟩
  · exact ⟨rfl, rfl⟩
  · exact ⟨rfl, rfl⟩

/-- A call that does not assign the charging values keeps them, with the flag beside them. -/
theorem charge_unchanged {d : Decoder} {b : UInt8}
    (h : ¬(d.getSensorDataNew (.byte b)).charged) :
    (d.getSensorDataNew (.byte b)).state.charge = d.charge ∧
      (d.getSensorDataNew (.byte b)).state.checkAutoChargeData = d.checkAutoChargeData := by
  obtain ⟨hcharge, hflag⟩ := autoCharge_unchanged h
  obtain ⟨hcharge', hflag'⟩ := sensorPacket_charge (autoCharge ((d.store b).advance b)).2
  exact ⟨hcharge'.trans hcharge, hflag'.trans hflag⟩

/-- **Soundness of acceptance.**  After any bytes `bs`, both write indices are
inside the frame lengths, and for every next byte `b`: what the call accepts is
a well-formed frame at the very end of the stream, its fields are the ones
unpacked, and a later call of the same kind accepts a disjoint window.  A call
that accepts no charging frame leaves the charging values alone. -/
theorem acceptance_sound (memory : Vector UInt8 0x7C) (bs : List UInt8) :
    ((init memory).run bs).count ≤ 23 ∧ ((init memory).run bs).count2 ≤ 7 ∧
    ∀ b : UInt8,
      ((((init memory).run bs).getSensorDataNew (.byte b)).returned →
        (∃ w, EndsWithFrame (bs ++ [b]) w 24 0x7B 0x7D ∧
          SensorFields (((init memory).run bs).getSensorDataNew (.byte b)).state.sensor w) ∧
        ∀ (mid : List UInt8) (b' : UInt8),
          (((init memory).run (bs ++ b :: mid)).getSensorDataNew (.byte b')).returned →
            bs.length + 1 + 24 ≤ (bs ++ b :: mid ++ [b']).length) ∧
      ((((init memory).run bs).getSensorDataNew (.byte b)).charged →
        (∃ w, EndsWithFrame (bs ++ [b]) w 8 0x7C 0x7F ∧
          (((init memory).run bs).getSensorDataNew (.byte b)).state.charge = chargeData w) ∧
        ∀ (mid : List UInt8) (b' : UInt8),
          (((init memory).run (bs ++ b :: mid)).getSensorDataNew (.byte b')).charged →
            bs.length + 1 + 8 ≤ (bs ++ b :: mid ++ [b']).length) ∧
      (¬(((init memory).run bs).getSensorDataNew (.byte b)).charged →
        (((init memory).run bs).getSensorDataNew (.byte b)).state.charge =
            ((init memory).run bs).charge ∧
          (((init memory).run bs).getSensorDataNew (.byte b)).state.checkAutoChargeData =
            ((init memory).run bs).checkAutoChargeData) := by
  have htracks := fun bs => run_tracks (tracks_init memory) bs
  obtain ⟨hcount, hcount2⟩ := (htracks bs).bounds
  refine ⟨Nat.le_of_lt_succ hcount, Nat.le_of_lt_succ hcount2, fun b => ⟨?_, ?_, charge_unchanged⟩⟩
  · intro hret
    obtain ⟨w, hw, hok, hdata⟩ := returned_window (htracks bs) hret
    refine ⟨⟨w.symbols, endsWithFrame_sensor (feed_window_suffix hw) hok, ?_⟩, ?_⟩
    · rw [hdata]
      exact sensorFields_sensorData _
    · intro mid b' hret'
      obtain ⟨w', hw', -⟩ := returned_window (htracks (bs ++ b :: mid)) hret'
      -- the second window lies behind the first, so `mid` makes up its bytes
      have hapart : 24 ≤ mid.length + 1 := window_apart hw hw'
      simp only [List.length_append, List.length_cons, List.length_nil]
      omega
  · intro hch
    obtain ⟨w, hw, hok, hdata⟩ := charged_window (htracks bs) hch
    refine ⟨⟨w.symbols, endsWithFrame_charge (feed_window_suffix hw) hok, hdata⟩, ?_⟩
    intro mid b' hch'
    obtain ⟨w', hw', -⟩ := charged_window (htracks (bs ++ b :: mid)) hch'
    have hapart : 8 ≤ mid.length + 1 := window_apart hw hw'
    simp only [List.length_append, List.length_cons, List.length_nil]
    omega

end Decoder

end Chassis
