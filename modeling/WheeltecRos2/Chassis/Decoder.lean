/-
The serial decoder `turn_on_robot::Get_Sensor_Data_New`.

One call reads one byte, stores it in both receive buffers, advances the two
write indices and, when an index reaches the frame length, tests and unpacks
the frame.  The faithful function is `getSensorDataNew`; `step_tracks` shows
that it is two `Collector`s running on the same bytes, so that everything about
windows of the stream comes from there:

* `Tracks` relates the write indices and buffers to the two collectors;
* `trace` lists what every call of a run returned and updated, and `trace_eq`
  reads it off the collectors.
-/
import WheeltecRos2.Chassis.Frame

namespace Chassis

open Collector

/-- The state the calls share: the static indices, both receive buffers, and
what the accepted frames have set. -/
structure Decoder where
  count : ℕ
  count2 : ℕ
  /-- `Receive_Data.rx`. -/
  rx : Vector UInt8 receiveDataSize
  /-- `Receive_AutoCharge_Data.rx`, declared with `AutoCharge_HEADER` bytes. -/
  rxAutoCharge : Vector UInt8 0x7C
  frameHeader : UInt8
  frameTail : UInt8
  sensor : SensorData
  charge : ChargeData
  checkAutoChargeData : Bool

/-- What `Stm32_Serial.read(Receive_Data_Pr, 1)` does: it stores a byte, times
out and leaves what was on the stack, or throws. -/
inductive SerialRead
  | byte (b : UInt8)
  | timeout (stale : UInt8)
  | error

/-- What one call returns and leaves behind.  `charged` says whether it went
through the assignments of an automatic charging frame. -/
structure Call where
  returned : Bool
  charged : Bool
  state : Decoder

namespace Decoder

/-- Fill both arrays with the byte read. -/
def store (d : Decoder) (b : UInt8) : Decoder :=
  let rx := d.rx.setIfInBounds d.count b
  { d with
    rx := rx
    rxAutoCharge := d.rxAutoCharge.setIfInBounds d.count2 b
    frameHeader := rx[0]
    frameTail := rx[23] }

/-- Advance the indices: a frame starts at its header and then runs. -/
def advance (d : Decoder) (b : UInt8) : Decoder :=
  { d with
    count2 := if b = autoChargeHeader ∨ d.count2 > 0 then d.count2 + 1 else 0
    count := if b = Chassis.frameHeader ∨ d.count > 0 then d.count + 1 else 0 }

/-- The automatic charging part of a call. -/
def autoCharge (d : Decoder) : Bool × Decoder :=
  if d.count2 = autoChargeDataSize then
    let d := { d with count2 := 0 }
    let rx := d.rxAutoCharge.toList
    if byteAt rx (autoChargeDataSize - 1) = autoChargeTail ∧
        checkSum rx 6 = byteAt rx (autoChargeDataSize - 2) then
      (true, { d with charge := chargeData rx, checkAutoChargeData := true })
    else (false, d)
  else (false, d)

/-- The 24-byte part of a call. -/
def sensorPacket (d : Decoder) : Bool × Decoder :=
  if d.count = receiveDataSize then
    let d := { d with count := 0 }
    let rx := d.rx.toList
    if d.frameTail = Chassis.frameTail ∧ checkSum rx 22 = byteAt rx 22 then
      (true, { d with sensor := sensorData rx })
    else (false, d)
  else (false, d)

/-- `Get_Sensor_Data_New`. -/
def getSensorDataNew (d : Decoder) : SerialRead → Call
  | .error => ⟨false, false, d⟩
  | .byte b | .timeout b =>
    let (charged, d) := autoCharge ((d.store b).advance b)
    let (returned, d) := sensorPacket d
    ⟨returned, charged, d⟩

/-- Power on: `Receive_Data` is cleared by the constructor, the automatic
charging buffer keeps whatever the memory held. -/
def init (memory : Vector UInt8 0x7C) : Decoder :=
  { count := 0
    count2 := 0
    rx := Vector.replicate receiveDataSize 0
    rxAutoCharge := memory
    frameHeader := 0
    frameTail := 0
    sensor := ⟨0, ⟨0, 0, 0⟩, ⟨0, 0, 0, 0, 0, 0⟩, ⟨⟨0, 0, 0⟩, ⟨0, 0, 0⟩⟩, 0⟩
    charge := ⟨0, 0, false, false⟩
    checkAutoChargeData := false }

/-- The state after a run of calls. -/
def run (d : Decoder) : List UInt8 → Decoder
  | [] => d
  | b :: bs => run (d.getSensorDataNew (.byte b)).state bs

/-- What a call accepted: the sensor values if it returned true, the charging
values if it assigned them. -/
def Call.accepted (c : Call) : Option SensorData × Option ChargeData :=
  (if c.returned then some c.state.sensor else none,
    if c.charged then some c.state.charge else none)

/-- What each call of a run accepted. -/
def trace (d : Decoder) : List UInt8 → List (Option SensorData × Option ChargeData)
  | [] => []
  | b :: bs =>
    let c := d.getSensorDataNew (.byte b)
    Call.accepted c :: trace c.state bs

/-! ### The decoder is two collectors -/

/-- A write index and its array hold exactly what a collector holds. -/
def Holds {c : Shape UInt8} (count : ℕ) (rx : List UInt8) (s : Buffer c) : Prop :=
  count = s.symbols.length ∧ rx.take count = s.symbols

/-- Both indices and arrays hold what the two collectors hold. -/
structure Tracks (d : Decoder) (s : Buffer sensorShape) (t : Buffer chargeShape) : Prop where
  sensor : Holds d.count d.rx.toList s
  charge : Holds d.count2 d.rxAutoCharge.toList t

theorem tracks_init (memory : Vector UInt8 0x7C) : Tracks (init memory) idle idle :=
  ⟨⟨rfl, rfl⟩, ⟨rfl, rfl⟩⟩

theorem take_set_succ {rx : List UInt8} {n : ℕ} {b : UInt8} (h : n < rx.length) :
    (rx.set n b).take (n + 1) = rx.take n ++ [b] := by
  rw [List.take_succ_eq_append_getElem (by simpa using h), List.take_set_of_le (Nat.le_refl n),
    List.getElem_set_self]

/-- The index after one byte, before a full frame resets it. -/
theorem holds_feed {c : Shape UInt8} {count : ℕ} {rx : List UInt8} {s : Buffer c} {b : UInt8}
    (h : Holds count rx s) (hlen : c.size ≤ rx.length) :
    let next := if b = c.header ∨ count > 0 then count + 1 else 0
    ((feed s b).2 = none ∧ next ≠ c.size ∧ Holds next (rx.set count b) (feed s b).1) ∨
      ∃ w, feed s b = (idle, some w) ∧ next = c.size ∧
        (rx.set count b).take c.size = w.symbols := by
  obtain ⟨hcount, htake⟩ := h
  have hlt := s.lt_size
  have htwo := c.two_le
  have hset : (rx.set count b).take (count + 1) = s.symbols ++ [b] := by
    rw [take_set_succ (by omega), htake]
  -- skipped, kept or filled: the write index goes to 0, up by one, to the size
  rcases feed_cases s b with ⟨hs, hb, hf⟩ | ⟨t, ht, hf⟩ | ⟨w, hw, hf⟩
  · left
    have hzero : count = 0 := by rw [hcount, hs]; rfl
    simp only [hf, hb, hzero, gt_iff_lt, Nat.lt_irrefl, or_self, if_false]
    exact ⟨trivial, by omega, rfl, rfl⟩
  · left
    have hnext : b = c.header ∨ count > 0 := by
      by_contra hn
      obtain ⟨hb, hzero⟩ := not_or.mp hn
      have hnil : s.symbols = [] := List.length_eq_zero_iff.mp (by omega)
      exact hb (t.header_first b (by simp [ht, hnil]))
    have htlt := t.lt_size
    rw [ht, List.length_append, List.length_singleton] at htlt
    simp only [hf, if_pos hnext]
    refine ⟨trivial, by omega, ?_, by rw [hset, ht]⟩
    rw [ht, List.length_append, List.length_singleton, hcount]
  · right
    have hnext : b = c.header ∨ count > 0 := by
      by_contra hn
      obtain ⟨hb, hzero⟩ := not_or.mp hn
      have hnil : s.symbols = [] := List.length_eq_zero_iff.mp (by omega)
      have hfirst := w.header_first
      rw [hw, hnil] at hfirst
      exact hb (by simpa using hfirst)
    have hwlen := w.length_eq
    rw [hw, List.length_append, List.length_singleton] at hwlen
    refine ⟨w, hf, ?_, ?_⟩
    · rw [if_pos hnext]
      omega
    · rw [← hwlen, ← hcount, hset, hw]

theorem byteAt_take {rx : List UInt8} {n i : ℕ} (h : i < n) :
    byteAt (rx.take n) i = byteAt rx i := by
  simp [byteAt, List.getD_eq_getElem?_getD, List.getElem?_take_of_lt h]

theorem checkSum_take {rx : List UInt8} {n k : ℕ} (h : k ≤ n) :
    checkSum (rx.take n) k = checkSum rx k := by
  rw [checkSum, checkSum, List.take_take, Nat.min_eq_left h]

theorem chargeData_take (rx : List UInt8) :
    chargeData (rx.take autoChargeDataSize) = chargeData rx := by
  simp only [chargeData]
  rw [byteAt_take (by decide), byteAt_take (by decide), byteAt_take (by decide),
    byteAt_take (by decide), byteAt_take (by decide)]

/-- A full charging buffer is tested and unpacked as the window it holds. -/
theorem autoCharge_full {d : Decoder} {w : List UInt8} (h : d.count2 = autoChargeDataSize)
    (hw : d.rxAutoCharge.toList.take autoChargeDataSize = w) :
    autoCharge d =
      if chargeOk w then
        (true, { d with count2 := 0, charge := chargeData w, checkAutoChargeData := true })
      else (false, { d with count2 := 0 }) := by
  -- the array is longer than a frame, but the test and the fields read its start only
  subst hw
  rw [chargeData_take, chargeOk, byteAt_take (by decide), byteAt_take (by decide),
    checkSum_take (by decide), autoCharge, if_pos h]
  simp only [Bool.and_eq_true, beq_iff_eq]
  rfl

theorem autoCharge_partial {d : Decoder} (h : d.count2 ≠ autoChargeDataSize) :
    autoCharge d = (false, d) := by
  rw [autoCharge, if_neg h]

/-- A full sensor buffer is tested and unpacked as the window it holds. -/
theorem sensorPacket_full {d : Decoder} (h : d.count = receiveDataSize)
    (htail : d.frameTail = byteAt d.rx.toList 23) :
    sensorPacket d =
      if sensorOk d.rx.toList then
        (true, { d with count := 0, sensor := sensorData d.rx.toList })
      else (false, { d with count := 0 }) := by
  rw [sensorPacket, if_pos h]
  simp only [sensorOk, htail, Bool.and_eq_true, beq_iff_eq]

theorem sensorPacket_partial {d : Decoder} (h : d.count ≠ receiveDataSize) :
    sensorPacket d = (false, d) := by
  rw [sensorPacket, if_neg h]

/-- What a sensor collector's answer sets, if it passes the test. -/
def sensorAnswer (o : Option (Window sensorShape)) : Option SensorData :=
  (o.filter fun w => sensorOk w.symbols).map fun w => sensorData w.symbols

/-- What a charging collector's answer sets, if it passes the test. -/
def chargeAnswer (o : Option (Window chargeShape)) : Option ChargeData :=
  (o.filter fun w => chargeOk w.symbols).map fun w => chargeData w.symbols

/-- The charging part of a call follows the charging collector and leaves the
sensor collector alone. -/
theorem autoCharge_tracks {d : Decoder} {t : Buffer chargeShape} {b : UInt8}
    (h : Holds d.count2 d.rxAutoCharge.toList t) :
    let r := autoCharge ((d.store b).advance b)
    Holds r.2.count2 r.2.rxAutoCharge.toList (feed t b).1 ∧
      (if r.1 then some r.2.charge else none) = chargeAnswer (feed t b).2 ∧
      r.2.count = ((d.store b).advance b).count ∧
      r.2.rx = (d.store b).rx ∧ r.2.frameTail = (d.store b).frameTail := by
  have hrx : ((d.store b).advance b).rxAutoCharge.toList =
      d.rxAutoCharge.toList.set d.count2 b := by
    simp [store, advance]
  have hlen : chargeShape.size ≤ d.rxAutoCharge.toList.length := by
    simp [chargeShape, autoChargeDataSize]
  have hnext : ((d.store b).advance b).count2 =
      if b = chargeShape.header ∨ d.count2 > 0 then d.count2 + 1 else 0 := rfl
  rcases holds_feed (b := b) h hlen with ⟨hf, hne, hholds⟩ | ⟨w, hf, heq, htake⟩
  · have hpart := autoCharge_partial (d := (d.store b).advance b) hne
    intro r
    rw [show r = (false, (d.store b).advance b) from hpart, hf, hrx, hnext]
    exact ⟨hholds, rfl, rfl, rfl, rfl⟩
  · have hfull := autoCharge_full (d := (d.store b).advance b) (w := w.symbols) heq
      (by rw [hrx]; exact htake)
    simp only [hfull, hf]
    by_cases hok : chargeOk w.symbols
    · rw [if_pos hok]
      exact ⟨⟨rfl, rfl⟩, by simp [chargeAnswer, Option.filter, hok], rfl, rfl, rfl⟩
    · rw [if_neg hok]
      exact ⟨⟨rfl, rfl⟩, by simp [chargeAnswer, Option.filter, hok], rfl, rfl, rfl⟩

/-- The 24-byte part of a call follows the sensor collector and leaves the
charging side alone. -/
theorem sensorPacket_tracks {d e : Decoder} {s : Buffer sensorShape} {b : UInt8}
    (h : Holds d.count d.rx.toList s) (hcount : e.count = ((d.store b).advance b).count)
    (hrx : e.rx = (d.store b).rx) (htail : e.frameTail = (d.store b).frameTail) :
    let r := sensorPacket e
    Holds r.2.count r.2.rx.toList (feed s b).1 ∧
      (if r.1 then some r.2.sensor else none) = sensorAnswer (feed s b).2 ∧
      r.2.count2 = e.count2 ∧ r.2.rxAutoCharge = e.rxAutoCharge ∧ r.2.charge = e.charge := by
  have hlist : e.rx.toList = d.rx.toList.set d.count b := by
    rw [hrx]
    simp [store]
  have hlen : sensorShape.size ≤ d.rx.toList.length := by simp [sensorShape]
  have hnext : e.count = if b = sensorShape.header ∨ d.count > 0 then d.count + 1 else 0 := hcount
  -- `Frame_Tail` was read from the array in the same call
  have hlast : e.frameTail = byteAt e.rx.toList 23 := by
    rw [htail, hrx, byteAt, List.getD_eq_getElem?_getD, List.getElem?_eq_getElem (by simp)]
    rfl
  rcases holds_feed (b := b) h hlen with ⟨hf, hne, hholds⟩ | ⟨w, hf, heq, htake⟩
  · have hpart := sensorPacket_partial (d := e) (by rw [hnext]; exact hne)
    intro r
    rw [show r = (false, e) from hpart, hf, hlist, hnext]
    exact ⟨hholds, rfl, rfl, rfl, rfl⟩
  · have hw : e.rx.toList = w.symbols := by
      rw [← htake, hlist]
      exact (List.take_of_length_le (by simp [sensorShape])).symm
    have hfull := sensorPacket_full (d := e) (by rw [hnext]; exact heq) hlast
    simp only [hfull, hf, hw]
    by_cases hok : sensorOk w.symbols
    · rw [if_pos hok]
      exact ⟨⟨rfl, rfl⟩, by simp [sensorAnswer, Option.filter, hok], rfl, rfl, rfl⟩
    · rw [if_neg hok]
      exact ⟨⟨rfl, rfl⟩, by simp [sensorAnswer, Option.filter, hok], rfl, rfl, rfl⟩

/-- One call is one symbol of both collectors. -/
theorem step_tracks {d : Decoder} {s : Buffer sensorShape} {t : Buffer chargeShape}
    (h : Tracks d s t) (b : UInt8) :
    Tracks (d.getSensorDataNew (.byte b)).state (feed s b).1 (feed t b).1 ∧
      Call.accepted (d.getSensorDataNew (.byte b)) =
        (sensorAnswer (feed s b).2, chargeAnswer (feed t b).2) := by
  -- the charging part runs first and hands the sensor side on unchanged
  obtain ⟨hc, hca, hcount, hrx, htail⟩ := autoCharge_tracks (b := b) h.charge
  obtain ⟨hs, hsa, hcount2, hrx2, hch⟩ := sensorPacket_tracks (b := b) h.sensor hcount hrx htail
  refine ⟨⟨hs, ?_⟩, Prod.ext hsa ?_⟩
  · simp only [getSensorDataNew, hcount2, hrx2]
    exact hc
  · rw [← hca]
    simp only [Call.accepted, getSensorDataNew, hch]

theorem run_tracks {d : Decoder} {s : Buffer sensorShape} {t : Buffer chargeShape}
    (h : Tracks d s t) (bs : List UInt8) : Tracks (d.run bs) (rest s bs) (rest t bs) := by
  induction bs generalizing d s t with
  | nil => exact h
  | cons b bs ih => exact ih (step_tracks h b).1

/-- The trace of a run is what the two collectors hand over. -/
theorem trace_eq {d : Decoder} {s : Buffer sensorShape} {t : Buffer chargeShape}
    (h : Tracks d s t) (bs : List UInt8) :
    d.trace bs = ((windows s bs).map sensorAnswer).zip ((windows t bs).map chargeAnswer) := by
  induction bs generalizing d s t with
  | nil => rfl
  | cons b bs ih =>
    obtain ⟨htracks, haccepted⟩ := step_tracks h b
    simp only [trace, windows, List.map_cons, List.zip_cons_cons, haccepted, ih htracks]

/-- While a call runs, the byte goes to a slot of its array. -/
theorem Tracks.bounds {d : Decoder} {s : Buffer sensorShape} {t : Buffer chargeShape}
    (h : Tracks d s t) : d.count < receiveDataSize ∧ d.count2 < autoChargeDataSize := by
  have hs := s.lt_size
  have ht := t.lt_size
  rw [← h.sensor.1] at hs
  rw [← h.charge.1] at ht
  exact ⟨hs, ht⟩

end Decoder

end Chassis
