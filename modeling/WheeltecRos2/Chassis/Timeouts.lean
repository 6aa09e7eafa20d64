/-
Reads that time out.

`Get_Sensor_Data_New` ignores what `Stm32_Serial.read` returns, so after a timeout
it goes on with whatever is in its uninitialised local buffer.  In the middle of a
frame that is one byte too many, and the frame is lost (`lostFrame_not_invisible`).
`timeoutsInvisible_iff` is the exact condition: every timeout falls between frames,
when both collectors wait for a header, and the stale byte is neither header.

A run is compared with the run on its received bytes alone after every call, in what
the decoder has accepted and in what its collectors hold.
-/
import WheeltecRos2.Chassis.Decoder
import WheeltecRos2.Lib.Runs

namespace Chassis

open Collector

/-- The write indices of the collectors and the bytes below them. -/
structure Collected where
  count : ℕ
  bytes : List UInt8
  count2 : ℕ
  autoChargeBytes : List UInt8
  deriving DecidableEq

namespace Decoder

def collected (d : Decoder) : Collected :=
  { count := d.count
    bytes := d.rx.toList.take d.count
    count2 := d.count2
    autoChargeBytes := d.rxAutoCharge.toList.take d.count2 }

/-- What a call accepted, if anything. -/
def Call.acceptances (c : Call) : List (Option SensorData × Option ChargeData) :=
  if c.returned ∨ c.charged then [Call.accepted c] else []

/-- The collectors hold nothing, and the stale byte of a timeout starts nothing. -/
def Quiet (d : Decoder) (read : SerialRead) : Prop :=
  ∀ stale, read = .timeout stale →
    d.count = 0 ∧ d.count2 = 0 ∧ stale ≠ Chassis.frameHeader ∧ stale ≠ autoChargeHeader

end Decoder

open Decoder

/-- A decoder and what it has accepted so far. -/
structure Session where
  decoder : Decoder
  accepted : List (Option SensorData × Option ChargeData)

namespace Session

/-- The decoder at power on. -/
def start (memory : Vector UInt8 0x7C) : Session := ⟨.init memory, []⟩

/-- One call of `Get_Sensor_Data_New`. -/
def call (s : Session) (read : SerialRead) : Session :=
  let c := s.decoder.getSensorDataNew read
  { decoder := c.state, accepted := s.accepted ++ Call.acceptances c }

/-- Both have accepted the same and hold the same. -/
structure Agree (s s' : Session) : Prop where
  accepted : s.accepted = s'.accepted
  collected : s.decoder.collected = s'.decoder.collected

end Session

def SerialRead.isByte : SerialRead → Bool
  | .byte _ => true
  | .timeout _ | .error => false

/-- The reads that stored a byte. -/
def received (reads : List SerialRead) : List SerialRead := reads.filter SerialRead.isByte

/-- After every call the decoder is where the received bytes alone lead it. -/
def TimeoutsInvisible (memory : Vector UInt8 0x7C) (reads : List SerialRead) : Prop :=
  ∀ before, before <+: reads →
    (Runs.run Session.call (.start memory) before).Agree
      (Runs.run Session.call (.start memory) (received before))

/-! ### A frame lost to a timeout -/

/-- A well-formed sensor frame, all fields zero, with a timeout after its header that
leaves the header on the stack. -/
def lostFrame : List SerialRead :=
  [.byte 0x7B, .timeout 0x7B] ++ List.replicate 21 (.byte 0) ++ [.byte 0x7B, .byte 0x7D]

/-- The bytes of the frame alone are accepted, and with the timeout they are not. -/
theorem lostFrame_not_invisible : ¬ TimeoutsInvisible (Vector.replicate 0x7C 0) lostFrame := by
  intro hinvisible
  have hsame := (hinvisible lostFrame (List.prefix_refl _)).accepted
  have hlength := congrArg List.length hsame
  revert hlength
  decide +kernel

/-! ### The exact condition -/

namespace Session

variable {s s' : Session} {t : Buffer sensorShape} {u : Buffer chargeShape}

/-- What the collectors hold is read off their models. -/
theorem collected_eq {d : Decoder} (h : Tracks d t u) :
    d.collected = ⟨t.symbols.length, t.symbols, u.symbols.length, u.symbols⟩ := by
  rw [collected, h.sensor.2, h.charge.2, h.sensor.1, h.charge.1]

theorem acceptances_eq {d : Decoder} (h : Tracks d t u) (b : UInt8) :
    Call.acceptances (d.getSensorDataNew (.byte b)) =
      if sensorAnswer (feed t b).2 = none ∧ chargeAnswer (feed u b).2 = none then []
      else [(sensorAnswer (feed t b).2, chargeAnswer (feed u b).2)] := by
  have haccepted := (step_tracks h b).2
  have hs : (Call.accepted (d.getSensorDataNew (.byte b))).1 = sensorAnswer (feed t b).2 :=
    congrArg Prod.fst haccepted
  have hc : (Call.accepted (d.getSensorDataNew (.byte b))).2 = chargeAnswer (feed u b).2 :=
    congrArg Prod.snd haccepted
  rw [Call.acceptances, ← hs, ← hc, Call.accepted]
  cases hret : (d.getSensorDataNew (.byte b)).returned <;>
    cases hch : (d.getSensorDataNew (.byte b)).charged <;> simp

/-- The sessions have accepted the same, and the same collectors describe both. -/
def Matched (p : Session × Session) : Prop :=
  p.1.accepted = p.2.accepted ∧
    ∃ (t : Buffer sensorShape) (u : Buffer chargeShape),
      Tracks p.1.decoder t u ∧ Tracks p.2.decoder t u

/-- Both sessions at once, the second on the received bytes only. -/
def callBoth (p : Session × Session) (read : SerialRead) : Session × Session :=
  (p.1.call read, if read.isByte then p.2.call read else p.2)

theorem run_callBoth (p : Session × Session) (reads : List SerialRead) :
    Runs.run callBoth p reads =
      (Runs.run call p.1 reads, Runs.run call p.2 (received reads)) := by
  induction reads generalizing p with
  | nil => rfl
  | cons read reads ih =>
    rw [Runs.run_cons, ih]
    cases hbyte : read.isByte <;> simp [callBoth, hbyte, received]

theorem Matched.agree {p : Session × Session} (h : Matched p) : p.1.Agree p.2 := by
  obtain ⟨haccepted, t, u, h1, h2⟩ := h
  exact ⟨haccepted, by rw [collected_eq h1, collected_eq h2]⟩

/-- A received byte moves both sessions alike. -/
theorem Matched.byte {p : Session × Session} (h : Matched p) (b : UInt8) :
    Matched (callBoth p (.byte b)) := by
  obtain ⟨haccepted, t, u, h1, h2⟩ := h
  refine ⟨?_, (feed t b).1, (feed u b).1, (step_tracks h1 b).1, (step_tracks h2 b).1⟩
  show p.1.accepted ++ _ = p.2.accepted ++ _
  rw [haccepted, acceptances_eq h1, acceptances_eq h2]

theorem quiet_timeout_iff {d : Decoder} (h : Tracks d t u) (stale : UInt8) :
    d.Quiet (.timeout stale) ↔ (feed t stale).1 = t ∧ (feed u stale).1 = u := by
  have ht : d.count = 0 ↔ t = idle := by
    rw [h.sensor.1, List.length_eq_zero_iff, ← eq_idle_iff]
  have hu : d.count2 = 0 ↔ u = idle := by
    rw [h.charge.1, List.length_eq_zero_iff, ← eq_idle_iff]
  rw [feed_eq_self_iff, feed_eq_self_iff, ← ht, ← hu]
  constructor
  · intro hquiet
    obtain ⟨hc, hc2, hs, ha⟩ := hquiet stale rfl
    exact ⟨⟨hc, hs⟩, hc2, ha⟩
  · rintro ⟨⟨hc, hs⟩, hc2, ha⟩ stale' heq
    cases heq
    exact ⟨hc, hc2, hs, ha⟩

/-- **A quiet read leaves the sessions matched.**  The stale byte is skipped by both
collectors. -/
theorem Matched.callBoth {p : Session × Session} {read : SerialRead} (h : Matched p)
    (hquiet : p.1.decoder.Quiet read) : Matched (callBoth p read) := by
  cases read with
  | byte b => exact h.byte b
  | error =>
    obtain ⟨haccepted, t, u, h1, h2⟩ := h
    refine ⟨?_, t, u, h1, h2⟩
    show p.1.accepted ++ [] = p.2.accepted
    rw [List.append_nil, haccepted]
  | timeout stale =>
    obtain ⟨haccepted, t, u, h1, h2⟩ := h
    obtain ⟨hc, hc2, hs, ha⟩ := hquiet stale rfl
    obtain ⟨ht, hu⟩ := (quiet_timeout_iff h1 stale).mp hquiet
    have hidle := (feed_eq_self_iff.mp ht).1
    have hidle2 := (feed_eq_self_iff.mp hu).1
    have htracks := (step_tracks h1 stale).1
    rw [ht, hu] at htracks
    refine ⟨?_, t, u, htracks, h2⟩
    have hnothing : Call.acceptances (p.1.decoder.getSensorDataNew (.byte stale)) = [] := by
      rw [acceptances_eq h1, hidle, hidle2, feed_skip hs, feed_skip ha]
      rfl
    show p.1.accepted ++ Call.acceptances (p.1.decoder.getSensorDataNew (.byte stale)) = _
    rw [hnothing, List.append_nil, haccepted]
    rfl

/-- **Any other timeout shows.**  A collector holds one byte more, or it has handed
its window over. -/
theorem Matched.not_agree {p : Session × Session} {read : SerialRead} (h : Matched p)
    (hloud : ¬ p.1.decoder.Quiet read) :
    ¬ (Session.callBoth p read).1.Agree (Session.callBoth p read).2 := by
  obtain ⟨-, t, u, h1, h2⟩ := h
  intro hagree
  cases read with
  | byte b => exact hloud fun stale heq => by cases heq
  | error => exact hloud fun stale heq => by cases heq
  | timeout stale =>
    refine hloud ((quiet_timeout_iff h1 stale).mpr ?_)
    have hheld := hagree.collected
    have hleft := collected_eq (step_tracks h1 stale).1
    have hright := collected_eq h2
    have hsame := (hleft.symm.trans hheld).trans hright
    rw [Collected.mk.injEq] at hsame
    exact ⟨Buffer.ext hsame.2.1, Buffer.ext hsame.2.2.2⟩

end Session

/-- **When timeouts are invisible.**  The decoder is, after every call, where the
received bytes alone lead it exactly if every timed-out read finds both collectors
waiting and leaves a byte that is no header. -/
theorem timeoutsInvisible_iff (memory : Vector UInt8 0x7C) (reads : List SerialRead) :
    TimeoutsInvisible memory reads ↔
      Runs.Along Session.call (fun s read => s.decoder.Quiet read) (.start memory) reads := by
  have hstart : Session.Matched (.start memory, .start memory) :=
    ⟨rfl, idle, idle, tracks_init memory, tracks_init memory⟩
  have hboth : (∀ before, before <+: reads →
        (Runs.run Session.callBoth (.start memory, .start memory) before).1.Agree
          (Runs.run Session.callBoth (.start memory, .start memory) before).2) ↔
      Runs.Along Session.callBoth (fun p read => p.1.decoder.Quiet read)
        (.start memory, .start memory) reads :=
    Runs.forall_prefix_iff_along hstart (fun _ h => h.agree) (fun _ _ h => h.callBoth)
      fun _ _ h => h.not_agree
  simp only [Session.run_callBoth] at hboth
  rw [TimeoutsInvisible, hboth]
  have hfst : ∀ p read, (Session.callBoth p read).1 = Session.call p.1 read := fun _ _ => rfl
  exact Runs.along_comap (R := fun s read => s.decoder.Quiet read) Prod.fst hfst

end Chassis
