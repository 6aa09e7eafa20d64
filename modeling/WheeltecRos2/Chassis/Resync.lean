/-
Resynchronisation after noise.

A failed test throws all 24 bytes away and the search goes on behind them, so
the decoder can stay out of step for ever: opened one byte late on a stream of
one repeated frame, it accepts nothing (`not_bounded_resync`).  After noise `g`
it accepts every frame from number `n` on exactly when the bytes before that
frame can be cut into skipped bytes and whole windows (`acceptsAfter_iff`); if no
frame has a header among its own bytes, one frame is always enough
(`acceptsAfter_one`).
-/
import WheeltecRos2.Chassis.Decoder

namespace Chassis

open Collector

/-- The bytes of a sequence of sensor frames. -/
def sensorBytes (frames : List SensorFrame) : List UInt8 := frames.flatMap fun f => f.symbols

/-- Fed `g` and then the frames, the decoder accepts every frame after the
first `n`: the call on its last byte returns true with its values. -/
def AcceptsAfter (memory : Vector UInt8 0x7C) (g : List UInt8) (frames : List SensorFrame)
    (n : ℕ) : Prop :=
  ∀ i, n ≤ i → ∀ f, frames[i]? = some f →
    (((Decoder.init memory).trace (g ++ sensorBytes frames))[g.length + 24 * i + 23]?).map
      Prod.fst = some (some (sensorData f.symbols))

/-- Any window will do. -/
abbrev AnyWindow : Window sensorShape → Prop := fun _ => True

theorem sensorBytes_append (as bs : List SensorFrame) :
    sensorBytes (as ++ bs) = sensorBytes as ++ sensorBytes bs := by
  simp [sensorBytes]

theorem sensorBytes_length (frames : List SensorFrame) :
    (sensorBytes frames).length = 24 * frames.length := by
  induction frames with
  | nil => rfl
  | cons f frames ih =>
    have hlen : f.symbols.length = 24 := f.length_eq
    have hcons : sensorBytes (f :: frames) = f.symbols ++ sensorBytes frames := rfl
    rw [hcons, List.length_append, ih, hlen, List.length_cons]
    omega

/-! ### One frame -/

theorem rest_sensorBytes (frames : List SensorFrame) :
    rest (idle : Buffer sensorShape) (sensorBytes frames) = idle := by
  induction frames with
  | nil => rfl
  | cons f frames ih =>
    have hcons : sensorBytes (f :: frames) = f.symbols ++ sensorBytes frames := rfl
    rw [hcons, rest_append, (rest_window f.toWindow).1, ih]

/-- Frame `i` is accepted iff the collector is idle when it starts. -/
theorem frame_accepted_iff (memory : Vector UInt8 0x7C) (g : List UInt8)
    {frames : List SensorFrame} {i : ℕ} {f : SensorFrame} (hf : frames[i]? = some f) :
    (((Decoder.init memory).trace (g ++ sensorBytes frames))[g.length + 24 * i + 23]?).map
        Prod.fst = some (some (sensorData f.symbols)) ↔
      rest (idle : Buffer sensorShape) (g ++ sensorBytes (frames.take i)) = idle := by
  obtain ⟨hi, hget⟩ := List.getElem?_eq_some_iff.mp hf
  have hsplit : sensorBytes frames =
      sensorBytes (frames.take i) ++ (f.symbols ++ sensorBytes (frames.drop (i + 1))) := by
    conv_lhs => rw [← List.take_append_drop i frames, List.drop_eq_getElem_cons hi, hget]
    rw [sensorBytes_append]
    rfl
  have hflen : f.symbols.length = 24 := f.length_eq
  have hpre : (g ++ sensorBytes (frames.take i)).length = g.length + 24 * i := by
    rw [List.length_append, sensorBytes_length, List.length_take, Nat.min_eq_left (by omega)]
  -- The answer at the last byte of the frame, given the state before the frame.
  have hanswer : (((Decoder.init memory).trace
      (g ++ sensorBytes frames))[g.length + 24 * i + 23]?).map Prod.fst =
        (windows (rest (idle : Buffer sensorShape) (g ++ sensorBytes (frames.take i)))
          f.symbols).getLast?.map Decoder.sensorAnswer := by
    rw [Decoder.trace_eq (Decoder.tracks_init memory), ← List.getElem?_map, List.map_fst_zip
      (by simp), List.getElem?_map, hsplit, ← List.append_assoc, windows_append,
      List.getElem?_append_right (by simp [hpre]), windows_length, hpre, windows_append,
      show g.length + 24 * i + 23 - (g.length + 24 * i) = 24 - 1 by omega,
      List.getElem?_append_left (by simp [hflen]), List.getLast?_eq_getElem?, windows_length, hflen]
  rw [hanswer]
  constructor
  -- a collector that is not idle has too few bytes of the frame left at its end
  · intro h
    by_contra hne
    have hlast := accepted_own_of_ne_idle (p := fun w => sensorOk w.symbols) (w := f.toWindow) hne
    rw [accepted, List.getLast?_map] at hlast
    obtain ⟨o, ho, hfilter⟩ := Option.map_eq_some_iff.mp hlast
    rw [ho, Option.map_some, Decoder.sensorAnswer, hfilter] at h
    simp at h
  · intro h
    rw [h, (rest_window f.toWindow).2, List.getLast?_append]
    simp [Decoder.sensorAnswer, Option.filter, f.ok]

/-- Once idle at a frame boundary, idle at all later ones. -/
theorem idle_of_le {g : List UInt8} {frames : List SensorFrame} {n i : ℕ} (h : n ≤ i)
    (hidle : rest (idle : Buffer sensorShape) (g ++ sensorBytes (frames.take n)) = idle) :
    rest (idle : Buffer sensorShape) (g ++ sensorBytes (frames.take i)) = idle := by
  obtain ⟨k, rfl⟩ := Nat.exists_eq_add_of_le h
  rw [List.take_add, sensorBytes_append, ← List.append_assoc, rest_append, hidle, rest_sensorBytes]

/-- **When the decoder is back in step.**  After noise `g` every frame from
number `n` on is accepted iff there is none, or the noise and the first `n`
frames fall, from left to right, into single bytes other than the header and
24-byte pieces that start with it. -/
theorem acceptsAfter_iff (memory : Vector UInt8 0x7C) (g : List UInt8) (frames : List SensorFrame)
    (n : ℕ) :
    AcceptsAfter memory g frames n ↔
      frames.length ≤ n ∨ Cut AnyWindow (g ++ sensorBytes (frames.take n)) := by
  have hcut : Cut AnyWindow (g ++ sensorBytes (frames.take n)) ↔
      rest (idle : Buffer sensorShape) (g ++ sensorBytes (frames.take n)) = idle := by
    rw [cut_iff]
    simp [AnyWindow]
  rw [hcut]
  constructor
  · intro h
    by_cases hlen : frames.length ≤ n
    · exact .inl hlen
    · right
      have hget : frames[n]? = some (frames.get ⟨n, by omega⟩) := by
        rw [List.getElem?_eq_getElem (by omega)]
        rfl
      exact (frame_accepted_iff memory g hget).mp (h n (Nat.le_refl n) _ hget)
  · rintro (hlen | hidle) i hi f hf
    · obtain ⟨hlt, -⟩ := List.getElem?_eq_some_iff.mp hf
      omega
    · exact (frame_accepted_iff memory g hf).mpr (idle_of_le hi hidle)

/-- If no frame repeats the header behind its first byte, one frame is enough
after any noise. -/
theorem acceptsAfter_one (memory : Vector UInt8 0x7C) (g : List UInt8) {frames : List SensorFrame}
    (h : ∀ f ∈ frames, ∀ b ∈ f.symbols.tail, b ≠ frameHeader) :
    AcceptsAfter memory g frames 1 := by
  rw [acceptsAfter_iff]
  cases frames with
  | nil => exact .inl (Nat.zero_le 1)
  | cons f frames =>
    right
    have htake : sensorBytes ((f :: frames).take 1) = f.symbols := List.append_nil _
    rw [htake, cut_iff, rest_append]
    exact ⟨rest_own_of_no_header (h f List.mem_cons_self) _, fun _ _ => trivial⟩

/-! ### Noise that is never overcome -/

/-- A well-formed frame with a second header behind the first. -/
def driftFrame : SensorFrame where
  symbols := [0x7B, 0x7B, 0, 0, 0, 0, 0, 0, 0, 0, 0, 0, 0, 0, 0, 0, 0, 0, 0, 0, 0, 0, 0, 0x7D]
  length_eq := by decide
  header_first := by decide
  ok := by decide

/-- The frame without its first byte, as held by a collector. -/
def driftTail : Buffer sensorShape where
  symbols := driftFrame.symbols.tail
  lt_size := by decide
  header_first := fun _ hx => (Option.some.inj hx).symm

theorem rest_driftFrame : rest driftTail driftFrame.symbols = driftTail := by
  -- 23 bytes are held, so the header of the next frame fills a window that fails its test
  let w : Window sensorShape := ⟨driftTail.symbols ++ [0x7B], by decide, by decide⟩
  have hfill : feed driftTail 0x7B = (idle, some w) := feed_fill rfl
  have hcons : driftFrame.symbols = 0x7B :: driftTail.symbols := rfl
  rw [hcons, rest, hfill, (rest_buffer driftTail).1]

/-- Opened one byte late, the collector is as late after every frame. -/
theorem rest_drift (n : ℕ) :
    rest (idle : Buffer sensorShape)
      (driftTail.symbols ++ sensorBytes (List.replicate n driftFrame)) = driftTail := by
  induction n with
  | zero =>
    rw [List.replicate_zero, sensorBytes, List.flatMap_nil, List.append_nil]
    exact (rest_buffer driftTail).1
  | succ n ih =>
    have hlast : sensorBytes [driftFrame] = driftFrame.symbols := List.append_nil _
    rw [List.replicate_succ', sensorBytes_append, ← List.append_assoc, rest_append, ih, hlast,
      rest_driftFrame]

/-- No number of frames is always enough. -/
theorem not_bounded_resync :
    ¬∃ (memory : Vector UInt8 0x7C) (n : ℕ), ∀ (g : List UInt8) (frames : List SensorFrame),
      AcceptsAfter memory g frames n := by
  rintro ⟨memory, n, h⟩
  have hget : (List.replicate (n + 1) driftFrame)[n]? = some driftFrame := by
    simp
  have hidle := (frame_accepted_iff memory driftTail.symbols hget).mp
    (h driftTail.symbols _ n (Nat.le_refl n) driftFrame hget)
  rw [List.take_replicate, Nat.min_eq_left (Nat.le_succ n), rest_drift] at hidle
  exact absurd (congrArg Buffer.symbols hidle) (by decide)

end Chassis
