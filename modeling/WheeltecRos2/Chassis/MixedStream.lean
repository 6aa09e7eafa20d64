/-
Streams of sensor and charging frames.

Feeding the concatenation of any frames to the decoder should give back exactly
the frames (`Inverts`).  The two collectors read the same bytes, and each may
start on a byte inside the other's frame, so this fails as soon as a payload
imitates a header and enough of what follows
(`phantomFrame_not_inverts`).  `inverts_iff` is the exact condition
(`NoImitation`): seen by either collector, the frames of the other kind between
two of its own fall into bytes that are not its header and whole pieces that
start with its header but fail its test.
-/
import WheeltecRos2.Chassis.Decoder

namespace Chassis

open Collector

/-- What the calls on one frame should accept: its values, at its last byte. -/
def Frame.expected : Frame → List (Option SensorData × Option ChargeData)
  | .sensor f =>
    List.replicate (receiveDataSize - 1) (none, none) ++ [(some (sensorData f.symbols), none)]
  | .charge f =>
    List.replicate (autoChargeDataSize - 1) (none, none) ++ [(none, some (chargeData f.symbols))]

/-- Fed the frames one after the other, the decoder accepts each frame of
either kind once, in order, and nothing else. -/
def Inverts (memory : Vector UInt8 0x7C) (frames : List Frame) : Prop :=
  (Decoder.init memory).trace (frames.flatMap Frame.bytes) = frames.flatMap Frame.expected

instance (memory : Vector UInt8 0x7C) (frames : List Frame) : Decidable (Inverts memory frames) :=
  inferInstanceAs (Decidable (_ = _))

/-- A frame as the sensor collector sees it. -/
def Frame.sensorItem : Frame → Item sensorShape
  | .sensor f => .own f.toWindow
  | .charge f => .other f.symbols

/-- A frame as the charging collector sees it. -/
def Frame.chargeItem : Frame → Item chargeShape
  | .sensor f => .other f.symbols
  | .charge f => .own f.toWindow

/-- No stretch of foreign frames disturbs either collector. -/
def NoImitation (frames : List Frame) : Prop :=
  Clear (fun w => sensorOk w.symbols) [] (frames.map Frame.sensorItem) ∧
    Clear (fun w => chargeOk w.symbols) [] (frames.map Frame.chargeItem)

/-! ### A sensor frame that charges the robot -/

/-- A well-formed sensor frame whose bytes 2..9 are a well-formed charging
frame. -/
def phantomFrame : SensorFrame where
  symbols := [0x7B, 0, 0x7C, 0, 0, 0, 1, 0, 0x7D, 0x7F, 0, 0, 0, 0, 0, 0, 0, 0, 0, 0, 0, 0, 4, 0x7D]
  length_eq := by decide
  header_first := by decide
  ok := by decide

/-- Fed this one sensor frame, the decoder also accepts a charging frame that
was never sent. -/
theorem phantomFrame_not_inverts :
    ¬ Inverts (Vector.replicate 0x7C 0) [.sensor phantomFrame] := by
  decide +kernel

/-! ### The exact condition -/

theorem sensorItem_symbols (frames : List Frame) :
    (frames.map Frame.sensorItem).flatMap Item.symbols = frames.flatMap Frame.bytes := by
  rw [List.flatMap_map]
  congr 1
  funext f
  cases f <;> rfl

theorem chargeItem_symbols (frames : List Frame) :
    (frames.map Frame.chargeItem).flatMap Item.symbols = frames.flatMap Frame.bytes := by
  rw [List.flatMap_map]
  congr 1
  funext f
  cases f <;> rfl

/-- The two sides of what is expected of one frame. -/
theorem Frame.expected_eq_zip (f : Frame) :
    f.expected = (f.sensorItem.expected.map (Option.map fun w => sensorData w.symbols)).zip
      (f.chargeItem.expected.map (Option.map fun w => chargeData w.symbols)) := by
  cases f with
  | sensor f =>
    have hlen : f.symbols.length = 24 := f.length_eq
    simp only [Frame.expected, Frame.sensorItem, Frame.chargeItem, Item.expected, hlen]
    rfl
  | charge f =>
    have hlen : f.symbols.length = 8 := f.length_eq
    simp only [Frame.expected, Frame.sensorItem, Frame.chargeItem, Item.expected, hlen]
    rfl

theorem Frame.expected_length (f : Frame) :
    f.sensorItem.expected.length = f.bytes.length ∧
      f.chargeItem.expected.length = f.bytes.length := by
  cases f with
  | sensor f =>
    have hlen : f.symbols.length = 24 := f.length_eq
    refine ⟨?_, by simp [Frame.chargeItem, Item.expected, Frame.bytes]⟩
    rw [Frame.bytes, hlen]
    rfl
  | charge f =>
    have hlen : f.symbols.length = 8 := f.length_eq
    refine ⟨by simp [Frame.sensorItem, Item.expected, Frame.bytes], ?_⟩
    rw [Frame.bytes, hlen]
    rfl

theorem expected_eq_zip (frames : List Frame) :
    frames.flatMap Frame.expected =
      (((frames.map Frame.sensorItem).flatMap Item.expected).map
        (Option.map fun w => sensorData w.symbols)).zip
      (((frames.map Frame.chargeItem).flatMap Item.expected).map
        (Option.map fun w => chargeData w.symbols)) := by
  induction frames with
  | nil => rfl
  | cons f frames ih =>
    obtain ⟨hs, hc⟩ := f.expected_length
    simp only [List.flatMap_cons, List.map_cons, List.map_append]
    rw [List.zip_append (by simp [hs, hc]), ← ih, ← f.expected_eq_zip]

theorem expected_length_eq (frames : List Frame) :
    ((frames.map Frame.sensorItem).flatMap Item.expected).length =
        (frames.flatMap Frame.bytes).length ∧
      ((frames.map Frame.chargeItem).flatMap Item.expected).length =
        (frames.flatMap Frame.bytes).length := by
  induction frames with
  | nil => exact ⟨rfl, rfl⟩
  | cons f frames ih =>
    obtain ⟨hs, hc⟩ := f.expected_length
    simp only [List.map_cons, List.flatMap_cons, List.length_append, hs, hc, ih.1, ih.2]
    exact ⟨trivial, trivial⟩

theorem zip_inj {α β : Type} {as as' : List α} {bs bs' : List β} (h : as.length = bs.length)
    (h' : as'.length = bs'.length) : as.zip bs = as'.zip bs' ↔ as = as' ∧ bs = bs' := by
  constructor
  · intro heq
    have hunzip := congrArg List.unzip heq
    rw [List.unzip_zip h, List.unzip_zip h'] at hunzip
    exact Prod.mk.inj hunzip
  · rintro ⟨has, hbs⟩
    rw [has, hbs]

/-- **The decoder inverts a stream of frames exactly when none is imitated.** -/
theorem inverts_iff (memory : Vector UInt8 0x7C) (frames : List Frame) :
    Inverts memory frames ↔ NoImitation frames := by
  obtain ⟨hslen, hclen⟩ := expected_length_eq frames
  have hsensor : ∀ w, Item.own w ∈ frames.map Frame.sensorItem → sensorOk w.symbols := by
    intro w hw
    obtain ⟨f, -, hf⟩ := List.mem_map.mp hw
    cases f with
    | sensor f =>
      obtain rfl : f.toWindow = w := by simpa [Frame.sensorItem] using hf
      exact f.ok
    | charge f => simp [Frame.sensorItem] at hf
  have hcharge : ∀ w, Item.own w ∈ frames.map Frame.chargeItem → chargeOk w.symbols := by
    intro w hw
    obtain ⟨f, -, hf⟩ := List.mem_map.mp hw
    cases f with
    | sensor f => simp [Frame.chargeItem] at hf
    | charge f =>
      obtain rfl : f.toWindow = w := by simpa [Frame.chargeItem] using hf
      exact f.ok
  -- each collector sees the frames of its kind as its own and all others as foreign
  have hs := clear_iff (p := fun w : Window sensorShape => sensorOk w.symbols)
    (f := Option.map fun w : Window sensorShape => sensorData w.symbols) (by simp) hsensor []
  have hc := clear_iff (p := fun w : Window chargeShape => chargeOk w.symbols)
    (f := Option.map fun w : Window chargeShape => chargeData w.symbols) (by simp) hcharge []
  simp only [List.nil_append, List.length_nil, List.replicate_zero, sensorItem_symbols,
    chargeItem_symbols] at hs hc
  -- the calls accept what the two collectors hand over, side by side
  rw [NoImitation, ← hs, ← hc, Inverts, Decoder.trace_eq (Decoder.tracks_init memory),
    expected_eq_zip, zip_inj (by simp) (by simp [hslen, hclen]), accepted, accepted,
    List.map_map, List.map_map]
  rfl

/-- No frame that contains the other kind's header: nothing to imitate. -/
theorem noImitation_of_no_header {frames : List Frame}
    (hsensor : ∀ f, Frame.sensor f ∈ frames → ∀ b ∈ f.symbols, b ≠ autoChargeHeader)
    (hcharge : ∀ f, Frame.charge f ∈ frames → ∀ b ∈ f.symbols, b ≠ frameHeader) :
    NoImitation frames := by
  constructor
  · refine clear_of_no_header ?_ (by simp)
    intro bs hbs
    obtain ⟨f, hf, heq⟩ := List.mem_map.mp hbs
    cases f with
    | sensor f => simp [Frame.sensorItem] at heq
    | charge f =>
      obtain rfl : f.symbols = bs := by simpa [Frame.sensorItem] using heq
      exact hcharge f hf
  · refine clear_of_no_header ?_ (by simp)
    intro bs hbs
    obtain ⟨f, hf, heq⟩ := List.mem_map.mp hbs
    cases f with
    | sensor f =>
      obtain rfl : f.symbols = bs := by simpa [Frame.chargeItem] using heq
      exact hsensor f hf
    | charge f => simp [Frame.chargeItem] at heq

end Chassis
