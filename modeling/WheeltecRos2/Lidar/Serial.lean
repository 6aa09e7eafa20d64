/-
The framing of the serial packets, `receive_data`.

A call skips to a byte A5 and reads one byte more.  If that is not 5A the call gives up, and both
bytes are gone.  So a packet whose A5 follows an A5 that was taken for the start of a marker is
lost (`lostAfterA5`): between packets the call pairs the bytes of a run of A5, and the next
packet is received exactly if that run has even length (`resyncs_iff`).

The port delivers the bytes in chunks of any size, at least one byte at a time while there are
any.  Waiting, reopening the port and the texts are left out.
-/
import WheeltecRos2.Lib.Marker
import Mathlib.Logic.Function.Iterate

namespace Lidar

open Marker

/-- `lidar_name`. -/
inductive LidarName
  | m10
  | m10P
  | m10Plus
  | m10Gps
  | n10
  | m10Double
  | n10P
  | l10
  | other
  deriving DecidableEq

/-- `PACKET_SIZE` of the lidars whose packets have a checksum. -/
def LidarName.packetSize : LidarName → ℕ
  | n10P => 108
  | _ => 58

/-! ### The buffer -/

/-- `packet_bytes`. -/
abbrev Buffer := ℕ → UInt8

namespace Buffer

def write (buffer : Buffer) (start : ℕ) (bytes : List UInt8) : Buffer :=
  fun i => if start ≤ i then bytes.getD (i - start) (buffer i) else buffer i

/-- The first `n` bytes. -/
def take (buffer : Buffer) (n : ℕ) : List UInt8 := (List.range n).map buffer

def ofList (bytes : List UInt8) : Buffer := fun i => bytes.getD i 0

@[simp] theorem length_take (buffer : Buffer) (n : ℕ) : (buffer.take n).length = n := by
  simp [take]

@[simp] theorem take_zero (buffer : Buffer) : buffer.take 0 = [] := rfl

theorem take_write_start (buffer : Buffer) (start : ℕ) (bytes : List UInt8) :
    (buffer.write start bytes).take start = buffer.take start := by
  refine List.map_congr_left fun i hi => ?_
  rw [List.mem_range] at hi
  rw [write, if_neg (by omega)]

/-- A write appends to what is in front of it. -/
theorem take_write (buffer : Buffer) (start : ℕ) (bytes : List UInt8) :
    (buffer.write start bytes).take (start + bytes.length) = buffer.take start ++ bytes := by
  rw [take, List.range_add, List.map_append, List.map_map]
  congr 1
  · exact take_write_start buffer start bytes
  · refine List.ext_getElem (by simp) fun i hi hi' => ?_
    simp [write, hi']

theorem take_getD {buffer : Buffer} {n i : ℕ} {bytes : List UInt8}
    (hbytes : buffer.take n = bytes) (hi : i < n) : buffer i = ofList bytes i := by
  simp [← hbytes, ofList, take, hi]

theorem getD_of_append {buffer : Buffer} {n i : ℕ} {after packet rest : List UInt8}
    (h : buffer.take n ++ after = packet ++ rest) (hi : i < n) (hpacket : i < packet.length) :
    buffer i = ofList packet i := by
  have hget := congrArg (fun bytes => bytes[i]?) h
  simpa [ofList, take, hi, hpacket, List.getElem?_append_left] using hget

end Buffer

/-- `N10_CalCRC8`. -/
def n10CalCRC8 (p : Buffer) (len : ℕ) : UInt8 :=
  let sum := (List.range len).foldl (fun sum i => sum + (p i).toNat) 0
  UInt8.ofNat (sum % 256)

theorem n10CalCRC8_congr {p q : Buffer} {len : ℕ} (h : ∀ i < len, p i = q i) :
    n10CalCRC8 p len = n10CalCRC8 q len := by
  have hsum : (List.range len).foldl (fun sum i => sum + (p i).toNat) 0 =
      (List.range len).foldl (fun sum i => sum + (q i).toNat) 0 := by
    refine List.foldl_ext _ _ _ fun sum i hi => ?_
    rw [h i (List.mem_range.mp hi)]
  rw [n10CalCRC8, n10CalCRC8, hsum]

/-! ### The port -/

/-- The bytes that are not read yet, and how many bytes each read is given at most. -/
structure Port where
  bytes : List UInt8
  chunks : ℕ → ℕ
  reads : ℕ

structure Serial where
  buffer : Buffer
  port : Port

namespace Serial

/-- `serial_->read(packet_bytes + start, length)`: the number of bytes read. -/
def read (s : Serial) (start length : ℕ) : ℕ × Serial :=
  let cleared := s.buffer.write start (List.replicate length 0)
  let n := min (max 1 (s.port.chunks s.port.reads)) length
  let chunk := s.port.bytes.take n
  (chunk.length,
    { buffer := cleared.write start chunk
      port := { s.port with bytes := s.port.bytes.drop n, reads := s.port.reads + 1 } })

theorem length_bytes_read (s : Serial) (start length : ℕ) :
    (s.read start length).1 + (s.read start length).2.port.bytes.length =
      s.port.bytes.length := by
  simp only [read, List.length_take, List.length_drop]
  omega

/-- A read moves bytes from the port to the buffer. -/
theorem take_read (s : Serial) (start length : ℕ) :
    (s.read start length).2.buffer.take (start + (s.read start length).1) ++
        (s.read start length).2.port.bytes =
      s.buffer.take start ++ s.port.bytes := by
  simp only [read, Buffer.take_write, Buffer.take_write_start, List.append_assoc,
    List.take_append_drop]

theorem read_le (s : Serial) (start length : ℕ) : (s.read start length).1 ≤ length := by
  simp only [read, List.length_take]
  omega

/-- The port has no gaps. -/
theorem read_pos {s : Serial} {length : ℕ} (start : ℕ) (hlength : 0 < length)
    (hbytes : s.port.bytes ≠ []) : 0 < (s.read start length).1 := by
  have hpos := List.length_pos_iff.mpr hbytes
  simp only [read, List.length_take]
  omega

theorem read_one {s : Serial} {byte : UInt8} {tail : List UInt8} (start : ℕ)
    (hbytes : s.port.bytes = byte :: tail) :
    (s.read start 1).1 = 1 ∧ (s.read start 1).2.buffer.take (start + 1) =
      s.buffer.take start ++ [byte] ∧ (s.read start 1).2.port.bytes = tail := by
  have hone : (s.read start 1).1 = 1 := by
    have hpos := read_pos start Nat.one_pos (s := s) (by simp [hbytes])
    have hle := s.read_le start 1
    omega
  have htake := s.take_read start 1
  rw [hone, hbytes, List.append_cons] at htake
  exact ⟨hone, List.append_inj htake (by simp)⟩

/-- Step 1, with whether a byte A5 was found. -/
def sync (s : Serial) : Bool × Serial :=
  if (s.read 0 1).1 = 0 then (false, (s.read 0 1).2)
  else if (s.read 0 1).2.buffer 0 = 0xA5 then (true, (s.read 0 1).2)
  else (s.read 0 1).2.sync
termination_by s.port.bytes.length
decreasing_by
  have hlength := s.length_bytes_read 0 1
  omega

/-- Steps 3 and 5: reading on up to `target` bytes, as long as there are any. -/
def fill (s : Serial) (count target : ℕ) : ℕ × Serial :=
  if count < target then
    if (s.read count (target - count)).1 = 0 then (count, (s.read count (target - count)).2)
    else
      (s.read count (target - count)).2.fill (count + (s.read count (target - count)).1) target
  else (count, s)
termination_by target - count

/-- The search skips the bytes in front of an A5, and takes it. -/
theorem sync_skip {before tail : List UInt8} (hbefore : 0xA5 ∉ before) (s : Serial)
    (hbytes : s.port.bytes = before ++ 0xA5 :: tail) :
    s.sync.1 = true ∧ s.sync.2.buffer.take 1 = [0xA5] ∧ s.sync.2.port.bytes = tail := by
  induction before generalizing s with
  | nil =>
    obtain ⟨hone, hbuffer, htail⟩ := read_one 0 hbytes
    have hfirst : (s.read 0 1).2.buffer 0 = 0xA5 := Buffer.take_getD hbuffer Nat.zero_lt_one
    rw [sync, if_neg (by omega), if_pos hfirst]
    exact ⟨rfl, hbuffer, htail⟩
  | cons byte before ih =>
    obtain ⟨hone, hbuffer, htail⟩ := read_one 0 hbytes
    have hfirst : (s.read 0 1).2.buffer 0 = byte := Buffer.take_getD hbuffer Nat.zero_lt_one
    rw [List.mem_cons, not_or] at hbefore
    rw [sync, if_neg (by omega), if_neg (by rw [hfirst]; exact Ne.symm hbefore.1)]
    exact ih hbefore.2 _ htail

theorem length_bytes_sync (s : Serial) :
    s.sync.1.toNat + s.sync.2.port.bytes.length ≤ s.port.bytes.length := by
  fun_induction sync s with
  | case1 s hnone =>
    have hlength := s.length_bytes_read 0 1
    simp only [Bool.toNat_false]
    omega
  | case2 s hsome hfirst =>
    have hlength := s.length_bytes_read 0 1
    simp only [Bool.toNat_true]
    omega
  | case3 s hsome hfirst ih =>
    have hlength := s.length_bytes_read 0 1
    omega

/-- What is read goes behind the bytes read so far. -/
theorem take_fill (s : Serial) (count target : ℕ) :
    (s.fill count target).2.buffer.take (s.fill count target).1 ++
        (s.fill count target).2.port.bytes =
      s.buffer.take count ++ s.port.bytes := by
  fun_induction fill s count target with
  | case1 s count hcount hnone =>
    have htake := s.take_read count (target - count)
    rwa [hnone, Nat.add_zero] at htake
  | case2 s count hcount hsome ih => rw [ih, take_read]
  | case3 s count hcount => rfl

/-- Reading on ends at the target if the port holds enough. -/
theorem fill_target {s : Serial} {count target : ℕ} (hcount : count ≤ target)
    (hbytes : target ≤ count + s.port.bytes.length) : (s.fill count target).1 = target := by
  fun_induction fill s count target with
  | case1 s count hlt hnone =>
    have hpos := s.read_pos count (Nat.sub_pos_of_lt hlt)
      (List.length_pos_iff.mp (by omega))
    omega
  | case2 s count hlt hsome ih =>
    have hle := s.read_le count (target - count)
    have hlength := s.length_bytes_read count (target - count)
    exact ih (by omega) (by omega)
  | case3 s count hge => omega

end Serial

/-- Step 4: the length of the packet. -/
def packetLength (lidar : LidarName) (buffer : Buffer) : ℕ :=
  let device := fun len => if buffer 2 = 0x55 ∧ buffer 3 = 0x00 then 188 else len
  match lidar with
  | .m10 => device 92
  | .m10Gps => device 102
  | .n10P => 108
  | .n10 | .l10 => (buffer 2).toNat
  | .m10P => device 160
  | .m10Plus => device 122
  | .m10Double => device 188
  | .other => 92

/-- What a call returns, `none` if it waits for ever, and what it leaves. -/
structure Call where
  len : Option ℕ
  serial : Serial

/-- Steps 3 to 6, behind the marker. -/
def receivePacket (lidar : LidarName) (s : Serial) : Call :=
  let (count, s) := s.fill 2 4
  if count < 4 then { len := none, serial := s }
  else
    let len := packetLength lidar s.buffer
    if len < 4 ∨ 500 < len then { len := some 0, serial := s }
    else
      let (count, s) := s.fill count len
      if count < len then { len := some 0, serial := s }
      -- the checksum of an `N10_P` packet does not count
      else if (lidar = .n10 ∨ lidar = .l10 ∨ lidar = .n10P) ∧
          s.buffer (lidar.packetSize - 1) ≠ n10CalCRC8 s.buffer (lidar.packetSize - 1) ∧
          lidar ≠ .n10P then { len := some 0, serial := s }
      else { len := some len, serial := s }

/-- `receive_data`. -/
def receiveData (lidar : LidarName) (s : Serial) : Call :=
  let (found, s) := s.sync
  if found = false then { len := some 0, serial := s }
  else
    let (rc, s) := s.read 1 1
    if rc = 0 ∨ s.buffer 1 ≠ 0x5A then { len := some 0, serial := s }
    else receivePacket lidar s

/-! ### A call -/

theorem length_bytes_fill (s : Serial) (count target : ℕ) :
    (s.fill count target).1 + (s.fill count target).2.port.bytes.length =
      count + s.port.bytes.length := by
  simpa using congrArg List.length (s.take_fill count target)

theorem len_receivePacket_le (lidar : LidarName) (s : Serial) :
    (receivePacket lidar s).len.getD 0 + (receivePacket lidar s).serial.port.bytes.length ≤
      2 + s.port.bytes.length := by
  have hheader := length_bytes_fill s 2 4
  have hbody := length_bytes_fill (s.fill 2 4).2 (s.fill 2 4).1
    (packetLength lidar (s.fill 2 4).2.buffer)
  simp only [receivePacket]
  split_ifs <;> simp only [Option.getD_none, Option.getD_some] <;> omega

/-- What a call returns was taken from the port. -/
theorem len_receiveData_le (lidar : LidarName) (s : Serial) :
    (receiveData lidar s).len.getD 0 + (receiveData lidar s).serial.port.bytes.length ≤
      s.port.bytes.length := by
  have hsync := s.length_bytes_sync
  have hread := s.sync.2.length_bytes_read 1 1
  have hpacket := len_receivePacket_le lidar (s.sync.2.read 1 1).2
  simp only [receiveData]
  split_ifs with hfound hsecond
  · simp only [Option.getD_some]
    omega
  · simp only [Option.getD_some]
    omega
  · rw [not_or] at hsecond
    rw [Bool.not_eq_false] at hfound
    rw [hfound, Bool.toNat_true] at hsync
    omega

/-- A broken marker is consumed with the byte that breaks it. -/
theorem receiveData_skip {before tail : List UInt8} {c : UInt8} (lidar : LidarName) {s : Serial}
    (hbefore : 0xA5 ∉ before) (hc : c ≠ 0x5A)
    (hbytes : s.port.bytes = before ++ 0xA5 :: c :: tail) :
    (receiveData lidar s).len = some 0 ∧ (receiveData lidar s).serial.port.bytes = tail := by
  obtain ⟨hfound, hbuffer, hsync⟩ := s.sync_skip hbefore hbytes
  obtain ⟨hone, hmarker, htail⟩ := Serial.read_one 1 hsync
  rw [hbuffer] at hmarker
  have hsecond : (s.sync.2.read 1 1).2.buffer 1 = c := Buffer.take_getD hmarker Nat.one_lt_two
  simp only [receiveData, hfound, hsecond]
  rw [if_neg (by decide), if_pos (Or.inr hc)]
  exact ⟨rfl, htail⟩

/-- The call goes on behind a marker. -/
theorem receiveData_marker {before tail : List UInt8} (lidar : LidarName) {s : Serial}
    (hbefore : 0xA5 ∉ before) (hbytes : s.port.bytes = before ++ 0xA5 :: 0x5A :: tail) :
    ∃ s' : Serial, receiveData lidar s = receivePacket lidar s' ∧
      s'.buffer.take 2 = [0xA5, 0x5A] ∧ s'.port.bytes = tail := by
  obtain ⟨hfound, hbuffer, hsync⟩ := s.sync_skip hbefore hbytes
  obtain ⟨hone, hmarker, htail⟩ := Serial.read_one 1 hsync
  rw [hbuffer] at hmarker
  have hsecond : (s.sync.2.read 1 1).2.buffer 1 = 0x5A :=
    Buffer.take_getD hmarker Nat.one_lt_two
  refine ⟨(s.sync.2.read 1 1).2, ?_, hmarker, htail⟩
  simp only [receiveData, hfound, hsecond]
  rw [if_neg (by decide), if_neg (by simp [hone])]

/-! ### Well-formed packets -/

/-- A packet of the length that the lidar declares, with its checksum in the last byte. -/
structure WellFormed (lidar : LidarName) (packet : List UInt8) : Prop where
  length : packet.length = lidar.packetSize
  marker : [0xA5, 0x5A] <+: packet
  declared : packetLength lidar (Buffer.ofList packet) = packet.length
  checksum : Buffer.ofList packet (lidar.packetSize - 1) =
    n10CalCRC8 (Buffer.ofList packet) (lidar.packetSize - 1)

theorem WellFormed.ne_nil {lidar : LidarName} {packet : List UInt8}
    (hpacket : WellFormed lidar packet) : packet ≠ [] := by
  obtain ⟨body, rfl⟩ := hpacket.marker
  simp

theorem packetLength_congr {lidar : LidarName} {buffer buffer' : Buffer}
    (h : ∀ i < 4, buffer i = buffer' i) :
    packetLength lidar buffer = packetLength lidar buffer' := by
  simp only [packetLength, h 2 (by omega), h 3 (by omega)]

theorem receivePacket_packet {lidar : LidarName} {packet rest : List UInt8} {s : Serial}
    (hpacket : WellFormed lidar packet)
    (hbytes : s.buffer.take 2 ++ s.port.bytes = packet ++ rest) :
    (receivePacket lidar s).len = some packet.length ∧
      (receivePacket lidar s).serial.buffer.take packet.length = packet ∧
      (receivePacket lidar s).serial.port.bytes = rest := by
  have hsize : 4 ≤ packet.length ∧ packet.length ≤ 500 := by
    rw [hpacket.length]
    cases lidar <;> decide
  have hlength := congrArg List.length hbytes
  simp only [List.length_append, Buffer.length_take] at hlength
  have hheader : (s.fill 2 4).1 = 4 := Serial.fill_target (by omega) (by omega)
  have htake := s.take_fill 2 4
  rw [hheader, hbytes] at htake
  -- the length is read off the header, and the checksum off the whole packet
  have hlen : packetLength lidar (s.fill 2 4).2.buffer = packet.length := by
    rw [← hpacket.declared]
    exact packetLength_congr fun i hi => Buffer.getD_of_append htake hi (by omega)
  have hbody : ((s.fill 2 4).2.fill 4 packet.length).1 = packet.length := by
    have hconsumed := length_bytes_fill s 2 4
    exact Serial.fill_target (by omega) (by omega)
  have hall := (s.fill 2 4).2.take_fill 4 packet.length
  rw [hbody, htake] at hall
  obtain ⟨hbuffer, hrest⟩ := List.append_inj hall (by simp)
  have hbyte : ∀ i < packet.length,
      ((s.fill 2 4).2.fill 4 packet.length).2.buffer i = Buffer.ofList packet i :=
    fun i hi => Buffer.take_getD hbuffer hi
  have hchecksum : ((s.fill 2 4).2.fill 4 packet.length).2.buffer (lidar.packetSize - 1) =
      n10CalCRC8 ((s.fill 2 4).2.fill 4 packet.length).2.buffer (lidar.packetSize - 1) := by
    have hagree : ∀ i < lidar.packetSize - 1,
        ((s.fill 2 4).2.fill 4 packet.length).2.buffer i = Buffer.ofList packet i :=
      fun i hi => hbyte i (by rw [hpacket.length]; omega)
    rw [n10CalCRC8_congr hagree, hbyte _ (by rw [← hpacket.length]; omega), hpacket.checksum]
  simp only [receivePacket, hheader, hlen]
  rw [if_neg (by decide), if_neg (by omega), hbody, if_neg (by omega),
    if_neg (fun h => h.2.1 hchecksum)]
  exact ⟨rfl, hbuffer, hrest⟩

/-- The call returns a packet that nothing but bytes without an A5 come before. -/
theorem receiveData_packet {lidar : LidarName} {before packet rest : List UInt8} {s : Serial}
    (hpacket : WellFormed lidar packet) (hbefore : 0xA5 ∉ before)
    (hbytes : s.port.bytes = before ++ packet ++ rest) :
    (receiveData lidar s).len = some packet.length ∧
      (receiveData lidar s).serial.buffer.take packet.length = packet ∧
      (receiveData lidar s).serial.port.bytes = rest := by
  obtain ⟨body, rfl⟩ := hpacket.marker
  have hsplit : s.port.bytes = before ++ 0xA5 :: 0x5A :: (body ++ rest) := by
    rw [hbytes]
    simp
  obtain ⟨s', hcall, hbuffer, hbytes'⟩ := receiveData_marker lidar hbefore hsplit
  rw [hcall]
  exact receivePacket_packet hpacket (by rw [hbuffer, hbytes']; simp)

/-! ### Repeated calls -/

/-- What the next call of `polling` finds. -/
def next (lidar : LidarName) (s : Serial) : Serial := (receiveData lidar s).serial

/-- After some calls that return 0, one returns the packet, and nothing of `rest` is consumed. -/
def Resyncs (lidar : LidarName) (s : Serial) (packet rest : List UInt8) : Prop :=
  ∃ k, (∀ j < k, (receiveData lidar ((next lidar)^[j] s)).len = some 0) ∧
    (receiveData lidar ((next lidar)^[k] s)).len = some packet.length ∧
    ((next lidar)^[k + 1] s).buffer.take packet.length = packet ∧
    rest <:+ ((next lidar)^[k + 1] s).port.bytes

theorem resyncs_of_len_zero {lidar : LidarName} {s : Serial} {packet rest : List UInt8}
    (hlen : (receiveData lidar s).len = some 0) (hpacket : packet ≠ []) :
    Resyncs lidar s packet rest ↔ Resyncs lidar (next lidar s) packet rest := by
  constructor
  · rintro ⟨k, hbefore, hcall, hrest⟩
    cases k with
    | zero =>
      rw [Function.iterate_zero, id, hlen, Option.some.injEq] at hcall
      exact absurd (List.length_eq_zero_iff.mp hcall.symm) hpacket
    | succ k => exact ⟨k, fun j hj => hbefore (j + 1) (by omega), hcall, hrest⟩
  · rintro ⟨k, hbefore, hcall, hrest⟩
    refine ⟨k + 1, fun j hj => ?_, hcall, hrest⟩
    cases j with
    | zero => exact hlen
    | succ j => exact hbefore j (by omega)

theorem length_bytes_iterate (lidar : LidarName) (s : Serial) (k : ℕ) :
    ((next lidar)^[k] s).port.bytes.length ≤ s.port.bytes.length := by
  induction k with
  | zero => exact le_rfl
  | succ k ih =>
    have hcall := len_receiveData_le lidar ((next lidar)^[k] s)
    rw [Function.iterate_succ_apply', next]
    omega

/-- A packet that has lost a byte cannot be returned without a byte of `rest`. -/
theorem not_resyncs {lidar : LidarName} {s : Serial} {packet rest : List UInt8}
    (hshort : s.port.bytes.length < packet.length + rest.length) :
    ¬Resyncs lidar s packet rest := by
  rintro ⟨k, -, hcall, -, hrest⟩
  have hconsumed := len_receiveData_le lidar ((next lidar)^[k] s)
  have hbefore := length_bytes_iterate lidar s k
  have hkept := hrest.length_le
  rw [Function.iterate_succ_apply', next] at hkept
  rw [hcall, Option.getD_some] at hconsumed
  omega

theorem resyncs_clean {lidar : LidarName} {before packet rest : List UInt8} {s : Serial}
    (hpacket : WellFormed lidar packet) (hbefore : 0xA5 ∉ before)
    (hbytes : s.port.bytes = before ++ packet ++ rest) : Resyncs lidar s packet rest := by
  obtain ⟨hlen, hbuffer, hrest⟩ := receiveData_packet hpacket hbefore hbytes
  exact ⟨0, fun j hj => absurd hj (Nat.not_lt_zero j), hlen, hbuffer, hrest ▸ List.suffix_refl rest⟩

/-- An A5 in front of the packet takes the A5 of the packet with it. -/
theorem not_resyncs_unpaired {lidar : LidarName} {before packet rest : List UInt8} {s : Serial}
    (hpacket : WellFormed lidar packet) (hbefore : 0xA5 ∉ before)
    (hbytes : s.port.bytes = before ++ [0xA5] ++ packet ++ rest) :
    ¬Resyncs lidar s packet rest := by
  obtain ⟨body, rfl⟩ := hpacket.marker
  have hsplit : s.port.bytes = before ++ 0xA5 :: 0xA5 :: 0x5A :: (body ++ rest) := by
    rw [hbytes]
    simp
  obtain ⟨hlen, hleft⟩ := receiveData_skip lidar hbefore (by decide) hsplit
  rw [resyncs_of_len_zero hlen (by simp)]
  refine not_resyncs ?_
  rw [next, hleft]
  simp only [List.length_cons, List.length_append, List.length_nil]
  omega

/-- Between packets the bytes of a run of A5 are taken in pairs: the next packet is
received exactly if the garbage ends in an even number of them. -/
theorem resyncs_iff {lidar : LidarName} {garbage packet rest : List UInt8} {s : Serial}
    (hgarbage : ¬[0xA5, 0x5A] <:+: garbage) (hpacket : WellFormed lidar packet)
    (hbytes : s.port.bytes = garbage ++ packet ++ rest) :
    Resyncs lidar s packet rest ↔ Even (trailing 0xA5 garbage) := by
  revert s
  refine skipping (motive := fun garbage => ∀ {s : Serial},
    s.port.bytes = garbage ++ packet ++ rest →
      (Resyncs lidar s packet rest ↔ Even (trailing 0xA5 garbage))) ?clean ?unpaired ?skip
    garbage hgarbage
  case clean =>
    intro before hbefore s hbytes
    rw [trailing_clean hbefore]
    exact iff_of_true (resyncs_clean hpacket hbefore hbytes) Even.zero
  case unpaired =>
    intro before hbefore s hbytes
    rw [trailing_unpaired hbefore]
    exact iff_of_false (not_resyncs_unpaired hpacket hbefore hbytes) (by decide)
  case skip =>
    intro before c text hbefore hc _ ih s hbytes
    have hsplit : s.port.bytes = before ++ 0xA5 :: c :: (text ++ packet ++ rest) := by
      rw [hbytes]
      simp
    obtain ⟨hlen, hleft⟩ := receiveData_skip lidar hbefore hc hsplit
    rw [resyncs_of_len_zero hlen hpacket.ne_nil, ih (s := next lidar s) hleft,
      even_trailing_skip hbefore]

/-! ### A packet behind an A5 -/

/-- An `N10` packet without a measurement. -/
def emptyScan : List UInt8 := [0xA5, 0x5A, 58] ++ List.replicate 54 0 ++ [57]

theorem wellFormed_emptyScan : WellFormed .n10 emptyScan where
  length := by decide
  marker := by decide
  declared := by decide
  checksum := by decide

/-- A port that delivers byte by byte. -/
def ofBytes (bytes : List UInt8) : Serial where
  buffer := fun _ => 0
  port := { bytes := bytes, chunks := fun _ => 1, reads := 0 }

theorem resyncs_iff_pair :
    Resyncs .n10 (ofBytes ([0xA5, 0xA5] ++ emptyScan ++ [])) emptyScan [] ↔
      Even (trailing 0xA5 [0xA5, 0xA5]) :=
  resyncs_iff (show ¬[0xA5, 0x5A] <:+: [0xA5, 0xA5] by decide) wellFormed_emptyScan rfl

theorem lostAfterA5 :
    ¬[0xA5, 0x5A] <:+: [(0xA5 : UInt8)] ∧ WellFormed .n10 emptyScan ∧
      ¬Resyncs .n10 (ofBytes ([0xA5] ++ emptyScan ++ [])) emptyScan [] :=
  ⟨by decide, wellFormed_emptyScan,
    not_resyncs_unpaired wellFormed_emptyScan List.not_mem_nil rfl⟩

end Lidar
