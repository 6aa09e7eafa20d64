/-
The buffers of `polling` in network mode.

A pass of the loop moves a packet that came without its first byte up by one, takes the length of
the packet and copies that many bytes to `packet_bytes`.  Every access goes through `touch`, so
`Within InBounds` says that no index of the pass is outside its buffer.  The length of a packet is
tested once, behind the move and against 1000, not against the 500 bytes of `packet_bytes`
(`copiesTooFar`).
-/
import WheeltecRos2.Lib.Access
import WheeltecRos2.Lidar.Serial

namespace Lidar

open Access

/-- An index into a buffer. -/
inductive Place
  | data (i : ℕ)
  | packetBytes (i : ℕ)

/-- `packet->data` has 2000 bytes, and `packet_bytes_buf` 500. -/
def InBounds : Place → Prop
  | .data i => i < 2000
  | .packetBytes i => i < 500

structure Memory where
  data : Buffer
  packetBytes : Buffer

abbrev PollProg (α : Type) := Prog Memory Place α

def readData (i : ℕ) : PollProg UInt8 := touch (.data i) fun m => (m.data i, m)

def writeData (i : ℕ) (byte : UInt8) : PollProg PUnit :=
  touch (.data i) fun m => (⟨⟩, { m with data := Function.update m.data i byte })

def readPacketBytes (i : ℕ) : PollProg UInt8 :=
  touch (.packetBytes i) fun m => (m.packetBytes i, m)

def writePacketBytes (i : ℕ) (byte : UInt8) : PollProg PUnit :=
  touch (.packetBytes i) fun m => (⟨⟩, { m with packetBytes := Function.update m.packetBytes i byte })

def dataIs (i : ℕ) (byte : UInt8) : PollProg Bool := do
  return (← readData i) == byte

/-- The lidars whose packets have one length. -/
def LidarName.fixedLength : LidarName → Option ℕ
  | n10 | l10 => some 58
  | m10 => some 92
  | n10P => some 108
  | m10Gps => some 102
  | _ => none

/-- `len`, with `len_H` at the index `high`. -/
def readLength (lidar : LidarName) (high : ℕ) : PollProg ℕ :=
  match lidar.fixedLength with
  | some len => pure len
  | none => do
    let lenH ← readData high
    let lenL ← readData (high + 1)
    return lenH.toNat * 256 + lenL.toNat

/-- The loop over `i = n`, …, 1 that moves the bytes of the packet up by one. -/
def moveUp (n : ℕ) : PollProg PUnit :=
  forM (List.range' 1 n).reverse fun i => do
    writeData i (← readData (i - 1))

/-- A packet that starts with 5A is moved up, behind an A5. -/
def realign (lidar : LidarName) : PollProg PUnit := do
  if ← dataIs 0 0x5A then
    let len ← readLength lidar 1
    moveUp (len - 1)
    writeData 0 0xA5

/-- Whether the packet is one of the device, `difop`. -/
def isDifop (lidar : LidarName) (compensation : Bool) : PollProg Bool :=
  if lidar ∈ [.m10, .m10Double, .m10Gps, .m10P, .m10Plus] ∧ compensation then
    dataIs 2 0x55 <&&> dataIs 3 0x00 <&&> dataIs 186 0xFA <&&> dataIs 187 0xFB
  else pure false

/-- `N10_CalCRC8` on `packet_bytes`. -/
def calCRC8 (len : ℕ) : PollProg UInt8 := do
  let sum ← (List.range len).foldlM (fun sum i => do return sum + (← readPacketBytes i).toNat) 0
  return UInt8.ofNat (sum % 256)

/-- The copy to `packet_bytes`, and whether its checksum is right. -/
def copyPacket (lidar : LidarName) (len : ℕ) : PollProg Bool := do
  forM (List.range len) fun i => do
    writePacketBytes i (← readData i)
  if lidar = .n10 ∨ lidar = .l10 ∨ lidar = .n10P then
    let last ← readPacketBytes (len - 1)
    let crc ← calCRC8 (len - 1)
    return last == crc
  else return true

/-- The tests of the length and of the marker, with the copy: `none` if the loop goes on. -/
def acceptPacket (lidar : LidarName) (len : ℕ) (difop : Bool) :
    PollProg (Option (ℕ × Bool)) := do
  if 0 < len ∧ len < 1000 then
    if ← dataIs 0 0xA5 <&&> dataIs 1 0x5A then
      if ← copyPacket lidar len then return some (len, difop)
      else return none
    else return none
  else return none

/-- The part of a pass behind `realign`. -/
def takePacket (lidar : LidarName) (compensation : Bool) : PollProg (Option (ℕ × Bool)) := do
  let len ← readLength lidar 2
  let difop ← isDifop lidar compensation
  acceptPacket lidar (if difop then 188 else len) difop

/-- A pass of the loop of `polling`, from the packet that `getPacket` leaves. -/
def polling (lidar : LidarName) (compensation : Bool) : PollProg (Option (ℕ × Bool)) := do
  realign lidar
  takePacket lidar compensation

/-! ### The length -/

section Length

variable {lidar : LidarName} {high : ℕ} {m : Memory}

/-- The length in the bytes `high` and `high + 1`. -/
def lengthAt (data : Buffer) (high : ℕ) : ℕ := (data high).toNat * 256 + (data (high + 1)).toNat

@[simp] theorem run_readLength_value :
    (run (readLength lidar high) m).value = lidar.fixedLength.getD (lengthAt m.data high) := by
  rw [readLength]
  cases lidar.fixedLength <;> rfl

@[simp] theorem run_readLength_state : (run (readLength lidar high) m).state = m := by
  rw [readLength]
  cases lidar.fixedLength <;> rfl

theorem within_readLength (hhigh : high + 1 < 2000) :
    Within InBounds (readLength lidar high) m := by
  rw [readLength]
  cases lidar.fixedLength with
  | none => simp [readData, InBounds, hhigh, Nat.lt_of_succ_lt hhigh]
  | some len => exact within_pure len

theorem fixedLength_le {len : ℕ} (h : lidar.fixedLength = some len) : 4 ≤ len ∧ len ≤ 500 := by
  cases lidar <;> cases h <;> decide

end Length

/-! ### The move -/

@[simp] theorem run_dataIs_value (i : ℕ) (byte : UInt8) (m : Memory) :
    (run (dataIs i byte) m).value = (m.data i == byte) := rfl

@[simp] theorem run_dataIs_state (i : ℕ) (byte : UInt8) (m : Memory) :
    (run (dataIs i byte) m).state = m := rfl

@[simp] theorem within_dataIs {i : ℕ} {byte : UInt8} {m : Memory} :
    Within InBounds (dataIs i byte) m ↔ i < 2000 := by
  simp [dataIs, readData, InBounds]

/-- The move stays within the packet exactly if the length does. -/
theorem within_moveUp (n : ℕ) (m : Memory) : Within InBounds (moveUp n) m ↔ n < 2000 := by
  have hbody : ∀ i ∈ (List.range' 1 n).reverse, ∀ m, Within InBounds (do
      writeData i (← readData (i - 1))) m ↔ i < 2000 := by
    intro i _ m
    simp [readData, writeData, InBounds]
    omega
  rw [moveUp, within_forM hbody]
  simp only [List.mem_reverse, List.mem_range'_1]
  constructor
  · intro h
    rcases Nat.eq_zero_or_pos n with rfl | hn
    · decide
    · exact h n (by omega)
  · intro h i hi
    omega

theorem moveUp_succ (n : ℕ) :
    moveUp (n + 1) = (do
      writeData (n + 1) (← readData n)
      moveUp n) := by
  rw [moveUp, moveUp, List.range'_concat, List.reverse_concat, Nat.one_mul, Nat.add_comm 1 n]
  rfl

theorem run_moveUp_data (n : ℕ) (m : Memory) :
    (run (moveUp n) m).state.data =
      fun i => if 1 ≤ i ∧ i ≤ n then m.data (i - 1) else m.data i := by
  induction n generalizing m with
  | zero =>
    funext i
    rw [if_neg (by omega)]
    rfl
  | succ n ih =>
    rw [moveUp_succ]
    simp only [state_bind, readData, writeData, run_touch, ih]
    funext i
    simp only [Function.update_apply]
    grind

/-- The packet behind `realign`. -/
def realigned (lidar : LidarName) (data : Buffer) : Buffer :=
  if data 0 = 0x5A then
    fun i => if i = 0 then 0xA5
      else if i < lidar.fixedLength.getD (lengthAt data 1) then data (i - 1)
      else data i
  else data

theorem run_realign_data (lidar : LidarName) (m : Memory) :
    (run (realign lidar) m).state.data = realigned lidar m.data := by
  simp only [realign, realigned, state_bind, run_dataIs_value, run_dataIs_state, beq_iff_eq]
  split_ifs with hfirst
  · simp only [state_bind, writeData, run_touch, run_readLength_value, run_readLength_state,
      run_moveUp_data]
    funext i
    simp only [Function.update_apply]
    grind
  · rfl

theorem within_realign (lidar : LidarName) (m : Memory) :
    Within InBounds (realign lidar) m ↔
      (m.data 0 = 0x5A → lidar.fixedLength.getD (lengthAt m.data 1) ≤ 2000) := by
  have hlength : Within InBounds (readLength lidar 1) m := within_readLength (by decide)
  simp only [realign, within_bind, within_dataIs, run_dataIs_value, run_dataIs_state, beq_iff_eq,
    within_ite, within_pure, implies_true, and_true, hlength, run_readLength_value,
    run_readLength_state, within_moveUp, writeData, within_touch, InBounds, true_and]
  constructor
  · rintro ⟨-, h⟩ hfirst
    have hlast := (h hfirst).1
    omega
  · intro h
    refine ⟨by decide, fun hfirst => ⟨?_, by decide⟩⟩
    have hlength := h hfirst
    omega

/-! ### The copy -/

theorem within_calCRC8 {len : ℕ} (hlen : len ≤ 500) (m : Memory) :
    Within InBounds (calCRC8 len) m := by
  have hbody : ∀ i ∈ List.range len, ∀ sum m, Within InBounds (do
      return sum + (← readPacketBytes i).toNat) m ↔ i < 500 := by
    intro i _ sum m
    simp [readPacketBytes, InBounds]
  rw [calCRC8, within_bind]
  refine ⟨(within_foldlM hbody 0 m).mpr fun i hi => ?_, within_pure _⟩
  have hlt := List.mem_range.mp hi
  omega

/-- The copy stays within `packet_bytes` exactly if the length does. -/
theorem within_copyPacket {lidar : LidarName} {len : ℕ} (hpos : 0 < len) (m : Memory) :
    Within InBounds (copyPacket lidar len) m ↔ len ≤ 500 := by
  have hbody : ∀ i ∈ List.range len, ∀ m, Within InBounds (do
      writePacketBytes i (← readData i)) m ↔ i < 500 := by
    intro i _ m
    simp [readData, writePacketBytes, InBounds]
    omega
  have hcopy : ∀ m, Within InBounds (forM (List.range len) fun i => do
      writePacketBytes i (← readData i)) m ↔ len ≤ 500 := by
    intro m
    rw [within_forM hbody]
    constructor
    · intro h
      have hlast := h (len - 1) (List.mem_range.mpr (by omega))
      omega
    · intro h i hi
      have hlt := List.mem_range.mp hi
      omega
  rw [copyPacket, within_bind, hcopy]
  refine and_iff_left_of_imp fun hlen => ?_
  rw [within_ite]
  refine ⟨fun _ => ?_, fun _ => within_pure _⟩
  simp only [within_bind, readPacketBytes, within_touch, InBounds, within_pure, and_true,
    within_calCRC8 (Nat.sub_le_of_le_add (Nat.le_add_right_of_le hlen))]
  omega

/-! ### A pass -/

theorem within_isDifop (lidar : LidarName) (compensation : Bool) (m : Memory) :
    Within InBounds (isDifop lidar compensation) m := by
  rw [isDifop, within_ite]
  refine ⟨fun _ => ?_, fun _ => within_pure _⟩
  simp

theorem run_isDifop_state (lidar : LidarName) (compensation : Bool) (m : Memory) :
    (run (isDifop lidar compensation) m).state = m := by
  rw [isDifop]
  split_ifs
  · simp
  · rfl

/-- A packet of the device declares the length 0x5500. -/
theorem lengthAt_of_isDifop {lidar : LidarName} {compensation : Bool} {m : Memory}
    (h : (run (isDifop lidar compensation) m).value = true) : lengthAt m.data 2 = 0x5500 := by
  rw [isDifop] at h
  split_ifs at h
  · simp only [value_andM, run_dataIs_value, run_dataIs_state, Bool.and_eq_true, beq_iff_eq] at h
    rw [lengthAt, h.1, h.2.1]
    rfl
  · cases h

theorem within_acceptPacket (lidar : LidarName) (len : ℕ) (difop : Bool) (m : Memory) :
    Within InBounds (acceptPacket lidar len difop) m ↔
      (m.data 0 = 0xA5 → m.data 1 = 0x5A → ¬(500 < len ∧ len < 1000)) := by
  have hmarker : Within InBounds (dataIs 0 0xA5 <&&> dataIs 1 0x5A) m := by simp
  simp only [acceptPacket, within_ite, within_bind, hmarker, value_andM, state_andM,
    run_dataIs_value, run_dataIs_state, ite_self, within_pure, implies_true, and_true, true_and,
    Bool.and_eq_true, beq_iff_eq]
  constructor
  · rintro h hfirst hsecond ⟨hlarge, hsmall⟩
    have hcopy := h ⟨by omega, hsmall⟩ ⟨hfirst, hsecond⟩
    rw [within_copyPacket (by omega)] at hcopy
    omega
  · rintro h ⟨hpos, hsmall⟩ ⟨hfirst, hsecond⟩
    rw [within_copyPacket hpos]
    have hlen := h hfirst hsecond
    omega

/-- Behind the move a pass stays within the buffers exactly if the length it accepts
does. -/
theorem within_takePacket (lidar : LidarName) (compensation : Bool) (m : Memory) :
    Within InBounds (takePacket lidar compensation) m ↔
      (lidar.fixedLength = none → m.data 0 = 0xA5 → m.data 1 = 0x5A →
        ¬(500 < lengthAt m.data 2 ∧ lengthAt m.data 2 < 1000)) := by
  have hlength : Within InBounds (readLength lidar 2) m := within_readLength (by decide)
  simp only [takePacket, within_bind, hlength, run_readLength_value, run_readLength_state,
    within_isDifop, run_isDifop_state, true_and, within_acceptPacket]
  split_ifs with hdifop
  · rw [lengthAt_of_isDifop hdifop]
    simp
  · cases hfixed : lidar.fixedLength with
    | none => simp
    | some len =>
      have hle := fixedLength_le hfixed
      simp only [Option.getD_some, reduceCtorEq, false_implies, iff_true]
      omega

/-- What the bytes of a packet whose length is read from them must satisfy. -/
def Fits (data : Buffer) : Prop :=
  (data 0 = 0x5A → lengthAt data 1 ≤ 2000 ∧ lengthAt data 1 ≠ 2 ∧
    ¬(500 < lengthAt data 1 ∧ lengthAt data 1 < 1000)) ∧
  (data 0 = 0xA5 → data 1 = 0x5A → ¬(500 < lengthAt data 2 ∧ lengthAt data 2 < 1000))

/-- A move by fewer than four bytes leaves a part of the length where it was. -/
theorem realigned_short {lidar : LidarName} {data : Buffer} (hfixed : lidar.fixedLength = none)
    (hfirst : data 0 = 0x5A) (hshort : lengthAt data 1 < 4) :
    (realigned lidar data 1 = 0x5A ∧ 500 < lengthAt (realigned lidar data) 2 ∧
      lengthAt (realigned lidar data) 2 < 1000) ↔ lengthAt data 1 = 2 := by
  have hlow := (data 3).toNat_lt
  obtain ⟨hhigh, hlength⟩ : (data 1).toNat = 0 ∧ lengthAt data 1 = (data 2).toNat := by
    change (data 1).toNat * 256 + (data 2).toNat < 4 at hshort
    change _ ∧ (data 1).toNat * 256 + (data 2).toNat = _
    omega
  have hzero : data 1 = 0 := UInt8.toNat_inj.mp hhigh
  have hmoved : realigned lidar data = fun i => if i = 0 then 0xA5
      else if i < (data 2).toNat then data (i - 1) else data i := by
    rw [realigned, if_pos hfirst, hfixed, Option.getD_none, hlength]
  rw [hlength] at hshort ⊢
  have hcases : (data 2).toNat = 0 ∨ (data 2).toNat = 1 ∨ (data 2).toNat = 2 ∨
      (data 2).toNat = 3 := by omega
  rcases hcases with h | h | h | h
  · simp [hmoved, h, hzero]
  · simp [hmoved, h, hzero]
  · simp [hmoved, lengthAt, h, hfirst]
    omega
  · simp [hmoved, lengthAt, h, hfirst, hzero]
    omega

/-- The move keeps the length, unless it does not reach behind the bytes of the length. -/
theorem realigned_long {lidar : LidarName} {data : Buffer} (hfixed : lidar.fixedLength = none)
    (hfirst : data 0 = 0x5A) (hlong : 4 ≤ lengthAt data 1) :
    realigned lidar data 1 = 0x5A ∧ lengthAt (realigned lidar data) 2 = lengthAt data 1 := by
  have hmoved : ∀ i, i ≠ 0 → i < 4 → realigned lidar data i = data (i - 1) := by
    intro i hpos hi
    rw [realigned, if_pos hfirst, if_neg hpos, hfixed, Option.getD_none, if_pos (by omega)]
  rw [lengthAt, lengthAt, hmoved 1 (by decide) (by decide), hmoved 2 (by decide) (by decide),
    hmoved 3 (by decide) (by decide)]
  exact ⟨hfirst, rfl⟩

theorem fits_iff {lidar : LidarName} (hfixed : lidar.fixedLength = none) (data : Buffer) :
    ((data 0 = 0x5A → lidar.fixedLength.getD (lengthAt data 1) ≤ 2000) ∧
      (realigned lidar data 0 = 0xA5 → realigned lidar data 1 = 0x5A →
        ¬(500 < lengthAt (realigned lidar data) 2 ∧
          lengthAt (realigned lidar data) 2 < 1000))) ↔ Fits data := by
  by_cases hfirst : data 0 = 0x5A
  · have hmarker : realigned lidar data 0 = 0xA5 := by
      rw [realigned, if_pos hfirst, if_pos rfl]
    have hne : (0x5A : UInt8) ≠ 0xA5 := by decide
    simp only [Fits, hfirst, hmarker, hfixed, Option.getD_none, forall_const, hne, false_implies,
      and_true]
    refine and_congr_right fun _ => ?_
    rcases Nat.lt_or_ge (lengthAt data 1) 4 with hshort | hlong
    · rw [← not_and, realigned_short hfixed hfirst hshort]
      omega
    · obtain ⟨hsecond, hlength⟩ := realigned_long hfixed hfirst hlong
      rw [hlength]
      simp only [hsecond, forall_const]
      omega
  · simp [Fits, realigned, hfirst]

/-- A pass stays within the buffers exactly if the lidar has packets of one length or the
length in the packet fits. -/
theorem polling_inBounds_iff (lidar : LidarName) (compensation : Bool) (m : Memory) :
    Within InBounds (polling lidar compensation) m ↔
      (lidar.fixedLength = none → Fits m.data) := by
  rw [polling, within_bind, within_realign, within_takePacket, run_realign_data]
  cases hfixed : lidar.fixedLength with
  | none =>
    simp only [forall_const]
    rw [← fits_iff hfixed, hfixed]
  | some len =>
    have hle := fixedLength_le hfixed
    simp only [Option.getD_some, reduceCtorEq, false_implies, and_true, iff_true]
    omega

/-- A packet of an `M10_P` that declares 512 bytes is copied behind the end of `packet_bytes`. -/
theorem copiesTooFar :
    ¬Within InBounds (polling .m10P false)
      { data := Buffer.ofList [0xA5, 0x5A, 0x02, 0x00], packetBytes := fun _ => 0 } := by
  rw [polling, within_bind, within_takePacket, run_realign_data]
  rintro ⟨-, h⟩
  exact h rfl rfl rfl (by decide)

end Lidar
