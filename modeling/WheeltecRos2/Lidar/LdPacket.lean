/-
The packets of the LD lidars, `LiPkg`.

A packet is a packed struct of 47 bytes with 54 2C in front and a CRC of the others at its end.
`AnalysisOne` looks for 54 2C and then collects; what follows a 54 that is no header is dropped
with it, and what was collected is dropped whole if its CRC is wrong.

* `calCRC8_eq`: the table is that of the polynomial 4D.
* `parse_sent`: of packets that are hit by bursts of errors behind their header, the intact ones
  are taken, in order, and the others are counted.
* `taken_iff`: a packet behind any bytes is taken at its last byte exactly if the bytes before it
  cut into packets, bytes other than 54, and pairs of a 54 and a byte other than 2C.

Float arithmetic is a parameter.  `state`, `count` and `tmp` are static variables of
`AnalysisOne`; the process has one `LiPkg`.
-/
import WheeltecRos2.Lib.Crc
import Mathlib.Data.List.GetD
import Mathlib.Tactic.FinCases

namespace Ldlidar

open Crc hiding flip

def PKG_HEADER : UInt8 := 0x54
def PKG_VER_LEN : UInt8 := 0x2C
def POINT_PER_PACK : ℕ := 12
def kPointFrequence : ℕ := 4500

/-! ### The check -/

def CrcTable : List UInt8 := [
  0x00, 0x4d, 0x9a, 0xd7, 0x79, 0x34, 0xe3, 0xae, 0xf2, 0xbf, 0x68, 0x25,
  0x8b, 0xc6, 0x11, 0x5c, 0xa9, 0xe4, 0x33, 0x7e, 0xd0, 0x9d, 0x4a, 0x07,
  0x5b, 0x16, 0xc1, 0x8c, 0x22, 0x6f, 0xb8, 0xf5, 0x1f, 0x52, 0x85, 0xc8,
  0x66, 0x2b, 0xfc, 0xb1, 0xed, 0xa0, 0x77, 0x3a, 0x94, 0xd9, 0x0e, 0x43,
  0xb6, 0xfb, 0x2c, 0x61, 0xcf, 0x82, 0x55, 0x18, 0x44, 0x09, 0xde, 0x93,
  0x3d, 0x70, 0xa7, 0xea, 0x3e, 0x73, 0xa4, 0xe9, 0x47, 0x0a, 0xdd, 0x90,
  0xcc, 0x81, 0x56, 0x1b, 0xb5, 0xf8, 0x2f, 0x62, 0x97, 0xda, 0x0d, 0x40,
  0xee, 0xa3, 0x74, 0x39, 0x65, 0x28, 0xff, 0xb2, 0x1c, 0x51, 0x86, 0xcb,
  0x21, 0x6c, 0xbb, 0xf6, 0x58, 0x15, 0xc2, 0x8f, 0xd3, 0x9e, 0x49, 0x04,
  0xaa, 0xe7, 0x30, 0x7d, 0x88, 0xc5, 0x12, 0x5f, 0xf1, 0xbc, 0x6b, 0x26,
  0x7a, 0x37, 0xe0, 0xad, 0x03, 0x4e, 0x99, 0xd4, 0x7c, 0x31, 0xe6, 0xab,
  0x05, 0x48, 0x9f, 0xd2, 0x8e, 0xc3, 0x14, 0x59, 0xf7, 0xba, 0x6d, 0x20,
  0xd5, 0x98, 0x4f, 0x02, 0xac, 0xe1, 0x36, 0x7b, 0x27, 0x6a, 0xbd, 0xf0,
  0x5e, 0x13, 0xc4, 0x89, 0x63, 0x2e, 0xf9, 0xb4, 0x1a, 0x57, 0x80, 0xcd,
  0x91, 0xdc, 0x0b, 0x46, 0xe8, 0xa5, 0x72, 0x3f, 0xca, 0x87, 0x50, 0x1d,
  0xb3, 0xfe, 0x29, 0x64, 0x38, 0x75, 0xa2, 0xef, 0x41, 0x0c, 0xdb, 0x96,
  0x42, 0x0f, 0xd8, 0x95, 0x3b, 0x76, 0xa1, 0xec, 0xb0, 0xfd, 0x2a, 0x67,
  0xc9, 0x84, 0x53, 0x1e, 0xeb, 0xa6, 0x71, 0x3c, 0x92, 0xdf, 0x08, 0x45,
  0x19, 0x54, 0x83, 0xce, 0x60, 0x2d, 0xfa, 0xb7, 0x5d, 0x10, 0xc7, 0x8a,
  0x24, 0x69, 0xbe, 0xf3, 0xaf, 0xe2, 0x35, 0x78, 0xd6, 0x9b, 0x4c, 0x01,
  0xf4, 0xb9, 0x6e, 0x23, 0x8d, 0xc0, 0x17, 0x5a, 0x06, 0x4b, 0x9c, 0xd1,
  0x7f, 0x32, 0xe5, 0xa8]

def calCRC8 (data : List UInt8) : UInt8 :=
  data.foldl (fun crc byte => CrcTable.getD (crc ^^^ byte).toNat 0) 0

/-- The polynomial. -/
def poly : BitVec 8 := 0x4d#8

theorem crcTable_eq (x : UInt8) :
    (CrcTable.getD x.toNat 0).toBitVec = (shift poly)^[8] x.toBitVec := by
  have htable : ∀ i : Fin 256,
      (CrcTable.getD i 0).toBitVec = (shift poly)^[8] (BitVec.ofFin i) := by
    decide +kernel
  exact htable x.toBitVec.toFin

/-- The table is that of the polynomial. -/
theorem calCRC8_eq (data : List UInt8) :
    (calCRC8 data).toBitVec = digest poly 0#8 (data.map UInt8.toBitVec) := by
  have hfold : ∀ crc : UInt8,
      (data.foldl (fun crc byte => CrcTable.getD (crc ^^^ byte).toNat 0) crc).toBitVec =
        digest poly crc.toBitVec (data.map UInt8.toBitVec) := by
    induction data with
    | nil => exact fun crc => rfl
    | cons byte data ih =>
      intro crc
      rw [List.foldl_cons, ih, crcTable_eq, UInt8.toBitVec_xor, List.map_cons, digest_cons]
  exact hfold 0

/-! ### The struct -/

structure LidarPointStructDef where
  distance : UInt16
  intensity : UInt8
  deriving DecidableEq

structure LiDARFrameTypeDef where
  header : UInt8
  verLen : UInt8
  speed : UInt16
  startAngle : UInt16
  point : Vector LidarPointStructDef 12
  endAngle : UInt16
  timestamp : UInt16
  crc8 : UInt8
  deriving DecidableEq

attribute [ext] LiDARFrameTypeDef

/-- A word in memory, the low byte first. -/
def word (lo hi : UInt8) : UInt16 := UInt16.ofNat (lo.toNat + 256 * hi.toNat)

def wordBytes (v : UInt16) : List UInt8 := [UInt8.ofNat v.toNat, UInt8.ofNat (v.toNat / 256)]

namespace LiDARFrameTypeDef

/-- The struct that `memcpy` leaves in `pkg_`. -/
def ofBytes (tmp : List UInt8) : LiDARFrameTypeDef where
  header := tmp.getD 0 0
  verLen := tmp.getD 1 0
  speed := word (tmp.getD 2 0) (tmp.getD 3 0)
  startAngle := word (tmp.getD 4 0) (tmp.getD 5 0)
  point := Vector.ofFn fun i =>
    { distance := word (tmp.getD (6 + (3 * i + 0)) 0) (tmp.getD (6 + (3 * i + 1)) 0)
      intensity := tmp.getD (6 + (3 * i + 2)) 0 }
  endAngle := word (tmp.getD 42 0) (tmp.getD 43 0)
  timestamp := word (tmp.getD 44 0) (tmp.getD 45 0)
  crc8 := tmp.getD 46 0

def pointBytes (p : LidarPointStructDef) : List UInt8 := wordBytes p.distance ++ [p.intensity]

/-- The struct in memory, but for its last byte. -/
def payload (pkg : LiDARFrameTypeDef) : List UInt8 :=
  [pkg.header, pkg.verLen] ++ wordBytes pkg.speed ++ wordBytes pkg.startAngle ++
    pkg.point.toList.flatMap pointBytes ++ wordBytes pkg.endAngle ++ wordBytes pkg.timestamp

/-- The struct in memory. -/
def bytes (pkg : LiDARFrameTypeDef) : List UInt8 := pkg.payload ++ [pkg.crc8]

/-- A packet as the lidar sends it. -/
structure Sound (pkg : LiDARFrameTypeDef) : Prop where
  header : pkg.header = PKG_HEADER
  verLen : pkg.verLen = PKG_VER_LEN
  crc8 : pkg.crc8 = calCRC8 pkg.payload

variable (pkg : LiDARFrameTypeDef)

@[simp] theorem word_wordBytes (v : UInt16) :
    word (UInt8.ofNat v.toNat) (UInt8.ofNat (v.toNat / 256)) = v := by
  have hv := v.toNat_lt
  have hnat : (UInt8.ofNat v.toNat).toNat + 256 * (UInt8.ofNat (v.toNat / 256)).toNat =
      v.toNat := by
    rw [UInt8.toNat_ofNat', UInt8.toNat_ofNat']
    omega
  rw [word, hnat, UInt16.ofNat_toNat]

@[simp] theorem length_wordBytes (v : UInt16) : (wordBytes v).length = 2 := rfl

theorem length_flatMap_pointBytes (ps : List LidarPointStructDef) :
    (ps.flatMap pointBytes).length = 3 * ps.length := by
  induction ps with
  | nil => rfl
  | cons p ps ih =>
    rw [List.flatMap_cons, List.length_append, ih, List.length_cons]
    show 3 + 3 * ps.length = _
    omega

theorem getD_flatMap_pointBytes {ps : List LidarPointStructDef} {i r : ℕ} (hi : i < ps.length)
    (hr : r < 3) (rest : List UInt8) :
    (ps.flatMap pointBytes ++ rest).getD (3 * i + r) 0 = (pointBytes ps[i]).getD r 0 := by
  induction ps generalizing i with
  | nil => simp at hi
  | cons p ps ih =>
    rw [List.flatMap_cons, List.append_assoc]
    cases i with
    | zero =>
      rw [List.getD_append _ _ _ _ (by simpa [pointBytes] using hr)]
      simp
    | succ i =>
      rw [List.getD_append_right _ _ _ _ (by simp [pointBytes]; omega)]
      rw [show 3 * (i + 1) + r - (pointBytes p).length = 3 * i + r by
        show 3 * (i + 1) + r - 3 = _
        omega]
      exact ih (by simpa using hi)

theorem length_points : (pkg.point.toList.flatMap pointBytes).length = 36 := by
  rw [length_flatMap_pointBytes, Vector.length_toList]

@[simp] theorem length_payload : pkg.payload.length = 46 := by
  simp only [payload, List.length_append, length_points, length_wordBytes, List.length_cons,
    List.length_nil]

@[simp] theorem length_bytes : pkg.bytes.length = 47 := by simp [bytes]

/-- What follows the points. -/
def tail : List UInt8 := wordBytes pkg.endAngle ++ wordBytes pkg.timestamp ++ [pkg.crc8]

theorem bytes_getD_points (n : ℕ) :
    pkg.bytes.getD (6 + n) 0 = (pkg.point.toList.flatMap pointBytes ++ pkg.tail).getD n 0 := by
  have hbytes : pkg.bytes = [pkg.header, pkg.verLen] ++ wordBytes pkg.speed ++
      wordBytes pkg.startAngle ++ (pkg.point.toList.flatMap pointBytes ++ pkg.tail) := by
    simp only [bytes, payload, tail, List.append_assoc]
  rw [hbytes, List.getD_append_right _ _ _ _ (by simp)]
  congr 1
  simp

theorem bytes_getD_tail (n : ℕ) : pkg.bytes.getD (42 + n) 0 = pkg.tail.getD n 0 := by
  have hlen := pkg.length_points
  rw [show 42 + n = 6 + (36 + n) by omega, bytes_getD_points,
    List.getD_append_right _ _ _ _ (by omega), hlen, Nat.add_sub_cancel_left]

theorem bytes_getD_point (i : Fin 12) {r : ℕ} (hr : r < 3) :
    pkg.bytes.getD (6 + (3 * i + r)) 0 = (pointBytes pkg.point[i]).getD r 0 := by
  rw [bytes_getD_points, getD_flatMap_pointBytes (by simp) hr]
  simp

/-- What is sent is what the struct says. -/
theorem ofBytes_bytes : ofBytes pkg.bytes = pkg := by
  have hpoint : (ofBytes pkg.bytes).point = pkg.point := by
    ext i hi : 1
    simp only [ofBytes, Vector.getElem_ofFn]
    rw [bytes_getD_point pkg ⟨i, hi⟩ (by omega), bytes_getD_point pkg ⟨i, hi⟩ (by omega),
      bytes_getD_point pkg ⟨i, hi⟩ (by omega)]
    exact congrArg (LidarPointStructDef.mk · _) (word_wordBytes _)
  have hend : (ofBytes pkg.bytes).endAngle = pkg.endAngle := by
    rw [ofBytes, bytes_getD_tail pkg 0, bytes_getD_tail pkg 1]
    exact word_wordBytes _
  have htimestamp : (ofBytes pkg.bytes).timestamp = pkg.timestamp := by
    rw [ofBytes, bytes_getD_tail pkg 2, bytes_getD_tail pkg 3]
    exact word_wordBytes _
  have hcrc8 : (ofBytes pkg.bytes).crc8 = pkg.crc8 := by
    rw [ofBytes, bytes_getD_tail pkg 4]
    rfl
  have hspeed : (ofBytes pkg.bytes).speed = pkg.speed := word_wordBytes _
  have hstart : (ofBytes pkg.bytes).startAngle = pkg.startAngle := word_wordBytes _
  rw [LiDARFrameTypeDef.ext_iff]
  exact ⟨rfl, rfl, hspeed, hstart, hpoint, hend, htimestamp, hcrc8⟩

end LiDARFrameTypeDef

/-! ### The parser -/

inductive State
  | header
  | verLen
  | data
  deriving DecidableEq

/-- The float arithmetic of the points. -/
structure Angles (F : Type) where
  /-- The angle of the point `i`, from the start and the step in hundredths of a degree:
  `start + i * step`, and 360 less from there on. -/
  angle (start step i : ℕ) : F

structure PointData (F : Type) where
  angle : F
  distance : UInt16
  intensity : UInt8
  deriving DecidableEq

structure LiPkg (F : Type) where
  state : State := .header
  /-- The first `count` bytes of `tmp`. -/
  tmp : List UInt8 := []
  speed : UInt16 := 0
  timestamp : UInt16 := 0
  errorTimes : ℕ := 0
  frameTmp : List (PointData F) := []
  laserScanData : List (PointData F) := []
  isFrameReady : Bool := false

namespace LiPkg

variable {F : Type}

/-- The result is `pkg_` if the call returns true. -/
def analysisOne (byte : UInt8) (self : LiPkg F) : Option LiDARFrameTypeDef × LiPkg F :=
  match self.state with
  | .header =>
    if byte = PKG_HEADER then
      (none, { self with tmp := self.tmp ++ [byte], state := .verLen })
    else (none, self)
  | .verLen =>
    if byte = PKG_VER_LEN then
      (none, { self with tmp := self.tmp ++ [byte], state := .data })
    else (none, { self with state := .header, tmp := [] })
  | .data =>
    let tmp := self.tmp ++ [byte]
    if 47 ≤ tmp.length then
      let pkg := LiDARFrameTypeDef.ofBytes tmp
      let self := { self with state := .header, tmp := [] }
      if calCRC8 (tmp.take 46) = pkg.crc8 then (some pkg, self)
      else (none, { self with errorTimes := self.errorTimes + 1 })
    else (none, { self with tmp := tmp })

/-- The check of the angle that a packet covers: `int` arithmetic, whose result times 1.5 is
exact. -/
def tooWide (pkg : LiDARFrameTypeDef) : Bool :=
  let diff := ((pkg.endAngle.toNat / 100 : ℤ) - pkg.startAngle.toNat / 100 + 360).tmod 360
  decide (3 * (pkg.speed.toNat * POINT_PER_PACK / kPointFrequence : ℤ) < 2 * diff)

/-- `diff` in `uint32_t`. -/
def angleDiff (pkg : LiDARFrameTypeDef) : ℕ :=
  (pkg.endAngle.toNat + 36000 + 2 ^ 32 - pkg.startAngle.toNat) % 2 ^ 32 % 36000

def points (f : Angles F) (pkg : LiDARFrameTypeDef) : List (PointData F) :=
  (List.finRange 12).map fun i : Fin 12 =>
    { angle := f.angle pkg.startAngle.toNat (angleDiff pkg / (POINT_PER_PACK - 1)) i.val
      distance := pkg.point[i].distance
      intensity := pkg.point[i].intensity }

/-- What `Parse` does with a packet. -/
def take (f : Angles F) (self : LiPkg F) (pkg : LiDARFrameTypeDef) : LiPkg F :=
  if tooWide pkg then { self with errorTimes := self.errorTimes + 1 }
  else { self with
    speed := pkg.speed
    timestamp := pkg.timestamp
    frameTmp := self.frameTmp ++ points f pkg }

def parseOne (f : Angles F) (self : LiPkg F) (byte : UInt8) : LiPkg F :=
  match self.analysisOne byte with
  | (some pkg, self) => self.take f pkg
  | (none, self) => self

def parse (f : Angles F) (self : LiPkg F) (data : List UInt8) : LiPkg F :=
  data.foldl (parseOne f) self

variable {f : Angles F} {self : LiPkg F} {pkg : LiDARFrameTypeDef} {bs cs : List UInt8} {b : UInt8}

/-! ### Packets from the start of a search -/

/-- Nothing of a packet is there. -/
structure Idle (s : LiPkg F) : Prop where
  state : s.state = .header
  tmp : s.tmp = []

@[simp] theorem take_state : (self.take f pkg).state = self.state := by
  rw [take]
  split <;> rfl

@[simp] theorem take_tmp : (self.take f pkg).tmp = self.tmp := by
  rw [take]
  split <;> rfl

theorem Idle.take (h : self.Idle) : (self.take f pkg).Idle :=
  ⟨by rw [take_state, h.state], by rw [take_tmp, h.tmp]⟩

theorem parse_append : self.parse f (bs ++ cs) = (self.parse f bs).parse f cs := List.foldl_append

theorem parse_cons : self.parse f (b :: bs) = (self.parseOne f b).parse f bs := rfl

@[simp] theorem parse_nil : self.parse f [] = self := rfl

theorem parseOne_collect (hstate : self.state = .data) (hlen : self.tmp.length + 1 < 47) :
    self.parseOne f b = { self with tmp := self.tmp ++ [b] } := by
  have hshort : ¬ 47 ≤ (self.tmp ++ [b]).length := by
    rw [List.length_append]
    show ¬ 47 ≤ self.tmp.length + 1
    omega
  simp only [parseOne, analysisOne, hstate, if_neg hshort]

/-- Behind the header bytes are collected. -/
theorem parse_collect (hstate : self.state = .data) (hlen : self.tmp.length + bs.length < 47) :
    self.parse f bs = { self with tmp := self.tmp ++ bs } := by
  induction bs generalizing self with
  | nil => simp
  | cons b bs ih =>
    rw [List.length_cons] at hlen
    rw [parse_cons, parseOne_collect hstate (by omega), ih (by exact hstate)]
    · simp
    · simp only [List.length_append, List.length_singleton]
      omega

/-- All of a packet but its last byte. -/
theorem parse_payload (h : self.Idle) (hlen : bs.length ≤ 44) :
    self.parse f (PKG_HEADER :: PKG_VER_LEN :: bs) =
      { self with state := .data, tmp := PKG_HEADER :: PKG_VER_LEN :: bs } := by
  have hstart : (self.parseOne f PKG_HEADER).parseOne f PKG_VER_LEN =
      { self with state := .data, tmp := [PKG_HEADER, PKG_VER_LEN] } := by
    simp [parseOne, analysisOne, h.state, h.tmp]
  rw [parse_cons, parse_cons, hstart, parse_collect rfl]
  · rfl
  · show 2 + bs.length < 47
    omega

theorem analysisOne_last (hstate : self.state = .data) (hlen : self.tmp.length = 46) :
    self.analysisOne b =
      if calCRC8 self.tmp = b then
        (some (.ofBytes (self.tmp ++ [b])), { self with state := .header, tmp := [] })
      else (none, { self with
        state := .header
        tmp := []
        errorTimes := self.errorTimes + 1 }) := by
  have hlen' : 47 ≤ (self.tmp ++ [b]).length := by
    rw [List.length_append, hlen]
    exact Nat.le_refl _
  have htake : (self.tmp ++ [b]).take 46 = self.tmp := by
    rw [← hlen, List.take_left']
    rfl
  have hcrc : (LiDARFrameTypeDef.ofBytes (self.tmp ++ [b])).crc8 = b := by
    show (self.tmp ++ [b]).getD 46 0 = b
    rw [List.getD_append_right _ _ _ _ (by omega), hlen]
    rfl
  simp only [analysisOne, hstate, if_pos hlen', htake, hcrc]

/-- A packet with any check. -/
theorem parse_packet (h : self.Idle) (hlen : bs.length = 44) :
    self.parse f (PKG_HEADER :: PKG_VER_LEN :: bs ++ [b]) =
      if calCRC8 (PKG_HEADER :: PKG_VER_LEN :: bs) = b then
        self.take f (.ofBytes (PKG_HEADER :: PKG_VER_LEN :: bs ++ [b]))
      else { self with errorTimes := self.errorTimes + 1 } := by
  have hself : { self with state := .header, tmp := [] } = self := by
    rw [← h.state, ← h.tmp]
  rw [parse_append, parse_payload h (by omega), parse_cons, parse_nil, parseOne,
    analysisOne_last rfl (by simp [hlen])]
  by_cases hcrc : calCRC8 (PKG_HEADER :: PKG_VER_LEN :: bs) = b
  · simp only [if_pos hcrc, hself]
  · simp only [if_neg hcrc, ← h.state, ← h.tmp]

end LiPkg

/-! ### Bursts of errors -/

/-- A packet on its way: a burst of errors may hit what is behind its header. -/
structure Transmission where
  pkg : LiDARFrameTypeDef
  sound : pkg.Sound
  errors : List UInt8
  length : errors.length = 47
  burst : Burst (errors.map UInt8.toBitVec)
  header : errors.take 2 = [0, 0]

namespace Transmission

/-- What arrives. -/
def bytes (t : Transmission) : List UInt8 := List.zipWith (· ^^^ ·) t.pkg.bytes t.errors

def intact (t : Transmission) : Bool := t.errors.all (· == 0)

variable (t : Transmission)

theorem bytes_of_intact (h : t.intact) : t.bytes = t.pkg.bytes := by
  have hall : ∀ x ∈ t.errors, x = 0 := by simpa [intact] using h
  have herrors : t.errors = List.replicate 47 0 := List.eq_replicate_iff.mpr ⟨t.length, hall⟩
  rw [bytes, herrors, ← t.pkg.length_bytes]
  generalize t.pkg.bytes = bs
  induction bs with
  | nil => rfl
  | cons b bs ih =>
    rw [List.length_cons, List.replicate_succ, List.zipWith_cons_cons, ih, UInt8.xor_zero]

/-- The digest of all bytes is zero exactly if the last one is the check of the others. -/
theorem digest_concat_iff (bs : List UInt8) (b : UInt8) :
    digest poly 0#8 ((bs ++ [b]).map UInt8.toBitVec) = 0#8 ↔ calCRC8 bs = b := by
  rw [List.map_append, digest_append, ← calCRC8_eq]
  show (shift poly)^[8] ((calCRC8 bs).toBitVec ^^^ b.toBitVec) = 0#8 ↔ _
  constructor
  · intro h
    exact UInt8.toBitVec_inj.mp (BitVec.xor_eq_zero_iff.mp (eq_zero_of_shifts rfl h))
  · rintro rfl
    rw [BitVec.xor_self, shifts_zero]

theorem map_bytes : t.bytes.map UInt8.toBitVec =
    Crc.flip (t.pkg.bytes.map UInt8.toBitVec) (t.errors.map UInt8.toBitVec) := by
  rw [bytes, Crc.flip, List.zipWith_map, List.map_zipWith]
  rfl

/-- The check finds the burst. -/
theorem crc_iff {bs : List UInt8} {b : UInt8} (h : t.bytes = bs ++ [b]) :
    calCRC8 bs = b ↔ t.intact := by
  have hsent : digest poly 0#8 (t.pkg.bytes.map UInt8.toBitVec) = 0#8 :=
    (digest_concat_iff _ _).mpr t.sound.crc8.symm
  have hlen : (t.errors.map UInt8.toBitVec).length = (t.pkg.bytes.map UInt8.toBitVec).length := by
    rw [List.length_map, List.length_map, t.length, t.pkg.length_bytes]
  have hburst := t.burst.digest_flip_iff (p := poly) (c := 0#8) rfl hlen
  rw [← map_bytes, hsent, h, digest_concat_iff] at hburst
  rw [hburst, intact, List.all_eq_true]
  constructor
  · intro hzero x hx
    have := hzero _ (List.mem_map_of_mem hx)
    simpa using UInt8.toBitVec_inj.mp this
  · intro hzero x hx
    obtain ⟨y, hy, rfl⟩ := List.mem_map.mp hx
    rw [show y = 0 by simpa using hzero y hy]
    rfl

theorem bytes_eq : ∃ bs b, bs.length = 44 ∧ t.bytes = PKG_HEADER :: PKG_VER_LEN :: bs ++ [b] := by
  obtain ⟨e₁, e₂, errors, herrors⟩ : ∃ e₁ e₂ errors, t.errors = e₁ :: e₂ :: errors := by
    have := t.length
    match hmatch : t.errors with
    | [] => simp [hmatch] at this
    | [_] => simp [hmatch] at this
    | e₁ :: e₂ :: errors => exact ⟨e₁, e₂, errors, rfl⟩
  have hheader := t.header
  have hlength := t.length
  rw [herrors] at hheader hlength
  obtain ⟨rfl, rfl⟩ : e₁ = 0 ∧ e₂ = 0 := by simpa using hheader
  have hbytes : t.bytes = PKG_HEADER :: PKG_VER_LEN ::
      List.zipWith (· ^^^ ·) (t.pkg.bytes.drop 2) errors := by
    rw [bytes, herrors, LiDARFrameTypeDef.bytes, LiDARFrameTypeDef.payload, t.sound.header,
      t.sound.verLen]
    rfl
  have hlen : (List.zipWith (· ^^^ ·) (t.pkg.bytes.drop 2) errors).length = 45 := by
    simp only [List.length_cons] at hlength
    rw [List.length_zipWith, List.length_drop, t.pkg.length_bytes]
    omega
  obtain h | ⟨bs, b, h⟩ := List.eq_nil_or_concat
    (List.zipWith (· ^^^ ·) (t.pkg.bytes.drop 2) errors)
  · rw [h] at hlen
    cases hlen
  · rw [List.concat_eq_append] at h
    rw [h, List.length_append] at hlen
    refine ⟨bs, b, by simpa using hlen, ?_⟩
    rw [hbytes, h]
    rfl

end Transmission

namespace LiPkg

variable {F : Type} {f : Angles F} {self : LiPkg F} {pkg : LiDARFrameTypeDef} {bs cs : List UInt8}
  {b : UInt8}

theorem parse_transmission (h : self.Idle) (t : Transmission) :
    self.parse f t.bytes =
      if t.intact then self.take f t.pkg
      else { self with errorTimes := self.errorTimes + 1 } := by
  obtain ⟨bs, b, hlen, hbytes⟩ := t.bytes_eq
  have hcrc := t.crc_iff hbytes
  rw [hbytes, parse_packet h hlen]
  by_cases hintact : t.intact
  · rw [if_pos (hcrc.mpr hintact), if_pos hintact, ← hbytes, t.bytes_of_intact hintact,
      LiDARFrameTypeDef.ofBytes_bytes]
  · rw [if_neg (fun h => hintact (hcrc.mp h)), if_neg hintact]

/-- An error counted before a packet is one counted after it. -/
theorem take_errorTimes (pkg : LiDARFrameTypeDef) (n : ℕ) :
    ({ self with errorTimes := self.errorTimes + n } : LiPkg F).take f pkg =
      { self.take f pkg with errorTimes := (self.take f pkg).errorTimes + n } := by
  rw [take, take]
  split
  · simp only [Nat.add_right_comm]
  · rfl

/-- Of the packets sent the intact ones are taken, in order, and the others are counted. -/
theorem parse_sent (h : self.Idle) (sent : List Transmission) :
    self.parse f (sent.flatMap Transmission.bytes) =
      ((sent.filter Transmission.intact).map Transmission.pkg).foldl (take f)
        { self with errorTimes := self.errorTimes +
            (sent.filter fun t => !t.intact).length } := by
  induction sent generalizing self with
  | nil => rfl
  | cons t sent ih =>
    rw [List.flatMap_cons, parse_append, parse_transmission h]
    by_cases hintact : t.intact
    · rw [if_pos hintact, ih h.take]
      simp only [List.filter_cons, hintact, if_true, Bool.not_true, List.map_cons,
        List.foldl_cons, take_errorTimes]
      rfl
    · have hidle : Idle { self with errorTimes := self.errorTimes + 1 } := ⟨h.state, h.tmp⟩
      rw [if_neg hintact, ih hidle]
      simp [hintact, Nat.add_assoc, Nat.add_comm]

/-! ### Finding the packets -/

/-- What takes the parser from one search to the next. -/
inductive Piece : List UInt8 → Prop
  | skip {b : UInt8} : b ≠ PKG_HEADER → Piece [b]
  | lost {b : UInt8} : b ≠ PKG_VER_LEN → Piece [PKG_HEADER, b]
  | packet {bs : List UInt8} {b : UInt8} : bs.length = 44 →
      Piece (PKG_HEADER :: PKG_VER_LEN :: bs ++ [b])

/-- Bytes that cut into pieces. -/
def Cuts (bs : List UInt8) : Prop :=
  ∃ pieces : List (List UInt8), bs = pieces.flatten ∧ ∀ p ∈ pieces, Piece p

theorem Cuts.append_piece (h : Cuts bs) (hp : Piece cs) : Cuts (bs ++ cs) := by
  obtain ⟨pieces, rfl, hpieces⟩ := h
  refine ⟨pieces ++ [cs], by simp, ?_⟩
  intro p hmem
  rcases List.mem_append.mp hmem with hmem | hmem
  · exact hpieces p hmem
  · rwa [List.mem_singleton.mp hmem]

/-- What `tmp` holds in a state. -/
def Holds (s : LiPkg F) : Prop :=
  match s.state with
  | .header => s.tmp = []
  | .verLen => s.tmp = [PKG_HEADER]
  | .data => ∃ bs, s.tmp = PKG_HEADER :: PKG_VER_LEN :: bs ∧ bs.length < 45

/-- The bytes before a state: those that cut, and those in `tmp`. -/
structure Position (bs : List UInt8) (s : LiPkg F) : Prop where
  split : ∃ cut, Cuts cut ∧ bs = cut ++ s.tmp
  holds : Holds s

theorem Position.step (h : Position bs self) : Position (bs ++ [b]) (self.parseOne f b) := by
  obtain ⟨⟨cut, hcut, rfl⟩, hholds⟩ := h
  cases hstate : self.state with
  | header =>
    have htmp : self.tmp = [] := by simpa [Holds, hstate] using hholds
    by_cases hb : b = PKG_HEADER
    · subst hb
      simp only [parseOne, analysisOne, hstate, if_true]
      exact ⟨⟨cut, hcut, by simp⟩, by simp [Holds, htmp]⟩
    · simp only [parseOne, analysisOne, hstate, if_neg hb]
      refine ⟨⟨cut ++ [b], hcut.append_piece (.skip hb), by simp [htmp]⟩, hholds⟩
  | verLen =>
    have htmp : self.tmp = [PKG_HEADER] := by simpa [Holds, hstate] using hholds
    by_cases hb : b = PKG_VER_LEN
    · subst hb
      simp only [parseOne, analysisOne, hstate, if_true]
      exact ⟨⟨cut, hcut, by simp⟩, ⟨[], by simp [htmp], by simp⟩⟩
    · simp only [parseOne, analysisOne, hstate, if_neg hb]
      exact ⟨⟨_, hcut.append_piece (.lost hb), by simp [htmp]⟩, rfl⟩
  | data =>
    obtain ⟨bs, htmp, hlen⟩ : ∃ bs, self.tmp = PKG_HEADER :: PKG_VER_LEN :: bs ∧
        bs.length < 45 := by simpa [Holds, hstate] using hholds
    by_cases hlast : bs.length = 44
    · -- the last byte ends the packet, with the right checksum or not
      have hpiece := hcut.append_piece (.packet (b := b) hlast)
      have hlen' : self.tmp.length = 46 := by rw [htmp, List.length_cons, List.length_cons, hlast]
      have hend : Position (cut ++ self.tmp ++ [b]) ({ self with state := .header, tmp := [] }) :=
        ⟨⟨_, hpiece, by simp [htmp]⟩, rfl⟩
      rw [parseOne, analysisOne_last hstate hlen']
      by_cases hcrc : calCRC8 self.tmp = b
      · simp only [if_pos hcrc]
        exact ⟨by rw [take_tmp]; exact hend.split, by rw [Holds, take_state, take_tmp]⟩
      · simp only [if_neg hcrc]
        exact ⟨hend.split, rfl⟩
    · rw [parseOne_collect hstate (by rw [htmp, List.length_cons, List.length_cons]; omega)]
      refine ⟨⟨cut, hcut, by simp⟩, ?_⟩
      simp only [Holds, hstate]
      exact ⟨bs ++ [b], by simp [htmp], by simp; omega⟩

theorem Position.run (h : Position cs self) : Position (cs ++ bs) (self.parse f bs) := by
  induction bs generalizing self cs with
  | nil => simpa using h
  | cons b bs ih =>
    have := ih (h.step (f := f) (b := b))
    rwa [List.append_assoc] at this

theorem Idle.position (h : self.Idle) : Position [] self :=
  ⟨⟨[], ⟨[], rfl, by simp⟩, by rw [h.tmp]; rfl⟩, by rw [Holds, h.state]; exact h.tmp⟩

theorem Idle.piece (h : self.Idle) (hp : Piece bs) : (self.parse f bs).Idle := by
  cases hp with
  | skip hb =>
    rw [parse_cons, parse_nil, parseOne, analysisOne, h.state]
    simpa only [if_neg hb] using h
  | lost hb =>
    simp only [parse_cons, parse_nil, parseOne, analysisOne, h.state, if_true, if_neg hb]
    exact ⟨rfl, rfl⟩
  | packet hlen =>
    rw [parse_packet h hlen]
    split
    · exact h.take
    · exact ⟨h.state, h.tmp⟩

theorem Idle.cuts (h : self.Idle) (hcuts : Cuts bs) : (self.parse f bs).Idle := by
  obtain ⟨pieces, rfl, hpieces⟩ := hcuts
  induction pieces generalizing self with
  | nil => exact h
  | cons p pieces ih =>
    rw [List.flatten_cons, parse_append]
    exact ih (h.piece (hpieces p (by simp))) (fun q hq => hpieces q (by simp [hq]))

/-- A call returns a packet only if it has collected the rest. -/
theorem analysisOne_eq_none (h : Holds self)
    (hlen : ¬ (self.state = .data ∧ self.tmp.length = 46)) :
    (self.analysisOne b).1 = none := by
  cases hstate : self.state with
  | header =>
    simp only [analysisOne, hstate]
    split <;> rfl
  | verLen =>
    simp only [analysisOne, hstate]
    split <;> rfl
  | data =>
    obtain ⟨bs, htmp, hshort⟩ : ∃ bs, self.tmp = PKG_HEADER :: PKG_VER_LEN :: bs ∧
        bs.length < 45 := by simpa [Holds, hstate] using h
    have hlen' : ¬ 47 ≤ (self.tmp ++ [b]).length := by
      intro hlong
      refine hlen ⟨hstate, ?_⟩
      rw [htmp] at hlong ⊢
      simp only [List.length_append, List.length_cons, List.length_nil] at hlong ⊢
      omega
    simp only [analysisOne, hstate, if_neg hlen']

theorem payload_eq (hpkg : pkg.Sound) : ∃ bs, bs.length = 44 ∧
    pkg.payload = PKG_HEADER :: PKG_VER_LEN :: bs := by
  have hlen := pkg.length_payload
  rw [LiDARFrameTypeDef.payload, hpkg.header, hpkg.verLen] at hlen ⊢
  simp only [List.append_assoc, List.cons_append, List.nil_append, List.length_cons] at hlen ⊢
  exact ⟨_, by omega, rfl⟩

/-- A packet is taken at its last byte if the bytes before it cut, and otherwise nothing is taken
there. -/
theorem taken_iff (h : self.Idle) (before : List UInt8) (hpkg : pkg.Sound) :
    (Cuts before →
      ((self.parse f (before ++ pkg.payload)).analysisOne pkg.crc8).1 = some pkg) ∧
    (¬ Cuts before →
      ((self.parse f (before ++ pkg.payload)).analysisOne pkg.crc8).1 = none) := by
  constructor
  · intro hcuts
    obtain ⟨bs, hlen, hpayload⟩ := payload_eq hpkg
    rw [parse_append, hpayload, parse_payload (h.cuts hcuts) (by omega), ← hpayload,
      analysisOne_last rfl pkg.length_payload, if_pos hpkg.crc8.symm]
    exact congrArg some pkg.ofBytes_bytes
  · intro hcuts
    have hposition : Position (before ++ pkg.payload) (self.parse f (before ++ pkg.payload)) :=
      h.position.run
    refine analysisOne_eq_none hposition.holds fun ⟨_, hlen⟩ => ?_
    obtain ⟨cut, hcut, hsplit⟩ := hposition.split
    have hlen' : pkg.payload.length = (self.parse f (before ++ pkg.payload)).tmp.length := by
      rw [hlen, pkg.length_payload]
    rw [(List.append_inj' hsplit hlen').1] at hcuts
    exact hcuts hcut

end LiPkg

/-! ### Two packets -/

section Examples

/-- A packet with all readings zero. -/
def still : LiDARFrameTypeDef where
  header := PKG_HEADER
  verLen := PKG_VER_LEN
  speed := 3600
  startAngle := 0
  point := Vector.replicate 12 ⟨0, 0⟩
  endAngle := 800
  timestamp := 0
  crc8 := 0x9b

theorem still_sound : still.Sound := ⟨rfl, rfl, by decide +kernel⟩

/-- Four flipped bits, across two bytes. -/
def fourBits : List UInt8 := List.replicate 20 0 ++ [0x03, 0xc0] ++ List.replicate 25 0

theorem fourBits_burst : Burst (fourBits.map UInt8.toBitVec) := by
  have hbits : ∀ i : Fin 47, ∀ j : Fin 8,
      ((fourBits.map UInt8.toBitVec).getD i 0).getLsbD j →
        166 ≤ 8 * i.val + (7 - j) ∧ 8 * i.val + (7 - j) < 174 := by
    decide +kernel
  refine ⟨166, fun i hi j hj => ?_⟩
  rw [← List.getD_eq_getElem _ 0 hi] at hj
  exact hbits ⟨i, hi⟩ ⟨j, BitVec.lt_of_getLsbD hj⟩ hj

def sent : Transmission where
  pkg := still
  sound := still_sound
  errors := List.replicate 47 0
  length := rfl
  burst := ⟨0, fun i hi j hj => by
    simp only [List.map_replicate, List.getElem_replicate] at hj
    rw [show UInt8.toBitVec 0 = 0#8 from rfl, BitVec.getLsbD_zero] at hj
    exact absurd hj (by simp)⟩
  header := rfl

def hit : Transmission := { sent with
  errors := fourBits
  length := rfl
  burst := fourBits_burst
  header := rfl }

def degrees : Angles ℕ := ⟨fun start step i => start + i * step⟩

theorem parse_sent_hit :
    (({} : LiPkg ℕ).parse degrees ([hit, sent].flatMap Transmission.bytes)).errorTimes = 1 ∧
      (({} : LiPkg ℕ).parse degrees ([hit, sent].flatMap Transmission.bytes)).frameTmp.length =
        12 := by
  rw [LiPkg.parse_sent ⟨rfl, rfl⟩]
  decide +kernel

/-- A byte 00 before a packet does nothing; with a byte 54 before it the packet is lost. -/
theorem taken_iff_lost :
    ((({} : LiPkg ℕ).parse degrees ([0x00] ++ still.payload)).analysisOne still.crc8).1 =
        some still ∧
      ((({} : LiPkg ℕ).parse degrees ([0x54] ++ still.payload)).analysisOne still.crc8).1 =
        none := by
  constructor
  · refine (LiPkg.taken_iff ⟨rfl, rfl⟩ [0x00] still_sound).1 ⟨[[0x00]], rfl, ?_⟩
    intro p hp
    rw [List.mem_singleton.mp hp]
    exact .skip (by decide)
  · refine (LiPkg.taken_iff ⟨rfl, rfl⟩ [0x54] still_sound).2 ?_
    intro hcuts
    have hidle : (({} : LiPkg ℕ).parse degrees [0x54]).Idle := LiPkg.Idle.cuts ⟨rfl, rfl⟩ hcuts
    exact absurd hidle.state (by decide)

end Examples

end Ldlidar
