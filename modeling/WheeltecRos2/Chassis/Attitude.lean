/-
The attitude filter: `InvSqrt` and `Quaternion_Solution`.

`InvSqrt` is the inverse square root by a shift and one Newton step, written for a `long` of
32 bits.  Here `long` has 64: the load through `( long * ) &y` takes the word behind `y` along,
and the shift moves the lowest bit of that word into the sign bit of the estimate.
`independent_iff` is the exact condition for the word not to matter: an odd word turns the
estimate and with it the measured gravity around (`not_kept`).  As long as all words are even,
the filter runs as if there was nothing behind `y` (`run_cleared`).

Floats are `Float32`, and every operation rounds.  The words behind `y` are arguments, one for
each call.
-/
import WheeltecRos2.Lib.Binary32

namespace Chassis

open Binary32
open Float.Model.UnpackedFloat (Sign)

/-- `i = 0x5f375a86 - ( i >> 1 )` with `b` the bits of `y` and `a` the word behind it; what
`* (( float * ) &i)` reads back is the lower half. -/
def estimate (a b : BitVec 32) : BitVec 32 := (0x5f375a86#64 - (a ++ b).sshiftRight 1).setWidth 32

/-- The same with a `long` of 32 bits. -/
def estimate32 (b : BitVec 32) : BitVec 32 := 0x5f375a86#32 - (b >>> 1)

/-- `InvSqrt`, with `a` the word behind `y`. -/
def invSqrt (a : BitVec 32) (number : Float32) : Float32 :=
  let f : Float32 := 1.5
  let x := number * 0.5
  let y := Float32.ofBits ⟨estimate a number.toBits.toBitVec⟩
  y * (f - x * y * y)

/-- A value for each of the three axes. -/
structure Vector3 where
  x : Float32
  y : Float32
  z : Float32

namespace Vector3

/-- `ax * ax + ay * ay + az * az` -/
def squares (acc : Vector3) : Float32 := acc.x * acc.x + acc.y * acc.y + acc.z * acc.z

/-- `(ax == 0.0f) && (ay == 0.0f) && (az == 0.0f)` -/
def isZero (acc : Vector3) : Bool := acc.x == 0 && acc.y == 0 && acc.z == 0

def add (v w : Vector3) : Vector3 := ⟨v.x + w.x, v.y + w.y, v.z + w.z⟩

/-- Every component times `c`, as `*=` has it. -/
def scale (v : Vector3) (c : Float32) : Vector3 := ⟨v.x * c, v.y * c, v.z * c⟩

end Vector3

/-- The acceleration made a unit vector: the measured direction of gravity. -/
def normalised (a : BitVec 32) (acc : Vector3) : Vector3 := acc.scale (invSqrt a acc.squares)

/-- The variables of the filter. -/
structure AttitudeFilter where
  q0 : Float32 := 1
  q1 : Float32 := 0
  q2 : Float32 := 0
  q3 : Float32 := 0
  integralFB : Vector3 := ⟨0, 0, 0⟩

def samplingFreq : Float32 := 20

/-- Nothing assigns the two gains. -/
def twoKp : Float32 := 1

def twoKi : Float32 := 0

/-- `halfvx`, `halfvy`, `halfvz`: the direction of gravity that the quaternion stands for. -/
def AttitudeFilter.halfv (s : AttitudeFilter) : Vector3 where
  x := s.q1 * s.q3 - s.q0 * s.q2
  y := s.q0 * s.q1 + s.q2 * s.q3
  z := s.q0 * s.q0 - 0.5 + s.q3 * s.q3

/-- `halfex`, `halfey`, `halfez`: the cross product of the measured and the estimated direction. -/
def halfe (acc halfv : Vector3) : Vector3 where
  x := acc.y * halfv.z - acc.z * halfv.y
  y := acc.z * halfv.x - acc.x * halfv.z
  z := acc.x * halfv.y - acc.y * halfv.x

/-- The feedback of the accelerometer: the next integral error and the corrected gyroscope. -/
def feedback (a : BitVec 32) (s : AttitudeFilter) (gyro acc : Vector3) : AttitudeFilter × Vector3 :=
  if acc.isZero then (s, gyro)
  else
    let e := halfe (normalised a acc) s.halfv
    if 0 < twoKi then
      let integralFB := s.integralFB.add
        ⟨twoKi * e.x * (1 / samplingFreq), twoKi * e.y * (1 / samplingFreq),
          twoKi * e.z * (1 / samplingFreq)⟩
      ({ s with integralFB }, (gyro.add integralFB).add ⟨twoKp * e.x, twoKp * e.y, twoKp * e.z⟩)
    else
      ({ s with integralFB := ⟨0, 0, 0⟩ }, gyro.add ⟨twoKp * e.x, twoKp * e.y, twoKp * e.z⟩)

/-- The rate of change of the quaternion, integrated over one sample. -/
def integrate (s : AttitudeFilter) (gyro : Vector3) : AttitudeFilter :=
  let g := gyro.scale (0.5 * (1 / samplingFreq))
  let qa := s.q0
  let qb := s.q1
  let qc := s.q2
  -- the components on the right are those from before, `q3` because it is assigned last
  { s with
    q0 := s.q0 + (-qb * g.x - qc * g.y - s.q3 * g.z)
    q1 := s.q1 + (qa * g.x + qc * g.z - s.q3 * g.y)
    q2 := s.q2 + (qa * g.y - qb * g.z + s.q3 * g.x)
    q3 := s.q3 + (qa * g.z + qb * g.y - qc * g.x) }

/-- The quaternion made a unit one. -/
def AttitudeFilter.normaliseQuaternion (a : BitVec 32) (s : AttitudeFilter) : AttitudeFilter :=
  let recipNorm := invSqrt a (s.q0 * s.q0 + s.q1 * s.q1 + s.q2 * s.q2 + s.q3 * s.q3)
  { s with
    q0 := s.q0 * recipNorm
    q1 := s.q1 * recipNorm
    q2 := s.q2 * recipNorm
    q3 := s.q3 * recipNorm }

/-- `Quaternion_Solution`; `a` and `a'` are the words behind `y` in its two calls of `InvSqrt`. -/
def quaternionSolution (a a' : BitVec 32) (s : AttitudeFilter) (gyro acc : Vector3) :
    AttitudeFilter :=
  let (s, gyro) := feedback a s gyro acc
  (integrate s gyro).normaliseQuaternion a'

/-! ### The bits of the estimate -/

/-- The lower half of the shifted word: the shift is arithmetic, but its upper half is not read. -/
theorem setWidth_sshiftRight (i : BitVec 64) :
    (i.sshiftRight 1).setWidth 32 = (i >>> 1).setWidth 32 := by
  refine BitVec.eq_of_getLsbD_eq fun k hk => ?_
  rw [BitVec.getLsbD_setWidth, BitVec.getLsbD_setWidth, BitVec.getLsbD_sshiftRight,
    BitVec.getLsbD_ushiftRight, if_pos (by omega)]
  have hlow : ¬64 ≤ k := by omega
  simp [hlow]

theorem toNat_append (a b : BitVec 32) : (a ++ b).toNat = a.toNat * 2 ^ 32 + b.toNat := by
  rw [BitVec.toNat_append, ← Nat.shiftLeft_add_eq_or_of_lt b.isLt, Nat.shiftLeft_eq]

theorem toNat_estimate32 (b : BitVec 32) :
    (estimate32 b).toNat = (2 ^ 32 - b.toNat / 2 + 0x5f375a86) % 2 ^ 32 := by
  rw [estimate32, BitVec.toNat_sub, BitVec.toNat_ushiftRight, Nat.shiftRight_eq_div_pow]
  rfl

/-- The lowest bit of the word behind `y` ends up in the sign bit. -/
theorem toNat_estimate (a b : BitVec 32) :
    (estimate a b).toNat =
      (2 ^ 32 - b.toNat / 2 + a.toNat % 2 * 2 ^ 31 + 0x5f375a86) % 2 ^ 32 := by
  have hshift := congrArg BitVec.toNat (setWidth_sshiftRight (a ++ b))
  rw [BitVec.toNat_setWidth, BitVec.toNat_setWidth, BitVec.toNat_ushiftRight,
    Nat.shiftRight_eq_div_pow, toNat_append] at hshift
  rw [estimate, BitVec.toNat_setWidth, BitVec.toNat_sub]
  have hb := b.isLt
  have hi := ((a ++ b).sshiftRight 1).isLt
  change (2 ^ 64 - ((a ++ b).sshiftRight 1).toNat + 0x5f375a86) % 2 ^ 64 % 2 ^ 32 = _
  omega

theorem estimate_eq_iff (a b : BitVec 32) : estimate a b = estimate32 b ↔ Even a.toNat := by
  rw [← BitVec.toNat_inj, toNat_estimate, toNat_estimate32, Nat.even_iff]
  have hb := b.isLt
  omega

/-- For a positive pattern it is the same to shift in the sign. -/
theorem estimate32_eq_sshiftRight {b : BitVec 32} (hb : b.toNat < 2 ^ 31) :
    estimate32 b = 0x5f375a86#32 - b.sshiftRight 1 := by
  have hmsb : b.msb = false := BitVec.msb_eq_false_iff_two_mul_lt.mpr (by omega)
  rw [estimate32, BitVec.sshiftRight_eq_of_msb_false hmsb]

/-! ### The size of the estimate -/

theorem toNat_estimate_of_lt (a : BitVec 32) {b : BitVec 32} (hb : b.toNat < 2 ^ 31) :
    (estimate a b).toNat = 0x5f375a86 - b.toNat / 2 + a.toNat % 2 * 2 ^ 31 := by
  rw [toNat_estimate]
  omega

/-- The fields of a positive pattern and of its estimate add up to a fixed number, so that the
exponents do, up to the carry; the mantissas take the rest. -/
theorem mantissas_mul_le {e m e' m' : ℕ} (hm : m < 2 ^ 23) (hm' : m' < 2 ^ 23)
    (hlow : 2 * 0x5f375a86 ≤ 2 * (e' * 2 ^ 23 + m') + (e * 2 ^ 23 + m))
    (hhigh : 2 * (e' * 2 ^ 23 + m') + (e * 2 ^ 23 + m) ≤ 2 * 0x5f375a86 + 1) :
    (2 ^ 23 + m) * (2 ^ 23 + m') ^ 2 * 2 ^ (e + 2 * e') ≤ 2 ^ 451 := by
  rcases Nat.lt_or_ge (e + 2 * e') 380 with hcarry | hnone
  · -- a carry is taken from the exponents, and then any mantissas will do
    calc (2 ^ 23 + m) * (2 ^ 23 + m') ^ 2 * 2 ^ (e + 2 * e')
      _ ≤ 2 ^ 24 * (2 ^ 24) ^ 2 * 2 ^ 379 := by
          gcongr
          · omega
          · omega
          · exact one_le_two
          · omega
      _ = 2 ^ 451 := by rw [← pow_mul, ← pow_add, ← pow_add]
  · have hexponents : e + 2 * e' = 380 := by omega
    -- without a carry the mantissas share what the exponents leave
    have hmantissas : (2 ^ 23 + m) * (2 ^ 23 + m') ^ 2 ≤ 2 ^ 71 := by
      calc (2 ^ 23 + m) * (2 ^ 23 + m') ^ 2
        _ ≤ (2 ^ 23 + 7255309) * (2 ^ 23 + 3627654) ^ 2 := by
            gcongr
            · omega
            · omega
        _ ≤ 2 ^ 71 := by norm_num
    calc (2 ^ 23 + m) * (2 ^ 23 + m') ^ 2 * 2 ^ (e + 2 * e')
      _ ≤ 2 ^ 71 * 2 ^ 380 := by rw [hexponents]; gcongr
      _ = 2 ^ 451 := by rw [← pow_add]

theorem boundOf_eq {n : ℕ} (hn : n < 2 ^ 31) :
    boundOf n = (2 ^ 23 + n % 2 ^ 23 : ℕ) * 2 ^ (n / 2 ^ 23) / 2 ^ 150 := by
  rw [boundOf, Nat.mod_eq_of_lt (by omega : n / 2 ^ 23 < 2 ^ 8), zpow_sub₀ two_ne_zero,
    zpow_natCast, mul_div_assoc]
  norm_cast

theorem boundOf_estimate (a : BitVec 32) {b : BitVec 32} (hb : b.toNat < 2 ^ 31) :
    boundOf (estimate a b).toNat = boundOf (0x5f375a86 - b.toNat / 2) := by
  have hmantissa : (estimate a b).toNat % 2 ^ 23 = (0x5f375a86 - b.toNat / 2) % 2 ^ 23 := by
    rw [toNat_estimate_of_lt a hb]
    omega
  have hexponent : (estimate a b).toNat / 2 ^ 23 % 2 ^ 8 =
      (0x5f375a86 - b.toNat / 2) / 2 ^ 23 % 2 ^ 8 := by
    rw [toNat_estimate_of_lt a hb]
    omega
  rw [boundOf, boundOf, hmantissa, hexponent]

/-- The square of the estimate is at most two over the argument. -/
theorem boundOf_mul_sq_le {n : ℕ} (hn : n < 2 ^ 31) :
    boundOf n * boundOf (0x5f375a86 - n / 2) ^ 2 ≤ 2 := by
  rw [boundOf_eq hn, boundOf_eq (by omega)]
  obtain ⟨n', hn'⟩ : ∃ n', n' = 0x5f375a86 - n / 2 := ⟨_, rfl⟩
  have hfields : (2 ^ 23 + n % 2 ^ 23) * (2 ^ 23 + n' % 2 ^ 23) ^ 2 *
      2 ^ (n / 2 ^ 23 + 2 * (n' / 2 ^ 23)) ≤ 2 ^ 451 :=
    mantissas_mul_le (by omega) (by omega) (by omega) (by omega)
  rw [← hn']
  have hcast : (((2 ^ 23 + n % 2 ^ 23) * (2 ^ 23 + n' % 2 ^ 23) ^ 2 *
      2 ^ (n / 2 ^ 23 + 2 * (n' / 2 ^ 23)) : ℕ) : ℚ) ≤ 2 ^ 451 := by exact_mod_cast hfields
  have hpower : (2 : ℚ) ^ 451 = 2 * (2 ^ 150) ^ 3 := by rw [← pow_mul, ← pow_succ']
  have hscale : (0 : ℚ) < (2 ^ 150) ^ 3 := by positivity
  calc _ = (((2 ^ 23 + n % 2 ^ 23) * (2 ^ 23 + n' % 2 ^ 23) ^ 2 *
        2 ^ (n / 2 ^ 23 + 2 * (n' / 2 ^ 23)) : ℕ) : ℚ) / (2 ^ 150) ^ 3 := by
        generalize (2 : ℚ) ^ 150 = scale
        push_cast
        rw [pow_add, pow_mul']
        ring
    _ ≤ 2 := by rwa [div_le_iff₀ hscale, ← hpower]

theorem boundOf_estimate_le {n : ℕ} (hn : n ≤ 0x5f375a86) : boundOf n ≤ 2 ^ 64 := by
  have hmantissa : ((2 ^ 23 + n % 2 ^ 23 : ℕ) : ℚ) ≤ 2 ^ 24 := by
    exact_mod_cast (by omega : 2 ^ 23 + n % 2 ^ 23 ≤ 2 ^ 24)
  have hscale : (2 : ℚ) ^ (n / 2 ^ 23) ≤ 2 ^ 190 := pow_le_pow_right₀ one_le_two (by omega)
  rw [boundOf_eq (by omega)]
  calc _ ≤ (2 : ℚ) ^ 24 * 2 ^ 190 / 2 ^ 150 := by gcongr
    _ = 2 ^ 64 := by norm_num

/-! ### The Newton step -/

section Newton

variable {n y : ℚ}

/-- `x = number * 0.5F` -/
theorem product_half_lt (hn : n < 2 ^ (128 : ℤ)) : product n (1 / 2) < 2 ^ (128 : ℤ) := by
  rw [product]
  norm_num at hn ⊢
  linarith

/-- `x * y` -/
theorem product_estimate_lt (hn : 0 ≤ n) (hn' : n < 2 ^ (128 : ℤ)) (hy' : y ≤ 2 ^ 64)
    (hny : n * y ^ 2 ≤ 2) : product (product n (1 / 2)) y < 2 ^ (128 : ℤ) := by
  have hmul : n * y ≤ 2 ^ (128 : ℤ) := by
    rcases le_total y 1 with hsmall | hlarge
    · exact (mul_le_of_le_one_right hn hsmall).trans hn'.le
    · calc n * y ≤ n * y ^ 2 := by
            gcongr
            exact le_self_pow₀ hlarge two_ne_zero
        _ ≤ 2 := hny
        _ ≤ 2 ^ (128 : ℤ) := by norm_num
  calc product (product n (1 / 2)) y
    _ = n * y * ((1 + 2 ^ (-23 : ℤ)) ^ 2 / 2) + y * (2 ^ (-149 : ℤ) * (1 + 2 ^ (-23 : ℤ))) +
        2 ^ (-149 : ℤ) := by rw [product, product]; ring
    _ ≤ 2 ^ (128 : ℤ) * ((1 + 2 ^ (-23 : ℤ)) ^ 2 / 2) +
        2 ^ 64 * (2 ^ (-149 : ℤ) * (1 + 2 ^ (-23 : ℤ))) + 2 ^ (-149 : ℤ) := by gcongr
    _ < 2 ^ (128 : ℤ) := by norm_num

/-- `x * y * y` -/
theorem product_sq_le (hy : 0 ≤ y) (hy' : y ≤ 2 ^ 64) (hny : n * y ^ 2 ≤ 2) :
    product (product (product n (1 / 2)) y) y ≤ 3 / 2 := by
  calc product (product (product n (1 / 2)) y) y
    _ = n * y ^ 2 * ((1 + 2 ^ (-23 : ℤ)) ^ 3 / 2) +
        y ^ 2 * (2 ^ (-149 : ℤ) * (1 + 2 ^ (-23 : ℤ)) ^ 2) +
        y * (2 ^ (-149 : ℤ) * (1 + 2 ^ (-23 : ℤ))) + 2 ^ (-149 : ℤ) := by
        rw [product, product, product]
        ring
    _ ≤ 2 * ((1 + 2 ^ (-23 : ℤ)) ^ 3 / 2) +
        (2 ^ 64) ^ 2 * (2 ^ (-149 : ℤ) * (1 + 2 ^ (-23 : ℤ)) ^ 2) +
        2 ^ 64 * (2 ^ (-149 : ℤ) * (1 + 2 ^ (-23 : ℤ))) + 2 ^ (-149 : ℤ) := by gcongr
    _ ≤ 3 / 2 := by norm_num

theorem signed_half : Signed .positive 0.5 := rfl

theorem bounded_half : Bounded (1 / 2) 0.5 := by
  have hunpack : (0.5 : Float32).toModel.unpack = .finite .positive 8388608 (-24) (by decide) := rfl
  rw [Bounded, hunpack]
  refine ⟨by decide, .inr (by decide), ?_⟩
  norm_num

/-- A Newton step from an estimate that is not too large keeps its side: what is subtracted
from `f` is at most `f`. -/
theorem signed_newton {number estimate : Float32} {s : Sign} (hsign : Signed .positive number)
    (hside : Signed s estimate) (hn : Bounded n number) (hy : Bounded y estimate)
    (hlt : n < 2 ^ (128 : ℤ)) (hle : y ≤ 2 ^ 64) (hsquare : n * y ^ 2 ≤ 2) :
    Signed s (estimate * (1.5 - number * 0.5 * estimate * estimate)) := by
  have hf : (1.5 : Float32).toModel.unpack = .finite .positive 12582912 (-23) (by decide) := rfl
  have hvalue : ((12582912 : ℕ) : ℚ) * 2 ^ (-23 : ℤ) = 3 / 2 := by norm_num
  have hsubtracted : Signed .positive (number * 0.5 * estimate * estimate) := by
    -- the estimate comes in twice, so its side does not matter
    have hsquared := ((hsign.mul signed_half).mul hside).mul hside
    rwa [positive_mul, positive_mul, sign_mul_self] at hsquared
  have hproduct := product_sq_le hy.nonneg hle hsquare
  have hbound : Bounded (3 / 2) (number * 0.5 * estimate * estimate) :=
    (((hn.mul bounded_half (product_half_lt hlt)).mul hy
      (product_estimate_lt hn.nonneg hlt hle hsquare)).mul hy
        (hproduct.trans_lt (by norm_num))).mono hproduct
  have hpositive : Signed .positive (1.5 - number * 0.5 * estimate * estimate) :=
    Signed.sub hf hsubtracted (hvalue ▸ hbound)
  have hresult := hside.mul hpositive
  rwa [mul_positive] at hresult

end Newton

/-! ### The side of the result -/

/-- The side on which the word `a` puts the estimate. -/
def sideOf (a : BitVec 32) : Sign := if Even a.toNat then .positive else .negative

theorem sideOf_eq_positive_iff (a : BitVec 32) : sideOf a = .positive ↔ Even a.toNat := by
  rw [sideOf]
  split_ifs with h
  · exact iff_of_true rfl h
  · exact iff_of_false (by rintro ⟨⟩) h

theorem signed_estimate (a : BitVec 32) {b : BitVec 32} (hb : b.toNat < 2 ^ 31) :
    Signed (sideOf a) (.ofBits ⟨estimate a b⟩) := by
  have hsign : (estimate a b).toNat < 2 ^ 31 ↔ Even a.toNat := by
    rw [toNat_estimate_of_lt a hb, Nat.even_iff]
    omega
  rw [sideOf, ← if_congr hsign rfl rfl]
  exact signed_ofBits (estimate a b)

theorem bounded_estimate (a : BitVec 32) {b : BitVec 32} (hb : b.toNat < 2 ^ 31) :
    Bounded (boundOf (0x5f375a86 - b.toNat / 2)) (.ofBits ⟨estimate a b⟩) := by
  rw [← boundOf_estimate a hb]
  refine bounded_ofBits ?_
  rw [toNat_estimate_of_lt a hb]
  omega

theorem invSqrt_eq (a : BitVec 32) (number : Float32) :
    invSqrt a number = .ofBits ⟨estimate a number.toBits.toBitVec⟩ *
      (1.5 - number * 0.5 * .ofBits ⟨estimate a number.toBits.toBitVec⟩ *
        .ofBits ⟨estimate a number.toBits.toBitVec⟩) := rfl

/-- An even word is as good as none. -/
theorem invSqrt_of_even {a : BitVec 32} (ha : Even a.toNat) (number : Float32) :
    invSqrt a number = invSqrt 0 number := by
  have hestimate : ∀ b, estimate a b = estimate 0 b := fun b =>
    ((estimate_eq_iff a b).mpr ha).trans ((estimate_eq_iff 0 b).mpr (by decide)).symm
  rw [invSqrt_eq, invSqrt_eq, hestimate]

theorem unpack_invSqrt_of_notANumber (a : BitVec 32) {number : Float32}
    (h : number.toModel.unpack = .notANumber) : (invSqrt a number).toModel.unpack = .notANumber :=
  unpack_mul_of_right (unpack_sub_of_right
    (unpack_mul_of_left (unpack_mul_of_left (unpack_mul_of_left h))))

/-- For a finite argument the Newton step keeps the side of the estimate. -/
theorem signed_invSqrt (a : BitVec 32) {number : Float32} (hsign : Signed .positive number)
    (hfinite : number.toBits.toBitVec ≠ 0x7F800000#32) : Signed (sideOf a) (invSqrt a number) := by
  by_cases hnumber : number.toModel.unpack = .notANumber
  · -- what is no number has either sign
    exact signed_of_notANumber (unpack_invSqrt_of_notANumber a hnumber)
  have hle := hsign.toNat_toBits_le hnumber
  have hne : number.toBits.toBitVec.toNat ≠ 0x7F800000 := fun h =>
    hfinite (BitVec.eq_of_toNat_eq h)
  have hpositive : number.toBits.toBitVec.toNat < 2 ^ 31 := by omega
  rw [invSqrt_eq]
  exact signed_newton hsign (signed_estimate a hpositive) (bounded_toBits (by omega))
    (bounded_estimate a hpositive) (boundOf_lt (by omega))
    (boundOf_estimate_le (Nat.sub_le _ _)) (boundOf_mul_sq_le hpositive)

/-! ### The measured direction of gravity -/

/-- `c'` is on the other side of zero than `c`. -/
def Reversed (c c' : Float32) : Prop := 0 < c ∧ c' < 0 ∨ c < 0 ∧ 0 < c'

/-- `c'` is on the same side of zero as `c`. -/
def Kept (c c' : Float32) : Prop := 0 < c ∧ 0 < c' ∨ c < 0 ∧ c' < 0

instance (c c' : Float32) : Decidable (Reversed c c') := inferInstanceAs (Decidable (_ ∨ _))

/-- Some component comes out reversed. -/
def Overturns (v w : Vector3) : Prop := Reversed v.x w.x ∨ Reversed v.y w.y ∨ Reversed v.z w.z

instance (v w : Vector3) : Decidable (Overturns v w) := inferInstanceAs (Decidable (_ ∨ _))

theorem signed_squares (acc : Vector3) : Signed .positive acc.squares :=
  ((signed_mul_self acc.x).add (signed_mul_self acc.y)).add (signed_mul_self acc.z)

theorem not_reversed_mul {r : Float32} (hr : Signed .positive r) (c : Float32) :
    ¬Reversed c (c * r) := by
  rintro (⟨hc, hresult⟩ | ⟨hc, hresult⟩)
  · have hsign := (signed_of_pos hc).2.mul hr
    cases (signed_iff_of_neg hresult).mp hsign
  · have hsign := (signed_of_neg hc).2.mul hr
    cases (signed_iff_of_pos hresult).mp hsign

theorem not_kept_mul {r : Float32} (hr : Signed .negative r) (c : Float32) : ¬Kept c (c * r) := by
  rintro (⟨hc, hresult⟩ | ⟨hc, hresult⟩)
  · have hsign := (signed_of_pos hc).2.mul hr
    cases (signed_iff_of_pos hresult).mp hsign
  · have hsign := (signed_of_neg hc).2.mul hr
    cases (signed_iff_of_neg hresult).mp hsign

/-- With an even word the direction is kept. -/
theorem not_overturns {a : BitVec 32} (ha : Even a.toNat) {acc : Vector3}
    (hfinite : acc.squares.toBits.toBitVec ≠ 0x7F800000#32) :
    ¬Overturns acc (normalised a acc) := by
  have hside := signed_invSqrt a (signed_squares acc) hfinite
  rw [(sideOf_eq_positive_iff a).mpr ha] at hside
  rintro (h | h | h)
  · exact not_reversed_mul hside _ h
  · exact not_reversed_mul hside _ h
  · exact not_reversed_mul hside _ h

/-- With an odd word no component stays on its side. -/
theorem not_kept {a : BitVec 32} (ha : ¬Even a.toNat) {acc : Vector3}
    (hfinite : acc.squares.toBits.toBitVec ≠ 0x7F800000#32) :
    ¬Kept acc.x (normalised a acc).x ∧ ¬Kept acc.y (normalised a acc).y ∧
      ¬Kept acc.z (normalised a acc).z := by
  have hside := signed_invSqrt a (signed_squares acc) hfinite
  rw [sideOf, if_neg ha] at hside
  exact ⟨not_kept_mul hside _, not_kept_mul hside _, not_kept_mul hside _⟩

/-- What the 32-bit algorithm has: the word `a` behind the bits `b` does not matter. -/
structure Independent (a b : BitVec 32) : Prop where
  bits : estimate a b = estimate32 b
  nonneg : 0 < Float32.ofBits ⟨b⟩ → ¬Float32.ofBits ⟨estimate a b⟩ < 0
  upright (acc : Vector3) : acc.squares.toBits.toBitVec = b → ¬Overturns acc (normalised a acc)

theorem estimate_nonneg {a b : BitVec 32} (ha : Even a.toNat) (hb : 0 < Float32.ofBits ⟨b⟩) :
    ¬Float32.ofBits ⟨estimate a b⟩ < 0 := by
  have hpositive : b.toNat < 2 ^ 31 := by
    have hsign := (signed_iff_of_pos hb).mp (signed_ofBits b)
    by_contra hlarge
    rw [if_neg hlarge] at hsign
    cases hsign
  intro hneg
  have hside := (signed_iff_of_neg hneg).mp (signed_estimate a hpositive)
  rw [(sideOf_eq_positive_iff a).mpr ha] at hside
  cases hside

/-- An acceleration whose square is out of range is turned around with an even word, too. -/
theorem overturns_of_overflow {a : BitVec 32} (ha : Even a.toNat) :
    Overturns ⟨2e19, 0, 0⟩ (normalised a ⟨2e19, 0, 0⟩) := by
  rw [normalised, invSqrt_of_even ha]
  decide +kernel

/-- The word behind `y` does not matter exactly if it is even and the argument is finite: from
infinity, the Newton step subtracts infinity. -/
theorem independent_iff (a b : BitVec 32) :
    Independent a b ↔ Even a.toNat ∧ b ≠ 0x7F800000#32 := by
  constructor
  · intro h
    have ha := (estimate_eq_iff a b).mp h.bits
    refine ⟨ha, ?_⟩
    rintro rfl
    -- the argument is infinite for an acceleration of this size
    exact h.upright _ (by decide +kernel) (overturns_of_overflow ha)
  · rintro ⟨ha, hb⟩
    refine ⟨(estimate_eq_iff a b).mpr ha, estimate_nonneg ha, ?_⟩
    rintro acc rfl
    exact not_overturns ha hb

/-- At rest, with an odd word behind `y`, gravity is measured upside down. -/
theorem rest_overturned :
    ¬Independent 1 (Vector3.squares ⟨0, 0, 9.8⟩).toBits.toBitVec ∧
      Overturns ⟨0, 0, 9.8⟩ (normalised 1 ⟨0, 0, 9.8⟩) := by
  have hoverturns : Overturns ⟨0, 0, 9.8⟩ (normalised 1 ⟨0, 0, 9.8⟩) := by decide +kernel
  exact ⟨fun h => h.upright _ rfl hoverturns, hoverturns⟩

/-! ### Runs of the filter -/

/-- A call of `Quaternion_Solution`, with the words its two square roots find behind `y`. -/
structure Sample where
  a : BitVec 32
  a' : BitVec 32
  gyro : Vector3
  acc : Vector3

/-- The call with nothing behind `y`. -/
def Sample.cleared (p : Sample) : Sample := { p with a := 0, a' := 0 }

def AttitudeFilter.run (s : AttitudeFilter) (samples : List Sample) : AttitudeFilter :=
  samples.foldl (fun s p => quaternionSolution p.a p.a' s p.gyro p.acc) s

theorem quaternionSolution_of_even {a a' : BitVec 32} (ha : Even a.toNat) (ha' : Even a'.toNat)
    (s : AttitudeFilter) (gyro acc : Vector3) :
    quaternionSolution a a' s gyro acc = quaternionSolution 0 0 s gyro acc := by
  have hfeedback : feedback a s gyro acc = feedback 0 s gyro acc := by
    rw [feedback, feedback, normalised, invSqrt_of_even ha, ← normalised]
  rw [quaternionSolution, quaternionSolution, hfeedback]
  simp only [AttitudeFilter.normaliseQuaternion, invSqrt_of_even ha']

/-- As long as all words are even, the filter runs as if there was nothing behind `y`. -/
theorem run_cleared {samples : List Sample}
    (heven : ∀ p ∈ samples, Even p.a.toNat ∧ Even p.a'.toNat) (s : AttitudeFilter) :
    s.run (samples.map Sample.cleared) = s.run samples := by
  induction samples generalizing s with
  | nil => rfl
  | cons p samples ih =>
    obtain ⟨⟨ha, ha'⟩, hrest⟩ := List.forall_mem_cons.mp heven
    have hstep : quaternionSolution 0 0 s p.gyro p.acc =
        quaternionSolution p.a p.a' s p.gyro p.acc :=
      (quaternionSolution_of_even ha ha' s p.gyro p.acc).symm
    calc s.run ((p :: samples).map Sample.cleared)
      _ = (quaternionSolution 0 0 s p.gyro p.acc).run (samples.map Sample.cleared) := rfl
      _ = (quaternionSolution p.a p.a' s p.gyro p.acc).run samples := by rw [hstep, ih hrest]

end Chassis
