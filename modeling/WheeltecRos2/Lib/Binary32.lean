/-
Signs and magnitudes of `Float32` computations.

`HasSign s u` says that `u` has the sign `s` unless it is no number, and `Within q u` that `u` is a
number of magnitude at most `q`.  Both follow a computation: products multiply signs
(`HasSign.mul`) and, up to the rounding, magnitudes (`Within.mul`), and a difference is positive
if nothing greater is subtracted (`HasSign.sub`).  Packing keeps the sign and does not add to the
magnitude (`HasSign.pack`, `Within.pack`), so the two carry over from one operation to the next.
-/
import Mathlib

namespace Binary32

open Float.Model Float.Model.UnpackedFloat

/-- The sign of a number. -/
def HasSign (s : Sign) : UnpackedFloat → Prop
  | .notANumber => True
  | .infinity s' => s' = s
  | .zero s' => s' = s
  | .finite s' _ _ _ => s' = s

/-- A finite number of magnitude at most `q`, with the mantissa and the exponent that
`binary32` gives it. -/
def Within (q : ℚ) : UnpackedFloat → Prop
  | .notANumber => False
  | .infinity _ => False
  | .zero _ => 0 ≤ q
  | .finite _ m e _ => -149 ≤ e ∧ (e = -149 ∨ 2 ^ 23 ≤ m) ∧ (m : ℚ) * 2 ^ e ≤ q

/-- The bound that two bounds give for the rounded product. -/
def product (q r : ℚ) : ℚ := q * r * (1 + 2 ^ (-23 : ℤ)) + 2 ^ (-149 : ℤ)

variable {s s' : Sign} {u v : UnpackedFloat} {q r : ℚ}

theorem Within.mono (h : Within q u) (hqr : q ≤ r) : Within r u := by
  cases u with
  | notANumber => exact h
  | infinity s => exact h
  | zero s => exact le_trans (b := q) h hqr
  | finite s m e hm => exact ⟨h.1, h.2.1, h.2.2.trans hqr⟩

theorem Within.nonneg (h : Within q u) : 0 ≤ q := by
  cases u with
  | notANumber => exact h.elim
  | infinity s => exact h.elim
  | zero s => exact h
  | finite s m e hm => exact le_trans (by positivity) h.2.2

/-! ### Rounding -/

theorem mantissa_shiftRight (em : ExtendedMantissa) (k : ℕ) :
    (em >>> k).mantissa = em.mantissa / 2 ^ k := by
  induction k with
  | zero => exact (Nat.div_one _).symm
  | succ k ih =>
    have hstep : em >>> (k + 1) = (em >>> k).shiftRightOne := rfl
    rw [hstep, ExtendedMantissa.shiftRightOne, ih, Nat.div_div_eq_div_mul, Nat.pow_succ]

theorem roundedMantissa_bounds (em : ExtendedMantissa) :
    em.mantissa ≤ em.roundedMantissa ∧ em.roundedMantissa ≤ em.mantissa + 1 := by
  obtain ⟨m, roundBit, stickyBit⟩ := em
  cases roundBit <;> cases stickyBit <;>
    simp only [ExtendedMantissa.roundedMantissa, ExtendedMantissa.accuracy,
      Accuracy.roundToNearestEven] <;>
    omega

/-- The exponent that rounding aims at. -/
def target (m : ℕ) (e : ℤ) : ℤ := Format.binary32.targetExponent (totalExponent m e)

theorem target_eq (m : ℕ) (e : ℤ) : target m e = max (m.log2 + 1 + e - 24) (-149) := rfl

theorem hasSign_roundWithAccuracy (s : Sign) (m : ℕ) (e : ℤ) (a : Accuracy) :
    HasSign s (roundWithAccuracy Format.binary32 s m e a) := by
  rw [roundWithAccuracy]
  dsimp only
  split_ifs
  · exact rfl
  · exact rfl

/-- Dropping low bits does not add to the value. -/
theorem div_mul_zpow_le (n k : ℕ) (e : ℤ) :
    ((n / 2 ^ k : ℕ) : ℚ) * 2 ^ (e + k) ≤ n * 2 ^ e := by
  have hdrop : ((n / 2 ^ k * 2 ^ k : ℕ) : ℚ) ≤ n := by exact_mod_cast Nat.div_mul_le_self n (2 ^ k)
  have hscale : (0 : ℚ) ≤ 2 ^ e := by positivity
  calc ((n / 2 ^ k : ℕ) : ℚ) * 2 ^ (e + k) = ((n / 2 ^ k * 2 ^ k : ℕ) : ℚ) * 2 ^ e := by
        rw [zpow_add₀ two_ne_zero, zpow_natCast]
        push_cast
        ring
    _ ≤ n * 2 ^ e := mul_le_mul_of_nonneg_right hdrop hscale

/-- The mantissa rounded to the target exponent. -/
def rounded (m : ℕ) (e : ℤ) : ℕ :=
  (ExtendedMantissa.ofMantissaAndAccuracy m .exact >>> (target m e - e).toNat).roundedMantissa

theorem rounded_mul_le (m : ℕ) (e : ℤ) :
    (rounded m e : ℚ) * 2 ^ (e + (target m e - e).toNat) ≤ m * 2 ^ e + 2 ^ target m e := by
  have hunit : (0 : ℚ) ≤ 2 ^ target m e := by positivity
  rw [rounded]
  rcases Nat.eq_zero_or_pos (target m e - e).toNat with hk | hk
  · -- the mantissa is short enough, and is kept
    rw [hk, Nat.cast_zero, add_zero]
    exact le_add_of_nonneg_right hunit
  · have hexponent : e + (target m e - e).toNat = target m e := by omega
    generalize (target m e - e).toNat = k at *
    have hmantissa : (ExtendedMantissa.ofMantissaAndAccuracy m .exact >>> k).roundedMantissa ≤
        m / 2 ^ k + 1 := by
      have hbounds :=
        roundedMantissa_bounds (ExtendedMantissa.ofMantissaAndAccuracy m .exact >>> k)
      rw [mantissa_shiftRight] at hbounds
      exact hbounds.2
    have hscale : (0 : ℚ) ≤ 2 ^ (e + k) := by positivity
    calc _ ≤ ((m / 2 ^ k + 1 : ℕ) : ℚ) * 2 ^ (e + k) :=
          mul_le_mul_of_nonneg_right (by exact_mod_cast hmantissa) hscale
      _ = ((m / 2 ^ k : ℕ) : ℚ) * 2 ^ (e + k) + 2 ^ target m e := by
          rw [Nat.cast_add, Nat.cast_one, add_mul, one_mul, hexponent]
      _ ≤ m * 2 ^ e + 2 ^ target m e := add_le_add_left (div_mul_zpow_le m k e) _

theorem div_le_rounded (m : ℕ) (e : ℤ) : m / 2 ^ (target m e - e).toNat ≤ rounded m e := by
  have hbounds := roundedMantissa_bounds
    (ExtendedMantissa.ofMantissaAndAccuracy m .exact >>> (target m e - e).toNat)
  rw [mantissa_shiftRight] at hbounds
  exact hbounds.1

/-- A number that is not too short gets a full mantissa or the smallest exponent. -/
theorem div_normal {m : ℕ} {e : ℤ} (hm : 0 < m) (hlong : e ≤ -149 ∨ 2 ^ 23 ≤ m) :
    e + (target m e - e).toNat = -149 ∨ 2 ^ 23 ≤ m / 2 ^ (target m e - e).toNat := by
  have hlog : e ≤ -149 ∨ 23 ≤ m.log2 := hlong.imp_right (Nat.le_log2 hm.ne').mpr
  have htarget := target_eq m e
  rcases le_or_gt (-149) ((m.log2 : ℤ) + 1 + e - 24) with hlarge | hsmall
  · right
    have hshift : (target m e - e).toNat = m.log2 - 23 := by omega
    rw [hshift, Nat.le_div_iff_mul_le (by positivity), ← Nat.pow_add,
      Nat.add_sub_of_le (by omega)]
    exact Nat.log2_self_le hm.ne'
  · left
    omega

/-- A mantissa that got too long by rounding is shifted once more. -/
theorem within_shiftRight (s : Sign) {n : ℕ} {e : ℤ} (he : -149 ≤ e)
    (hnormal : e = -149 ∨ 2 ^ 23 ≤ n) (hq : (n : ℚ) * 2 ^ e ≤ q) :
    Within q (if h : (ExtendedMantissa.ofMantissaAndAccuracy n .exact >>>
        (target n e - e).toNat).mantissa = 0 then .zero s
      else .finite s (ExtendedMantissa.ofMantissaAndAccuracy n .exact >>>
        (target n e - e).toNat).mantissa (e + (target n e - e).toNat) (Nat.pos_of_ne_zero h)) := by
  have hmantissa : (ExtendedMantissa.ofMantissaAndAccuracy n .exact >>>
      (target n e - e).toNat).mantissa = n / 2 ^ (target n e - e).toNat := mantissa_shiftRight _ _
  split_ifs with hne
  · exact le_trans (b := (n : ℚ) * 2 ^ e) (by positivity) hq
  · refine ⟨by omega, ?_, ?_⟩
    · rw [hmantissa] at hne ⊢
      have hpos : 0 < n := Nat.pos_of_ne_zero (by rintro rfl; simp at hne)
      exact div_normal hpos (hnormal.imp_left le_of_eq)
    · rw [hmantissa]
      exact (div_mul_zpow_le n _ e).trans hq

/-- Rounding adds at most a unit of the target exponent. -/
theorem within_roundWithAccuracy (s : Sign) {m : ℕ} {e : ℤ} (hm : 0 < m)
    (hlong : e ≤ -149 ∨ 2 ^ 23 ≤ m) :
    Within (m * 2 ^ e + 2 ^ target m e) (roundWithAccuracy Format.binary32 s m e .exact) := by
  have htarget := target_eq m e
  have hgrid : -149 ≤ e + (target m e - e).toNat := by omega
  have hnormal := (div_normal hm hlong).imp_right fun h => h.trans (div_le_rounded m e)
  exact within_shiftRight s hgrid hnormal (rounded_mul_le m e)

/-- The unit is small against the number, unless it is the smallest one. -/
theorem zpow_target_le {m : ℕ} (hm : 0 < m) (e : ℤ) :
    (2 : ℚ) ^ target m e ≤ m * 2 ^ e * 2 ^ (-23 : ℤ) + 2 ^ (-149 : ℤ) := by
  have hlog : (2 : ℚ) ^ m.log2 ≤ m := by exact_mod_cast Nat.log2_self_le hm.ne'
  rw [target_eq]
  rcases max_cases ((m.log2 : ℤ) + 1 + e - 24) (-149) with ⟨hmax, -⟩ | ⟨hmax, -⟩
  · rw [hmax]
    refine le_add_of_le_of_nonneg ?_ (by positivity)
    calc (2 : ℚ) ^ ((m.log2 : ℤ) + 1 + e - 24) = 2 ^ m.log2 * 2 ^ e * 2 ^ (-23 : ℤ) := by
          rw [← zpow_natCast, ← zpow_add₀ two_ne_zero, ← zpow_add₀ two_ne_zero]
          congr 1
          ring
      _ ≤ m * 2 ^ e * 2 ^ (-23 : ℤ) := by gcongr
  · rw [hmax]
    exact le_add_of_nonneg_left (by positivity)

/-! ### Operations -/

theorem HasSign.mul (hu : HasSign s u) (hv : HasSign s' v) :
    HasSign (s * s') (UnpackedFloat.mul Format.binary32 u v) := by
  cases u <;> cases v <;> cases hu <;> cases hv
  all_goals first
    | exact trivial
    | exact rfl
    | exact hasSign_roundWithAccuracy _ _ _ _

theorem product_nonneg (hq : 0 ≤ q) (hr : 0 ≤ r) : 0 ≤ product q r := by
  rw [product]
  positivity

theorem Within.mul (hu : Within q u) (hv : Within r v) :
    Within (product q r) (UnpackedFloat.mul Format.binary32 u v) := by
  have hq := hu.nonneg
  have hr := hv.nonneg
  have hnonneg := product_nonneg hq hr
  cases u with
  | notANumber => exact hu.elim
  | infinity s => exact hu.elim
  | zero s =>
    cases v with
    | notANumber => exact hv.elim
    | infinity s => exact hv.elim
    | zero s => exact hnonneg
    | finite s m e hm => exact hnonneg
  | finite s m e hm =>
    cases v with
    | notANumber => exact hv.elim
    | infinity s => exact hv.elim
    | zero s => exact hnonneg
    | finite s' m' e' hm' =>
      have hunit := zpow_target_le (Nat.mul_pos hm hm') (e + e')
      have hvalue : ((m * m' : ℕ) : ℚ) * 2 ^ (e + e') ≤ q * r := by
        calc ((m * m' : ℕ) : ℚ) * 2 ^ (e + e') = m * 2 ^ e * (m' * 2 ^ e') := by
              rw [zpow_add₀ two_ne_zero]
              push_cast
              ring
          _ ≤ q * r := mul_le_mul hu.2.2 hv.2.2 (by positivity) hq
      -- one full mantissa makes the product long enough, and without one it is far below the units
      have hlong : e + e' ≤ -149 ∨ 2 ^ 23 ≤ m * m' := by
        rcases hu.2.1 with he | hfull
        · rcases hv.2.1 with he' | hfull
          · exact .inl (by omega)
          · exact .inr (hfull.trans (Nat.le_mul_of_pos_left m' hm))
        · exact .inr (hfull.trans (Nat.le_mul_of_pos_right m hm'))
      refine (within_roundWithAccuracy (s * s') (Nat.mul_pos hm hm') hlong).mono ?_
      calc _ ≤ ((m * m' : ℕ) : ℚ) * 2 ^ (e + e') * (1 + 2 ^ (-23 : ℤ)) + 2 ^ (-149 : ℤ) := by
            linarith
        _ ≤ product q r := by
          rw [product]
          gcongr

theorem hasSign_round (s : Sign) (m : ℕ) (e : ℤ) :
    HasSign s (UnpackedFloat.round Format.binary32 s m e) :=
  hasSign_roundWithAccuracy _ _ _ _

/-- A difference is positive, or a positive zero. -/
theorem hasSign_normalize {m : ℤ} (hm : 0 ≤ m) (e : ℤ) :
    HasSign .positive (UnpackedFloat.normalize Format.binary32 m e .positive) := by
  rw [UnpackedFloat.normalize]
  split
  · rename_i hlt
    exact absurd (Int.compare_eq_lt.mp hlt) hm.not_gt
  · exact rfl
  · exact hasSign_round _ _ _

theorem HasSign.add (hu : HasSign .positive u) (hv : HasSign .positive v) :
    HasSign .positive (UnpackedFloat.add Format.binary32 u v) := by
  cases u <;> cases v <;> cases hu <;> cases hv
  all_goals first
    | exact trivial
    | exact rfl
    | exact hasSign_normalize (Int.add_nonneg (Int.natCast_nonneg _) (Int.natCast_nonneg _)) _

/-- Lowering the exponent keeps the value. -/
theorem decreaseExponent_mul {m : ℕ} {e t : ℤ} (h : t ≤ e) :
    ((decreaseExponent m e t).1 : ℚ) * 2 ^ t = m * 2 ^ e := by
  have hexponent : e = (e - t).toNat + t := by omega
  have hmantissa : (decreaseExponent m e t).1 = m * 2 ^ (e - t).toNat := Nat.shiftLeft_eq _ _
  rw [hmantissa]
  conv_rhs => rw [hexponent, zpow_add₀ two_ne_zero, zpow_natCast]
  push_cast
  ring

theorem HasSign.sub {m : ℕ} {e : ℤ} {hm : 0 < m} (hv : HasSign .positive v)
    (hle : Within (m * 2 ^ e) v) :
    HasSign .positive (UnpackedFloat.sub Format.binary32 (.finite .positive m e hm) v) := by
  cases v with
  | notANumber => exact trivial
  | infinity s => exact hle.elim
  | zero s => exact rfl
  | finite s m' e' hm' =>
    cases hv
    refine hasSign_normalize ?_ _
    have hscale : (0 : ℚ) < 2 ^ min e e' := by positivity
    have hvalue : ((decreaseExponent m' e' (min e e')).1 : ℚ) * 2 ^ min e e' ≤
        (decreaseExponent m e (min e e')).1 * 2 ^ min e e' := by
      rw [decreaseExponent_mul (min_le_left e e'), decreaseExponent_mul (min_le_right e e')]
      exact hle.2.2
    have hmantissa : (decreaseExponent m' e' (min e e')).1 ≤
        (decreaseExponent m e (min e e')).1 := by
      exact_mod_cast le_of_mul_le_mul_right hvalue hscale
    exact sub_nonneg.mpr (Int.ofNat_le.mpr hmantissa)

theorem notANumber_mul (u : UnpackedFloat) :
    UnpackedFloat.mul Format.binary32 .notANumber u = .notANumber := by
  cases u <;> rfl

theorem mul_notANumber (u : UnpackedFloat) :
    UnpackedFloat.mul Format.binary32 u .notANumber = .notANumber := by
  cases u <;> rfl

theorem sub_notANumber (u : UnpackedFloat) :
    UnpackedFloat.sub Format.binary32 u .notANumber = .notANumber := by
  cases u <;> rfl

theorem sign_mul_self (s : Sign) : s * s = .positive := by
  cases s <;> rfl

theorem positive_mul (s : Sign) : .positive * s = s := by
  cases s <;> rfl

theorem mul_positive (s : Sign) : s * .positive = s := by
  cases s <;> rfl

theorem exists_hasSign (u : UnpackedFloat) : ∃ s, HasSign s u := by
  cases u with
  | notANumber => exact ⟨.positive, trivial⟩
  | infinity s => exact ⟨s, rfl⟩
  | zero s => exact ⟨s, rfl⟩
  | finite s m e hm => exact ⟨s, rfl⟩

/-! ### Packing -/

/-- The sign of what is unpacked is the sign bit. -/
theorem hasSign_unpack (b : BitVec 32) :
    HasSign (.ofBitVec (@unpackSign Format.binary32 b))
      (UnpackedFloat.unpack Format.binary32 b) := by
  rw [UnpackedFloat.unpack]
  dsimp only
  split_ifs
  all_goals first
    | exact rfl
    | exact trivial

theorem unpack_notANumber {b : BitVec 32} (hexponent : @unpackExponent Format.binary32 b = -1#8)
    (hmantissa : @unpackMantissa Format.binary32 b ≠ 0#23) :
    UnpackedFloat.unpack Format.binary32 b = .notANumber := by
  rw [UnpackedFloat.unpack]
  dsimp only
  rw [if_pos hexponent, if_neg hmantissa]

theorem hasSign_unpack_packComponents (s : Sign) (exponent : BitVec 8) (mantissa : BitVec 23) :
    HasSign s (UnpackedFloat.unpack Format.binary32
      (packComponents Format.binary32 s exponent mantissa)) := by
  have hsign := hasSign_unpack (packComponents Format.binary32 s exponent mantissa)
  rwa [unpackSign_packComponents, Sign.ofBitVec_toBitVec] at hsign

theorem HasSign.pack (h : HasSign s u) :
    HasSign s (UnpackedFloat.unpack Format.binary32 (UnpackedFloat.pack Format.binary32 u)) := by
  cases u with
  | notANumber => exact trivial
  | infinity s => cases h; exact hasSign_unpack_packComponents _ _ _
  | zero s => cases h; exact hasSign_unpack_packComponents _ _ _
  | finite s m e hm =>
    cases h
    rw [UnpackedFloat.pack]
    dsimp only
    split_ifs
    · exact hasSign_unpack_packComponents _ _ _
    · exact hasSign_unpack_packComponents _ _ _
    · exact hasSign_unpack_packComponents _ _ _

/-- The magnitude that the fields of a pattern stand for. -/
def magnitude (exponent mantissa : ℕ) : ℚ :=
  if exponent = 0 then mantissa * 2 ^ (-149 : ℤ)
  else (2 ^ 23 + mantissa : ℕ) * 2 ^ ((exponent : ℤ) - 150)

theorem toNat_implicit_append (mantissa : BitVec 23) :
    (1#1 ++ mantissa).toNat = 2 ^ 23 + mantissa.toNat := by
  rw [BitVec.toNat_append, ← Nat.shiftLeft_add_eq_or_of_lt mantissa.isLt]
  rfl

theorem within_unpack {b : BitVec 32}
    (hfinite : @unpackExponent Format.binary32 b ≠ -1#8) :
    Within (magnitude (@unpackExponent Format.binary32 b).toNat
      (@unpackMantissa Format.binary32 b).toNat)
      (UnpackedFloat.unpack Format.binary32 b) := by
  rw [UnpackedFloat.unpack]
  dsimp only
  rw [if_neg hfinite]
  split_ifs with hzero hmantissa
  · rw [magnitude, hzero]
    show (0 : ℚ) ≤ _
    split_ifs <;> positivity
  · rw [magnitude, if_pos (by rw [hzero]; rfl), hzero]
    exact ⟨le_refl _, .inl rfl, le_refl _⟩
  · have hpos : (@unpackExponent Format.binary32 b).toNat ≠ 0 := fun h =>
      hzero (BitVec.eq_of_toNat_eq h)
    rw [magnitude, if_neg hpos, ← toNat_implicit_append]
    have hgrid : -149 ≤ ((@unpackExponent Format.binary32 b).toNat : ℤ) - 150 := by omega
    have hfull : 2 ^ 23 ≤ (1#1 ++ @unpackMantissa Format.binary32 b).toNat := by
      rw [toNat_implicit_append]
      exact Nat.le_add_right _ _
    exact ⟨hgrid, .inr hfull, le_refl _⟩

theorem within_unpack_packComponents (s : Sign) {exponent : BitVec 8} (mantissa : BitVec 23)
    (hfinite : exponent ≠ -1#8) :
    Within (magnitude exponent.toNat mantissa.toNat)
      (UnpackedFloat.unpack Format.binary32
        (packComponents Format.binary32 s exponent mantissa)) := by
  have hwithin := within_unpack (b := packComponents Format.binary32 s exponent mantissa)
  rw [unpackExponent_packComponents, unpackMantissa_packComponents] at hwithin
  exact hwithin hfinite

/-- A number that is not too large is packed without overflow. -/
theorem Within.pack (h : Within q u) (hq : q < 2 ^ (128 : ℤ)) :
    Within q (UnpackedFloat.unpack Format.binary32 (UnpackedFloat.pack Format.binary32 u)) := by
  cases u with
  | notANumber => exact h.elim
  | infinity s => exact h.elim
  | zero s =>
    refine (within_unpack_packComponents s 0#23 (show 0#8 ≠ -1#8 by decide)).mono ?_
    rw [magnitude, if_pos (by rfl)]
    simpa using h.nonneg
  | finite s m e hm =>
    obtain ⟨hgrid, hnormal, hle⟩ := h
    -- a full mantissa is at least 2 ^ 23, so a large exponent would go past the bound
    have hsmall : e < 105 := by
      rcases hnormal with rfl | hfull
      · decide
      · have hlt : (2 : ℚ) ^ (23 + e) < 2 ^ (128 : ℤ) := by
          have hmantissa : (2 : ℚ) ^ (23 : ℤ) ≤ m := by exact_mod_cast hfull
          calc (2 : ℚ) ^ (23 + e) = 2 ^ (23 : ℤ) * 2 ^ e := zpow_add₀ two_ne_zero _ _
            _ ≤ m * 2 ^ e := by gcongr
            _ < 2 ^ (128 : ℤ) := hle.trans_lt hq
        have hexponent := (zpow_lt_zpow_iff_right₀ one_lt_two).mp hlt
        omega
    obtain ⟨biased, hbiased⟩ : ∃ biased : ℕ, (biased : ℤ) = e + 150 := ⟨(e + 150).toNat, by omega⟩
    have hpacked : (e + (Format.binary32.exponentBias : ℤ) +
        (Format.binary32.mantissaBitsWithoutImplicit : ℤ)).toNat = biased := by
      change (e + 127 + 23).toNat = biased
      omega
    have hfit : biased < 255 := by omega
    rw [UnpackedFloat.pack]
    dsimp only
    rw [hpacked, if_neg (by change ¬256 ≤ biased + 1; omega)]
    split_ifs with hbits
    · have hexponent : (BitVec.ofNat 8 biased).toNat = biased := Nat.mod_eq_of_lt (by omega)
      -- the implicit bit is not stored, and is put back
      have hmantissa : 2 ^ 23 + (BitVec.ofNat 23 m).toNat = m := by
        have hlog : m.log2 = 23 := Nat.succ.inj hbits
        obtain ⟨hlow, hhigh⟩ := (Nat.log2_eq_iff hm.ne').mp hlog
        rw [BitVec.toNat_ofNat]
        omega
      refine (within_unpack_packComponents s (BitVec.ofNat 23 m) ?_).mono
        (le_trans (le_of_eq ?_) hle)
      · intro hinfinite
        have hall := congrArg BitVec.toNat hinfinite
        rw [hexponent] at hall
        change biased = 255 at hall
        omega
      · rw [magnitude, hexponent, if_neg (by omega), hmantissa, hbiased, add_sub_cancel_right]
    · refine (within_unpack_packComponents s (BitVec.ofNat 23 m) (by decide)).mono
        (le_trans ?_ hle)
      rw [magnitude, if_pos (by rfl), BitVec.toNat_ofNat]
      have hmantissa : ((m % 2 ^ 23 : ℕ) : ℚ) ≤ m := by exact_mod_cast Nat.mod_le m _
      have hscale : (2 : ℚ) ^ (-149 : ℤ) ≤ 2 ^ e := zpow_le_zpow_right₀ one_le_two hgrid
      gcongr

/-! ### Fields of a pattern -/

section Fields

variable (b : BitVec 32)

theorem toNat_unpackExponent :
    (@unpackExponent Format.binary32 b).toNat = b.toNat / 2 ^ 23 % 2 ^ 8 := by
  rw [unpackExponent, BitVec.toNat_cast, BitVec.extractLsb_toNat, Nat.shiftRight_eq_div_pow]
  rfl

theorem toNat_unpackMantissa :
    (@unpackMantissa Format.binary32 b).toNat = b.toNat % 2 ^ 23 := by
  rw [unpackMantissa, BitVec.toNat_cast, BitVec.extractLsb_toNat, Nat.shiftRight_zero]
  rfl

theorem ofBitVec_unpackSign :
    Sign.ofBitVec (@unpackSign Format.binary32 b) =
      if b.toNat < 2 ^ 31 then .positive else .negative := by
  have hbit : (@unpackSign Format.binary32 b).toNat = b.toNat / 2 ^ 31 % 2 := by
    rw [unpackSign, BitVec.toNat_cast, BitVec.extractLsb_toNat, Nat.shiftRight_eq_div_pow]
    rfl
  have hlt := b.isLt
  rw [Sign.ofBitVec]
  refine if_congr ?_ rfl rfl
  rw [← BitVec.toNat_inj, hbit]
  change _ = 0 ↔ _
  omega

end Fields

/-! ### Floats -/

/-- A float has the sign `s`, or is no number. -/
def Signed (s : Sign) (f : Float32) : Prop := HasSign s f.toModel.unpack

/-- A finite float of magnitude at most `q`. -/
def Bounded (q : ℚ) (f : Float32) : Prop := Within q f.toModel.unpack

section Floats

variable {f g : Float32}

theorem Signed.mul (hf : Signed s f) (hg : Signed s' g) : Signed (s * s') (f * g) :=
  (HasSign.mul hf hg).pack

theorem Bounded.mono (h : Bounded q f) (hqr : q ≤ r) : Bounded r f := Within.mono h hqr

theorem Bounded.nonneg (h : Bounded q f) : 0 ≤ q := Within.nonneg h

theorem Bounded.mul (hf : Bounded q f) (hg : Bounded r g)
    (hsmall : product q r < 2 ^ (128 : ℤ)) : Bounded (product q r) (f * g) :=
  (Within.mul hf hg).pack hsmall

theorem Signed.add (hf : Signed .positive f) (hg : Signed .positive g) :
    Signed .positive (f + g) :=
  (HasSign.add hf hg).pack

theorem signed_mul_self (f : Float32) : Signed .positive (f * f) := by
  obtain ⟨s, hs⟩ := exists_hasSign f.toModel.unpack
  have hsquare : Signed (s * s) (f * f) := Signed.mul hs hs
  rwa [sign_mul_self] at hsquare

theorem Signed.unique (h : Signed s f) (h' : Signed s' f)
    (hnumber : f.toModel.unpack ≠ .notANumber) : s = s' := by
  rw [Signed] at h h'
  cases hf : f.toModel.unpack with
  | notANumber => exact absurd hf hnumber
  | infinity _ => rw [hf] at h h'; exact h.symm.trans h'
  | zero _ => rw [hf] at h h'; exact h.symm.trans h'
  | finite _ _ _ _ => rw [hf] at h h'; exact h.symm.trans h'

/-- Subtracting a positive number from one that is not smaller. -/
theorem Signed.sub {m : ℕ} {e : ℤ} {hm : 0 < m}
    (hf : f.toModel.unpack = .finite .positive m e hm) (hg : Signed .positive g)
    (hle : Bounded (m * 2 ^ e) g) : Signed .positive (f - g) := by
  have hsub : HasSign .positive
      (UnpackedFloat.sub Format.binary32 f.toModel.unpack g.toModel.unpack) := by
    rw [hf]
    exact HasSign.sub hg hle
  exact hsub.pack

theorem lt_iff : f < g ↔ f.toModel.unpack.compare g.toModel.unpack = some .lt := by
  change decide (f.toModel < g.toModel) = true ↔ _
  rw [decide_eq_true_iff]
  change (f.toModel.unpack.compare g.toModel.unpack == some .lt) = true ↔ _
  rw [beq_iff_eq]

theorem unpack_zero : (0 : Float32).toModel.unpack = .zero .positive := rfl

/-- What is below zero is a negative number. -/
theorem signed_of_neg (h : f < 0) : f.toModel.unpack ≠ .notANumber ∧ Signed .negative f := by
  rw [lt_iff, unpack_zero] at h
  rw [Signed]
  revert h
  cases f.toModel.unpack with
  | notANumber => rintro ⟨⟩
  | infinity s => cases s <;> simp [UnpackedFloat.compare, HasSign]
  | zero s => rintro ⟨⟩
  | finite s m e hm => cases s <;> simp [UnpackedFloat.compare, HasSign]

/-- What is above zero is a positive number. -/
theorem signed_of_pos (h : 0 < f) : f.toModel.unpack ≠ .notANumber ∧ Signed .positive f := by
  rw [lt_iff, unpack_zero] at h
  rw [Signed]
  revert h
  cases f.toModel.unpack with
  | notANumber => rintro ⟨⟩
  | infinity s => cases s <;> simp [UnpackedFloat.compare, HasSign]
  | zero s => rintro ⟨⟩
  | finite s m e hm => cases s <;> simp [UnpackedFloat.compare, HasSign]

theorem signed_iff_of_neg (h : f < 0) : Signed s f ↔ s = .negative := by
  obtain ⟨hnumber, hsign⟩ := signed_of_neg h
  exact ⟨fun hs => hs.unique hsign hnumber, fun hs => hs ▸ hsign⟩

theorem signed_iff_of_pos (h : 0 < f) : Signed s f ↔ s = .positive := by
  obtain ⟨hnumber, hsign⟩ := signed_of_pos h
  exact ⟨fun hs => hs.unique hsign hnumber, fun hs => hs ▸ hsign⟩

theorem signed_toBits (f : Float32) :
    Signed (if f.toBits.toBitVec.toNat < 2 ^ 31 then .positive else .negative) f := by
  rw [← ofBitVec_unpackSign]
  exact hasSign_unpack f.toBits.toBitVec

/-- The pattern of a positive number is at most that of infinity. -/
theorem Signed.toNat_toBits_le (h : Signed .positive f)
    (hnumber : f.toModel.unpack ≠ .notANumber) : f.toBits.toBitVec.toNat ≤ 0x7F800000 := by
  have hsign : f.toBits.toBitVec.toNat < 2 ^ 31 := by
    by_contra hlarge
    have hnegative := signed_toBits f
    rw [if_neg hlarge] at hnegative
    cases h.unique hnegative hnumber
  by_contra hlarge
  have hexponent : @unpackExponent Format.binary32 f.toBits.toBitVec = -1#8 := by
    refine BitVec.eq_of_toNat_eq ?_
    rw [toNat_unpackExponent]
    change f.toBits.toBitVec.toNat / 2 ^ 23 % 2 ^ 8 = 255
    omega
  have hmantissa : @unpackMantissa Format.binary32 f.toBits.toBitVec ≠ 0#23 := by
    intro hzero
    have hnat := congrArg BitVec.toNat hzero
    rw [toNat_unpackMantissa] at hnat
    change f.toBits.toBitVec.toNat % 2 ^ 23 = 0 at hnat
    omega
  exact hnumber (unpack_notANumber hexponent hmantissa)

theorem unpack_mul (f g : Float32) : (f * g).toModel.unpack =
    UnpackedFloat.unpack Format.binary32 (UnpackedFloat.pack Format.binary32
      (UnpackedFloat.mul Format.binary32 f.toModel.unpack g.toModel.unpack)) := rfl

theorem unpack_sub (f g : Float32) : (f - g).toModel.unpack =
    UnpackedFloat.unpack Format.binary32 (UnpackedFloat.pack Format.binary32
      (UnpackedFloat.sub Format.binary32 f.toModel.unpack g.toModel.unpack)) := rfl

theorem unpack_mul_of_left (h : f.toModel.unpack = .notANumber) :
    (f * g).toModel.unpack = .notANumber := by
  rw [unpack_mul, h, notANumber_mul]
  rfl

theorem unpack_mul_of_right (h : g.toModel.unpack = .notANumber) :
    (f * g).toModel.unpack = .notANumber := by
  rw [unpack_mul, h, mul_notANumber]
  rfl

theorem unpack_sub_of_right (h : g.toModel.unpack = .notANumber) :
    (f - g).toModel.unpack = .notANumber := by
  rw [unpack_sub, h, sub_notANumber]
  rfl

theorem signed_of_notANumber (h : f.toModel.unpack = .notANumber) : Signed s f := by
  rw [Signed, h]
  exact trivial

end Floats

/-! ### Patterns of floats -/

theorem magnitude_le (exponent : ℕ) {mantissa : ℕ} (hmantissa : mantissa < 2 ^ 23) :
    magnitude exponent mantissa ≤ (2 ^ 23 + mantissa : ℕ) * 2 ^ ((exponent : ℤ) - 150) := by
  rw [magnitude]
  split_ifs with hzero
  · have hdouble : ((2 * mantissa : ℕ) : ℚ) ≤ (2 ^ 23 + mantissa : ℕ) := by
      exact_mod_cast (by omega : 2 * mantissa ≤ 2 ^ 23 + mantissa)
    calc (mantissa : ℚ) * 2 ^ (-149 : ℤ) = (2 * mantissa : ℕ) * 2 ^ ((exponent : ℤ) - 150) := by
          rw [hzero, show ((0 : ℕ) : ℤ) - 150 = -149 - 1 from rfl, zpow_sub_one₀ two_ne_zero]
          push_cast
          ring
      _ ≤ (2 ^ 23 + mantissa : ℕ) * 2 ^ ((exponent : ℤ) - 150) := by gcongr
  · exact le_rfl

/-- The bound that the pattern of a float gives. -/
def boundOf (b : ℕ) : ℚ := (2 ^ 23 + b % 2 ^ 23 : ℕ) * 2 ^ (((b / 2 ^ 23 % 2 ^ 8 : ℕ) : ℤ) - 150)

theorem boundOf_lt {b : ℕ} (hfinite : b / 2 ^ 23 % 2 ^ 8 < 255) : boundOf b < 2 ^ (128 : ℤ) := by
  have hmantissa : ((2 ^ 23 + b % 2 ^ 23 : ℕ) : ℚ) < 2 ^ (24 : ℤ) := by
    exact_mod_cast (by omega : 2 ^ 23 + b % 2 ^ 23 < 2 ^ 24)
  have hscale : (2 : ℚ) ^ (((b / 2 ^ 23 % 2 ^ 8 : ℕ) : ℤ) - 150) ≤ 2 ^ (104 : ℤ) :=
    zpow_le_zpow_right₀ one_le_two (by omega)
  calc boundOf b < 2 ^ (24 : ℤ) * 2 ^ (((b / 2 ^ 23 % 2 ^ 8 : ℕ) : ℤ) - 150) := by
        rw [boundOf]
        gcongr
    _ ≤ 2 ^ (24 : ℤ) * 2 ^ (104 : ℤ) := by gcongr
    _ = 2 ^ (128 : ℤ) := by norm_num

theorem within_boundOf {b : BitVec 32} (hfinite : b.toNat / 2 ^ 23 % 2 ^ 8 < 255) :
    Within (boundOf b.toNat) (UnpackedFloat.unpack Format.binary32 b) := by
  have hexponent : @unpackExponent Format.binary32 b ≠ -1#8 := by
    intro hinfinite
    have hnat := congrArg BitVec.toNat hinfinite
    rw [toNat_unpackExponent] at hnat
    change b.toNat / 2 ^ 23 % 2 ^ 8 = 255 at hnat
    omega
  refine (within_unpack hexponent).mono ?_
  rw [toNat_unpackExponent, toNat_unpackMantissa]
  exact magnitude_le _ (Nat.mod_lt _ (by decide))

theorem bounded_toBits {f : Float32}
    (hfinite : f.toBits.toBitVec.toNat / 2 ^ 23 % 2 ^ 8 < 255) :
    Bounded (boundOf f.toBits.toBitVec.toNat) f :=
  within_boundOf hfinite

theorem bounded_ofBits {b : BitVec 32} (hfinite : b.toNat / 2 ^ 23 % 2 ^ 8 < 255) :
    Bounded (boundOf b.toNat) (.ofBits ⟨b⟩) :=
  (within_boundOf hfinite).pack (boundOf_lt hfinite)

theorem signed_ofBits (b : BitVec 32) :
    Signed (if b.toNat < 2 ^ 31 then .positive else .negative) (.ofBits ⟨b⟩) := by
  rw [← ofBitVec_unpackSign]
  exact (hasSign_unpack b).pack

end Binary32
