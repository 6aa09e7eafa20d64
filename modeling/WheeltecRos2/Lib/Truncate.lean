/-
Conversion of numbers to integers by truncation toward zero.

`trunc` is the conversion of C and of Python's `int`.  `Rounding` is what a floating
point operation may do to the exact result before it is truncated: a monotone map
that leaves the integers of a range alone.  `Rounding.abs_trunc_sub_lt` says that
rounding and truncation together stay within one of the exact number.
-/
import Mathlib.Algebra.Order.Floor.Ring
import Mathlib.Algebra.Order.Field.Basic
import Mathlib.Tactic.Linarith
import Mathlib.Tactic.NormNum

namespace Truncate

variable {K : Type*} [Field K] [LinearOrder K]

/-! ### Rounding -/

/-- A rounding of exact results: it keeps their order, and the integers up to `bound`
in size. -/
structure Rounding (K : Type*) [Field K] [LinearOrder K] (bound : ℤ) where
  round : K → K
  monotone : Monotone round
  round_intCast : ∀ n : ℤ, |n| ≤ bound → round n = n

namespace Rounding

/-- Exact arithmetic. -/
def exact (bound : ℤ) : Rounding K bound where
  round := id
  monotone := monotone_id
  round_intCast _ _ := rfl

variable {bound : ℤ} (r : Rounding K bound) {y : K} {n : ℤ}

theorem lt_of_lt_round (hn : |n| ≤ bound) (h : n < r.round y) : n < y := by
  by_contra hy
  have hround := r.monotone (not_lt.mp hy)
  rw [r.round_intCast n hn] at hround
  exact absurd h (not_lt.mpr hround)

theorem lt_of_round_lt (hn : |n| ≤ bound) (h : r.round y < n) : y < n := by
  by_contra hy
  have hround := r.monotone (not_lt.mp hy)
  rw [r.round_intCast n hn] at hround
  exact absurd h (not_lt.mpr hround)

end Rounding

/-! ### Truncation -/

variable [FloorRing K]

/-- The integer part, toward zero. -/
def trunc (x : K) : ℤ := if 0 ≤ x then ⌊x⌋ else ⌈x⌉

variable {x : K} {n : ℤ}

theorem trunc_of_nonneg (h : 0 ≤ x) : trunc x = ⌊x⌋ := if_pos h

theorem trunc_of_neg (h : x < 0) : trunc x = ⌈x⌉ := if_neg (not_le.mpr h)

variable [IsStrictOrderedRing K]

/-- A number between two natural numbers is truncated to the lower one. -/
theorem trunc_eq_natCast {n : ℕ} (hle : (n : K) ≤ x) (hlt : x < n + 1) : trunc x = n := by
  rw [trunc_of_nonneg (le_trans (Nat.cast_nonneg n) hle), Int.floor_eq_iff]
  exact ⟨by exact_mod_cast hle, by exact_mod_cast hlt⟩

/-- Zero is also what is left of the numbers just below it. -/
theorem trunc_eq_natCast_iff {n : ℕ} :
    trunc x = n ↔ ((n : K) ≤ x ∧ x < n + 1) ∨ n = 0 ∧ -1 < x ∧ x < 0 := by
  rcases le_or_gt 0 x with hx | hx
  · rw [trunc_of_nonneg hx, Int.floor_eq_iff]
    constructor
    · rintro ⟨hle, hlt⟩
      exact Or.inl ⟨by exact_mod_cast hle, by exact_mod_cast hlt⟩
    · rintro (⟨hle, hlt⟩ | ⟨-, -, hneg⟩)
      · exact ⟨by exact_mod_cast hle, by exact_mod_cast hlt⟩
      · exact absurd hx (not_le.mpr hneg)
  · rw [trunc_of_neg hx, Int.ceil_eq_iff]
    constructor
    · rintro ⟨hlt, hle⟩
      have hle' : ((n : ℤ) : K) - 1 < 0 := lt_trans hlt hx
      obtain rfl : n = 0 := by
        have hn : ((n : ℤ) : K) < (1 : ℤ) := by push_cast at hle' ⊢; linarith
        have := Int.cast_lt.mp hn
        omega
      refine Or.inr ⟨rfl, ?_, hx⟩
      simpa using hlt
    · rintro (⟨hle, -⟩ | ⟨rfl, hgt, -⟩)
      · exact absurd (le_trans (Nat.cast_nonneg n) hle) (not_le.mpr hx)
      · refine ⟨by simpa using hgt, by simpa using hx.le⟩

theorem le_trunc_iff (h : 0 < n) : n ≤ trunc x ↔ (n : K) ≤ x := by
  have hn : (0 : K) < n := by exact_mod_cast h
  rcases le_or_gt 0 x with hx | hx
  · rw [trunc_of_nonneg hx, Int.le_floor]
  · have hceil : ⌈x⌉ ≤ 0 := Int.ceil_le.mpr (by simpa using hx.le)
    rw [trunc_of_neg hx]
    constructor
    · intro hle
      omega
    · intro hle
      linarith

theorem trunc_le_iff (h : n < 0) : trunc x ≤ n ↔ x ≤ n := by
  have hn : (n : K) < 0 := by exact_mod_cast h
  rcases le_or_gt 0 x with hx | hx
  · have hfloor : 0 ≤ ⌊x⌋ := Int.floor_nonneg.mpr hx
    rw [trunc_of_nonneg hx]
    constructor
    · intro hle
      omega
    · intro hle
      linarith
  · rw [trunc_of_neg hx, Int.ceil_le]

theorem trunc_sub_one_lt (x : K) : (trunc x : K) - 1 < x := by
  rcases le_or_gt 0 x with hx | hx
  · rw [trunc_of_nonneg hx]
    linarith [Int.floor_le x]
  · rw [trunc_of_neg hx]
    linarith [Int.ceil_lt_add_one x]

theorem lt_trunc_add_one (x : K) : x < trunc x + 1 := by
  rcases le_or_gt 0 x with hx | hx
  · rw [trunc_of_nonneg hx]
    exact Int.lt_floor_add_one x
  · rw [trunc_of_neg hx]
    linarith [Int.le_ceil x]

/-- **The integer obtained is within one of the exact result.** -/
theorem Rounding.abs_trunc_sub_lt {bound : ℤ} (r : Rounding K bound) {y : K}
    (hn : |trunc (r.round y)| < bound) :
    |(trunc (r.round y) : K) - y| < 1 := by
  obtain ⟨hlo, hhi⟩ := abs_lt.mp hn
  -- both neighbours of the integer are kept by the rounding
  have hbelow : ((trunc (r.round y) - 1 : ℤ) : K) < y := by
    refine r.lt_of_lt_round (abs_le.mpr ⟨by omega, by omega⟩) ?_
    push_cast
    exact trunc_sub_one_lt _
  have habove : y < ((trunc (r.round y) + 1 : ℤ) : K) := by
    refine r.lt_of_round_lt (abs_le.mpr ⟨by omega, by omega⟩) ?_
    push_cast
    exact lt_trunc_add_one _
  push_cast at hbelow habove
  rw [abs_lt]
  constructor
  · linarith
  · linarith

end Truncate
