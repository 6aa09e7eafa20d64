/-
The lines of `Costmap2D`, `raytraceLine` and `bresenham2D`.

Along the longer axis the line goes a cell at a time, and an error that starts at half of the
longer side says when to take a step of the other axis: after `i` cells it took
`(da / 2 + i * db) / da` of them.

* `exists_along_le`, `exists_le_along`: in each column a line has a cell that is not above, and one
  that is not below, every whole row above and below the straight line.
* `raytraceLine_spec`: from one cell of the map to another the line stays in the map, goes from
  neighbour to neighbour, leaves the straight line by at most half a cell, and ends at its end
  unless its length is limited.

The unsigned offsets stay in the map and are integers here.  The two length limits are applied in
floating point (`lengths`): where that is exact, the line starts between its ends
(`lengths_start`), and without limits at the first one (`lengths_eq_none`).
-/
import WheeltecRos2.Costmap.Window
import Mathlib.Algebra.Order.Ring.Abs
import Mathlib.Data.List.Range
import Mathlib.Data.Rat.Sqrt
import Mathlib.Tactic.Linarith
import Mathlib.Tactic.Ring

namespace Costmap

/-- The calls of `at` from the cell `offset` on, with `n` cells to go. -/
def bresenhamLoop (absDa absDb : ℕ) (offsetA offsetB : ℤ) : ℕ → ℤ → ℤ → List ℤ
  | 0, _, offset => [offset]
  | n + 1, errorB, offset =>
    let errorB := errorB + absDb
    offset ::
      if absDa ≤ errorB then
        bresenhamLoop absDa absDb offsetA offsetB n (errorB - absDa) (offset + offsetA + offsetB)
      else bresenhamLoop absDa absDb offsetA offsetB n errorB (offset + offsetA)

def bresenham2D (absDa absDb : ℕ) (errorB offsetA offsetB offset : ℤ) (maxLength : ℕ) : List ℤ :=
  bresenhamLoop absDa absDb offsetA offsetB (min maxLength absDa) errorB offset

/-- Also -1 for 0. -/
def sign (x : ℤ) : ℤ := if 0 < x then 1 else -1

/-- What the length limits make of a line. -/
structure Lengths where
  /-- `dist < min_length` -/
  tooShort : Bool
  /-- The start, `min_length` away from the first cell. -/
  minX0 : ℕ
  minY0 : ℕ
  /-- `scale * abs_dx` -/
  scaled (abs : ℕ) : ℕ

/-- Without limits: `min_length` is 0 and `max_length` is `UINT_MAX`. -/
def Lengths.none (x0 y0 : ℕ) : Lengths := ⟨false, x0, y0, id⟩

open Double in
/-- The limits in floating point, with the `hypot` of the library. -/
def lengths {F : Type} [Double F] (hypot : F → F → F) (x0 y0 x1 y1 maxLength minLength : ℕ) :
    Lengths :=
  let dxFull : ℤ := x1 - x0
  let dyFull : ℤ := y1 - y0
  let dist := hypot (ofInt dxFull) (ofInt dyFull)
  let scale : F :=
    if lt (ofInt 0) dist then
      if lt (ofInt maxLength / dist) (ofInt 1) then ofInt maxLength / dist else ofInt 1
    else ofInt 1
  { tooShort := lt dist (ofInt minLength)
    minX0 :=
      if lt (ofInt 0) dist then toUnsigned (ofInt x0 + ofInt dxFull / dist * ofInt minLength)
      else x0
    minY0 :=
      if lt (ofInt 0) dist then toUnsigned (ofInt y0 + ofInt dyFull / dist * ofInt minLength)
      else y0
    scaled abs := toUnsigned (scale * ofInt abs) }

/-- The offsets for which `at` is called. -/
def lineOffsets (sizeX : ℕ) (f : Lengths) (x1 y1 : ℕ) : List ℤ :=
  if f.tooShort then []
  else
    let offset : ℤ := f.minY0 * sizeX + f.minX0
    let dx : ℤ := x1 - f.minX0
    let dy : ℤ := y1 - f.minY0
    let offsetDx := sign dx
    let offsetDy := sign dy * sizeX
    if dy.natAbs ≤ dx.natAbs then
      bresenham2D dx.natAbs dy.natAbs (dx.natAbs / 2 : ℕ) offsetDx offsetDy offset
        (f.scaled dx.natAbs)
    else
      bresenham2D dy.natAbs dx.natAbs (dy.natAbs / 2 : ℕ) offsetDy offsetDx offset
        (f.scaled dy.natAbs)

def raytraceLine {F : Type} [Double F] (hypot : F → F → F)
    (sizeX x0 y0 x1 y1 maxLength minLength : ℕ) : List ℤ :=
  lineOffsets sizeX (lengths hypot x0 y0 x1 y1 maxLength minLength) x1 y1

/-! ### The length limits -/

section Limits

variable {hypot : ℚ → ℚ → ℚ} {x0 y0 x1 y1 maxLength minLength : ℕ}

/-- A part of the way from one coordinate to another. -/
theorem trunc_part {w0 w1 : ℕ} {dist : ℚ} (hdist : 0 < dist) (hmin : (minLength : ℚ) ≤ dist) :
    min w0 w1 ≤ (Truncate.trunc ((w0 : ℚ) + (w1 - w0) / dist * minLength)).toNat ∧
      (Truncate.trunc ((w0 : ℚ) + (w1 - w0) / dist * minLength)).toNat ≤ max w0 w1 := by
  -- the fraction of the way
  obtain ⟨part, hpart⟩ : ∃ part : ℚ, part = minLength / dist := ⟨_, rfl⟩
  have hpart0 : 0 ≤ part := by
    rw [hpart]
    exact div_nonneg (Nat.cast_nonneg _) hdist.le
  have hpart1 : part ≤ 1 := by
    rw [hpart]
    exact (div_le_one hdist).mpr hmin
  have hway : (w0 : ℚ) + (w1 - w0) / dist * minLength = w0 + (w1 - w0) * part := by
    rw [hpart]
    ring
  have hlow : ((min w0 w1 : ℕ) : ℚ) ≤ w0 + (w1 - w0) * part := by
    rcases le_total w0 w1 with h | h
    · rw [min_eq_left h]
      have hcast : (w0 : ℚ) ≤ w1 := by exact_mod_cast h
      nlinarith
    · rw [min_eq_right h]
      have hcast : (w1 : ℚ) ≤ w0 := by exact_mod_cast h
      nlinarith
  have hhigh : (w0 : ℚ) + (w1 - w0) * part ≤ ((max w0 w1 : ℕ) : ℚ) := by
    rcases le_total w0 w1 with h | h
    · rw [max_eq_right h]
      have hcast : (w0 : ℚ) ≤ w1 := by exact_mod_cast h
      nlinarith
    · rw [max_eq_left h]
      have hcast : (w1 : ℚ) ≤ w0 := by exact_mod_cast h
      nlinarith
  rw [hway, Truncate.trunc_of_nonneg ((Nat.cast_nonneg _).trans hlow)]
  have hfloor : ((min w0 w1 : ℕ) : ℤ) ≤ ⌊(w0 : ℚ) + (w1 - w0) * part⌋ :=
    Int.le_floor.mpr (by exact_mod_cast hlow)
  have hfloor' : ⌊(w0 : ℚ) + (w1 - w0) * part⌋ ≤ ((max w0 w1 : ℕ) : ℤ) := by
    have hcast := (Int.floor_le ((w0 : ℚ) + (w1 - w0) * part)).trans hhigh
    exact_mod_cast hcast
  omega

theorem lengths_exact {dist : ℚ} (hdist : hypot (x1 - x0) (y1 - y0) = dist) :
    lengths hypot x0 y0 x1 y1 maxLength minLength =
      { tooShort := decide (dist < minLength)
        minX0 := if 0 < dist then
          (Truncate.trunc ((x0 : ℚ) + (x1 - x0) / dist * minLength)).toNat else x0
        minY0 := if 0 < dist then
          (Truncate.trunc ((y0 : ℚ) + (y1 - y0) / dist * minLength)).toNat else y0
        scaled := fun abs => (Truncate.trunc
          ((if 0 < dist then if maxLength / dist < 1 then maxLength / dist else 1 else 1) *
            (abs : ℚ))).toNat } := by
  have hlt (a b : ℚ) : (Double.lt a b = true) = (a < b) := decide_eq_true_eq
  simp only [lengths, hlt]
  simp only [Double.ofInt, Double.toUnsigned, Int.cast_zero, Int.cast_one, Int.cast_natCast,
    Int.cast_sub, hdist]
  rfl

/-- The start of a line that is not too short is between its ends. -/
theorem lengths_start (h : (lengths hypot x0 y0 x1 y1 maxLength minLength).tooShort = false) :
    let f := lengths hypot x0 y0 x1 y1 maxLength minLength
    (min x0 x1 ≤ f.minX0 ∧ f.minX0 ≤ max x0 x1) ∧ min y0 y1 ≤ f.minY0 ∧ f.minY0 ≤ max y0 y1 := by
  rw [lengths_exact rfl] at h ⊢
  simp only [decide_eq_false_iff_not, not_lt] at h
  dsimp only
  by_cases hdist : 0 < hypot (x1 - x0) (y1 - y0)
  · rw [if_pos hdist, if_pos hdist]
    exact ⟨trunc_part hdist h, trunc_part hdist h⟩
  · rw [if_neg hdist, if_neg hdist]
    omega

/-- Without limits the line starts at the first cell, and its length is not scaled. -/
theorem lengths_eq_none (hnonneg : 0 ≤ hypot (x1 - x0) (y1 - y0))
    (hmax : hypot (x1 - x0) (y1 - y0) ≤ maxLength) :
    lengths hypot x0 y0 x1 y1 maxLength 0 = .none x0 y0 := by
  have htrunc (n : ℕ) : (Truncate.trunc (n : ℚ)).toNat = n := by
    rw [Truncate.trunc_of_nonneg (Nat.cast_nonneg n), Int.floor_natCast, Int.toNat_natCast]
  have hscale : (if 0 < hypot (x1 - x0) (y1 - y0) then
      if maxLength / hypot (x1 - x0) (y1 - y0) < 1 then maxLength / hypot (x1 - x0) (y1 - y0) else 1
    else 1) = 1 := by
    split_ifs with hpos hshort
    · rw [div_lt_one hpos] at hshort
      exact absurd hmax (not_le.mpr hshort)
    · rfl
    · rfl
  rw [lengths_exact rfl, hscale, Lengths.none]
  simp only [Nat.cast_zero, mul_zero, add_zero, one_mul, htrunc, ite_self, Lengths.mk.injEq,
    decide_eq_false_iff_not, not_lt, true_and]
  exact ⟨hnonneg, rfl⟩

end Limits

/-! ### The steps of the shorter axis -/

/-- The steps of the shorter axis after `i` cells. -/
def rise (da db i : ℕ) : ℕ := (da / 2 + i * db) / da

section Rise

variable {da db i n : ℕ}

theorem bresenhamLoop_eq (hle : db ≤ da) (oa ob : ℤ) {error : ℕ} (herror : error < da)
    (offset : ℤ) :
    bresenhamLoop da db oa ob n error offset =
      (List.range (n + 1)).map fun i => offset + oa * i + ob * ((error + i * db) / da : ℕ) := by
  induction n generalizing error offset with
  | zero =>
    show [offset] = [offset + oa * (0 : ℕ) + ob * ((error + 0 * db) / da : ℕ)]
    rw [Nat.zero_mul, Nat.add_zero, Nat.div_eq_of_lt herror]
    simp
  | succ n ih =>
    rw [bresenhamLoop, List.range_succ_eq_map, List.map_cons, List.map_map]
    congr 1
    · simp [Nat.div_eq_of_lt herror]
    by_cases hstep : (da : ℤ) ≤ error + db
    · obtain ⟨rest, hrest⟩ : ∃ rest, error + db = rest + da := ⟨error + db - da, by omega⟩
      simp only [if_pos hstep]
      rw [show (error : ℤ) + db - da = (rest : ℕ) by omega, ih (by omega)]
      refine List.map_congr_left fun i _ => ?_
      have hdiv : (error + (i + 1) * db) / da = (rest + i * db) / da + 1 := by
        rw [show error + (i + 1) * db = rest + i * db + da by rw [Nat.succ_mul]; omega,
          Nat.add_div_right _ (by omega)]
      simp only [Function.comp_apply, hdiv]
      push_cast
      ring
    · simp only [if_neg hstep]
      rw [show (error : ℤ) + db = (error + db : ℕ) by omega, ih (by omega)]
      refine List.map_congr_left fun i _ => ?_
      have hdiv : error + (i + 1) * db = error + db + i * db := by rw [Nat.succ_mul]; omega
      simp only [Function.comp_apply, hdiv]
      push_cast
      ring

theorem rise_zero : rise da db 0 = 0 := by
  rw [rise, Nat.zero_mul, Nat.add_zero]
  rcases Nat.eq_zero_or_pos da with rfl | hda
  · rfl
  · exact Nat.div_eq_of_lt (by omega)

theorem rise_last (hle : db ≤ da) : rise da db da = db := by
  rw [rise]
  rcases Nat.eq_zero_or_pos da with rfl | hda
  · rw [Nat.le_zero.mp hle]
  · rw [Nat.add_mul_div_left _ _ hda, Nat.div_eq_of_lt (by omega), Nat.zero_add]

theorem rise_mono (da db : ℕ) {i j : ℕ} (h : i ≤ j) : rise da db i ≤ rise da db j :=
  Nat.div_le_div_right (Nat.add_le_add_left (Nat.mul_le_mul_right db h) _)

theorem rise_succ (hle : db ≤ da) : rise da db (i + 1) ≤ rise da db i + 1 := by
  rcases Nat.eq_zero_or_pos da with rfl | hda
  · simp [rise]
  · rw [rise, rise, ← Nat.add_div_right _ hda]
    refine Nat.div_le_div_right ?_
    rw [Nat.succ_mul]
    omega

/-- The line is at most half a cell away. -/
theorem rise_close (hda : 0 < da) :
    2 * |(i : ℤ) * db - rise da db i * da| ≤ da := by
  have hmod := Nat.div_add_mod (da / 2 + i * db) da
  have hlt := Nat.mod_lt (da / 2 + i * db) hda
  rw [← rise] at hmod
  generalize (da / 2 + i * db) % da = m at hmod hlt
  have hcast : (da : ℤ) * rise da db i + m = (da / 2 : ℕ) + i * db := by exact_mod_cast hmod
  rw [mul_comm (rise da db i : ℤ), show (i : ℤ) * db - da * rise da db i = m - (da / 2 : ℕ) by
    linarith]
  rcases abs_cases ((m : ℤ) - (da / 2 : ℕ)) with h | h <;> omega

/-- The shorter axis takes every value on its way. -/
theorem exists_rise_eq (hle : db ≤ da) {u lo hi : ℕ} (hlohi : lo ≤ hi) (hlo : rise da db lo ≤ u)
    (hhi : u ≤ rise da db hi) : ∃ i, lo ≤ i ∧ i ≤ hi ∧ rise da db i = u := by
  induction hi, hlohi using Nat.le_induction with
  | base => exact ⟨lo, le_rfl, le_rfl, by omega⟩
  | succ hi hlohi ih =>
    by_cases hu : u ≤ rise da db hi
    · obtain ⟨i, hlo, hhi, heq⟩ := ih hu
      exact ⟨i, hlo, by omega, heq⟩
    · have := rise_succ (i := hi) hle
      exact ⟨hi + 1, by omega, le_rfl, by omega⟩

end Rise

/-! ### The cells of a column -/

/-- The columns and the rows passed after `i` cells, of `a` and `b` all in all. -/
def along (a b i : ℕ) : ℕ × ℕ := if b ≤ a then (i, rise a b i) else (rise b a i, i)

section Along

variable {a b u r : ℕ}

/-- In the column `u`, where the straight line is at most `r` rows up, some cell is too. -/
theorem exists_along_le (hu : u ≤ a) (hr : u * b ≤ r * a) :
    ∃ i ≤ max a b, (along a b i).1 = u ∧ (along a b i).2 ≤ r := by
  by_cases h : b ≤ a
  · simp only [along, if_pos h]
    refine ⟨u, by omega, rfl, ?_⟩
    rcases Nat.eq_zero_or_pos a with rfl | ha
    · simp [rise]
    · calc
        rise a b u ≤ (a / 2 + r * a) / a := Nat.div_le_div_right (by omega)
        _ = r := by rw [Nat.add_mul_div_right _ _ ha, Nat.div_eq_of_lt (by omega), Nat.zero_add]
  · simp only [along, if_neg h]
    have hle : a ≤ b := by omega
    have hreach : u ≤ rise b a (min r b) := by
      rcases le_total b r with hbr | hbr
      · rw [min_eq_right hbr, rise_last hle]
        exact hu
      · rw [min_eq_left hbr]
        calc
          u = (b / 2 + u * b) / b := by
            rw [Nat.add_mul_div_right _ _ (by omega), Nat.div_eq_of_lt (by omega), Nat.zero_add]
          _ ≤ rise b a r := Nat.div_le_div_right (by omega)
    obtain ⟨i, -, hi, heq⟩ :=
      exists_rise_eq hle (Nat.zero_le _) (by rw [rise_zero]; exact Nat.zero_le u) hreach
    exact ⟨i, by omega, heq, by omega⟩

/-- In the column `u`, where the straight line is at least `r` rows up, some cell is too. -/
theorem exists_le_along (hu : u ≤ a) (hrb : r ≤ b) (hr : r * a ≤ u * b) :
    ∃ i ≤ max a b, (along a b i).1 = u ∧ r ≤ (along a b i).2 := by
  by_cases h : b ≤ a
  · simp only [along, if_pos h]
    refine ⟨u, by omega, rfl, ?_⟩
    rcases Nat.eq_zero_or_pos a with rfl | ha
    · omega
    · calc
        r = (a / 2 + r * a) / a := by
          rw [Nat.add_mul_div_right _ _ ha, Nat.div_eq_of_lt (by omega), Nat.zero_add]
        _ ≤ rise a b u := Nat.div_le_div_right (by omega)
  · simp only [along, if_neg h]
    have hle : a ≤ b := by omega
    have hreach : rise b a r ≤ u :=
      calc
        rise b a r ≤ (b / 2 + u * b) / b := Nat.div_le_div_right (by omega)
        _ = u := by
          rw [Nat.add_mul_div_right _ _ (by omega), Nat.div_eq_of_lt (by omega), Nat.zero_add]
    obtain ⟨i, hi, hib, heq⟩ := exists_rise_eq hle hrb hreach (by rw [rise_last hle]; exact hu)
    exact ⟨i, by omega, heq, by omega⟩

end Along

/-! ### The cells -/

theorem sign_mul_natAbs (x : ℤ) : sign x * x.natAbs = x := by
  rw [sign]
  split <;> omega

theorem abs_sign (x : ℤ) : |sign x| = 1 := by
  rw [sign]
  split <;> rfl

/-- The cells of a line: where the longer axis of length `da` is after `i` cells, and the shorter
one. -/
def lineCell (x0 y0 dx dy : ℤ) (i : ℕ) : ℤ × ℤ :=
  if dy.natAbs ≤ dx.natAbs then
    (x0 + sign dx * i, y0 + sign dy * rise dx.natAbs dy.natAbs i)
  else (x0 + sign dx * rise dy.natAbs dx.natAbs i, y0 + sign dy * i)

theorem lineCell_eq (x0 y0 dx dy : ℤ) (i : ℕ) :
    lineCell x0 y0 dx dy i = (x0 + sign dx * (along dx.natAbs dy.natAbs i).1,
      y0 + sign dy * (along dx.natAbs dy.natAbs i).2) := by
  rw [lineCell, along]
  split <;> rfl

/-- The cells touch, perhaps at a corner. -/
def Neighbours (c d : ℤ × ℤ) : Prop := c ≠ d ∧ |d.1 - c.1| ≤ 1 ∧ |d.2 - c.2| ≤ 1

section Cells

variable {x0 y0 dx dy : ℤ} {i : ℕ}

theorem lineCell_zero : lineCell x0 y0 dx dy 0 = (x0, y0) := by
  rw [lineCell]
  split <;> simp [rise_zero]

theorem lineCell_last : lineCell x0 y0 dx dy (max dx.natAbs dy.natAbs) = (x0 + dx, y0 + dy) := by
  rw [lineCell]
  split
  · rename_i h
    rw [max_eq_left h, rise_last h, sign_mul_natAbs, sign_mul_natAbs]
  · rename_i h
    rw [max_eq_right (by omega), rise_last (by omega), sign_mul_natAbs, sign_mul_natAbs]

theorem sign_eq (x : ℤ) : sign x = 1 ∨ sign x = -1 := by
  rw [sign]
  split
  · exact .inl rfl
  · exact .inr rfl

theorem lineCell_neighbours :
    Neighbours (lineCell x0 y0 dx dy i) (lineCell x0 y0 dx dy (i + 1)) := by
  have hx := sign_eq dx
  have hy := sign_eq dy
  rw [lineCell, lineCell, Neighbours]
  by_cases h : dy.natAbs ≤ dx.natAbs
  · have hge := rise_mono dx.natAbs dy.natAbs (Nat.le_add_right i 1)
    have hle := rise_succ (i := i) h
    simp only [if_pos h, ne_eq, Prod.mk.injEq, abs_le]
    push_cast
    rcases hx with hx | hx <;> rcases hy with hy | hy <;> rw [hx, hy] <;> omega
  · have hge := rise_mono dy.natAbs dx.natAbs (Nat.le_add_right i 1)
    have hle := rise_succ (i := i) (not_le.mp h).le
    simp only [if_neg h, ne_eq, Prod.mk.injEq, abs_le]
    push_cast
    rcases hx with hx | hx <;> rcases hy with hy | hy <;> rw [hx, hy] <;> omega

/-- Between the ends. -/
theorem lineCell_between (x0 y0 : ℤ) {dx dy : ℤ} {i : ℕ} (hi : i ≤ max dx.natAbs dy.natAbs) :
    min x0 (x0 + dx) ≤ (lineCell x0 y0 dx dy i).1 ∧
      (lineCell x0 y0 dx dy i).1 ≤ max x0 (x0 + dx) ∧
      min y0 (y0 + dy) ≤ (lineCell x0 y0 dx dy i).2 ∧
      (lineCell x0 y0 dx dy i).2 ≤ max y0 (y0 + dy) := by
  have hx := sign_mul_natAbs dx
  have hy := sign_mul_natAbs dy
  have hsx := sign_eq dx
  have hsy := sign_eq dy
  rw [lineCell]
  by_cases h : dy.natAbs ≤ dx.natAbs
  · rw [max_eq_left h] at hi
    have hle := (rise_mono dx.natAbs dy.natAbs hi).trans_eq (rise_last h)
    simp only [if_pos h]
    rcases hsx with hsx | hsx <;> rcases hsy with hsy | hsy <;> rw [hsx] at hx ⊢ <;>
      rw [hsy] at hy ⊢ <;> omega
  · rw [max_eq_right (not_le.mp h).le] at hi
    have hle := (rise_mono dy.natAbs dx.natAbs hi).trans_eq (rise_last (not_le.mp h).le)
    simp only [if_neg h]
    rcases hsx with hsx | hsx <;> rcases hsy with hsy | hsy <;> rw [hsx] at hx ⊢ <;>
      rw [hsy] at hy ⊢ <;> omega

theorem cross_eq (u v : ℤ) : sign dx * u * dy - sign dy * v * dx =
    sign dx * (sign dy * (u * dy.natAbs - v * dx.natAbs)) :=
  calc
    sign dx * u * dy - sign dy * v * dx =
        sign dx * u * (sign dy * dy.natAbs) - sign dy * v * (sign dx * dx.natAbs) := by
      rw [sign_mul_natAbs, sign_mul_natAbs]
    _ = sign dx * (sign dy * (u * dy.natAbs - v * dx.natAbs)) := by ring

/-- The cross product with the line is at most half of the longer side. -/
theorem lineCell_close (i : ℕ) :
    2 * |((lineCell x0 y0 dx dy i).1 - x0) * dy - ((lineCell x0 y0 dx dy i).2 - y0) * dx| ≤
      max dx.natAbs dy.natAbs := by
  rw [lineCell]
  by_cases h : dy.natAbs ≤ dx.natAbs
  · rw [max_eq_left (by exact_mod_cast h)]
    simp only [if_pos h, add_sub_cancel_left]
    rw [cross_eq, abs_mul, abs_mul, abs_sign, abs_sign, one_mul, one_mul]
    rcases Nat.eq_zero_or_pos dx.natAbs with h0 | hpos
    · rw [h0, Nat.le_zero.mp (h.trans_eq h0)]
      simp
    · exact rise_close hpos
  · have hpos : 0 < dy.natAbs := by omega
    rw [max_eq_right (by exact_mod_cast (not_le.mp h).le)]
    simp only [if_neg h, add_sub_cancel_left]
    rw [cross_eq, abs_mul, abs_mul, abs_sign, abs_sign, one_mul, one_mul, abs_sub_comm]
    exact rise_close hpos

end Cells

/-! ### The line -/

/-- The offset of a cell. -/
def offsetOf (sizeX : ℕ) (c : ℤ × ℤ) : ℤ := c.2 * sizeX + c.1

/-- The cells of the line in their order. -/
theorem lineOffsets_eq (sizeX : ℕ) (f : Lengths) (x1 y1 : ℕ) (h : f.tooShort = false) :
    let dx : ℤ := x1 - f.minX0
    let dy : ℤ := y1 - f.minY0
    let da := max dx.natAbs dy.natAbs
    lineOffsets sizeX f x1 y1 =
      ((List.range (min (f.scaled da) da + 1)).map (lineCell f.minX0 f.minY0 dx dy)).map
        (offsetOf sizeX) := by
  intro dx dy da
  rw [lineOffsets, h, List.map_map]
  simp only [Bool.false_eq_true, if_false]
  by_cases hdx : dy.natAbs ≤ dx.natAbs
  · rw [if_pos hdx, bresenham2D, show da = dx.natAbs from max_eq_left hdx]
    rcases Nat.eq_zero_or_pos dx.natAbs with h0 | hpos
    · rw [h0, Nat.min_zero]
      simp [bresenhamLoop, lineCell_zero, offsetOf]
    · rw [bresenhamLoop_eq hdx _ _ (Nat.div_lt_self hpos (by omega))]
      refine List.map_congr_left fun i _ => ?_
      simp only [Function.comp_apply, lineCell, if_pos hdx, offsetOf, rise]
      ring
  · have hpos : 0 < dy.natAbs := by omega
    rw [if_neg hdx, bresenham2D, show da = dy.natAbs from max_eq_right (by omega),
      bresenhamLoop_eq (by omega) _ _ (Nat.div_lt_self hpos (by omega))]
    refine List.map_congr_left fun i _ => ?_
    simp only [Function.comp_apply, lineCell, if_neg hdx, offsetOf, rise]
    ring

/-- A line from one cell of the map to another. -/
theorem raytraceLine_spec {F : Type} [Double F] (hypot : F → F → F)
    (sizeX sizeY x0 y0 x1 y1 maxLength minLength : ℕ)
    (h : (lengths hypot x0 y0 x1 y1 maxLength minLength).tooShort = false)
    (hx0 : (lengths hypot x0 y0 x1 y1 maxLength minLength).minX0 < sizeX)
    (hy0 : (lengths hypot x0 y0 x1 y1 maxLength minLength).minY0 < sizeY)
    (hx1 : x1 < sizeX) (hy1 : y1 < sizeY) :
    let f := lengths hypot x0 y0 x1 y1 maxLength minLength
    let dx : ℤ := x1 - f.minX0
    let dy : ℤ := y1 - f.minY0
    let da := max dx.natAbs dy.natAbs
    ∃ cells : List (ℤ × ℤ),
      raytraceLine hypot sizeX x0 y0 x1 y1 maxLength minLength = cells.map (offsetOf sizeX) ∧
      cells.length = min (f.scaled da) da + 1 ∧
      cells.head? = some ((f.minX0 : ℤ), (f.minY0 : ℤ)) ∧
      (da ≤ f.scaled da → cells.getLast? = some ((x1 : ℤ), (y1 : ℤ))) ∧
      cells.IsChain Neighbours ∧
      ∀ c ∈ cells, (0 ≤ c.1 ∧ c.1 < sizeX ∧ 0 ≤ c.2 ∧ c.2 < sizeY) ∧
        2 * |(c.1 - f.minX0) * dy - (c.2 - f.minY0) * dx| ≤ da := by
  intro f dx dy da
  refine ⟨(List.range (min (f.scaled da) da + 1)).map (lineCell f.minX0 f.minY0 dx dy),
    lineOffsets_eq sizeX f x1 y1 h, by simp, ?_, ?_, ?_, ?_⟩
  · rw [List.range_succ_eq_map, List.map_cons, List.head?_cons, lineCell_zero]
  · intro hlong
    rw [Nat.min_eq_right hlong, List.range_succ, List.map_append, List.map_cons, List.map_nil,
      List.getLast?_concat, lineCell_last]
    simp [dx, dy]
  · rw [List.isChain_map]
    refine (List.isChain_range_succ _ _).mpr fun i _ => lineCell_neighbours
  · intro c hc
    obtain ⟨i, hi, rfl⟩ := List.mem_map.mp hc
    rw [List.mem_range] at hi
    have hi : i ≤ max dx.natAbs dy.natAbs := by omega
    obtain ⟨hxl, hxr, hyl, hyr⟩ := lineCell_between f.minX0 f.minY0 hi
    have hstartX : f.minX0 < sizeX := hx0
    have hstartY : f.minY0 < sizeY := hy0
    exact ⟨by omega, lineCell_close i⟩

/-- Four columns and three rows, from a distance of 2 on. -/
theorem raytraceLine_slanted :
    (raytraceLine (fun dx dy : ℚ => Rat.sqrt (dx * dx + dy * dy)) 5 0 0 4 3 100 2).length = 4 := by
  obtain ⟨cells, hline, hlength, -⟩ :=
    raytraceLine_spec (fun dx dy : ℚ => Rat.sqrt (dx * dx + dy * dy)) 5 4 0 0 4 3 100 2
      (by decide +kernel) (by decide +kernel) (by decide +kernel) (by decide) (by decide)
  rw [hline, List.length_map, hlength]
  decide +kernel

end Costmap
