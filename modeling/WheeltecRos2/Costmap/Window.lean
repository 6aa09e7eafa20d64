/-
The rolling window of `Costmap2D`.

`updateOrigin` moves the window by whole cells: the overlap of the old window and the new one goes
row by row through a buffer, and all other cells get the default.  The cells of the world are
counted from the first origin, by the cells that the window was moved by (`Place`).

* `cell_run`: over any run of marks, moves and resets every cell of the world has the cost that
  was marked last, if since then it was not reset and did not leave the window, and otherwise the
  default; each cell evolves without the others.
* `point_run`: with exact coordinates a point of the world is in the same cell all the time.

The arithmetic of the coordinates, with its rounding and its conversions, is a parameter (`Double`);
the sums of cells and sizes are taken to fit an `int`.
-/
import WheeltecRos2.Lib.Runs
import WheeltecRos2.Lib.Truncate
import Mathlib.Data.List.GetD
import Mathlib.Data.Rat.Floor
import Mathlib.Tactic.FieldSimp
import Mathlib.Tactic.Linarith
import Mathlib.Tactic.Positivity
import Mathlib.Tactic.Ring

namespace Costmap

open Truncate

/-- Bytes of `src` to `dest`; the positions are those of the pointers. -/
def memcpy (dest : List UInt8) (d : ℤ) (src : List UInt8) (s : ℤ) (n : ℕ) : List UInt8 :=
  dest.mapIdx fun k v => if d ≤ k ∧ k < d + n then src.getD (s + (k - d)).toNat 0 else v

/-- A row at a time. -/
def copyMapRegion (sourceMap : List UInt8) (smLowerLeftX smLowerLeftY : ℤ) (smSizeX : ℕ)
    (destMap : List UInt8) (dmLowerLeftX dmLowerLeftY : ℤ) (dmSizeX : ℕ)
    (regionSizeX regionSizeY : ℕ) : List UInt8 :=
  (List.range regionSizeY).foldl
    (fun dest (i : ℕ) => memcpy dest (dmLowerLeftY * dmSizeX + dmLowerLeftX + i * dmSizeX)
      sourceMap (smLowerLeftY * smSizeX + smLowerLeftX + i * smSizeX) regionSizeX)
    destMap

@[simp] theorem length_memcpy (dest : List UInt8) (d : ℤ) (src : List UInt8) (s : ℤ) (n : ℕ) :
    (memcpy dest d src s n).length = dest.length := List.length_mapIdx

@[simp] theorem length_copyMapRegion (sourceMap : List UInt8) (sx sy : ℤ) (sw : ℕ)
    (destMap : List UInt8) (dx dy : ℤ) (dw rx ry : ℕ) :
    (copyMapRegion sourceMap sx sy sw destMap dx dy dw rx ry).length = destMap.length := by
  rw [copyMapRegion]
  induction ry with
  | zero => rfl
  | succ ry ih => rw [List.range_succ, List.foldl_append, List.foldl_cons, List.foldl_nil,
      length_memcpy, ih]

/-! ### What a copy leaves in a cell -/

section Copy

variable {sourceMap destMap : List UInt8} {sx sy dx dy : ℤ} {sw dw rx ry x y : ℕ}

theorem getD_memcpy {dest src : List UInt8} {d s : ℤ} {n k : ℕ} (hk : k < dest.length) :
    (memcpy dest d src s n).getD k 0 =
      if d ≤ k ∧ k < d + n then src.getD (s + (k - d)).toNat 0 else dest.getD k 0 := by
  rw [memcpy, List.getD_eq_getElem _ _ (by rwa [List.length_mapIdx]), List.getElem_mapIdx,
    List.getD_eq_getElem _ _ hk]

/-- The cells of a row lie together. -/
theorem row_iff {a u : ℤ} (hu : 0 ≤ u) (hx : x < dw) (hrow : u + rx ≤ dw) :
    (a * dw + u ≤ (y * dw + x : ℕ) ∧ ((y * dw + x : ℕ) : ℤ) < a * dw + u + rx) ↔
      y = a ∧ u ≤ x ∧ x < u + rx := by
  push_cast
  constructor
  · rintro ⟨hge, hlt⟩
    have hya : (y : ℤ) = a := by
      rcases lt_trichotomy (y : ℤ) a with h | h | h
      · have : ((y : ℤ) + 1) * dw ≤ a * dw := mul_le_mul_of_nonneg_right h (by omega)
        rw [add_mul] at this
        omega
      · exact h
      · have : (a + 1) * dw ≤ (y : ℤ) * dw := mul_le_mul_of_nonneg_right h (by omega)
        rw [add_mul] at this
        omega
    rw [hya] at hge hlt
    exact ⟨hya, by omega, by omega⟩
  · rintro ⟨rfl, hge, hlt⟩
    omega

/-- A cell of the region has what is at its place in the source, and every other cell has what it
had. -/
theorem getD_copyMapRegion (hx : x < dw) (hk : y * dw + x < destMap.length) (hdx : 0 ≤ dx)
    (hrow : dx + rx ≤ dw) :
    (copyMapRegion sourceMap sx sy sw destMap dx dy dw rx ry).getD (y * dw + x) 0 =
      if dx ≤ x ∧ x < dx + rx ∧ dy ≤ y ∧ y < dy + ry then
        sourceMap.getD ((sy + (y - dy)) * sw + (sx + (x - dx))).toNat 0
      else destMap.getD (y * dw + x) 0 := by
  rw [copyMapRegion]
  induction ry with
  | zero =>
    rw [if_neg (by simp)]
    · rfl
  | succ ry ih =>
    have hlen := length_copyMapRegion sourceMap sx sy sw destMap dx dy dw rx ry
    rw [copyMapRegion] at hlen
    rw [List.range_succ, List.foldl_append, List.foldl_cons, List.foldl_nil,
      getD_memcpy (by rw [hlen]; exact hk), ih]
    have hcond := row_iff (a := dy + ry) (y := y) hdx hx hrow
    rw [show (dy + ry) * (dw : ℤ) + dx = dy * dw + dx + ry * dw by ring] at hcond
    simp only [hcond]
    by_cases hlast : (y : ℤ) = dy + ry ∧ dx ≤ x ∧ x < dx + rx
    · obtain ⟨hy, hge, hlt⟩ := hlast
      rw [if_pos ⟨hy, hge, hlt⟩, if_pos ⟨hge, hlt, by omega, by push_cast; omega⟩]
      congr 2
      push_cast
      rw [hy]
      ring
    · rw [if_neg hlast]
      by_cases hin : dx ≤ x ∧ (x : ℤ) < dx + rx ∧ dy ≤ y ∧ (y : ℤ) < dy + ry
      · rw [if_pos hin, if_pos (by push_cast; omega)]
      · rw [if_neg hin, if_neg (by push_cast; omega)]

theorem getD_copyMapRegion_empty {k : ℕ} (hk : k < destMap.length) :
    (copyMapRegion sourceMap sx sy sw destMap dx dy dw 0 ry).getD k 0 = destMap.getD k 0 := by
  rw [copyMapRegion]
  induction ry with
  | zero => rfl
  | succ ry ih =>
    have hlen := length_copyMapRegion sourceMap sx sy sw destMap dx dy dw 0 ry
    rw [copyMapRegion] at hlen
    rw [List.range_succ, List.foldl_append, List.foldl_cons, List.foldl_nil,
      getD_memcpy (by rw [hlen]; exact hk), if_neg (by push_cast; omega), ih]

end Copy

/-- The arithmetic of the coordinates. -/
class Double (F : Type) extends Add F, Sub F, Mul F, Div F where
  lt : F → F → Bool
  half : F
  ofInt : ℤ → F
  /-- `static_cast<int>` -/
  toInt : F → ℤ
  /-- `static_cast<unsigned int>` -/
  toUnsigned : F → ℕ

/-- Exact coordinates. -/
instance : Double ℚ where
  lt x y := decide (x < y)
  half := 1 / 2
  ofInt := Int.cast
  toInt := trunc
  toUnsigned x := (trunc x).toNat

open Double

/-- The fields of a map that say where its cells are. -/
structure Window (F : Type) where
  sizeX : ℕ
  sizeY : ℕ
  resolution : F
  originX : F
  originY : F

structure Costmap2D (F : Type) extends Window F where
  costmap : List UInt8
  defaultValue : UInt8
  length : costmap.length = sizeX * sizeY

section Model

variable {F : Type} [Double F]

namespace Window

variable (w : Window F)

def mapToWorld (mx my : ℕ) : F × F :=
  (w.originX + (ofInt mx + half) * w.resolution, w.originY + (ofInt my + half) * w.resolution)

def worldToMap (wx wy : F) : Option (ℕ × ℕ) :=
  if lt wx w.originX ∨ lt wy w.originY then none
  else
    let mx := toUnsigned ((wx - w.originX) / w.resolution)
    let my := toUnsigned ((wy - w.originY) / w.resolution)
    if mx < w.sizeX ∧ my < w.sizeY then some (mx, my) else none

/-- The cells that `updateOrigin` moves a window by. -/
def cellOx (newOriginX : F) : ℤ := toInt ((newOriginX - w.originX) / w.resolution)

@[inherit_doc cellOx] def cellOy (newOriginY : F) : ℤ :=
  toInt ((newOriginY - w.originY) / w.resolution)

/-- The grid aligned origin. -/
def updateOrigin (newOriginX newOriginY : F) : Window F :=
  { w with
    originX := w.originX + ofInt (w.cellOx newOriginX) * w.resolution
    originY := w.originY + ofInt (w.cellOy newOriginY) * w.resolution }

end Window

namespace Costmap2D

variable (map : Costmap2D F)

omit [Double F] in
def getIndex (mx my : ℕ) : ℕ := my * map.sizeX + mx

def getCost (mx my : ℕ) : UInt8 := map.costmap.getD (map.getIndex mx my) 0

def setCost (mx my : ℕ) (cost : UInt8) : Costmap2D F :=
  { map with
    costmap := map.costmap.set (map.getIndex mx my) cost
    length := by rw [List.length_set, map.length] }

def resetMaps : Costmap2D F :=
  { map with
    costmap := List.replicate (map.sizeX * map.sizeY) map.defaultValue
    length := List.length_replicate }

def updateOrigin (newOriginX newOriginY : F) : Costmap2D F :=
  let cellOx := map.cellOx newOriginX
  let cellOy := map.cellOy newOriginY
  let lowerLeftX := min (max cellOx 0) map.sizeX
  let lowerLeftY := min (max cellOy 0) map.sizeY
  let upperRightX := min (max (cellOx + map.sizeX) 0) map.sizeX
  let upperRightY := min (max (cellOy + map.sizeY) 0) map.sizeY
  let cellSizeX := (upperRightX - lowerLeftX).toNat
  let cellSizeY := (upperRightY - lowerLeftY).toNat
  let localMap := copyMapRegion map.costmap lowerLeftX lowerLeftY map.sizeX
    (List.replicate (cellSizeX * cellSizeY) 0) 0 0 cellSizeX cellSizeX cellSizeY
  { map.resetMaps with
    toWindow := map.toWindow.updateOrigin newOriginX newOriginY
    costmap := copyMapRegion localMap 0 0 cellSizeX map.resetMaps.costmap
      (lowerLeftX - cellOx) (lowerLeftY - cellOy) map.sizeX cellSizeX cellSizeY
    length := (length_copyMapRegion ..).trans map.resetMaps.length }

/-- Marking a point of the world, as the layers do. -/
def mark (wx wy : F) (cost : UInt8) : Costmap2D F :=
  match map.worldToMap wx wy with
  | some (mx, my) => map.setCost mx my cost
  | none => map

/-- A map after its construction. -/
def init (sizeX sizeY : ℕ) (resolution originX originY : F) (defaultValue : UInt8) :
    Costmap2D F where
  sizeX := sizeX
  sizeY := sizeY
  resolution := resolution
  originX := originX
  originY := originY
  costmap := List.replicate (sizeX * sizeY) defaultValue
  defaultValue := defaultValue
  length := List.length_replicate

end Costmap2D

end Model

namespace Costmap2D

variable {F : Type} [Double F]

/-! ### The cells of the window -/

variable {map : Costmap2D F} {mx my x y : ℕ}

theorem index_lt {w h : ℕ} (hx : x < w) (hy : y < h) : y * w + x < w * h :=
  calc
    y * w + x < y * w + w := Nat.add_lt_add_left hx _
    _ = (y + 1) * w := (Nat.succ_mul y w).symm
    _ ≤ h * w := Nat.mul_le_mul_right w hy
    _ = w * h := Nat.mul_comm h w

theorem index_inj {w : ℕ} (hx : x < w) (hmx : mx < w) :
    my * w + mx = y * w + x ↔ mx = x ∧ my = y := by
  constructor
  · intro h
    have hmod := congrArg (· % w) h
    have hdiv := congrArg (· / w) h
    simp only [Nat.mul_add_mod', Nat.mod_eq_of_lt hx, Nat.mod_eq_of_lt hmx] at hmod
    have hw : 0 < w := by omega
    rw [Nat.mul_comm my, Nat.mul_comm y] at hdiv
    simp only [Nat.mul_add_div hw, Nat.div_eq_of_lt hx, Nat.div_eq_of_lt hmx] at hdiv
    exact ⟨hmod, hdiv⟩
  · rintro ⟨rfl, rfl⟩
    rfl

omit [Double F] in
theorem getCost_setCost {cost : UInt8} (hmx : mx < map.sizeX) (hmy : my < map.sizeY)
    (hx : x < map.sizeX) :
    (map.setCost mx my cost).getCost x y = if mx = x ∧ my = y then cost else map.getCost x y := by
  have hlt : my * map.sizeX + mx < map.costmap.length := by
    rw [map.length]
    exact index_lt hmx hmy
  show (map.costmap.set (map.getIndex mx my) cost).getD (map.getIndex x y) 0 = _
  rw [List.getD_eq_getElem?_getD, List.getElem?_set, getIndex, getIndex]
  simp only [index_inj hx hmx]
  by_cases h : mx = x ∧ my = y
  · rw [if_pos h, if_pos h, if_pos hlt]
    rfl
  · rw [if_neg h, if_neg h, ← List.getD_eq_getElem?_getD]
    rfl

omit [Double F] in
theorem getCost_resetMaps (hx : x < map.sizeX) (hy : y < map.sizeY) :
    map.resetMaps.getCost x y = map.defaultValue := by
  have hlt : y * map.sizeX + x <
      (List.replicate (map.sizeX * map.sizeY) map.defaultValue).length := by
    rw [List.length_replicate]
    exact index_lt hx hy
  show (List.replicate (map.sizeX * map.sizeY) map.defaultValue).getD (y * map.sizeX + x) 0 = _
  rw [List.getD_eq_getElem _ _ hlt, List.getElem_replicate]

/-- A move keeps the overlap. -/
theorem getCost_updateOrigin (newOriginX newOriginY : F) (hx : x < map.sizeX)
    (hy : y < map.sizeY) :
    let cellOx := map.cellOx newOriginX
    let cellOy := map.cellOy newOriginY
    (map.updateOrigin newOriginX newOriginY).getCost x y =
      if 0 ≤ x + cellOx ∧ x + cellOx < map.sizeX ∧ 0 ≤ y + cellOy ∧ y + cellOy < map.sizeY then
        map.getCost (x + cellOx).toNat (y + cellOy).toNat
      else map.defaultValue := by
  intro cellOx cellOy
  have hlen : map.resetMaps.costmap.length = map.sizeX * map.sizeY := map.resetMaps.length
  have hk : y * map.sizeX + x < map.resetMaps.costmap.length := by
    rw [hlen]
    exact index_lt hx hy
  have hreset : map.resetMaps.costmap.getD (y * map.sizeX + x) 0 = map.defaultValue :=
    getCost_resetMaps hx hy
  show (copyMapRegion _ 0 0 _ map.resetMaps.costmap _ _ map.sizeX _ _).getD
    (y * map.sizeX + x) 0 = _
  generalize hlowX : min (max cellOx 0) (map.sizeX : ℤ) = lowX
  generalize hlowY : min (max cellOy 0) (map.sizeY : ℤ) = lowY
  generalize hw : (min (max (cellOx + map.sizeX) 0) (map.sizeX : ℤ) - lowX).toNat = w
  generalize hh : (min (max (cellOy + map.sizeY) 0) (map.sizeY : ℤ) - lowY).toNat = h
  by_cases hempty : w = 0
  · rw [hempty, getD_copyMapRegion_empty hk, hreset, if_neg (by omega)]
  rw [getD_copyMapRegion hx hk (by omega) (by omega), hreset]
  by_cases hin : 0 ≤ (x : ℤ) + cellOx ∧ x + cellOx < map.sizeX ∧ 0 ≤ y + cellOy ∧
      y + cellOy < map.sizeY
  · rw [if_pos hin, if_pos (by omega)]
    -- the place in the buffer
    obtain ⟨u, hu⟩ : ∃ u : ℕ, (u : ℤ) = x - (lowX - cellOx) :=
      ⟨(x - (lowX - cellOx)).toNat, Int.toNat_of_nonneg (by omega)⟩
    obtain ⟨v, hv⟩ : ∃ v : ℕ, (v : ℤ) = y - (lowY - cellOy) :=
      ⟨(y - (lowY - cellOy)).toNat, Int.toNat_of_nonneg (by omega)⟩
    have hplace : ((0 + ((y : ℤ) - (lowY - cellOy))) * w + (0 + (x - (lowX - cellOx)))).toNat =
        v * w + u := by
      rw [← hu, ← hv, zero_add, zero_add]
      exact Int.toNat_natCast _
    have hu' : u < w := by omega
    have hv' : v < h := by omega
    rw [hplace, getD_copyMapRegion hu' (by rw [List.length_replicate]; exact index_lt hu' hv')
      (Int.le_refl 0) (by omega), if_pos (by omega)]
    have hsource : ((lowY + ((v : ℤ) - 0)) * map.sizeX + (lowX + ((u : ℤ) - 0))).toNat =
        (y + cellOy).toNat * map.sizeX + (x + cellOx).toNat := by
      obtain ⟨a, ha⟩ := Int.eq_ofNat_of_zero_le hin.1
      obtain ⟨b, hb⟩ := Int.eq_ofNat_of_zero_le hin.2.2.1
      rw [show lowY + ((v : ℤ) - 0) = b by omega, show lowX + ((u : ℤ) - 0) = a by omega, ha, hb]
      exact Int.toNat_natCast _
    rw [hsource]
    rfl
  · rw [if_neg hin, if_neg (by omega)]

theorem worldToMap_lt {w : Window F} {wx wy : F} {v : ℕ × ℕ} (h : w.worldToMap wx wy = some v) :
    v.1 < w.sizeX ∧ v.2 < w.sizeY := by
  rw [Window.worldToMap] at h
  split at h
  · exact absurd h (by simp)
  · simp only at h
    split at h
    · rename_i hlt
      rw [← Option.some.inj h]
      exact hlt
    · exact absurd h (by simp)

end Costmap2D

/-! ### A cell of the world -/

inductive Event (F : Type)
  | mark (wx wy : F) (cost : UInt8)
  | updateOrigin (newOriginX newOriginY : F)
  | resetMaps

section Cells

variable {F : Type} [Double F]

def Costmap2D.step (map : Costmap2D F) : Event F → Costmap2D F
  | .mark wx wy cost => map.mark wx wy cost
  | .updateOrigin newOriginX newOriginY => map.updateOrigin newOriginX newOriginY
  | .resetMaps => map.resetMaps

/-- The cost at a point of the world; what the map does not have is at the default. -/
def Costmap2D.costOf (map : Costmap2D F) (wx wy : F) : UInt8 :=
  match map.worldToMap wx wy with
  | some (mx, my) => map.getCost mx my
  | none => map.defaultValue

/-- A window, and the cells that it has been moved by. -/
structure Place (F : Type) where
  window : Window F
  cornerX : ℤ := 0
  cornerY : ℤ := 0

namespace Place

variable (p : Place F)

def step : Event F → Place F
  | .updateOrigin newOriginX newOriginY =>
    { window := p.window.updateOrigin newOriginX newOriginY
      cornerX := p.cornerX + p.window.cellOx newOriginX
      cornerY := p.cornerY + p.window.cellOy newOriginY }
  | .mark _ _ _ | .resetMaps => p

/-- The cell of the world that `worldToMap` finds. -/
def worldCell (wx wy : F) : Option (ℤ × ℤ) :=
  (p.window.worldToMap wx wy).map fun m => (m.1 + p.cornerX, m.2 + p.cornerY)

/-- The cell is in the window. -/
def Inside (x y : ℤ) : Prop :=
  0 ≤ x - p.cornerX ∧ x - p.cornerX < p.window.sizeX ∧
    0 ≤ y - p.cornerY ∧ y - p.cornerY < p.window.sizeY

instance (x y : ℤ) : Decidable (p.Inside x y) := inferInstanceAs (Decidable (_ ∧ _))

end Place

/-- The cost of one cell, with the window. -/
structure Cell (F : Type) where
  place : Place F
  cost : UInt8

/-- The cell `x`, `y` alone. -/
def Cell.step (defaultValue : UInt8) (x y : ℤ) (c : Cell F) (event : Event F) : Cell F where
  place := c.place.step event
  cost :=
    match event with
    | .mark wx wy cost => if c.place.worldCell wx wy = some (x, y) then cost else c.cost
    | .updateOrigin _ _ => if (c.place.step event).Inside x y then c.cost else defaultValue
    | .resetMaps => defaultValue

/-- The map has the cost of the cell, and the default outside. -/
structure Tracks (d : UInt8) (x y : ℤ) (map : Costmap2D F) (c : Cell F) : Prop where
  window : map.toWindow = c.place.window
  defaultValue : map.defaultValue = d
  inside : c.place.Inside x y →
    map.getCost (x - c.place.cornerX).toNat (y - c.place.cornerY).toNat = c.cost
  outside : ¬ c.place.Inside x y → c.cost = d

variable {map : Costmap2D F} {c : Cell F} {p : Place F} {d : UInt8} {x y : ℤ} {wx wy : F}

omit [Double F] in
theorem Tracks.sizeX (h : Tracks d x y map c) : map.sizeX = c.place.window.sizeX :=
  congrArg Window.sizeX h.window

omit [Double F] in
theorem Tracks.sizeY (h : Tracks d x y map c) : map.sizeY = c.place.window.sizeY :=
  congrArg Window.sizeY h.window

/-- What `worldToMap` finds is in the window. -/
theorem Place.worldCell_eq_some (h : p.worldCell wx wy = some (x, y)) :
    p.window.worldToMap wx wy = some ((x - p.cornerX).toNat, (y - p.cornerY).toNat) ∧
      p.Inside x y := by
  rw [worldCell, Option.map_eq_some_iff] at h
  obtain ⟨⟨mx, my⟩, hmap, hcell⟩ := h
  obtain ⟨hx, hy⟩ := Costmap2D.worldToMap_lt hmap
  simp only [Prod.mk.injEq] at hcell hx hy
  obtain ⟨rfl, rfl⟩ := hcell
  rw [hmap]
  refine ⟨?_, ?_⟩
  · simp
  · rw [Inside]
    omega

theorem Tracks.mark (h : Tracks d x y map c) (cost : UInt8) :
    Tracks d x y (map.mark wx wy cost) (c.step d x y (.mark wx wy cost)) := by
  have hmap : map.worldToMap wx wy = c.place.window.worldToMap wx wy := by rw [h.window]
  rw [Costmap2D.mark, hmap]
  cases hm : c.place.window.worldToMap wx wy with
  | none =>
    -- off the window nothing is marked
    have hcell : c.place.worldCell wx wy = none := by rw [Place.worldCell, hm, Option.map_none]
    refine ⟨h.window, h.defaultValue, ?_, ?_⟩
    · intro hin
      simpa [Cell.step, Place.step, hcell] using h.inside hin
    · intro hout
      simpa [Cell.step, hcell] using h.outside hout
  | some m =>
    obtain ⟨mx, my⟩ := m
    obtain ⟨hmx, hmy⟩ := Costmap2D.worldToMap_lt hm
    have hcell : c.place.worldCell wx wy =
        some ((mx : ℤ) + c.place.cornerX, (my : ℤ) + c.place.cornerY) := by
      rw [Place.worldCell, hm, Option.map_some]
    have hsizeX := h.sizeX
    have hsizeY := h.sizeY
    refine ⟨h.window, h.defaultValue, ?_, ?_⟩
    · intro hin
      have hcost := h.inside hin
      obtain ⟨hxl, hxr, hyl, hyr⟩ := hin
      simp only [Cell.step, Place.step] at hxl hxr hyl hyr ⊢
      rw [Costmap2D.getCost_setCost (by omega) (by omega) (by omega), hcost]
      refine if_congr ?_ rfl rfl
      rw [hcell, Option.some_inj, Prod.mk.injEq]
      omega
    · intro hout
      have hne : c.place.worldCell wx wy ≠ some (x, y) := fun heq =>
        hout (Place.worldCell_eq_some heq).2
      simp only [Cell.step, if_neg hne]
      exact h.outside hout

theorem Tracks.resetMaps (h : Tracks d x y map c) :
    Tracks d x y map.resetMaps (c.step d x y .resetMaps) := by
  have hsizeX := h.sizeX
  have hsizeY := h.sizeY
  refine ⟨h.window, h.defaultValue, ?_, fun _ => rfl⟩
  rintro ⟨hxl, hxr, hyl, hyr⟩
  simp only [Cell.step, Place.step] at hxl hxr hyl hyr ⊢
  rw [Costmap2D.getCost_resetMaps (by omega) (by omega), h.defaultValue]

theorem Tracks.updateOrigin (h : Tracks d x y map c) (newOriginX newOriginY : F) :
    Tracks d x y (map.updateOrigin newOriginX newOriginY)
      (c.step d x y (.updateOrigin newOriginX newOriginY)) := by
  have hcost {i j : ℕ} (hi : i < map.sizeX) (hj : j < map.sizeY) :=
    Costmap2D.getCost_updateOrigin newOriginX newOriginY hi hj
  have hsizeX := h.sizeX
  have hsizeY := h.sizeY
  have hcellOx : map.cellOx newOriginX = c.place.window.cellOx newOriginX := by rw [h.window]
  have hcellOy : map.cellOy newOriginY = c.place.window.cellOy newOriginY := by rw [h.window]
  have hwindow : (map.updateOrigin newOriginX newOriginY).toWindow =
      (c.place.step (.updateOrigin newOriginX newOriginY)).window :=
    congrArg (Window.updateOrigin · newOriginX newOriginY) h.window
  by_cases hin : (c.place.step (.updateOrigin newOriginX newOriginY)).Inside x y
  · refine ⟨hwindow, h.defaultValue, fun _ => ?_, fun hout => absurd hin hout⟩
    simp only [Cell.step, if_pos hin]
    obtain ⟨hxl, hxr, hyl, hyr⟩ := hin
    simp only [Place.step, Window.updateOrigin] at hxl hxr hyl hyr ⊢
    rw [hcost (by omega) (by omega), hcellOx, hcellOy, hsizeX, hsizeY, Int.toNat_of_nonneg hxl,
      Int.toNat_of_nonneg hyl,
      show x - (c.place.cornerX + c.place.window.cellOx newOriginX) +
        c.place.window.cellOx newOriginX = x - c.place.cornerX by omega,
      show y - (c.place.cornerY + c.place.window.cellOy newOriginY) +
        c.place.window.cellOy newOriginY = y - c.place.cornerY by omega]
    -- a cell of the new window that was not in the old one has the default already
    by_cases hold : c.place.Inside x y
    · exact (if_pos hold).trans (h.inside hold)
    · exact (if_neg hold).trans (h.defaultValue.trans (h.outside hold).symm)
  · refine ⟨hwindow, h.defaultValue, fun hin' => absurd hin' hin, fun _ => ?_⟩
    simp only [Cell.step, if_neg hin]

theorem Tracks.step (h : Tracks d x y map c) (event : Event F) :
    Tracks d x y (map.step event) (c.step d x y event) := by
  cases event with
  | mark wx wy cost => exact h.mark cost
  | updateOrigin newOriginX newOriginY => exact h.updateOrigin newOriginX newOriginY
  | resetMaps => exact h.resetMaps

theorem Tracks.run (h : Tracks d x y map c) (events : List (Event F)) :
    Tracks d x y (Runs.run Costmap2D.step map events) (Runs.run (Cell.step d x y) c events) := by
  induction events generalizing map c with
  | nil => exact h
  | cons event events ih => exact ih (h.step event)

/-- The window does not depend on the costs. -/
theorem Cell.place_run (c : Cell F) (events : List (Event F)) :
    (Runs.run (Cell.step d x y) c events).place = Runs.run Place.step c.place events := by
  induction events generalizing c with
  | nil => rfl
  | cons event events ih => exact ih (c.step d x y event)

variable (sizeX sizeY : ℕ) (resolution originX originY : F) (defaultValue : UInt8)

/-- The window of a map after its construction. -/
def Place.init : Place F where
  window := { sizeX, sizeY, resolution, originX, originY }

omit [Double F] in
theorem tracks_init :
    Tracks defaultValue x y (Costmap2D.init sizeX sizeY resolution originX originY defaultValue)
      ⟨Place.init sizeX sizeY resolution originX originY, defaultValue⟩ := by
  refine ⟨rfl, rfl, ?_, fun _ => rfl⟩
  rintro ⟨hxl, hxr, hyl, hyr⟩
  simp only [Place.init] at hxl hxr hyl hyr
  have hx : (x - 0).toNat < sizeX := by omega
  have hy : (y - 0).toNat < sizeY := by omega
  let map := Costmap2D.init sizeX sizeY resolution originX originY defaultValue
  exact map.getCost_resetMaps hx hy

/-- The cost of a cell of the world after some events. -/
def cellCost (events : List (Event F)) (x y : ℤ) : UInt8 :=
  (Runs.run (Cell.step defaultValue x y)
    ⟨Place.init sizeX sizeY resolution originX originY, defaultValue⟩ events).cost

/-- **The rolling window.**  At any point of the world a map has the cost of the cell that
`worldToMap` finds, and this cell evolves alone; no rounding of the coordinates breaks that. -/
theorem cell_run (events : List (Event F)) (wx wy : F) :
    (Runs.run Costmap2D.step
        (Costmap2D.init sizeX sizeY resolution originX originY defaultValue) events).costOf wx wy =
      match (Runs.run Place.step (Place.init sizeX sizeY resolution originX originY)
        events).worldCell wx wy with
      | some (x, y) => cellCost sizeX sizeY resolution originX originY defaultValue events x y
      | none => defaultValue := by
  have htracks (x y : ℤ) := (tracks_init (x := x) (y := y) sizeX sizeY resolution originX originY
    defaultValue).run events
  have hplace (x y : ℤ) := Cell.place_run (d := defaultValue) (x := x) (y := y)
    ⟨Place.init sizeX sizeY resolution originX originY, defaultValue⟩ events
  have hwindow := (htracks 0 0).window
  rw [hplace] at hwindow
  simp only at hwindow
  rw [Costmap2D.costOf, hwindow]
  cases hcell : (Runs.run Place.step (Place.init sizeX sizeY resolution originX originY)
      events).worldCell wx wy with
  | none =>
    rw [Place.worldCell, Option.map_eq_none_iff] at hcell
    rw [hcell]
    exact (htracks 0 0).defaultValue
  | some cell =>
    obtain ⟨x, y⟩ := cell
    obtain ⟨hmap, hin⟩ := Place.worldCell_eq_some hcell
    have hcost := (htracks x y).inside
    rw [hplace] at hcost
    rw [hmap]
    exact hcost hin

end Cells

/-! ### Exact coordinates -/

section Exact

/-- The cells of a coordinate, from the origin. -/
def cells (origin resolution w : ℚ) : ℚ := (w - origin) / resolution

theorem cells_sub {resolution : ℚ} (h : 0 < resolution) (origin w : ℚ) (corner : ℤ) :
    (w - (origin + corner * resolution)) / resolution = cells origin resolution w - corner := by
  rw [cells]
  field_simp
  ring

theorem worldToMap_exact (w : Window ℚ) (wx wy : ℚ) : w.worldToMap wx wy =
    if wx < w.originX ∨ wy < w.originY then none
    else if (trunc ((wx - w.originX) / w.resolution)).toNat < w.sizeX ∧
        (trunc ((wy - w.originY) / w.resolution)).toNat < w.sizeY then
      some ((trunc ((wx - w.originX) / w.resolution)).toNat,
        (trunc ((wy - w.originY) / w.resolution)).toNat)
    else none := by
  have hor : (lt wx w.originX ∨ lt wy w.originY) ↔ (wx < w.originX ∨ wy < w.originY) :=
    or_congr decide_eq_true_iff decide_eq_true_iff
  rw [Window.worldToMap, if_congr hor rfl rfl]
  rfl

/-- The window is where its corner says. -/
structure Aligned (x₀ y₀ r : ℚ) (p : Place ℚ) : Prop where
  resolution : p.window.resolution = r
  originX : p.window.originX = x₀ + p.cornerX * r
  originY : p.window.originY = y₀ + p.cornerY * r

variable {resolution originX originY : ℚ} {p : Place ℚ}

theorem Aligned.step (h : Aligned originX originY resolution p) (event : Event ℚ) :
    Aligned originX originY resolution (p.step event) := by
  cases event with
  | updateOrigin newOriginX newOriginY =>
    refine ⟨h.resolution, ?_, ?_⟩
    · show p.window.originX + (p.window.cellOx newOriginX : ℚ) * p.window.resolution =
        originX + ((p.cornerX + p.window.cellOx newOriginX : ℤ) : ℚ) * resolution
      rw [h.originX, h.resolution]
      push_cast
      ring
    · show p.window.originY + (p.window.cellOy newOriginY : ℚ) * p.window.resolution =
        originY + ((p.cornerY + p.window.cellOy newOriginY : ℤ) : ℚ) * resolution
      rw [h.originY, h.resolution]
      push_cast
      ring
  | mark wx wy cost => exact h
  | resetMaps => exact h

/-- Where a point of the world is in the window. -/
theorem Aligned.worldCell (h : Aligned originX originY resolution p) (hpos : 0 < resolution)
    (wx wy : ℚ) : p.worldCell wx wy =
      if p.Inside ⌊cells originX resolution wx⌋ ⌊cells originY resolution wy⌋ then
        some (⌊cells originX resolution wx⌋, ⌊cells originY resolution wy⌋)
      else none := by
  -- one side of the window: its corner is a whole number of cells away
  have hside {w origin₀ origin : ℚ} {corner : ℤ}
      (horigin : origin = origin₀ + corner * resolution) :
      (w < origin ↔ ⌊cells origin₀ resolution w⌋ - corner < 0) ∧
        (¬ w < origin → trunc ((w - origin) / resolution) =
          ⌊cells origin₀ resolution w⌋ - corner) := by
    have hsub := cells_sub hpos origin₀ w corner
    rw [← horigin] at hsub
    have hfloor : ⌊(w - origin) / resolution⌋ = ⌊cells origin₀ resolution w⌋ - corner := by
      rw [hsub, Int.floor_sub_intCast]
    rw [← hfloor]
    constructor
    · rw [Int.floor_lt, Int.cast_zero, div_lt_iff₀ hpos, zero_mul, sub_neg]
    · intro hw
      exact trunc_of_nonneg (div_nonneg (sub_nonneg.mpr (not_lt.mp hw)) hpos.le)
  obtain ⟨hltX, htruncX⟩ := hside (w := wx) h.originX
  obtain ⟨hltY, htruncY⟩ := hside (w := wy) h.originY
  rw [Place.worldCell, worldToMap_exact, h.resolution]
  generalize ⌊cells originX resolution wx⌋ = a at *
  generalize ⌊cells originY resolution wy⌋ = b at *
  by_cases hlow : wx < p.window.originX ∨ wy < p.window.originY
  · rw [if_pos hlow, if_neg, Option.map_none]
    rintro ⟨hx, -, hy, -⟩
    rw [hltX, hltY] at hlow
    omega
  · rw [if_neg hlow]
    rw [not_or] at hlow
    rw [htruncX hlow.1, htruncY hlow.2]
    rw [hltX, hltY] at hlow
    by_cases hin : p.Inside a b
    · rw [if_pos hin, if_pos (by rw [Place.Inside] at hin; omega), Option.map_some, Option.some_inj,
        Prod.mk.injEq]
      simp only
      omega
    · rw [if_neg hin, if_neg (by rw [Place.Inside] at hin; omega), Option.map_none]

/-- With exact coordinates, a point of the world has the cost of one cell all the time. -/
theorem point_run (sizeX sizeY : ℕ) (hpos : 0 < resolution) (originX originY : ℚ)
    (defaultValue : UInt8) (events : List (Event ℚ)) (wx wy : ℚ) :
    (Runs.run Costmap2D.step
        (Costmap2D.init sizeX sizeY resolution originX originY defaultValue) events).costOf wx wy =
      cellCost sizeX sizeY resolution originX originY defaultValue events
        ⌊cells originX resolution wx⌋ ⌊cells originY resolution wy⌋ := by
  have hstart : Aligned originX originY resolution
      (Place.init sizeX sizeY resolution originX originY) :=
    ⟨rfl, by simp [Place.init], by simp [Place.init]⟩
  have haligned : Aligned originX originY resolution
      (Runs.run Place.step (Place.init sizeX sizeY resolution originX originY) events) :=
    Runs.run_invariant hstart fun _ event h => h.step event
  rw [cell_run, haligned.worldCell hpos]
  by_cases hin : (Runs.run Place.step (Place.init sizeX sizeY resolution originX originY)
      events).Inside ⌊cells originX resolution wx⌋ ⌊cells originY resolution wy⌋
  · rw [if_pos hin]
  · rw [if_neg hin]
    have htracks := (tracks_init (x := ⌊cells originX resolution wx⌋)
      (y := ⌊cells originY resolution wy⌋) sizeX sizeY resolution originX originY
      defaultValue).run events
    refine (htracks.outside ?_).symm
    rw [Cell.place_run]
    exact hin

/-- A mark that stays in the window is kept, and one that leaves it is gone when it comes back. -/
example :
    (Runs.run Costmap2D.step (Costmap2D.init 3 3 (1 : ℚ) 0 0 0) [.mark (3 / 2) (1 / 2) 254,
        .updateOrigin 1 0, .updateOrigin 0 0]).costOf (3 / 2) (1 / 2) = 254 ∧
      (Runs.run Costmap2D.step (Costmap2D.init 3 3 (1 : ℚ) 0 0 0) [.mark (1 / 2) (1 / 2) 254,
        .updateOrigin 1 0, .updateOrigin 0 0]).costOf (1 / 2) (1 / 2) = 0 := by
  decide +kernel

/-- The centre of a cell of the map is in that cell. -/
theorem worldToMap_mapToWorld {w : Window ℚ} {x y : ℕ} (hpos : 0 < w.resolution) (hx : x < w.sizeX)
    (hy : y < w.sizeY) : w.worldToMap (w.mapToWorld x y).1 (w.mapToWorld x y).2 = some (x, y) := by
  have hfloor (origin : ℚ) (n : ℕ) :
      ¬ origin + (n + 1 / 2) * w.resolution < origin ∧
        (trunc ((origin + (n + 1 / 2) * w.resolution - origin) / w.resolution)).toNat = n := by
    have hn : (0 : ℚ) ≤ n + 1 / 2 := by positivity
    constructor
    · rw [not_lt]
      exact le_add_of_nonneg_right (mul_nonneg hn hpos.le)
    · rw [add_sub_cancel_left, mul_div_cancel_right₀ _ hpos.ne',
        trunc_eq_natCast (n := n) (by linarith) (by linarith)]
      exact Int.toNat_natCast n
  obtain ⟨hltX, htruncX⟩ := hfloor w.originX x
  obtain ⟨hltY, htruncY⟩ := hfloor w.originY y
  have hcentre : w.mapToWorld x y =
      (w.originX + (x + 1 / 2) * w.resolution, w.originY + (y + 1 / 2) * w.resolution) := rfl
  rw [hcentre, worldToMap_exact, if_neg (by simp only [not_or]; exact ⟨hltX, hltY⟩)]
  simp only [htruncX, htruncY]
  rw [if_pos ⟨hx, hy⟩]

end Exact

end Costmap
