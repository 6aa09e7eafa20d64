/-
What `convexFillCells` fills of a polygon.

The polygon is seen as the convex hull of the centres of its vertices' cells.

* `convexFillCells_hull`: every cell with its centre in a convex polygon is filled, and no cell of
  which the closed square does not meet the polygon.

The upper half of the outline passes each column at or above every centre of the polygon, and the
lower half at or below, because a line takes the rounded row.
-/
import WheeltecRos2.Costmap.Polygon
import Mathlib.Algebra.Order.Module.Field
import Mathlib.Analysis.Convex.Jensen

namespace Costmap

open ClosedPath

/-- The centre of a cell. -/
def MapLocation.center (c : MapLocation) : ℚ × ℚ := (c.x, c.y)

def hull (polygon : List MapLocation) : Set (ℚ × ℚ) :=
  convexHull ℚ (MapLocation.center '' {v | v ∈ polygon})

/-- Positive on the left of the edge. -/
def cross (e : MapLocation × MapLocation) (v : MapLocation) : ℤ :=
  ((e.2.x : ℤ) - e.1.x) * ((v.y : ℤ) - e.1.y) - ((e.2.y : ℤ) - e.1.y) * ((v.x : ℤ) - e.1.x)

/-- All vertices are on one side of every edge. -/
def ConvexPolygon (polygon : List MapLocation) : Prop :=
  (∀ e ∈ edges polygon, ∀ v ∈ polygon, 0 ≤ cross e v) ∨
    ∀ e ∈ edges polygon, ∀ v ∈ polygon, cross e v ≤ 0

instance (polygon : List MapLocation) : Decidable (ConvexPolygon polygon) :=
  inferInstanceAs (Decidable ((∀ e ∈ edges polygon, ∀ v ∈ polygon, 0 ≤ cross e v) ∨
    ∀ e ∈ edges polygon, ∀ v ∈ polygon, cross e v ≤ 0))

/-! ### No cell is far from the polygon -/

/-- The point of the straight line is half a cell away at most. -/
theorem along_close (a b : ℕ) {i : ℕ} (hi : i ≤ max a b) :
    ∃ s : ℚ, 0 ≤ s ∧ s ≤ 1 ∧ |((along a b i).1 : ℚ) - s * a| ≤ 1 / 2 ∧
      |((along a b i).2 : ℚ) - s * b| ≤ 1 / 2 := by
  have hclose {da db j : ℕ} (hda : 0 < da) :
      |(rise da db j : ℚ) - (j / da : ℚ) * db| ≤ 1 / 2 := by
    have hpos : (0 : ℚ) < da := by exact_mod_cast hda
    have h : 2 * |(j : ℚ) * db - rise da db j * da| ≤ da := by
      exact_mod_cast rise_close (i := j) hda
    have heq : (rise da db j : ℚ) - (j / da : ℚ) * db =
        -(((j : ℚ) * db - rise da db j * da) / da) := by
      field_simp
      ring
    rw [heq, abs_neg, abs_div, abs_of_pos hpos, div_le_iff₀ hpos]
    linarith
  have hunit {da j : ℕ} (hda : 0 < da) (hj : j ≤ da) :
      0 ≤ (j / da : ℚ) ∧ (j / da : ℚ) ≤ 1 ∧ |(j : ℚ) - (j / da : ℚ) * da| ≤ 1 / 2 := by
    have hpos : (0 : ℚ) < da := by exact_mod_cast hda
    refine ⟨by positivity, (div_le_one hpos).mpr (by exact_mod_cast hj), ?_⟩
    rw [div_mul_cancel₀ _ hpos.ne', sub_self, abs_zero]
    norm_num
  by_cases h : b ≤ a
  · simp only [along, if_pos h]
    rcases Nat.eq_zero_or_pos a with rfl | ha
    · obtain rfl : b = 0 := by omega
      obtain rfl : i = 0 := by omega
      exact ⟨0, le_rfl, zero_le_one, by norm_num, by norm_num [rise]⟩
    · obtain ⟨hs, hs', hx⟩ := hunit ha (show i ≤ a by omega)
      exact ⟨i / a, hs, hs', hx, hclose ha⟩
  · simp only [along, if_neg h]
    have hb : 0 < b := by omega
    obtain ⟨hs, hs', hy⟩ := hunit hb (show i ≤ b by omega)
    exact ⟨i / b, hs, hs', hclose hb, hy⟩

/-- The points half a cell away at most. -/
def around (s : Set (ℚ × ℚ)) : Set (ℚ × ℚ) :=
  {z | ∃ h ∈ s, |z.1 - h.1| ≤ 1 / 2 ∧ |z.2 - h.2| ≤ 1 / 2}

theorem convex_around {s : Set (ℚ × ℚ)} (hs : Convex ℚ s) : Convex ℚ (around s) := by
  intro z ⟨h, hmem, hx, hy⟩ z' ⟨h', hmem', hx', hy'⟩ a b ha hb hab
  have hmix {u v u' v' : ℚ} (hu : |u - v| ≤ 1 / 2) (hu' : |u' - v'| ≤ 1 / 2) :
      |(a * u + b * u') - (a * v + b * v')| ≤ 1 / 2 :=
    calc
      |(a * u + b * u') - (a * v + b * v')| = |a * (u - v) + b * (u' - v')| := by
        congr 1
        ring
      _ ≤ |a * (u - v)| + |b * (u' - v')| := abs_add_le _ _
      _ = a * |u - v| + b * |u' - v'| := by
        rw [abs_mul, abs_mul, abs_of_nonneg ha, abs_of_nonneg hb]
      _ ≤ a * (1 / 2) + b * (1 / 2) :=
        add_le_add (mul_le_mul_of_nonneg_left hu ha) (mul_le_mul_of_nonneg_left hu' hb)
      _ = 1 / 2 := by rw [← add_mul, hab, one_mul]
  exact ⟨a • h + b • h', hs hmem hmem' ha hb hab, hmix hx hx', hmix hy hy'⟩

section Hull

variable {sizeX : ℕ} {p q c : MapLocation} {polygon : List MapLocation}

theorem gatherLine_around (hp : p.x < sizeX) (hq : q.x < sizeX) (hc : c ∈ gatherLine sizeX p q) :
    c.center ∈ around (segment ℚ p.center q.center) := by
  obtain ⟨i, hi, hcell⟩ := (mem_gatherLine hp hq).mp hc
  rw [cellAt, lineCell_eq] at hcell
  obtain ⟨hcx, hcy⟩ := Prod.mk.inj hcell
  obtain ⟨s, hs, hs', hx, hy⟩ := along_close _ _ hi
  have hcoord {u v w : ℕ} {k : ℕ}
      (heq : (u : ℤ) + sign ((v : ℤ) - u) * k = w)
      (hk : |(k : ℚ) - s * ((v : ℤ) - u).natAbs| ≤ 1 / 2) :
      |(w : ℚ) - ((1 - s) * u + s * v)| ≤ 1 / 2 := by
    have hsign : (sign ((v : ℤ) - u) : ℚ) * (((v : ℤ) - u).natAbs : ℚ) = (v : ℚ) - u := by
      have h := congrArg (fun k : ℤ => (k : ℚ)) (sign_mul_natAbs ((v : ℤ) - u))
      simpa only [Int.cast_mul, Int.cast_sub, Int.cast_natCast] using h
    have hw : (u : ℚ) + sign ((v : ℤ) - u) * k = w := by exact_mod_cast heq
    have habs : |(sign ((v : ℤ) - u) : ℚ)| = 1 := by exact_mod_cast abs_sign ((v : ℤ) - u)
    calc
      |(w : ℚ) - ((1 - s) * u + s * v)| =
          |(sign ((v : ℤ) - u) : ℚ) * (k - s * ((v : ℤ) - u).natAbs)| := by
        congr 1
        rw [← hw, mul_sub, mul_left_comm, hsign]
        ring
      _ = |(k : ℚ) - s * ((v : ℤ) - u).natAbs| := by rw [abs_mul, habs, one_mul]
      _ ≤ 1 / 2 := hk
  refine ⟨(1 - s) • p.center + s • q.center,
    ⟨1 - s, s, by linarith, hs, by ring, rfl⟩, hcoord hcx hx, hcoord hcy hy⟩

theorem center_mem_hull (hv : c ∈ polygon) : c.center ∈ hull polygon :=
  subset_convexHull ℚ _ ⟨c, hv, rfl⟩

theorem outline_around (hmap : ∀ v ∈ polygon, v.x < sizeX)
    (hc : c ∈ polygonOutlineCells sizeX polygon) : c.center ∈ around (hull polygon) := by
  obtain ⟨e, he, hc⟩ := List.mem_flatMap.mp hc
  obtain ⟨hfst, hsnd⟩ := mem_of_mem_edges he
  obtain ⟨h, hh, hx, hy⟩ := gatherLine_around (hmap _ hfst) (hmap _ hsnd) hc
  exact ⟨h, (convex_convexHull ℚ _).segment_subset (center_mem_hull hfst) (center_mem_hull hsnd) hh,
    hx, hy⟩

/-- Between two cells of one column. -/
theorem center_mem_segment {a b : MapLocation} (ha : a.x = c.x) (hb : b.x = c.x)
    (hac : a.y ≤ c.y) (hcb : c.y ≤ b.y) : c.center ∈ segment ℚ a.center b.center := by
  have hmem : (c.y : ℚ) ∈ segment ℚ (a.y : ℚ) (b.y : ℚ) := by
    rw [segment_eq_Icc (by exact_mod_cast hac.trans hcb)]
    exact ⟨by exact_mod_cast hac, by exact_mod_cast hcb⟩
  obtain ⟨s, t, hs, ht, hst, hy⟩ := hmem
  refine ⟨s, t, hs, ht, hst, ?_⟩
  ext
  · show s * (a.x : ℚ) + t * (b.x : ℚ) = c.x
    rw [ha, hb, ← add_mul, hst, one_mul]
  · exact hy

theorem spanned_around (hmap : ∀ v ∈ polygon, v.x < sizeX)
    (hc : Spanned (polygonOutlineCells sizeX polygon) c) : c.center ∈ around (hull polygon) := by
  obtain ⟨a, ha, b, hb, hax, hbx, hac, hcb⟩ := hc
  exact (convex_around (convex_convexHull ℚ _)).segment_subset (outline_around hmap ha)
    (outline_around hmap hb) (center_mem_segment hax hbx hac hcb)

end Hull

/-! ### Every centre in the polygon is filled -/

section Edge

variable {a u : ℕ} {d t : ℤ}

theorem le_of_mul_le {r b : ℕ} (ha : 0 < a) (hu : u ≤ a) (h : r * a ≤ u * b) : r ≤ b := by
  refine Nat.le_of_mul_le_mul_right (h.trans ?_) ha
  rw [Nat.mul_comm b]
  exact Nat.mul_le_mul_right b hu

/-- Where the straight line is not above the row `t`, some cell is not. -/
theorem exists_row_le (ha : 0 < a) (hu : u ≤ a) (h : d * u ≤ t * a) :
    ∃ i ≤ max a d.natAbs, (along a d.natAbs i).1 = u ∧ sign d * (along a d.natAbs i).2 ≤ t := by
  rcases le_or_gt 0 d with hd | hd
  · have ht : 0 ≤ t := by
      refine le_of_mul_le_mul_right ?_ (show (0 : ℤ) < a by omega)
      rw [zero_mul]
      exact (mul_nonneg hd (by omega)).trans h
    lift d to ℕ using hd
    lift t to ℕ using ht
    have hur : u * d ≤ t * a := by
      rw [Nat.mul_comm]
      exact_mod_cast h
    obtain ⟨i, hi, hcolumn, hrow⟩ := exists_along_le hu hur
    refine ⟨i, hi, hcolumn, ?_⟩
    rw [Int.natAbs_natCast]
    rcases sign_eq d with hsign | hsign <;> rw [hsign] <;> omega
  · obtain ⟨b, rfl⟩ : ∃ b : ℕ, d = -b := ⟨d.natAbs, by omega⟩
    have hsign : sign (-b) = -1 := if_neg (by omega)
    have hru : (-t).toNat * a ≤ u * b := by
      rcases le_or_gt 0 t with ht | ht
      · rw [show (-t).toNat = 0 by omega, Nat.zero_mul]
        exact Nat.zero_le _
      · obtain ⟨r, rfl⟩ : ∃ r : ℕ, t = -r := ⟨t.natAbs, by omega⟩
        rw [neg_mul, neg_mul, neg_le_neg_iff, mul_comm (b : ℤ)] at h
        rw [neg_neg, Int.toNat_natCast]
        exact_mod_cast h
    obtain ⟨i, hi, hcolumn, hrow⟩ := exists_le_along hu (le_of_mul_le ha hu hru) hru
    rw [hsign, Int.natAbs_neg, Int.natAbs_natCast]
    exact ⟨i, hi, hcolumn, by omega⟩

/-- Where the straight line is not below the row `t`, some cell is not. -/
theorem exists_le_row (ha : 0 < a) (hu : u ≤ a) (h : t * a ≤ d * u) :
    ∃ i ≤ max a d.natAbs, (along a d.natAbs i).1 = u ∧ t ≤ sign d * (along a d.natAbs i).2 := by
  rcases le_or_gt d 0 with hd | hd
  · have ht : t ≤ 0 := by
      refine le_of_mul_le_mul_right ?_ (show (0 : ℤ) < a by omega)
      rw [zero_mul]
      exact h.trans (mul_nonpos_of_nonpos_of_nonneg hd (by omega))
    have hsign : sign d = -1 := if_neg (by omega)
    obtain ⟨b, rfl⟩ : ∃ b : ℕ, d = -b := ⟨d.natAbs, by omega⟩
    obtain ⟨r, rfl⟩ : ∃ r : ℕ, t = -r := ⟨t.natAbs, by omega⟩
    have hur : u * b ≤ r * a := by
      rw [neg_mul, neg_mul, neg_le_neg_iff, mul_comm (b : ℤ)] at h
      exact_mod_cast h
    obtain ⟨i, hi, hcolumn, hrow⟩ := exists_along_le hu hur
    rw [hsign, Int.natAbs_neg, Int.natAbs_natCast]
    exact ⟨i, hi, hcolumn, by omega⟩
  · have hsign : sign d = 1 := if_pos hd
    lift d to ℕ using hd.le
    have hru : t.toNat * a ≤ u * d := by
      rcases le_or_gt t 0 with ht | ht
      · rw [Int.toNat_of_nonpos ht, Nat.zero_mul]
        exact Nat.zero_le _
      · lift t to ℕ using ht.le
        rw [mul_comm (d : ℤ)] at h
        rw [Int.toNat_natCast]
        exact_mod_cast h
    obtain ⟨i, hi, hcolumn, hrow⟩ := exists_le_along hu (le_of_mul_le ha hu hru) hru
    rw [hsign, Int.natAbs_natCast]
    exact ⟨i, hi, hcolumn, by omega⟩

end Edge

section Inside

variable {sizeX : ℕ} {p q c : MapLocation} {polygon : List MapLocation}

/-- The slope of an edge at a column, both ways times the width of the edge. -/
theorem exists_mem_below (hp : p.x < sizeX) (hq : q.x < sizeX) (hpq : p.x ≠ q.x)
    (hx : Between MapLocation.x c.x p q)
    (h : ((q.y : ℤ) - p.y) * ((c.x : ℤ) - p.x).natAbs ≤
      ((c.y : ℤ) - p.y) * ((q.x : ℤ) - p.x).natAbs) :
    ∃ a ∈ gatherLine sizeX p q, a.x = c.x ∧ a.y ≤ c.y := by
  obtain ⟨i, hi, hcolumn, hrow⟩ := exists_row_le (by omega) (column_eq hx).1 h
  obtain ⟨a, ha, hax, hay⟩ := mem_gatherLine_of_along hp hq hx hi hcolumn
  exact ⟨a, ha, hax, by omega⟩

theorem exists_mem_above (hp : p.x < sizeX) (hq : q.x < sizeX) (hpq : p.x ≠ q.x)
    (hx : Between MapLocation.x c.x p q)
    (h : ((c.y : ℤ) - p.y) * ((q.x : ℤ) - p.x).natAbs ≤
      ((q.y : ℤ) - p.y) * ((c.x : ℤ) - p.x).natAbs) :
    ∃ b ∈ gatherLine sizeX p q, b.x = c.x ∧ c.y ≤ b.y := by
  obtain ⟨i, hi, hcolumn, hrow⟩ := exists_le_row (by omega) (column_eq hx).1 h
  obtain ⟨b, hb, hbx, hby⟩ := mem_gatherLine_of_along hp hq hx hi hcolumn
  exact ⟨b, hb, hbx, by omega⟩

/-- An edge to the right is below what is on its left. -/
theorem cross_right (hpq : p.x < q.x) (hx : p.x ≤ c.x) :
    cross (p, q) c = ((c.y : ℤ) - p.y) * ((q.x : ℤ) - p.x).natAbs -
      ((q.y : ℤ) - p.y) * ((c.x : ℤ) - p.x).natAbs := by
  rw [cross, Int.natAbs_of_nonneg (by omega), Int.natAbs_of_nonneg (by omega), mul_comm]

theorem cross_left (hpq : q.x < p.x) (hx : c.x ≤ p.x) :
    cross (p, q) c = ((q.y : ℤ) - p.y) * ((c.x : ℤ) - p.x).natAbs -
      ((c.y : ℤ) - p.y) * ((q.x : ℤ) - p.x).natAbs := by
  have hqp : (((q.x : ℤ) - p.x).natAbs : ℤ) = p.x - q.x := by omega
  have hcp : (((c.x : ℤ) - p.x).natAbs : ℤ) = p.x - c.x := by omega
  rw [cross, hqp, hcp]
  ring

/-- Some vertex is as far in a direction as a point of the hull. -/
theorem exists_vertex_le (hc : c.center ∈ hull polygon) (k l : ℤ) :
    ∃ v ∈ polygon, k * (v.x : ℤ) + l * (v.y : ℤ) ≤ k * (c.x : ℤ) + l * (c.y : ℤ) := by
  let f : ℚ × ℚ →ₗ[ℚ] ℚ := (k : ℚ) • LinearMap.fst ℚ ℚ ℚ + (l : ℚ) • LinearMap.snd ℚ ℚ ℚ
  obtain ⟨z, ⟨v, hv, rfl⟩, hz⟩ :=
    (f.concaveOn convex_univ).exists_le_of_mem_convexHull (Set.subset_univ _) hc
  have hz : (k : ℚ) * v.x + l * v.y ≤ k * c.x + l * c.y := hz
  exact ⟨v, hv, by exact_mod_cast hz⟩

theorem cross_hull_nonneg (hc : c.center ∈ hull polygon) {e : MapLocation × MapLocation}
    (h : ∀ v ∈ polygon, 0 ≤ cross e v) : 0 ≤ cross e c := by
  obtain ⟨v, hv, hle⟩ := exists_vertex_le hc (-((e.2.y : ℤ) - e.1.y)) ((e.2.x : ℤ) - e.1.x)
  have hnonneg := h v hv
  rw [cross] at hnonneg ⊢
  linarith

theorem cross_hull_nonpos (hc : c.center ∈ hull polygon) {e : MapLocation × MapLocation}
    (h : ∀ v ∈ polygon, cross e v ≤ 0) : cross e c ≤ 0 := by
  obtain ⟨v, hv, hle⟩ := exists_vertex_le hc ((e.2.y : ℤ) - e.1.y) (-((e.2.x : ℤ) - e.1.x))
  have hnonpos := h v hv
  rw [cross] at hnonpos ⊢
  linarith

theorem vertex_mem_outline (hmap : ∀ v ∈ polygon, v.x < sizeX) (hc : c ∈ polygon) :
    c ∈ polygonOutlineCells sizeX polygon := by
  obtain ⟨e, he, hfst⟩ : ∃ e ∈ edges polygon, e.1 = c := by
    rcases polygon with _ | ⟨first, rest⟩
    · exact absurd hc List.not_mem_nil
    · rw [edges_cons]
      exact exists_mem_path first hc
  obtain ⟨hp, hq⟩ := mem_of_mem_edges he
  refine List.mem_flatMap.mpr ⟨e, he, ?_⟩
  refine (mem_gatherLine (hmap _ hp) (hmap _ hq)).mpr ⟨0, Nat.zero_le _, ?_⟩
  rw [cellAt, lineCell_zero, hfst]

/-- The outline passes a column to the right and to the left. -/
theorem exists_passing {x : ℕ} {u w : MapLocation} (hu : u ∈ polygon) (hw : w ∈ polygon)
    (hux : u.x ≤ x) (hxw : x ≤ w.x) (huw : u.x < w.x) :
    (∃ e ∈ edges polygon, e.1.x < e.2.x ∧ e.1.x ≤ x ∧ x ≤ e.2.x) ∧
      ∃ e ∈ edges polygon, e.2.x < e.1.x ∧ e.2.x ≤ x ∧ x ≤ e.1.x := by
  rcases polygon with _ | ⟨first, rest⟩
  · exact absurd hu List.not_mem_nil
  rw [edges_cons]
  -- the columns up to `x` if some vertex is after it, and otherwise the columns before it
  by_cases hafter : x < w.x
  · obtain ⟨⟨e, he, hfst, hsnd⟩, e', he', hfst', hsnd'⟩ :=
      crossings (P := fun v => v.x ≤ x) hu hw hux (by omega)
    exact ⟨⟨e, he, by omega, by omega, by omega⟩, e', he', by omega, by omega, by omega⟩
  · obtain ⟨⟨e, he, hfst, hsnd⟩, e', he', hfst', hsnd'⟩ :=
      crossings (P := fun v => v.x < x) hu hw (by omega) (by omega)
    exact ⟨⟨e, he, by omega, by omega, by omega⟩, e', he', by omega, by omega, by omega⟩

theorem exists_sides (hc : c.center ∈ hull polygon) (h : ¬∀ v ∈ polygon, v.x = c.x) :
    ∃ u ∈ polygon, ∃ w ∈ polygon, u.x ≤ c.x ∧ c.x ≤ w.x ∧ u.x < w.x := by
  obtain ⟨u, hu, hux⟩ := exists_vertex_le hc 1 0
  obtain ⟨w, hw, hxw⟩ := exists_vertex_le hc (-1) 0
  simp only [not_forall] at h
  obtain ⟨v, hv, hvx⟩ := h
  rcases Nat.lt_or_gt_of_ne hvx with hlt | hgt
  · exact ⟨v, hv, w, hw, by omega, by omega, by omega⟩
  · exact ⟨u, hu, v, hv, by omega, by omega, by omega⟩

theorem hull_spanned (hmap : ∀ v ∈ polygon, v.x < sizeX) (hconvex : ConvexPolygon polygon)
    (hc : c.center ∈ hull polygon) : Spanned (polygonOutlineCells sizeX polygon) c := by
  by_cases hcolumn : ∀ v ∈ polygon, v.x = c.x
  · obtain ⟨a, ha, hac⟩ := exists_vertex_le hc 0 1
    obtain ⟨b, hb, hcb⟩ := exists_vertex_le hc 0 (-1)
    exact ⟨a, vertex_mem_outline hmap ha, b, vertex_mem_outline hmap hb, hcolumn a ha,
      hcolumn b hb, by omega, by omega⟩
  · obtain ⟨u, hu, w, hw, hux, hxw, huw⟩ := exists_sides hc hcolumn
    obtain ⟨⟨e, he, hlt, hfst, hsnd⟩, e', he', hlt', hsnd', hfst'⟩ :=
      exists_passing hu hw hux hxw huw
    have hp := hmap _ (mem_of_mem_edges he).1
    have hq := hmap _ (mem_of_mem_edges he).2
    have hp' := hmap _ (mem_of_mem_edges he').1
    have hq' := hmap _ (mem_of_mem_edges he').2
    have hbetween : Between MapLocation.x c.x e.1 e.2 := .inl ⟨hfst, hsnd⟩
    have hbetween' : Between MapLocation.x c.x e'.1 e'.2 := .inr ⟨hsnd', hfst'⟩
    have hcross := cross_right hlt hfst
    have hcross' := cross_left hlt' hfst'
    rcases hconvex with hleft | hright
    · have hnonneg := cross_hull_nonneg hc (hleft e he)
      have hnonneg' := cross_hull_nonneg hc (hleft e' he')
      obtain ⟨a, ha, hax, hac⟩ := exists_mem_below hp hq hlt.ne hbetween (by linarith)
      obtain ⟨b, hb, hbx, hcb⟩ := exists_mem_above hp' hq' hlt'.ne' hbetween' (by linarith)
      exact ⟨a, List.mem_flatMap.mpr ⟨e, he, ha⟩, b, List.mem_flatMap.mpr ⟨e', he', hb⟩,
        hax, hbx, hac, hcb⟩
    · have hnonpos := cross_hull_nonpos hc (hright e he)
      have hnonpos' := cross_hull_nonpos hc (hright e' he')
      obtain ⟨a, ha, hax, hac⟩ := exists_mem_below hp' hq' hlt'.ne' hbetween' (by linarith)
      obtain ⟨b, hb, hbx, hcb⟩ := exists_mem_above hp hq hlt.ne hbetween (by linarith)
      exact ⟨a, List.mem_flatMap.mpr ⟨e', he', ha⟩, b, List.mem_flatMap.mpr ⟨e, he, hb⟩,
        hax, hbx, hac, hcb⟩

end Inside

/-- The cells with their centre in the polygon are filled, and no cell that the polygon does not
meet. -/
theorem convexFillCells_hull (sizeX : ℕ) (polygon : List MapLocation)
    (hmap : ∀ v ∈ polygon, v.x < sizeX) (hlength : 3 ≤ polygon.length) :
    (ConvexPolygon polygon →
      ∀ c : MapLocation, c.center ∈ hull polygon → c ∈ convexFillCells sizeX polygon) ∧
    ∀ c ∈ convexFillCells sizeX polygon,
      ∃ h ∈ hull polygon, |(c.x : ℚ) - h.1| ≤ 1 / 2 ∧ |(c.y : ℚ) - h.2| ≤ 1 / 2 := by
  constructor
  · intro hconvex c hc
    exact (mem_convexFillCells hmap hlength).mpr (hull_spanned hmap hconvex hc)
  · intro c hc
    exact spanned_around hmap ((mem_convexFillCells hmap hlength).mp hc)

/-- The middle of a square. -/
theorem convexFillCells_hull_square :
    (⟨2, 2⟩ : MapLocation) ∈ convexFillCells 9 [⟨0, 0⟩, ⟨4, 0⟩, ⟨4, 4⟩, ⟨0, 4⟩] := by
  refine (convexFillCells_hull 9 [⟨0, 0⟩, ⟨4, 0⟩, ⟨4, 4⟩, ⟨0, 4⟩] (by decide) (by decide)).1
    (by decide) ⟨2, 2⟩ ?_
  refine (convex_convexHull ℚ _).segment_subset
    (center_mem_hull (c := ⟨0, 0⟩) List.mem_cons_self)
    (center_mem_hull (c := ⟨4, 4⟩) (by simp)) ⟨1 / 2, 1 / 2, by norm_num, by norm_num,
      by norm_num, ?_⟩
  ext <;> norm_num [MapLocation.center]

end Costmap
