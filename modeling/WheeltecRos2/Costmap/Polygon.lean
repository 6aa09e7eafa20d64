/-
Filling a polygon of `Costmap2D`.

`convexFillCells` draws the outline of the polygon, sorts its cells by column, and then fills each
column from the lowest cell of the outline to the highest.  It adds the new cells to the list it
is going through.

* `setConvexPolygonCost_spec`: a polygon with a vertex off the map leaves the map as it is, and
  any other one gets the cost in exactly the cells that are in a column between two cells of its
  outline.

Each column has two cells of the outline because the outline is closed, so the pair the loop reads
first is always of its column.
-/
import WheeltecRos2.Costmap.Raytrace
import WheeltecRos2.Costmap.Window
import WheeltecRos2.Lib.ClosedPath
import WheeltecRos2.Lib.Gnome

namespace Costmap

open ClosedPath

structure MapLocation where
  x : ℕ
  y : ℕ
  deriving DecidableEq

def indexToCells (sizeX index : ℕ) : MapLocation :=
  ⟨index - index / sizeX * sizeX, index / sizeX⟩

/-- What the cell gatherer gets of a line, which has no limits (`lengths_eq_none`). -/
def gatherLine (sizeX : ℕ) (p q : MapLocation) : List MapLocation :=
  (lineOffsets sizeX (.none p.x p.y) q.x q.y).map fun offset => indexToCells sizeX offset.toNat

/-- The last edge closes the polygon. -/
def edges (polygon : List MapLocation) : List (MapLocation × MapLocation) :=
  polygon.zip polygon.tail ++
    match polygon.getLast?, polygon.head? with
    | some last, some first => [(last, first)]
    | _, _ => []

def polygonOutlineCells (sizeX : ℕ) (polygon : List MapLocation) : List MapLocation :=
  (edges polygon).flatMap fun e => gatherLine sizeX e.1 e.2

/-- The rest of a column, and what is left after it. -/
def widen (x : ℕ) (minPt maxPt : MapLocation) :
    List MapLocation → MapLocation × MapLocation × List MapLocation
  | [] => (minPt, maxPt, [])
  | c :: rest =>
    if c.x = x then
      if c.y < minPt.y then widen x c maxPt rest
      else if maxPt.y < c.y then widen x minPt c rest
      else widen x minPt maxPt rest
    else (minPt, maxPt, c :: rest)

def fillColumn (x : ℕ) (minPt maxPt : MapLocation) : List MapLocation :=
  (List.range' minPt.y (maxPt.y + 1 - minPt.y)).map fun y => ⟨x, y⟩

/-- The cells that `n` columns from `x` on add, with `rest` the cells from the index on. -/
def fillColumns : (n x : ℕ) → (rest : List MapLocation) → List MapLocation
  | 0, _, _ => []
  | n + 1, x, a :: b :: rest =>
    let (minPt, maxPt) := if a.y < b.y then (a, b) else (b, a)
    let (minPt, maxPt, rest) := widen x minPt maxPt rest
    let added := fillColumn x minPt maxPt
    added ++ fillColumns n (x + 1) (rest ++ added)
  | _ + 1, _, _ => []

def convexFillCells (sizeX : ℕ) (polygon : List MapLocation) : List MapLocation :=
  if polygon.length < 3 then []
  else
    let polygonCells := Gnome.sort (·.x) (polygonOutlineCells sizeX polygon)
    match polygonCells.head?, polygonCells.getLast? with
    | some first, some last =>
      polygonCells ++ fillColumns (last.x + 1 - first.x) first.x polygonCells
    | _, _ => polygonCells

def Costmap2D.setConvexPolygonCost {F : Type} [Double F] (map : Costmap2D F)
    (polygon : List (F × F)) (costValue : UInt8) : Bool × Costmap2D F :=
  match polygon.mapM fun p => map.worldToMap p.1 p.2 with
  | none => (false, map)
  | some mapPolygon =>
    (true, (convexFillCells map.sizeX (mapPolygon.map fun loc => ⟨loc.1, loc.2⟩)).foldl
      (fun map cell => map.setCost cell.x cell.y costValue) map)

/-! ### One column -/

section Columns

variable {x n : ℕ} {a b c minPt maxPt : MapLocation} {l rest pushed : List MapLocation}

theorem mem_fillColumn :
    c ∈ fillColumn x minPt maxPt ↔ c.x = x ∧ minPt.y ≤ c.y ∧ c.y ≤ maxPt.y := by
  rw [fillColumn, List.mem_map]
  constructor
  · rintro ⟨y, hy, rfl⟩
    rw [List.mem_range'_1] at hy
    exact ⟨rfl, by show minPt.y ≤ y; omega, by show y ≤ maxPt.y; omega⟩
  · rintro ⟨rfl, hmin, hmax⟩
    exact ⟨c.y, List.mem_range'_1.mpr (by omega), rfl⟩

/-- The lowest and the highest cell of a column. -/
structure Extremes (l : List MapLocation) (minPt maxPt : MapLocation) : Prop where
  min_mem : minPt ∈ l
  max_mem : maxPt ∈ l
  bounds : ∀ c ∈ l, minPt.y ≤ c.y ∧ c.y ≤ maxPt.y

theorem extremes_pair (a b : MapLocation) :
    Extremes [a, b] (if a.y < b.y then (a, b) else (b, a)).1
      (if a.y < b.y then (a, b) else (b, a)).2 := by
  by_cases h : a.y < b.y
  · simp only [if_pos h]
    exact ⟨by simp, by simp, by simp; omega⟩
  · simp only [if_neg h]
    exact ⟨by simp, by simp, by simp; omega⟩

theorem Extremes.append_singleton {m M : MapLocation} (h : Extremes l minPt maxPt)
    (hm : m = minPt ∨ m = c) (hM : M = maxPt ∨ M = c) (hmin : m.y ≤ minPt.y) (hmax : maxPt.y ≤ M.y)
    (hc : m.y ≤ c.y ∧ c.y ≤ M.y) : Extremes (l ++ [c]) m M := by
  refine ⟨?_, ?_, ?_⟩
  · rcases hm with rfl | rfl
    · exact List.mem_append_left _ h.min_mem
    · exact List.mem_append_right _ (List.mem_singleton_self _)
  · rcases hM with rfl | rfl
    · exact List.mem_append_left _ h.max_mem
    · exact List.mem_append_right _ (List.mem_singleton_self _)
  · intro d hd
    rcases List.mem_append.mp hd with hd | hd
    · have hbounds := h.bounds d hd
      omega
    · rw [List.mem_singleton.mp hd]
      exact hc

theorem widen_spec (h : Extremes l minPt maxPt) (column : List MapLocation)
    (hcolumn : ∀ c ∈ column, c.x = x) (hrest : ∀ c ∈ rest.head?, c.x ≠ x) :
    ∃ m M, widen x minPt maxPt (column ++ rest) = (m, M, rest) ∧ Extremes (l ++ column) m M := by
  induction column generalizing l minPt maxPt with
  | nil =>
    refine ⟨minPt, maxPt, ?_, by rwa [List.append_nil]⟩
    rcases rest with _ | ⟨c, rest⟩
    · rfl
    · rw [List.nil_append, widen, if_neg (hrest c rfl)]
  | cons c column ih =>
    have hlow := (h.bounds maxPt h.max_mem).1
    have htail : ∀ d ∈ column, d.x = x := fun d hd => hcolumn d (List.mem_cons_of_mem c hd)
    rw [List.cons_append, widen, if_pos (hcolumn c List.mem_cons_self)]
    rw [show l ++ c :: column = (l ++ [c]) ++ column by rw [List.append_assoc]; rfl]
    by_cases hmin : c.y < minPt.y
    · rw [if_pos hmin]
      exact ih (h.append_singleton (.inr rfl) (.inl rfl) hmin.le le_rfl ⟨le_rfl, by omega⟩) htail
    · rw [if_neg hmin]
      by_cases hmax : maxPt.y < c.y
      · rw [if_pos hmax]
        exact ih (h.append_singleton (.inl rfl) (.inr rfl) le_rfl hmax.le ⟨by omega, le_rfl⟩) htail
      · rw [if_neg hmax]
        exact ih (h.append_singleton (.inl rfl) (.inl rfl) le_rfl le_rfl
          ⟨by omega, by omega⟩) htail

/-! ### All columns -/

/-- In a column between two of the cells. -/
def Spanned (l : List MapLocation) (c : MapLocation) : Prop :=
  ∃ a ∈ l, ∃ b ∈ l, a.x = c.x ∧ b.x = c.x ∧ a.y ≤ c.y ∧ c.y ≤ b.y

theorem Extremes.spanned (h : Extremes l minPt maxPt) (hcolumn : ∀ c ∈ l, c.x = x) :
    c ∈ fillColumn x minPt maxPt ↔ Spanned l c := by
  rw [mem_fillColumn]
  constructor
  · rintro ⟨rfl, hmin, hmax⟩
    exact ⟨minPt, h.min_mem, maxPt, h.max_mem, hcolumn _ h.min_mem, hcolumn _ h.max_mem, hmin, hmax⟩
  · rintro ⟨a, ha, b, hb, hac, -, hmin, hmax⟩
    have hlow := (h.bounds a ha).1
    have hhigh := (h.bounds b hb).2
    exact ⟨hac.symm.trans (hcolumn a ha), by omega, by omega⟩

/-- The cells of the first column are the first ones of a sorted list. -/
theorem exists_column (hsorted : l.Pairwise (·.x ≤ ·.x)) (hx : ∀ c ∈ l, x ≤ c.x) :
    ∃ column later, l = column ++ later ∧ (∀ c ∈ column, c.x = x) ∧ (∀ c ∈ later, x + 1 ≤ c.x) ∧
      column.length = l.countP (·.x = x) := by
  induction l with
  | nil => exact ⟨[], [], rfl, by simp, by simp, rfl⟩
  | cons c l ih =>
    obtain ⟨hle, hsorted⟩ := List.pairwise_cons.mp hsorted
    by_cases hc : c.x = x
    · obtain ⟨column, later, rfl, hcolumn, hlater, hlength⟩ :=
        ih hsorted fun d hd => hx d (List.mem_cons_of_mem c hd)
      refine ⟨c :: column, later, rfl, ?_, hlater, ?_⟩
      · simpa [hc] using hcolumn
      · rw [List.countP_cons_of_pos (by simpa using hc), List.length_cons, hlength]
    · have hlt := hx c List.mem_cons_self
      refine ⟨[], c :: l, rfl, by simp, ?_, ?_⟩
      · intro d hd
        rcases List.mem_cons.mp hd with rfl | hd
        · omega
        · have := hle d hd
          omega
      · symm
        rw [List.length_nil, List.countP_eq_zero]
        intro d hd
        rw [decide_eq_true_eq]
        rcases List.mem_cons.mp hd with rfl | hd
        · exact hc
        · have := hle d hd
          omega

/-- What two cells of a column span is not changed by the cells of other columns. -/
theorem spanned_append {column later : List MapLocation} (hcolumn : ∀ d ∈ column, d.x = x)
    (hlater : ∀ d ∈ later, x + 1 ≤ d.x) :
    Spanned (column ++ later) c ↔ Spanned column c ∨ Spanned later c := by
  constructor
  · rintro ⟨p, hp, q, hq, hpc, hqc, h⟩
    rcases List.mem_append.mp hp with hp | hp <;> rcases List.mem_append.mp hq with hq | hq
    · exact .inl ⟨p, hp, q, hq, hpc, hqc, h⟩
    · have := hcolumn p hp
      have := hlater q hq
      omega
    · have := hcolumn q hq
      have := hlater p hp
      omega
    · exact .inr ⟨p, hp, q, hq, hpc, hqc, h⟩
  · rintro (⟨p, hp, q, hq, h⟩ | ⟨p, hp, q, hq, h⟩)
    · exact ⟨p, List.mem_append_left _ hp, q, List.mem_append_left _ hq, h⟩
    · exact ⟨p, List.mem_append_right _ hp, q, List.mem_append_right _ hq, h⟩

/-- The cells that were added before are of columns before `x`, so a column ends with its cells of
the outline. -/
theorem mem_fillColumns (n x : ℕ) (pushed : List MapLocation)
    (hsorted : l.Pairwise (·.x ≤ ·.x))
    (hx : ∀ c ∈ l, x ≤ c.x ∧ c.x < x + n)
    (htwo : ∀ i, x ≤ i → i < x + n → 2 ≤ l.countP (·.x = i)) (hpushed : ∀ c ∈ pushed, c.x < x) :
    c ∈ fillColumns n x (l ++ pushed) ↔ Spanned l c := by
  induction n generalizing x l pushed c with
  | zero =>
    constructor
    · intro h
      exact absurd h List.not_mem_nil
    · rintro ⟨a, ha, -⟩
      have := hx a ha
      omega
  | succ n ih =>
    obtain ⟨column, later, rfl, hcolumn, hlater, hlength⟩ :=
      exists_column hsorted fun c hc => (hx c hc).1
    have htwo' := htwo x le_rfl (by omega)
    rw [← hlength] at htwo'
    obtain ⟨a, b, column, rfl⟩ : ∃ a b column', column = a :: b :: column' := by
      rcases column with _ | ⟨a, _ | ⟨b, column⟩⟩
      · exact absurd htwo' (by simp)
      · exact absurd htwo' (by simp)
      · exact ⟨a, b, column, rfl⟩
    -- behind the column come later columns or the cells added for earlier ones
    have hnext : ∀ c ∈ (later ++ pushed).head?, c.x ≠ x := by
      intro c hc
      rcases List.mem_append.mp (List.mem_of_mem_head? hc) with hc | hc
      · have := hlater c hc
        omega
      · have := hpushed c hc
        omega
    obtain ⟨m, M, hwiden, hextremes⟩ := widen_spec (extremes_pair a b) column
      (fun c hc => hcolumn c (by simp [hc])) hnext
    have hadded : ∀ c, c ∈ fillColumn x m M ↔ Spanned (a :: b :: column) c :=
      fun c => hextremes.spanned hcolumn
    -- the cells of this column join those behind the list
    have hrest : ∀ c, c ∈ fillColumns n (x + 1) (later ++ (pushed ++ fillColumn x m M)) ↔
        Spanned later c := by
      intro c
      refine ih _ _ (List.pairwise_append.mp hsorted).2.1 ?_ ?_ ?_
      · intro d hd
        have := hx d (List.mem_append_right _ hd)
        have := hlater d hd
        omega
      · intro i hi hlt
        have hi2 := htwo i (by omega) (by omega)
        rwa [List.countP_append, List.countP_eq_zero.mpr, Nat.zero_add] at hi2
        intro d hd
        have := hcolumn d hd
        simp only [decide_eq_true_eq]
        omega
      · intro d hd
        rcases List.mem_append.mp hd with hd | hd
        · have := hpushed d hd
          omega
        · have := (mem_fillColumn.mp hd).1
          omega
    have hfill : fillColumns (n + 1) x (a :: b :: column ++ later ++ pushed) =
        fillColumn x m M ++ fillColumns n (x + 1) (later ++ (pushed ++ fillColumn x m M)) := by
      rw [List.append_assoc, List.cons_append, List.cons_append, fillColumns]
      simp only [hwiden, List.append_assoc]
    rw [hfill, List.mem_append, hadded, hrest]
    exact (spanned_append hcolumn hlater).symm

end Columns

/-! ### The outline -/

section Outline

variable {sizeX sizeY : ℕ} {p q c first : MapLocation} {rest polygon : List MapLocation}

/-- The cells of a line of the outline. -/
def cellAt (p q : MapLocation) (i : ℕ) : ℤ × ℤ :=
  lineCell p.x p.y ((q.x : ℤ) - p.x) ((q.y : ℤ) - p.y) i

/-- The steps of the longer axis. -/
def cellsOf (p q : MapLocation) : ℕ :=
  max ((q.x : ℤ) - p.x).natAbs ((q.y : ℤ) - p.y).natAbs

theorem cellAt_between {i : ℕ} (hi : i ≤ cellsOf p q) :
    min (p.x : ℤ) q.x ≤ (cellAt p q i).1 ∧ (cellAt p q i).1 ≤ max (p.x : ℤ) q.x ∧
      min (p.y : ℤ) q.y ≤ (cellAt p q i).2 ∧ (cellAt p q i).2 ≤ max (p.y : ℤ) q.y := by
  have h := lineCell_between p.x p.y hi
  rwa [add_sub_cancel, add_sub_cancel] at h

theorem indexToCells_offsetOf (hx : c.x < sizeX) :
    indexToCells sizeX (offsetOf sizeX ((c.x : ℤ), (c.y : ℤ))).toNat = c := by
  have hoffset : (offsetOf sizeX ((c.x : ℤ), (c.y : ℤ))).toNat = c.x + sizeX * c.y := by
    show ((c.y : ℤ) * sizeX + c.x).toNat = c.x + sizeX * c.y
    rw [← Int.toNat_natCast (c.x + sizeX * c.y)]
    congr 1
    push_cast
    ring
  have hdiv : (c.x + sizeX * c.y) / sizeX = c.y := by
    rw [Nat.add_mul_div_left _ _ (by omega), Nat.div_eq_of_lt hx, Nat.zero_add]
  rw [hoffset, indexToCells, hdiv, Nat.mul_comm c.y, Nat.add_sub_cancel]

/-- A cell is recovered from its offset. -/
theorem mem_gatherLine (hp : p.x < sizeX) (hq : q.x < sizeX) :
    c ∈ gatherLine sizeX p q ↔ ∃ i ≤ cellsOf p q, cellAt p q i = ((c.x : ℤ), (c.y : ℤ)) := by
  rw [gatherLine, lineOffsets_eq sizeX _ q.x q.y rfl, List.map_map, List.map_map]
  constructor
  · intro h
    obtain ⟨i, hi, hc⟩ := List.mem_map.mp h
    have hi : i ≤ cellsOf p q := by
      rw [List.mem_range] at hi
      exact (Nat.lt_succ_iff.mp hi).trans (min_le_right _ _)
    obtain ⟨hxl, hxr, hyl, hyr⟩ := cellAt_between hi
    refine ⟨i, hi, ?_⟩
    obtain ⟨d, hd⟩ : ∃ d : MapLocation, cellAt p q i = ((d.x : ℤ), (d.y : ℤ)) :=
      ⟨⟨(cellAt p q i).1.toNat, (cellAt p q i).2.toNat⟩, by ext <;> simp <;> omega⟩
    rw [hd] at hxr
    have hback : indexToCells sizeX (offsetOf sizeX (cellAt p q i)).toNat = d := by
      rw [hd]
      exact indexToCells_offsetOf (by simp only at hxr; omega)
    rw [hd, ← hc.symm.trans hback]
  · rintro ⟨i, hi, hc⟩
    have hx : c.x < sizeX := by
      have h := (cellAt_between hi).2.1
      rw [hc] at h
      simp only at h
      omega
    refine List.mem_map.mpr ⟨i, List.mem_range.mpr ?_, ?_⟩
    · show i < min (cellsOf p q) (cellsOf p q) + 1
      rw [min_self]
      omega
    · show indexToCells sizeX (offsetOf sizeX (cellAt p q i)).toNat = c
      rw [hc]
      exact indexToCells_offsetOf hx

theorem gatherLine_between (hp : p.x < sizeX) (hq : q.x < sizeX) (hc : c ∈ gatherLine sizeX p q) :
    Between MapLocation.x c.x p q ∧ Between MapLocation.y c.y p q := by
  obtain ⟨i, hi, hcell⟩ := (mem_gatherLine hp hq).mp hc
  have h := cellAt_between hi
  rw [hcell] at h
  simp only at h
  rw [Between, Between]
  omega

/-- How far along the line a column is. -/
theorem column_eq {x : ℕ} (hx : Between MapLocation.x x p q) :
    ((x : ℤ) - p.x).natAbs ≤ ((q.x : ℤ) - p.x).natAbs ∧
      (x : ℤ) = p.x + sign ((q.x : ℤ) - p.x) * ((x : ℤ) - p.x).natAbs := by
  have habs := sign_mul_natAbs ((q.x : ℤ) - p.x)
  rw [Between] at hx
  constructor
  · omega
  · rcases sign_eq ((q.x : ℤ) - p.x) with hsign | hsign <;> rw [hsign] at habs ⊢ <;> omega

theorem mem_gatherLine_of_along {x i : ℕ} (hp : p.x < sizeX) (hq : q.x < sizeX)
    (hx : Between MapLocation.x x p q) (hi : i ≤ cellsOf p q)
    (hcolumn : (along ((q.x : ℤ) - p.x).natAbs ((q.y : ℤ) - p.y).natAbs i).1 =
      ((x : ℤ) - p.x).natAbs) :
    ∃ c ∈ gatherLine sizeX p q, c.x = x ∧ (c.y : ℤ) = p.y + sign ((q.y : ℤ) - p.y) *
      (along ((q.x : ℤ) - p.x).natAbs ((q.y : ℤ) - p.y).natAbs i).2 := by
  obtain ⟨-, -, hyl, -⟩ := cellAt_between hi
  have hcell : cellAt p q i = ((x : ℤ), ((cellAt p q i).2.toNat : ℤ)) := by
    ext
    · rw [cellAt, lineCell_eq, hcolumn]
      exact (column_eq hx).2.symm
    · show (cellAt p q i).2 = _
      omega
  refine ⟨⟨x, (cellAt p q i).2.toNat⟩, (mem_gatherLine hp hq).mpr ⟨i, hi, hcell⟩, rfl, ?_⟩
  rw [cellAt, lineCell_eq] at hyl ⊢
  show (Int.toNat _ : ℤ) = _
  omega

/-- A line has a cell in each of its columns. -/
theorem exists_mem_gatherLine {x : ℕ} (hp : p.x < sizeX) (hq : q.x < sizeX)
    (hx : Between MapLocation.x x p q) : ∃ c ∈ gatherLine sizeX p q, c.x = x := by
  obtain ⟨i, hi, hcolumn, -⟩ := exists_le_along (column_eq hx).1
    (Nat.zero_le ((q.y : ℤ) - p.y).natAbs) (by rw [Nat.zero_mul]; exact Nat.zero_le _)
  obtain ⟨c, hc, hcx, -⟩ := mem_gatherLine_of_along hp hq hx hi hcolumn
  exact ⟨c, hc, hcx⟩

theorem edges_cons (first : MapLocation) (rest : List MapLocation) :
    edges (first :: rest) = path first (rest ++ [first]) := by
  rw [path_concat, edges, List.tail_cons, List.getLast?_eq_some_getLast (List.cons_ne_nil _ _)]
  rfl

theorem mem_of_mem_edges {e : MapLocation × MapLocation} (he : e ∈ edges polygon) :
    e.1 ∈ polygon ∧ e.2 ∈ polygon := by
  rcases polygon with _ | ⟨first, rest⟩
  · exact absurd he List.not_mem_nil
  · rw [edges_cons] at he
    obtain ⟨hfst, hsnd⟩ := mem_of_mem_path he
    simp only [List.mem_cons, List.mem_append, List.not_mem_nil, or_false] at hfst hsnd ⊢
    tauto

/-- The ends of the columns of an outline are columns of vertices. -/
theorem exists_vertices (hmap : ∀ v ∈ polygon, v.x < sizeX)
    (hc : c ∈ polygonOutlineCells sizeX polygon) :
    ∃ u ∈ polygon, ∃ w ∈ polygon, u.x ≤ c.x ∧ c.x ≤ w.x := by
  obtain ⟨e, he, hc⟩ := List.mem_flatMap.mp hc
  obtain ⟨hfst, hsnd⟩ := mem_of_mem_edges he
  rcases (gatherLine_between (hmap _ hfst) (hmap _ hsnd) hc).1 with h | h
  · exact ⟨e.1, hfst, e.2, hsnd, h⟩
  · exact ⟨e.2, hsnd, e.1, hfst, h⟩

theorem two_le_countP {x : ℕ} (hmap : ∀ v ∈ polygon, v.x < sizeX) (hlength : 2 ≤ polygon.length)
    {a b : MapLocation} (ha : a ∈ polygonOutlineCells sizeX polygon)
    (hb : b ∈ polygonOutlineCells sizeX polygon) (hax : a.x ≤ x) (hxb : x ≤ b.x) :
    2 ≤ (polygonOutlineCells sizeX polygon).countP (·.x = x) := by
  obtain ⟨u, hu, -, -, hua, -⟩ := exists_vertices hmap ha
  obtain ⟨-, -, w, hw, -, hbw⟩ := exists_vertices hmap hb
  have hbetween : Between MapLocation.x x u w := .inl ⟨by omega, by omega⟩
  rcases polygon with _ | ⟨first, rest⟩
  · exact absurd hlength (by simp)
  have hrest : rest ≠ [] := by
    rintro rfl
    exact absurd hlength (by simp)
  obtain ⟨out, back, hsplit, hout, hback⟩ := two_halves hrest hu hw hbetween
  rw [← edges_cons] at hsplit
  have hhalf : ∀ half : List (MapLocation × MapLocation), (∀ e ∈ half, e ∈ edges (first :: rest)) →
      (∃ e ∈ half, Between MapLocation.x x e.1 e.2) →
      1 ≤ (half.flatMap fun e => gatherLine sizeX e.1 e.2).countP (·.x = x) := by
    intro half hhalf ⟨e, he, hx⟩
    obtain ⟨hfst, hsnd⟩ := mem_of_mem_edges (hhalf e he)
    obtain ⟨c, hc, hcx⟩ := exists_mem_gatherLine (hmap _ hfst) (hmap _ hsnd) hx
    exact List.countP_pos_iff.mpr ⟨c, List.mem_flatMap.mpr ⟨e, he, hc⟩, by simpa using hcx⟩
  have hone := hhalf out (fun e he => hsplit ▸ List.mem_append_left _ he) hout
  have htwo := hhalf back (fun e he => hsplit ▸ List.mem_append_right _ he) hback
  rw [polygonOutlineCells, hsplit, List.flatMap_append, List.countP_append]
  omega

end Outline

/-! ### The fill -/

section Fill

variable {sizeX sizeY : ℕ} {c : MapLocation} {polygon : List MapLocation}

theorem mem_convexFillCells (hmap : ∀ v ∈ polygon, v.x < sizeX) (hlength : 3 ≤ polygon.length) :
    c ∈ convexFillCells sizeX polygon ↔ Spanned (polygonOutlineCells sizeX polygon) c := by
  have hperm := Gnome.sort_perm MapLocation.x (polygonOutlineCells sizeX polygon)
  have hsorted := Gnome.sort_pairwise MapLocation.x (polygonOutlineCells sizeX polygon)
  rw [convexFillCells, if_neg (by omega)]
  set outline := polygonOutlineCells sizeX polygon with houtline
  generalize Gnome.sort MapLocation.x outline = cells at hperm hsorted
  have hspanned : Spanned cells c ↔ Spanned outline c := by
    simp only [Spanned, hperm.mem_iff]
  -- sorted, the outline has its columns between those of its first and its last cell
  rcases List.eq_nil_or_concat cells with rfl | ⟨front, last, hconcat⟩
  · rw [← hspanned]
    constructor
    · intro h
      exact absurd h List.not_mem_nil
    · rintro ⟨a, ha, -⟩
      exact absurd ha List.not_mem_nil
  obtain ⟨first, tail, hcons⟩ : ∃ first tail, cells = first :: tail := by
    rcases cells with _ | ⟨first, tail⟩
    · exact absurd hconcat (by simp)
    · exact ⟨first, tail, rfl⟩
  have hhead : cells.head? = some first := by rw [hcons]; rfl
  have hlast : cells.getLast? = some last := by rw [hconcat, List.concat_eq_append,
    List.getLast?_concat]
  have hfirst_mem : first ∈ cells := by rw [hcons]; exact List.mem_cons_self
  have hlast_mem : last ∈ cells := by rw [hconcat]; simp
  have hfirst : ∀ d ∈ cells, first.x ≤ d.x := by
    intro d hd
    rw [hcons] at hd hsorted
    rcases List.mem_cons.mp hd with rfl | hd
    · exact le_rfl
    · exact (List.pairwise_cons.mp hsorted).1 d hd
  have hlast' : ∀ d ∈ cells, d.x ≤ last.x := by
    intro d hd
    rw [hconcat, List.concat_eq_append] at hd hsorted
    rcases List.mem_append.mp hd with hd | hd
    · exact (List.pairwise_append.mp hsorted).2.2 d hd last (List.mem_singleton_self _)
    · rw [List.mem_singleton.mp hd]
  have hfill : c ∈ fillColumns (last.x + 1 - first.x) first.x cells ↔ Spanned cells c := by
    have h := mem_fillColumns (c := c) (last.x + 1 - first.x) first.x [] hsorted ?_ ?_ (by simp)
    · rwa [List.append_nil] at h
    · intro d hd
      have := hfirst d hd
      have := hlast' d hd
      omega
    · intro i hfi hil
      rw [hperm.countP_eq]
      exact two_le_countP hmap (by omega) (hperm.mem_iff.mp hfirst_mem)
        (hperm.mem_iff.mp hlast_mem) hfi (by omega)
  simp only [hhead, hlast, List.mem_append, hfill, ← hspanned]
  constructor
  · rintro (hc | hc)
    · exact ⟨c, hc, c, hc, rfl, rfl, le_rfl, le_rfl⟩
    · exact hc
  · exact .inr

theorem convexFillCells_in_map (hmap : ∀ v ∈ polygon, v.x < sizeX ∧ v.y < sizeY)
    (hc : c ∈ convexFillCells sizeX polygon) : c.x < sizeX ∧ c.y < sizeY := by
  have hlength : 3 ≤ polygon.length := by
    by_contra h
    rw [convexFillCells, if_pos (by omega)] at hc
    exact absurd hc List.not_mem_nil
  obtain ⟨-, -, b, hb, -, hbx, -, hby⟩ :=
    (mem_convexFillCells (fun v hv => (hmap v hv).1) hlength).mp hc
  obtain ⟨e, he, hb⟩ := List.mem_flatMap.mp hb
  obtain ⟨hfst, hsnd⟩ := mem_of_mem_edges he
  have hp := hmap _ hfst
  have hq := hmap _ hsnd
  obtain ⟨hx, hy⟩ := gatherLine_between hp.1 hq.1 hb
  rw [Between] at hx hy
  omega

end Fill

/-! ### The costs -/

section Costs

variable {F : Type} [Double F] {map : Costmap2D F} {x y : ℕ}

instance (l : List MapLocation) (c : MapLocation) : Decidable (Spanned l c) :=
  inferInstanceAs (Decidable (∃ a ∈ l, ∃ b ∈ l, a.x = c.x ∧ b.x = c.x ∧ a.y ≤ c.y ∧ c.y ≤ b.y))

omit [Double F] in
theorem getCost_foldl_setCost (costValue : UInt8) (cells : List MapLocation) (map : Costmap2D F)
    (hmap : ∀ c ∈ cells, c.x < map.sizeX ∧ c.y < map.sizeY) (hx : x < map.sizeX) :
    (cells.foldl (fun map cell => map.setCost cell.x cell.y costValue) map).getCost x y =
      if (⟨x, y⟩ : MapLocation) ∈ cells then costValue else map.getCost x y := by
  induction cells generalizing map with
  | nil => rw [List.foldl_nil, if_neg List.not_mem_nil]
  | cons c cells ih =>
    obtain ⟨hcx, hcy⟩ := hmap c List.mem_cons_self
    have hiff : (c.x = x ∧ c.y = y) ↔ (⟨x, y⟩ : MapLocation) = c := by
      rw [MapLocation.mk.injEq]
      omega
    rw [List.foldl_cons, ih (map.setCost c.x c.y costValue)
      (fun d hd => hmap d (List.mem_cons_of_mem c hd)) hx, Costmap2D.getCost_setCost hcx hcy hx]
    simp only [List.mem_cons, hiff]
    by_cases hmem : (⟨x, y⟩ : MapLocation) ∈ cells
    · rw [if_pos hmem, if_pos (.inr hmem)]
    · rw [if_neg hmem]
      simp only [hmem, or_false]

theorem mapM_eq_none {α β : Type*} {f : α → Option β} {l : List α} (h : ∃ a ∈ l, f a = none) :
    l.mapM f = none := by
  induction l with
  | nil =>
    obtain ⟨a, ha, -⟩ := h
    exact absurd ha List.not_mem_nil
  | cons b l ih =>
    rw [List.mapM_cons]
    obtain ⟨a, ha, hnone⟩ := h
    rcases List.mem_cons.mp ha with rfl | ha
    · rw [hnone]
      rfl
    · rw [ih ⟨a, ha, hnone⟩]
      rcases f b with _ | c <;> rfl

theorem mapM_eq_some {α β : Type*} {f : α → Option β} {l : List α} {m : List β}
    (h : l.map f = m.map some) : l.mapM f = some m := by
  induction l generalizing m with
  | nil =>
    rw [List.map_nil, eq_comm, List.map_eq_nil_iff] at h
    rw [h]
    rfl
  | cons a l ih =>
    rcases m with _ | ⟨b, m⟩
    · exact absurd h (by simp)
    rw [List.map_cons, List.map_cons, List.cons.injEq] at h
    rw [List.mapM_cons, h.1, ih h.2]
    rfl

/-- Nothing for a polygon that is not on the map, and otherwise its fill. -/
theorem Costmap2D.setConvexPolygonCost_spec (map : Costmap2D F) (polygon : List (F × F))
    (costValue : UInt8) :
    ((∃ p ∈ polygon, map.worldToMap p.1 p.2 = none) →
      map.setConvexPolygonCost polygon costValue = (false, map)) ∧
    ∀ vertices : List MapLocation,
      polygon.map (fun p => map.worldToMap p.1 p.2) = vertices.map (fun v => some (v.x, v.y)) →
      (map.setConvexPolygonCost polygon costValue).1 = true ∧
      ∀ x y, x < map.sizeX → y < map.sizeY →
        (map.setConvexPolygonCost polygon costValue).2.getCost x y =
          if 3 ≤ vertices.length ∧ Spanned (polygonOutlineCells map.sizeX vertices) ⟨x, y⟩ then
            costValue
          else map.getCost x y := by
  constructor
  · rintro ⟨p, hp, hnone⟩
    rw [setConvexPolygonCost, mapM_eq_none ⟨p, hp, hnone⟩]
  · intro vertices hvertices
    have hmapM : polygon.mapM (fun p => map.worldToMap p.1 p.2) =
        some (vertices.map fun v => (v.x, v.y)) :=
      mapM_eq_some (by rw [hvertices, List.map_map]; rfl)
    have hmap : ∀ v ∈ vertices, v.x < map.sizeX ∧ v.y < map.sizeY := by
      intro v hv
      have hsome : some (v.x, v.y) ∈ vertices.map fun v => some (v.x, v.y) :=
        List.mem_map_of_mem hv
      rw [← hvertices] at hsome
      obtain ⟨p, -, hp⟩ := List.mem_map.mp hsome
      exact Costmap2D.worldToMap_lt hp
    -- the locations that `worldToMap` wrote are the vertices
    have hback : (vertices.map fun v => (v.x, v.y)).map
        (fun loc => (⟨loc.1, loc.2⟩ : MapLocation)) = vertices := by
      rw [List.map_map]
      exact List.map_id vertices
    rw [setConvexPolygonCost, hmapM]
    simp only [hback]
    refine ⟨trivial, ?_⟩
    intro x y hx _
    rw [getCost_foldl_setCost costValue _ map (fun c hc => convexFillCells_in_map hmap hc) hx]
    congr 1
    rw [eq_iff_iff]
    by_cases hlength : 3 ≤ vertices.length
    · rw [mem_convexFillCells (fun v hv => (hmap v hv).1) hlength]
      exact (and_iff_right hlength).symm
    · rw [convexFillCells, if_pos (by omega)]
      simp [hlength]

/-- A triangle over half of a map, and one that reaches out of it. -/
theorem setConvexPolygonCost_triangle :
    let map := Costmap2D.init 5 5 (1 : ℚ) 0 0 0
    (map.setConvexPolygonCost [(1 / 2, 1 / 2), (7 / 2, 1 / 2), (1 / 2, 7 / 2)] 254).2.getCost 1 1 =
        254 ∧
      map.setConvexPolygonCost [(1 / 2, 1 / 2), (7 / 2, 1 / 2), (1 / 2, 8)] 254 = (false, map) := by
  intro map
  constructor
  · have h := ((map.setConvexPolygonCost_spec
      [(1 / 2, 1 / 2), (7 / 2, 1 / 2), (1 / 2, 7 / 2)] 254).2 [⟨0, 0⟩, ⟨3, 0⟩, ⟨0, 3⟩]
      (by simp only [map]; decide +kernel)).2
    rw [h 1 1 (by decide) (by decide)]
    decide
  · exact (map.setConvexPolygonCost_spec _ 254).1 ⟨(1 / 2, 8), by simp,
      by simp only [map]; decide +kernel⟩

end Costs

end Costmap
