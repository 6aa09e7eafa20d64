/-
The free segments of a row.

`_find_free_segments` reports the maximal stretches of free cells that are long
enough, from left to right (`mem_findFreeSegments_iff`, `findFreeSegments_pairwise`).
The scan keeps, cell by cell, the stretches that are closed and the start of the one
that is open.
-/
import WheeltecRos2.Lib.Stretch
import WheeltecRos2.Coverage.Planner
import Mathlib.Data.List.Basic

namespace Coverage

open Stretch

/-- The cell at index `i` of a row is free. -/
def FreeAt (row : List ℕ) (i : ℕ) : Prop := row[i]? = some 0

variable {row : List ℕ} {minLength n : ℕ} {s : Scan}

theorem FreeAt.lt {i : ℕ} (h : FreeAt row i) : i < row.length := (List.getElem?_eq_some_iff.mp h).1

theorem freeAt_iff (h : n < row.length) : FreeAt row n ↔ row[n] = 0 := by
  rw [FreeAt, List.getElem?_eq_getElem h, Option.some_inj]

/-- What the scan knows after the first `n` cells. -/
structure Scan.Upto (row : List ℕ) (minLength n : ℕ) (s : Scan) : Prop where
  mem_iff : ∀ segment, segment ∈ s.segments ↔
    (IsStretch (FreeAt row) n segment.1 segment.2 ∧ segment.2 < n) ∧
      minLength ≤ segment.2 - segment.1
  pairwise : s.segments.Pairwise fun left right => left.2 < right.1
  inside : s.inSegment = true → IsStretch (FreeAt row) n s.start n
  outside : s.inSegment = false → ∀ i, i + 1 = n → ¬FreeAt row i

namespace Scan.Upto

theorem start (row : List ℕ) (minLength : ℕ) :
    Scan.Upto row minLength 0 { segments := [], inSegment := false, start := 0 } := by
  refine ⟨fun segment => ?_, List.Pairwise.nil, fun h => (by cases h), fun _ i hi => by omega⟩
  constructor
  · intro h
    cases h
  · rintro ⟨⟨-, h⟩, -⟩
    omega

/-- The segments found so far lie before the open one. -/
theorem lt_start (h : Scan.Upto row minLength n s) (hin : s.inSegment = true) :
    ∀ segment ∈ s.segments, segment.2 < s.start := by
  intro segment hseg
  obtain ⟨⟨hstretch, hlt⟩, -⟩ := (h.mem_iff segment).mp hseg
  exact hstretch.gap (h.inside hin) hlt

/-- With the open segment added, if it is long enough, the list is complete. -/
theorem close (h : Scan.Upto row minLength n s) (hin : s.inSegment = true)
    (hlen : minLength ≤ n - s.start) (segment : ℕ × ℕ) :
    segment ∈ s.segments ++ [(s.start, n)] ↔
      IsStretch (FreeAt row) n segment.1 segment.2 ∧ minLength ≤ segment.2 - segment.1 := by
  rw [List.mem_append, h.mem_iff, List.mem_singleton]
  constructor
  · rintro (⟨⟨hstretch, -⟩, hmin⟩ | rfl)
    · exact ⟨hstretch, hmin⟩
    · exact ⟨h.inside hin, hlen⟩
  · rintro ⟨hstretch, hmin⟩
    rcases Nat.lt_or_ge segment.2 n with hlt | hge
    · exact Or.inl ⟨⟨hstretch, hlt⟩, hmin⟩
    · obtain ⟨a, b⟩ := segment
      obtain rfl : b = n := le_antisymm hstretch.le hge
      exact Or.inr (Prod.ext (hstretch.start_eq (h.inside hin)) rfl)

theorem close_pairwise (h : Scan.Upto row minLength n s) (hin : s.inSegment = true) :
    (s.segments ++ [(s.start, n)]).Pairwise fun left right => left.2 < right.1 := by
  rw [List.pairwise_append]
  refine ⟨h.pairwise, List.pairwise_singleton _ _, fun left hleft right hright => ?_⟩
  rw [List.mem_singleton] at hright
  subst hright
  exact h.lt_start hin left hleft

/-- Without it the list is complete, if it is too short or there is none. -/
theorem closed (h : Scan.Upto row minLength n s)
    (hopen : ¬(s.inSegment = true ∧ minLength ≤ n - s.start)) (segment : ℕ × ℕ) :
    segment ∈ s.segments ↔
      IsStretch (FreeAt row) n segment.1 segment.2 ∧ minLength ≤ segment.2 - segment.1 := by
  rw [h.mem_iff]
  constructor
  · rintro ⟨⟨hstretch, -⟩, hmin⟩
    exact ⟨hstretch, hmin⟩
  · rintro ⟨hstretch, hmin⟩
    refine ⟨⟨hstretch, ?_⟩, hmin⟩
    by_contra hlt
    obtain ⟨a, b⟩ := segment
    obtain rfl : b = n := le_antisymm hstretch.le (not_lt.mp hlt)
    cases hin : s.inSegment with
    | false =>
      have hlt := hstretch.lt
      exact h.outside hin (b - 1) (by omega) (hstretch.holds (b - 1) (by omega) (by omega))
    | true =>
      rw [hstretch.start_eq (h.inside hin)] at hmin
      exact hopen ⟨hin, hmin⟩

/-- A free cell. -/
theorem step_free (h : Scan.Upto row minLength n s) (hn : FreeAt row n) :
    Scan.Upto row minLength (n + 1) (Scan.step minLength s (0, n)) := by
  have hclosed : ∀ segment, segment ∈ s.segments ↔
      (IsStretch (FreeAt row) (n + 1) segment.1 segment.2 ∧ segment.2 < n + 1) ∧
        minLength ≤ segment.2 - segment.1 := by
    intro segment
    rw [h.mem_iff, isStretch_closed_succ_iff hn]
  cases hin : s.inSegment with
  | true =>
    rw [show Scan.step minLength s (0, n) = s from by simp [Scan.step, hin]]
    refine ⟨hclosed, h.pairwise, fun _ => (h.inside hin).extend hn, fun hout => ?_⟩
    rw [hin] at hout
    cases hout
  | false =>
    rw [show Scan.step minLength s (0, n) = { s with start := n, inSegment := true } from by
      simp [Scan.step, hin]]
    exact ⟨hclosed, h.pairwise, fun _ => isStretch_begin (h.outside hin) hn, fun hout => (by cases hout)⟩

/-- An obstacle. -/
theorem step_blocked (h : Scan.Upto row minLength n s) {cell : ℕ} (hcell : cell ≠ 0)
    (hn : ¬FreeAt row n) : Scan.Upto row minLength (n + 1) (Scan.step minLength s (cell, n)) := by
  have hout : ∀ i, i + 1 = n + 1 → ¬FreeAt row i := by
    intro i hi
    rwa [show i = n from by omega]
  -- a list that is complete up to `n` is what the invariant asks for next
  have hnext : ∀ segments : List (ℕ × ℕ),
      (∀ segment, segment ∈ segments ↔ IsStretch (FreeAt row) n segment.1 segment.2 ∧
        minLength ≤ segment.2 - segment.1) →
      ∀ segment, segment ∈ segments ↔
        (IsStretch (FreeAt row) (n + 1) segment.1 segment.2 ∧ segment.2 < n + 1) ∧
          minLength ≤ segment.2 - segment.1 := by
    intro segments hmem segment
    rw [hmem, isStretch_succ_of_not hn]
    constructor
    · rintro ⟨hstretch, hmin⟩
      exact ⟨⟨hstretch, Nat.lt_succ_of_le hstretch.le⟩, hmin⟩
    · rintro ⟨⟨hstretch, -⟩, hmin⟩
      exact ⟨hstretch, hmin⟩
  cases hin : s.inSegment with
  | false =>
    rw [show Scan.step minLength s (cell, n) = s from by simp [Scan.step, hin, hcell]]
    refine ⟨hnext _ (h.closed (by simp [hin])), h.pairwise, fun hin' => ?_, fun _ => hout⟩
    rw [hin] at hin'
    cases hin'
  | true =>
    by_cases hlen : minLength ≤ n - s.start
    · rw [show Scan.step minLength s (cell, n) =
          { s with segments := s.segments ++ [(s.start, n)], inSegment := false } from by
        simp [Scan.step, hin, hcell, hlen]]
      exact ⟨hnext _ (h.close hin hlen), h.close_pairwise hin, fun hin' => (by cases hin'), fun _ => hout⟩
    · rw [show Scan.step minLength s (cell, n) = { s with inSegment := false } from by
        simp [Scan.step, hin, hcell, hlen]]
      exact ⟨hnext _ (h.closed (by simp [hlen])), h.pairwise, fun hin' => (by cases hin'), fun _ => hout⟩

end Scan.Upto

/-! ### A row -/

theorem Scan.overRow_append (row : List ℕ) (cell minLength : ℕ) :
    Scan.overRow (row ++ [cell]) minLength =
      Scan.step minLength (Scan.overRow row minLength) (cell, row.length) := by
  simp [Scan.overRow, List.zipIdx_append, List.foldl_append]

theorem Scan.upto_take (row : List ℕ) (minLength : ℕ) (hn : n ≤ row.length) :
    Scan.Upto row minLength n (Scan.overRow (row.take n) minLength) := by
  induction n with
  | zero => exact Scan.Upto.start row minLength
  | succ n ih =>
    have hlt : n < row.length := hn
    rw [← List.take_append_getElem hlt, Scan.overRow_append, List.length_take_of_le hlt.le]
    by_cases hcell : row[n] = 0
    · rw [hcell]
      exact (ih hlt.le).step_free ((freeAt_iff hlt).mpr hcell)
    · exact (ih hlt.le).step_blocked hcell (fun h => hcell ((freeAt_iff hlt).mp h))

theorem Scan.upto_length (row : List ℕ) (minLength : ℕ) :
    Scan.Upto row minLength row.length (Scan.overRow row minLength) := by
  have h := Scan.upto_take row minLength le_rfl
  rwa [List.take_length] at h

/-- **The segments are the maximal stretches of free cells that are long enough.** -/
theorem mem_findFreeSegments_iff {a b : ℕ} :
    (a, b) ∈ findFreeSegments row minLength ↔
      IsStretch (FreeAt row) row.length a b ∧ minLength ≤ b - a := by
  have h := Scan.upto_length row minLength
  unfold findFreeSegments
  by_cases hopen : (Scan.overRow row minLength).inSegment = true ∧
      minLength ≤ row.length - (Scan.overRow row minLength).start
  · rw [if_pos hopen]
    exact h.close hopen.1 hopen.2 (a, b)
  · rw [if_neg hopen]
    exact h.closed hopen (a, b)

/-- **They run from left to right, with a gap between two of them.** -/
theorem findFreeSegments_pairwise (row : List ℕ) (minLength : ℕ) :
    (findFreeSegments row minLength).Pairwise fun left right => left.2 < right.1 := by
  have h := Scan.upto_length row minLength
  unfold findFreeSegments
  by_cases hopen : (Scan.overRow row minLength).inSegment = true ∧
      minLength ≤ row.length - (Scan.overRow row minLength).start
  · rw [if_pos hopen]
    exact h.close_pairwise hopen.1
  · rw [if_neg hopen]
    exact h.pairwise

/-- The first segment ends at a cell that is not free, before the second one. -/
def Separated (row : List ℕ) (left right : ℕ × ℕ) : Prop :=
  ∃ i cell, left.2 ≤ i ∧ i < right.1 ∧ row[i]? = some cell ∧ cell ≠ 0

theorem separated_of_mem {left right : ℕ × ℕ} (hleft : left ∈ findFreeSegments row minLength)
    (hright : right ∈ findFreeSegments row minLength) (hlt : left.2 < right.1) :
    Separated row left right := by
  obtain ⟨hstretch, -⟩ := mem_findFreeSegments_iff.mp hleft
  obtain ⟨hstretch', -⟩ := mem_findFreeSegments_iff.mp hright
  have hlength : left.2 < row.length := hlt.trans (hstretch'.lt.trans_le hstretch'.le)
  refine ⟨left.2, row[left.2], le_rfl, hlt, List.getElem?_eq_getElem hlength, ?_⟩
  intro hzero
  exact hstretch.after hlength ((freeAt_iff hlength).mpr hzero)

/-- **The scan is exact.**  The segments are the maximal stretches that are long enough, in
increasing order, and any two of them have an obstacle between them. -/
theorem findFreeSegments_exact (row : List ℕ) (minLength : ℕ) :
    (∀ a b, (a, b) ∈ findFreeSegments row minLength ↔
      IsStretch (FreeAt row) row.length a b ∧ minLength ≤ b - a) ∧
    (findFreeSegments row minLength).Pairwise fun left right =>
      left.2 < right.1 ∧ Separated row left right := by
  refine ⟨fun a b => mem_findFreeSegments_iff, ?_⟩
  refine (findFreeSegments_pairwise row minLength).imp_of_mem ?_
  intro left right hleft hright hlt
  exact ⟨hlt, separated_of_mem hleft hright hlt⟩

/-- A window of free cells that is long enough lies in a segment. -/
theorem exists_segment_of_window {i j : ℕ} (hij : i < j) (hlen : minLength ≤ j - i)
    (hwin : ∀ k, i ≤ k → k < j → FreeAt row k) :
    ∃ a b, (a, b) ∈ findFreeSegments row minLength ∧ a ≤ i ∧ j ≤ b := by
  have hj : j ≤ row.length := by
    have := (hwin (j - 1) (by omega) (by omega)).lt
    omega
  obtain ⟨a, b, hstretch, hai, hib⟩ := 
    exists_isStretch (show i < row.length from by omega) (hwin i le_rfl hij)
  have hjb : j ≤ b := hstretch.le_of_window hib hj hwin
  exact ⟨a, b, mem_findFreeSegments_iff.mpr ⟨hstretch, by omega⟩, hai, hjb⟩

end Coverage
