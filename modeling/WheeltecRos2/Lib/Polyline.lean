/-
Polylines, and where they meet a level of a linear function.

`polyline 𝕜 points` is the set of the points on the straight lines from each of the
points to the next.  If the function stays below a level along a first part of the
points, on the level along a second part and above it along the rest, then the polyline
meets the level only between the points of the second part: in their segment if there are
two of them (`mem_polyline_pair_iff`), and in one point at most if there are fewer
(`polyline_level_subsingleton`).
-/
import Mathlib.Analysis.Convex.Basic

namespace Polyline

open Set

variable (𝕜 : Type*) {E : Type*} [Field 𝕜] [LinearOrder 𝕜] [IsStrictOrderedRing 𝕜]
  [AddCommGroup E] [Module 𝕜 E]

/-- The points on the lines from each of the points to the next. -/
def polyline : List E → Set E
  | [] => ∅
  | [a] => {a}
  | a :: b :: rest => segment 𝕜 a b ∪ polyline (b :: rest)

variable {𝕜} {a b m u v : E} {A B : List E}

section

omit [IsStrictOrderedRing 𝕜]

theorem head_mem_polyline [ZeroLEOneClass 𝕜] (m : E) (B : List E) : m ∈ polyline 𝕜 (m :: B) := by
  cases B with
  | nil => exact mem_singleton m
  | cons b B => exact Or.inl (left_mem_segment 𝕜 m b)

/-- A polyline consists of the parts before and after one of its points. -/
theorem polyline_append_cons [ZeroLEOneClass 𝕜] (A : List E) (m : E) (B : List E) :
    polyline 𝕜 (A ++ m :: B) = polyline 𝕜 (A ++ [m]) ∪ polyline 𝕜 (m :: B) := by
  have hm : {m} ⊆ polyline 𝕜 (m :: B) := singleton_subset_iff.mpr (head_mem_polyline m B)
  induction A with
  | nil => exact (union_eq_self_of_subset_left hm).symm
  | cons a A ih =>
    cases A with
    | nil =>
      show segment 𝕜 a m ∪ polyline 𝕜 (m :: B) = segment 𝕜 a m ∪ {m} ∪ polyline 𝕜 (m :: B)
      rw [union_assoc, union_eq_self_of_subset_left hm]
    | cons a' A =>
      show segment 𝕜 a a' ∪ polyline 𝕜 (a' :: A ++ m :: B) =
        segment 𝕜 a a' ∪ polyline 𝕜 (a' :: A ++ [m]) ∪ polyline 𝕜 (m :: B)
      rw [ih, union_assoc]

/-- A polyline between points of a convex set stays in it. -/
theorem polyline_subset {S : Set E} (hS : Convex 𝕜 S) (points : List E) (h : ∀ a ∈ points, a ∈ S) :
    polyline 𝕜 points ⊆ S := by
  induction points using polyline.induct with
  | case1 => exact empty_subset S
  | case2 a => exact singleton_subset_iff.mpr (h a (by simp))
  | case3 a b rest ih =>
    rw [polyline]
    exact union_subset (hS.segment_subset (h a (by simp)) (h b (by simp)))
      (ih fun c hc => h c (List.mem_cons_of_mem a hc))

end

/-! ### A level of a linear function -/

section Level

variable {h : E →ₗ[𝕜] 𝕜} {c : 𝕜}

/-- On a line that is not level a height determines the point. -/
theorem eq_of_mem_segment (hab : h a ≠ h b) (hu : u ∈ segment 𝕜 a b) (hv : v ∈ segment 𝕜 a b)
    (huv : h u = h v) : u = v := by
  rw [segment_eq_image_lineMap] at hu hv
  obtain ⟨s, -, rfl⟩ := hu
  obtain ⟨t, -, rfl⟩ := hv
  simp only [AffineMap.lineMap_apply_module', map_add, map_smul, map_sub, smul_eq_mul,
    add_left_inj] at huv
  rw [mul_right_cancel₀ (sub_ne_zero.mpr hab.symm) huv]

theorem lt_of_mem_polyline (hA : ∀ a ∈ A, h a < c) (hu : u ∈ polyline 𝕜 A) : h u < c :=
  polyline_subset (convex_halfSpace_lt h.isLinear c) A hA hu

theorem gt_of_mem_polyline (hB : ∀ b ∈ B, c < h b) (hu : u ∈ polyline 𝕜 B) : c < h u :=
  polyline_subset (convex_halfSpace_gt h.isLinear c) B hB hu

/-- A polyline that comes from below meets the level first in `m`. -/
theorem eq_of_mem_polyline_below (hA : ∀ a ∈ A, h a < c) (hm : h m = c)
    (hu : u ∈ polyline 𝕜 (A ++ [m])) (hc : h u = c) : u = m := by
  rcases List.eq_nil_or_concat A with rfl | ⟨A, z, rfl⟩
  · exact hu
  · rw [List.concat_eq_append, List.append_assoc, List.singleton_append, polyline_append_cons] at hu
    rw [List.concat_eq_append] at hA
    rcases hu with hu | hu | hu
    · exact absurd hc (ne_of_lt (lt_of_mem_polyline hA hu))
    · refine eq_of_mem_segment ?_ hu (right_mem_segment 𝕜 z m) (by rw [hc, hm])
      rw [hm]
      exact ne_of_lt (hA z (by simp))
    · exact hu

/-- One that goes up leaves the level in `m`. -/
theorem eq_of_mem_polyline_above (hB : ∀ b ∈ B, c < h b) (hm : h m = c)
    (hu : u ∈ polyline 𝕜 (m :: B)) (hc : h u = c) : u = m := by
  cases B with
  | nil => exact hu
  | cons r B =>
    rcases hu with hu | hu
    · refine eq_of_mem_segment ?_ hu (left_mem_segment 𝕜 m r) (by rw [hc, hm])
      rw [hm]
      exact ne_of_lt (hB r (by simp))
    · exact absurd hc (ne_of_gt (gt_of_mem_polyline hB hu))

/-- **Between two points on the level the polyline is their segment.** -/
theorem mem_polyline_pair_iff (hA : ∀ z ∈ A, h z < c) (ha : h a = c) (hb : h b = c)
    (hB : ∀ r ∈ B, c < h r) (hc : h u = c) :
    u ∈ polyline 𝕜 (A ++ ([a, b] ++ B)) ↔ u ∈ segment 𝕜 a b := by
  rw [List.cons_append, List.singleton_append, polyline_append_cons]
  constructor
  · rintro (hu | hu | hu)
    · rw [eq_of_mem_polyline_below hA ha hu hc]
      exact left_mem_segment 𝕜 a b
    · exact hu
    · rw [eq_of_mem_polyline_above hB hb hu hc]
      exact right_mem_segment 𝕜 a b
  · intro hu
    exact Or.inr (Or.inl hu)

/-- **With fewer points on it, the polyline meets the level once at most.** -/
theorem polyline_level_subsingleton {M : List E} (hM : M.length ≤ 1) (hA : ∀ z ∈ A, h z < c)
    (hMc : ∀ m ∈ M, h m = c) (hB : ∀ r ∈ B, c < h r) (hu : u ∈ polyline 𝕜 (A ++ (M ++ B)))
    (hv : v ∈ polyline 𝕜 (A ++ (M ++ B))) (huc : h u = c) (hvc : h v = c) : u = v := by
  match M, hM with
  | [m], _ =>
    have hm := hMc m (by simp)
    have hmeet : ∀ w ∈ polyline 𝕜 (A ++ ([m] ++ B)), h w = c → w = m := by
      intro w hw hwc
      rw [List.singleton_append, polyline_append_cons] at hw
      rcases hw with hw | hw
      · exact eq_of_mem_polyline_below hA hm hw hwc
      · exact eq_of_mem_polyline_above hB hm hw hwc
    rw [hmeet u hu huc, hmeet v hv hvc]
  | [], _ =>
    rw [List.nil_append] at hu hv
    rcases List.eq_nil_or_concat A with rfl | ⟨A, z, rfl⟩
    · exact absurd huc (ne_of_gt (gt_of_mem_polyline hB hu))
    · rw [List.concat_eq_append] at hA hu hv
      cases B with
      | nil =>
        rw [List.append_nil] at hu
        exact absurd huc (ne_of_lt (lt_of_mem_polyline hA hu))
      | cons r B =>
        -- the level is crossed on the line from `z` to `r`
        have hcross : ∀ w ∈ polyline 𝕜 (A ++ [z] ++ r :: B), h w = c → w ∈ segment 𝕜 z r := by
          intro w hw hwc
          rw [List.append_assoc, List.singleton_append, polyline_append_cons] at hw
          rcases hw with hw | hw | hw
          · exact absurd hwc (ne_of_lt (lt_of_mem_polyline hA hw))
          · exact hw
          · exact absurd hwc (ne_of_gt (gt_of_mem_polyline hB hw))
        have hzr : h z < h r := lt_trans (hA z (by simp)) (hB r (by simp))
        exact eq_of_mem_segment hzr.ne (hcross u hu huc) (hcross v hv hvc) (by rw [huc, hvc])

end Level

end Polyline
