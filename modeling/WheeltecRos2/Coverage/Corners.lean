/-
The waypoints `_optimize_waypoints` keeps.

The test looks at a waypoint and its two neighbours in the list, so the list can be cut
anywhere (`keepCorners_append`).  Waypoints on one height have no corner between them:
of such a part of the list at most the first and the last waypoint are kept
(`optimizeWaypoints_split`).
-/
import WheeltecRos2.Coverage.Planner
import Mathlib.Tactic.Linarith

namespace Coverage

/-- The first waypoint `w` of a part of the list, followed by `next`, if it is kept after
the waypoints `before`. -/
def keptFirst (before : List Waypoint) (w next : Waypoint) : List Waypoint :=
  if ∀ prev ∈ before.getLast?, 1 / 100 < |cross prev w next| then [w] else []

/-- The last waypoint `w` of a part of the list, after `prev`, if it is kept before the
waypoints `after`. -/
def keptLast (prev w : Waypoint) (after : List Waypoint) : List Waypoint :=
  if ∀ next ∈ after.head?, 1 / 100 < |cross prev w next| then [w] else []

variable {P Q R S T : List Waypoint} {w w' next prev : Waypoint} {c : ℚ}

theorem keptFirst_cases (P : List Waypoint) (w next : Waypoint) :
    (∀ prev ∈ P.getLast?, 1 / 100 < |cross prev w next|) ∧ keptFirst P w next = [w] ∨
    ¬(∀ prev ∈ P.getLast?, 1 / 100 < |cross prev w next|) ∧ keptFirst P w next = [] := by
  by_cases h : ∀ prev ∈ P.getLast?, 1 / 100 < |cross prev w next|
  · exact Or.inl ⟨h, if_pos h⟩
  · exact Or.inr ⟨h, if_neg h⟩

theorem keptLast_cases (prev w : Waypoint) (R : List Waypoint) :
    (∀ next ∈ R.head?, 1 / 100 < |cross prev w next|) ∧ keptLast prev w R = [w] ∨
    ¬(∀ next ∈ R.head?, 1 / 100 < |cross prev w next|) ∧ keptLast prev w R = [] := by
  by_cases h : ∀ next ∈ R.head?, 1 / 100 < |cross prev w next|
  · exact Or.inl ⟨h, if_pos h⟩
  · exact Or.inr ⟨h, if_neg h⟩

/-! ### Cutting the list -/

theorem keepCorners_cons (prev curr next : Waypoint) (rest : List Waypoint) :
    keepCorners (prev :: curr :: next :: rest) =
      keepCorners [prev, curr, next] ++ keepCorners (curr :: next :: rest) := by
  by_cases h : 1 / 100 < |cross prev curr next|
  · rw [keepCorners, keepCorners, if_pos h, if_pos h]
    rfl
  · rw [keepCorners, keepCorners, if_neg h, if_neg h]
    rfl

/-- Every waypoint but the two ends has both neighbours in one of the parts. -/
theorem keepCorners_append (A : List Waypoint) (x y : Waypoint) (B : List Waypoint) :
    keepCorners (A ++ x :: y :: B) = keepCorners (A ++ [x, y]) ++ keepCorners (x :: y :: B) := by
  induction A with
  | nil => rfl
  | cons a A ih =>
    match A with
    | [] => exact keepCorners_cons a x y B
    | [a'] =>
      simp only [List.cons_append, List.nil_append] at ih ⊢
      rw [keepCorners_cons a a' x (y :: B), keepCorners_cons a a' x [y], ih, List.append_assoc]
    | a' :: a'' :: A =>
      simp only [List.cons_append] at ih ⊢
      rw [keepCorners_cons a a' a'' (A ++ x :: y :: B), keepCorners_cons a a' a'' (A ++ [x, y]), ih,
        List.append_assoc]

theorem keepCorners_triple_subset (prev curr next : Waypoint) :
    keepCorners [prev, curr, next] ⊆ [curr] := by
  by_cases h : 1 / 100 < |cross prev curr next|
  · rw [keepCorners, if_pos h]
    exact List.Subset.refl _
  · rw [keepCorners, if_neg h]
    exact List.nil_subset _

/-- The ends of a list are no corners. -/
theorem keepCorners_cons_subset (a : Waypoint) (l : List Waypoint) : keepCorners (a :: l) ⊆ l := by
  induction l generalizing a with
  | nil => exact List.nil_subset _
  | cons b l ih =>
    match l with
    | [] => exact List.nil_subset _
    | d :: l =>
      rw [keepCorners_cons, List.append_subset]
      exact ⟨List.Subset.trans (keepCorners_triple_subset a b d) (by simp),
        fun e he => List.mem_cons_of_mem b (ih b he)⟩

theorem keepCorners_concat_subset (l : List Waypoint) (a : Waypoint) :
    keepCorners (l ++ [a]) ⊆ l := by
  induction l with
  | nil => exact List.nil_subset _
  | cons b l ih =>
    match l with
    | [] => exact List.nil_subset _
    | d :: l =>
      obtain ⟨e, rest, heq⟩ : ∃ e rest, l ++ [a] = e :: rest :=
        List.exists_cons_of_ne_nil (List.append_ne_nil_of_right_ne_nil l (by simp))
      simp only [List.cons_append, heq] at ih ⊢
      rw [keepCorners_cons, List.append_subset]
      exact ⟨List.Subset.trans (keepCorners_triple_subset b d e) (by simp),
        fun f hf => List.mem_cons_of_mem b (ih hf)⟩

/-- Waypoints on one height have no corner. -/
theorem keepCorners_eq_nil (l : List Waypoint) (h : ∀ w ∈ l, w.y = c) : keepCorners l = [] := by
  induction l using keepCorners.induct with
  | case1 prev curr next rest hcross ih =>
    have hprev : prev.y = c := h prev (by simp)
    have hcurr : curr.y = c := h curr (by simp)
    have hnext : next.y = c := h next (by simp)
    rw [cross, hprev, hcurr, hnext] at hcross
    norm_num at hcross
  | case2 prev curr next rest hcross ih =>
    rw [keepCorners, if_neg hcross]
    exact ih fun w hw => h w (List.mem_cons_of_mem _ hw)
  | case3 l hshort => exact keepCorners.eq_2 l hshort

/-! ### One part of the list -/

/-- What is kept up to the second waypoint of a part. -/
theorem head_append_keepCorners (P : List Waypoint) (w next : Waypoint) (T : List Waypoint) :
    ∃ A, A ⊆ P ∧
      (P ++ w :: next :: T).head?.toList ++ keepCorners (P ++ w :: next :: T) =
        A ++ keptFirst P w next ++ keepCorners (w :: next :: T) := by
  rcases List.eq_nil_or_concat P with rfl | ⟨P, z, rfl⟩
  · exact ⟨[], List.nil_subset _, by simp [keptFirst]⟩
  · rw [List.concat_eq_append]
    refine ⟨(P ++ [z]).head?.toList ++ keepCorners (P ++ [z] ++ [w]), ?_, ?_⟩
    · refine List.append_subset.mpr ⟨fun e he => ?_, keepCorners_concat_subset _ _⟩
      exact List.mem_of_mem_head? (Option.mem_toList.mp he)
    · have hhead : (P ++ [z] ++ w :: next :: T).head? = (P ++ [z]).head? :=
        List.head?_append_of_ne_nil _ (by simp)
      have hlast : keepCorners [z, w, next] = keptFirst (P ++ [z]) w next := by
        simp [keepCorners, keptFirst]
      rw [hhead, keepCorners_append, ← hlast]
      have hcut := keepCorners_append P z w [next]
      simp only [List.append_assoc, List.singleton_append] at hcut ⊢
      rw [hcut, List.append_assoc]

/-- What is kept from the last but one waypoint of a part on. -/
theorem keepCorners_append_getLast (S : List Waypoint) (prev w : Waypoint) (R : List Waypoint) :
    ∃ B, B ⊆ R ∧
      keepCorners (S ++ prev :: w :: R) ++ (S ++ prev :: w :: R).getLast?.toList =
        keepCorners (S ++ [prev, w]) ++ (keptLast prev w R ++ B) := by
  cases R with
  | nil =>
    refine ⟨[], List.nil_subset _, ?_⟩
    simp [keptLast]
  | cons r R =>
    refine ⟨keepCorners (w :: r :: R) ++ (r :: R).getLast?.toList, ?_, ?_⟩
    · refine List.append_subset.mpr ⟨keepCorners_cons_subset _ _, fun e he => ?_⟩
      exact List.mem_of_mem_getLast? (Option.mem_toList.mp he)
    · have hlast : (S ++ prev :: w :: r :: R).getLast? = (r :: R).getLast? := by
        rw [List.getLast?_append_of_ne_nil _ (by simp)]
        simp [List.getLast?_cons_cons]
      have hfirst : keepCorners [prev, w, r] = keptLast prev w (r :: R) := by
        simp [keepCorners, keptLast]
      rw [hlast, keepCorners_append, keepCorners_cons prev w r R, hfirst]
      simp only [List.append_assoc]

/-- **Of a part on one height, its first and its last waypoint may be kept.** -/
theorem optimizeWaypoints_split (hfirst : Q = w :: next :: T) (hlast : Q = S ++ [prev, w'])
    (hflat : ∀ e ∈ Q, e.y = c) :
    ∃ A B, A ⊆ P ∧ B ⊆ R ∧ optimizeWaypoints (P ++ (Q ++ R)) =
      A ++ ((keptFirst P w next ++ keptLast prev w' R) ++ B) := by
  have hcut : ∀ l : List Waypoint, 2 ≤ l.length →
      optimizeWaypoints l = l.head?.toList ++ keepCorners l ++ l.getLast?.toList := by
    intro l hl
    match l, hl with
    | [a, b], _ => simp [optimizeWaypoints, keepCorners]
    | a :: b :: d :: l, _ => simp [optimizeWaypoints]
  have hQR₁ : Q ++ R = w :: next :: (T ++ R) := by rw [hfirst]; rfl
  have hQR₂ : Q ++ R = S ++ prev :: w' :: R := by rw [hlast]; simp
  obtain ⟨A, hA, hbefore⟩ := head_append_keepCorners P w next (T ++ R)
  obtain ⟨B, hB, hafter⟩ := keepCorners_append_getLast S prev w' R
  refine ⟨A, B, hA, hB, ?_⟩
  rw [hcut _ (by rw [hQR₁]; simp; omega)]
  have hend : (P ++ (Q ++ R)).getLast? = (S ++ prev :: w' :: R).getLast? := by
    rw [hQR₂, List.getLast?_append_of_ne_nil _ (by simp)]
  rw [hend, hQR₁, hbefore, ← hQR₁, hQR₂, List.append_assoc, hafter, ← hlast,
    keepCorners_eq_nil Q hflat]
  simp only [List.nil_append, List.append_assoc]

end Coverage
