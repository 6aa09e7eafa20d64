/-
Sorting with one index that goes back over each swap.

The list is split before the index. A pair in the wrong order is swapped and the index goes back
one, if it can; a pair in order lets it go on.

* `sort_perm`, `sort_pairwise`: the result is sorted and has the entries of the input.

A swap takes one inversion away, so twice the inversions and the entries ahead decrease together.
-/
import Mathlib.Data.List.Count
import Mathlib.Data.List.Pairwise
import Mathlib.Order.Lattice
import Mathlib.Tactic.Common

namespace Gnome

variable {α β : Type*} [LinearOrder β] (key : α → β)

/-- The pairs in the wrong order. -/
def inversions : List α → ℕ
  | [] => 0
  | a :: l => l.countP (fun b => key b < key a) + inversions l

variable {key} in
theorem inversions_swap {a b : α} (h : key b < key a) (l r : List α) :
    inversions key (l ++ b :: a :: r) + 1 = inversions key (l ++ a :: b :: r) := by
  induction l with
  | nil =>
    simp only [List.nil_append, inversions, List.countP_cons, decide_eq_true h,
      decide_eq_false (not_lt.mpr (le_of_lt h))]
    simp only [if_true, Bool.false_eq_true, if_false]
    omega
  | cons c l ih =>
    have hperm : (l ++ b :: a :: r).Perm (l ++ a :: b :: r) := (List.Perm.swap a b r).append_left l
    rw [List.cons_append, List.cons_append, inversions, inversions, hperm.countP_eq]
    omega

/-- `left` are the entries before the index, the last one first. -/
def loop (left right : List α) : List α :=
  match right with
  | a :: b :: right =>
    if key b < key a then
      match left with
      | [] => loop [] (b :: a :: right)
      | c :: left => loop left (c :: b :: a :: right)
    else loop (a :: left) (b :: right)
  | [a] => left.reverse ++ [a]
  | [] => left.reverse
termination_by 2 * inversions key (left.reverse ++ right) + right.length
decreasing_by
  all_goals simp only [List.reverse_cons, List.append_assoc, List.cons_append, List.nil_append,
    List.reverse_nil, List.length_cons]
  · rename_i h
    have hswap := inversions_swap h [] right
    rw [List.nil_append, List.nil_append] at hswap
    omega
  · rename_i h
    have hswap := inversions_swap h (left.reverse ++ [c]) right
    simp only [List.append_assoc, List.cons_append, List.nil_append] at hswap
    omega
  · omega

def sort (l : List α) : List α := loop key [] l

theorem loop_forward {a b : α} (h : ¬key b < key a) (left right : List α) :
    loop key left (a :: b :: right) = loop key (a :: left) (b :: right) := by
  rw [loop.eq_def]
  exact if_neg h

theorem loop_perm (left right : List α) :
    (loop key left right).Perm (left.reverse ++ right) := by
  induction left, right using loop.induct key with
  | case1 a b right h ih =>
    rw [loop, if_pos h]
    exact ih.trans (List.Perm.swap a b right)
  | case2 a b right h c left ih =>
    rw [loop, if_pos h]
    refine ih.trans ?_
    rw [List.reverse_cons, List.append_assoc]
    exact ((List.Perm.swap a b right).cons c).append_left left.reverse
  | case3 left a b right h ih =>
    rw [loop_forward key h]
    refine ih.trans ?_
    rw [List.reverse_cons, List.append_assoc]
    rfl
  | case4 left a => rw [loop]
  | case5 left => rw [loop, List.append_nil]

/-- Up to the index the list is sorted. -/
theorem loop_pairwise (left right : List α)
    (hsorted : (left.reverse ++ right.take 1).Pairwise (key · ≤ key ·)) :
    (loop key left right).Pairwise (key · ≤ key ·) := by
  induction left, right using loop.induct key with
  | case1 a b right h ih =>
    rw [loop, if_pos h]
    exact ih (List.pairwise_singleton _ b)
  | case2 a b right h c left ih =>
    rw [loop, if_pos h]
    refine ih (hsorted.sublist ?_)
    rw [List.reverse_cons]
    exact List.sublist_append_left _ _
  | case3 left a b right h ih =>
    rw [loop_forward key h]
    refine ih ?_
    have hab : key a ≤ key b := not_lt.mp h
    rw [List.take_succ_cons, List.take_zero] at hsorted
    rw [List.reverse_cons, List.take_succ_cons, List.take_zero]
    refine List.pairwise_append.mpr ⟨hsorted, List.pairwise_singleton _ b, ?_⟩
    intro x hx y hy
    rw [List.mem_singleton.mp hy]
    rcases List.mem_append.mp hx with hx | hx
    · exact le_trans ((List.pairwise_append.mp hsorted).2.2 x hx a (List.mem_singleton_self a)) hab
    · rw [List.mem_singleton.mp hx]
      exact hab
  | case4 left a =>
    rw [loop]
    exact hsorted
  | case5 left =>
    rw [loop]
    simpa using hsorted

theorem sort_perm (l : List α) : (sort key l).Perm l := loop_perm key [] l

theorem sort_pairwise (l : List α) : (sort key l).Pairwise (key · ≤ key ·) := by
  refine loop_pairwise key [] l ?_
  rcases l with _ | ⟨a, l⟩
  · exact List.Pairwise.nil
  · exact List.pairwise_singleton _ a

end Gnome
