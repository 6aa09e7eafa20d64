/-
Trimming a list at both ends.

`trim p` drops the elements with `p` from the beginning and from the end of a list, as
`strip` does with the white space of a text.  `mem_trim_iff` says which elements stay:
those with an element without `p` not later, and one not earlier, than they are.
-/
import Mathlib.Data.List.DropRight
import Mathlib.Tactic.Common

namespace Trim

variable {α : Type*} {p : α → Bool} {l A B : List α} {x : α}

/-- The list without the elements with `p` at its ends. -/
def trim (p : α → Bool) (l : List α) : List α := (l.dropWhile p).rdropWhile p

theorem trim_subset (p : α → Bool) (l : List α) : trim p l ⊆ l :=
  List.Subset.trans (List.rdropWhile_prefix p (l.dropWhile p)).subset
    (List.dropWhile_suffix p).subset

/-- Dropping from the beginning stops before the first element without `p`. -/
theorem dropWhile_append_of_exists (h : ∃ a ∈ A, p a = false) (B : List α) :
    (A ++ B).dropWhile p = A.dropWhile p ++ B := by
  obtain ⟨a, ha, hpa⟩ := h
  rw [List.dropWhile_append, if_neg]
  intro hnil
  have := List.dropWhile_eq_nil_iff.mp (List.isEmpty_iff.mp hnil) a ha
  rw [hpa] at this
  exact absurd this (by simp)

theorem rdropWhile_append_of_exists (A : List α) (h : ∃ b ∈ B, p b = false) :
    (A ++ B).rdropWhile p = A ++ B.rdropWhile p := by
  obtain ⟨b, hb, hpb⟩ := h
  rw [List.rdropWhile, List.reverse_append,
    dropWhile_append_of_exists ⟨b, List.mem_reverse.mpr hb, hpb⟩, List.reverse_append,
    List.reverse_reverse]
  rfl

/-- An element stays at the beginning if something without `p` comes not later. -/
theorem dropWhile_append_cons (h : ∃ a ∈ A ++ [x], p a = false) (B : List α) :
    ∃ A', (A ++ x :: B).dropWhile p = A' ++ x :: B := by
  have hne : (A ++ [x]).dropWhile p ≠ [] := by
    intro hnil
    obtain ⟨a, ha, hpa⟩ := h
    have := List.dropWhile_eq_nil_iff.mp hnil a ha
    rw [hpa] at this
    exact absurd this (by simp)
  have hlast : ((A ++ [x]).dropWhile p).getLast hne = x := by
    rw [(List.dropWhile_suffix p).getLast hne, List.getLast_append_singleton]
  refine ⟨((A ++ [x]).dropWhile p).dropLast, ?_⟩
  have hsplit := List.dropLast_append_getLast hne
  rw [hlast] at hsplit
  rw [List.append_cons A x B, dropWhile_append_of_exists h, List.append_cons _ x B, hsplit]

theorem mem_rdropWhile_cons (h : ∃ b ∈ x :: B, p b = false) : x ∈ (x :: B).rdropWhile p := by
  obtain ⟨b, hb, hpb⟩ := h
  obtain ⟨A', hdrop⟩ := dropWhile_append_cons (A := B.reverse) (x := x)
    ⟨b, by rw [← List.reverse_cons]; exact List.mem_reverse.mpr hb, hpb⟩ []
  rw [List.rdropWhile, List.mem_reverse, List.reverse_cons, hdrop]
  simp

/-- **The elements that stay.** -/
theorem mem_trim_iff : x ∈ trim p l ↔
    ∃ A B, l = A ++ x :: B ∧ (∃ a ∈ A ++ [x], p a = false) ∧ ∃ b ∈ x :: B, p b = false := by
  constructor
  · intro h
    obtain ⟨rest, hrest⟩ := List.rdropWhile_prefix p (l.dropWhile p)
    obtain ⟨A', B', hsplit⟩ := List.append_of_mem h
    have hstays : trim p l ≠ [] := List.ne_nil_of_mem h
    have hdrop : l.dropWhile p = A' ++ x :: (B' ++ rest) := by
      rw [← hrest, show (l.dropWhile p).rdropWhile p = A' ++ x :: B' from hsplit, List.append_assoc,
        List.cons_append]
    refine ⟨l.takeWhile p ++ A', B' ++ rest, ?_, ?_, ?_⟩
    · rw [List.append_assoc, ← hdrop, List.takeWhile_append_dropWhile]
    · -- the first element that was not dropped
      have hhead := List.head?_dropWhile_not p l
      rw [hdrop] at hhead
      rcases A' with _ | ⟨a, A'⟩
      · exact ⟨x, by simp, hhead⟩
      · exact ⟨a, by simp, hhead⟩
    · -- and the last one
      have hlast := List.rdropWhile_last_not p (l.dropWhile p) hstays
      refine ⟨(trim p l).getLast hstays, ?_, (Bool.not_eq_true _).mp hlast⟩
      rw [List.getLast_congr hstays (by simp) hsplit, List.getLast_append_of_ne_nil (by simp)]
      exact List.mem_append_left rest (List.getLast_mem (by simp))
  · rintro ⟨A, B, rfl, hbefore, hafter⟩
    obtain ⟨A', hdrop⟩ := dropWhile_append_cons hbefore B
    rw [trim, hdrop, rdropWhile_append_of_exists A' hafter]
    exact List.mem_append_right A' (mem_rdropWhile_cons hafter)

end Trim
