/-
Searching a two-symbol marker without looking back.

The search skips to the next `a` and then takes one symbol more: a `b` completes the marker, and
any other symbol is given up with the `a`.  In a text without the marker it so takes the symbols
of a run of `a` in pairs, and whether the last `a` of the text is left unpaired depends on
the length of the run at its end (`trailing_clean`, `trailing_unpaired`, `even_trailing_skip`).
`skipping` is the induction along the search.
-/
import Mathlib.Algebra.Group.Nat.Even
import Mathlib.Data.List.DropRight
import Mathlib.Data.List.Infix

namespace Marker

variable {α : Type*} {a b c : α} {before text : List α}

/-- **Induction along the search.**  Nothing to skip to; an `a` at the very end; or an `a` and
the symbol behind it. -/
theorem skipping {motive : List α → Prop} (clean : ∀ before, a ∉ before → motive before)
    (unpaired : ∀ before, a ∉ before → motive (before ++ [a]))
    (skip : ∀ before c text, a ∉ before → c ≠ b → ¬[a, b] <:+: text → motive text →
      motive (before ++ a :: c :: text)) :
    ∀ text, ¬[a, b] <:+: text → motive text := by
  intro text
  induction hlength : text.length using Nat.strong_induction_on generalizing text with
  | _ n ih =>
    intro hfree
    by_cases ha : a ∈ text
    · obtain ⟨before, after, rfl, hbefore⟩ := List.eq_append_cons_of_mem ha
      cases after with
      | nil => exact unpaired before hbefore
      | cons c text =>
        have hc : c ≠ b := by
          rintro rfl
          exact hfree ⟨before, text, by simp⟩
        have htext : ¬[a, b] <:+: text := fun h =>
          hfree (h.trans ⟨before ++ [a, c], [], by simp⟩)
        refine skip before c text hbefore hc htext (ih text.length ?_ text rfl htext)
        rw [← hlength, List.length_append, List.length_cons, List.length_cons]
        omega
    · exact clean text ha

section Trailing

variable [DecidableEq α]

/-- How many `a` the text ends in. -/
def trailing (a : α) (text : List α) : ℕ := (text.rtakeWhile (· = a)).length

@[simp] theorem trailing_nil (a : α) : trailing a [] = 0 := rfl

theorem trailing_concat (a c : α) (text : List α) :
    trailing a (text ++ [c]) = if c = a then trailing a text + 1 else 0 := by
  rw [trailing, trailing]
  split_ifs with h
  · rw [List.rtakeWhile_concat_pos _ _ _ (by simpa using h), List.length_append,
      List.length_singleton]
  · rw [List.rtakeWhile_concat_neg _ _ _ (by simpa using h), List.length_nil]

theorem trailing_clean (h : a ∉ before) : trailing a before = 0 := by
  rcases List.eq_nil_or_concat before with rfl | ⟨text, c, rfl⟩
  · exact trailing_nil a
  · rw [List.concat_eq_append] at h ⊢
    rw [trailing_concat, if_neg]
    rintro rfl
    exact h (by simp)

theorem trailing_unpaired (h : a ∉ before) : trailing a (before ++ [a]) = 1 := by
  rw [trailing_concat, if_pos rfl, trailing_clean h]

/-- A skipped pair does not change the parity. -/
theorem even_trailing_skip (h : a ∉ before) :
    Even (trailing a (before ++ a :: c :: text)) ↔ Even (trailing a text) := by
  induction text using List.reverseRecOn with
  | nil =>
    have hpair : before ++ [a, c] = (before ++ [a]) ++ [c] := by simp
    rw [hpair, trailing_concat, trailing_unpaired h, trailing_nil]
    split_ifs <;> decide
  | append_singleton text d ih =>
    have hlast : before ++ a :: c :: (text ++ [d]) = (before ++ a :: c :: text) ++ [d] := by simp
    rw [hlast, trailing_concat, trailing_concat]
    split_ifs
    · rw [Nat.even_add_one, Nat.even_add_one, ih]
    · exact Iff.rfl

end Trailing

end Marker
