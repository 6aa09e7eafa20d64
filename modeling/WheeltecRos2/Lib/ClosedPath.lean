/-
The edges of a path through a list of points, and of one that ends where it begins.

* `exists_between`: from a point to another some edge spans every value between theirs.
* `two_halves`: a closed path spans every value between those of two of its points twice.
* `crossings`: a closed path leaves a set and enters it again, if some of its points are in the set
  and some are not.
-/
import Mathlib.Data.List.Basic
import Mathlib.Order.Lattice
import Mathlib.Tactic.Common

namespace ClosedPath

variable {α β : Type*}

/-- From `p` through all points of the list. -/
def path : α → List α → List (α × α)
  | _, [] => []
  | p, q :: l => (p, q) :: path q l

theorem path_append (p v : α) (l m : List α) :
    path p (l ++ v :: m) = path p (l ++ [v]) ++ path v m := by
  induction l generalizing p with
  | nil => rfl
  | cons q l ih => rw [List.cons_append, List.cons_append, path, path, ih, List.cons_append]

theorem path_concat (p v : α) (l : List α) :
    path p (l ++ [v]) = (p :: l).zip l ++ [((p :: l).getLast (List.cons_ne_nil p l), v)] := by
  induction l generalizing p with
  | nil => rfl
  | cons q l ih =>
    rw [List.cons_append, path, ih, List.zip_cons_cons, List.getLast_cons (List.cons_ne_nil q l),
      List.cons_append]

/-- The ends of an edge are points of the path. -/
theorem mem_of_mem_path {p : α} {l : List α} {e : α × α} (h : e ∈ path p l) :
    e.1 ∈ p :: l ∧ e.2 ∈ l := by
  induction l generalizing p with
  | nil => exact absurd h List.not_mem_nil
  | cons q l ih =>
    rcases List.mem_cons.mp h with rfl | h
    · exact ⟨List.mem_cons_self, List.mem_cons_self⟩
    · exact ⟨List.mem_cons_of_mem _ (ih h).1, List.mem_cons_of_mem _ (ih h).2⟩

/-- An edge starts at every point but the last. -/
theorem exists_mem_path {p u : α} {l : List α} (v : α) (hu : u ∈ p :: l) :
    ∃ e ∈ path p (l ++ [v]), e.1 = u := by
  induction l generalizing p with
  | nil => exact ⟨(p, v), List.mem_singleton_self _, (List.mem_singleton.mp hu).symm⟩
  | cons q l ih =>
    rcases List.mem_cons.mp hu with rfl | hu
    · exact ⟨(u, q), List.mem_cons_self, rfl⟩
    · obtain ⟨e, he, hfst⟩ := ih hu
      exact ⟨e, List.mem_cons_of_mem _ he, hfst⟩

theorem exists_leaving {P : α → Prop} {p v : α} (l : List α) (hp : P p) (hv : ¬P v) :
    ∃ e ∈ path p (l ++ [v]), P e.1 ∧ ¬P e.2 := by
  induction l generalizing p with
  | nil => exact ⟨(p, v), List.mem_singleton_self _, hp, hv⟩
  | cons q l ih =>
    by_cases hq : P q
    · obtain ⟨e, he, hleaves⟩ := ih hq
      exact ⟨e, List.mem_cons_of_mem _ he, hleaves⟩
    · exact ⟨(p, q), List.mem_cons_self, hp, hq⟩

section Between

variable [LinearOrder β] (f : α → β) (x : β)

/-- `x` is between the values of `p` and `q`. -/
def Between (p q : α) : Prop := f p ≤ x ∧ x ≤ f q ∨ f q ≤ x ∧ x ≤ f p

variable {f x}

theorem Between.symm {p q : α} (h : Between f x p q) : Between f x q p := Or.symm h

theorem Between.split {p v : α} (h : Between f x p v) (q : α) :
    Between f x p q ∨ Between f x q v := by
  rcases le_total x (f q) with hq | hq
  · rcases h with ⟨hp, -⟩ | ⟨hv, -⟩
    · exact .inl (.inl ⟨hp, hq⟩)
    · exact .inr (.inr ⟨hv, hq⟩)
  · rcases h with ⟨-, hv⟩ | ⟨-, hp⟩
    · exact .inr (.inl ⟨hq, hv⟩)
    · exact .inl (.inr ⟨hq, hp⟩)

theorem exists_between {p v : α} (l : List α) (h : Between f x p v) :
    ∃ e ∈ path p (l ++ [v]), Between f x e.1 e.2 := by
  induction l generalizing p with
  | nil => exact ⟨(p, v), List.mem_singleton_self _, h⟩
  | cons q l ih =>
    rcases h.split q with hpq | hqv
    · exact ⟨(p, q), List.mem_cons_self, hpq⟩
    · obtain ⟨e, he, hbetween⟩ := ih hqv
      exact ⟨e, List.mem_cons_of_mem _ he, hbetween⟩

/-- Out to a point on the other side and back. -/
theorem two_halves {first u w : α} {rest : List α} (hrest : rest ≠ []) (hu : u ∈ first :: rest)
    (hw : w ∈ first :: rest) (h : Between f x u w) :
    ∃ out back, path first (rest ++ [first]) = out ++ back ∧
      (∃ e ∈ out, Between f x e.1 e.2) ∧ ∃ e ∈ back, Between f x e.1 e.2 := by
  obtain ⟨v, hv, hbetween⟩ : ∃ v ∈ rest, Between f x first v := by
    have hself (h : Between f x first first) : ∃ v ∈ rest, Between f x first v := by
      -- then `x` is the value of the first point
      have hx : f first ≤ x ∧ x ≤ f first := by rcases h with h | h <;> exact h
      obtain ⟨q, hq⟩ := List.exists_mem_of_ne_nil rest hrest
      rcases le_total x (f q) with hxq | hxq
      · exact ⟨q, hq, .inl ⟨hx.1, hxq⟩⟩
      · exact ⟨q, hq, .inr ⟨hxq, hx.2⟩⟩
    rcases h.split first with h | h
    · rcases List.mem_cons.mp hu with rfl | hu
      · exact hself h
      · exact ⟨u, hu, h.symm⟩
    · rcases List.mem_cons.mp hw with rfl | hw
      · exact hself h
      · exact ⟨w, hw, h⟩
  obtain ⟨l, m, rfl⟩ := List.append_of_mem hv
  refine ⟨path first (l ++ [v]), path v (m ++ [first]), ?_, exists_between l hbetween,
    exists_between m hbetween.symm⟩
  rw [List.append_assoc, List.cons_append, path_append]

end Between

theorem crossings {P : α → Prop} {first u w : α} {rest : List α} (hu : u ∈ first :: rest)
    (hw : w ∈ first :: rest) (hpu : P u) (hpw : ¬P w) :
    (∃ e ∈ path first (rest ++ [first]), P e.1 ∧ ¬P e.2) ∧
      ∃ e ∈ path first (rest ++ [first]), ¬P e.1 ∧ P e.2 := by
  by_cases hfirst : P first
  · have hne : w ≠ first := fun h => hpw (h ▸ hfirst)
    obtain ⟨l, m, rfl⟩ := List.append_of_mem (List.mem_of_ne_of_mem hne hw)
    rw [List.append_assoc, List.cons_append, path_append]
    obtain ⟨e, he, hout⟩ := exists_leaving l hfirst hpw
    obtain ⟨e', he', hin, hin'⟩ := exists_leaving (P := fun v => ¬P v) m hpw (not_not.mpr hfirst)
    exact ⟨⟨e, List.mem_append_left _ he, hout⟩,
      ⟨e', List.mem_append_right _ he', hin, not_not.mp hin'⟩⟩
  · have hne : u ≠ first := fun h => hfirst (h ▸ hpu)
    obtain ⟨l, m, rfl⟩ := List.append_of_mem (List.mem_of_ne_of_mem hne hu)
    rw [List.append_assoc, List.cons_append, path_append]
    obtain ⟨e, he, hin, hin'⟩ := exists_leaving (P := fun v => ¬P v) l hfirst (not_not.mpr hpu)
    obtain ⟨e', he', hout⟩ := exists_leaving m hpu hfirst
    exact ⟨⟨e', List.mem_append_right _ he', hout⟩,
      ⟨e, List.mem_append_left _ he, hin, not_not.mp hin'⟩⟩

end ClosedPath
