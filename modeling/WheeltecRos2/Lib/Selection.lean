/-
The greatest elements of a list by a key.

`ranked` sorts a list by a key, the greatest first, and leaves equal keys in the order they
had; `newest n` keeps the first `n` elements of it.  A key is kept exactly if fewer than `n`
elements have a greater one (`exists_mem_newest_iff`).  `newest_iff` compares the key with a
second ranking that it refines: the selection is right for that one too, exactly if every
pair which the key puts the wrong way round comes too late to be kept.
-/
import Mathlib.Data.List.Sort

namespace Selection

variable {α κ τ : Type*} [LinearOrder κ] [LinearOrder τ]

/-- Sorted by the key, the greatest first. -/
def ranked (key : α → κ) (l : List α) : List α := l.insertionSort fun a b => key b ≤ key a

/-- The first `n`. -/
def newest (key : α → κ) (n : ℕ) (l : List α) : List α := (ranked key l).take n

/-- The others. -/
def older (key : α → κ) (n : ℕ) (l : List α) : List α := (ranked key l).drop n

/-- How many have a key greater than `k`. -/
def above (key : α → κ) (l : List α) (k : κ) : ℕ := l.countP fun a => k < key a

variable {key : α → κ} {n : ℕ} {l : List α} {a b : α}

theorem mem_ranked_iff : a ∈ ranked key l ↔ a ∈ l :=
  List.mem_insertionSort _

theorem ranked_perm (key : α → κ) (l : List α) : (ranked key l).Perm l :=
  List.perm_insertionSort _ l

theorem ranked_pairwise (key : α → κ) (l : List α) :
    (ranked key l).Pairwise fun a b => key b ≤ key a := by
  have : IsTrans α fun a b => key b ≤ key a := ⟨fun _ _ _ hab hbc => le_trans hbc hab⟩
  have : Std.Total fun a b : α => key b ≤ key a := ⟨fun a b => le_total (key b) (key a)⟩
  exact List.pairwise_insertionSort _ l

theorem newest_append_older (key : α → κ) (n : ℕ) (l : List α) :
    newest key n l ++ older key n l = ranked key l :=
  List.take_append_drop n _

theorem mem_of_mem_newest (h : a ∈ newest key n l) : a ∈ l :=
  mem_ranked_iff.mp (List.mem_of_mem_take h)

theorem mem_of_mem_older (h : a ∈ older key n l) : a ∈ l :=
  mem_ranked_iff.mp (List.mem_of_mem_drop h)

/-- What is left out comes after what is kept. -/
theorem key_le_of_mem_older (ha : a ∈ newest key n l) (hb : b ∈ older key n l) :
    key b ≤ key a := by
  have hpair := ranked_pairwise key l
  rw [← newest_append_older key n l, List.pairwise_append] at hpair
  exact hpair.2.2 a ha b hb

/-- Fewer than `n` elements are greater than one of those kept. -/
theorem above_lt_of_mem_newest (h : a ∈ newest key n l) : above key l (key a) < n := by
  obtain ⟨before, after, hsplit⟩ := List.append_of_mem h
  have hpair := ranked_pairwise key l
  rw [← newest_append_older key n l, hsplit, List.append_assoc, List.pairwise_append,
    List.cons_append, List.pairwise_cons] at hpair
  have hafter : (after ++ older key n l).countP (fun b => key a < key b) = 0 := by
    refine List.countP_eq_zero.mpr ?_
    intro b hb
    simpa using hpair.2.1.1 b hb
  have hlength : (newest key n l).length ≤ n := List.length_take_le n _
  have hbefore := List.countP_le_length (p := fun b => decide (key a < key b)) (l := before)
  rw [hsplit, List.length_append, List.length_cons] at hlength
  rw [above, ← (ranked_perm key l).countP_eq, ← newest_append_older key n l, hsplit,
    List.append_assoc, List.countP_append, List.cons_append, List.countP_cons, hafter]
  simp only [lt_self_iff_false, decide_false, Bool.false_eq_true, if_false]
  omega

/-- **The keys that are kept.** -/
theorem exists_mem_newest_iff {k : κ} :
    (∃ a ∈ newest key n l, key a = k) ↔
      (∃ a ∈ l, key a = k) ∧ above key l k < n := by
  constructor
  · rintro ⟨a, ha, rfl⟩
    exact ⟨⟨a, mem_of_mem_newest ha, rfl⟩, above_lt_of_mem_newest ha⟩
  · rintro ⟨⟨a, ha, rfl⟩, hcount⟩
    by_contra hnone
    push Not at hnone
    have hmem : a ∈ ranked key l := mem_ranked_iff.mpr ha
    rw [← newest_append_older key n l, List.mem_append] at hmem
    have hold : a ∈ older key n l := hmem.resolve_left fun hnew => hnone a hnew rfl
    -- otherwise every element kept is greater
    have hall : ∀ b ∈ newest key n l, decide (key a < key b) = true := fun b hb =>
      decide_eq_true (lt_of_le_of_ne (key_le_of_mem_older hb hold) (hnone b hb).symm)
    have hlength : (newest key n l).length = n := by
      have hpos : 0 < (older key n l).length := List.length_pos_of_mem hold
      rw [older, List.length_drop] at hpos
      rw [newest, List.length_take]
      omega
    rw [above, ← (ranked_perm key l).countP_eq, ← newest_append_older key n l, List.countP_append,
      List.countP_eq_length.mpr hall, hlength] at hcount
    omega

/-- **A selection by a key is one by `time`** exactly if two elements which the key puts the
wrong way round have at least `n` elements before them. -/
theorem newest_iff {time : α → τ} (hsame : ∀ a b, key a = key b → time a = time b) :
    ((newest key n l).Pairwise (fun a b => time b ≤ time a) ∧
        ∀ a ∈ newest key n l, ∀ b ∈ older key n l, time b ≤ time a) ↔
      ∀ a ∈ l, ∀ b ∈ l, time a < time b → key b < key a → n ≤ above key l (key a) := by
  have hpair := ranked_pairwise key l
  rw [← newest_append_older key n l, List.pairwise_append] at hpair
  constructor
  · rintro ⟨hsorted, holder⟩ a ha b hb htime hkey
    by_contra hcount
    obtain ⟨a', ha', hsameKey⟩ := exists_mem_newest_iff.mpr ⟨⟨a, ha, rfl⟩, not_le.mp hcount⟩
    rw [← hsame a' a hsameKey] at htime
    rw [← hsameKey] at hkey
    have hmem : b ∈ ranked key l := mem_ranked_iff.mpr hb
    rw [← newest_append_older key n l, List.mem_append] at hmem
    rcases hmem with hnew | hold
    -- both are kept, and one of them comes first
    · obtain ⟨before, after, hsplit⟩ := List.append_of_mem ha'
      have hkeys := hpair.1
      rw [hsplit, List.pairwise_append, List.pairwise_cons] at hkeys hsorted
      rw [hsplit, List.mem_append, List.mem_cons] at hnew
      rcases hnew with hnew | rfl | hnew
      · exact absurd hkey (not_lt.mpr (hkeys.2.2 b hnew a' List.mem_cons_self))
      · exact lt_irrefl _ hkey
      · exact absurd htime (not_lt.mpr (hsorted.2.1.1 b hnew))
    · exact absurd htime (not_lt.mpr (holder a' ha' b hold))
  · intro hlate
    have hordered : ∀ a ∈ newest key n l, ∀ b ∈ l, key b ≤ key a → time b ≤ time a := by
      intro a ha b hb hkey
      by_contra htime
      have htime := not_le.mp htime
      have hlt : key b < key a := lt_of_le_of_ne hkey fun heq => htime.ne' (hsame b a heq)
      have hcount := hlate a (mem_of_mem_newest ha) b hb htime hlt
      exact absurd (above_lt_of_mem_newest ha) (not_lt.mpr hcount)
    refine ⟨hpair.1.imp_of_mem fun ha hb hkey => hordered _ ha _ (mem_of_mem_newest hb) hkey, ?_⟩
    intro a ha b hb
    exact hordered a ha b (mem_of_mem_older hb) (key_le_of_mem_older ha hb)

end Selection
