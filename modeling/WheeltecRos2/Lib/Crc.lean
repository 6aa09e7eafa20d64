/-
Cyclic redundancy checks, a register of `w` bits and symbols of as many.

A symbol goes into the register by exclusive or, and then the register is shifted `w` times;
each bit that falls out takes the polynomial off.  A message with its check at the end has the
digest zero.

* `digest_xor`: the digest of a sum is the sum of the digests.
* `Burst.digest_flip_iff`: if the polynomial is odd, errors within `w` consecutive bits change
  the digest.
-/
import Mathlib.Data.BitVec
import Mathlib.Logic.Function.Iterate
import Mathlib.Tactic.Common

namespace Crc

variable {w : ℕ} (p : BitVec w)

/-- One bit: the register moves up, and what falls out takes the polynomial off. -/
def shift (c : BitVec w) : BitVec w := if c.msb then c <<< 1 ^^^ p else c <<< 1

/-- The register after a list of symbols. -/
def digest (c : BitVec w) (l : List (BitVec w)) : BitVec w :=
  l.foldl (fun c b => (shift p)^[w] (c ^^^ b)) c

/-- What is flipped lies within `w` consecutive bits, from the bit `start` on; a symbol goes from
its high bit down. -/
def Within (start : ℕ) (e : List (BitVec w)) : Prop :=
  ∀ i (hi : i < e.length) j, e[i].getLsbD j →
    start ≤ w * i + (w - 1 - j) ∧ w * i + (w - 1 - j) < start + w

/-- A burst of errors. -/
def Burst (e : List (BitVec w)) : Prop := ∃ start, Within start e

/-- A message with errors. -/
def flip (l e : List (BitVec w)) : List (BitVec w) := List.zipWith (· ^^^ ·) l e

variable {p} {c d : BitVec w} {l e : List (BitVec w)} {n k start : ℕ}

/-! ### The register -/

theorem shift_xor : shift p (c ^^^ d) = shift p c ^^^ shift p d := by
  rw [shift, shift, shift, BitVec.msb_xor, BitVec.shiftLeft_xor_distrib]
  cases c.msb <;> cases d.msb <;> simp <;> grind

theorem shift_of_msb (h : c.msb = false) : shift p c = c <<< 1 := by simp [shift, h]

/-- The low bit tells what fell out. -/
theorem eq_zero_of_shift (hp : p.getLsbD 0) (h : shift p c = 0#w) : c = 0#w := by
  have hw : 0 < w := BitVec.lt_of_getLsbD hp
  by_cases hc : c.msb
  · rw [shift, if_pos hc] at h
    have hlow : (c <<< 1 ^^^ p).getLsbD 0 = false := by rw [h, BitVec.getLsbD_zero]
    simp [hp] at hlow
  · rw [Bool.not_eq_true] at hc
    rw [shift_of_msb hc] at h
    refine BitVec.eq_of_getLsbD_eq fun j hj => ?_
    rw [BitVec.getLsbD_zero]
    by_cases hlast : j = w - 1
    · rw [hlast, ← BitVec.msb_eq_getLsbD_last, hc]
    · have hbit : (c <<< 1).getLsbD (j + 1) = false := by rw [h, BitVec.getLsbD_zero]
      rw [BitVec.getLsbD_shiftLeft] at hbit
      simpa [show j + 1 < w by omega] using hbit

@[simp] theorem shifts_zero : (shift p)^[n] 0#w = 0#w :=
  Function.iterate_fixed (by simp [shift]) n

theorem shifts_xor : (shift p)^[n] (c ^^^ d) = (shift p)^[n] c ^^^ (shift p)^[n] d := by
  induction n with
  | zero => rfl
  | succ n ih => simp only [Function.iterate_succ_apply', ih, shift_xor]

theorem eq_zero_of_shifts (hp : p.getLsbD 0) (h : (shift p)^[n] c = 0#w) : c = 0#w := by
  induction n with
  | zero => exact h
  | succ n ih =>
    rw [Function.iterate_succ_apply'] at h
    exact ih (eq_zero_of_shift hp h)

/-- As long as nothing falls out, a shift is one. -/
theorem shifts_low (hc : ∀ j, c.getLsbD j → j + n < w) : (shift p)^[n] c = c <<< n := by
  induction n with
  | zero => simp
  | succ n ih =>
    rw [Function.iterate_succ_apply', ih (fun j hj => by have := hc j hj; omega)]
    have hmsb : (c <<< n).msb = false := by
      rw [BitVec.msb_eq_getLsbD_last, BitVec.getLsbD_shiftLeft, ← Bool.not_eq_true]
      intro h
      simp only [Bool.and_eq_true, decide_eq_true_eq, Bool.not_eq_true', decide_eq_false_iff_not]
        at h
      have := hc _ h.2
      omega
    rw [shift_of_msb hmsb, ← BitVec.shiftLeft_add]

/-- A symbol with low bits and the next one with the high bits that are left. -/
theorem pair_eq_zero (hp : p.getLsbD 0) (hk : k ≤ w) (hc : ∀ j, c.getLsbD j → j < k)
    (hd : ∀ j, d.getLsbD j → k ≤ j) (h : (shift p)^[w] c ^^^ d = 0#w) : c = 0#w ∧ d = 0#w := by
  -- both are `k` shifts of something short, which differ in no bit
  have hcs : (shift p)^[w] c = (shift p)^[k] (c <<< (w - k)) := by
    rw [← shifts_low (p := p) (fun j hj => by have := hc j hj; omega), ← Function.iterate_add_apply,
      Nat.add_sub_cancel' hk]
  have hds : d = (shift p)^[k] (d >>> k) := by
    rw [shifts_low]
    · refine BitVec.eq_of_getLsbD_eq fun j hj => ?_
      rw [BitVec.getLsbD_shiftLeft, BitVec.getLsbD_ushiftRight]
      by_cases hj' : j < k
      · simp only [hj, hj', decide_true, Bool.not_true, Bool.and_false, Bool.false_and]
        rw [← Bool.not_eq_true]
        intro hbit
        have := hd j hbit
        omega
      · simp [hj, hj', show k + (j - k) = j by omega]
    · intro j hj
      rw [BitVec.getLsbD_ushiftRight] at hj
      have := BitVec.lt_of_getLsbD hj
      omega
  rw [hcs, hds, ← shifts_xor] at h
  have hsame := BitVec.xor_eq_zero_iff.mp (eq_zero_of_shifts hp h)
  have hbit (j : ℕ) : (c <<< (w - k)).getLsbD j = (d >>> k).getLsbD j := by rw [hsame]
  simp only [BitVec.getLsbD_shiftLeft, BitVec.getLsbD_ushiftRight] at hbit
  constructor
  · refine BitVec.eq_of_getLsbD_eq fun j hj => ?_
    rw [BitVec.getLsbD_zero, ← Bool.not_eq_true]
    intro hcj
    have hjk := hc j hcj
    have h' := hbit (j + (w - k))
    rw [BitVec.getLsbD_of_ge d _ (by omega)] at h'
    simp [hcj, show j + (w - k) < w by omega, show ¬ j + (w - k) < w - k by omega] at h'
  · refine BitVec.eq_of_getLsbD_eq fun j hj => ?_
    rw [BitVec.getLsbD_zero, ← Bool.not_eq_true]
    intro hdj
    have hjk := hd j hdj
    have h' := hbit (j - k)
    rw [show k + (j - k) = j by omega, hdj] at h'
    simp [show j - k < w - k by omega] at h'

/-! ### Digests -/

theorem digest_cons : digest p c (d :: l) = digest p ((shift p)^[w] (c ^^^ d)) l := rfl

theorem digest_append (m : List (BitVec w)) : digest p c (l ++ m) = digest p (digest p c l) m :=
  List.foldl_append

/-- The digest of a sum. -/
theorem digest_xor (h : e.length = l.length) :
    digest p (c ^^^ d) (flip l e) = digest p c l ^^^ digest p d e := by
  induction l generalizing e c d with
  | nil =>
    obtain rfl := List.length_eq_zero_iff.mp h
    rfl
  | cons x l ih =>
    obtain ⟨y, e, rfl⟩ := List.exists_cons_of_length_eq_add_one h
    have hxy : c ^^^ d ^^^ (x ^^^ y) = c ^^^ x ^^^ (d ^^^ y) := by grind
    rw [flip, List.zipWith_cons_cons, digest_cons, digest_cons, digest_cons, hxy, shifts_xor]
    exact ih (by simpa using h)

theorem eq_zero_of_digest (hp : p.getLsbD 0) (he : ∀ x ∈ e, x = 0#w) (h : digest p c e = 0#w) :
    c = 0#w := by
  induction e generalizing c with
  | nil => exact h
  | cons x e ih =>
    obtain rfl := he x (by simp)
    have hc : (shift p)^[w] (c ^^^ 0#w) = 0#w := ih (fun y hy => he y (by simp [hy])) h
    rw [BitVec.xor_zero] at hc
    exact eq_zero_of_shifts hp hc

/-! ### Bursts -/

theorem Within.tail {x : BitVec w} (h : Within start (x :: e)) : Within (start - w) e := by
  intro i hi j hj
  have hbit := h (i + 1) (by simpa using hi) j (by simpa using hj)
  rw [Nat.mul_add_one] at hbit
  omega

/-- Past the burst nothing is flipped. -/
theorem Within.eq_zero (h : Within start e) {i : ℕ} (hi : i < e.length)
    (hout : w * (i + 1) ≤ start ∨ start + w ≤ w * i) : e[i] = 0#w := by
  refine BitVec.eq_of_getLsbD_eq fun j hj => ?_
  rw [BitVec.getLsbD_zero, ← Bool.not_eq_true]
  intro hbit
  have := h i hi j hbit
  rw [Nat.mul_add_one] at hout
  omega

theorem Within.digest_iff (hp : p.getLsbD 0) (h : Within start e) :
    digest p 0#w e = 0#w ↔ ∀ x ∈ e, x = 0#w := by
  constructor
  · intro hzero
    induction e generalizing start with
    | nil => simp
    | cons x e ih =>
      rw [digest_cons, BitVec.zero_xor] at hzero
      by_cases hstart : w ≤ start
      · obtain rfl : x = 0#w := h.eq_zero (i := 0) (by simp) (by omega)
        rw [shifts_zero] at hzero
        have htail := ih h.tail hzero
        simpa using htail
      · cases e with
        | nil => simpa using eq_zero_of_shifts hp hzero
        | cons y e =>
          -- the burst begins in `x` and ends in `y`
          have hzeros : ∀ z ∈ e, z = 0#w := by
            intro z hz
            obtain ⟨i, hi, rfl⟩ := List.getElem_of_mem hz
            refine h.eq_zero (i := i + 2) (by simpa using hi) (.inr ?_)
            rw [Nat.mul_add]
            omega
          have hpair := eq_zero_of_shifts hp (eq_zero_of_digest hp hzeros hzero)
          obtain ⟨hx, hy⟩ := pair_eq_zero (k := w - start) hp (by omega)
            (fun j hj => by
              have hbit := h 0 (by simp) j hj
              have := BitVec.lt_of_getLsbD hj
              omega)
            (fun j hj => by
              have hbit := h 1 (by simp) j hj
              have := BitVec.lt_of_getLsbD hj
              omega)
            hpair
          simpa [hx, hy] using hzeros
  · intro hzero
    clear h
    induction e with
    | nil => rfl
    | cons x e ih =>
      obtain rfl := hzero x (by simp)
      rw [digest_cons, BitVec.xor_zero, shifts_zero]
      exact ih (fun y hy => hzero y (by simp [hy]))

/-- A burst of errors changes the digest. -/
theorem Burst.digest_flip_iff (hp : p.getLsbD 0) (he : Burst e) (hlen : e.length = l.length) :
    digest p c (flip l e) = digest p c l ↔ ∀ x ∈ e, x = 0#w := by
  obtain ⟨start, h⟩ := he
  have hsum : digest p c (flip l e) = digest p c l ^^^ digest p 0#w e := by
    rw [← digest_xor hlen, BitVec.xor_zero]
  rw [hsum, ← h.digest_iff hp]
  constructor
  · intro heq
    have hsame := congrArg (digest p c l ^^^ ·) heq
    rwa [← BitVec.xor_assoc, BitVec.xor_self, BitVec.zero_xor] at hsame
  · intro hzero
    rw [hzero, BitVec.xor_zero]

end Crc
