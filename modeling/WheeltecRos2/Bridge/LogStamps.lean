/-
Timestamps of log lines.

`_parse_log_line` finds a timestamp at the beginning of a line, with a space or a `T`
between date and time and a fraction after a point or a comma, and passes it on with a
point.  `isoMatch` reads what it has accepted again (`isoMatch_group`), so a timestamp keeps
its time (`timeOf_timestamp`).  The entries are sorted by the text of their timestamps.  On
ASCII digits that is the order of time (`digits_lt_iff`, `fractionValue_le_of_lt`), except that on
one day every time with a space sorts before every time with a `T` (`sortsBefore_iff`).
-/
import Mathlib.Algebra.Order.Field.Basic
import Mathlib.Algebra.Order.Field.Rat
import Mathlib.Data.Char
import Mathlib.Data.List.Lex
import Mathlib.Data.List.TakeWhile
import Mathlib.Tactic.Linarith
import Mathlib.Tactic.FieldSimp
import Mathlib.Tactic.Ring

namespace Bridge

/-- `\d` with the values of the digits, `re.search` for the severities, in upper case, and
`_now_iso`. -/
structure LogText where
  decimal : Char → Option ℕ
  searchSeverity : List Char → Option String
  nowIso : List Char
  decimal_ascii : ∀ c, c.isDigit = true → decimal c = some (c.toNat - '0'.toNat)
  decimal_comma : decimal ',' = none

/-- The groups of the expression for timestamps.  The fraction has its mark before it. -/
structure Stamp where
  year : List Char
  month : List Char
  day : List Char
  separator : Char
  hour : List Char
  minute : List Char
  second : List Char
  fraction : Option (Char × List Char)
  deriving DecidableEq

namespace Stamp

/-- The mark and the digits of a fraction. -/
def fractionText : Option (Char × List Char) → List Char
  | some (mark, digits) => mark :: digits
  | none => []

/-- `iso_match.group(1)`. -/
def group (s : Stamp) : List Char :=
  s.year ++ '-' :: (s.month ++ '-' :: (s.day ++ s.separator :: (s.hour ++ ':' :: (s.minute ++
    ':' :: (s.second ++ fractionText s.fraction)))))

/-- With a point for a comma. -/
def timestamp (s : Stamp) : List Char := s.group.map fun c => if c = ',' then '.' else c

end Stamp

namespace LogText

variable (text : LogText)

/-- `\d`. -/
def isDecimal (c : Char) : Bool := (text.decimal c).isSome

/-- `\d{n}`. -/
def digits (n : ℕ) (line : List Char) : Option (List Char × List Char) :=
  if (line.take n).length = n ∧ (line.take n).all text.isDecimal then
    some (line.take n, line.drop n)
  else none

/-- One of some characters. -/
def oneOf (chars : List Char) : List Char → Option (Char × List Char)
  | c :: rest => if c ∈ chars then some (c, rest) else none
  | [] => none

/-- `(?:[.,]\d+)?`. -/
def fraction (line : List Char) : Option (Char × List Char) × List Char :=
  match line with
  | mark :: rest =>
    if mark ∈ ['.', ','] ∧ rest.takeWhile text.isDecimal ≠ [] then
      (some (mark, rest.takeWhile text.isDecimal), rest.dropWhile text.isDecimal)
    else (none, line)
  | [] => (none, [])

/-- The match of the expression at the beginning of a line, and the rest of the line. -/
def isoMatch (line : List Char) : Option (Stamp × List Char) := do
  let (year, rest) ← text.digits 4 line
  let (_, rest) ← oneOf ['-'] rest
  let (month, rest) ← text.digits 2 rest
  let (_, rest) ← oneOf ['-'] rest
  let (day, rest) ← text.digits 2 rest
  let (separator, rest) ← oneOf [' ', 'T'] rest
  let (hour, rest) ← text.digits 2 rest
  let (_, rest) ← oneOf [':'] rest
  let (minute, rest) ← text.digits 2 rest
  let (_, rest) ← oneOf [':'] rest
  let (second, rest) ← text.digits 2 rest
  let (fraction, rest) := text.fraction rest
  return ({ year, month, day, separator, hour, minute, second, fraction }, rest)

/-- The number that digits spell. -/
def value (digits : List Char) : ℕ :=
  digits.foldl (fun n c => 10 * n + (text.decimal c).getD 0) 0

/-- The digits after the mark, as part of a second. -/
def fractionValue : Option (Char × List Char) → ℚ
  | some (_, digits) => text.value digits / 10 ^ digits.length
  | none => 0

/-- A point in time: year, month, day, hour, minute and second, read as one number. -/
def time (s : Stamp) : ℚ :=
  text.value (s.year ++ s.month ++ s.day ++ s.hour ++ s.minute ++ s.second) +
    text.fractionValue s.fraction

/-- The time of the timestamp at the beginning of a text. -/
def timeOf (line : List Char) : ℚ :=
  match text.isoMatch line with
  | some (stamp, _) => text.time stamp
  | none => 0

/-- Decimal digits, `n` of them. -/
structure Numeral (n : ℕ) (digits : List Char) : Prop where
  length : digits.length = n
  decimal : ∀ c ∈ digits, text.isDecimal c = true

end LogText

/-- A match of the expression. -/
structure Stamp.Proper (text : LogText) (s : Stamp) : Prop where
  year : text.Numeral 4 s.year
  month : text.Numeral 2 s.month
  day : text.Numeral 2 s.day
  separator : s.separator ∈ [' ', 'T']
  hour : text.Numeral 2 s.hour
  minute : text.Numeral 2 s.minute
  second : text.Numeral 2 s.second
  fraction : ∀ mark digits, s.fraction = some (mark, digits) →
    mark ∈ ['.', ','] ∧ digits ≠ [] ∧ ∀ c ∈ digits, text.isDecimal c = true

/-! ### What is matched -/

section Match

variable {text : LogText} {n : ℕ} {line rest digits chars : List Char} {c : Char} {s : Stamp}

theorem digits_eq_some_iff :
    text.digits n line = some (digits, rest) ↔ text.Numeral n digits ∧ line = digits ++ rest := by
  rw [LogText.digits]
  constructor
  · intro h
    split_ifs at h with hdigits
    obtain ⟨rfl, rfl⟩ := Prod.mk.inj (Option.some.inj h)
    exact ⟨⟨hdigits.1, List.all_eq_true.mp hdigits.2⟩, (List.take_append_drop n line).symm⟩
  · rintro ⟨⟨rfl, hdecimal⟩, rfl⟩
    rw [List.take_left, List.drop_left, if_pos ⟨rfl, List.all_eq_true.mpr hdecimal⟩]

theorem oneOf_eq_some_iff :
    LogText.oneOf chars line = some (c, rest) ↔ c ∈ chars ∧ line = c :: rest := by
  cases line with
  | nil => simp [LogText.oneOf]
  | cons d line =>
    rw [LogText.oneOf]
    split_ifs with hmem
    · constructor
      · intro h
        obtain ⟨rfl, rfl⟩ := Prod.mk.inj (Option.some.inj h)
        exact ⟨hmem, rfl⟩
      · rintro ⟨-, h⟩
        obtain ⟨rfl, rfl⟩ := List.cons.inj h
        rfl
    · refine iff_of_false nofun ?_
      rintro ⟨hc, h⟩
      exact hmem ((List.cons.inj h).1 ▸ hc)

/-- The fraction and the rest make up the text. -/
theorem fraction_append (text : LogText) (line : List Char) :
    Stamp.fractionText (text.fraction line).1 ++ (text.fraction line).2 = line := by
  cases line with
  | nil => rfl
  | cons mark rest =>
    rw [LogText.fraction]
    split_ifs
    · exact congrArg (mark :: ·) List.takeWhile_append_dropWhile
    · rfl

theorem fraction_proper {mark : Char} (h : (text.fraction line).1 = some (mark, digits)) :
    mark ∈ ['.', ','] ∧ digits ≠ [] ∧ ∀ c ∈ digits, text.isDecimal c = true := by
  cases line with
  | nil => cases h
  | cons first rest =>
    rw [LogText.fraction] at h
    split_ifs at h with hmark
    obtain ⟨rfl, rfl⟩ := Prod.mk.inj (Option.some.inj h)
    exact ⟨hmark.1, hmark.2, fun c hc => List.mem_takeWhile_imp hc⟩

/-- The expression takes as many digits as there are. -/
theorem fraction_text {f : Option (Char × List Char)}
    (h : ∀ mark digits, f = some (mark, digits) →
      mark ∈ ['.', ','] ∧ digits ≠ [] ∧ ∀ c ∈ digits, text.isDecimal c = true) :
    text.fraction (Stamp.fractionText f) = (f, []) := by
  cases f with
  | none => rfl
  | some f =>
    obtain ⟨mark, digits⟩ := f
    obtain ⟨hmark, hne, hdecimal⟩ := h mark digits rfl
    have htake := List.takeWhile_eq_self_iff.mpr hdecimal
    have hdrop := List.dropWhile_eq_nil_iff.mpr hdecimal
    rw [Stamp.fractionText, LogText.fraction, htake, hdrop, if_pos ⟨hmark, hne⟩]

/-! One step of the expression, backwards and forwards. -/

section Steps

variable {α : Type} {r : α} {f : List Char × List Char → Option α}
  {g : Char × List Char → Option α}

theorem exists_of_digits_bind (h : text.digits n line >>= f = some r) :
    ∃ digits rest, text.Numeral n digits ∧ line = digits ++ rest ∧ f (digits, rest) = some r := by
  obtain ⟨⟨digits, rest⟩, hstep, hnext⟩ := Option.bind_eq_some_iff.mp h
  obtain ⟨hnumeral, hline⟩ := digits_eq_some_iff.mp hstep
  exact ⟨digits, rest, hnumeral, hline, hnext⟩

theorem exists_of_oneOf_bind (h : LogText.oneOf chars line >>= g = some r) :
    ∃ c rest, c ∈ chars ∧ line = c :: rest ∧ g (c, rest) = some r := by
  obtain ⟨⟨c, rest⟩, hstep, hnext⟩ := Option.bind_eq_some_iff.mp h
  obtain ⟨hmem, hline⟩ := oneOf_eq_some_iff.mp hstep
  exact ⟨c, rest, hmem, hline, hnext⟩

theorem digits_bind (h : text.Numeral n digits) :
    text.digits n (digits ++ rest) >>= f = f (digits, rest) := by
  rw [digits_eq_some_iff.mpr ⟨h, rfl⟩]
  rfl

theorem oneOf_bind (h : c ∈ chars) : LogText.oneOf chars (c :: rest) >>= g = g (c, rest) := by
  rw [oneOf_eq_some_iff.mpr ⟨h, rfl⟩]
  rfl

end Steps

/-- **What is matched is the beginning of the line.** -/
theorem isoMatch_sound (h : text.isoMatch line = some (s, rest)) :
    s.Proper text ∧ line = s.group ++ rest := by
  rw [LogText.isoMatch] at h
  obtain ⟨year, _, hyear, rfl, h₁⟩ := exists_of_digits_bind h
  obtain ⟨_, _, hdash, rfl, h₂⟩ := exists_of_oneOf_bind h₁
  obtain ⟨month, _, hmonth, rfl, h₃⟩ := exists_of_digits_bind h₂
  obtain ⟨_, _, hdash', rfl, h₄⟩ := exists_of_oneOf_bind h₃
  obtain ⟨day, _, hday, rfl, h₅⟩ := exists_of_digits_bind h₄
  obtain ⟨separator, _, hseparator, rfl, h₆⟩ := exists_of_oneOf_bind h₅
  obtain ⟨hour, _, hhour, rfl, h₇⟩ := exists_of_digits_bind h₆
  obtain ⟨_, _, hcolon, rfl, h₈⟩ := exists_of_oneOf_bind h₇
  obtain ⟨minute, _, hminute, rfl, h₉⟩ := exists_of_digits_bind h₈
  obtain ⟨_, _, hcolon', rfl, h₁₀⟩ := exists_of_oneOf_bind h₉
  obtain ⟨second, tail, hsecond, rfl, h₁₁⟩ := exists_of_digits_bind h₁₀
  obtain ⟨rfl, rfl⟩ :
      ⟨year, month, day, separator, hour, minute, second, (text.fraction tail).1⟩ = s ∧
        (text.fraction tail).2 = rest := Prod.mk.inj (Option.some.inj h₁₁)
  obtain rfl := List.mem_singleton.mp hdash
  obtain rfl := List.mem_singleton.mp hdash'
  obtain rfl := List.mem_singleton.mp hcolon
  obtain rfl := List.mem_singleton.mp hcolon'
  constructor
  · exact ⟨hyear, hmonth, hday, hseparator, hhour, hminute, hsecond,
      fun mark digits => fraction_proper⟩
  · simp [Stamp.group, fraction_append]

/-- **A timestamp is read again.** -/
theorem isoMatch_group (h : s.Proper text) : text.isoMatch s.group = some (s, []) := by
  have hdash : '-' ∈ ['-'] := List.mem_singleton_self _
  have hcolon : ':' ∈ [':'] := List.mem_singleton_self _
  rw [LogText.isoMatch, Stamp.group]
  refine (digits_bind h.year).trans ?_
  refine (oneOf_bind hdash).trans ?_
  refine (digits_bind h.month).trans ?_
  refine (oneOf_bind hdash).trans ?_
  refine (digits_bind h.day).trans ?_
  refine (oneOf_bind h.separator).trans ?_
  refine (digits_bind h.hour).trans ?_
  refine (oneOf_bind hcolon).trans ?_
  refine (digits_bind h.minute).trans ?_
  refine (oneOf_bind hcolon).trans ?_
  refine (digits_bind h.second).trans ?_
  simp only [fraction_text h.fraction]
  rfl

/-- The stamp with a point before its fraction. -/
def Stamp.pointed (s : Stamp) : Stamp :=
  { s with fraction := s.fraction.map fun (_, digits) => ('.', digits) }

theorem Stamp.Proper.pointed (h : s.Proper text) : s.pointed.Proper text where
  year := h.year
  month := h.month
  day := h.day
  separator := h.separator
  hour := h.hour
  minute := h.minute
  second := h.second
  fraction := by
    intro mark digits hfraction
    obtain ⟨⟨mark', digits'⟩, hs, hpoint⟩ := Option.map_eq_some_iff.mp hfraction
    obtain ⟨rfl, rfl⟩ := Prod.mk.inj hpoint
    exact ⟨by simp, (h.fraction mark' digits' hs).2⟩

/-- Digits are kept. -/
theorem map_comma_of_decimal (h : ∀ c ∈ digits, text.isDecimal c = true) :
    digits.map (fun c => if c = ',' then '.' else c) = digits := by
  refine (List.map_congr_left fun c hc => ?_).trans (List.map_id digits)
  refine if_neg ?_
  rintro rfl
  have := h ',' hc
  rw [LogText.isDecimal, text.decimal_comma] at this
  cases this

theorem timestamp_eq_group (h : s.Proper text) : s.timestamp = s.pointed.group := by
  have hseparator : s.separator ≠ ',' := by
    rcases List.mem_pair.mp h.separator with hs | hs <;> rw [hs] <;> decide
  have hfraction : (Stamp.fractionText s.fraction).map (fun c => if c = ',' then '.' else c) =
      Stamp.fractionText s.pointed.fraction := by
    rcases hs : s.fraction with - | ⟨mark, digits⟩
    · simp [Stamp.pointed, hs, Stamp.fractionText]
    · obtain ⟨hmark, -, hdecimal⟩ := h.fraction mark digits hs
      rcases List.mem_pair.mp hmark with rfl | rfl <;>
        simp [Stamp.pointed, hs, Stamp.fractionText, map_comma_of_decimal hdecimal]
  simp [Stamp.timestamp, Stamp.group, map_comma_of_decimal h.year.decimal,
    map_comma_of_decimal h.month.decimal, map_comma_of_decimal h.day.decimal,
    map_comma_of_decimal h.hour.decimal, map_comma_of_decimal h.minute.decimal,
    map_comma_of_decimal h.second.decimal, hseparator, hfraction]
  rfl

theorem time_pointed (text : LogText) (s : Stamp) : text.time s.pointed = text.time s := by
  rcases hs : s.fraction with - | ⟨mark, digits⟩ <;>
    simp [LogText.time, Stamp.pointed, LogText.fractionValue, hs]

/-- **The timestamp of an entry has the time of its line.** -/
theorem timeOf_timestamp (h : text.isoMatch line = some (s, rest)) :
    text.timeOf s.timestamp = text.timeOf line := by
  have hproper := (isoMatch_sound h).1
  rw [LogText.timeOf, LogText.timeOf, h, timestamp_eq_group hproper,
    isoMatch_group hproper.pointed]
  exact time_pointed text s

end Match

/-! ### The order of ASCII digits -/

/-- Digits from `0` to `9`. -/
def AsciiDigits (digits : List Char) : Prop := ∀ c ∈ digits, c.isDigit = true

section Digits

variable {text : LogText} {a b : List Char} {c c' : Char}

theorem lt_iff_toNat_lt : c < c' ↔ c.toNat < c'.toNat := Iff.rfl

theorem toNat_of_isDigit (h : c.isDigit = true) : 48 ≤ c.toNat ∧ c.toNat ≤ 57 := by
  simp only [Char.isDigit, Bool.and_eq_true, decide_eq_true_eq] at h
  exact ⟨h.1, h.2⟩

theorem decimal_of_isDigit (text : LogText) (h : c.isDigit = true) :
    (text.decimal c).getD 0 = c.toNat - 48 := by
  rw [text.decimal_ascii c h]
  rfl

theorem AsciiDigits.cons_iff : AsciiDigits (c :: a) ↔ c.isDigit = true ∧ AsciiDigits a :=
  List.forall_mem_cons

theorem foldl_value (text : LogText) (digits : List Char) (n : ℕ) :
    digits.foldl (fun n c => 10 * n + (text.decimal c).getD 0) n =
      n * 10 ^ digits.length + text.value digits := by
  induction digits generalizing n with
  | nil => simp [LogText.value]
  | cons c digits ih =>
    have hcons : text.value (c :: digits) =
        (10 * 0 + (text.decimal c).getD 0) * 10 ^ digits.length + text.value digits := ih _
    rw [List.foldl_cons, ih, hcons, List.length_cons, pow_succ]
    ring

theorem value_append (text : LogText) (a b : List Char) :
    text.value (a ++ b) = text.value a * 10 ^ b.length + text.value b := by
  rw [LogText.value, List.foldl_append, foldl_value]
  rfl

theorem value_cons (h : c.isDigit = true) :
    text.value (c :: a) = (c.toNat - 48) * 10 ^ a.length + text.value a := by
  rw [← List.singleton_append, value_append, ← decimal_of_isDigit text h]
  simp [LogText.value]

theorem value_lt (text : LogText) (h : AsciiDigits a) : text.value a < 10 ^ a.length := by
  induction a with
  | nil => simp [LogText.value]
  | cons c a ih =>
    obtain ⟨hc, ha⟩ := AsciiDigits.cons_iff.mp h
    have hvalue := ih ha
    have hdigit := toNat_of_isDigit hc
    rw [value_cons hc, List.length_cons, pow_succ]
    calc (c.toNat - 48) * 10 ^ a.length + text.value a
        < (c.toNat - 48) * 10 ^ a.length + 10 ^ a.length := by omega
      _ = (c.toNat - 48 + 1) * 10 ^ a.length := by ring
      _ ≤ 10 * 10 ^ a.length := Nat.mul_le_mul_right _ (by omega)
      _ = 10 ^ a.length * 10 := Nat.mul_comm _ _

/-- A leading digit decides before the rest does. -/
theorem leading_lt_iff {x y m k P : ℕ} (hm : m < P) (hk : k < P) :
    x * P + m < y * P + k ↔ x < y ∨ x = y ∧ m < k := by
  rcases lt_trichotomy x y with hlt | rfl | hgt
  · have hle : (x + 1) * P ≤ y * P := Nat.mul_le_mul_right P hlt
    rw [Nat.add_mul, Nat.one_mul] at hle
    exact iff_of_true (by omega) (.inl hlt)
  · rw [Nat.add_lt_add_iff_left]
    simp
  · have hle : (y + 1) * P ≤ x * P := Nat.mul_le_mul_right P hgt
    rw [Nat.add_mul, Nat.one_mul] at hle
    exact iff_of_false (by omega) (by omega)

/-- **Digits of one length sort as the numbers they spell.** -/
theorem digits_lt_iff (text : LogText) (ha : AsciiDigits a) (hb : AsciiDigits b)
    (hlength : a.length = b.length) :
    a < b ↔ text.value a < text.value b := by
  induction a generalizing b with
  | nil =>
    obtain rfl := List.length_eq_zero_iff.mp hlength.symm
    exact iff_of_false (lt_irrefl _) (lt_irrefl _)
  | cons c a ih =>
    cases b with
    | nil => cases hlength
    | cons c' b =>
      obtain ⟨hc, ha⟩ := AsciiDigits.cons_iff.mp ha
      obtain ⟨hc', hb⟩ := AsciiDigits.cons_iff.mp hb
      have hlength : a.length = b.length := Nat.succ.inj hlength
      have hvalue := value_lt text ha
      have hvalue' := value_lt text hb
      have hdigit := toNat_of_isDigit hc
      have hdigit' := toNat_of_isDigit hc'
      rw [hlength] at hvalue
      rw [List.cons_lt_cons_iff, ih ha hb hlength, value_cons hc, value_cons hc', hlength,
        leading_lt_iff hvalue hvalue', lt_iff_toNat_lt, ← Char.toNat_inj]
      omega

theorem digits_eq_iff (text : LogText) (ha : AsciiDigits a) (hb : AsciiDigits b)
    (hlength : a.length = b.length) :
    a = b ↔ text.value a = text.value b := by
  have hlt := digits_lt_iff text ha hb hlength
  have hgt := digits_lt_iff text hb ha hlength.symm
  constructor
  · rintro rfl
    rfl
  · intro hvalue
    rcases lt_trichotomy a b with h | h | h
    · exact absurd (hlt.mp h) (by omega)
    · exact h
    · exact absurd (hgt.mp h) (by omega)

/-- The beginnings decide before the rests do. -/
theorem append_lt_append_iff {x y : List Char} (hlength : a.length = b.length) :
    a ++ x < b ++ y ↔ a < b ∨ a = b ∧ x < y := by
  induction a generalizing b with
  | nil =>
    obtain rfl := List.length_eq_zero_iff.mp hlength.symm
    simp
  | cons c a ih =>
    cases b with
    | nil => cases hlength
    | cons c' b =>
      rw [List.cons_append, List.cons_append, List.cons_lt_cons_iff, List.cons_lt_cons_iff,
        ih (Nat.succ.inj hlength), List.cons.injEq]
      tauto

/-! ### Fractions -/

/-- The part of a second that digits spell. -/
def LogText.part (text : LogText) (digits : List Char) : ℚ :=
  text.value digits / 10 ^ digits.length

theorem part_cons (h : c.isDigit = true) :
    text.part (c :: a) = ((c.toNat - 48 : ℕ) + text.part a) / 10 := by
  rw [LogText.part, LogText.part, value_cons h, List.length_cons, pow_succ]
  push_cast
  field_simp

theorem part_nonneg (text : LogText) (a : List Char) : 0 ≤ text.part a :=
  div_nonneg (Nat.cast_nonneg _) (by positivity)

theorem part_lt_one (text : LogText) (h : AsciiDigits a) : text.part a < 1 := by
  rw [LogText.part, div_lt_one (by positivity)]
  exact_mod_cast value_lt text h

/-- **A fraction that sorts before another one is not the later one.** -/
theorem part_le_of_lt (ha : AsciiDigits a) (hb : AsciiDigits b) (hlt : a < b) :
    text.part a ≤ text.part b := by
  induction a generalizing b with
  | nil =>
    have hzero : text.part [] = 0 := by simp [LogText.part, LogText.value]
    rw [hzero]
    exact part_nonneg text b
  | cons c a ih =>
    cases b with
    | nil => exact absurd hlt (List.not_lt_nil _)
    | cons c' b =>
      obtain ⟨hc, ha'⟩ := AsciiDigits.cons_iff.mp ha
      obtain ⟨hc', hb'⟩ := AsciiDigits.cons_iff.mp hb
      have hdigit := toNat_of_isDigit hc
      have hone := part_lt_one text ha'
      have hpos := part_nonneg text b
      rw [part_cons hc, part_cons hc']
      rw [List.cons_lt_cons_iff, lt_iff_toNat_lt] at hlt
      rcases hlt with hlt | ⟨rfl, hlt⟩
      · have hle : ((c.toNat - 48 : ℕ) : ℚ) + 1 ≤ (c'.toNat - 48 : ℕ) := by
          exact_mod_cast (show c.toNat - 48 + 1 ≤ c'.toNat - 48 by omega)
        linarith
      · have hle := ih ha' hb' hlt
        linarith

end Digits

/-! ### The order of timestamps -/

/-- All digits of the stamp are ASCII. -/
structure Stamp.Ascii (s : Stamp) : Prop where
  year : AsciiDigits s.year
  month : AsciiDigits s.month
  day : AsciiDigits s.day
  hour : AsciiDigits s.hour
  minute : AsciiDigits s.minute
  second : AsciiDigits s.second
  fraction : ∀ mark digits, s.fraction = some (mark, digits) → AsciiDigits digits

def Stamp.date (s : Stamp) : List Char × List Char × List Char := (s.year, s.month, s.day)

/-- Year, month, day, hour, minute and second as one number. -/
def LogText.wholeTime (text : LogText) (s : Stamp) : ℕ :=
  ((((text.value s.year * 100 + text.value s.month) * 100 + text.value s.day) * 100 +
    text.value s.hour) * 100 + text.value s.minute) * 100 + text.value s.second

section Order

variable {text : LogText} {s s' : Stamp}

theorem time_eq (h : s.Proper text) :
    text.time s = text.wholeTime s + text.fractionValue s.fraction := by
  rw [LogText.time, LogText.wholeTime, value_append, value_append, value_append, value_append,
    value_append, h.month.length, h.day.length, h.hour.length, h.minute.length, h.second.length,
    show 10 ^ 2 = 100 from rfl]

theorem fractionValue_bounds (text : LogText) (h : s.Ascii) :
    0 ≤ text.fractionValue s.fraction ∧ text.fractionValue s.fraction < 1 := by
  rcases hs : s.fraction with - | ⟨mark, digits⟩
  · exact ⟨le_rfl, one_pos⟩
  · exact ⟨part_nonneg text digits, part_lt_one text (h.fraction mark digits hs)⟩

/-- A fraction, after a point, that sorts before another one is not the later one. -/
theorem fractionValue_le_of_lt (text : LogText) (h : s.Ascii) (h' : s'.Ascii)
    (hlt : Stamp.fractionText s.pointed.fraction < Stamp.fractionText s'.pointed.fraction) :
    text.fractionValue s.fraction ≤ text.fractionValue s'.fraction := by
  rcases hs : s.fraction with - | ⟨mark, digits⟩
  · exact (fractionValue_bounds text h').1
  · rcases hs' : s'.fraction with - | ⟨mark', digits'⟩
    · rw [Stamp.pointed, Stamp.pointed, hs, hs'] at hlt
      exact absurd hlt (List.not_lt_nil _)
    · rw [Stamp.pointed, Stamp.pointed, hs, hs'] at hlt
      have hdigits : digits < digits' := by
        simpa [Stamp.fractionText, List.cons_lt_cons_iff] using hlt
      exact part_le_of_lt (h.fraction mark digits hs) (h'.fraction mark' digits' hs') hdigits

/-- Timestamps sort field by field. -/
theorem timestamp_lt_iff (hs : s.Proper text) (hs' : s'.Proper text) (ha : s.Ascii)
    (ha' : s'.Ascii) :
    s'.timestamp < s.timestamp ↔
      text.value s'.year < text.value s.year ∨ text.value s'.year = text.value s.year ∧
      (text.value s'.month < text.value s.month ∨ text.value s'.month = text.value s.month ∧
      (text.value s'.day < text.value s.day ∨ text.value s'.day = text.value s.day ∧
      (s'.separator < s.separator ∨ s'.separator = s.separator ∧
      (text.value s'.hour < text.value s.hour ∨ text.value s'.hour = text.value s.hour ∧
      (text.value s'.minute < text.value s.minute ∨ text.value s'.minute = text.value s.minute ∧
      (text.value s'.second < text.value s.second ∨ text.value s'.second = text.value s.second ∧
      Stamp.fractionText s'.pointed.fraction < Stamp.fractionText s.pointed.fraction)))))) := by
  have hfields : ∀ {n d d'}, text.Numeral n d → text.Numeral n d' → AsciiDigits d →
      AsciiDigits d' → ∀ x y : List Char, (d' ++ x < d ++ y ↔
        text.value d' < text.value d ∨ text.value d' = text.value d ∧ x < y) := by
    intro n d d' hd hd' had had' x y
    have hlength := hd'.length.trans hd.length.symm
    rw [append_lt_append_iff hlength, digits_lt_iff text had' had hlength,
      digits_eq_iff text had' had hlength]
  have hgroup : ∀ s : Stamp, s.pointed.group = s.year ++ '-' :: (s.month ++ '-' :: (s.day ++
      s.separator :: (s.hour ++ ':' :: (s.minute ++ ':' :: (s.second ++
        Stamp.fractionText s.pointed.fraction))))) := fun _ => rfl
  rw [timestamp_eq_group hs, timestamp_eq_group hs', hgroup, hgroup]
  simp only [List.cons_lt_cons_iff, lt_irrefl, false_or, true_and,
    hfields hs.year hs'.year ha.year ha'.year, hfields hs.month hs'.month ha.month ha'.month,
    hfields hs.day hs'.day ha.day ha'.day, hfields hs.hour hs'.hour ha.hour ha'.hour,
    hfields hs.minute hs'.minute ha.minute ha'.minute,
    hfields hs.second hs'.second ha.second ha'.second]

theorem date_eq_iff (hs : s.Proper text) (hs' : s'.Proper text) (ha : s.Ascii) (ha' : s'.Ascii) :
    s'.date = s.date ↔ text.value s'.year = text.value s.year ∧
      text.value s'.month = text.value s.month ∧ text.value s'.day = text.value s.day := by
  rw [Stamp.date, Stamp.date, Prod.mk.injEq, Prod.mk.injEq,
    digits_eq_iff text ha'.year ha.year (hs'.year.length.trans hs.year.length.symm),
    digits_eq_iff text ha'.month ha.month (hs'.month.length.trans hs.month.length.symm),
    digits_eq_iff text ha'.day ha.day (hs'.day.length.trans hs.day.length.symm)]

/-- **Only a space and a `T` sort the wrong way round.**  A newer timestamp sorts before an
older one exactly if they have the same date and only the older one has a `T`. -/
theorem sortsBefore_iff (hs : s.Proper text) (hs' : s'.Proper text) (ha : s.Ascii)
    (ha' : s'.Ascii) (hnewer : text.time s < text.time s') :
    s'.timestamp < s.timestamp ↔ s'.date = s.date ∧ s'.separator = ' ' ∧ s.separator = 'T' := by
  have hspace : s'.separator < s.separator ↔ s'.separator = ' ' ∧ s.separator = 'T' := by
    rcases List.mem_pair.mp hs.separator with h | h <;>
      rcases List.mem_pair.mp hs'.separator with h' | h' <;> rw [h, h'] <;> decide
  rw [timestamp_lt_iff hs hs' ha ha', date_eq_iff hs hs' ha ha', ← hspace]
  rw [time_eq hs, time_eq hs'] at hnewer
  constructor
  · intro hsorts
    have hfraction := fractionValue_bounds text ha
    have hfraction' := fractionValue_bounds text ha'
    have hwhole : text.wholeTime s ≤ text.wholeTime s' := by
      have hlt : (text.wholeTime s : ℚ) < text.wholeTime s' + 1 := by linarith
      exact Nat.lt_succ_iff.mp (by exact_mod_cast hlt)
    have hbound : ∀ {d}, text.Numeral 2 d → AsciiDigits d → text.value d < 100 := by
      intro d hd had
      have hvalue := value_lt text had
      rwa [hd.length] at hvalue
    have hmonth := hbound hs'.month ha'.month
    have hday := hbound hs'.day ha'.day
    have hhour := hbound hs'.hour ha'.hour
    have hminute := hbound hs'.minute ha'.minute
    have hsecond := hbound hs'.second ha'.second
    rw [LogText.wholeTime, LogText.wholeTime] at hwhole
    -- an earlier field would make the whole time smaller
    rcases hsorts with hlt | ⟨hY, hlt | ⟨hM, hlt | ⟨hD, hlt | ⟨-, hlt | ⟨hh, hlt | ⟨hm, hlt |
      ⟨hsec, hlt⟩⟩⟩⟩⟩⟩⟩
    · omega
    · omega
    · omega
    · exact ⟨⟨hY, hM, hD⟩, hlt⟩
    · omega
    · omega
    · omega
    · have hle := fractionValue_le_of_lt text ha' ha hlt
      have hsame : text.wholeTime s' = text.wholeTime s := by
        rw [LogText.wholeTime, LogText.wholeTime, hY, hM, hD, hh, hm, hsec]
      rw [hsame] at hnewer
      exact absurd hnewer (not_lt.mpr (by linarith))
  · rintro ⟨⟨hY, hM, hD⟩, hlt⟩
    exact .inr ⟨hY, .inr ⟨hM, .inr ⟨hD, .inl hlt⟩⟩⟩

end Order

end Bridge
