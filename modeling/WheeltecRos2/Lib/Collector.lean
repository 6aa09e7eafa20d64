/-
Fixed-length frame collectors over an unescaped symbol stream.

A collector waits for a header symbol, then gathers symbols until its window
is full, hands the window over and waits again.  Nothing in it depends on what
the symbols are.

* `feed` is one symbol, `rest` and `windows` a whole stream;
* `rest_suffix`, `feed_window_suffix`, `window_apart`: what is held or handed
  over is the end of the stream read so far, and handed-over windows are
  disjoint;
* `Cut` says that a stream falls, from left to right, into skipped symbols and
  whole windows, and `cut_iff`, `openCut_iff` that this is what the collector
  does with it;
* `clear_iff`: on a stream of the collector's own windows mixed with foreign
  symbols, exactly the own windows are accepted iff the foreign stretches can
  be cut.
-/
import Mathlib.Data.List.Basic
import Mathlib.Data.List.Induction
import Mathlib.Tactic.Common

namespace Collector

variable {α : Type}

/-- The symbol that opens a window and the number of symbols in it. -/
structure Shape (α : Type) where
  header : α
  size : ℕ
  two_le : 2 ≤ size

/-- What a collector holds between two symbols: less than a window, and if
anything then from the header on. -/
@[ext]
structure Buffer (c : Shape α) where
  symbols : List α
  lt_size : symbols.length < c.size
  header_first : ∀ x ∈ symbols.head?, x = c.header

/-- A full window. -/
@[ext]
structure Window (c : Shape α) where
  symbols : List α
  length_eq : symbols.length = c.size
  header_first : symbols.head? = some c.header

variable {c : Shape α}

/-- The collector that holds nothing. -/
def idle : Buffer c :=
  ⟨[], by have := c.two_le; simp; omega, by simp⟩

@[simp] theorem idle_symbols : (idle : Buffer c).symbols = [] := rfl

theorem eq_idle_iff {s : Buffer c} : s = idle ↔ s.symbols = [] := by
  constructor
  · rintro rfl
    rfl
  · intro h
    exact Buffer.ext h

theorem head?_push {s : Buffer c} {b : α}
    (h : ¬(s.symbols = [] ∧ b ≠ c.header)) :
    (s.symbols ++ [b]).head? = some c.header := by
  cases hs : s.symbols with
  | nil =>
    have hb : b = c.header := by
      by_contra hb
      exact h ⟨hs, hb⟩
    simp [hb]
  | cons x xs =>
    have hx := s.header_first x (by simp [hs])
    simp [hx]

variable [DecidableEq α]

/-- One symbol: the next buffer, and the window it completes. -/
def feed (s : Buffer c) (b : α) : Buffer c × Option (Window c) :=
  if h : s.symbols = [] ∧ b ≠ c.header then (s, none)
  else if hs : s.symbols.length + 1 = c.size then
    (idle, some ⟨s.symbols ++ [b], by simp [hs], head?_push h⟩)
  else
    (⟨s.symbols ++ [b], by have := s.lt_size; simp; omega,
      by rw [head?_push h]; simp⟩, none)

/-- The buffer after a whole stream. -/
def rest (s : Buffer c) : List α → Buffer c
  | [] => s
  | b :: bs => rest (feed s b).1 bs

/-- What each symbol of a stream completes. -/
def windows (s : Buffer c) : List α → List (Option (Window c))
  | [] => []
  | b :: bs => (feed s b).2 :: windows (feed s b).1 bs

@[simp] theorem rest_nil (s : Buffer c) : rest s [] = s := rfl

@[simp] theorem windows_nil (s : Buffer c) : windows s [] = [] := rfl

theorem rest_append (s : Buffer c) (as bs : List α) :
    rest s (as ++ bs) = rest (rest s as) bs := by
  induction as generalizing s with
  | nil => rfl
  | cons a as ih => exact ih _

theorem windows_append (s : Buffer c) (as bs : List α) :
    windows s (as ++ bs) = windows s as ++ windows (rest s as) bs := by
  induction as generalizing s with
  | nil => rfl
  | cons a as ih =>
    simp only [List.cons_append, windows, rest, ih]

@[simp] theorem windows_length (s : Buffer c) (bs : List α) :
    (windows s bs).length = bs.length := by
  induction bs generalizing s with
  | nil => rfl
  | cons b bs ih => simp [windows, ih]

/-! ### One symbol -/

theorem feed_skip {b : α} (h : b ≠ c.header) : feed (idle : Buffer c) b = (idle, none) := by
  rw [feed, dif_pos ⟨rfl, h⟩]

/-- A symbol that neither is skipped nor fills the window is kept. -/
theorem feed_keep {s t : Buffer c} {b : α} (h : t.symbols = s.symbols ++ [b]) :
    feed s b = (t, none) := by
  have hlt := t.lt_size
  have hhead : ¬(s.symbols = [] ∧ b ≠ c.header) := by
    rintro ⟨hs, hb⟩
    exact hb (t.header_first b (by simp [h, hs]))
  have hsize : ¬ s.symbols.length + 1 = c.size := by
    rw [h] at hlt
    simp only [List.length_append, List.length_singleton] at hlt
    omega
  rw [feed, dif_neg hhead, dif_neg hsize]
  exact Prod.ext (Buffer.ext h.symm) rfl

/-- A symbol that fills the window hands it over. -/
theorem feed_fill {s : Buffer c} {b : α} {w : Window c} (h : w.symbols = s.symbols ++ [b]) :
    feed s b = (idle, some w) := by
  have hlen := w.length_eq
  have hfirst := w.header_first
  rw [h] at hlen hfirst
  have hhead : ¬(s.symbols = [] ∧ b ≠ c.header) := by
    rintro ⟨hs, hb⟩
    rw [hs] at hfirst
    simp at hfirst
    exact hb hfirst
  have hsize : s.symbols.length + 1 = c.size := by simpa using hlen
  rw [feed, dif_neg hhead, dif_pos hsize]
  exact Prod.ext rfl (congrArg some (Window.ext h.symm))

/-- The three things a symbol can do. -/
theorem feed_cases (s : Buffer c) (b : α) :
    (s = idle ∧ b ≠ c.header ∧ feed s b = (idle, none)) ∨
    (∃ t : Buffer c, t.symbols = s.symbols ++ [b] ∧ feed s b = (t, none)) ∨
    (∃ w : Window c, w.symbols = s.symbols ++ [b] ∧ feed s b = (idle, some w)) := by
  by_cases h : s.symbols = [] ∧ b ≠ c.header
  · left
    have hs : s = idle := eq_idle_iff.mpr h.1
    exact ⟨hs, h.2, by rw [hs]; exact feed_skip h.2⟩
  · right
    by_cases hs : s.symbols.length + 1 = c.size
    · right
      exact ⟨⟨s.symbols ++ [b], by simp [hs], head?_push h⟩, rfl, feed_fill rfl⟩
    · left
      exact ⟨⟨s.symbols ++ [b], by have := s.lt_size; simp; omega,
        by rw [head?_push h]; simp⟩, rfl, feed_keep rfl⟩

theorem feed_window {s : Buffer c} {b : α} {w : Window c} (h : (feed s b).2 = some w) :
    w.symbols = s.symbols ++ [b] ∧ (feed s b).1 = idle := by
  rcases feed_cases s b with ⟨_, _, hf⟩ | ⟨t, _, hf⟩ | ⟨w', hw', hf⟩
  · rw [hf] at h
    exact absurd h (by simp)
  · rw [hf] at h
    exact absurd h (by simp)
  · rw [hf] at h
    obtain rfl : w' = w := by simpa using h
    exact ⟨hw', by rw [hf]⟩

/-- A symbol that changes nothing is one that an idle collector skips. -/
theorem feed_eq_self_iff {s : Buffer c} {b : α} :
    (feed s b).1 = s ↔ s = idle ∧ b ≠ c.header := by
  constructor
  · intro hsame
    rcases feed_cases s b with ⟨hs, hb, -⟩ | ⟨t, ht, hf⟩ | ⟨w, hw, hf⟩
    · exact ⟨hs, hb⟩
    · have hst : t = s := by simpa [hf] using hsame
      rw [hst] at ht
      simp at ht
    · -- a window has at least two symbols, so the collector was not idle
      have hs : s = idle := by simpa [hf] using hsame.symm
      have hlen := w.length_eq
      have htwo := c.two_le
      rw [hw, hs] at hlen
      simp at hlen
      omega
  · rintro ⟨rfl, hb⟩
    rw [feed_skip hb]

/-! ### Stretches of symbols -/

/-- Symbols that stay below the window size are all kept. -/
theorem rest_keep {s t : Buffer c} {bs : List α} (hne : s.symbols ++ bs ≠ [] → s.symbols = [] →
    bs.head? = some c.header) (h : t.symbols = s.symbols ++ bs) :
    rest s bs = t ∧ windows s bs = List.replicate bs.length none := by
  induction bs generalizing s with
  | nil =>
    have : s = t := Buffer.ext (by simpa using h.symm)
    simp [this]
  | cons b bs ih =>
    have hhead : (s.symbols ++ [b]).head? = some c.header := by
      refine head?_push ?_
      rintro ⟨hs, hb⟩
      have := hne (by simp) hs
      simp at this
      exact hb this
    have hlt := t.lt_size
    rw [h] at hlt
    simp only [List.length_append, List.length_cons] at hlt
    let u : Buffer c := ⟨s.symbols ++ [b], by simp; omega, by rw [hhead]; simp⟩
    have hu : feed s b = (u, none) := feed_keep rfl
    obtain ⟨hrest, hwin⟩ := ih (s := u) (fun _ hnil => absurd hnil (by simp [u]))
      (by simp [u, h])
    simp only [rest, windows, hu, hrest, hwin]
    exact ⟨trivial, rfl⟩

/-- The symbols of a buffer, fed to an idle collector, give that buffer. -/
theorem rest_buffer (s : Buffer c) :
    rest idle s.symbols = s ∧
      windows (idle : Buffer c) s.symbols = List.replicate s.symbols.length none := by
  refine rest_keep ?_ (by simp)
  intro hne _
  cases hs : s.symbols with
  | nil => simp [hs] at hne
  | cons x xs => simp [s.header_first x (by simp [hs])]

/-- A window, fed to an idle collector, is handed over at its last symbol. -/
theorem rest_window (w : Window c) :
    rest (idle : Buffer c) w.symbols = idle ∧
      windows (idle : Buffer c) w.symbols = List.replicate (c.size - 1) none ++ [some w] := by
  have hlen := w.length_eq
  have htwo := c.two_le
  have hne : w.symbols ≠ [] := by
    rw [← List.length_pos_iff]
    omega
  have hsplit := List.dropLast_append_getLast hne
  have hdrop : w.symbols.dropLast.length = c.size - 1 := by simp [hlen]
  have hhead : ∀ x ∈ w.symbols.dropLast.head?, x = c.header := by
    intro x hx
    have hfirst := w.header_first
    cases hd : w.symbols.dropLast with
    | nil => simp [hd] at hx
    | cons y ys =>
      rw [← hsplit, hd] at hfirst
      rw [hd] at hx
      simp at hx hfirst
      rw [← hx, hfirst]
  -- all symbols but the last are held, the last one fills the window
  let s : Buffer c := ⟨w.symbols.dropLast, by omega, hhead⟩
  have hfill : feed s (w.symbols.getLast hne) = (idle, some w) := feed_fill hsplit.symm
  obtain ⟨hrest, hwin⟩ := rest_buffer s
  have hs : s.symbols = w.symbols.dropLast := rfl
  rw [hs] at hrest hwin
  constructor
  · rw [← hsplit, rest_append, hrest, rest, hfill, rest_nil]
  · conv_lhs => rw [← hsplit]
    rw [windows_append, hwin, hrest, windows, hfill, hdrop, windows_nil]

/-! ### Windows are pieces of the stream -/

/-- What is held is the end of the stream. -/
theorem rest_suffix (bs : List α) : (rest (idle : Buffer c) bs).symbols <:+ bs := by
  induction bs using List.reverseRecOn with
  | nil => simp
  | append_singleton bs b ih =>
    rw [rest_append, rest, rest_nil]
    rcases feed_cases (rest (idle : Buffer c) bs) b with ⟨_, _, hf⟩ | ⟨t, ht, hf⟩ | ⟨_, _, hf⟩
    · simp [hf]
    · rw [hf]
      show t.symbols <:+ bs ++ [b]
      obtain ⟨pre, hpre⟩ := ih
      exact ⟨pre, by rw [ht, ← List.append_assoc, hpre]⟩
    · simp [hf]

/-- A window handed over is the end of the stream. -/
theorem feed_window_suffix {bs : List α} {b : α} {w : Window c}
    (h : (feed (rest (idle : Buffer c) bs) b).2 = some w) : w.symbols <:+ bs ++ [b] := by
  obtain ⟨pre, hpre⟩ := rest_suffix (c := c) bs
  rw [(feed_window h).1]
  exact ⟨pre, by rw [← List.append_assoc, hpre]⟩

/-- Where a window of a stream was handed over. -/
theorem mem_windows {s : Buffer c} {bs : List α} {w : Window c} (h : some w ∈ windows s bs) :
    ∃ as b bs', bs = as ++ b :: bs' ∧ (feed (rest s as) b).2 = some w := by
  induction bs generalizing s with
  | nil => simp at h
  | cons b bs ih =>
    rcases List.mem_cons.mp h with h | h
    · exact ⟨[], b, bs, rfl, h.symm⟩
    · obtain ⟨as, b', bs', rfl, hw⟩ := ih h
      exact ⟨b :: as, b', bs', rfl, hw⟩

theorem size_le_of_mem_windows {bs : List α} {w : Window c}
    (h : some w ∈ windows (idle : Buffer c) bs) : c.size ≤ bs.length := by
  obtain ⟨as, b, bs', rfl, hw⟩ := mem_windows h
  have hle := (feed_window_suffix hw).length_le
  rw [w.length_eq] at hle
  simp only [List.length_append, List.length_cons, List.length_nil] at hle ⊢
  omega

/-- Two windows handed over one after the other do not share a symbol. -/
theorem window_apart {bs mid : List α} {b b' : α} {w w' : Window c}
    (h : (feed (rest (idle : Buffer c) bs) b).2 = some w)
    (h' : (feed (rest (idle : Buffer c) (bs ++ b :: mid)) b').2 = some w') :
    c.size ≤ mid.length + 1 := by
  have hidle : rest (idle : Buffer c) (bs ++ b :: mid) = rest idle mid := by
    rw [rest_append, rest, (feed_window h).2]
  -- the collector starts afresh after the first window
  rw [hidle] at h'
  have hle := (feed_window_suffix h').length_le
  rw [w'.length_eq] at hle
  simpa using hle

/-! ### Cutting a stream -/

/-- The stream falls into skipped symbols and windows with property `P`. -/
inductive Cut (P : Window c → Prop) : List α → Prop
  | nil : Cut P []
  | skip {b : α} {bs : List α} : b ≠ c.header → Cut P bs → Cut P (b :: bs)
  | window (w : Window c) {bs : List α} : P w → Cut P bs → Cut P (w.symbols ++ bs)

/-- As `Cut`, but the stream may end inside a window. -/
def OpenCut (P : Window c → Prop) (bs : List α) : Prop :=
  ∃ (done : List α) (s : Buffer c), bs = done ++ s.symbols ∧ Cut P done

omit [DecidableEq α] in
/-- A stream that starts with the header is shorter than a window or starts
with one. -/
theorem window_or_buffer {bs : List α} (h : bs.head? = some c.header) :
    (∃ s : Buffer c, bs = s.symbols) ∨ ∃ (w : Window c) (bs' : List α), bs = w.symbols ++ bs' := by
  by_cases hlen : bs.length < c.size
  · exact .inl ⟨⟨bs, hlen, by rw [h]; simp⟩, rfl⟩
  · right
    have htwo := c.two_le
    refine ⟨⟨bs.take c.size, by simp; omega, ?_⟩, bs.drop c.size, (List.take_append_drop _ _).symm⟩
    rw [List.head?_take, if_neg (by omega), h]

omit [DecidableEq α] in
theorem cut_of_no_header {P : Window c → Prop} {bs : List α} (h : ∀ b ∈ bs, b ≠ c.header) :
    Cut P bs := by
  induction bs with
  | nil => exact .nil
  | cons b bs ih => exact .skip (h b (by simp)) (ih fun b' hb' => h b' (by simp [hb']))

theorem Cut.rest_eq {P : Window c → Prop} {bs : List α} (h : Cut P bs) :
    rest (idle : Buffer c) bs = idle ∧ ∀ w, some w ∈ windows (idle : Buffer c) bs → P w := by
  induction h with
  | nil => simp
  | skip hb _ ih =>
    simp only [rest, windows, feed_skip hb, List.mem_cons, reduceCtorEq, false_or]
    exact ih
  | window w hP _ ih =>
    obtain ⟨hrest, hwin⟩ := rest_window w
    rw [rest_append, windows_append, hrest, hwin]
    refine ⟨ih.1, ?_⟩
    intro w' hw'
    rcases List.mem_append.mp hw' with hw' | hw'
    · have : w' = w := by simpa [List.mem_replicate] using hw'
      rw [this]
      exact hP
    · exact ih.2 w' hw'

/-- Every stream is cut up to a piece still held. -/
theorem openCut_of_windows {P : Window c → Prop} :
    ∀ (n : ℕ) (bs : List α), bs.length ≤ n →
      (∀ w, some w ∈ windows (idle : Buffer c) bs → P w) → OpenCut P bs := by
  intro n
  induction n with
  | zero =>
    intro bs hn _
    have : bs = [] := List.length_eq_zero_iff.mp (by omega)
    exact ⟨[], idle, by simp [this], .nil⟩
  -- induction on the length: a window takes at least two symbols off the stream
  | succ n ih =>
    intro bs hn hP
    cases bs with
    | nil => exact ⟨[], idle, by simp, .nil⟩
    | cons b bs =>
      by_cases hb : b = c.header
      -- a header: the rest is an unfinished piece, or a whole window comes first
      · have hstarts : (b :: bs).head? = some c.header := by rw [hb, List.head?_cons]
        rcases window_or_buffer hstarts with ⟨s, hs⟩ | ⟨w, bs', hw⟩
        · exact ⟨[], s, by simp [hs], .nil⟩
        · obtain ⟨hrest, hwin⟩ := rest_window w
          have htwo := c.two_le
          have hlen : bs'.length ≤ n := by
            have := congrArg List.length hw
            simp only [List.length_cons, List.length_append, w.length_eq] at this hn
            omega
          rw [hw, windows_append, hrest, hwin] at hP
          obtain ⟨done, s, hbs, hcut⟩ := ih bs' hlen (fun w' hw' => hP w' (by simp [hw']))
          refine ⟨w.symbols ++ done, s, by rw [hw, hbs, List.append_assoc], ?_⟩
          exact .window w (hP w (by simp)) hcut
      -- no header: an idle collector skips it
      · have hlen : bs.length ≤ n := by simpa using hn
        obtain ⟨done, s, hbs, hcut⟩ := ih bs hlen (fun w hw => hP w (by
          simp only [windows, feed_skip hb, List.mem_cons]
          exact .inr hw))
        exact ⟨b :: done, s, by simp [hbs], .skip hb hcut⟩

/-- A stream can be cut iff the collector ends it idle, with only `P` windows
handed over. -/
theorem cut_iff {P : Window c → Prop} {bs : List α} :
    Cut P bs ↔
      rest (idle : Buffer c) bs = idle ∧ ∀ w, some w ∈ windows (idle : Buffer c) bs → P w := by
  constructor
  · exact Cut.rest_eq
  · rintro ⟨hidle, hP⟩
    obtain ⟨done, s, rfl, hcut⟩ := openCut_of_windows bs.length bs (Nat.le_refl _) hP
    rw [rest_append, hcut.rest_eq.1, (rest_buffer s).1] at hidle
    rw [hidle]
    simpa using hcut

/-- A stream can be cut up to a last piece iff only `P` windows are handed
over. -/
theorem openCut_iff {P : Window c → Prop} {bs : List α} :
    OpenCut P bs ↔ ∀ w, some w ∈ windows (idle : Buffer c) bs → P w := by
  constructor
  · rintro ⟨done, s, rfl, hcut⟩ w hw
    rw [windows_append, hcut.rest_eq.1, (rest_buffer s).2] at hw
    rcases List.mem_append.mp hw with hw | hw
    · exact hcut.rest_eq.2 w hw
    · simp [List.mem_replicate] at hw
  · exact openCut_of_windows bs.length bs (Nat.le_refl _)

/-! ### Own windows among foreign symbols -/

/-- A stretch of a mixed stream: a window meant for this collector, or symbols
that are not. -/
inductive Item (c : Shape α)
  | own (w : Window c)
  | other (bs : List α)

/-- The symbols of a stretch. -/
def Item.symbols : Item c → List α
  | .own w => w.symbols
  | .other bs => bs

/-- The answers of a collector that takes exactly the own windows. -/
def Item.expected : Item c → List (Option (Window c))
  | .own w => List.replicate (c.size - 1) none ++ [some w]
  | .other bs => List.replicate bs.length none

/-- The windows that pass the test `ok`, symbol by symbol. -/
def accepted (ok : Window c → Bool) (s : Buffer c) (bs : List α) : List (Option (Window c)) :=
  (windows s bs).map (Option.filter ok)

theorem accepted_append (ok : Window c → Bool) (s : Buffer c) (as bs : List α) :
    accepted ok s (as ++ bs) = accepted ok s as ++ accepted ok (rest s as) bs := by
  rw [accepted, windows_append, List.map_append]
  rfl

@[simp] theorem accepted_length (ok : Window c → Bool) (s : Buffer c) (bs : List α) :
    (accepted ok s bs).length = bs.length := by
  simp [accepted]

/-- `foreign` are the symbols since the last own window.  Before each own
window they must be cut into skipped symbols and windows that fail the test;
after the last own window a piece may stay unfinished. -/
def Clear (ok : Window c → Bool) (foreign : List α) : List (Item c) → Prop
  | [] => OpenCut (fun w => ok w = false) foreign
  | .other bs :: items => Clear ok (foreign ++ bs) items
  | .own _ :: items => Cut (fun w => ok w = false) foreign ∧ Clear ok [] items

theorem accepted_eq_none_iff {ok : Window c → Bool} {s : Buffer c} {bs : List α} :
    accepted ok s bs = List.replicate bs.length none ↔
      ∀ w, some w ∈ windows s bs → ok w = false := by
  rw [List.eq_replicate_iff]
  simp only [accepted_length, true_and]
  rw [accepted, List.forall_mem_map]
  constructor
  · intro h w hw
    have := h _ hw
    simpa [Option.filter] using this
  · intro h o ho
    cases o with
    | none => rfl
    | some w => simp [Option.filter, h w ho]

theorem mem_windows_of_mem_accepted {ok : Window c → Bool} {s : Buffer c} {bs : List α}
    {w : Window c} (h : some w ∈ accepted ok s bs) : some w ∈ windows s bs := by
  obtain ⟨o, ho, hof⟩ := List.mem_map.mp h
  rw [← (Option.filter_eq_some_iff.mp hof).1]
  exact ho

theorem accepted_own {ok : Window c → Bool} {w : Window c} (hok : ok w) :
    accepted ok (idle : Buffer c) w.symbols = (Item.own w).expected := by
  rw [accepted, (rest_window w).2]
  simp [Item.expected, Option.filter, hok]

/-- A collector that already holds something when an own window starts is full
before it ends. -/
theorem rest_take_own {s : Buffer c} (hs : s ≠ idle) (w : Window c) :
    rest s (w.symbols.take (c.size - s.symbols.length)) = idle := by
  have hsne : s.symbols ≠ [] := fun hnil => hs (eq_idle_iff.mpr hnil)
  have hslt := s.lt_size
  have hfirst : (s.symbols ++ w.symbols.take (c.size - s.symbols.length)).head? =
      some c.header := by
    cases hx : s.symbols with
    | nil => exact absurd hx hsne
    | cons x xs => simp [s.header_first x (by simp [hx])]
  -- what is held and the start of the own window make up a window of the stream
  let v : Window c := ⟨s.symbols ++ w.symbols.take (c.size - s.symbols.length), by
    simp only [List.length_append, List.length_take, w.length_eq]
    omega, hfirst⟩
  have hv : rest idle v.symbols = idle := (rest_window v).1
  rwa [show v.symbols = s.symbols ++ w.symbols.take (c.size - s.symbols.length) from rfl,
    rest_append, (rest_buffer s).1] at hv

/-- Such a collector then has too few symbols of the own window left for a
window, and takes nothing at its last symbol. -/
theorem accepted_own_of_ne_idle {p : Window c → Bool} {s : Buffer c} {w : Window c}
    (hs : s ≠ idle) : (accepted p s w.symbols).getLast? = some none := by
  have hspos : 0 < s.symbols.length :=
    List.length_pos_iff.mpr fun hnil => hs (eq_idle_iff.mpr hnil)
  have hslt := s.lt_size
  let k := c.size - s.symbols.length
  have hdrop : (w.symbols.drop k).length = s.symbols.length := by
    simp only [List.length_drop, w.length_eq, k]
    omega
  have hne : accepted p (idle : Buffer c) (w.symbols.drop k) ≠ [] := by
    rw [← List.length_pos_iff, accepted_length]
    omega
  -- the collector is idle after `k` symbols, and fewer than a window are left
  rw [← List.take_append_drop k w.symbols, accepted_append, rest_take_own hs,
    List.getLast?_append_of_ne_nil _ hne]
  cases hlast : (accepted p (idle : Buffer c) (w.symbols.drop k)).getLast? with
  | none => exact absurd (List.getLast?_eq_none_iff.mp hlast) hne
  | some o =>
    cases o with
    | none => rfl
    | some w' =>
      have hle := size_le_of_mem_windows
        (mem_windows_of_mem_accepted (List.mem_of_getLast? hlast))
      omega

/-- An own window with no second header brings any collector back to idle. -/
theorem rest_own_of_no_header {w : Window c} (h : ∀ b ∈ w.symbols.tail, b ≠ c.header)
    (s : Buffer c) : rest s w.symbols = idle := by
  by_cases hs : s = idle
  · rw [hs]
    exact (rest_window w).1
  · have hslt := s.lt_size
    rw [← List.take_append_drop (c.size - s.symbols.length) w.symbols, rest_append,
      rest_take_own hs]
    refine (cut_of_no_header (P := fun _ => True) fun b hb => h b ?_).rest_eq.1
    rw [← List.drop_one]
    exact List.mem_of_mem_drop (i := c.size - s.symbols.length - 1) (by
      rw [List.drop_drop, show 1 + (c.size - s.symbols.length - 1) = c.size - s.symbols.length by
        omega]
      exact hb)

omit [DecidableEq α] in
/-- Foreign symbols without a header are clear. -/
theorem clear_of_no_header {ok : Window c → Bool} {items : List (Item c)}
    (h : ∀ bs, Item.other bs ∈ items → ∀ b ∈ bs, b ≠ c.header) {foreign : List α}
    (hforeign : ∀ b ∈ foreign, b ≠ c.header) : Clear ok foreign items := by
  induction items generalizing foreign with
  | nil => exact ⟨foreign, idle, by simp, cut_of_no_header hforeign⟩
  | cons item items ih =>
    have hitems : ∀ bs, Item.other bs ∈ items → ∀ b ∈ bs, b ≠ c.header :=
      fun bs hbs => h bs (List.mem_cons_of_mem _ hbs)
    cases item with
    | other bs =>
      refine ih hitems ?_
      intro b hb
      rcases List.mem_append.mp hb with hb | hb
      · exact hforeign b hb
      · exact h bs List.mem_cons_self b hb
    | own w => exact ⟨cut_of_no_header hforeign, ih hitems (by simp)⟩

section Observed

/-! The answers may be seen through any function that tells a window from no
window. -/

variable {β : Type} {f : Option (Window c) → β} (hf : ∀ w, f (some w) ≠ f none)

include hf

theorem accepted_none_iff_map {ok : Window c → Bool} {bs : List α} :
    (accepted ok (idle : Buffer c) bs).map f = (List.replicate bs.length none).map f ↔
      accepted ok (idle : Buffer c) bs = List.replicate bs.length none := by
  refine ⟨fun h => ?_, fun h => by rw [h]⟩
  rw [List.map_replicate, List.eq_replicate_iff] at h
  rw [List.eq_replicate_iff]
  refine ⟨by simp, ?_⟩
  intro o ho
  have hfo := h.2 (f o) (List.mem_map_of_mem ho)
  cases o with
  | none => rfl
  | some w => exact absurd hfo (hf w)

/-- An own window is taken as such iff the collector is idle when it starts. -/
theorem accepted_own_iff {ok : Window c → Bool} {s : Buffer c} {w : Window c} (hok : ok w) :
    (accepted ok s w.symbols).map f = (Item.own w).expected.map f ↔ s = idle := by
  constructor
  · intro h
    by_contra hs
    have hlast := congrArg List.getLast? h
    rw [List.getLast?_map, accepted_own_of_ne_idle hs, List.getLast?_map, Item.expected] at hlast
    simp at hlast
    exact hf w hlast.symm
  · rintro rfl
    rw [accepted_own hok]

/-- On own windows among foreign symbols the collector takes exactly the own
windows iff the foreign stretches are clear. -/
theorem clear_iff {p : Window c → Bool} {items : List (Item c)}
    (hok : ∀ w, Item.own w ∈ items → p w) (foreign : List α) :
    (accepted p (idle : Buffer c) (foreign ++ items.flatMap Item.symbols)).map f =
        (List.replicate foreign.length none ++ items.flatMap Item.expected).map f ↔
      Clear p foreign items := by
  induction items generalizing foreign with
  | nil =>
    simp only [List.flatMap_nil, List.append_nil, Clear]
    rw [openCut_iff, accepted_none_iff_map hf, accepted_eq_none_iff]
  | cons item items ih =>
    have hitems : ∀ w, Item.own w ∈ items → p w := fun w hw => hok w (List.mem_cons_of_mem _ hw)
    cases item with
    | other bs =>
      -- foreign symbols only lengthen the stretch
      rw [Clear, ← ih hitems (foreign ++ bs)]
      simp only [List.flatMap_cons, Item.symbols, Item.expected, List.length_append,
        List.replicate_add, List.append_assoc]
    | own w =>
      have hw : p w := hok w List.mem_cons_self
      -- an own window ends the stretch: compare the stretch, the window and the rest
      have hlen : (accepted p (rest (idle : Buffer c) foreign) w.symbols).length =
          (Item.own w).expected.length := by
        have := c.two_le
        simp only [accepted_length, w.length_eq, Item.expected, List.length_append,
          List.length_replicate, List.length_singleton]
        omega
      simp only [List.flatMap_cons, Clear]
      rw [cut_iff, ← accepted_eq_none_iff, ← ih hitems [], accepted_append, List.map_append,
        List.map_append, List.append_eq_append_iff_of_size_eq_left (by simp),
        accepted_none_iff_map hf, accepted_append, List.map_append, List.map_append,
        show (Item.own w).symbols = w.symbols from rfl,
        List.append_eq_append_iff_of_size_eq_left (by simp [hlen]), accepted_own_iff hf hw]
      constructor
      · rintro ⟨hforeign, hidle, htail⟩
        rw [hidle, (rest_window w).1] at htail
        exact ⟨⟨hidle, hforeign⟩, by simpa using htail⟩
      · rintro ⟨⟨hidle, hforeign⟩, htail⟩
        refine ⟨hforeign, hidle, ?_⟩
        rw [hidle, (rest_window w).1]
        simpa using htail

end Observed

end Collector
