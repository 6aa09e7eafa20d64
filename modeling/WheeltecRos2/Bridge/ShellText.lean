/-
Texts that end up in shell commands.

A `Text` is a string with the origin of each of its characters beside it: the payload of
a request, or the program itself, its configuration and the clock.  No function looks at
the origins.  `formatCommand` fills the placeholders of a command template, and
`safeSlug` and `uniqueMapPrefix` make the name of a saved map: whatever the payload asks
for, the characters it puts into that name are letters, digits, `_` and `-`
(`safe_safeSlug`), and no file of that name exists yet (`uniqueMapPrefix_free`).
-/
import Mathlib.Data.Finset.Card
import Mathlib.Data.Finset.Range
import WheeltecRos2.Lib.Trim
import WheeltecRos2.Bridge.Processes

namespace Bridge

/-- Where a character comes from. -/
inductive Origin
  | own
  | payload
  deriving DecidableEq

/-- A string with the origins of its characters. -/
abbrev Text := List (Char × Origin)

namespace Text

def own (s : String) : Text := s.toList.map fun c => (c, .own)

def ofPayload (s : String) : Text := s.toList.map fun c => (c, .payload)

/-- The string. -/
def plain (t : Text) : String := String.ofList (t.map Prod.fst)

/-- `str.strip`. -/
def strip (t : Text) : Text := Trim.trim (fun x => isPySpace x.1) t

end Text

/-! ### Templates -/

/-- A piece of a template: text, or a placeholder in braces. -/
inductive Part
  | literal (text : String)
  | field (name : String)

/-- A command template as `str.format` reads it.  Conversions and format specifications
are left out; a template it cannot read is kept as it is. -/
inductive Template
  | parts (parts : List Part)
  | malformed (text : String)

/-- The piece as it is written; braces in text are doubled. -/
def Part.source : Part → String
  | .literal text =>
    String.ofList (text.toList.flatMap fun c => if c = '\x7b' ∨ c = '\x7d' then [c, c] else [c])
  | .field name => "\x7b" ++ name ++ "\x7d"

/-- The template as it is written. -/
def Template.source : Template → String
  | .parts pieces => String.join (pieces.map Part.source)
  | .malformed text => text

/-- A piece with the value of its placeholder; `none` for the `KeyError` of one without. -/
def Part.fill (kwargs : List (String × Text)) : Part → Option Text
  | .literal text => some (.own text)
  | .field name => kwargs.lookup name

/-- `_format_command`. -/
def formatCommand (template : Template) (kwargs : List (String × Text)) : Text :=
  match template with
  | .parts parts =>
    match parts.mapM (Part.fill kwargs) with
    | some pieces => pieces.flatten
    | none => .own template.source
  | .malformed text => .own text

/-! ### Map names -/

/-- `[a-zA-Z0-9_-]`. -/
def isSlugChar (c : Char) : Bool := c.isAlphanum || c == '_' || c == '-'

/-- `re.sub(r"[^a-zA-Z0-9_-]+", "_", value)`; `inRun` says that the character before was
replaced. -/
def squeeze (inRun : Bool) : Text → Text
  | [] => []
  | x :: rest =>
    if isSlugChar x.1 then x :: squeeze false rest
    else if inRun then squeeze true rest
    else ('_', x.2) :: squeeze true rest

/-- `_safe_slug`; `clock` is the time it formats if nothing is left. -/
def safeSlug (clock : String) (value : Text) : Text :=
  let slug := Trim.trim (fun x => x.1 == '_') (squeeze false value.strip)
  if slug = [] then .own ("map_" ++ clock) else slug

/-- `str(dir / name)`. -/
def joinPath (dir : String) (name : Text) : Text :=
  if dir = "." then name
  else if dir.toList.getLast? = some '/' then .own dir ++ name
  else .own dir ++ .own "/" ++ name

/-- `_map_files_exist`.  A map name has no dot, so `with_suffix` appends. -/
def mapFilesExist (files : List String) (mapPrefix : Text) : Bool :=
  files.contains (mapPrefix.plain ++ ".yaml") || files.contains (mapPrefix.plain ++ ".pgm")

/-- The loop of `_unique_map_prefix` from `index` on. -/
def nextFree (files : List String) (dir : String) (base : Text) : ℕ → ℕ → Text
  | 0, index => base ++ .own s!"_{index}"
  | fuel + 1, index =>
    let candidate := base ++ .own s!"_{index}"
    if mapFilesExist files (joinPath dir candidate) then nextFree files dir base fuel (index + 1)
    else candidate

/-- The name of `_unique_map_prefix`.  Each file rules out one candidate at most, so the
loop ends within as many steps as there are files. -/
def uniqueMapPrefix (files : List String) (dir clock : String) (name : Text) : Text :=
  if mapFilesExist files (joinPath dir name) then
    let base := name ++ .own ("_" ++ clock)
    if mapFilesExist files (joinPath dir base) then nextFree files dir base files.length 2 else base
  else name

/-! ### Safe texts -/

/-- ASCII letters, digits, `_`, `.`, the slash and the hyphen. -/
def SafeChar (c : Char) : Prop := c.isAlphanum = true ∨ c = '_' ∨ c = '.' ∨ c = '/' ∨ c = '-'

instance (c : Char) : Decidable (SafeChar c) := inferInstanceAs (Decidable (_ ∨ _))

/-- The characters that come from the payload are safe. -/
def Text.Safe (t : Text) : Prop := ∀ c, (c, Origin.payload) ∈ t → SafeChar c

section Safe

variable {s t : Text} {c : Char}

theorem payload_notMem_own {s : String} : (c, Origin.payload) ∉ Text.own s := by
  intro hc
  obtain ⟨d, -, hd⟩ := List.mem_map.mp hc
  exact absurd (Prod.mk.inj hd).2 (by simp)

theorem safe_own (s : String) : (Text.own s).Safe :=
  fun _ hc => absurd hc payload_notMem_own

theorem Text.Safe.append (hs : s.Safe) (ht : t.Safe) : Text.Safe (s ++ t) := by
  intro c hc
  rcases List.mem_append.mp hc with hc | hc
  · exact hs c hc
  · exact ht c hc

theorem Text.Safe.subset (ht : t.Safe) (hst : s ⊆ t) : s.Safe :=
  fun c hc => ht c (hst hc)

theorem Text.Safe.join (ht : t.Safe) (dir : String) : (joinPath dir t).Safe := by
  rw [joinPath]
  split_ifs
  · exact ht
  · exact (safe_own dir).append ht
  · exact ((safe_own dir).append (safe_own "/")).append ht

theorem isSlugChar_of_mem_squeeze {inRun : Bool} {x : Char × Origin} (h : x ∈ squeeze inRun t) :
    isSlugChar x.1 = true := by
  induction t generalizing inRun with
  | nil => exact absurd h List.not_mem_nil
  | cons y rest ih =>
    rw [squeeze] at h
    split_ifs at h with hslug hrun
    · rcases List.mem_cons.mp h with rfl | h
      · exact hslug
      · exact ih h
    · exact ih h
    · rcases List.mem_cons.mp h with rfl | h
      · rfl
      · exact ih h

theorem SafeChar.of_slug (h : isSlugChar c = true) : SafeChar c := by
  simp only [isSlugChar, Bool.or_eq_true, beq_iff_eq] at h
  rcases h with (h | h) | h
  · exact Or.inl h
  · exact Or.inr (Or.inl h)
  · exact Or.inr (Or.inr (Or.inr (Or.inr h)))

/-- **A slug is safe, whatever it is made of.** -/
theorem safe_safeSlug (clock : String) (value : Text) : (safeSlug clock value).Safe := by
  rw [safeSlug]
  split_ifs
  · exact safe_own _
  · intro c hc
    exact SafeChar.of_slug (isSlugChar_of_mem_squeeze (Trim.trim_subset _ _ hc))

theorem Text.Safe.nextFree (ht : t.Safe) (files : List String) (dir : String) (fuel index : ℕ) :
    (Bridge.nextFree files dir t fuel index).Safe := by
  induction fuel generalizing index with
  | zero => exact ht.append (safe_own _)
  | succ fuel ih =>
    rw [Bridge.nextFree]
    split_ifs
    · exact ih (index + 1)
    · exact ht.append (safe_own _)

theorem Text.Safe.uniqueMapPrefix (ht : t.Safe) (files : List String) (dir clock : String) :
    (Bridge.uniqueMapPrefix files dir clock t).Safe := by
  simp only [Bridge.uniqueMapPrefix]
  split_ifs
  · exact (ht.append (safe_own _)).nextFree files dir _ _
  · exact ht.append (safe_own _)
  · exact ht

end Safe

/-! ### The name of a map is new -/

section New

variable {s t : Text} {files : List String} {dir : String}

theorem plain_append (s t : Text) : (s ++ t : Text).plain = s.plain ++ t.plain := by
  simp [Text.plain]

theorem plain_own (s : String) : (Text.own s).plain = s := by
  simp [Text.plain, Text.own, Function.comp_def]

theorem joinPath_append (dir : String) (s t : Text) :
    joinPath dir (s ++ t) = joinPath dir s ++ t := by
  simp only [joinPath]
  split_ifs <;> simp only [List.append_assoc]

theorem repr_inj {i j : ℕ} (h : i.repr = j.repr) : i = j := by
  have hdigits := congrArg (fun s => Nat.ofDigitChars 10 s.toList 0) h
  simpa using hdigits

/-- The numbered names of `_unique_map_prefix`. -/
def numbered (dir : String) (base : Text) (index : ℕ) : Text :=
  joinPath dir (base ++ .own s!"_{index}")

theorem plain_numbered (dir : String) (base : Text) (index : ℕ) :
    (numbered dir base index).plain = (joinPath dir base).plain ++ "_" ++ index.repr := by
  rw [numbered, joinPath_append, plain_append, plain_own]
  show _ ++ ("_" ++ index.repr) = _
  rw [String.append_assoc]

/-- The files of a map. -/
def IsMapFile (mapPrefix : Text) (file : String) : Prop :=
  file = mapPrefix.plain ++ ".yaml" ∨ file = mapPrefix.plain ++ ".pgm"

theorem mapFilesExist_iff : mapFilesExist files t = true ↔ ∃ file ∈ files, IsMapFile t file := by
  simp only [mapFilesExist, Bool.or_eq_true, List.contains_iff_mem, IsMapFile]
  constructor
  · rintro (h | h)
    · exact ⟨_, h, .inl rfl⟩
    · exact ⟨_, h, .inr rfl⟩
  · rintro ⟨file, h, rfl | rfl⟩
    · exact .inl h
    · exact .inr h

theorem yaml_ne_pgm (s t : String) : s ++ ".yaml" ≠ t ++ ".pgm" := by
  intro h
  have hlast := congrArg (fun u => u.toList.getLast?) h
  simp at hlast

/-- A file belongs to one map only. -/
theorem IsMapFile.plain_eq {file : String} (hs : IsMapFile s file) (ht : IsMapFile t file) :
    s.plain = t.plain := by
  rcases hs with rfl | rfl
  · rcases ht with h | h
    · exact String.append_left_inj _ |>.mp h
    · exact absurd h (yaml_ne_pgm _ _)
  · rcases ht with h | h
    · exact absurd h.symm (yaml_ne_pgm _ _)
    · exact String.append_left_inj _ |>.mp h

theorem numbered_inj {base : Text} {file : String} {i j : ℕ}
    (hi : IsMapFile (numbered dir base i) file) (hj : IsMapFile (numbered dir base j) file) :
    i = j := by
  have h := hi.plain_eq hj
  rw [plain_numbered, plain_numbered] at h
  exact repr_inj ((String.append_right_inj _).mp h)

/-- The loop takes the first numbered name that is free, or the last one. -/
theorem nextFree_cases (files : List String) (dir : String) (base : Text) (fuel index : ℕ) :
    ∃ k, nextFree files dir base fuel index = base ++ .own s!"_{index + k}" ∧
      (∀ i < k, mapFilesExist files (numbered dir base (index + i)) = true) ∧
      (k < fuel ∧ mapFilesExist files (numbered dir base (index + k)) = false ∨ k = fuel) := by
  induction fuel generalizing index with
  | zero => exact ⟨0, rfl, fun i hi => absurd hi (Nat.not_lt_zero i), .inr rfl⟩
  | succ fuel ih =>
    rcases htaken : mapFilesExist files (numbered dir base index) with - | -
    · refine ⟨0, ?_, fun i hi => absurd hi (Nat.not_lt_zero i), .inl ⟨Nat.succ_pos fuel, htaken⟩⟩
      exact if_neg (by rw [← numbered, htaken]; exact Bool.false_ne_true)
    · obtain ⟨k, hname, hbefore, hends⟩ := ih (index + 1)
      have hshift : ∀ i, index + 1 + i = index + (i + 1) := by
        intro i
        omega
      simp only [hshift] at hname hbefore hends
      refine ⟨k + 1, ?_, ?_, ?_⟩
      · rw [← hname]
        exact if_pos htaken
      · intro i hi
        rcases i with - | i
        · exact htaken
        · exact hbefore i (Nat.lt_of_succ_lt_succ hi)
      · rcases hends with ⟨hlt, hfree⟩ | rfl
        · exact .inl ⟨Nat.succ_lt_succ hlt, hfree⟩
        · exact .inr rfl

/-- There are not more taken names than files. -/
theorem exists_free (files : List String) (dir : String) (base : Text) (index : ℕ) :
    ∃ i ≤ files.length, mapFilesExist files (numbered dir base (index + i)) = false := by
  by_contra hnone
  have htaken : ∀ i : ℕ, ∃ file, i ≤ files.length →
      file ∈ files ∧ IsMapFile (numbered dir base (index + i)) file := by
    intro i
    by_cases hi : i ≤ files.length
    · have hexist : mapFilesExist files (numbered dir base (index + i)) = true := by
        rw [← Bool.not_eq_false]
        exact fun hfree => hnone ⟨i, hi, hfree⟩
      obtain ⟨file, hfile, hmap⟩ := mapFilesExist_iff.mp hexist
      exact ⟨file, fun _ => ⟨hfile, hmap⟩⟩
    · exact ⟨"", fun h => absurd h hi⟩
  choose file hfile using htaken
  have hcard : (Finset.range (files.length + 1)).card ≤ files.toFinset.card := by
    refine Finset.card_le_card_of_injOn file ?_ ?_
    · intro i hi
      have hle := Nat.lt_succ_iff.mp (Finset.mem_range.mp hi)
      exact List.mem_toFinset.mpr (hfile i hle).1
    · intro i hi j hj hij
      have hmap := (hfile i (Nat.lt_succ_iff.mp (Finset.mem_range.mp hi))).2
      have hmap' := (hfile j (Nat.lt_succ_iff.mp (Finset.mem_range.mp hj))).2
      rw [hij] at hmap
      have hsame := numbered_inj hmap hmap'
      omega
  rw [Finset.card_range] at hcard
  have hlength := files.toFinset_card_le
  omega

/-- With as much fuel as there are files the loop ends at a free name. -/
theorem nextFree_free (files : List String) (dir : String) (base : Text) (index : ℕ) :
    ∃ k ≤ files.length, nextFree files dir base files.length index = base ++ .own s!"_{index + k}" ∧
      (∀ i < k, mapFilesExist files (numbered dir base (index + i)) = true) ∧
      mapFilesExist files (numbered dir base (index + k)) = false := by
  obtain ⟨k, hnext, hbefore, hends⟩ := nextFree_cases files dir base files.length index
  rcases hends with ⟨hlt, hfree⟩ | rfl
  · exact ⟨k, hlt.le, hnext, hbefore, hfree⟩
  · obtain ⟨i, hi, hfree⟩ := exists_free files dir base index
    rcases Nat.lt_or_eq_of_le hi with hlt | rfl
    · rw [hbefore i hlt] at hfree
      cases hfree
    · exact ⟨files.length, le_rfl, hnext, hbefore, hfree⟩

/-- **The name of a saved map is new.**  No file of that name exists, so the fuel of the
loop is enough. -/
theorem uniqueMapPrefix_free (files : List String) (dir clock : String) (name : Text) :
    mapFilesExist files (joinPath dir (uniqueMapPrefix files dir clock name)) = false := by
  rw [uniqueMapPrefix]
  by_cases hname : mapFilesExist files (joinPath dir name) = true
  · rw [if_pos hname]
    show mapFilesExist files (joinPath dir (if mapFilesExist files (joinPath dir _) then _ else _)) = _
    by_cases hbase : mapFilesExist files (joinPath dir (name ++ .own ("_" ++ clock))) = true
    · rw [if_pos hbase]
      obtain ⟨k, -, hnext, -, hfree⟩ := nextFree_free files dir (name ++ .own ("_" ++ clock)) 2
      rw [hnext, ← numbered]
      exact hfree
    · rw [if_neg hbase]
      exact Bool.eq_false_of_not_eq_true hbase
  · rw [if_neg hname]
    exact Bool.eq_false_of_not_eq_true hname

end New
end Bridge
