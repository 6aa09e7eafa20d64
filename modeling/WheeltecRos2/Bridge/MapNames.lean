/-
The name under which a map is saved.

`_save_current_map` makes a slug of the requested name and looks for a prefix in the map
directory that no map uses yet.  Here the paths are computed as `pathlib` does
(`withSuffix`, `parentDir`), the clock shows a date (`UtcTime.stamp`), the system may refuse a
path (`pathExists`), and the loop may run for any number of rounds (`findMapPrefix`).  A slug has
neither slash nor dot, so it stays in the directory and the suffixes are appended
(`withSuffix_joinPath`), and the loop ends within one round more than there are files
(`findMapPrefix_ends`).
-/
import Mathlib.Data.List.DropRight
import WheeltecRos2.Bridge.Shell

namespace Bridge

/-! ### Paths -/

/-- `path.name`: what follows the last slash. -/
def finalName (path : List Char) : List Char := path.rtakeWhile (· != '/')

/-- `path.suffix`: the name from its last dot on, unless it begins or ends there. -/
def pathSuffix (path : List Char) : List Char :=
  let name := finalName path
  let extension := name.rtakeWhile (· != '.')
  if extension ≠ [] ∧ extension.length + 1 < name.length then '.' :: extension else []

/-- `str(path.with_suffix(suffix))`. -/
def withSuffix (path : Text) (suffix : String) : String :=
  let chars := path.plain.toList
  String.ofList (chars.take (chars.length - (pathSuffix chars).length)) ++ suffix

/-- `str(path.parent)`: what precedes the last slash, or a root itself. -/
def parentDir (path : List Char) : List Char :=
  let front := path.rdropWhile (· != '/')
  if front = [] then ['.']
  else if front.all (· == '/') then front
  else front.dropLast

/-- The texts of paths: never empty, and only a root ends with a slash. -/
def IsPathText (path : String) : Prop :=
  path.toList ≠ [] ∧ (path.toList.getLast? = some '/' → ∀ c ∈ path.toList, c = '/')

/-- `path.exists()`.  A path that the system refuses to look up, because its name is too long,
say, raises. -/
def pathExists (refuses : String → Bool) (files : List String) (path : String) :
    Except PyError Bool :=
  if refuses path then .error (.builtin .osError) else .ok (files.contains path)

/-- `_map_files_exist`. -/
def mapFilesFound (refuses : String → Bool) (files : List String) (mapPrefix : Text) :
    Except PyError Bool :=
  match pathExists refuses files (withSuffix mapPrefix ".yaml") with
  | .ok false => pathExists refuses files (withSuffix mapPrefix ".pgm")
  | answer => answer

/-- The `while` loop of `_unique_map_prefix`; `none` if it has not ended after `fuel` tests. -/
def searchFree (refuses : String → Bool) (files : List String) (dir : String) (base : Text) :
    ℕ → Text → ℕ → Option (Except PyError Text)
  | 0, _, _ => none
  | fuel + 1, candidate, index =>
    match mapFilesFound refuses files (joinPath dir candidate) with
    | .ok true => searchFree refuses files dir base fuel (base ++ .own s!"_{index}") (index + 1)
    | .ok false => some (.ok candidate)
    | .error e => some (.error e)

/-- `_unique_map_prefix`. -/
def findMapPrefix (refuses : String → Bool) (files : List String) (dir clock : String)
    (name : Text) (fuel : ℕ) : Option (Except PyError Text) :=
  match mapFilesFound refuses files (joinPath dir name) with
  | .ok true =>
    let base := name ++ .own ("_" ++ clock)
    searchFree refuses files dir base fuel base 2
  | .ok false => some (.ok name)
  | .error e => some (.error e)

/-! ### The clock -/

/-- `datetime.now(timezone.utc)`, to the second. -/
structure UtcTime where
  year : ℕ
  month : ℕ
  day : ℕ
  hour : ℕ
  minute : ℕ
  second : ℕ

/-- A number with leading zeros. -/
def padded (width n : ℕ) : String :=
  String.ofList (List.replicate (width - n.repr.length) '0') ++ n.repr

/-- `strftime("%Y%m%d_%H%M%S")`. -/
def UtcTime.stamp (t : UtcTime) : String :=
  padded 4 t.year ++ padded 2 t.month ++ padded 2 t.day ++ "_" ++
    padded 2 t.hour ++ padded 2 t.minute ++ padded 2 t.second

example : (UtcTime.mk 2024 3 7 9 5 42).stamp = "20240307_090542" := by decide +kernel

/-! ### New maps -/

/-- The characters of a slug. -/
def SlugText (s : String) : Prop := ∀ c ∈ s.toList, isSlugChar c = true

/-- A name over `[A-Za-z0-9_-]`. -/
structure IsSlug (name : Text) : Prop where
  ne_nil : name ≠ []
  chars : SlugText name.plain

/-- The prefix of a map that may be saved: a slug, directly in the directory, and neither
file exists. -/
structure NewMap (files : List String) (dir : String) (saved : Text) : Prop where
  slug : IsSlug saved
  child : finalName (joinPath dir saved).plain.toList = saved.plain.toList
  parent : IsPathText dir → parentDir (joinPath dir saved).plain.toList = dir.toList
  yaml : withSuffix (joinPath dir saved) ".yaml" ∉ files
  pgm : withSuffix (joinPath dir saved) ".pgm" ∉ files

/-- The system refuses to look up a file of some slug in the directory. -/
def Refused (refuses : String → Bool) (dir : String) : Prop :=
  ∃ name, IsSlug name ∧ ∃ suffix, (suffix = ".yaml" ∨ suffix = ".pgm") ∧
    refuses (withSuffix (joinPath dir name) suffix) = true

/-- A search ends with this name, or with the exception of a test. -/
def Yields (refuses : String → Bool) (dir : String) (name : Text)
    (found : Except PyError Text) : Prop :=
  found = .ok name ∨ found = .error (.builtin .osError) ∧ Refused refuses dir

section Slugs

variable {name : Text} {s s' : String}

theorem SlugText.append (hs : SlugText s) (hs' : SlugText s') : SlugText (s ++ s') := by
  intro c hc
  rw [String.toList_append, List.mem_append] at hc
  rcases hc with hc | hc
  · exact hs c hc
  · exact hs' c hc

theorem slugText_repr (n : ℕ) : SlugText n.repr := by
  intro c hc
  have hdigit : c ∈ Nat.toDigits 10 n := by simpa using hc
  have hc := Nat.isDigit_of_mem_toDigits (by decide) (by decide) hdigit
  rw [isSlugChar, Char.isAlphanum, hc]
  simp

theorem slugText_padded (width n : ℕ) : SlugText (padded width n) := by
  refine SlugText.append ?_ (slugText_repr n)
  intro c hc
  rw [String.toList_ofList] at hc
  rw [List.eq_of_mem_replicate hc]
  rfl

theorem slugText_underscore : SlugText "_" := by
  intro c hc
  rw [List.mem_singleton.mp hc]
  rfl

/-- A date is made of slug characters. -/
theorem slugText_stamp (t : UtcTime) : SlugText t.stamp := by
  have hdate := ((slugText_padded 4 t.year).append (slugText_padded 2 t.month)).append
    (slugText_padded 2 t.day)
  exact (((hdate.append slugText_underscore).append (slugText_padded 2 t.hour)).append
    (slugText_padded 2 t.minute)).append (slugText_padded 2 t.second)

theorem IsSlug.append_own (h : IsSlug name) (hs : SlugText s) : IsSlug (name ++ .own s) where
  ne_nil := List.append_ne_nil_of_left_ne_nil h.ne_nil _
  chars := by
    rw [plain_append, plain_own]
    exact h.chars.append hs

theorem isSlug_map_stamp (t : UtcTime) : IsSlug (.own ("map_" ++ t.stamp)) where
  ne_nil := by simp [Text.own]
  chars := by
    rw [plain_own]
    refine SlugText.append ?_ (slugText_stamp t)
    intro c hc
    simp only [String.reduceToList, List.mem_cons, List.not_mem_nil, or_false] at hc
    rcases hc with rfl | rfl | rfl | rfl <;> rfl

/-- **What is left of a name is a slug.** -/
theorem isSlug_safeSlug (t : UtcTime) (value : Text) : IsSlug (safeSlug t.stamp value) := by
  simp only [safeSlug]
  split_ifs with hempty
  · exact isSlug_map_stamp t
  · refine ⟨hempty, fun c hc => ?_⟩
    rw [Text.plain, String.toList_ofList] at hc
    obtain ⟨x, hx, rfl⟩ := List.mem_map.mp hc
    exact isSlugChar_of_mem_squeeze (Trim.trim_subset _ _ hx)

theorem isSlug_mapName {F : Type} [PyNum F] (os : ShellCalls) (t : UtcTime) (name : Json F) :
    IsSlug (mapName { os with nameClock := t.stamp } name) := by
  simp only [mapName]
  split_ifs
  · exact isSlug_map_stamp t
  · exact isSlug_safeSlug t _

theorem IsSlug.numbered (h : IsSlug name) (index : ℕ) : IsSlug (name ++ .own s!"_{index}") :=
  h.append_own (slugText_underscore.append (slugText_repr index))

theorem IsSlug.stamped (h : IsSlug name) (t : UtcTime) :
    IsSlug (name ++ .own ("_" ++ t.stamp)) :=
  h.append_own (slugText_underscore.append (slugText_stamp t))

end Slugs

/-! ### The path of a slug -/

section Paths

variable {name : Text} {dir : String} {files : List String}

/-- A slug has neither slash nor dot. -/
theorem IsSlug.ne_of_mem (h : IsSlug name) {c : Char} (hc : c ∈ name.plain.toList) :
    c ≠ '/' ∧ c ≠ '.' := by
  have hslug := h.chars c hc
  constructor
  · rintro rfl
    cases hslug
  · rintro rfl
    cases hslug

/-- The path is the slug alone, or the directory, a slash that may be its own, and the slug. -/
theorem plain_joinPath (dir : String) (name : Text) :
    dir = "." ∧ (joinPath dir name).plain.toList = name.plain.toList ∨
      ∃ front, (joinPath dir name).plain.toList = front ++ '/' :: name.plain.toList ∧
        (dir.toList = front ++ ['/'] ∨ dir.toList = front ∧ dir.toList.getLast? ≠ some '/') := by
  rw [joinPath]
  split_ifs with hdot hslash
  · exact .inl ⟨hdot, rfl⟩
  · obtain ⟨front, hfront⟩ := List.getLast?_eq_some_iff.mp hslash
    refine .inr ⟨front, ?_, .inl hfront⟩
    rw [plain_append, plain_own, String.toList_append, hfront, List.append_assoc]
    rfl
  · refine .inr ⟨dir.toList, ?_, .inr ⟨rfl, hslash⟩⟩
    rw [plain_append, plain_append, plain_own, plain_own, String.toList_append,
      String.toList_append, List.append_assoc]
    rfl

theorem IsSlug.forall_reverse (h : IsSlug name) :
    ∀ c ∈ name.plain.toList.reverse, (c != '/') = true := fun _ hc =>
  bne_iff_ne.mpr (h.ne_of_mem (List.mem_reverse.mp hc)).1

/-- **A slug is the last component of its path.** -/
theorem finalName_joinPath (h : IsSlug name) (dir : String) :
    finalName (joinPath dir name).plain.toList = name.plain.toList := by
  rcases plain_joinPath dir name with ⟨-, hpath⟩ | ⟨front, hpath, -⟩
  · rw [finalName, hpath, List.rtakeWhile, List.takeWhile_eq_self_iff.mpr h.forall_reverse,
      List.reverse_reverse]
  · rw [finalName, hpath, List.rtakeWhile, List.reverse_append, List.reverse_cons,
      List.append_assoc, List.takeWhile_append_of_pos h.forall_reverse, List.singleton_append,
      List.takeWhile_cons_of_neg (by decide), List.append_nil, List.reverse_reverse]

/-- **The directory is the parent of the path.** -/
theorem parentDir_joinPath (h : IsSlug name) (hdir : IsPathText dir) :
    parentDir (joinPath dir name).plain.toList = dir.toList := by
  obtain ⟨hne, hroot⟩ := hdir
  rcases plain_joinPath dir name with ⟨rfl, hpath⟩ | ⟨front, hpath, hfront⟩
  · have hnone : name.plain.toList.rdropWhile (· != '/') = [] :=
      List.rdropWhile_eq_nil_iff.mpr fun c hc => bne_iff_ne.mpr (h.ne_of_mem hc).1
    rw [hpath, parentDir, hnone]
    rfl
  · have hdrop : (front ++ '/' :: name.plain.toList).rdropWhile (· != '/') = front ++ ['/'] := by
      rw [List.rdropWhile, List.reverse_append, List.reverse_cons, List.append_assoc,
        List.dropWhile_append_of_pos h.forall_reverse, List.singleton_append,
        List.dropWhile_cons_of_neg (by decide), ← List.reverse_concat, List.reverse_reverse]
    have hslash : front ++ ['/'] ≠ [] := List.append_ne_nil_of_right_ne_nil _ (by simp)
    simp only [hpath, parentDir, hdrop]
    rw [if_neg hslash]
    rcases hfront with hfront | ⟨hfront, hlast⟩
    · -- a root, whose slash the path keeps
      rw [hfront] at hroot ⊢
      refine if_pos (List.all_eq_true.mpr fun c hc => beq_iff_eq.mpr ?_)
      exact hroot (List.getLast?_concat) c hc
    · have hnot : ¬(front ++ ['/']).all (· == '/') = true := by
        intro hall
        rw [hfront] at hne hlast
        refine hlast ?_
        rw [List.getLast?_eq_some_getLast hne]
        have hmem := List.mem_append_left ['/'] (List.getLast_mem hne)
        exact congrArg some (beq_iff_eq.mp (List.all_eq_true.mp hall _ hmem))
      rw [if_neg hnot, List.dropLast_concat, hfront]

example : parentDir ['/', 't', 'm', 'p', '/', 'm', 'a', 'p'] = ['/', 't', 'm', 'p'] := by decide

/-- **It has no suffix, so one is appended.** -/
theorem withSuffix_joinPath (h : IsSlug name) (dir suffix : String) :
    withSuffix (joinPath dir name) suffix = (joinPath dir name).plain ++ suffix := by
  have hname : name.plain.toList.rtakeWhile (· != '.') = name.plain.toList := by
    rw [List.rtakeWhile_eq_self_iff]
    exact fun c hc => bne_iff_ne.mpr (h.ne_of_mem hc).2
  have hnone : pathSuffix (joinPath dir name).plain.toList = [] := by
    simp only [pathSuffix, finalName_joinPath h, hname]
    exact if_neg (by omega)
  simp [withSuffix, hnone]

/-- **The test of a slug**, unless the system refuses one of its two paths. -/
theorem mapFilesFound_cases (h : IsSlug name) (refuses : String → Bool) (files : List String)
    (dir : String) :
    mapFilesFound refuses files (joinPath dir name) =
        .ok (mapFilesExist files (joinPath dir name)) ∨
      mapFilesFound refuses files (joinPath dir name) = .error (.builtin .osError) ∧
        Refused refuses dir := by
  have hrefused : ∀ suffix : String, suffix = ".yaml" ∨ suffix = ".pgm" →
      refuses (withSuffix (joinPath dir name) suffix) = true → Refused refuses dir :=
    fun suffix hsuffix hrefuses => ⟨name, h, suffix, hsuffix, hrefuses⟩
  rw [mapFilesFound, mapFilesExist, ← withSuffix_joinPath h, ← withSuffix_joinPath h, pathExists,
    pathExists]
  split_ifs with hyaml hpgm hpgm
  · exact .inr ⟨rfl, hrefused _ (.inl rfl) hyaml⟩
  · exact .inr ⟨rfl, hrefused _ (.inl rfl) hyaml⟩
  -- the second file is only looked up if the first is not there
  · cases files.contains (withSuffix (joinPath dir name) ".yaml") with
    | true => exact .inl rfl
    | false => exact .inr ⟨rfl, hrefused _ (.inr rfl) hpgm⟩
  · cases files.contains (withSuffix (joinPath dir name) ".yaml") with
    | true => exact .inl rfl
    | false => exact .inl rfl

end Paths

/-! ### The search -/

section Search

variable {name : Text} {dir : String} {files : List String} {refuses : String → Bool}

theorem isSlug_uniqueMapPrefix (h : IsSlug name) (files : List String) (dir : String)
    (t : UtcTime) : IsSlug (uniqueMapPrefix files dir t.stamp name) := by
  simp only [uniqueMapPrefix]
  split_ifs
  · obtain ⟨k, -, hnext, -⟩ := nextFree_free files dir (name ++ .own ("_" ++ t.stamp)) 2
    rw [hnext]
    exact (h.stamped t).numbered (2 + k)
  · exact h.stamped t
  · exact h

/-- More rounds than the loop takes change nothing. -/
theorem searchFree_mono {base candidate : Text} {fuel fuel' index : ℕ}
    {found : Except PyError Text} (hle : fuel ≤ fuel')
    (h : searchFree refuses files dir base fuel candidate index = some found) :
    searchFree refuses files dir base fuel' candidate index = some found := by
  induction fuel generalizing fuel' candidate index with
  | zero => cases h
  | succ fuel ih =>
    obtain ⟨more, rfl⟩ := Nat.exists_eq_add_of_le' hle
    rw [← Nat.add_assoc, searchFree]
    rw [searchFree] at h
    split at h
    · exact ih (Nat.le_add_left _ _) h
    · exact h
    · exact h

/-- The loop goes on to the first numbered name that is free. -/
theorem searchFree_numbered {k fuel index : ℕ} (h : IsSlug name) (hfuel : k < fuel)
    (htaken : ∀ i < k, mapFilesExist files (numbered dir name (index + i)) = true)
    (hfree : mapFilesExist files (numbered dir name (index + k)) = false) :
    ∃ found, searchFree refuses files dir name fuel (name ++ .own s!"_{index}") (index + 1) =
        some found ∧ Yields refuses dir (name ++ .own s!"_{index + k}") found := by
  induction k generalizing fuel index with
  | zero =>
    obtain ⟨fuel, rfl⟩ := Nat.exists_eq_add_of_lt hfuel
    rw [Nat.zero_add, searchFree]
    rcases mapFilesFound_cases (h.numbered index) refuses files dir with htest | ⟨htest, hrefused⟩
    · rw [htest, ← numbered, show mapFilesExist files (numbered dir name index) = false from hfree]
      exact ⟨_, rfl, .inl rfl⟩
    · rw [htest]
      exact ⟨_, rfl, .inr ⟨rfl, hrefused⟩⟩
  | succ k ih =>
    obtain ⟨fuel, rfl⟩ := Nat.exists_eq_add_of_lt (Nat.zero_lt_of_lt hfuel)
    have hfirst : mapFilesExist files (numbered dir name index) = true := htaken 0 (Nat.succ_pos k)
    have hshift : ∀ i, index + 1 + i = index + (i + 1) := by
      intro i
      omega
    rw [Nat.zero_add, searchFree, ← hshift k]
    rcases mapFilesFound_cases (h.numbered index) refuses files dir with htest | ⟨htest, hrefused⟩
    · rw [htest, ← numbered, hfirst]
      refine ih (by omega) (fun i hi => ?_) ?_
      · rw [hshift i]
        exact htaken (i + 1) (by omega)
      · rw [hshift k]
        exact hfree
    · rw [htest]
      exact ⟨_, rfl, .inr ⟨rfl, hrefused⟩⟩

/-- The loop from the name without a number on. -/
theorem search_base (h : IsSlug name) (refuses : String → Bool) (files : List String)
    (dir : String) :
    ∃ found, searchFree refuses files dir name (files.length + 2) name 2 = some found ∧
      Yields refuses dir (if mapFilesExist files (joinPath dir name) then
        nextFree files dir name files.length 2 else name) found := by
  rw [searchFree]
  rcases mapFilesFound_cases h refuses files dir with htest | ⟨htest, hrefused⟩
  · rw [htest]
    cases htaken : mapFilesExist files (joinPath dir name) with
    | true =>
      obtain ⟨k, hk, hnext, hbefore, hfree⟩ := nextFree_free files dir name 2
      rw [if_pos rfl, hnext]
      exact searchFree_numbered h (Nat.lt_succ_of_le hk) hbefore hfree
    | false => exact ⟨.ok name, rfl, .inl rfl⟩
  · rw [htest]
    exact ⟨_, rfl, .inr ⟨rfl, hrefused⟩⟩

/-- **The search ends.**  With one test more than there are files, and one more for the name
without a number, it returns the prefix of `uniqueMapPrefix`, unless a test raises. -/
theorem findMapPrefix_ends (h : IsSlug name) (refuses : String → Bool) (files : List String)
    (dir : String) (t : UtcTime) :
    ∃ found, Yields refuses dir (uniqueMapPrefix files dir t.stamp name) found ∧
      ∀ fuel, files.length + 2 ≤ fuel →
        findMapPrefix refuses files dir t.stamp name fuel = some found := by
  have hbase := h.stamped t
  simp only [findMapPrefix, uniqueMapPrefix]
  rcases mapFilesFound_cases h refuses files dir with htest | ⟨htest, hrefused⟩
  · rw [htest]
    cases hname : mapFilesExist files (joinPath dir name) with
    | true =>
      obtain ⟨found, hfound, hyields⟩ := search_base hbase refuses files dir
      rw [if_pos rfl]
      exact ⟨found, hyields, fun fuel hfuel => searchFree_mono hfuel hfound⟩
    | false => exact ⟨.ok name, .inl rfl, fun _ _ => rfl⟩
  · rw [htest]
    exact ⟨_, .inr ⟨rfl, hrefused⟩, fun _ _ => rfl⟩

/-- **A map is saved under a new name.**  Whatever name is requested, whatever the clock
shows, whatever files there are and whatever paths the system refuses, the search of
`_save_current_map` ends, and the prefix it returns is a slug in the map directory of which
neither file exists.  It raises only if the system refuses to look up a name. -/
theorem savedMap_new {F : Type} [PyNum F] (os : ShellCalls) (refuses : String → Bool)
    (dir : String) (t t' : UtcTime) (name : Json F) :
    ∃ found : Except PyError Text,
      (∀ saved, found = .ok saved → NewMap os.files dir saved) ∧
      (∀ e, found = .error e → e = .builtin .osError ∧ Refused refuses dir) ∧
      ∃ steps, ∀ fuel, steps ≤ fuel →
        findMapPrefix refuses os.files dir t'.stamp
          (mapName { os with nameClock := t.stamp } name) fuel = some found := by
  have hname := isSlug_mapName os t name
  set requested := mapName { os with nameClock := t.stamp } name
  have hslug := isSlug_uniqueMapPrefix hname os.files dir t'
  have hfree := uniqueMapPrefix_free os.files dir t'.stamp requested
  rw [mapFilesExist, ← withSuffix_joinPath hslug, ← withSuffix_joinPath hslug,
    Bool.or_eq_false_iff] at hfree
  -- the prefix the search returns is the free one, or a test has raised
  obtain ⟨found, hyields, hends⟩ := findMapPrefix_ends hname refuses os.files dir t'
  refine ⟨found, ?_, ?_, os.files.length + 2, hends⟩
  · rintro saved rfl
    rcases hyields with hsaved | ⟨herror, -⟩
    · rw [Except.ok.inj hsaved]
      exact {
        slug := hslug
        child := finalName_joinPath hslug dir
        parent := parentDir_joinPath hslug
        yaml := by simpa using hfree.1
        pgm := by simpa using hfree.2 }
    · cases herror
  · rintro e rfl
    rcases hyields with hsaved | ⟨herror, hrefused⟩
    · cases hsaved
    · exact ⟨Except.error.inj herror, hrefused⟩

end Search

end Bridge
