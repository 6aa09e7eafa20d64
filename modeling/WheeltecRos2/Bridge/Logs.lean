/-
The entries of `get_logs`.

`_collect_log_entries` reads the last lines of each log file, sorts them by the text of
their timestamps and keeps the first `limit`.  Both steps can go wrong: a line may be cut
off from its file although it is newer than one that is returned, and the text of a
timestamp is not its time, since a space sorts before a `T` (`spaceBeforeT`).
`newestReturned_iff` says when neither happens.  The clock stands still while a request is
answered.
-/
import WheeltecRos2.Lib.Selection
import WheeltecRos2.Bridge.LogStamps
import WheeltecRos2.Bridge.ShellText

namespace Bridge

open PyNum

/-- A log file; without content if reading it raises an `OSError`. -/
structure LogFile where
  path : String
  name : String
  content : Option (List (List Char))

/-- A log entry of the reply. -/
structure LogEntry where
  timestamp : List Char
  severity : String
  source : String
  message : List Char
  path : String
  deriving DecidableEq

/-- The reply to `get_logs`. -/
structure LogsReply where
  status : String
  source : String
  logs : List LogEntry
  files : List String
  timestamp : List Char

namespace LogText

variable (text : LogText)

/-- `_parse_log_line`. -/
def parseLogLine (line : List Char) : Option (List Char) × String × List Char :=
  let (timestamp, message) := match text.isoMatch line with
    | some (stamp, rest) => (some stamp.timestamp, Trim.trim (fun c => c == ' ' || c == '-') rest)
    | none => (none, line)
  let severity := match text.searchSeverity line with
    | some severity =>
      if severity = "WARN" then "WARNING"
      else if severity = "FATAL" then "CRITICAL"
      else severity
    | none => "INFO"
  (timestamp, severity, message)

/-- The entry of a line, unless it is blank. -/
def entry (file : LogFile) (line : List Char) : Option LogEntry :=
  let line := Trim.trim isPySpace line
  if line = [] then none
  else
    let (timestamp, severity, message) := text.parseLogLine line
    some {
      timestamp := timestamp.getD text.nowIso
      severity
      source := s!"wheeltec_ros2:{file.name}"
      message := message.take 2000
      path := file.path }

end LogText

/-! ### The selection -/

namespace LogFile

variable (file : LogFile) (maxLines : ℕ)

/-- The lines that can be read. -/
def lines : List (List Char) := file.content.getD []

/-- `_tail_lines`. -/
def tailLines : List (List Char) := file.lines.drop (file.lines.length - maxLines)

/-- The lines before them. -/
def cutLines : List (List Char) := file.lines.take (file.lines.length - maxLines)

end LogFile

/-- `max(1, min(limit, 500))`. -/
def logLimit (limit : ℤ) : ℕ := (max 1 (min limit 500)).toNat

/-- `max(20, min(limit, 200))`. -/
def linesPerFile (limit : ℤ) : ℕ := (max 20 (min (logLimit limit : ℤ) 200)).toNat

namespace LogText

variable (text : LogText) (files : List LogFile) (limit : ℤ)

/-- The entries of the last lines of the files. -/
def entries : List LogEntry :=
  files.flatMap fun file => (file.tailLines (linesPerFile limit)).filterMap (text.entry file)

/-- The entries of the reply. -/
def logs : List LogEntry :=
  Selection.newest LogEntry.timestamp (logLimit limit) (text.entries files limit)

/-- `_collect_log_entries`; `files` are those of `_log_file_candidates`. -/
def collectLogEntries {F : Type} [PyNum F] (payload : Json F) : Except PyError LogsReply := do
  let limit ← payload.get "limit" .null
  let limit ← (limit.orElse (.int 200)).toInt
  return {
    status := "ok"
    source := "wheeltec_ros2"
    logs := text.logs files limit
    files := files.map LogFile.path
    timestamp := text.nowIso }

/-! ### Time -/

/-- Every line of a file that is not blank has a timestamp, and the times do not go back. -/
structure Chronological (file : LogFile) : Prop where
  stamped : ∀ line ∈ file.lines, Trim.trim isPySpace line ≠ [] →
    (text.isoMatch (Trim.trim isPySpace line)).isSome
  ordered : ((file.lines.map (Trim.trim isPySpace)).filter (· ≠ [])).Pairwise
    fun line line' => text.timeOf line ≤ text.timeOf line'

/-- The newest entries are returned: they go back in time, and no entry that is left out and
no line that is cut off from its file is newer. -/
structure NewestReturned : Prop where
  ordered : (text.logs files limit).Pairwise fun e e' =>
    text.timeOf e'.timestamp ≤ text.timeOf e.timestamp
  leftOut : ∀ e ∈ text.logs files limit,
    ∀ e' ∈ Selection.older LogEntry.timestamp (logLimit limit) (text.entries files limit),
      text.timeOf e'.timestamp ≤ text.timeOf e.timestamp
  cutOff : ∀ e ∈ text.logs files limit, ∀ file ∈ files,
    ∀ line ∈ file.cutLines (linesPerFile limit), Trim.trim isPySpace line ≠ [] →
      text.timeOf (Trim.trim isPySpace line) ≤ text.timeOf e.timestamp

/-- An entry has at least `limit` others before it, by the text of the timestamps. -/
def Late (e : LogEntry) : Prop :=
  logLimit limit ≤ Selection.above LogEntry.timestamp (text.entries files limit) e.timestamp

/-- An entry comes late if it is older than one whose timestamp sorts after its own, or than a
line that is cut off. -/
structure OvertakersLate : Prop where
  sorted : ∀ e ∈ text.entries files limit, ∀ e' ∈ text.entries files limit,
    text.timeOf e.timestamp < text.timeOf e'.timestamp → e'.timestamp < e.timestamp →
      text.Late files limit e
  cutOff : ∀ e ∈ text.entries files limit, ∀ file ∈ files,
    ∀ line ∈ file.cutLines (linesPerFile limit), Trim.trim isPySpace line ≠ [] →
      text.timeOf e.timestamp < text.timeOf (Trim.trim isPySpace line) → text.Late files limit e

end LogText

section Entries

variable {text : LogText} {file file' : LogFile} {line line' rest rest' : List Char}
  {e e' : LogEntry} {s s' : Stamp}

/-- The timestamp of an entry is the one of its line. -/
theorem timestamp_of_entry (he : text.entry file line = some e)
    (hmatch : text.isoMatch (Trim.trim isPySpace line) = some (s, rest)) :
    e.timestamp = s.timestamp := by
  simp only [LogText.entry, LogText.parseLogLine, hmatch] at he
  split_ifs at he
  cases he
  rfl

/-- And so is its time. -/
theorem timeOf_entry (he : text.entry file line = some e)
    (hmatch : text.isoMatch (Trim.trim isPySpace line) = some (s, rest)) :
    text.timeOf e.timestamp = text.timeOf (Trim.trim isPySpace line) := by
  rw [timestamp_of_entry he hmatch, timeOf_timestamp hmatch]

/-- **A space sorts before a `T`.**  Of two lines with ASCII digits the newer one sorts before
the older one exactly if they have the same date and only the older one has a `T`. -/
theorem spaceBeforeT (he : text.entry file line = some e) (he' : text.entry file' line' = some e')
    (hmatch : text.isoMatch (Trim.trim isPySpace line) = some (s, rest))
    (hmatch' : text.isoMatch (Trim.trim isPySpace line') = some (s', rest'))
    (ha : s.Ascii) (ha' : s'.Ascii)
    (hnewer : text.timeOf e.timestamp < text.timeOf e'.timestamp) :
    e'.timestamp < e.timestamp ↔ s'.date = s.date ∧ s'.separator = ' ' ∧ s.separator = 'T' := by
  rw [timeOf_entry he hmatch, timeOf_entry he' hmatch', LogText.timeOf, LogText.timeOf, hmatch,
    hmatch'] at hnewer
  rw [timestamp_of_entry he hmatch, timestamp_of_entry he' hmatch']
  exact sortsBefore_iff (isoMatch_sound hmatch).1 (isoMatch_sound hmatch').1 ha ha' hnewer

end Entries

/-! ### The exact condition -/

section Selection

variable {text : LogText} {files : List LogFile} {limit : ℤ}

/-- **When the newest entries are returned.** -/
theorem newestReturned_iff (text : LogText) (files : List LogFile) (limit : ℤ) :
    text.NewestReturned files limit ↔ text.OvertakersLate files limit := by
  have hsame : ∀ e e' : LogEntry, e.timestamp = e'.timestamp →
      text.timeOf e.timestamp = text.timeOf e'.timestamp :=
    fun e e' hkey => congrArg text.timeOf hkey
  have hselect := Selection.newest_iff (n := logLimit limit) (l := text.entries files limit) hsame
  constructor
  · rintro ⟨hordered, hleftOut, hcutOff⟩
    refine ⟨hselect.mp ⟨hordered, hleftOut⟩, fun e he file hfile line hline hblank hnewer => ?_⟩
    by_contra hlate
    obtain ⟨e', he', hkey⟩ :=
      Selection.exists_mem_newest_iff.mpr ⟨⟨e, he, rfl⟩, not_le.mp hlate⟩
    rw [← hkey] at hnewer
    exact absurd (hcutOff e' he' file hfile line hline hblank) (not_le.mpr hnewer)
  · rintro ⟨htext, hcut⟩
    obtain ⟨hordered, hleftOut⟩ := hselect.mpr htext
    refine ⟨hordered, hleftOut, fun e he file hfile line hline hblank => ?_⟩
    by_contra hnewer
    have hlate := hcut e (Selection.mem_of_mem_newest he) file hfile line hline hblank
      (not_le.mp hnewer)
    exact absurd (Selection.above_lt_of_mem_newest he) (not_lt.mpr hlate)

end Selection

/-! ### Two files -/

/-- ASCII digits, and no severities. -/
def asciiText : LogText where
  decimal c := if c.isDigit then some (c.toNat - '0'.toNat) else none
  searchSeverity _ := none
  nowIso := "2024-01-02T00:00:00".toList
  decimal_ascii _ hc := if_pos hc
  decimal_comma := rfl

/-- A line of the evening with a space, and one of the night before with a `T`. -/
def eveningLog : LogFile := ⟨"/tmp/a.log", "a.log", some ["2024-01-01 23:00:00 a".toList]⟩

@[inherit_doc eveningLog]
def nightLog : LogFile := ⟨"/tmp/b.log", "b.log", some ["2024-01-01T01:00:00 b".toList]⟩

/-- The line of the night is returned before the newer one of the evening. -/
theorem nightFirst : ¬∀ (files : List LogFile) (limit : ℤ), files.length ≤ 20 →
    (∀ file ∈ files, asciiText.Chronological file) → asciiText.NewestReturned files limit := by
  intro hall
  have hchronological : ∀ file ∈ [eveningLog, nightLog], asciiText.Chronological file := by
    intro file hfile
    rcases List.mem_pair.mp hfile with rfl | rfl
    · exact ⟨by decide +kernel, by decide +kernel⟩
    · exact ⟨by decide +kernel, by decide +kernel⟩
  have hordered := (hall [eveningLog, nightLog] 200 (by decide) hchronological).ordered
  revert hordered
  decide +kernel

end Bridge
