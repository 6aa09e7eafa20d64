/-
The navigation mode the bridge reports.

`telemetry_data["navigation_mode"]` is written next to the process table, not derived
from it.  `slam_control` and `nav2_control` set it to `idle` after a stop of their own
stack, whether or not that stack was running; so a stop of the stack that is not running
hides the one that is (`stopOther_not_truthful`).  A start that fails, and a command that
is not configured, leave a wrong mode too.  `navigationModeTruthful_iff` says that there is no other way.

A `Report` is what the commands do when no child exits by itself and stops succeed: the
one stack that runs and the mode.  The supervisor follows it (`handle_shows`), and on
reports the question is a matter of cases (`Report.step_truthful_iff`).
-/
import WheeltecRos2.Bridge.Processes

namespace Bridge

open Hoare PyNum

section Statement

variable {F : Type}

/-- The stack has a live child. -/
def Alive (s : Supervisor F) (name : ProcName) : Prop :=
  ∃ process ∈ s.running, process.name = name

/-- The mode names the stack that is alive. -/
structure Truthful (s : Supervisor F) : Prop where
  slam : Alive s .slam → s.navigationMode = "slam"
  nav2 : Alive s .nav2 → s.navigationMode = "nav2"
  idle : s.navigationMode = "idle" ↔ ¬Alive s .slam ∧ ¬Alive s .nav2

/-- A request during which no child exits by itself and stops succeed. -/
structure CalmRequest (F : Type) where
  request : ProcessRequest F
  os : Surroundings F
  stays : ∀ name process, (os.stop name).exits process = false
  staysBeforeStart : ∀ process, os.exitsBeforeStart process = false
  stops : ∀ name, (os.stop name).outcome.raises = none

variable [PyNum F]

/-- The supervisor after a calm request. -/
def Supervisor.calmStep (config : Config F) (s : Supervisor F) (r : CalmRequest F) : Supervisor F :=
  s.step config (.request r.request r.os)

/-- The command that starts Nav2 on the map asked for, or on the one known. -/
def Config.nav2Command (config : Config F) (mapPath currentMapPath : Json F) : String :=
  strip (config.formatCommand config.nav2StartCmd ((mapPath.orElse currentMapPath).orElse (.str "")))

/-- The requests that leave a wrong mode: a stop of one stack while the other is alive;
a switch whose command is not configured (to SLAM, unless it is alive already); and a
failing start after another stack, or the same one, was stopped for it. -/
def Misreports (config : Config F) (s : Supervisor F) (r : CalmRequest F) : Prop :=
  match r.request.command with
  | .toSlam =>
    if strip config.slamStartCmd = "" then ¬Alive s .slam else r.os.spawn = none ∧ Alive s .nav2
  | .toNav2 mapPath =>
    config.nav2Command mapPath s.currentMapPath = "" ∨
      r.os.spawn = none ∧ (Alive s .slam ∨ Alive s .nav2)
  | .stop .slam => Alive s .nav2
  | .stop .nav2 => Alive s .slam
  | .resetSlam =>
    strip config.slamStartCmd = "" ∨ r.os.spawn = none ∧ (Alive s .slam ∨ Alive s .nav2)
  | .save | .nothing => False

end Statement

/-! ### Reports -/

/-- The stack that runs, the mode, and the map Nav2 is started with. -/
structure Report (F : Type) where
  running : Option ProcName
  mode : String
  mapPath : Json F

namespace Report

variable {F : Type} [PyNum F]

/-- The mode names the stack that runs. -/
def Truthful (r : Report F) : Prop :=
  r.mode = match r.running with
    | some name => name.str
    | none => "idle"

def stop (r : Report F) (name : ProcName) : Report F :=
  { r with running := if r.running = some name then none else r.running }

/-- A start returns, or it fails. -/
def start (r : Report F) (name : ProcName) (command : String) (spawn : Option ℕ) :
    Option (Report F) :=
  if strip command = "" ∨ r.running = some name then some r
  else spawn.map fun _ => { r with running := some name }

/-- The mode is written only after a start that returned. -/
def started (r : Report F) (name : ProcName) (command : String) (spawn : Option ℕ) : Report F :=
  match r.start name command spawn with
  | some r' => { r' with mode := name.str }
  | none => r

def toSlam (r : Report F) (config : Config F) (spawn : Option ℕ) : Report F :=
  (r.stop .nav2).started .slam config.slamStartCmd spawn

def toNav2 (r : Report F) (config : Config F) (mapPath : Json F) (spawn : Option ℕ) : Report F :=
  let command := config.formatCommand config.nav2StartCmd
    ((mapPath.orElse r.mapPath).orElse (.str ""))
  { (r.stop .slam).stop .nav2 with mapPath := mapPath.orElse r.mapPath }.started .nav2 command spawn

/-- The report after a calm request. -/
def step (config : Config F) (r : Report F) (request : CalmRequest F) : Report F :=
  match request.request.command with
  | .toSlam => r.toSlam config request.os.spawn
  | .toNav2 mapPath => r.toNav2 config mapPath request.os.spawn
  | .stop name => { r.stop name with mode := "idle" }
  | .resetSlam => (r.stop .slam).toSlam config request.os.spawn
  | .save => { r with mapPath := request.os.savedMapPath.getD r.mapPath }
  | .nothing => r

end Report

/-- The report a supervisor shows. -/
structure Shows {F : Type} (r : Report F) (s : Supervisor F) : Prop where
  kept : Kept s
  mode : s.navigationMode = r.mode
  mapPath : s.currentMapPath = r.mapPath
  alive : ∀ name, Alive s name ↔ r.running = some name

/-! ### What a supervisor shows -/

section Shown

variable {F : Type} {r : Report F} {s : Supervisor F} {name : ProcName}

theorem exit_eq_self {exits : Process → Bool} (h : ∀ process, exits process = false) :
    s.exit exits = s := by
  rw [Supervisor.exit, List.filter_eq_self.mpr]
  intro process _
  rw [h process]
  rfl

/-- A stack is alive if its recorded child is. -/
theorem Kept.alive_iff (h : Kept s) : Alive s name ↔ ∃ process, s.poll name = some process := by
  constructor
  · rintro ⟨process, hmem, rfl⟩
    exact ⟨process, poll_eq_some_iff.mpr ⟨h.recorded process hmem, hmem⟩⟩
  · rintro ⟨process, hpoll⟩
    obtain ⟨hrecord, hmem⟩ := poll_eq_some_iff.mp hpoll
    exact ⟨process, hmem, h.named name process hrecord⟩

/-- The stacks exclude each other. -/
theorem Kept.alive_unique (h : Kept s) {other : ProcName} (hname : Alive s name)
    (hother : Alive s other) : name = other := by
  obtain ⟨process, hmem, hp⟩ := hname
  obtain ⟨process', hmem', hp'⟩ := hother
  rcases name with _ | _ <;> rcases other with _ | _
  · rfl
  · exact absurd ⟨hp, hp'⟩ (h.exclusive process hmem process' hmem')
  · exact absurd ⟨hp', hp⟩ (h.exclusive process' hmem' process hmem)
  · rfl

/-- Every supervisor that keeps its records shows a report. -/
theorem Kept.exists_shows (h : Kept s) : ∃ r, Shows r s := by
  by_cases halive : ∃ name, Alive s name
  · obtain ⟨name, hname⟩ := halive
    refine ⟨⟨some name, s.navigationMode, s.currentMapPath⟩, h, rfl, rfl, ?_⟩
    intro other
    constructor
    · intro hother
      rw [h.alive_unique hname hother]
    · intro heq
      rw [← Option.some.inj heq]
      exact hname
  · refine ⟨⟨none, s.navigationMode, s.currentMapPath⟩, h, rfl, rfl, ?_⟩
    intro name
    exact iff_of_false (fun hname => halive ⟨name, hname⟩) (by simp)

/-- The mode is truthful if the report is. -/
theorem Shows.truthful_iff (h : Shows r s) : Truthful s ↔ r.Truthful := by
  have hslam := h.alive .slam
  have hnav2 := h.alive .nav2
  rw [Report.Truthful, ← h.mode]
  rcases hrunning : r.running with _ | _ | _ <;> rw [hrunning] at hslam hnav2
  · have hnone : ¬Alive s .slam ∧ ¬Alive s .nav2 := by simp [hslam, hnav2]
    constructor
    · intro ht
      exact ht.idle.mpr hnone
    · intro hidle
      exact ⟨fun hs => absurd hs hnone.1, fun hn => absurd hn hnone.2, iff_of_true hidle hnone⟩
  · have hs : Alive s .slam := hslam.mpr rfl
    constructor
    · intro ht
      exact ht.slam hs
    · intro hmode
      refine ⟨fun _ => hmode, fun hn => absurd (hnav2.mp hn) (by simp), ?_⟩
      rw [hmode]
      exact iff_of_false (by decide) fun hnone => hnone.1 hs
  · have hn : Alive s .nav2 := hnav2.mpr rfl
    constructor
    · intro ht
      exact ht.nav2 hn
    · intro hmode
      refine ⟨fun hs => absurd (hslam.mp hs) (by simp), fun _ => hmode, ?_⟩
      rw [hmode]
      exact iff_of_false (by decide) fun hnone => hnone.2 hn

/-- Writing the mode. -/
theorem Shows.write (h : Shows r s) (mode : String) :
    Shows { r with mode } { s with navigationMode := mode } :=
  ⟨h.kept.mode mode, rfl, h.mapPath, h.alive⟩

/-- Remembering a map. -/
theorem Shows.remember (h : Shows r s) (path : Json F) :
    Shows { r with mapPath := path } { s with currentMapPath := path } :=
  ⟨h.kept.mapPath path, h.mode, rfl, h.alive⟩

end Shown

/-! ### The supervisor follows the report -/

section Follow

variable {F : Type} {r : Report F} {s : Supervisor F} {name : ProcName} {os : Surroundings F}

/-- **A calm stop.** -/
theorem stop_shows (hexits : ∀ process, (os.stop name).exits process = false)
    (hstops : (os.stop name).outcome.raises = none) :
    Triple (Shows r) (stopManagedProcess os name) (fun _ => Shows (r.stop name))
      (fun _ _ => False) := by
  refine ⟨?_⟩
  intro s h
  have hexit : s.exit (os.stop name).exits = s := exit_eq_self hexits
  have hpolled : (s.exit (os.stop name).exits).poll name = s.poll name := by rw [hexit]
  rcases hpoll : s.poll name with _ | existing
  · have habsent := h.kept.absent_of_poll hpoll
    obtain ⟨answer, hexec⟩ := exec_stop_of_none (hpolled.trans hpoll)
    have hrunning : r.running ≠ some name := by
      intro heq
      obtain ⟨process, hsome⟩ := h.kept.alive_iff.mp ((h.alive name).mpr heq)
      rw [hsome] at hpoll
      exact absurd hpoll (by simp)
    rw [hexec, hexit, show r.stop name = r by rw [Report.stop, if_neg hrunning]]
    exact ⟨h.kept.pop habsent, h.mode, h.mapPath, h.alive⟩
  · have hexec := exec_stop_of_some (hpolled.trans hpoll)
    have hdies : (os.stop name).outcome.survives = false := by
      rcases hout : (os.stop name).outcome with _ | _ | _ | _ | _ <;> rw [hout] at hstops <;>
        first | rfl | exact absurd hstops (by simp [StopOutcome.raises])
    have hrunning : r.running = some name :=
      (h.alive name).mp (h.kept.alive_iff.mpr ⟨existing, hpoll⟩)
    rw [hexec, hexit, hstops, Supervisor.stopped, hdies,
      show r.stop name = { r with running := none } by rw [Report.stop, if_pos hrunning]]
    have hgone := h.kept.absent_of_exit hpoll
    refine ⟨(h.kept.exit _).pop hgone, h.mode, h.mapPath, ?_⟩
    intro other
    refine iff_of_false ?_ (by simp)
    rintro ⟨process, hmem, rfl⟩
    -- the only stack that was alive is the one stopped
    have hsame : process.name = name := h.kept.alive_unique ⟨process, mem_running_exit hmem, rfl⟩
      ((h.alive name).mpr hrunning)
    exact hgone process hmem (by simp [hsame])

/-- **A start** when the other stack does not run. -/
theorem start_shows {command : String} (hother : r.running = none ∨ r.running = some name)
    (hexits : ∀ process, os.exitsBeforeStart process = false) :
    Triple (Shows r) (startManagedProcess os name command)
      (fun _ s => ∃ r', r.start name command os.spawn = some r' ∧ Shows r' s)
      (fun _ s => r.start name command os.spawn = none ∧ Shows r s) := by
  refine ⟨?_⟩
  intro s h
  have hexit : s.exit os.exitsBeforeStart = s := exit_eq_self hexits
  rw [startManagedProcess, Report.start]
  by_cases hcommand : strip command = ""
  · rw [if_pos (Or.inl hcommand)]
    simp only [if_pos hcommand]
    exact ⟨r, rfl, h⟩
  · simp only [if_neg hcommand, exec_modify_bind, exec_get_bind, hexit]
    rcases hpoll : s.poll name with _ | existing
    · have hnone : r.running ≠ some name := by
        intro heq
        obtain ⟨process, hsome⟩ := h.kept.alive_iff.mp ((h.alive name).mpr heq)
        rw [hsome] at hpoll
        exact absurd hpoll (by simp)
      rw [if_neg (not_or.mpr ⟨hcommand, hnone⟩)]
      -- neither stack runs, so the new process is the only one
      have habsent : ∀ other, Absent [other] s := by
        intro other process hmem _
        have := (h.alive process.name).mp ⟨process, hmem, rfl⟩
        rcases hother with hnot | hsame
        · rw [hnot] at this
          exact absurd this (by simp)
        · exact hnone hsame
      rcases os.spawn with _ | pid
      · exact ⟨rfl, h⟩
      · refine ⟨{ r with running := some name }, rfl, h.kept.spawned habsent pid, h.mode, h.mapPath, ?_⟩
        intro other
        constructor
        · rintro ⟨process, hmem, rfl⟩
          rcases List.mem_cons.mp hmem with rfl | hmem
          · rfl
          · exact absurd (by simp) (habsent process.name process hmem)
        · intro heq
          exact ⟨_, List.mem_cons_self, Option.some.inj heq⟩
    · have hrunning : r.running = some name :=
        (h.alive name).mp (h.kept.alive_iff.mpr ⟨existing, hpoll⟩)
      rw [if_pos (Or.inr hrunning)]
      exact ⟨r, rfl, h⟩

/-- A start and the mode written after it. -/
theorem started_shows {command : String} (hother : r.running = none ∨ r.running = some name)
    (hexits : ∀ process, os.exitsBeforeStart process = false) (answer : Json F → Json F) :
    Triple (Shows r)
      (do
        let result ← startManagedProcess os name command
        modify fun s => { s with navigationMode := name.str }
        return answer result)
      (fun _ => Shows (r.started name command os.spawn))
      (fun _ => Shows (r.started name command os.spawn)) := by
  have hstart : Triple (Shows r) (startManagedProcess os name command)
      (fun _ s => ∃ r', r.start name command os.spawn = some r' ∧ Shows r' s)
      (fun _ => Shows (r.started name command os.spawn)) := by
    refine (start_shows hother hexits).conseq (fun _ h => h) (fun _ _ h => h) ?_
    rintro _ s ⟨hnone, h⟩
    rw [Report.started, hnone]
    exact h
  refine hstart.seq fun result => (Triple.update ?_).seq fun _ => Triple.ret fun _ h => h
  rintro s ⟨r', hsome, h⟩
  rw [Report.started, hsome]
  exact h.write name.str

/-- After a stop the stack does not run. -/
theorem Report.stop_running (r : Report F) (name : ProcName) :
    (r.stop name).running ≠ some name := by
  rw [Report.stop]
  split_ifs with h
  · simp
  · exact h

/-- After both stops nothing runs. -/
theorem Report.stop_stop_running (r : Report F) : ((r.stop .slam).stop .nav2).running = none := by
  obtain ⟨running, mode, mapPath⟩ := r
  rcases running with _ | _ | _ <;> simp [Report.stop]

variable [PyNum F] {config : Config F}

/-- A switch to SLAM. -/
theorem toSlam_shows (c : CalmRequest F) (mapPath : Json F) :
    Triple (Shows r) (switchNavigationMode config c.os "slam" mapPath)
      (fun _ => Shows (r.toSlam config c.os.spawn)) (fun _ => Shows (r.toSlam config c.os.spawn)) := by
  rw [switchNavigationMode, if_pos rfl]
  refine ((stop_shows (c.stays .nav2) (c.stops .nav2)).conseq (fun _ h => h) (fun _ _ h => h)
    (fun _ _ h => h.elim)).seq fun nav2Stop => started_shows ?_ c.staysBeforeStart _
  have hnav2 := r.stop_running .nav2
  rcases hrunning : (r.stop .nav2).running with _ | _ | _
  · exact Or.inl rfl
  · exact Or.inr rfl
  · exact absurd hrunning hnav2

/-- A switch to Nav2. -/
theorem toNav2_shows (c : CalmRequest F) (mapPath : Json F) :
    Triple (Shows r) (switchNavigationMode config c.os "nav2" mapPath)
      (fun _ => Shows (r.toNav2 config mapPath c.os.spawn))
      (fun _ => Shows (r.toNav2 config mapPath c.os.spawn)) := by
  rw [switchNavigationMode, if_neg (by decide), if_pos rfl]
  have hstop : ∀ {r' : Report F} {name : ProcName}, Triple (Shows r') (stopManagedProcess c.os name)
      (fun _ => Shows (r'.stop name)) (fun _ => Shows (r.toNav2 config mapPath c.os.spawn)) := by
    intro r' name
    exact (stop_shows (c.stays _) (c.stops _)).conseq (fun _ h => h) (fun _ _ h => h)
      fun _ _ h => h.elim
  set stopped : Report F := { (r.stop .slam).stop .nav2 with mapPath := mapPath.orElse r.mapPath }
    with hstopped
  refine hstop.seq fun slamStop => hstop.seq fun nav2Stop =>
    (Triple.update (R := fun _ => Shows stopped) ?_).seq fun _ => Triple.read fun found => ?_
  · intro s h
    have := h.remember (mapPath.orElse s.currentMapPath)
    rw [h.mapPath] at this ⊢
    exact this
  · by_cases hfound : Shows stopped found
    · rw [hfound.mapPath]
      exact (started_shows (r := stopped) (Or.inl r.stop_stop_running) c.staysBeforeStart _).conseq
        (fun _ h => h.1) (fun _ _ h => h) (fun _ _ h => h)
    · refine Triple.unreachable fun s h => hfound ?_
      rw [← h.2]
      exact h.1

/-- **A calm request.** -/
theorem handle_shows (c : CalmRequest F) :
    Triple (Shows r) (c.request.handle config c.os)
      (fun _ => Shows (r.step config c)) (fun _ => Shows (r.step config c)) := by
  have hstop : ∀ {name : ProcName} {E : PyError → Supervisor F → Prop},
      Triple (Shows r) (stopManagedProcess c.os name) (fun _ => Shows (r.stop name)) E :=
    (stop_shows (c.stays _) (c.stops _)).conseq (fun _ h => h) (fun _ _ h => h)
      fun _ _ h => h.elim
  obtain ⟨refusal, hrun⟩ := handle_eq_run config c.os c.request
  rw [hrun, Report.step]
  rcases c.request.command with - | mapPath | (- | -) | - | - | -
  · exact toSlam_shows c .null
  · exact toNav2_shows c mapPath
  · exact hstop.seq fun _ => (Triple.update fun s h => h.write "idle").seq fun _ =>
      Triple.ret fun _ h => h
  · exact hstop.seq fun _ => (Triple.update fun s h => h.write "idle").seq fun _ =>
      Triple.ret fun _ h => h
  · exact hstop.seq fun _ => toSlam_shows c .null
  · refine (Triple.update fun s h => ?_).seq fun _ => Triple.known c.os.saveCurrentMap
    rw [← h.mapPath]
    exact h.remember _
  · exact Triple.known refusal

theorem Shows.calmStep (h : Shows r s) (c : CalmRequest F) :
    Shows (r.step config c) (s.calmStep config c) :=
  (handle_shows c).final h

end Follow

/-! ### The exact condition -/

namespace Report

variable {F : Type} {r : Report F} {name : ProcName}

theorem truthful_some : Truthful { r with running := some name, mode := name.str } := rfl

/-- The mode of a stack is none of the others. -/
theorem truthful_write_iff : Truthful { r with mode := name.str } ↔ r.running = some name := by
  obtain ⟨running, mode, mapPath⟩ := r
  rcases running with _ | _ | _ <;> rcases name with _ | _ <;> simp [Truthful, ProcName.str]

theorem truthful_idle_iff : Truthful { r with mode := "idle" } ↔ r.running = none := by
  obtain ⟨running, mode, mapPath⟩ := r
  rcases running with _ | _ | _ <;> simp [Truthful, ProcName.str]

/-- A stop leaves the mode as it is. -/
theorem Truthful.stop_iff (h : r.Truthful) : (r.stop name).Truthful ↔ r.running ≠ some name := by
  by_cases hrunning : r.running = some name
  · rw [Truthful, hrunning] at h
    rw [stop, if_pos hrunning]
    refine iff_of_false ?_ (fun hne => hne hrunning)
    rw [Truthful]
    simp only [h]
    rcases name with _ | _ <;> simp [ProcName.str]
  · rw [stop, if_neg hrunning]
    exact iff_of_true h hrunning

theorem stop_running_iff {other : ProcName} (hne : other ≠ name) :
    (r.stop name).running = some other ↔ r.running = some other := by
  rw [stop]
  split_ifs with hrunning
  · rw [hrunning]
    exact iff_of_false (by simp) fun heq => hne (Option.some.inj heq).symm
  · rfl

theorem stop_running_none_iff {other : ProcName} (hne : name ≠ other) :
    (r.stop name).running = none ↔ r.running ≠ some other := by
  obtain ⟨running, mode, mapPath⟩ := r
  rcases running with _ | _ | _ <;> rcases name with _ | _ <;> rcases other with _ | _ <;>
    simp [stop] at hne ⊢

/-- Both stops leave a mode that is right only if nothing ran. -/
theorem Truthful.stop_stop_iff (h : r.Truthful) :
    ((r.stop .slam).stop .nav2).Truthful ↔ r.running ≠ some .slam ∧ r.running ≠ some .nav2 := by
  by_cases hslam : r.running = some .slam
  · refine iff_of_false ?_ fun hne => hne.1 hslam
    rw [Truthful, hslam] at h
    rw [Truthful, r.stop_stop_running]
    simp [stop, h, ProcName.str]
  · rw [show r.stop .slam = r by rw [stop, if_neg hslam], h.stop_iff]
    exact (and_iff_right hslam).symm

/-- A start writes the mode if it returns. -/
theorem truthful_started_iff {command : String} {spawn : Option ℕ} :
    (r.started name command spawn).Truthful ↔
      r.running = some name ∨ strip command ≠ "" ∧ (spawn ≠ none ∨ r.Truthful) := by
  rw [started, start]
  by_cases hrunning : r.running = some name
  · rw [if_pos (Or.inr hrunning)]
    exact iff_of_true (truthful_write_iff.mpr hrunning) (Or.inl hrunning)
  · by_cases hcommand : strip command = ""
    · rw [if_pos (Or.inl hcommand)]
      refine iff_of_false (fun h => hrunning (truthful_write_iff.mp h)) ?_
      rintro (h | ⟨h, -⟩)
      · exact hrunning h
      · exact h hcommand
    · rw [if_neg (not_or.mpr ⟨hcommand, hrunning⟩)]
      rcases spawn with _ | pid
      · simp [hrunning, hcommand]
      · exact iff_of_true truthful_some (Or.inr ⟨hcommand, Or.inl (by simp)⟩)

end Report

section Exact

variable {F : Type} [PyNum F] {config : Config F} {r : Report F} {s : Supervisor F}

/-- A request keeps the report truthful exactly if it does not misreport. -/
theorem Shows.step_truthful_iff (h : Shows r s) (ht : r.Truthful) (c : CalmRequest F) :
    (r.step config c).Truthful ↔ ¬Misreports config s c := by
  have hslam := h.alive .slam
  have hnav2 := h.alive .nav2
  have hone : ¬(r.running = some .slam ∧ r.running = some .nav2) := by
    rintro ⟨hs, hn⟩
    rw [hs] at hn
    exact absurd hn (by simp)
  rw [Report.step, Misreports]
  -- the switch to either stack, the stop of either, the reset, and what leaves both alone
  rcases c.request.command with _ | mapPath | (_ | _) | _ | _ | _
  · show (r.toSlam config c.os.spawn).Truthful ↔ _
    rw [Report.toSlam, Report.truthful_started_iff, Report.stop_running_iff (by decide), ht.stop_iff]
    simp only [hslam, hnav2]
    split_ifs with hcommand
    · rw [not_not, or_iff_left]
      exact fun hstarted => hstarted.1 hcommand
    · rw [and_iff_right hcommand, not_and_or]
      exact or_iff_right_of_imp fun hs => Or.inr fun hn => hone ⟨hs, hn⟩
  · show (r.toNav2 config mapPath c.os.spawn).Truthful ↔ _
    have hidle : ({ (r.stop .slam).stop .nav2 with mapPath := mapPath.orElse r.mapPath } :
        Report F).Truthful ↔ _ := ht.stop_stop_iff
    rw [Report.toNav2, Report.truthful_started_iff, hidle, or_iff_right (Report.stop_running _ _),
      hslam, hnav2, h.mapPath, not_or, not_and_or, not_or]
    rfl
  · show Report.Truthful { r.stop .slam with mode := "idle" } ↔ ¬Alive s .nav2
    rw [Report.truthful_idle_iff, hnav2]
    exact Report.stop_running_none_iff (by decide)
  · show Report.Truthful { r.stop .nav2 with mode := "idle" } ↔ ¬Alive s .slam
    rw [Report.truthful_idle_iff, hslam]
    exact Report.stop_running_none_iff (by decide)
  · show ((r.stop .slam).toSlam config c.os.spawn).Truthful ↔ _
    have hnot : ((r.stop .slam).stop .nav2).running ≠ some .slam := by
      rw [r.stop_stop_running]
      simp
    rw [Report.toSlam, Report.truthful_started_iff, ht.stop_stop_iff, or_iff_right hnot, hslam,
      hnav2, not_or, not_and_or, not_or]
  · exact iff_of_true ht not_false
  · exact iff_of_true ht not_false

/-- **The mode is truthful after every request of a run exactly if no request
misreports.** -/
theorem navigationModeTruthful_iff {F : Type} [PyNum F] (config : Config F) (requests : List (CalmRequest F)) :
    (∀ before, before <+: requests →
        Truthful (Runs.run (Supervisor.calmStep config) Supervisor.init before)) ↔
      Runs.Along (Supervisor.calmStep config) (fun s c => ¬Misreports config s c)
        Supervisor.init requests := by
  have hstep : ∀ (s : Supervisor F) (c : CalmRequest F), Kept s ∧ Truthful s →
      Kept (s.calmStep config c) ∧ (Truthful (s.calmStep config c) ↔ ¬Misreports config s c) := by
    rintro s c ⟨hkept, htruthful⟩
    obtain ⟨r, hshows⟩ := hkept.exists_shows
    have hnext : Shows (r.step config c) (s.calmStep config c) := hshows.calmStep c
    exact ⟨hnext.kept, hnext.truthful_iff.trans
      (hshows.step_truthful_iff (hshows.truthful_iff.mp htruthful) c)⟩
  have hinit : Shows (⟨none, "idle", .null⟩ : Report F) Supervisor.init := by
    refine ⟨⟨⟨?_, ?_⟩, ?_⟩, rfl, rfl, ?_⟩
    · intro process hmem
      exact absurd hmem List.not_mem_nil
    · intro process hmem
      exact absurd hmem List.not_mem_nil
    · intro name process hrecord
      exact absurd hrecord (by simp [Supervisor.init])
    · intro name
      refine iff_of_false ?_ (by simp)
      rintro ⟨process, hmem, -⟩
      exact absurd hmem List.not_mem_nil
  refine Runs.forall_prefix_iff_along (J := fun s => Kept s ∧ Truthful s)
    ⟨hinit.kept, hinit.truthful_iff.mpr rfl⟩ (fun _ h => h.2) ?_ ?_
  · intro s c hs hreports
    obtain ⟨hkept, hiff⟩ := hstep s c hs
    exact ⟨hkept, hiff.mpr hreports⟩
  · intro s c hs hreports htruthful
    exact hreports ((hstep s c hs).2.mp htruthful)

end Exact

/-! ### A stop of the other stack -/

/-- Starts go through and stops succeed. -/
def calmly (request : ProcessRequest ℚ) : CalmRequest ℚ where
  request := request
  os := calmOs 100 .exitsAfterTerm
  stays _ _ := rfl
  staysBeforeStart _ := rfl
  stops _ := rfl

/-- Nav2 is started, and SLAM, which does not run, is stopped. -/
def stopOther : List (CalmRequest ℚ) :=
  [calmly (.navigationMode (.dict [("mode", .str "nav2")])),
    calmly (.slamControl (.dict [("action", .str "stop")]))]

/-- Nav2 is alive and the mode is `idle`. -/
theorem stopOther_not_truthful :
    ¬Truthful (Runs.run (Supervisor.calmStep ⟨"slam", "nav2", fun command _ => command⟩)
      Supervisor.init stopOther) := by
  intro htruthful
  have halive : Alive (Runs.run (Supervisor.calmStep ⟨"slam", "nav2", fun command _ => command⟩)
      Supervisor.init stopOther) .nav2 := ⟨⟨0, 100, .nav2⟩, by decide +kernel, rfl⟩
  have hmode := htruthful.nav2 halive
  revert hmode
  decide +kernel

end Bridge
