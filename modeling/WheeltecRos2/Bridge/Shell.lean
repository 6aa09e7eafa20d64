/-
The commands the bridge hands to a shell.

`navigation_mode`, `slam_control` and `nav2_control` run configured commands with
`shell=True`.  The name of a saved map is turned into a slug first, but the map path of a
switch to Nav2 is put into its command as it is, and remembered for the next switch: a
request can run any command (`mapPath_injects`).  `shellSafe_iff` is the exact condition
on a run: no map path of a request brings a character other than letters, digits, `_`,
`.`, `/` and `-` into the Nav2 command, except white space at the ends, where it is
stripped.

What the operating system answers is an input of each request; `Bridge.Processes` follows
the children.
-/
import WheeltecRos2.Bridge.ShellText
import WheeltecRos2.Bridge.NavigationMode

namespace Bridge

open Hoare PyNum

section Model

variable {F : Type}

/-- `_current_map_path`: unset, a value from a payload, or the path of a saved map. -/
inductive MapPath (F : Type)
  | unset
  | given (value : Json F)
  | saved (path : Text)

/-- The configured commands and the map directory. -/
structure ShellConfig where
  slamStartCmd : String
  nav2StartCmd : Template
  mapSaverCmd : Template
  mapSaveDir : String

/-- The fields the commands depend on, and the commands handed to a shell so far. -/
structure Shell (F : Type) where
  currentMapPath : MapPath F
  commands : List Text

/-- What the operating system answers during a request: whether a stop, a start or, before the
saver runs, the creation of the map directory or a look for a map there raises, whether SLAM is
running when it is started, and for `save` whether there is a map, the clock, the existing files,
how the saver ends and how the map is read back. -/
structure ShellCalls where
  stopRaises : ProcName → Option PyError
  slamRunning : Bool
  spawnRaises : Option PyError
  mapReceived : Bool
  nameClock : String
  prefixClock : String
  mkdirRaises : Option PyError
  files : List String
  saverRaises : Option PyError
  saverFails : Bool
  readRaises : Option PyError
  yamlExists : Bool

variable [PyNum F]

/-- `self._current_map_path or ""`, formatted. -/
def MapPath.text : MapPath F → Text
  | .unset => []
  | .given value => if value.truthy then .ofPayload (strOf value) else []
  | .saved path => path

/-- `map_path or self._current_map_path`. -/
def MapPath.update (current : MapPath F) (mapPath : Json F) : MapPath F :=
  if mapPath.truthy then .given mapPath else current

/-- Programs of the command thread; their answers are left out. -/
abbrev ShellProg (F α : Type) := Prog (Shell F) PyError α

/-- A call that may raise. -/
def attempt (raises : Option PyError) : ShellProg F Unit :=
  match raises with
  | some e => throw e
  | none => pure ()

/-- `shell=True`. -/
def runShell (command : Text) : ShellProg F Unit :=
  modify fun s => { s with commands := s.commands ++ [command] }

/-- `_start_managed_process`. -/
def shellStart (os : ShellCalls) (running : Bool) (command : Text) : ShellProg F Unit := do
  let command := command.strip
  if command = [] ∨ running = true then return
  else
    runShell command
    attempt os.spawnRaises

/-- `_switch_navigation_mode`. -/
def shellSwitch (config : ShellConfig) (os : ShellCalls) (mode : String) (mapPath : Json F) :
    ShellProg F Unit := do
  if mode = "slam" then
    attempt (os.stopRaises .nav2)
    shellStart os os.slamRunning (.own config.slamStartCmd)
  else if mode = "nav2" then
    attempt (os.stopRaises .slam)
    attempt (os.stopRaises .nav2)
    modify fun s => { s with currentMapPath := s.currentMapPath.update mapPath }
    let s ← get
    -- the stop has dropped the record of Nav2
    shellStart os false (formatCommand config.nav2StartCmd [("map", s.currentMapPath.text)])
  else throw (.raised "mode must be slam or nav2")

/-- The name of a saved map. -/
def mapName (os : ShellCalls) (name : Json F) : Text :=
  let rawName := (Text.ofPayload (strOf (name.orElse (.str "")))).strip
  if rawName = [] then .own ("map_" ++ os.nameClock) else safeSlug os.nameClock rawName

/-- The call of the map saver, if it is configured: whether it fails. -/
def runSaver (os : ShellCalls) (command : Text) : ShellProg F Bool := do
  if command = [] then return false
  else
    runShell command
    attempt os.saverRaises
    return os.saverFails

/-- `_save_current_map`. -/
def shellSave (config : ShellConfig) (os : ShellCalls) (payload : Json F) : ShellProg F Unit := do
  if os.mapReceived then
    let name ← ofExcept (payload.get "name" .null)
    let name := mapName os name
    attempt os.mkdirRaises
    let name := uniqueMapPrefix os.files config.mapSaveDir os.prefixClock name
    let mapPrefix := joinPath config.mapSaveDir name
    let command := formatCommand config.mapSaverCmd [("map_prefix", mapPrefix), ("name", name)]
    let failed ← runSaver os command
    if failed then return
    else
      attempt os.readRaises
      let path := if os.yamlExists then mapPrefix ++ .own ".yaml" else mapPrefix
      modify fun s => { s with currentMapPath := .saved path }
  else return

/-- The branch of a request. -/
def shellHandle (config : ShellConfig) (os : ShellCalls) : ProcessRequest F → ShellProg F Unit
  | .navigationMode payload => do
    let mode ← ofExcept (lowerField payload "mode")
    let mapPath ← ofExcept (mapPathField payload)
    shellSwitch config os mode mapPath
  | .slamControl payload => do
    let slamAction ← ofExcept (lowerField payload "action")
    if slamAction = "start" then shellSwitch config os "slam" .null
    else if slamAction = "stop" then attempt (os.stopRaises .slam)
    else if slamAction = "save" then shellSave config os payload
    else if slamAction = "reset" then
      attempt (os.stopRaises .slam)
      shellSwitch config os "slam" .null
    else return
  | .nav2Control payload => do
    let nav2Action ← ofExcept (lowerField payload "action")
    if nav2Action = "start" then
      let mapPath ← ofExcept (mapPathField payload)
      shellSwitch config os "nav2" mapPath
    else if nav2Action = "stop" then attempt (os.stopRaises .nav2)
    else return

/-- A request and what the operating system answers during it. -/
structure ShellRequest (F : Type) where
  request : ProcessRequest F
  os : ShellCalls

namespace Shell

def init : Shell F := { currentMapPath := .unset, commands := [] }

/-- The state after a request. -/
def step (config : ShellConfig) (s : Shell F) (r : ShellRequest F) : Shell F :=
  (exec (shellHandle config r.os r.request) s).2

/-- Every command is safe. -/
def Safe (s : Shell F) : Prop := ∀ command ∈ s.commands, command.Safe

end Shell

/-! ### The condition -/

/-- Nothing but white space. -/
def Blank (t : Text) : Prop := ∀ x ∈ t, isPySpace x.1 = true

/-- A piece of a template whose placeholders all stand for `t`. -/
def Part.value (t : Text) : Part → Text
  | .literal text => .own text
  | .field _ => t

/-- A map path brings an unsafe character `c` into the command: the template has no
other placeholder than `map`, and `c` is not among white space at the beginning or the
end of the command. -/
def Exposes (template : Template) (t : Text) : Prop :=
  ∃ before after, template = .parts (before ++ .field "map" :: after) ∧
    (∀ name, .field name ∈ before ++ after → name = "map") ∧
    ∃ pre c post, t = pre ++ (c, .payload) :: post ∧ ¬SafeChar c ∧
      ¬Blank (before.flatMap (Part.value t) ++ pre ++ [(c, .payload)]) ∧
      ¬Blank ((c, .payload) :: (post ++ after.flatMap (Part.value t)))

/-- The request switches to Nav2 with a map path of its own that does so, and both stops
return. -/
def Injects (config : ShellConfig) (r : ShellRequest F) : Prop :=
  ∃ mapPath, r.request.command = .toNav2 mapPath ∧ mapPath.truthy = true ∧
    r.os.stopRaises .slam = none ∧ r.os.stopRaises .nav2 = none ∧
    Exposes config.nav2StartCmd (.ofPayload (strOf mapPath))

/-- The program of a command, with the payload of its request; `refusal` is how `nothing`
ends. -/
def NavCommand.shellRun (config : ShellConfig) (os : ShellCalls) (payload : Json F)
    (refusal : Except PyError Unit) : NavCommand F → ShellProg F Unit
  | .toSlam => shellSwitch config os "slam" .null
  | .toNav2 mapPath => shellSwitch config os "nav2" mapPath
  | .stop name => attempt (os.stopRaises name)
  | .resetSlam => do
    attempt (os.stopRaises .slam)
    shellSwitch config os "slam" .null
  | .save => shellSave config os payload
  | .nothing => ofExcept refusal

end Model

/-! ### Filling a template -/

section Fill

variable {parts : List Part} {template : Template} {t : Text} {c : Char}

/-- Safe values make a safe command. -/
theorem safe_formatCommand {kwargs : List (String × Text)}
    (h : ∀ entry ∈ kwargs, entry.2.Safe) (template : Template) :
    (formatCommand template kwargs).Safe := by
  have hpieces : ∀ {parts : List Part} {pieces}, parts.mapM (Part.fill kwargs) = some pieces →
      Text.Safe pieces.flatten := by
    intro parts
    induction parts with
    | nil =>
      intro pieces hsome
      rw [List.mapM_nil, Option.pure_def, Option.some_inj] at hsome
      subst hsome
      exact safe_own ""
    | cons part parts ih =>
      intro pieces hsome
      rw [List.mapM_cons] at hsome
      obtain ⟨piece, hpiece, hmore⟩ := Option.bind_eq_some_iff.mp hsome
      obtain ⟨rest, hrest, heq⟩ := Option.bind_eq_some_iff.mp hmore
      rw [Option.pure_def, Option.some_inj] at heq
      subst heq
      refine Text.Safe.append ?_ (ih hrest)
      rcases part with text | name
      · rw [Part.fill, Option.some_inj] at hpiece
        subst hpiece
        exact safe_own text
      · obtain ⟨before, after, rfl, -⟩ := List.lookup_eq_some_iff.mp hpiece
        exact h (name, piece) (by simp)
  rcases template with parts | text
  · rw [formatCommand]
    rcases hfill : parts.mapM (Part.fill kwargs) with _ | pieces
    · exact safe_own _
    · exact hpieces hfill
  · exact safe_own text

/-- If `map` is the only placeholder every one is filled. -/
theorem formatCommand_map (h : ∀ name, .field name ∈ parts → name = "map") (t : Text) :
    formatCommand (.parts parts) [("map", t)] = parts.flatMap (Part.value t) := by
  have hfill : parts.mapM (Part.fill [("map", t)]) = some (parts.map (Part.value t)) := by
    induction parts with
    | nil => rfl
    | cons part parts ih =>
      have hpart : Part.fill [("map", t)] part = some (Part.value t part) := by
        rcases part with text | name
        · rfl
        · rw [h name (by simp)]
          rfl
      rw [List.mapM_cons, hpart, ih fun name hname => h name (List.mem_cons_of_mem _ hname)]
      rfl
  rw [formatCommand, hfill, List.flatMap_def]

/-- Otherwise the template is kept. -/
theorem formatCommand_of_other (h : ¬∀ name, .field name ∈ parts → name = "map") (t : Text) :
    formatCommand (.parts parts) [("map", t)] = .own (Template.parts parts).source := by
  have hfill : parts.mapM (Part.fill [("map", t)]) = none := by
    induction parts with
    | nil => exact absurd (fun _ hname => absurd hname List.not_mem_nil) h
    | cons part parts ih =>
      rw [List.mapM_cons]
      by_cases hrest : ∀ name, .field name ∈ parts → name = "map"
      · rcases part with text | name
        · refine absurd (fun name hname => hrest name ?_) h
          simpa using hname
        · have hname : name ≠ "map" := by
            intro heq
            refine h ?_
            intro other hother
            rcases List.mem_cons.mp hother with hsame | hother
            · rw [Part.field.inj hsame, heq]
            · exact hrest other hother
          have hlookup : Part.fill [("map", t)] (.field name) = none := by
            rw [Part.fill, List.lookup_cons, beq_eq_false_iff_ne.mpr hname]
            rfl
          rw [hlookup]
          rfl
      · rw [ih hrest]
        rcases Part.fill [("map", t)] part with _ | piece <;> rfl
  rw [formatCommand, hfill]

/-- An element of a concatenation lies in one of its pieces. -/
theorem flatMap_eq_append_cons {α β : Type} {f : α → List β} {l : List α} {A B : List β} {x : β}
    (h : l.flatMap f = A ++ x :: B) :
    ∃ before a after pre post, l = before ++ a :: after ∧ f a = pre ++ x :: post ∧
      A = before.flatMap f ++ pre ∧ B = post ++ after.flatMap f := by
  induction l generalizing A with
  | nil => exact absurd h (by simp)
  | cons a l ih =>
    rw [List.flatMap_cons] at h
    rcases List.append_eq_append_iff.mp h with ⟨A', hA, hrest⟩ | ⟨pre, hpre, hB⟩
    · obtain ⟨before, b, after, pre, post, rfl, hb, rfl, rfl⟩ := ih hrest
      exact ⟨a :: before, b, after, pre, post, rfl, hb, by simp [hA], rfl⟩
    · rcases pre with _ | ⟨y, post⟩
      · obtain ⟨before, b, after, pre, post, rfl, hb, hnil, rfl⟩ :=
          ih (A := []) (by simpa using hB.symm)
        refine ⟨a :: before, b, after, pre, post, rfl, hb, ?_, rfl⟩
        rw [List.flatMap_cons, List.append_assoc, ← hnil, hpre, List.append_nil, List.append_nil]
      · rw [List.cons_append, List.cons.injEq] at hB
        obtain ⟨rfl, rfl⟩ := hB
        exact ⟨[], a, l, A, post, rfl, hpre, rfl, rfl⟩

theorem not_blank_iff : ¬Blank t ↔ ∃ x ∈ t, isPySpace x.1 = false := by
  simp [Blank]

/-- **The unsafe characters of a Nav2 command.** -/
theorem safe_strip_iff (template : Template) (t : Text) :
    (formatCommand template [("map", t)]).strip.Safe ↔ ¬Exposes template t := by
  constructor
  · rintro hsafe ⟨before, after, rfl, hmap, pre, c, post, ht, hc, hbefore, hafter⟩
    have hfields : ∀ name, .field name ∈ before ++ .field "map" :: after → name = "map" := by
      intro name hname
      rcases List.mem_append.mp hname with hname | hname
      · exact hmap name (List.mem_append_left after hname)
      · rcases List.mem_cons.mp hname with hsame | hname
        · exact Part.field.inj hsame
        · exact hmap name (List.mem_append_right before hname)
    refine hc (hsafe c (Trim.mem_trim_iff.mpr ⟨_, _, ?_, not_blank_iff.mp hbefore,
      not_blank_iff.mp hafter⟩))
    rw [formatCommand_map hfields, List.flatMap_append, List.flatMap_cons,
      show Part.value t (.field "map") = t from rfl]
    nth_rewrite 2 [ht]
    simp only [List.append_assoc, List.cons_append]
  · intro hexposes c hc
    by_contra hunsafe
    obtain ⟨A, B, hsplit, hA, hB⟩ := Trim.mem_trim_iff.mp hc
    rcases template with parts | text
    · -- an unsafe character comes from the payload, so from a filled placeholder
      by_cases hmap : ∀ name, .field name ∈ parts → name = "map"
      · rw [formatCommand_map hmap] at hsplit
        obtain ⟨before, part, after, pre, post, rfl, hpart, rfl, rfl⟩ := flatMap_eq_append_cons hsplit
        rcases part with text | name
        · exact payload_notMem_own (s := text) (c := c) (by rw [← Part.value, hpart]; simp)
        · obtain rfl : name = "map" := hmap name (by simp)
          refine hexposes ⟨before, after, rfl, ?_, pre, c, post, hpart, hunsafe,
            not_blank_iff.mpr hA, not_blank_iff.mpr hB⟩
          intro name hname
          refine hmap name ?_
          rcases List.mem_append.mp hname with hname | hname
          · exact List.mem_append_left _ hname
          · exact List.mem_append_right _ (List.mem_cons_of_mem _ hname)
      · rw [formatCommand_of_other hmap] at hsplit
        exact payload_notMem_own (c := c) (by rw [hsplit]; simp)
    · exact payload_notMem_own (s := text) (c := c) (by rw [← formatCommand, hsplit]; simp)

end Fill

/-! ### Requests -/

section Requests

variable {F : Type} [PyNum F] {config : ShellConfig} {os : ShellCalls}

/-- A switch is the program of its command. -/
theorem shellSwitch_eq_run (mode : String) (mapPath payload : Json F) :
    shellSwitch config os mode mapPath = (NavCommand.switch mode mapPath).shellRun config os
      payload (.error (.raised "mode must be slam or nav2")) := by
  rw [NavCommand.switch]
  by_cases hslam : mode = "slam"
  · rw [if_pos hslam, hslam, NavCommand.shellRun, shellSwitch, if_pos rfl, shellSwitch, if_pos rfl]
  by_cases hnav2 : mode = "nav2"
  · rw [if_neg hslam, if_pos hnav2, hnav2, NavCommand.shellRun]
  · rw [if_neg hslam, if_neg hnav2, shellSwitch, if_neg hslam, if_neg hnav2]
    rfl

/-- **A request is handled as its command says.** -/
theorem shellHandle_eq_run (config : ShellConfig) (os : ShellCalls) (r : ProcessRequest F) :
    ∃ payload refusal, shellHandle config os r =
      r.command.shellRun config os payload refusal := by
  rcases r with payload | payload | payload
  · rw [shellHandle, ProcessRequest.command]
    rcases hmode : lowerField payload "mode" with e | mode
    · exact ⟨payload, .error e, rfl⟩
    · obtain ⟨path, hpath⟩ := mapPathField_of_lowerField hmode
      rw [hpath, ofExcept_ok_bind, ofExcept_ok_bind]
      exact ⟨payload, _, shellSwitch_eq_run mode path payload⟩
  · rw [shellHandle, ProcessRequest.command]
    rcases lowerField payload "action" with e | action
    · exact ⟨payload, .error e, rfl⟩
    · refine ⟨payload, .ok (), ?_⟩
      rw [ofExcept_ok_bind]
      show _ = NavCommand.shellRun config os payload _ (if _ then _ else _)
      split_ifs <;> rfl
  · rw [shellHandle, ProcessRequest.command]
    rcases haction : lowerField payload "action" with e | action
    · exact ⟨payload, .error e, rfl⟩
    · obtain ⟨path, hpath⟩ := mapPathField_of_lowerField haction
      refine ⟨payload, .ok (), ?_⟩
      rw [hpath, ofExcept_ok_bind, ofExcept_ok_bind]
      show _ = NavCommand.shellRun config os payload _ (if _ then _ else _)
      split_ifs <;> rfl

/-- What holds between requests: all commands are safe, and the map path that is
remembered is. -/
structure Shell.Fine (config : ShellConfig) (s : Shell F) : Prop where
  safe : s.Safe
  path : ¬Exposes config.nav2StartCmd s.currentMapPath.text

omit [PyNum F] in
theorem attempt_keeps {P : Shell F → Prop} (raises : Option PyError) :
    Triple P (attempt raises) (fun _ s => P s ∧ raises = none) (fun _ => P) := by
  rcases raises with _ | e
  · exact Triple.ret fun _ h => ⟨h, rfl⟩
  · exact Triple.raise fun _ h => h

/-- A text whose payload characters are safe exposes nothing. -/
theorem not_exposes_of_safe {template : Template} {t : Text} (h : t.Safe) : ¬Exposes template t := by
  rintro ⟨before, after, -, -, pre, c, post, ht, hc, -⟩
  exact hc (h c (by rw [ht]; simp))

theorem runShell_keeps {command : Text} (h : command.Safe) :
    Triple (Shell.Fine (F := F) config) (runShell command) (fun _ => Shell.Fine config)
      (fun _ => Shell.Fine config) := by
  refine Triple.update fun s hs => ⟨?_, hs.path⟩
  intro other hother
  rcases List.mem_append.mp hother with hother | hother
  · exact hs.safe other hother
  · rw [List.mem_singleton.mp hother]
    exact h

theorem shellStart_keeps {running : Bool} {command : Text} (h : command.strip.Safe) :
    Triple (Shell.Fine (F := F) config) (shellStart os running command) (fun _ => Shell.Fine config)
      (fun _ => Shell.Fine config) := by
  rw [shellStart]
  refine Triple.cond (fun _ => Triple.ret fun _ hs => hs) fun _ => (runShell_keeps h).seq fun _ => ?_
  exact (attempt_keeps _).conseq (fun _ hs => hs) (fun _ _ hs => hs.1) (fun _ _ hs => hs)

/-- A switch to SLAM. -/
theorem shellToSlam_keeps (mapPath : Json F) :
    Triple (Shell.Fine config) (shellSwitch config os "slam" mapPath) (fun _ => Shell.Fine config)
      (fun _ => Shell.Fine config) := by
  rw [shellSwitch, if_pos rfl]
  have hown : (Text.own config.slamStartCmd).strip.Safe :=
    (safe_own _).subset (Trim.trim_subset _ _)
  exact (attempt_keeps _).seq fun _ =>
    (shellStart_keeps hown).conseq (fun _ hs => hs.1) (fun _ _ hs => hs) (fun _ _ hs => hs)

/-- A switch to Nav2 that does not inject. -/
theorem shellToNav2_keeps {mapPath : Json F}
    (h : mapPath.truthy = true → os.stopRaises .slam = none → os.stopRaises .nav2 = none →
      ¬Exposes config.nav2StartCmd (.ofPayload (strOf mapPath))) :
    Triple (Shell.Fine config) (shellSwitch config os "nav2" mapPath) (fun _ => Shell.Fine config)
      (fun _ => Shell.Fine config) := by
  rw [shellSwitch, if_neg (by decide), if_pos rfl]
  refine (attempt_keeps _).seq ?_
  intro _
  refine ((attempt_keeps _).conseq (fun _ hs => hs) (fun _ _ hs => hs) (fun _ _ hs => hs.1)).seq
    fun _ => (Triple.update (R := fun _ => Shell.Fine config) ?_).seq
    fun _ => Triple.read fun found => ?_
  · rintro s ⟨⟨hs, hslam⟩, hnav2⟩
    refine ⟨hs.safe, ?_⟩
    show ¬Exposes config.nav2StartCmd (s.currentMapPath.update mapPath).text
    rw [MapPath.update]
    by_cases htruthy : mapPath.truthy = true
    · rw [if_pos htruthy, MapPath.text, if_pos htruthy]
      exact h htruthy hslam hnav2
    · rw [if_neg htruthy]
      exact hs.path
  · by_cases hfound : Shell.Fine config found
    · exact (shellStart_keeps ((safe_strip_iff _ _).mpr hfound.path)).conseq
        (fun _ hs => hs.1) (fun _ _ hs => hs) (fun _ _ hs => hs)
    · refine Triple.unreachable fun s hs => hfound ?_
      rw [← hs.2]
      exact hs.1

theorem runSaver_keeps {command : Text} (h : command.Safe) :
    Triple (Shell.Fine (F := F) config) (runSaver os command) (fun _ => Shell.Fine config)
      (fun _ => Shell.Fine config) := by
  rw [runSaver]
  refine Triple.cond (fun _ => Triple.ret fun _ hs => hs) fun _ => (runShell_keeps h).seq fun _ => ?_
  exact (attempt_keeps _).seq fun _ => Triple.ret fun _ hs => hs.1

/-- A map is saved under a safe name. -/
theorem shellSave_keeps (payload : Json F) :
    Triple (Shell.Fine config) (shellSave config os payload) (fun _ => Shell.Fine config)
      (fun _ => Shell.Fine config) := by
  rw [shellSave]
  refine Triple.cond (fun _ => ?_) fun _ => Triple.ret fun _ hs => hs
  rcases payload.get "name" .null with e | name
  · exact Triple.lift_error fun _ hs => hs
  · refine Triple.lift_ok ((attempt_keeps _).seq fun _ => ?_)
    have hname : (uniqueMapPrefix os.files config.mapSaveDir os.prefixClock (mapName os name)).Safe := by
      refine Text.Safe.uniqueMapPrefix ?_ _ _ _
      simp only [mapName]
      split_ifs
      · exact safe_own _
      · exact safe_safeSlug _ _
    have hprefix := hname.join config.mapSaveDir
    set saved := uniqueMapPrefix os.files config.mapSaveDir os.prefixClock (mapName os name)
    have hcommand : (formatCommand config.mapSaverCmd
        [("map_prefix", joinPath config.mapSaveDir saved), ("name", saved)]).Safe := by
      refine safe_formatCommand ?_ _
      intro entry hentry
      rcases List.mem_pair.mp hentry with rfl | rfl
      · exact hprefix
      · exact hname
    refine Triple.seq ((runSaver_keeps hcommand).conseq (fun _ hs => hs.1) (fun _ _ hs => hs)
      fun _ _ hs => hs) fun failed => Triple.cond (fun _ => Triple.ret fun _ hs => hs) fun _ =>
      (attempt_keeps _).seq fun _ => Triple.update fun s hs => ⟨hs.1.safe, ?_⟩
    refine not_exposes_of_safe ?_
    show Text.Safe (if os.yamlExists then joinPath config.mapSaveDir saved ++ .own ".yaml"
      else joinPath config.mapSaveDir saved)
    split_ifs
    · exact hprefix.append (safe_own _)
    · exact hprefix

/-- A request that does not inject. -/
theorem shellHandle_keeps {r : ShellRequest F} (h : ¬Injects config r) :
    Triple (Shell.Fine config) (shellHandle config r.os r.request) (fun _ => Shell.Fine config)
      (fun _ => Shell.Fine config) := by
  have hattempt : ∀ raises, Triple (Shell.Fine (F := F) config) (attempt raises)
      (fun _ => Shell.Fine config) (fun _ => Shell.Fine config) := by
    intro raises
    exact (attempt_keeps _).conseq (fun _ hs => hs) (fun _ _ hs => hs.1) (fun _ _ hs => hs)
  obtain ⟨payload, refusal, hrun⟩ := shellHandle_eq_run config r.os r.request
  rw [hrun]
  rcases hcommand : r.request.command with - | mapPath | name | - | - | -
  · exact shellToSlam_keeps _
  · refine shellToNav2_keeps ?_
    intro htruthy hslam hnav2 hexposes
    exact h ⟨mapPath, hcommand, htruthy, hslam, hnav2, hexposes⟩
  · exact hattempt _
  · exact (hattempt _).seq fun _ => shellToSlam_keeps _
  · exact shellSave_keeps payload
  · exact Triple.known refusal

/-- A switch that injects. -/
theorem shellToNav2_breaks {mapPath : Json F} (htruthy : mapPath.truthy = true)
    (hslam : os.stopRaises .slam = none) (hnav2 : os.stopRaises .nav2 = none)
    (h : Exposes config.nav2StartCmd (.ofPayload (strOf mapPath))) :
    Triple (fun _ => True) (shellSwitch config os "nav2" mapPath) (fun _ s => ¬s.Safe)
      (fun _ s => ¬s.Safe) := by
  have hattempt : Triple (fun _ : Shell F => True) (attempt none) (fun _ _ => True)
      (fun _ s => ¬s.Safe) := Triple.ret fun _ _ => trivial
  rw [shellSwitch, if_neg (by decide), if_pos rfl, hslam, hnav2]
  refine hattempt.seq fun _ => hattempt.seq fun _ =>
    (Triple.update (R := fun _ s => s.currentMapPath.text = .ofPayload (strOf mapPath)) ?_).seq
    fun _ => Triple.read fun found => ?_
  · intro s _
    show (s.currentMapPath.update mapPath).text = _
    rw [MapPath.update, if_pos htruthy, MapPath.text, if_pos htruthy]
  · by_cases hfound : found.currentMapPath.text = .ofPayload (strOf mapPath)
    · have hunsafe : ¬(formatCommand config.nav2StartCmd
          [("map", .ofPayload (strOf mapPath))]).strip.Safe := by
        rw [safe_strip_iff]
        exact not_not.mpr h
      rw [hfound, shellStart]
      refine Triple.cond (fun hempty => ?_) fun _ => ?_
      · -- an unsafe command is not empty
        rcases hempty with hempty | hrunning
        · exact absurd (by rw [hempty]; exact safe_own "") hunsafe
        · exact absurd hrunning (by simp)
      · refine (Triple.update (R := fun _ s => ¬s.Safe) ?_).seq fun _ =>
          (attempt_keeps _).conseq (fun _ hs => hs) (fun _ _ hs => hs.1) (fun _ _ hs => hs)
        intro s _ hs
        exact hunsafe (hs _ (List.mem_append_right _ (List.mem_singleton_self _)))
    · refine Triple.unreachable fun s hs => hfound ?_
      rw [← hs.2]
      exact hs.1

/-- A request that injects. -/
theorem shellHandle_breaks {r : ShellRequest F} (h : Injects config r) :
    Triple (fun _ => True) (shellHandle config r.os r.request) (fun _ s => ¬s.Safe)
      (fun _ s => ¬s.Safe) := by
  obtain ⟨mapPath, hcommand, htruthy, hslam, hnav2, hexposes⟩ := h
  obtain ⟨payload, refusal, hrun⟩ := shellHandle_eq_run config r.os r.request
  rw [hrun, hcommand]
  exact shellToNav2_breaks htruthy hslam hnav2 hexposes

/-- **The shell is given safe commands in a run exactly if no request injects.** -/
theorem shellSafe_iff {F : Type} [PyNum F] (config : ShellConfig) (requests : List (ShellRequest F)) :
    (∀ before, before <+: requests →
        (Runs.run (Shell.step config) Shell.init before).Safe) ↔
      Runs.Along (Shell.step config) (fun _ r => ¬Injects config r) Shell.init requests := by
  refine Runs.forall_prefix_iff_along (J := Shell.Fine config) ?_ (fun _ h => h.safe) ?_ ?_
  · exact ⟨fun command hcommand => absurd hcommand List.not_mem_nil,
      not_exposes_of_safe (safe_own "")⟩
  · intro s r hs hkeeps
    exact (shellHandle_keeps hkeeps).final hs
  · intro s r _ hinjects
    have hbreaks := (shellHandle_breaks (not_not.mp hinjects)).final (I := fun s => ¬s.Safe) (s := s)
    exact hbreaks trivial

end Requests

/-! ### A map path with a command in it -/

/-- Nav2 is launched with the map path. -/
def launchConfig : ShellConfig where
  slamStartCmd := "slam"
  nav2StartCmd := .parts [.literal "nav2 map:=", .field "map"]
  mapSaverCmd := .parts [.literal "save ", .field "map_prefix"]
  mapSaveDir := "/maps"

/-- Nothing raises. -/
def quietShell : ShellCalls where
  stopRaises _ := none
  slamRunning := false
  spawnRaises := none
  mapReceived := false
  nameClock := ""
  prefixClock := ""
  mkdirRaises := none
  files := []
  saverRaises := none
  saverFails := false
  readRaises := none
  yamlExists := false

/-- A switch to Nav2 on the map `;reboot`. -/
def rebootRequest : ShellRequest ℚ :=
  { request := .navigationMode (.dict [("mode", .str "nav2"), ("map_path", .str ";reboot")])
    os := quietShell }

/-- The shell is given `nav2 map:=;reboot`. -/
theorem mapPath_injects :
    ¬∀ before, before <+: [rebootRequest] →
      (Runs.run (Shell.step launchConfig) Shell.init before).Safe := by
  intro hsafe
  have hcommands : (Runs.run (Shell.step launchConfig) Shell.init [rebootRequest]).commands =
      [Text.own "nav2 map:=" ++ Text.ofPayload ";reboot"] := by
    decide +kernel
  have hsemicolon := hsafe [rebootRequest] (List.prefix_refl _) _
    (by rw [hcommands]; exact List.mem_singleton_self _) ';' (by decide +kernel)
  revert hsemicolon
  decide +kernel

end Bridge
