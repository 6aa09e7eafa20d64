/-
The markers of `waypoint_cycle` and the indices into them.

`MarkerNode` is the node with both its marker arrays, its counters as the integers they are
and every index that was passed to `publish_pose` or `print_marker_info`.  The index is `next`
and, minus one, `current`; as it never goes below one after the first click, a negative index,
which Python would take from the end of the list, is never used (`indices_in_range`).

`handle_cycle` connects it with `WaypointCycle`, which keeps the poses and the goals only.
Colours, sizes and the height of the markers are left out.
-/
import WheeltecRos2.Waypoint.Cycle

namespace Waypoint

open Bridge (pyIndex)

/-! ### The node -/

/-- What the node fills in of a marker. -/
structure RvizMarker (F : Type) where
  ns : String
  id : ℤ
  pose : Marker F
  text : String

structure MarkerNode (F : Type) where
  markerArray : List (RvizMarker F)
  markerArrayNumber : List (RvizMarker F)
  count : ℤ
  index : ℤ
  tryAgain : Bool
  published : List (Goal F)
  passed : List ℤ

namespace MarkerNode

variable {F ι : Type}

/-- `__init__`. -/
def init : MarkerNode F :=
  { markerArray := [], markerArrayNumber := [], count := 0, index := 0, tryAgain := true
    published := [], passed := [] }

/-- `add_marker`. -/
def addMarker (s : MarkerNode F) (x y z w : F) : MarkerNode F :=
  { s with markerArray := s.markerArray ++
      [{ ns := "arrow", id := s.count, pose := { x, y, z, w }, text := "" }] }

/-- `add_marker_number`. -/
def addMarkerNumber (s : MarkerNode F) (x y z w : F) : MarkerNode F :=
  { s with markerArrayNumber := s.markerArrayNumber ++
      [{ ns := "number", id := s.count, pose := { x, y, z, w }, text := toString s.count }] }

/-- `publish_pose`, with the `IndexError` of a marker that is not there. -/
def publishPose (s : MarkerNode F) (index : ℤ) : Option (MarkerNode F) :=
  (pyIndex s.markerArray index).map fun marker =>
    { s with
      published := s.published ++ [{ index, pose := marker.pose }]
      passed := s.passed ++ [index] }

/-- `print_marker_info`. -/
def printMarkerInfo (s : MarkerNode F) (index : ℤ) : Option (MarkerNode F) :=
  (pyIndex s.markerArray index).map fun _ => { s with passed := s.passed ++ [index] }

/-- `pose_callback`. -/
def poseCallback (s : MarkerNode F) (msg : GoalStatusArray ι) : Option (MarkerNode F) := do
  if msg.last.status ≠ statusExecuting then
    if msg.last.status ≥ statusSucceeded ∧ s.count > 0 then
      let s := { s with tryAgain := true }
      if s.index = s.count then
        let s ← s.printMarkerInfo (s.index - 1)
        let s := { s with index := 0 }
        let s ← s.publishPose s.index
        return { s with index := s.index + 1 }
      else if s.index < s.count then
        let s ← s.printMarkerInfo (s.index - 1)
        let s ← s.publishPose s.index
        return { s with index := s.index + 1 }
      else return s
    else if s.count > 0 then
      let s ← s.printMarkerInfo (s.index - 1)
      if s.tryAgain then
        let s ← s.publishPose (s.index - 1)
        return { s with tryAgain := false }
      else if s.index < s.markerArray.length then
        let s ← s.printMarkerInfo (s.index - 1)
        let s := if s.index = s.count then { s with index := 0 } else s
        let s ← s.publishPose s.index
        return { s with index := s.index + 1, tryAgain := true }
      else return s
    else return s
  else return s

section Click

variable [Zero F] [One F]

/-- `click_callback` at the clicked point. -/
def clickCallback (s : MarkerNode F) (x y : F) : Option (MarkerNode F) := do
  let s := s.addMarker x y 0 1
  let s := s.addMarkerNumber x y 0 1
  if s.count = 0 then
    let s ← s.publishPose s.count
    return { s with index := s.index + 1, count := s.count + 1 }
  else return { s with count := s.count + 1 }

/-- The callback of an event. -/
def handle (s : MarkerNode F) : Event F ι → Option (MarkerNode F)
  | .click x y => s.clickCallback x y
  | .status msg => s.poseCallback msg

end Click

/-- The markers are numbered. -/
def Numbered (markers : List (RvizMarker F)) : Prop :=
  markers.map RvizMarker.id = (List.range markers.length).map Nat.cast

/-- The counters and the markers agree, and every index passed on was one of a marker. -/
structure Consistent (s : MarkerNode F) : Prop where
  count_eq : s.count = s.markerArray.length
  count_eq_number : s.count = s.markerArrayNumber.length
  ids : Numbered s.markerArray
  numberIds : Numbered s.markerArrayNumber
  index_nonneg : 0 ≤ s.index
  index_le : s.index ≤ s.count
  index_pos : 0 < s.count → 1 ≤ s.index
  passed : ∀ i ∈ s.passed, 0 ≤ i ∧ i ≤ s.count - 1

/-- What `WaypointCycle` keeps of the node. -/
def cycle (s : MarkerNode F) : WaypointCycle F :=
  { markers := s.markerArray.map RvizMarker.pose
    count := s.count.toNat
    index := s.index.toNat
    tryAgain := s.tryAgain
    published := s.published }

/-! ### One event -/

variable {s : MarkerNode F}

theorem consistent_init : (init : MarkerNode F).Consistent where
  count_eq := rfl
  count_eq_number := rfl
  ids := rfl
  numberIds := rfl
  index_nonneg := le_rfl
  index_le := le_rfl
  index_pos := fun h => absurd h (lt_irrefl 0)
  passed := fun _ hi => absurd hi List.not_mem_nil

theorem numbered_concat {markers : List (RvizMarker F)} (h : Numbered markers)
    {marker : RvizMarker F} (hid : marker.id = markers.length) :
    Numbered (markers ++ [marker]) := by
  rw [Numbered, List.map_append, h, List.length_append, List.length_singleton, List.range_succ,
    List.map_append, List.map_singleton, List.map_singleton, hid]

/-- The index of the next waypoint. -/
def next (s : MarkerNode F) : ℤ := if s.index = s.count then 0 else s.index

theorem Consistent.next_mem (h : s.Consistent) (hcount : 0 < s.count) :
    0 ≤ s.next ∧ s.next ≤ s.count - 1 := by
  have hle := h.index_le
  have hnonneg := h.index_nonneg
  rw [next]
  split_ifs <;> omega

theorem Consistent.current_mem (h : s.Consistent) (hcount : 0 < s.count) :
    0 ≤ s.index - 1 ∧ s.index - 1 ≤ s.count - 1 := by
  have hle := h.index_le
  have hpos := h.index_pos hcount
  omega

section Lookup

variable {i : ℤ} (hlength : s.count = s.markerArray.length) (hi : 0 ≤ i ∧ i ≤ s.count - 1)
include hlength hi

theorem pyIndex_of_mem : ∃ marker, pyIndex s.markerArray i = some marker := by
  obtain ⟨n, rfl⟩ := Int.eq_ofNat_of_zero_le hi.1
  exact ⟨_, Bridge.pyIndex_get (by omega)⟩

theorem printMarkerInfo_of_mem (u : MarkerNode F) (hu : u.markerArray = s.markerArray) :
    u.printMarkerInfo i = some { u with passed := u.passed ++ [i] } := by
  obtain ⟨marker, hmarker⟩ := pyIndex_of_mem hlength hi
  rw [printMarkerInfo, hu, hmarker, Option.map_some]

theorem publishPose_of_mem : ∃ goal, ∀ u : MarkerNode F, u.markerArray = s.markerArray →
    u.publishPose i =
      some { u with published := u.published ++ [goal], passed := u.passed ++ [i] } := by
  obtain ⟨marker, hmarker⟩ := pyIndex_of_mem hlength hi
  refine ⟨{ index := i, pose := marker.pose }, ?_⟩
  intro u hu
  rw [publishPose, hu, hmarker, Option.map_some]

end Lookup

/-- **What a status message does.**  It passes indices of markers on and leaves the index where
it is or behind the next waypoint. -/
theorem Consistent.poseCallback_cases (h : s.Consistent) (msg : GoalStatusArray ι) :
    ∃ index tryAgain published looked,
      s.poseCallback msg =
        some { s with index, tryAgain, published, passed := s.passed ++ looked } ∧
      (∀ i ∈ looked, 0 ≤ i ∧ i ≤ s.count - 1) ∧
      (index = s.index ∨ 0 < s.count ∧ index = s.next + 1) := by
  -- an executing goal, or no markers: nothing happens
  by_cases hexec : msg.last.status = statusExecuting
  · exact ⟨s.index, s.tryAgain, s.published, [], by simp [poseCallback, hexec], by simp, .inl rfl⟩
  by_cases hcount : 0 < s.count
  swap
  · exact ⟨s.index, s.tryAgain, s.published, [], by simp [poseCallback, hcount], by simp, .inl rfl⟩
  have hcurrent := h.current_mem hcount
  have hnext := h.next_mem hcount
  have hprint := printMarkerInfo_of_mem h.count_eq hcurrent
  obtain ⟨goal, hgoal⟩ := publishPose_of_mem h.count_eq hnext
  by_cases hsucceeded : statusSucceeded ≤ msg.last.status
  · -- the next waypoint, or the first one after the last
    refine ⟨s.next + 1, true, s.published ++ [goal], [s.index - 1, s.next], ?_,
      List.forall_mem_cons.mpr ⟨hcurrent, List.forall_mem_singleton.mpr hnext⟩,
      .inr ⟨hcount, rfl⟩⟩
    rw [next] at hgoal ⊢
    rw [poseCallback, if_pos hexec, if_pos ⟨hsucceeded, hcount⟩]
    by_cases heq : s.index = s.count
    · rw [if_pos heq] at hgoal
      rw [heq] at hprint
      simp [heq, hprint, hgoal]
    · have hlt : s.index < s.count := lt_of_le_of_ne h.index_le heq
      rw [if_neg heq] at hgoal ⊢
      simp [heq, hlt, hprint, hgoal]
  have hbelow : ¬(msg.last.status ≥ statusSucceeded ∧ s.count > 0) := fun hboth =>
    hsucceeded hboth.1
  rw [poseCallback, if_pos hexec, if_neg hbelow, if_pos hcount]
  by_cases htry : s.tryAgain = true
  · -- the same waypoint once more
    obtain ⟨last, hlast⟩ := publishPose_of_mem h.count_eq hcurrent
    refine ⟨s.index, false, s.published ++ [last], [s.index - 1, s.index - 1], ?_,
      List.forall_mem_cons.mpr ⟨hcurrent, List.forall_mem_singleton.mpr hcurrent⟩, .inl rfl⟩
    simp [htry, hprint, hlast]
  by_cases hlt : s.index < s.count
  · -- given up for the next one; at the last marker nothing is left
    have heq : s.index ≠ s.count := hlt.ne
    refine ⟨s.next + 1, true, s.published ++ [goal], [s.index - 1, s.index - 1, s.next], ?_,
      List.forall_mem_cons.mpr ⟨hcurrent, List.forall_mem_cons.mpr
        ⟨hcurrent, List.forall_mem_singleton.mpr hnext⟩⟩, .inr ⟨hcount, rfl⟩⟩
    rw [next, if_neg heq] at hgoal ⊢
    rw [h.count_eq] at hlt
    simp [htry, heq, hlt, hprint, hgoal]
  · refine ⟨s.index, s.tryAgain, s.published, [s.index - 1], ?_,
      List.forall_mem_singleton.mpr hcurrent, .inl rfl⟩
    rw [h.count_eq] at hlt
    simp [htry, hlt, hprint]

theorem Consistent.handle_status (h : s.Consistent) (msg : GoalStatusArray ι) :
    ∃ s', s.poseCallback msg = some s' ∧ s'.Consistent ∧ s'.count = s.count := by
  obtain ⟨index, tryAgain, published, looked, heq, hlooked, hindex⟩ := h.poseCallback_cases msg
  have hbounds : 0 ≤ index ∧ index ≤ s.count ∧ (0 < s.count → 1 ≤ index) := by
    rcases hindex with rfl | ⟨hcount, rfl⟩
    · exact ⟨h.index_nonneg, h.index_le, h.index_pos⟩
    · have hnext := h.next_mem hcount
      omega
  refine ⟨_, heq, ?_, rfl⟩
  constructor
  · exact h.count_eq
  · exact h.count_eq_number
  · exact h.ids
  · exact h.numberIds
  · exact hbounds.1
  · exact hbounds.2.1
  · exact hbounds.2.2
  · intro i hi
    rcases List.mem_append.mp hi with hi | hi
    · exact h.passed i hi
    · exact hlooked i hi

theorem Consistent.markerArray_eq_nil (h : s.Consistent) (hcount : s.count = 0) :
    s.markerArray = [] := by
  have hlength := h.count_eq
  rw [hcount] at hlength
  exact List.length_eq_zero_iff.mp (Int.natCast_eq_zero.mp hlength.symm)

section Click

variable [Zero F] [One F]

/-- **What a click does.**  Only the first one passes an index on. -/
theorem Consistent.clickCallback_eq (h : s.Consistent) (x y : F) :
    ∃ index published looked,
      s.clickCallback x y = some
        { (s.addMarker x y 0 1).addMarkerNumber x y 0 1 with
          index, published, count := s.count + 1, passed := s.passed ++ looked } ∧
      (∀ i ∈ looked, 0 ≤ i ∧ i ≤ s.count) ∧ 1 ≤ index ∧ index ≤ s.count + 1 := by
  have hle := h.index_le
  have hnonneg := h.index_nonneg
  have hpos := h.index_pos
  by_cases hcount : s.count = 0
  · have hnil : s.markerArray = [] := h.markerArray_eq_nil hcount
    refine ⟨s.index + 1, s.published ++ [{ index := 0, pose := ⟨x, y, 0, 1⟩ }], [0], ?_, ?_,
      by omega, by omega⟩
    · simp [clickCallback, addMarker, addMarkerNumber, publishPose, pyIndex, hcount, hnil]
    · simp [hcount]
  · refine ⟨s.index, s.published, [], ?_, by simp, by omega, by omega⟩
    simp [clickCallback, addMarker, addMarkerNumber, hcount]

theorem Consistent.handle_click (h : s.Consistent) (x y : F) :
    ∃ s', s.clickCallback x y = some s' ∧ s'.Consistent ∧ 0 < s'.count := by
  obtain ⟨index, published, looked, heq, hlooked, hindex⟩ := h.clickCallback_eq x y
  have hnonneg : 0 ≤ s.count := h.index_nonneg.trans h.index_le
  refine ⟨_, heq, ?_, Int.lt_add_one_of_le hnonneg⟩
  constructor
  · simp [addMarker, addMarkerNumber, h.count_eq]
  · simp [addMarker, addMarkerNumber, h.count_eq_number]
  · exact numbered_concat h.ids h.count_eq
  · exact numbered_concat h.numberIds h.count_eq_number
  · exact zero_le_one.trans hindex.1
  · exact hindex.2
  · exact fun _ => hindex.1
  · intro i hi
    rw [add_sub_cancel_right]
    rcases List.mem_append.mp hi with hi | hi
    · exact ⟨(h.passed i hi).1, (h.passed i hi).2.trans (Int.sub_le_self _ zero_le_one)⟩
    · exact hlooked i hi

end Click

section Refinement

theorem pyIndex_map {α β : Type} (f : α → β) (items : List α) (i : ℤ) :
    pyIndex (items.map f) i = (pyIndex items i).map f := by
  rw [pyIndex, pyIndex, List.length_map]
  split_ifs
  · exact List.getElem?_map
  · exact List.getElem?_map
  · rfl

/-- **The poses and goals of the node.**  `WaypointCycle` does the same with them. -/
theorem Consistent.cycle_poseCallback (h : s.Consistent) (msg : GoalStatusArray ι) :
    s.cycle.poseCallback msg = (s.poseCallback msg).map cycle := by
  by_cases hexec : msg.last.status = statusExecuting
  · simp [WaypointCycle.poseCallback, poseCallback, hexec]
  by_cases hpos : 0 < s.count
  swap
  · simp [WaypointCycle.poseCallback, poseCallback, cycle, hpos]
  obtain ⟨last, hlast⟩ := pyIndex_of_mem h.count_eq (h.current_mem hpos)
  obtain ⟨goal, hgoal⟩ := pyIndex_of_mem h.count_eq (h.next_mem hpos)
  rw [next] at hgoal
  have hlength := h.count_eq
  obtain ⟨markers, numbers, count, index, tryAgain, published, passed⟩ := s
  obtain ⟨n, rfl⟩ := Int.eq_ofNat_of_zero_le hpos.le
  obtain ⟨k, rfl⟩ := Int.eq_ofNat_of_zero_le h.index_nonneg
  have hle : k ≤ n := Int.ofNat_le.mp h.index_le
  obtain rfl : n = markers.length := Int.ofNat_inj.mp hlength
  replace hpos : 0 < markers.length := Int.natCast_pos.mp hpos
  simp only [Nat.cast_inj] at hlast hgoal
  -- both callbacks look the same markers up
  simp only [WaypointCycle.poseCallback, ne_eq, hexec, not_false_eq_true, ↓reduceIte, ge_iff_le,
    cycle, Int.toNat_natCast, gt_iff_lt, hpos, and_true, WaypointCycle.printMarkerInfo,
    pyIndex_map, hlast, Option.map_some, WaypointCycle.publishPose, Nat.cast_zero, Option.map_map,
    Option.pure_def, Option.bind_eq_bind, Option.bind_some, List.length_map, poseCallback,
    Int.natCast_pos, Nat.cast_inj, printMarkerInfo, publishPose, List.append_assoc,
    List.cons_append, List.nil_append, Nat.cast_lt]
  by_cases hsucceeded : statusSucceeded ≤ msg.last.status
  · rcases hle.lt_or_eq with hlt | heq
    · rw [if_neg hlt.ne] at hgoal
      simp [hsucceeded, hlt, hlt.ne, hgoal, cycle]
    · rw [if_pos heq] at hgoal
      simp [hsucceeded, heq, hgoal, cycle]
  · rcases hle.lt_or_eq with hlt | heq
    · rw [if_neg hlt.ne] at hgoal
      cases tryAgain
      · simp [hsucceeded, hlt, hlt.ne, pyIndex_map, hgoal, cycle]
      · simp [hsucceeded, cycle]
    · cases tryAgain
      · simp [hsucceeded, heq, cycle]
      · simp [hsucceeded, cycle]

section Step

variable [Zero F] [One F]

theorem Consistent.cycle_clickCallback (h : s.Consistent) (x y : F) :
    s.cycle.clickCallback x y = (s.clickCallback x y).map cycle := by
  have hnil := h.markerArray_eq_nil
  obtain ⟨markers, numbers, count, index, tryAgain, published, passed⟩ := s
  obtain ⟨n, rfl⟩ := Int.eq_ofNat_of_zero_le (h.index_nonneg.trans h.index_le)
  obtain ⟨k, rfl⟩ := Int.eq_ofNat_of_zero_le h.index_nonneg
  by_cases hcount : n = 0
  · obtain rfl : markers = [] := hnil (Int.natCast_eq_zero.mpr hcount)
    simp [WaypointCycle.clickCallback, clickCallback, WaypointCycle.publishPose, publishPose,
      cycle, addMarker, addMarkerNumber, pyIndex, hcount]
  · simp [WaypointCycle.clickCallback, clickCallback, cycle, addMarker, addMarkerNumber, hcount]

theorem Consistent.cycle_handle (h : s.Consistent) (event : Event F ι) :
    s.cycle.handle event = (s.handle event).map cycle := by
  cases event with
  | click x y => exact h.cycle_clickCallback x y
  | status msg => exact h.cycle_poseCallback msg

end Step

end Refinement

/-! ### Runs -/

section Runs

variable [Zero F] [One F]

/-- **A run from a consistent node.**  No callback raises. -/
theorem Consistent.run (h : s.Consistent) (events : List (Event F ι)) :
    ∃ s', events.foldlM MarkerNode.handle s = some s' ∧ s'.Consistent ∧
      (0 < s.count ∨ (∃ x y, Event.click x y ∈ events) → 0 < s'.count) := by
  induction events generalizing s with
  | nil => exact ⟨s, rfl, h, by simp⟩
  | cons event events ih =>
    cases event with
    | click x y =>
      obtain ⟨s₁, heq, h₁, hpos⟩ := h.handle_click x y
      obtain ⟨s', hrun, h', hcount⟩ := ih h₁
      refine ⟨s', ?_, h', fun _ => hcount (.inl hpos)⟩
      rw [List.foldlM_cons, MarkerNode.handle, heq]
      exact hrun
    | status msg =>
      obtain ⟨s₁, heq, h₁, hsame⟩ := h.handle_status msg
      obtain ⟨s', hrun, h', hcount⟩ := ih h₁
      refine ⟨s', ?_, h', fun hclick => hcount (by simpa [hsame] using hclick)⟩
      rw [List.foldlM_cons, MarkerNode.handle, heq]
      exact hrun

/-- The run of `WaypointCycle` is what it keeps of this one. -/
theorem Consistent.cycle_run (h : s.Consistent) (events : List (Event F ι)) :
    (events.foldlM MarkerNode.handle s).map cycle =
      some (Runs.run WaypointCycle.step s.cycle events) := by
  induction events generalizing s with
  | nil => rfl
  | cons event events ih =>
    obtain ⟨s₁, heq, h₁, -⟩ := h.run [event]
    have hhandle : s.handle event = some s₁ := by simpa using heq
    have hstep : s.cycle.step event = s₁.cycle := by
      rw [WaypointCycle.step, h.cycle_handle, hhandle]
      rfl
    rw [List.foldlM_cons, hhandle, Runs.run_cons, hstep]
    exact ih h₁

/-- **The indices stay in range.**  No callback raises, the markers are numbered, and every index
passed on is one of a marker. -/
theorem indices_in_range (events : List (Event F ι)) :
    ∃ s : MarkerNode F, events.foldlM handle init = some s ∧
      s.count = s.markerArray.length ∧ s.count = s.markerArrayNumber.length ∧
      Numbered s.markerArray ∧ Numbered s.markerArrayNumber ∧
      ((∃ x y, Event.click x y ∈ events) → 1 ≤ s.index ∧ s.index ≤ s.count) ∧
      ∀ i ∈ s.passed, 0 ≤ i ∧ i ≤ s.count - 1 := by
  obtain ⟨s, hrun, h, hcount⟩ := consistent_init.run events
  exact ⟨s, hrun, h.count_eq, h.count_eq_number, h.ids, h.numberIds,
    fun hclick => ⟨h.index_pos (hcount (.inr hclick)), h.index_le⟩, h.passed⟩

end Runs

end MarkerNode

end Waypoint
