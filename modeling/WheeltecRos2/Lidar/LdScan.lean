/-
The scans of the LD06 lidar, `Tofbf::NearFilter` and `LiPkg::AssemblePacket`.

`AssemblePacket` cuts the points where the angle wraps; a turn goes through the filter and is
sorted.  The filter groups the points within 5 m, joins the first group and the last one if they
meet at 0 degrees, and clears small dim groups.  A single group that meets itself is joined to
itself and then erased, so all its points are lost.

* `turn_published_iff`: the first turn is published with each of its points, some cleared, exactly
  if its near points do not close a ring; a ring is erased.
* `scans_of_sent`: however the port cuts the bytes, the points of the packets that are taken are
  the published and dropped ones and the ones still waiting, in order.

Float arithmetic and the sort are parameters.
-/
import WheeltecRos2.Lidar.LdPacket
import Mathlib.Data.List.Forall2
import Mathlib.Data.List.Perm.Basic

namespace Ldlidar

/-- The float comparisons of a scan. -/
structure Floats (F : Type) extends Angles F where
  /-- The angle of `last` before the first point. -/
  start : F
  /-- `last_angle` before the first point. -/
  zero : F
  /-- `n.angle < 20.0` -/
  low : F → Bool
  /-- `last_angle > 340.0` -/
  high : F → Bool
  zero_low : high zero = false
  /-- `count * GetSpeed() > kPointFrequence * 1.4` -/
  tooLong (count : ℕ) (speed : UInt16) : Bool
  /-- A group ends between the two points, at this speed. -/
  gap (speed : UInt16) (last n : PointData F) : Bool
  /-- The first point and the last one meet. -/
  meets (speed : UInt16) (first last : PointData F) : Bool
  /-- By angle; the order of equal angles is not fixed. -/
  sort : List (PointData F) → List (PointData F)
  sort_perm (ps : List (PointData F)) : (sort ps).Perm ps

namespace Tofbf

variable {F : Type} (f : Floats F) (speed : UInt16)

def kIntensityLow : ℕ := 15
def kIntensitySingle : ℕ := 220

def near (n : PointData F) : Bool := n.distance.toNat < 5000

/-- The loop over the sorted points. -/
def groups (last : PointData F) (item : List (PointData F)) (group : List (List (PointData F))) :
    List (PointData F) → List (List (PointData F))
  | [] => if item.isEmpty then group else group ++ [item]
  | n :: ns =>
    if f.gap speed last n && !item.isEmpty then groups n [n] (group ++ [item]) ns
    else groups n (item ++ [n]) group ns

/-- The connection over 0 degrees.  If there is one group its own range is inserted into it, which
C++ leaves undefined; here the vector takes it as any other, and is then erased all the same. -/
def connect : List (List (PointData F)) → List (List (PointData F))
  | [] => []
  | front :: group =>
    let back := (front :: group).getLastD []
    match front.head?, back.getLast? with
    | some firstItem, some lastItem =>
      if f.meets speed firstItem lastItem then ((back ++ front) :: group).dropLast
      else front :: group
    | _, _ => front :: group

def clear (p : PointData F) : PointData F := { p with distance := 0, intensity := 0 }

/-- The selection of a group. -/
def select (n : List (PointData F)) : List (PointData F) :=
  let sum := (n.map fun m => m.intensity.toNat).sum
  if 15 < n.length then n
  else if n.length < 3 then
    if sum / n.length < kIntensitySingle then n.map clear else n
  else if kIntensityLow * n.length < sum then n
  else n.map clear

def nearFilter (tmp : List (PointData F)) : List (PointData F) :=
  let normal := tmp.filter fun n => !near n
  let pending := f.sort (tmp.filter near)
  let group := groups f speed ⟨f.start, 0, 0⟩ [] [] pending
  normal ++ (connect f speed group).flatMap select

variable {f speed} {p q : PointData F} {ps qs item : List (PointData F)}
  {group gs : List (List (PointData F))} {last : PointData F}

/-! ### The filter -/

/-- A point as it is, or cleared. -/
def Kept (p q : PointData F) : Prop := q = p ∨ q = clear p

/-- The same points in some order, some of them cleared. -/
def Filtered : List (PointData F) → List (PointData F) → Prop :=
  Relation.Comp List.Perm (List.Forall₂ Kept)

/-- Neighbours are in one group, and the ends meet. -/
def Ring (f : Floats F) (speed : UInt16) (ps : List (PointData F)) : Prop :=
  ps.IsChain (fun last n => f.gap speed last n = false) ∧
    ∃ first ∈ ps.head?, ∃ last ∈ ps.getLast?, f.meets speed first last

theorem forall₂_kept_self : List.Forall₂ Kept ps ps :=
  List.forall₂_same.mpr fun _ _ => .inl rfl

theorem forall₂_kept_clear : List.Forall₂ Kept ps (ps.map clear) := by
  rw [List.forall₂_map_right_iff]
  exact List.forall₂_same.mpr fun _ _ => .inr rfl

theorem select_kept : List.Forall₂ Kept ps (select ps) := by
  simp only [select]
  split
  · exact forall₂_kept_self
  split
  · split
    · exact forall₂_kept_clear
    · exact forall₂_kept_self
  split
  · exact forall₂_kept_self
  · exact forall₂_kept_clear

theorem flatMap_select_kept : List.Forall₂ Kept gs.flatten (gs.flatMap select) := by
  induction gs with
  | nil => exact .nil
  | cons g gs ih =>
    rw [List.flatten_cons, List.flatMap_cons]
    exact List.rel_append select_kept ih

theorem Filtered.of_perm (hperm : ps.Perm qs) (h : List.Forall₂ Kept qs item) :
    Filtered ps item := ⟨qs, hperm, h⟩

theorem Filtered.perm (h : Filtered ps qs) {rs : List (PointData F)} (hperm : qs.Perm rs) :
    Filtered ps rs := by
  obtain ⟨ps', hps, hkept⟩ := h
  have hcomp : Relation.Comp (List.Forall₂ Kept) List.Perm ps' rs := ⟨qs, hkept, hperm⟩
  rw [List.forall₂_comp_perm_eq_perm_comp_forall₂] at hcomp
  obtain ⟨ps'', hps', hkept'⟩ := hcomp
  exact ⟨ps'', hps.trans hps', hkept'⟩

theorem Filtered.length (h : Filtered ps qs) : ps.length = qs.length := by
  obtain ⟨ps', hps, hkept⟩ := h
  rw [hps.length_eq, hkept.length_eq]

theorem Filtered.exists_kept (h : Filtered ps qs) (hq : q ∈ qs) : ∃ p ∈ ps, Kept p q := by
  obtain ⟨ps', hps, hkept⟩ := h
  obtain ⟨i, hi, rfl⟩ := List.getElem_of_mem hq
  have hi' : i < ps'.length := by rwa [hkept.length_eq]
  exact ⟨ps'[i], hps.mem_iff.mpr (List.getElem_mem hi'), hkept.get hi' hi⟩

/-! The groups are the points in order, none is empty, and there is one if there is no gap. -/

theorem groups_flatten : (groups f speed last item group ps).flatten =
    group.flatten ++ item ++ ps := by
  induction ps generalizing last item group with
  | nil =>
    rw [groups]
    by_cases hitem : item.isEmpty
    · rw [if_pos hitem, List.isEmpty_iff.mp hitem]
      simp
    · rw [if_neg hitem]
      simp
  | cons n ns ih =>
    rw [groups]
    split
    · rw [ih]
      simp
    · rw [ih]
      simp

theorem groups_ne_nil (hgroup : ∀ g ∈ group, g ≠ []) :
    ∀ g ∈ groups f speed last item group ps, g ≠ [] := by
  induction ps generalizing last item group with
  | nil =>
    rw [groups]
    by_cases hitem : item.isEmpty
    · rwa [if_pos hitem]
    · rw [if_neg hitem]
      intro g hg
      rcases List.mem_append.mp hg with hg | hg
      · exact hgroup g hg
      · rw [List.mem_singleton.mp hg]
        simpa using hitem
  | cons n ns ih =>
    rw [groups]
    split
    · rename_i hsplit
      refine ih fun g hg => ?_
      rcases List.mem_append.mp hg with hg | hg
      · exact hgroup g hg
      · rw [List.mem_singleton.mp hg]
        simp only [Bool.and_eq_true, Bool.not_eq_true'] at hsplit
        simpa using hsplit.2
    · exact ih hgroup

theorem length_groups (f : Floats F) (speed : UInt16) (last : PointData F)
    (group : List (List (PointData F))) (ps : List (PointData F)) (hitem : item ≠ []) :
    group.length + 1 ≤ (groups f speed last item group ps).length ∧
      ((groups f speed last item group ps).length = group.length + 1 ↔
        (last :: ps).IsChain fun last n => f.gap speed last n = false) := by
  induction ps generalizing last item group with
  | nil =>
    have hempty : ¬ item.isEmpty := by simpa using hitem
    rw [groups, if_neg hempty]
    simp
  | cons n ns ih =>
    have hempty : item.isEmpty = false := by simpa using hitem
    rw [groups, List.isChain_cons_cons, hempty]
    by_cases hgap : f.gap speed last n
    · have h := ih n (group ++ [item]) (List.cons_ne_nil n [])
      rw [List.length_append, List.length_singleton] at h
      rw [if_pos (by simp [hgap])]
      refine ⟨by omega, ?_⟩
      simp only [hgap]
      constructor
      · intro heq
        omega
      · intro hchain
        exact absurd hchain.1 (by simp)
    · rw [if_neg (by simp [hgap])]
      have hitem' : item ++ [n] ≠ [] := by simp
      have h := ih n group hitem'
      refine ⟨h.1, h.2.trans ?_⟩
      simp [hgap]

theorem groups_start (hps : ps ≠ []) :
    groups f speed last [] [] ps ≠ [] ∧ ((groups f speed last [] [] ps).length = 1 ↔
      ps.IsChain fun last n => f.gap speed last n = false) := by
  obtain ⟨p, ps, rfl⟩ := List.exists_cons_of_ne_nil hps
  have hstart : groups f speed last [] [] (p :: ps) = groups f speed p [p] [] ps := by
    simp [groups]
  have h := length_groups f speed p [] ps (List.cons_ne_nil p [])
  rw [hstart]
  refine ⟨fun hnil => ?_, h.2⟩
  rw [hnil] at h
  exact absurd h.1 (by simp)

/-- The connection loses the points only of a single group. -/
theorem connect_spec (f : Floats F) (speed : UInt16) (hgs : ∀ g ∈ gs, g ≠ []) :
    if gs.length = 1 ∧ ∃ first ∈ gs.flatten.head?, ∃ last ∈ gs.flatten.getLast?,
        f.meets speed first last
    then connect f speed gs = []
    else (connect f speed gs).flatten.Perm gs.flatten := by
  rcases gs with - | ⟨front, group⟩
  · simp [connect]
  obtain ⟨p, front, rfl⟩ := List.exists_cons_of_ne_nil (hgs front (by simp))
  rcases List.eq_nil_or_concat group with rfl | ⟨group, back, rfl⟩
  · -- one group
    obtain ⟨q, hq⟩ : ∃ q, (p :: front).getLast? = some q :=
      ⟨_, List.getLast?_eq_some_getLast (by simp)⟩
    by_cases hmeets : f.meets speed p q
    · simp [connect, hq, hmeets]
    · simp [connect, hq, hmeets]
  · rw [List.concat_eq_append] at hgs ⊢
    have hback : back ≠ [] := hgs back (by simp)
    rw [if_neg (by simp)]
    have hlast : ((p :: front) :: (group ++ [back])).getLastD [] = back := by
      rw [← List.cons_append, List.getLastD_concat]
    simp only [connect, hlast, List.head?_cons, List.getLast?_eq_some_getLast hback]
    split
    · rw [← List.cons_append, List.dropLast_concat]
      simp only [List.flatten_cons, List.flatten_append, List.flatten_nil, List.append_nil]
      rw [← List.append_assoc (p :: front), List.append_assoc back]
      exact List.perm_append_comm
    · exact List.Perm.refl _

theorem filter_near_perm (tmp : List (PointData F)) :
    tmp.Perm (tmp.filter (fun n => !near n) ++ f.sort (tmp.filter near)) := by
  have hsplit := List.filter_append_perm near tmp
  exact hsplit.symm.trans (List.perm_append_comm.trans
    ((f.sort_perm (tmp.filter near)).symm.append_left _))

/-- The filter loses the near points if they close a ring, and otherwise none. -/
theorem nearFilter_spec (f : Floats F) (speed : UInt16) (tmp : List (PointData F)) :
    (Ring f speed (f.sort (tmp.filter near)) →
      nearFilter f speed tmp = tmp.filter fun n => !near n) ∧
    (¬ Ring f speed (f.sort (tmp.filter near)) → Filtered tmp (nearFilter f speed tmp)) := by
  let pending := f.sort (tmp.filter near)
  let gs := groups f speed ⟨f.start, 0, 0⟩ [] [] pending
  have hflatten : gs.flatten = pending := groups_flatten
  have hone : (gs.length = 1 ∧ ∃ first ∈ gs.flatten.head?, ∃ last ∈ gs.flatten.getLast?,
      f.meets speed first last) ↔ Ring f speed pending := by
    rw [hflatten]
    by_cases hpending : pending = []
    · simp [Ring, hpending]
    · rw [(groups_start hpending).2, Ring]
  have hne : ∀ g ∈ gs, g ≠ [] := groups_ne_nil (by simp)
  have hconnect := connect_spec f speed hne
  constructor
  · intro hring
    rw [if_pos (hone.mpr hring)] at hconnect
    show _ ++ (connect f speed gs).flatMap select = _
    rw [hconnect, List.flatMap_nil, List.append_nil]
  · intro hring
    rw [if_neg (fun h => hring (hone.mp h)), hflatten] at hconnect
    refine Filtered.of_perm ((filter_near_perm tmp).trans (hconnect.symm.append_left _)) ?_
    exact List.rel_append forall₂_kept_self flatMap_select_kept

theorem nearFilter_kept {tmp : List (PointData F)} (hq : q ∈ nearFilter f speed tmp) :
    ∃ p ∈ tmp, Kept p q := by
  obtain ⟨hring, hopen⟩ := nearFilter_spec f speed tmp
  by_cases h : Ring f speed (f.sort (tmp.filter near))
  · rw [hring h] at hq
    exact ⟨q, List.mem_of_mem_filter hq, .inl rfl⟩
  · exact (hopen h).exists_kept hq

theorem nearFilter_iff (tmp : List (PointData F)) :
    Filtered tmp (nearFilter f speed tmp) ↔ ¬ Ring f speed (f.sort (tmp.filter near)) := by
  obtain ⟨hring, hopen⟩ := nearFilter_spec f speed tmp
  refine ⟨fun hfiltered h => ?_, hopen⟩
  -- a ring has a point, which is near and gone
  obtain ⟨first, hfirst, -⟩ := h.2
  have hnear := (f.sort_perm (tmp.filter near)).mem_iff.mp (List.mem_of_mem_head? hfirst)
  rw [List.mem_filter] at hnear
  have hlen := hfiltered.length
  rw [hring h] at hlen
  have hall := List.length_filter_eq_length_iff.mp hlen.symm first hnear.1
  simp [hnear.2] at hall

end Tofbf

namespace LiPkg

variable {F : Type} (f : Floats F)

/-- The loop over `frame_tmp_`, with what is left of it. -/
def assembleLoop (self : LiPkg F) (count : ℕ) (lastAngle : F) (data : List (PointData F)) :
    List (PointData F) → Bool × LiPkg F
  | [] => (false, self)
  | n :: ns =>
    if f.low n.angle && f.high lastAngle then
      if f.tooLong count self.speed then
        (false, { self with frameTmp := self.frameTmp.drop (count - 1) })
      else
        let data := self.frameTmp.take count ++ data
        let tmp := f.sort (Tofbf.nearFilter f self.speed data)
        if tmp.isEmpty then assembleLoop self (count + 1) n.angle data ns
        else (true, { self with
          laserScanData := tmp
          isFrameReady := true
          frameTmp := self.frameTmp.drop count })
    else assembleLoop self (count + 1) n.angle data ns

def assemblePacket (self : LiPkg F) : Bool × LiPkg F :=
  assembleLoop f self 0 f.zero [] self.frameTmp

def commReadCallback (self : LiPkg F) (bytes : List UInt8) : Bool × LiPkg F :=
  assemblePacket f (self.parse f.toAngles bytes)

variable {f} {self : LiPkg F} {count : ℕ} {lastAngle : F} {data ps qs : List (PointData F)}
  {n p q : PointData F}

open Tofbf

/-! ### The first turn -/

/-- The angle wraps between two points. -/
def Wraps (f : Floats F) (lastAngle angle : F) : Prop := f.low angle ∧ f.high lastAngle

/-- What a call may do from the point `count` on. -/
inductive Assembled (self : LiPkg F) (count : ℕ) : Bool × LiPkg F → Prop
  | wait : Assembled self count (false, self)
  | drop (j : ℕ) : Assembled self count (false, { self with frameTmp := self.frameTmp.drop j })
  | publish (j : ℕ) (scan : List (PointData F)) :
      count ≤ j → j < self.frameTmp.length → scan ≠ [] →
      (∀ q ∈ scan, ∃ p ∈ self.frameTmp.take j, Kept p q) →
      Assembled self count (true, { self with
        laserScanData := scan
        isFrameReady := true
        frameTmp := self.frameTmp.drop j })

theorem Assembled.mono {k : ℕ} {r : Bool × LiPkg F} (h : Assembled self k r) (hk : count ≤ k) :
    Assembled self count r := by
  cases h with
  | wait => exact .wait
  | drop j => exact .drop j
  | publish j scan hj hlt hscan hkept => exact .publish j scan (hk.trans hj) hlt hscan hkept

theorem assembleLoop_spec (hlen : self.frameTmp.length = count + ps.length)
    (hdata : ∀ p ∈ data, p ∈ self.frameTmp.take count) :
    Assembled self count (assembleLoop f self count lastAngle data ps) := by
  induction ps generalizing count lastAngle data with
  | nil => exact .wait
  | cons n ns ih =>
    rw [List.length_cons] at hlen
    have hmono : ∀ p ∈ self.frameTmp.take count, p ∈ self.frameTmp.take (count + 1) :=
      fun p hp => (List.take_subset_take_left _ (Nat.le_succ count)) hp
    have hdata' : ∀ p ∈ self.frameTmp.take count ++ data, p ∈ self.frameTmp.take count := by
      intro p hp
      rcases List.mem_append.mp hp with hp | hp
      · exact hp
      · exact hdata p hp
    rw [assembleLoop]
    split
    · split
      · exact .drop _
      · simp only
        split
        · exact (ih (by omega) fun p hp => hmono p (hdata' p hp)).mono (Nat.le_succ count)
        · rename_i hscan
          refine .publish count _ (Nat.le_refl _) (by omega) (by simpa using hscan) ?_
          intro q hq
          obtain ⟨p, hp, hkept⟩ := nearFilter_kept ((f.sort_perm _).mem_iff.mp hq)
          exact ⟨p, hdata' p hp, hkept⟩
    · exact (ih (by omega) fun p hp => hmono p (hdata p hp)).mono (Nat.le_succ count)

theorem assemblePacket_spec (self : LiPkg F) : Assembled self 0 (assemblePacket f self) :=
  assembleLoop_spec (by simp) (by simp)

/-- Within a turn nothing happens. -/
theorem assembleLoop_skip
    (h : (lastAngle :: ps.map PointData.angle).IsChain fun a b => ¬ Wraps f a b) :
    assembleLoop f self count lastAngle data (ps ++ qs) =
      assembleLoop f self (count + ps.length)
        ((lastAngle :: ps.map PointData.angle).getLast (by simp)) data qs := by
  induction ps generalizing count lastAngle with
  | nil => rfl
  | cons n ns ih =>
    rw [List.map_cons, List.isChain_cons_cons] at h
    have hwrap : ¬ (f.low n.angle && f.high lastAngle) = true := by
      simpa [Wraps] using h.1
    rw [List.cons_append, assembleLoop, if_neg hwrap, ih h.2]
    simp [Nat.add_assoc, Nat.add_comm 1]

/-- The points up to the first wrap, and the one behind it. -/
structure Turn (f : Floats F) (s : LiPkg F) (turn : List (PointData F)) (next : PointData F)
    (rest : List (PointData F)) : Prop where
  frameTmp : s.frameTmp = turn ++ next :: rest
  unbroken : (turn.map PointData.angle).IsChain fun a b => ¬ Wraps f a b
  wraps : ∃ last ∈ turn.getLast?, Wraps f last.angle next.angle

variable {turn rest : List (PointData F)} {next : PointData F}

theorem Turn.assemblePacket_eq (h : Turn f self turn next rest) :
    assemblePacket f self =
      if f.tooLong turn.length self.speed then
        (false, { self with frameTmp := self.frameTmp.drop (turn.length - 1) })
      else
        let tmp := f.sort (nearFilter f self.speed turn)
        if tmp.isEmpty then assembleLoop f self (turn.length + 1) next.angle turn rest
        else (true, { self with
          laserScanData := tmp
          isFrameReady := true
          frameTmp := next :: rest }) := by
  obtain ⟨last, hlast, hwraps⟩ := h.wraps
  have hturn : turn ≠ [] := by
    rintro rfl
    cases hlast
  have hchain : (f.zero :: turn.map PointData.angle).IsChain fun a b => ¬ Wraps f a b := by
    obtain ⟨p, ps, rfl⟩ := List.exists_cons_of_ne_nil hturn
    rw [List.map_cons, List.isChain_cons_cons]
    exact ⟨fun hwrap => absurd hwrap.2 (by simp [f.zero_low]), h.unbroken⟩
  have hend : (f.zero :: turn.map PointData.angle).getLast (by simp) = last.angle := by
    rw [List.getLast_cons (by simpa using hturn), List.getLast_map,
      List.getLast_of_mem_getLast? hlast]
  have htake : self.frameTmp.take turn.length = turn := by rw [h.frameTmp, List.take_left]
  have hdrop : self.frameTmp.drop turn.length = next :: rest := by rw [h.frameTmp, List.drop_left]
  have hstart : assemblePacket f self =
      assembleLoop f self turn.length last.angle [] (next :: rest) := by
    rw [assemblePacket, h.frameTmp, assembleLoop_skip hchain, hend, Nat.zero_add]
  rw [hstart, assembleLoop, if_pos (by simpa [Wraps] using hwraps)]
  simp only [htake, hdrop, List.append_nil]

/-- A turn of too many points is dropped but for its last point. -/
theorem turn_dropped (h : Turn f self turn next rest) (hlong : f.tooLong turn.length self.speed) :
    assemblePacket f self =
      (false, { self with frameTmp := turn.drop (turn.length - 1) ++ next :: rest }) := by
  rw [h.assemblePacket_eq, if_pos hlong, h.frameTmp,
    List.drop_append_of_le_length (Nat.sub_le _ _)]

/-- The first turn is published with each of its points exactly if its near points close no
ring; if they do, the filter erases all of them. -/
theorem turn_published_iff (h : Turn f self turn next rest)
    (hshort : f.tooLong turn.length self.speed = false) :
    ((assemblePacket f self).1 = true ∧ (assemblePacket f self).2.frameTmp = next :: rest ∧
        Filtered turn (assemblePacket f self).2.laserScanData ↔
      ¬ Ring f self.speed (f.sort (turn.filter near))) ∧
    (Ring f self.speed (f.sort (turn.filter near)) →
      nearFilter f self.speed turn = turn.filter fun n => !near n) := by
  refine ⟨?_, (nearFilter_spec f self.speed turn).1⟩
  have hsort := f.sort_perm (nearFilter f self.speed turn)
  obtain ⟨last, hlast, -⟩ := h.wraps
  have hturn : last ∈ turn := List.mem_of_mem_getLast? hlast
  rw [h.assemblePacket_eq, hshort]
  simp only [Bool.false_eq_true, if_false]
  by_cases hempty : (f.sort (nearFilter f self.speed turn)).isEmpty
  · -- all of the turn is lost, and the next wrap lies behind it
    rw [if_pos hempty, ← nearFilter_iff]
    have hnil : nearFilter f self.speed turn = [] := by
      rw [List.isEmpty_iff.mp hempty] at hsort
      exact List.nil_perm.mp hsort
    constructor
    · rintro ⟨hpublished, hrest, -⟩
      have hspec : Assembled self (turn.length + 1)
          (assembleLoop f self (turn.length + 1) next.angle turn rest) := by
        refine assembleLoop_spec ?_ ?_
        · rw [h.frameTmp, List.length_append, List.length_cons]
          omega
        · intro p hp
          rw [h.frameTmp, List.take_length_add_append]
          exact List.mem_append_left _ hp
      generalize assembleLoop f self (turn.length + 1) next.angle turn rest = r
        at hpublished hrest hspec
      cases hspec with
      | wait => cases hpublished
      | drop j => cases hpublished
      | publish j scan hj hlt hscan hkept =>
        have hlen := congrArg List.length hrest
        simp only [List.length_drop, h.frameTmp, List.length_append, List.length_cons] at hlen hlt
        omega
    · intro hfiltered
      rw [hnil] at hfiltered
      have hlen := hfiltered.length
      rw [List.length_eq_zero_iff.mp hlen] at hturn
      cases hturn
  · rw [if_neg hempty, ← nearFilter_iff]
    constructor
    · rintro ⟨-, -, hfiltered⟩
      exact hfiltered.perm hsort
    · intro hfiltered
      exact ⟨rfl, rfl, hfiltered.perm hsort.symm⟩

/-! ### Runs of calls -/

/-- What a call does to the points. -/
structure Call (F : Type) where
  /-- The points that leave `frame_tmp_`. -/
  removed : List (PointData F)
  scan : Option (List (PointData F))

def call (f : Floats F) (self : LiPkg F) (bytes : List UInt8) : Call F × LiPkg F :=
  let before := self.parse f.toAngles bytes
  let result := commReadCallback f self bytes
  ({ removed := before.frameTmp.take (before.frameTmp.length - result.2.frameTmp.length)
     scan := if result.1 then some result.2.laserScanData else none }, result.2)

/-- A call for each read of the port. -/
def calls (f : Floats F) (self : LiPkg F) : List (List UInt8) → List (Call F) × LiPkg F
  | [] => ([], self)
  | bytes :: chunks =>
    let first := call f self bytes
    let others := calls f first.2 chunks
    (first.1 :: others.1, others.2)

/-- The parser `t` has the points that left `s`, too. -/
structure Behind (removed : List (PointData F)) (s t : LiPkg F) : Prop where
  state : t.state = s.state
  tmp : t.tmp = s.tmp
  frameTmp : t.frameTmp = removed ++ s.frameTmp

variable {removed : List (PointData F)} {t : LiPkg F} {bytes : List UInt8}
  {chunks : List (List UInt8)}

theorem Behind.take {g : Angles F} (h : Behind removed self t) (pkg : LiDARFrameTypeDef) :
    Behind removed (self.take g pkg) (t.take g pkg) := by
  refine ⟨by simp [h.state], by simp [h.tmp], ?_⟩
  rw [LiPkg.take, LiPkg.take]
  split
  · exact h.frameTmp
  · simp [h.frameTmp]

theorem Behind.parseOne {g : Angles F} (h : Behind removed self t) (b : UInt8) :
    Behind removed (self.parseOne g b) (t.parseOne g b) := by
  simp only [LiPkg.parseOne, analysisOne, h.state, h.tmp]
  cases self.state with
  | header =>
    by_cases hb : b = PKG_HEADER
    · simp only [if_pos hb]
      exact ⟨rfl, rfl, h.frameTmp⟩
    · simp only [if_neg hb]
      exact h
  | verLen =>
    by_cases hb : b = PKG_VER_LEN
    · simp only [if_pos hb]
      exact ⟨rfl, rfl, h.frameTmp⟩
    · simp only [if_neg hb]
      exact ⟨rfl, rfl, h.frameTmp⟩
  | data =>
    by_cases hlen : 47 ≤ (self.tmp ++ [b]).length
    · by_cases hcrc : calCRC8 ((self.tmp ++ [b]).take 46) =
          (LiDARFrameTypeDef.ofBytes (self.tmp ++ [b])).crc8
      · have hidle : Behind removed { self with state := .header, tmp := [] }
            { t with state := .header, tmp := [] } := ⟨rfl, rfl, h.frameTmp⟩
        simp only [if_pos hlen, if_pos hcrc]
        exact hidle.take _
      · simp only [if_pos hlen, if_neg hcrc]
        exact ⟨rfl, rfl, h.frameTmp⟩
    · simp only [if_neg hlen]
      exact ⟨rfl, rfl, h.frameTmp⟩

theorem Behind.parse {g : Angles F} (h : Behind removed self t) (bs : List UInt8) :
    Behind removed (self.parse g bs) (t.parse g bs) := by
  induction bs generalizing self t with
  | nil => exact h
  | cons b bs ih => exact ih (h.parseOne b)

/-- What leaves is the front. -/
theorem take_of_suffix {l m : List (PointData F)} (h : m <:+ l) :
    l.take (l.length - m.length) ++ m = l := by
  obtain ⟨k, rfl⟩ := h
  simp

theorem Assembled.suffix {r : Bool × LiPkg F} (h : Assembled self count r) :
    r.2.frameTmp <:+ self.frameTmp := by
  cases h with
  | wait => exact List.suffix_refl _
  | drop j => exact List.drop_suffix _ _
  | publish j scan => exact List.drop_suffix _ _

theorem Assembled.fields {r : Bool × LiPkg F} (h : Assembled self count r) :
    r.2.state = self.state ∧ r.2.tmp = self.tmp := by
  cases h <;> exact ⟨rfl, rfl⟩

theorem Behind.call (h : Behind removed self t) (bytes : List UInt8) :
    Behind (removed ++ (call f self bytes).1.removed) (call f self bytes).2
      (t.parse f.toAngles bytes) := by
  have hparsed := h.parse (g := f.toAngles) bytes
  have hspec := assemblePacket_spec (f := f) (self.parse f.toAngles bytes)
  refine ⟨hparsed.state.trans hspec.fields.1.symm, hparsed.tmp.trans hspec.fields.2.symm, ?_⟩
  rw [hparsed.frameTmp, List.append_assoc]
  exact congrArg (removed ++ ·) (take_of_suffix hspec.suffix).symm

theorem Behind.calls (h : Behind removed self t) (chunks : List (List UInt8)) :
    Behind (removed ++ (calls f self chunks).1.flatMap Call.removed) (calls f self chunks).2
      (t.parse f.toAngles chunks.flatten) := by
  induction chunks generalizing removed self t with
  | nil => simpa [LiPkg.calls] using h
  | cons bytes chunks ih =>
    have := ih (h.call (f := f) bytes)
    rwa [List.append_assoc, ← parse_append] at this

theorem Assembled.scan {r : Bool × LiPkg F} (h : Assembled self count r) (hr : r.1 = true) :
    r.2.laserScanData ≠ [] ∧ ∀ q ∈ r.2.laserScanData,
      ∃ p ∈ self.frameTmp.take (self.frameTmp.length - r.2.frameTmp.length), Kept p q := by
  cases h with
  | wait => cases hr
  | drop j => cases hr
  | publish j scan _ hj hscan hkept =>
    refine ⟨hscan, ?_⟩
    rw [List.length_drop, Nat.sub_sub_self hj.le]
    exact hkept

theorem call_scan {scan : List (PointData F)} (h : scan ∈ (call f self bytes).1.scan) :
    scan ≠ [] ∧ ∀ q ∈ scan, ∃ p ∈ (call f self bytes).1.removed, Kept p q := by
  have hspec := assemblePacket_spec (f := f) (self.parse f.toAngles bytes)
  by_cases hr : (commReadCallback f self bytes).1 = true
  · simp only [call, if_pos hr, Option.mem_some_iff] at h
    rw [← h]
    exact hspec.scan hr
  · simp only [call, if_neg hr] at h
    cases h

theorem calls_scan {c : Call F} (hc : c ∈ (calls f self chunks).1) {scan : List (PointData F)}
    (h : scan ∈ c.scan) : scan ≠ [] ∧ ∀ q ∈ scan, ∃ p ∈ c.removed, Kept p q := by
  induction chunks generalizing self with
  | nil => cases hc
  | cons bytes chunks ih =>
    rcases List.mem_cons.mp hc with rfl | hc
    · exact call_scan h
    · exact ih hc

/-! ### From the packets to the scans -/

theorem foldl_take_frameTmp {g : Angles F} (pkgs : List LiDARFrameTypeDef) :
    (pkgs.foldl (LiPkg.take g) self).frameTmp =
      self.frameTmp ++ (pkgs.filter fun pkg => !tooWide pkg).flatMap (points g) := by
  induction pkgs generalizing self with
  | nil => simp
  | cons pkg pkgs ih =>
    rw [List.foldl_cons, ih, LiPkg.take, List.filter_cons]
    by_cases hwide : tooWide pkg
    · simp [hwide]
    · simp [hwide]

theorem Idle.foldl_take {g : Angles F} (h : self.Idle) (pkgs : List LiDARFrameTypeDef) :
    (pkgs.foldl (LiPkg.take g) self).Idle := by
  induction pkgs generalizing self with
  | nil => exact h
  | cons pkg pkgs ih => exact ih h.take

/-- The beginning of a packet adds no point. -/
theorem parse_part {g : Angles F} (h : self.Idle) {next : Transmission} {part : List UInt8}
    (hpart : part <+: next.bytes) (hlen : part.length < 47) :
    (self.parse g part).frameTmp = self.frameTmp := by
  obtain ⟨bs, b, -, hbytes⟩ := next.bytes_eq
  obtain ⟨u, hu⟩ := hpart
  rw [hbytes] at hu
  match part with
  | [] => rfl
  | [x] =>
    obtain ⟨rfl, -⟩ : x = PKG_HEADER ∧ _ := List.cons.inj hu
    simp [parse_cons, LiPkg.parseOne, analysisOne, h.state]
  | x :: y :: part =>
    obtain ⟨rfl, htail⟩ : x = PKG_HEADER ∧ _ := List.cons.inj hu
    obtain ⟨rfl, -⟩ : y = PKG_VER_LEN ∧ _ := List.cons.inj htail
    rw [parse_payload h (by simp only [List.length_cons] at hlen; omega)]

/-- However the bytes of the packets sent are cut into reads, the points of the packets that are
taken are those that left `frame_tmp_`, call by call, and those still there; a scan has only
points that left with it. -/
theorem scans_of_sent (chunks : List (List UInt8)) (sent : List Transmission)
    (next : Transmission) (part : List UInt8) (hpart : part <+: next.bytes)
    (hlen : part.length < 47)
    (hchunks : chunks.flatten = sent.flatMap Transmission.bytes ++ part) :
    (calls f {} chunks).1.flatMap Call.removed ++ (calls f {} chunks).2.frameTmp =
        (sent.filter fun t => t.intact && !tooWide t.pkg).flatMap
          (fun t => points f.toAngles t.pkg) ∧
      ∀ c ∈ (calls f {} chunks).1, ∀ scan ∈ c.scan,
        scan ≠ [] ∧ ∀ q ∈ scan, ∃ p ∈ c.removed, Kept p q := by
  refine ⟨?_, fun c hc scan hscan => calls_scan hc hscan⟩
  have hbehind : Behind [] ({} : LiPkg F) {} := ⟨rfl, rfl, rfl⟩
  have hall := (hbehind.calls (f := f) chunks).frameTmp
  rw [List.nil_append] at hall
  have hidle : ({} : LiPkg F).Idle := ⟨rfl, rfl⟩
  rw [← hall, hchunks, parse_append, parse_sent hidle,
    parse_part (Idle.foldl_take (by exact ⟨rfl, rfl⟩) _) hpart hlen, foldl_take_frameTmp]
  rw [List.nil_append, List.filter_map, List.flatMap_map, List.filter_filter]
  simp [Bool.and_comm]

end LiPkg

/-! ### Angles in hundredths of a degree -/

section Examples

/-- The arithmetic without rounding. -/
def hundredths : Floats ℕ where
  angle start step i := if 36000 ≤ start + i * step then start + i * step - 36000
    else start + i * step
  start := 0
  zero := 0
  low a := a < 2000
  high a := 34000 < a
  zero_low := rfl
  tooLong count speed := 4500 * 14 * 360 < 10 * count * speed.toNat
  gap speed last n :=
    200 * speed.toNat < 4500 * max (n.angle - last.angle) (last.angle - n.angle) ||
    3 * last.distance.toNat < 100 * max (n.distance.toNat - last.distance.toNat)
      (last.distance.toNat - n.distance.toNat)
  meets speed first last := 4500 * (first.angle + 36000 - last.angle) < 200 * speed.toNat &&
    100 * max (first.distance.toNat - last.distance.toNat)
      (last.distance.toNat - first.distance.toNat) < 3 * last.distance.toNat
  sort := List.insertionSort fun p q => p.angle ≤ q.angle
  sort_perm := List.perm_insertionSort _

theorem scans_of_sent_hit :
    ((LiPkg.calls hundredths {} [hit.bytes ++ sent.bytes.take 20, sent.bytes.drop 20]).1.flatMap
        LiPkg.Call.removed ++
      (LiPkg.calls hundredths {}
        [hit.bytes ++ sent.bytes.take 20, sent.bytes.drop 20]).2.frameTmp).length = 12 := by
  rw [(LiPkg.scans_of_sent [hit.bytes ++ sent.bytes.take 20, sent.bytes.drop 20] [hit, sent] sent []
    (List.nil_prefix) (by decide) (by decide +kernel)).1]
  decide +kernel

/-- A wall at 1 m all round, at the highest speed. -/
def wall : List (PointData ℕ) :=
  (List.range 13).map (fun i => ⟨2800 * i, 1000, 200⟩) ++ [⟨35000, 1000, 200⟩]

def round : LiPkg ℕ := { speed := 65535, frameTmp := wall ++ [⟨0, 1000, 200⟩] }

theorem round_turn : LiPkg.Turn hundredths round wall ⟨0, 1000, 200⟩ [] where
  frameTmp := rfl
  unbroken := by
    unfold LiPkg.Wraps
    decide
  wraps := ⟨⟨35000, 1000, 200⟩, rfl, by unfold LiPkg.Wraps; decide⟩

theorem wall_ring :
    Tofbf.Ring hundredths round.speed (hundredths.sort (wall.filter Tofbf.near)) :=
  ⟨by decide, ⟨0, 1000, 200⟩, by decide, ⟨35000, 1000, 200⟩, by decide, by decide⟩

theorem turn_published_iff_round :
    ¬ ((LiPkg.assemblePacket hundredths round).1 = true ∧
        (LiPkg.assemblePacket hundredths round).2.frameTmp = [⟨0, 1000, 200⟩] ∧
        Tofbf.Filtered wall (LiPkg.assemblePacket hundredths round).2.laserScanData) ∧
      Tofbf.nearFilter hundredths round.speed wall = [] := by
  obtain ⟨hiff, hring⟩ := LiPkg.turn_published_iff round_turn (by decide)
  rw [hiff, not_not, hring wall_ring]
  exact ⟨wall_ring, rfl⟩

end Examples

end Ldlidar
