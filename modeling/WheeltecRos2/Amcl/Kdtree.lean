/-
The histogram of the particle filter, `pf_kdtree.c`.

The poses of the samples fall into bins, and a tree over the keys of the bins adds up the weights
of each.  Its nodes come from an array of a fixed size; its leaves are then clustered with the
leaves next to them.  `none` is a failed assertion, an `int` that overflows, or the look at the
root of an empty tree.

* `histogram`: after any insertions the tree holds for each bin the sum of its weights, and it has
  room as long as the bins, twice less one, fit into the array.
* `clusters`: two samples end in one cluster exactly if a chain of neighbouring bins with samples
  connects them.

Both ask of the keys that they stay below `2 ^ 30`, half a million kilometres from the origin.
The weights are only added, in the order of the insertions, so nothing is said of their rounding.
-/
import WheeltecRos2.Lib.Components
import Mathlib.Data.List.Dedup
import Mathlib.Data.Fintype.Pi
import Mathlib.Data.Fin.VecNotation
import Mathlib.Tactic.FinCases

namespace Amcl

/-- A bin. -/
abbrev Key := Fin 3 → ℤ

inductive Node (α : Type)
  | leaf (key : Key) (value : α)
  /-- `pivot_value` is half of `sum`. -/
  | branch (pivotDim : Fin 3) (sum : ℤ) (lower upper : Node α)

/-- The tree, with its counters. -/
structure Kdtree (α : Type) where
  root : Option (Node α) := none
  nodeCount : ℕ := 0
  nodeMaxCount : ℕ
  leafCount : ℕ := 0

/-- A value of an `int`. -/
abbrev IsInt (x : ℤ) : Prop := -2 ^ 31 ≤ x ∧ x < 2 ^ 31

/-- The dimension in which two keys are the furthest apart, if they differ. -/
def splitDim (key old : Key) : Option (Fin 3) :=
  ([0, 1, 2].foldl (fun (found : ℕ × Option (Fin 3)) i =>
    if found.1 < (key i - old i).natAbs then ((key i - old i).natAbs, some i) else found)
    (0, none)).2

/-- `pivot_dim`, and twice `pivot_value`. -/
def pivot (key old : Key) : Option (Fin 3 × ℤ) :=
  -- `abs` has no value for the least `int`
  if ∀ i, (key i - old i).natAbs < 2 ^ 31 then
    (splitDim key old).bind fun dim =>
      if IsInt (key dim + old dim) then some (dim, key dim + old dim) else none
  else none

namespace Kdtree

variable {α : Type} [Add α]

/-- A new node of the array. -/
def newLeaf (self : Kdtree α) (key : Key) (value : α) : Option (Node α × Kdtree α) :=
  if self.nodeCount < self.nodeMaxCount then
    some (.leaf key value,
      { self with nodeCount := self.nodeCount + 1, leafCount := self.leafCount + 1 })
  else none

/-- `pf_kdtree_insert_node`, below a node. -/
def insertNode (self : Kdtree α) (key : Key) (value : α) :
    Node α → Option (Node α × Kdtree α)
  | .leaf old total =>
    if key = old then some (.leaf old (total + value), self)
    else do
      let (dim, sum) ← pivot key old
      if 2 * key dim < sum then
        let (lower, self) ← self.newLeaf key value
        let (upper, self) ← self.newLeaf old total
        some (.branch dim sum lower upper, { self with leafCount := self.leafCount - 1 })
      else
        let (lower, self) ← self.newLeaf old total
        let (upper, self) ← self.newLeaf key value
        some (.branch dim sum lower upper, { self with leafCount := self.leafCount - 1 })
  | .branch dim sum lower upper =>
    if 2 * key dim < sum then do
      let (lower, self) ← insertNode self key value lower
      some (.branch dim sum lower upper, self)
    else do
      let (upper, self) ← insertNode self key value upper
      some (.branch dim sum lower upper, self)

/-- `pf_kdtree_insert`, with the key of the pose. -/
def insert (self : Kdtree α) (key : Key) (value : α) : Option (Kdtree α) := do
  let (node, self) ← match self.root with
    | none => self.newLeaf key value
    | some node => self.insertNode key value node
  some { self with root := some node }

/-- Insertions into a tree that `pf_kdtree_alloc` has just made. -/
def insertAll (maxSize : ℕ) (samples : List (Key × α)) : Option (Kdtree α) :=
  samples.foldlM (fun self sample => self.insert sample.1 sample.2) { nodeMaxCount := maxSize }

end Kdtree

/-- `pf_kdtree_find_node`: the value of the leaf. -/
def Node.find {α : Type} (key : Key) : Node α → Option α
  | .leaf old value => if key = old then some value else none
  | .branch dim sum lower upper =>
    if 2 * key dim < sum then lower.find key else upper.find key

/-- The keys of the leaves. -/
def Node.keys {α : Type} : Node α → List Key
  | .leaf key _ => [key]
  | .branch _ _ lower upper => lower.keys ++ upper.keys

/-- The search from the root. -/
def Kdtree.find {α : Type} (self : Kdtree α) (key : Key) : Option (Option α) :=
  self.root.map (Node.find key)

/-- The search finds a leaf. -/
def Kdtree.hasLeaf {α : Type} (self : Kdtree α) (key : Key) : Bool := (self.find key).join.isSome

/-- The keys of all leaves; the array has them in another order. -/
def Kdtree.keys {α : Type} (self : Kdtree α) : List Key :=
  match self.root with
  | none => []
  | some node => node.keys

/-! ### The tree -/

theorem splitDim_of_ne {key old : Key} (h : key ≠ old) :
    ∃ dim, splitDim key old = some dim ∧ key dim ≠ old dim := by
  have hdiff : ∀ (i : Fin 3) (m : ℕ), m < (key i - old i).natAbs → key i ≠ old i := by
    intro i m hm heq
    rw [heq] at hm
    simp at hm
  simp only [splitDim, List.foldl_cons, List.foldl_nil]
  -- a dimension that was taken beat a difference from zero on
  by_cases h₀ : 0 < (key 0 - old 0).natAbs
  · rw [if_pos h₀]
    by_cases h₁ : (key 0 - old 0).natAbs < (key 1 - old 1).natAbs
    · rw [if_pos h₁]
      by_cases h₂ : (key 1 - old 1).natAbs < (key 2 - old 2).natAbs
      · exact ⟨2, by rw [if_pos h₂], hdiff 2 _ h₂⟩
      · exact ⟨1, by rw [if_neg h₂], hdiff 1 _ h₁⟩
    · rw [if_neg h₁]
      by_cases h₂ : (key 0 - old 0).natAbs < (key 2 - old 2).natAbs
      · exact ⟨2, by rw [if_pos h₂], hdiff 2 _ h₂⟩
      · exact ⟨0, by rw [if_neg h₂], hdiff 0 _ h₀⟩
  · rw [if_neg h₀]
    by_cases h₁ : 0 < (key 1 - old 1).natAbs
    · rw [if_pos h₁]
      by_cases h₂ : (key 1 - old 1).natAbs < (key 2 - old 2).natAbs
      · exact ⟨2, by rw [if_pos h₂], hdiff 2 _ h₂⟩
      · exact ⟨1, by rw [if_neg h₂], hdiff 1 _ h₁⟩
    · rw [if_neg h₁]
      by_cases h₂ : 0 < (key 2 - old 2).natAbs
      · exact ⟨2, by rw [if_pos h₂], hdiff 2 _ h₂⟩
      · -- no difference in any dimension
        refine absurd (funext fun i => ?_) h
        fin_cases i
        · show key 0 = old 0
          omega
        · show key 1 = old 1
          omega
        · show key 2 = old 2
          omega

/-- The keys of poses that are not too far away. -/
def Small (key : Key) : Prop := ∀ i, -2 ^ 30 ≤ key i ∧ key i < 2 ^ 30

theorem pivot_of_ne {key old : Key} (h : key ≠ old) (hkey : Small key) (hold : Small old) :
    ∃ dim, pivot key old = some (dim, key dim + old dim) ∧ key dim ≠ old dim := by
  obtain ⟨dim, hdim, hdiff⟩ := splitDim_of_ne h
  have hall : ∀ i, (key i - old i).natAbs < 2 ^ 31 := by
    intro i
    have hi := hkey i
    have hi' := hold i
    omega
  have hsum : IsInt (key dim + old dim) := by
    have hi := hkey dim
    have hi' := hold dim
    constructor <;> omega
  refine ⟨dim, ?_, hdiff⟩
  rw [pivot, if_pos hall, hdim, Option.bind_some, if_pos hsum]

section Tree

variable {α : Type}

/-- What a key is found with, after a value has been added to one. -/
def added [Add α] (value : α) : Option α → Option α
  | none => some value
  | some total => some (total + value)

/-- Every key is on its side of the pivots above it. -/
def Node.Ordered : Node α → Prop
  | .leaf _ _ => True
  | .branch dim sum lower upper =>
    (∀ key ∈ lower.keys, 2 * key dim < sum) ∧ (∀ key ∈ upper.keys, ¬ 2 * key dim < sum) ∧
      lower.Ordered ∧ upper.Ordered

theorem Node.find_isSome {node : Node α} (h : node.Ordered) (key : Key) :
    (node.find key).isSome ↔ key ∈ node.keys := by
  induction node with
  | leaf old value =>
    rw [Node.find, Node.keys, List.mem_singleton]
    split_ifs with hkey <;> simp [hkey]
  | branch dim sum lower upper ihl ihu =>
    obtain ⟨hlower, hupper, hl, hu⟩ := h
    rw [Node.find, Node.keys, List.mem_append]
    split_ifs with hside
    · rw [ihl hl]
      refine ⟨.inl, fun hmem => hmem.resolve_right fun hmem => hupper key hmem hside⟩
    · rw [ihu hu]
      refine ⟨.inr, fun hmem => hmem.resolve_left fun hmem => hside (hlower key hmem)⟩

theorem Node.nodup_keys {node : Node α} (h : node.Ordered) : node.keys.Nodup := by
  induction node with
  | leaf key value => exact List.nodup_singleton key
  | branch dim sum lower upper ihl ihu =>
    obtain ⟨hlower, hupper, hl, hu⟩ := h
    rw [Node.keys, List.nodup_append]
    refine ⟨ihl hl, ihu hu, ?_⟩
    rintro key hkl _ hku rfl
    exact hupper key hku (hlower key hkl)

/-- How many bins have a sample. -/
def bins (samples : List (Key × α)) : ℕ := (samples.map Prod.fst).dedup.length

theorem bins_concat (samples : List (Key × α)) (sample : Key × α) :
    bins (samples ++ [sample]) =
      if sample.1 ∈ samples.map Prod.fst then bins samples else bins samples + 1 := by
  have hperm : (samples.map Prod.fst ++ [sample.1]).Perm (sample.1 :: samples.map Prod.fst) :=
    List.perm_append_singleton ..
  rw [bins, List.map_append, List.map_singleton, hperm.dedup.length_eq]
  split_ifs with hmem
  · rw [List.dedup_cons_of_mem hmem]
    rfl
  · rw [List.dedup_cons_of_notMem hmem]
    rfl

theorem bins_le_concat (samples : List (Key × α)) (sample : Key × α) :
    bins samples ≤ bins (samples ++ [sample]) := by
  rw [bins_concat]
  split_ifs <;> omega

theorem bins_le_length (samples : List (Key × α)) : bins samples ≤ samples.length :=
  ((samples.map Prod.fst).dedup_sublist.length_le).trans (Nat.le_of_eq (List.length_map _))

theorem Node.length_keys_pos (node : Node α) : 0 < node.keys.length := by
  induction node with
  | leaf => exact Nat.one_pos
  | branch dim sum lower upper ihl _ =>
    rw [Node.keys, List.length_append]
    omega

end Tree

/-! ### Insertion -/

section Insertion

variable {α : Type} [Add α] {self self' : Kdtree α} {key : Key} {value : α} {node node' : Node α}

/-- A value has been added to a key. -/
structure Added (key : Key) (value : α) (node node' : Node α) : Prop where
  ordered : node'.Ordered
  keys (k : Key) : k ∈ node'.keys ↔ k = key ∨ k ∈ node.keys
  find (k : Key) : node'.find k = if k = key then added value (node.find k) else node.find k

theorem Added.lower {dim : Fin 3} {sum : ℤ} {upper : Node α}
    (h : (Node.branch dim sum node upper).Ordered) (hside : 2 * key dim < sum)
    (hadded : Added key value node node') :
    Added key value (.branch dim sum node upper) (.branch dim sum node' upper) where
  ordered := by
    obtain ⟨hlower, hupper, -, hu⟩ := h
    refine ⟨fun k hk => ?_, hupper, hadded.ordered, hu⟩
    rcases (hadded.keys k).mp hk with rfl | hk
    · exact hside
    · exact hlower k hk
  keys k := by
    rw [Node.keys, Node.keys, List.mem_append, List.mem_append, hadded.keys, or_assoc]
  find k := by
    rw [Node.find, Node.find]
    split_ifs with hk hkey hkey
    · rw [hadded.find, if_pos hkey]
    · rw [hadded.find, if_neg hkey]
    · rw [hkey] at hk
      exact absurd hside hk
    · rfl

theorem Added.upper {dim : Fin 3} {sum : ℤ} {lower : Node α}
    (h : (Node.branch dim sum lower node).Ordered) (hside : ¬ 2 * key dim < sum)
    (hadded : Added key value node node') :
    Added key value (.branch dim sum lower node) (.branch dim sum lower node') where
  ordered := by
    obtain ⟨hlower, hupper, hl, -⟩ := h
    refine ⟨hlower, fun k hk => ?_, hl, hadded.ordered⟩
    rcases (hadded.keys k).mp hk with rfl | hk
    · exact hside
    · exact hupper k hk
  keys k := by
    rw [Node.keys, Node.keys, List.mem_append, List.mem_append, hadded.keys, or_left_comm]
  find k := by
    rw [Node.find, Node.find]
    split_ifs with hk hkey hkey
    · rw [hkey] at hk
      exact absurd hk hside
    · rfl
    · rw [hadded.find, if_pos hkey]
    · rw [hadded.find, if_neg hkey]

/-- A leaf that is split. -/
theorem Added.split {old : Key} {total : α} {dim : Fin 3} (hdim : key dim ≠ old dim)
    (hne : key ≠ old) :
    Added key value (.leaf old total)
      (if 2 * key dim < key dim + old dim then
        .branch dim (key dim + old dim) (.leaf key value) (.leaf old total)
      else .branch dim (key dim + old dim) (.leaf old total) (.leaf key value)) := by
  -- twice the pivot is the sum of both keys, so they come on different sides
  split_ifs with hside
  · refine ⟨⟨?_, ?_, trivial, trivial⟩, ?_, ?_⟩
    · intro k hk
      rw [List.mem_singleton.mp hk]
      exact hside
    · intro k hk
      rw [List.mem_singleton.mp hk]
      omega
    · intro k
      simp [Node.keys]
    · intro k
      simp only [Node.find]
      by_cases hk : k = key
      · subst hk
        simp [hside, hne, added]
      · by_cases hold : k = old
        · subst hold
          simp [hk]
          omega
        · simp [hk, hold]
  · refine ⟨⟨?_, ?_, trivial, trivial⟩, ?_, ?_⟩
    · intro k hk
      rw [List.mem_singleton.mp hk]
      omega
    · intro k hk
      rw [List.mem_singleton.mp hk]
      exact hside
    · intro k
      simp [Node.keys, or_comm]
    · intro k
      simp only [Node.find]
      by_cases hk : k = key
      · subst hk
        simp [hside, hne, added]
      · by_cases hold : k = old
        · subst hold
          simp [hk]
          omega
        · simp [hk, hold]

/-- The counters after a leaf was split. -/
def Kdtree.grown (self : Kdtree α) : Kdtree α :=
  { self with nodeCount := self.nodeCount + 2, leafCount := self.leafCount + 1 }

/-- **A key that is there.** -/
theorem insertNode_old (self : Kdtree α) (value : α) (h : node.Ordered) (hkey : key ∈ node.keys) :
    ∃ node', self.insertNode key value node = some (node', self) ∧
      Added key value node node' ∧ node'.keys = node.keys := by
  induction node with
  | leaf old total =>
    obtain rfl := List.mem_singleton.mp hkey
    refine ⟨.leaf key (total + value), by rw [Kdtree.insertNode, if_pos rfl],
      ⟨trivial, fun k => by simp [Node.keys], fun k => ?_⟩, rfl⟩
    simp only [Node.find]
    split_ifs <;> rfl
  | branch dim sum lower upper ihl ihu =>
    have hordered := h
    obtain ⟨hlower, hupper, hl, hu⟩ := h
    rw [Kdtree.insertNode]
    by_cases hside : 2 * key dim < sum
    · have hmem : key ∈ lower.keys :=
        (List.mem_append.mp hkey).resolve_right fun hmem => hupper key hmem hside
      obtain ⟨node', hrun, hadded, hkeys⟩ := ihl hl hmem
      refine ⟨.branch dim sum node' upper, by simp [hside, hrun],
        .lower hordered hside hadded, by rw [Node.keys, Node.keys, hkeys]⟩
    · have hmem : key ∈ upper.keys :=
        (List.mem_append.mp hkey).resolve_left fun hmem => hside (hlower key hmem)
      obtain ⟨node', hrun, hadded, hkeys⟩ := ihu hu hmem
      refine ⟨.branch dim sum lower node', by simp [hside, hrun],
        .upper hordered hside hadded, by rw [Node.keys, Node.keys, hkeys]⟩

/-- **A key that is new.**  It takes two nodes. -/
theorem insertNode_new (self : Kdtree α) (value : α) (h : node.Ordered) (hkey : key ∉ node.keys)
    (hsmall : Small key) (hold : ∀ k ∈ node.keys, Small k) :
    (self.nodeMaxCount < self.nodeCount + 2 → self.insertNode key value node = none) ∧
    (self.nodeCount + 2 ≤ self.nodeMaxCount →
      ∃ node', self.insertNode key value node = some (node', self.grown) ∧
        Added key value node node' ∧ node'.keys.length = node.keys.length + 1) := by
  induction node with
  | leaf old total =>
    have hne : key ≠ old := fun heq => hkey (by rw [heq, Node.keys, List.mem_singleton])
    obtain ⟨dim, hdim, hdiff⟩ :=
      pivot_of_ne hne hsmall (hold old (by rw [Node.keys, List.mem_singleton]))
    constructor
    · -- the array may be full for the first new leaf, or only for the second
      intro hfull
      rw [Kdtree.insertNode, if_neg hne, hdim]
      by_cases hroom : self.nodeCount < self.nodeMaxCount
      · have hlast : ¬ self.nodeCount + 1 < self.nodeMaxCount := by omega
        simp [Kdtree.newLeaf, hroom, hlast]
      · simp [Kdtree.newLeaf, hroom]
    · intro hroom
      have h₁ : self.nodeCount < self.nodeMaxCount := by omega
      have h₂ : self.nodeCount + 1 < self.nodeMaxCount := by omega
      refine ⟨_, ?_, .split hdiff hne, ?_⟩
      · rw [Kdtree.insertNode, if_neg hne, hdim]
        split_ifs with hside
        · simp [Kdtree.newLeaf, h₁, h₂, hside, Kdtree.grown]
        · simp [Kdtree.newLeaf, h₁, h₂, hside, Kdtree.grown]
      · split_ifs <;> rfl
  | branch dim sum lower upper ihl ihu =>
    have hordered := h
    obtain ⟨-, -, hl, hu⟩ := h
    rw [Node.keys, List.mem_append, not_or] at hkey
    rw [Kdtree.insertNode]
    by_cases hside : 2 * key dim < sum
    · obtain ⟨hnone, hsome⟩ := ihl hl hkey.1 fun k hk => hold k (List.mem_append_left _ hk)
      refine ⟨fun hfull => by simp [hside, hnone hfull], fun hroom => ?_⟩
      obtain ⟨node', hrun, hadded, hlength⟩ := hsome hroom
      refine ⟨.branch dim sum node' upper, by simp [hside, hrun],
        .lower hordered hside hadded, ?_⟩
      rw [Node.keys, Node.keys, List.length_append, List.length_append, hlength]
      omega
    · obtain ⟨hnone, hsome⟩ := ihu hu hkey.2 fun k hk => hold k (List.mem_append_right _ hk)
      refine ⟨fun hfull => by simp [hside, hnone hfull], fun hroom => ?_⟩
      obtain ⟨node', hrun, hadded, hlength⟩ := hsome hroom
      refine ⟨.branch dim sum lower node', by simp [hside, hrun],
        .upper hordered hside hadded, ?_⟩
      rw [Node.keys, Node.keys, List.length_append, List.length_append, hlength]
      omega

/-- The weights of a bin, added up. -/
def total (samples : List (Key × α)) (key : Key) : Option α :=
  samples.foldl (fun sum sample => if sample.1 = key then added sample.2 sum else sum) none

theorem total_concat (samples : List (Key × α)) (sample : Key × α) (key : Key) :
    total (samples ++ [sample]) key =
      if key = sample.1 then added sample.2 (total samples key) else total samples key := by
  simp [total, List.foldl_append, eq_comm]

/-- What a tree holds after some insertions. -/
structure Holds (tree : Kdtree α) (samples : List (Key × α)) : Prop where
  ordered {node : Node α} : tree.root = some node → node.Ordered
  keys (key : Key) : key ∈ tree.keys ↔ key ∈ samples.map Prod.fst
  leafCount : tree.leafCount = tree.keys.length
  nodeCount : tree.nodeCount = 2 * tree.leafCount - 1
  room : tree.nodeCount ≤ tree.nodeMaxCount
  root : tree.root = none ↔ samples = []
  find (key : Key) : (tree.find key).join = total samples key

theorem Holds.nodup {samples : List (Key × α)} (h : Holds self samples) : self.keys.Nodup := by
  rw [Kdtree.keys]
  cases hroot : self.root with
  | none => exact List.nodup_nil
  | some node => exact Node.nodup_keys (h.ordered hroot)

theorem Holds.hasLeaf {samples : List (Key × α)} (h : Holds self samples) (key : Key) :
    self.hasLeaf key ↔ key ∈ self.keys := by
  rw [Kdtree.hasLeaf, Kdtree.find, Kdtree.keys]
  cases hroot : self.root with
  | none => simp
  | some node => exact Node.find_isSome (h.ordered hroot) key

theorem Holds.bins {samples : List (Key × α)} (h : Holds self samples) :
    self.leafCount = bins samples := by
  have hperm : self.keys.Perm (samples.map Prod.fst).dedup :=
    (List.perm_ext_iff_of_nodup h.nodup (List.nodup_dedup _)).mpr fun key => by
      rw [h.keys, List.mem_dedup]
  rw [h.leafCount, hperm.length_eq, Amcl.bins]

/-- The root after an insertion. -/
theorem Holds.added {samples : List (Key × α)} {self₁ : Kdtree α} (h : Holds self samples)
    (hroot : self.root = some node) (hadded : Added key value node node')
    (hleaf : self₁.leafCount = node'.keys.length)
    (hcount : self₁.nodeCount = 2 * self₁.leafCount - 1)
    (hroom : self₁.nodeCount ≤ self₁.nodeMaxCount) :
    Holds { self₁ with root := some node' } (samples ++ [(key, value)]) where
  ordered h := by
    cases h
    exact hadded.ordered
  keys k := by
    have hold : self.keys = node.keys := by rw [Kdtree.keys, hroot]
    rw [List.map_append, List.mem_append, ← h.keys, hold]
    show k ∈ node'.keys ↔ k ∈ node.keys ∨ k ∈ [key]
    rw [hadded.keys, List.mem_singleton, or_comm]
  leafCount := hleaf
  nodeCount := hcount
  room := hroom
  root := by simp
  find k := by
    have hold : node.find k = total samples k := by
      rw [← h.find, Kdtree.find, hroot]
      rfl
    show node'.find k = _
    rw [hadded.find, total_concat, hold]

/-- The first insertion makes the root. -/
theorem insert_empty {samples : List (Key × α)} (h : Holds self samples)
    (hroot : self.root = none) (key : Key) (value : α) :
    bins (samples ++ [(key, value)]) = 1 ∧
      (self.nodeMaxCount < 1 → self.insert key value = none) ∧
      (1 ≤ self.nodeMaxCount → ∃ self', self.insert key value = some self' ∧
        Holds self' (samples ++ [(key, value)]) ∧ self'.nodeMaxCount = self.nodeMaxCount) := by
  have hempty : samples = [] := h.root.mp hroot
  have hkeys : self.keys = [] := by rw [Kdtree.keys, hroot]
  have hleaf := h.leafCount
  have hnodes := h.nodeCount
  rw [hkeys, List.length_nil] at hleaf
  subst hempty
  refine ⟨rfl, fun hfull => ?_, fun hroom => ?_⟩
  · have hroom : ¬ self.nodeCount < self.nodeMaxCount := by omega
    simp [Kdtree.insert, hroot, Kdtree.newLeaf, hroom]
  · have hroom' : self.nodeCount < self.nodeMaxCount := by omega
    refine ⟨{ self with
      root := some (.leaf key value)
      nodeCount := self.nodeCount + 1
      leafCount := self.leafCount + 1 }, by simp [Kdtree.insert, hroot, Kdtree.newLeaf, hroom'],
      ⟨?_, ?_, ?_, ?_, hroom', by simp, ?_⟩, rfl⟩
    · rintro _ ⟨⟩
      trivial
    · intro k
      simp [Kdtree.keys, Node.keys]
    · show self.leafCount + 1 = 1
      omega
    · show self.nodeCount + 1 = 2 * (self.leafCount + 1) - 1
      omega
    · intro k
      rw [total_concat]
      rfl

/-- A bin that has a leaf takes no new node. -/
theorem insert_old {samples : List (Key × α)} (h : Holds self samples)
    (hroot : self.root = some node) {key : Key} (value : α) (hkey : key ∈ samples.map Prod.fst) :
    ∃ self', self.insert key value = some self' ∧ Holds self' (samples ++ [(key, value)]) ∧
      self'.nodeMaxCount = self.nodeMaxCount := by
  have hkeys : self.keys = node.keys := by rw [Kdtree.keys, hroot]
  have hleaf := h.leafCount
  rw [hkeys] at hleaf
  have hkey' : key ∈ node.keys := by rwa [← hkeys, h.keys]
  obtain ⟨node', hrun, hadded, hsame⟩ := insertNode_old self value (h.ordered hroot) hkey'
  refine ⟨{ self with root := some node' }, by simp [Kdtree.insert, hroot, hrun],
    h.added hroot hadded ?_ h.nodeCount h.room, rfl⟩
  rw [hsame, hleaf]

/-- A bin without a leaf takes two, as one leaf is split. -/
theorem insert_new {samples : List (Key × α)} (h : Holds self samples)
    (hroot : self.root = some node) {key : Key} (value : α) (hkey : key ∉ samples.map Prod.fst) (hsmall : Small key)
    (hold : ∀ k ∈ samples.map Prod.fst, Small k) :
    (self.nodeMaxCount < self.nodeCount + 2 → self.insert key value = none) ∧
      (self.nodeCount + 2 ≤ self.nodeMaxCount → ∃ self', self.insert key value = some self' ∧
        Holds self' (samples ++ [(key, value)]) ∧ self'.nodeMaxCount = self.nodeMaxCount) := by
  have hkeys : self.keys = node.keys := by rw [Kdtree.keys, hroot]
  have hleaf := h.leafCount
  have hnodes := h.nodeCount
  have hpos := node.length_keys_pos
  rw [hkeys] at hleaf
  have hcount : self.nodeCount + 2 = 2 * (self.leafCount + 1) - 1 := by omega
  have hkey' : key ∉ node.keys := by rwa [← hkeys, h.keys]
  have hold' : ∀ k ∈ node.keys, Small k := by
    intro k hk
    rw [← hkeys, h.keys] at hk
    exact hold k hk
  obtain ⟨hnone, hsome⟩ := insertNode_new self value (h.ordered hroot) hkey' hsmall hold'
  refine ⟨fun hfull => by simp [Kdtree.insert, hroot, hnone hfull], fun hroom => ?_⟩
  obtain ⟨node', hrun, hadded, hlength⟩ := hsome hroom
  refine ⟨{ self.grown with root := some node' }, by simp [Kdtree.insert, hroot, hrun],
    h.added hroot hadded ?_ ?_ hroom, rfl⟩
  · exact (congrArg (· + 1) hleaf).trans hlength.symm
  · exact hcount

/-- **One insertion.** -/
theorem insert_spec {samples : List (Key × α)} (h : Holds self samples) (sample : Key × α)
    (hsmall : ∀ k ∈ (samples ++ [sample]).map Prod.fst, Small k) :
    (self.nodeMaxCount < 2 * bins (samples ++ [sample]) - 1 →
      self.insert sample.1 sample.2 = none) ∧
    (2 * bins (samples ++ [sample]) - 1 ≤ self.nodeMaxCount →
      ∃ self', self.insert sample.1 sample.2 = some self' ∧ Holds self' (samples ++ [sample]) ∧
        self'.nodeMaxCount = self.nodeMaxCount) := by
  obtain ⟨key, value⟩ := sample
  cases hroot : self.root with
  | none =>
    obtain ⟨hone, hinsert⟩ := insert_empty h hroot key value
    rwa [hone]
  | some node =>
    have hbins := h.bins
    have hnodes := h.nodeCount
    by_cases hkey : key ∈ samples.map Prod.fst
    · rw [bins_concat, if_pos hkey]
      -- the nodes there are were enough before
      have hroom := h.room
      exact ⟨fun hfull => by omega, fun _ => insert_old h hroot value hkey⟩
    · have hsmall' : Small key := hsmall key (by simp)
      have hold : ∀ k ∈ samples.map Prod.fst, Small k := fun k hk =>
        hsmall k (by rw [List.map_append]; exact List.mem_append_left _ hk)
      have hpos : 0 < self.leafCount := by
        rw [h.leafCount, Kdtree.keys, hroot]
        exact node.length_keys_pos
      have hcount : 2 * (bins samples + 1) - 1 = self.nodeCount + 2 := by omega
      rw [bins_concat, if_neg hkey, hcount]
      exact insert_new h hroot value hkey hsmall' hold

/-- A run of insertions. -/
theorem insertAll_spec (maxSize : ℕ) (samples : List (Key × α))
    (hsmall : ∀ k ∈ samples.map Prod.fst, Small k) :
    (maxSize < 2 * bins samples - 1 → Kdtree.insertAll maxSize samples = none) ∧
    (2 * bins samples - 1 ≤ maxSize → ∃ self, Kdtree.insertAll maxSize samples = some self ∧
      Holds self samples ∧ self.nodeMaxCount = maxSize) := by
  induction samples using List.reverseRecOn with
  | nil =>
    refine ⟨fun h => absurd h (Nat.not_lt_zero _), fun _ => ⟨_, rfl, ?_, rfl⟩⟩
    refine ⟨fun h => (by cases h), fun key => ?_, rfl, rfl, Nat.zero_le _, by simp, fun key => rfl⟩
    simp [Kdtree.keys]
  | append_singleton samples sample ih =>
    obtain ⟨hnone, hsome⟩ := ih fun k hk =>
      hsmall k (by rw [List.map_append]; exact List.mem_append_left _ hk)
    have hle := bins_le_concat samples sample
    have hrun : Kdtree.insertAll maxSize (samples ++ [sample]) =
        (Kdtree.insertAll maxSize samples).bind fun self => self.insert sample.1 sample.2 := by
      rw [Kdtree.insertAll, List.foldlM_append]
      simp [Kdtree.insertAll]
    rw [hrun]
    by_cases hbefore : 2 * bins samples - 1 ≤ maxSize
    · obtain ⟨self, hself, hholds, rfl⟩ := hsome hbefore
      rw [hself]
      exact insert_spec hholds sample hsmall
    · refine ⟨fun _ => by rw [hnone (by omega)]; rfl, fun h => by omega⟩

/-- The nodes run out exactly if there are too many bins. -/
theorem insertAll_eq_none_iff {maxSize : ℕ} {samples : List (Key × α)}
    (hsmall : ∀ key ∈ samples.map Prod.fst, Small key) :
    Kdtree.insertAll maxSize samples = none ↔ maxSize < 2 * bins samples - 1 := by
  obtain ⟨hnone, hsome⟩ := insertAll_spec maxSize samples hsmall
  refine ⟨fun h => ?_, hnone⟩
  by_contra hroom
  obtain ⟨self, hself, -⟩ := hsome (Nat.not_lt.mp hroom)
  rw [hself] at h
  cases h

theorem insertAll_holds {maxSize : ℕ} {samples : List (Key × α)}
    (hsmall : ∀ key ∈ samples.map Prod.fst, Small key)
    (hself : Kdtree.insertAll maxSize samples = some self) : Holds self samples := by
  have hroom : ¬ maxSize < 2 * bins samples - 1 := by
    rw [← insertAll_eq_none_iff hsmall, hself]
    exact Option.some_ne_none self
  obtain ⟨_, hself', hholds, -⟩ :=
    (insertAll_spec maxSize samples hsmall).2 (Nat.not_lt.mp hroom)
  obtain rfl := Option.some.inj (hself'.symm.trans hself)
  exact hholds

/-- **The histogram.**  An assertion fails exactly if twice the bins, less one, are more than the
nodes, and so never in the array that `pf_alloc` asks for.  Otherwise the tree has a leaf for each
bin, and holds the sum of its weights; a search in an empty tree has no root to start from. -/
theorem histogram (maxSize : ℕ) (samples : List (Key × α))
    (hsmall : ∀ key ∈ samples.map Prod.fst, Small key) :
    (Kdtree.insertAll maxSize samples = none ↔ maxSize < 2 * bins samples - 1) ∧
    (∀ maxSamples, samples.length ≤ maxSamples →
      Kdtree.insertAll (3 * maxSamples) samples ≠ none) ∧
    ∀ self, Kdtree.insertAll maxSize samples = some self →
      self.leafCount = bins samples ∧ self.nodeCount = 2 * bins samples - 1 ∧
      (samples = [] → ∀ key, self.find key = none) ∧
      (samples ≠ [] → ∀ key, self.find key = some (total samples key)) := by
  refine ⟨insertAll_eq_none_iff hsmall, fun maxSamples hlength h => ?_, fun self hself => ?_⟩
  · have hbins := bins_le_length samples
    have hfull := (insertAll_eq_none_iff hsmall).mp h
    omega
  · have hholds := insertAll_holds hsmall hself
    refine ⟨hholds.bins, by rw [hholds.nodeCount, hholds.bins], fun hempty key => ?_,
      fun hsome key => ?_⟩
    · rw [Kdtree.find, hholds.root.mpr hempty]
      rfl
    · obtain ⟨node, hroot⟩ := Option.ne_none_iff_exists'.mp fun h => hsome (hholds.root.mp h)
      rw [← hholds.find, Kdtree.find, hroot]
      rfl

end Insertion

/-- Two bins side by side. -/
def two : List (Key × ℕ) := [(![0, 0, 0], 1), (![1, 0, 0], 2)]

theorem small_two : ∀ key ∈ two.map Prod.fst, Small key := by
  intro key hkey i
  simp only [two, List.map_cons, List.map_nil, List.mem_cons, List.not_mem_nil, or_false] at hkey
  rcases hkey with rfl | rfl <;> fin_cases i <;> decide

theorem histogram_two : (Kdtree.insertAll 3 two = none ↔ 3 < 2 * bins two - 1) ∧
    (∀ maxSamples, two.length ≤ maxSamples → Kdtree.insertAll (3 * maxSamples) two ≠ none) ∧
    ∀ self, Kdtree.insertAll 3 two = some self →
      self.leafCount = bins two ∧ self.nodeCount = 2 * bins two - 1 ∧
      (two = [] → ∀ key, self.find key = none) ∧
      (two ≠ [] → ∀ key, self.find key = some (total two key)) :=
  histogram 3 two small_two

/-! ### Clusters -/

/-- The keys that `pf_kdtree_cluster_node` looks at. -/
def neighbours (key : Key) : List Key :=
  (List.range 27).map fun i => ![key 0 + (i / 9 : ℕ) - 1, key 1 + (i % 9 / 3 : ℕ) - 1,
    key 2 + (i % 9 % 3 : ℕ) - 1]

/-- `pf_kdtree_cluster`, over the leaves in the order of the queue: the assertions while the queue
is filled, the keys around its leaves, which are all visited, and the visits. -/
def Kdtree.cluster {α : Type} (self : Kdtree α) (queue : List Key) :
    Option (Components.Labels Key × ℕ) :=
  if queue.length ≤ self.nodeCount ∧ (∀ key ∈ queue, self.hasLeaf key) ∧
      ∀ key ∈ queue, ∀ i, IsInt (key i + 2) ∧ IsInt (key i - 1) then
    Components.components self.hasLeaf neighbours queue.length queue 0 fun _ => none
  else none

/-- `pf_kdtree_get_cluster` -/
def Kdtree.getCluster {α : Type} (self : Kdtree α) (labels : Components.Labels Key) (key : Key) :
    Option ℤ :=
  (self.find key).map fun leaf => if leaf.isSome then (labels key).elim (-1) Int.ofNat else -1

theorem mem_neighbours {key key' : Key} :
    key' ∈ neighbours key ↔ ∀ i, (key' i - key i).natAbs ≤ 1 := by
  rw [neighbours, List.mem_map]
  constructor
  · rintro ⟨i, hi, rfl⟩ k
    rw [List.mem_range] at hi
    fin_cases k
    · show (key 0 + (i / 9 : ℕ) - 1 - key 0).natAbs ≤ 1
      omega
    · show (key 1 + (i % 9 / 3 : ℕ) - 1 - key 1).natAbs ≤ 1
      omega
    · show (key 2 + (i % 9 % 3 : ℕ) - 1 - key 2).natAbs ≤ 1
      omega
  · intro h
    have h₀ := h 0
    have h₁ := h 1
    have h₂ := h 2
    -- the index counts the three offsets in base 3
    obtain ⟨a, ha⟩ := Int.eq_ofNat_of_zero_le (a := key' 0 - key 0 + 1) (by omega)
    obtain ⟨b, hb⟩ := Int.eq_ofNat_of_zero_le (a := key' 1 - key 1 + 1) (by omega)
    obtain ⟨d, hd⟩ := Int.eq_ofNat_of_zero_le (a := key' 2 - key 2 + 1) (by omega)
    refine ⟨9 * a + 3 * b + d, List.mem_range.mpr (by omega), funext fun k => ?_⟩
    fin_cases k
    · show key 0 + ((9 * a + 3 * b + d) / 9 : ℕ) - 1 = key' 0
      omega
    · show key 1 + ((9 * a + 3 * b + d) % 9 / 3 : ℕ) - 1 = key' 1
      omega
    · show key 2 + ((9 * a + 3 * b + d) % 9 % 3 : ℕ) - 1 = key' 2
      omega

theorem neighbours_symm {key key' : Key} (h : key' ∈ neighbours key) : key ∈ neighbours key' := by
  rw [mem_neighbours] at h ⊢
  intro i
  have hi := h i
  omega

/-- Two bins with samples that touch, also over a corner. -/
def Touch {α : Type} (samples : List (Key × α)) (key key' : Key) : Prop :=
  key ∈ samples.map Prod.fst ∧ key' ∈ samples.map Prod.fst ∧ ∀ i, (key' i - key i).natAbs ≤ 1

/-- **The clusters.**  No assertion of the clustering fails, whatever the order of the leaves.  The
samples get the clusters from zero to the count, all of which occur, and two have the same exactly
if a chain of bins with samples that touch connects them; if there are samples at all, any other
pose has none. -/
theorem clusters {α : Type} [Add α] {maxSize : ℕ} {samples : List (Key × α)} {self : Kdtree α}
    {queue : List Key} (hsmall : ∀ key ∈ samples.map Prod.fst, Small key)
    (hself : Kdtree.insertAll maxSize samples = some self) (hqueue : queue.Perm self.keys) :
    ∃ labels n, self.cluster queue = some (labels, n) ∧
      (∀ key ∈ samples.map Prod.fst, ∃ d < n, self.getCluster labels key = some ↑d) ∧
      (samples ≠ [] → ∀ key ∉ samples.map Prod.fst, self.getCluster labels key = some (-1)) ∧
      (∀ key ∈ samples.map Prod.fst, ∀ key' ∈ samples.map Prod.fst,
        self.getCluster labels key = self.getCluster labels key' ↔
          Relation.ReflTransGen (Touch samples) key key') ∧
      ∀ d < n, ∃ key ∈ samples.map Prod.fst, self.getCluster labels key = some ↑d := by
  have hholds := insertAll_holds hsmall hself
  -- the queue, the leaves and the bins with samples are the same keys
  have hmem : ∀ key, self.hasLeaf key ↔ key ∈ queue := by
    intro key
    rw [hholds.hasLeaf, hqueue.mem_iff]
  have hsamples : ∀ key, key ∈ queue ↔ key ∈ samples.map Prod.fst := by
    intro key
    rw [hqueue.mem_iff, hholds.keys]
  obtain ⟨labels, n, hrun, hlabel, -, hsame, hused⟩ :=
    Components.components_spec (fun _ _ => neighbours_symm) hmem (Nat.le_refl _)
  -- a tree has no fewer nodes than leaves, and a small key has all its neighbours in range
  have hasserts : queue.length ≤ self.nodeCount ∧ (∀ key ∈ queue, self.hasLeaf key) ∧
      ∀ key ∈ queue, ∀ i, IsInt (key i + 2) ∧ IsInt (key i - 1) := by
    refine ⟨?_, fun key hkey => (hmem key).mpr hkey, fun key hkey i => ?_⟩
    · have hleaf := hholds.leafCount
      rw [hholds.nodeCount, hqueue.length_eq]
      omega
    · have hi := hsmall key ((hsamples key).mp hkey) i
      refine ⟨⟨?_, ?_⟩, ?_, ?_⟩ <;> omega
  have hget : ∀ key ∈ queue, ∃ d < n, labels key = some d ∧
      self.getCluster labels key = some ↑d := by
    intro key hkey
    obtain ⟨d, hd, hlabel⟩ := hlabel key hkey
    refine ⟨d, hd, hlabel, ?_⟩
    obtain ⟨value, hvalue⟩ := Option.isSome_iff_exists.mp ((hmem key).mpr hkey)
    rw [Kdtree.getCluster, Option.join_eq_some_iff.mp hvalue, hlabel]
    rfl
  have htouch : Components.Step self.hasLeaf neighbours = Touch samples := by
    funext key key'
    rw [Components.Step, Touch, mem_neighbours, hmem, hmem, hsamples, hsamples]
  refine ⟨labels, n, by rw [Kdtree.cluster, if_pos hasserts, hrun], ?_, ?_, ?_, ?_⟩
  · intro key hkey
    obtain ⟨d, hd, -, hget⟩ := hget key ((hsamples key).mpr hkey)
    exact ⟨d, hd, hget⟩
  · intro hsome key hkey
    obtain ⟨node, hroot⟩ := Option.ne_none_iff_exists'.mp fun h => hsome (hholds.root.mp h)
    have hleaf : ¬ (node.find key).isSome := by
      rw [← hsamples, ← hmem, Kdtree.hasLeaf, Kdtree.find, hroot] at hkey
      exact hkey
    rw [Kdtree.getCluster, Kdtree.find, hroot, Option.map_some, Option.map_some, if_neg hleaf]
  · intro key hkey key' hkey'
    rw [← hsamples] at hkey hkey'
    obtain ⟨d, -, hlabel, hgetd⟩ := hget key hkey
    obtain ⟨d', -, hlabel', hgetd'⟩ := hget key' hkey'
    have hiff := hsame key hkey key' hkey'
    rw [hlabel, hlabel', Option.some_inj] at hiff
    rw [hgetd, hgetd', ← htouch, Option.some_inj]
    exact Int.ofNat_inj.trans hiff
  · intro d hd
    obtain ⟨key, hkey, hlabel⟩ := hused d hd
    obtain ⟨d', -, hlabel', hget⟩ := hget key hkey
    refine ⟨key, (hsamples key).mp hkey, ?_⟩
    rw [hget, Option.some.inj (hlabel'.symm.trans hlabel)]

theorem clusters_two : ∃ self, Kdtree.insertAll 3 two = some self ∧
    ∃ labels n, self.cluster self.keys = some (labels, n) ∧
      (∀ key ∈ two.map Prod.fst, ∃ d < n, self.getCluster labels key = some ↑d) ∧
      (two ≠ [] → ∀ key ∉ two.map Prod.fst, self.getCluster labels key = some (-1)) ∧
      (∀ key ∈ two.map Prod.fst, ∀ key' ∈ two.map Prod.fst,
        self.getCluster labels key = self.getCluster labels key' ↔
          Relation.ReflTransGen (Touch two) key key') ∧
      ∀ d < n, ∃ key ∈ two.map Prod.fst, self.getCluster labels key = some ↑d := by
  obtain ⟨self, hself⟩ := Option.isSome_iff_exists.mp
    (show (Kdtree.insertAll 3 two).isSome by decide)
  exact ⟨self, hself, clusters small_two hself (List.Perm.refl _)⟩

end Amcl
