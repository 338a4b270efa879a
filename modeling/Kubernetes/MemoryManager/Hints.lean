import Mathlib
import Kubernetes.MemoryManager.State
import Kubernetes.TopologyManager.Policy

/-!
# The static policy's topology hints

The memory manager's static policy (`pkg/kubelet/cm/memorymanager/policy_static.go`) offers the
topology manager a hint for every group of NUMA nodes that can hold a container's request, and
when the affinity it gets back does not hold the request, it looks among those hints again for
one that extends it. This module has that part of the policy.

* `calculateHints` goes over every mask of the machine's nodes (`iterateBitMasks`). It skips a
  single node already grouped with others, a group some node of which is used alone or with
  another group, and a group without enough allocatable or free memory; the hints of fewest nodes
  among the groups with enough allocatable memory are preferred.
* `findBestHint` is the loop that keeps the better hint, preferred first and then narrower: it is
  `Best.keepLower` for the order of `MergedHint`s (`findBestHint_cons`), so it returns the least
  hint (`findBestHint_isLeast`).
* `isHintInGroup hint group`, meant to say that `hint` is part of `group`, matches the sorted
  `hint` greedily against the sorted `group`, but answers only once the match ends before the
  last element of the group: it says that `hint` is a sublist of the group without its largest
  node (`isHintInGroup_iff`), so a hint that holds the group's largest node is never in it.

Go maps are `AList`s in the order Go happens to range over them, except the totals, maps whose
missing keys read as zero, which are functions. Sums of `uint64`s wrap (`Go.toUnsigned 64`).
`sort.Ints` sorts the caller's slice in place; every caller here passes a copy, or a slice already
sorted, so the model sorts a copy.
-/

namespace Kubernetes.MemoryManager

open TopologyManager

/-- How a call of the static policy fails: with the `error` it returns, or with a Go runtime
panic, a `nil` pointer or interface dereferenced (a node or a resource missing from the machine
state, a `nil` mask). -/
inductive Failure
  | error (msg : String)
  | panic
  deriving DecidableEq

/-- The sizes a container requests of memory and of each size of huge pages. -/
abbrev RequestedResources := AList (fun _ : ResourceName => ℕ)

/-- `sort.Ints`, on a copy. -/
def sortInts (l : List ℤ) : List ℤ := l.insertionSort (· ≤ ·)

/-- `m[resourceName] += size` on a map of `uint64` totals whose missing keys read as zero. -/
def addSize (m : ResourceName → ℕ) (resourceName : ResourceName) (size : ℕ) :
    ResourceName → ℕ :=
  fun r => if r = resourceName then Go.toUnsigned 64 (m r + size) else m r

/-- `machineState[nodeID].MemoryMap[resourceName]`, dereferenced: a missing node or table is a
`nil` pointer. -/
def memoryTable (machineState : NUMANodeMap) (nodeID : ℤ) (resourceName : ResourceName) :
    Except Failure MemoryTable :=
  match machineState.lookup nodeID with
  | none => throw .panic
  | some nodeState =>
    match nodeState.memoryMap.lookup resourceName with
    | none => throw .panic
    | some table => pure table

/-- `areGroupsEqual(group1, group2)`: the groups sorted are the same list. -/
def areGroupsEqual (group1 group2 : List ℤ) : Bool :=
  let group1 := sortInts group1
  let group2 := sortInts group2
  if group1.length ≠ group2.length then false
  else (group1.zip group2).all fun (elm, g) => g == elm

/-- `isHintPreferred(maskBits, minAffinitySize)`. -/
def isHintPreferred (maskBits : List ℤ) (minAffinitySize : ℕ) : Bool :=
  maskBits.length == minAffinitySize

/-! ## `calculateHints` -/

/-- The free and the allocatable size of each requested resource over a mask's nodes,
`totalFreeSize` and `totalAllocatableSize` of `calculateHints`. -/
structure Totals where
  totalFreeSize : ResourceName → ℕ
  totalAllocatableSize : ResourceName → ℕ

/-- One node of `calculateHints`' loop over a mask's nodes: `none` when the callback returns
early, since a node used already, alone or with another group, cannot be in a multi-NUMA mask;
otherwise the totals with the node's tables added. -/
def addNodeSizes (machineState : NUMANodeMap) (requestedResources : RequestedResources)
    (maskBits : List ℤ) (singleNUMAHint : Bool) (totals : Totals) (nodeID : ℤ) :
    Except Failure (Option Totals) :=
  match machineState.lookup nodeID with
  | none => throw .panic
  | some nodeState =>
    if !singleNUMAHint && decide (nodeState.numberOfAssignments > 0) &&
        (nodeState.cells.length == 1 || !areGroupsEqual nodeState.cells maskBits) then
      pure none
    else
      some <$> requestedResources.keys.foldlM (fun totals resourceName => do
        let table ← memoryTable machineState nodeID resourceName
        pure ⟨addSize totals.totalFreeSize resourceName table.free,
          addSize totals.totalAllocatableSize resourceName table.allocatable⟩) totals

/-- `calculateHints`' loop over a mask's nodes; once it has returned, the rest is skipped. -/
def maskSizes (machineState : NUMANodeMap) (requestedResources : RequestedResources)
    (maskBits : List ℤ) (singleNUMAHint : Bool) : Except Failure (Option Totals) :=
  maskBits.foldlM (fun totals nodeID =>
    match totals with
    | none => pure none
    | some totals => addNodeSizes machineState requestedResources maskBits singleNUMAHint totals nodeID)
    (some ⟨fun _ => 0, fun _ => 0⟩)

/-- The hints of each resource, as `calculateHints` collects them. -/
abbrev Hints := AList (fun _ : ResourceName => List MergedHint)

/-- The callback `calculateHints` passes to `IterateBitMasks`, on one mask, with the state it
closes over: the hints so far and `minAffinitySize`. -/
def hintsCallback (machineState : NUMANodeMap) (requestedResources : RequestedResources)
    (state : Hints × ℕ) (mask : Option BitMask) : Except Failure (Hints × ℕ) := do
  let (hints, minAffinitySize) := state
  -- a `nil` mask: `mask.GetBits()` panics
  let some mask := mask | throw .panic
  let maskBits := mask.getBits
  let singleNUMAHint := maskBits.length == 1
  -- a node grouped with others cannot be used alone
  if singleNUMAHint then
    let some nodeState := machineState.lookup (maskBits.headD 0) | throw .panic
    if nodeState.cells.length > 1 then return state
  let some totals ← maskSizes machineState requestedResources maskBits singleNUMAHint
    | return state
  if requestedResources.entries.any fun e => decide (totals.totalAllocatableSize e.1 < e.2) then
    return state
  let minAffinitySize := if mask.count < minAffinitySize then mask.count else minAffinitySize
  if requestedResources.entries.any fun e => decide (totals.totalFreeSize e.1 < e.2) then
    return (hints, minAffinitySize)
  let hints := requestedResources.keys.foldl (fun hints resourceName =>
    hints.insert resourceName (((hints.lookup resourceName).getD []) ++ [⟨mask, false⟩])) hints
  return (hints, minAffinitySize)

/-- `calculateHints(s, requestedResources)`: every mask of the machine's nodes that can hold the
request, for each requested resource, the narrowest preferred. It reads nothing of the policy. -/
def calculateHints (s : State) (requestedResources : RequestedResources) : Except Failure Hints := do
  let machineState := s.machineState
  let numaNodes := sortInts machineState.keys
  -- `minAffinitySize` starts with all the nodes
  let (hints, minAffinitySize) ← (BitMask.iterateBitMasks numaNodes).foldlM
    (hintsCallback machineState requestedResources) (∅, numaNodes.length)
  -- the loop that sets `Preferred` only changes the hints of a resource that has some
  return requestedResources.keys.foldl (fun hints resourceName =>
    match hints.lookup resourceName with
    | none => hints
    | some resourceHints =>
      hints.replace resourceName (resourceHints.map fun hint =>
        { hint with preferred := isHintPreferred hint.numaNodeAffinity.getBits minAffinitySize }))
    hints

/-! ## Choosing among the hints -/

/-- The loop body of `findBestHint`: the hint replaces the best so far when there is none yet,
when it is preferred and the best is not, or when it is as preferred and narrower. -/
def betterHint (bestHint : TopologyHint) (hint : MergedHint) : TopologyHint :=
  match bestHint.numaNodeAffinity with
  | none => hint.toTopologyHint
  | some bestMask =>
    if hint.preferred && !bestHint.preferred then hint.toTopologyHint
    else if hint.preferred == bestHint.preferred && hint.numaNodeAffinity.isNarrowerThan bestMask then
      hint.toTopologyHint
    else bestHint

/-- `findBestHint(hints)`: the preferred hint of fewest NUMA nodes; with no hint, a `nil` mask. -/
def findBestHint (hints : List MergedHint) : TopologyHint := hints.foldl betterHint ⟨none, false⟩

/-- `getDefaultHint(s, requestedResources)`: the best of the hints for regular memory. -/
def getDefaultHint (s : State) (requestedResources : RequestedResources) :
    Except Failure TopologyHint := do
  let hints ← calculateHints s requestedResources
  if hints.entries.length < 1 then
    throw (.error "[memorymanager] failed to get the default NUMA affinity, no NUMA nodes with enough memory is available")
  -- the hints of every memory type are the same, so only regular memory is looked at
  return findBestHint ((hints.lookup .memory).getD [])

/-- `isAffinitySatisfyRequest(machineState, mask, requestedResources)`: the mask's nodes have
enough free memory of every requested resource. -/
def isAffinitySatisfyRequest (machineState : NUMANodeMap) (mask : BitMask)
    (requestedResources : RequestedResources) : Except Failure Bool := do
  let totalFreeSize ← mask.getBits.foldlM (fun totalFreeSize nodeID =>
    requestedResources.keys.foldlM (fun totalFreeSize resourceName => do
      let table ← memoryTable machineState nodeID resourceName
      pure (addSize totalFreeSize resourceName table.free)) totalFreeSize) fun _ => 0
  return requestedResources.entries.all fun e => decide (e.2 ≤ totalFreeSize e.1)

/-- The loop of `isHintInGroup` over `group[i:]`, with `hintIndex` the number of the hint's
elements matched so far. -/
def isHintInGroupLoop (hint : List ℤ) : List ℤ → ℕ → Bool
  | [], _ => false
  | g :: group, hintIndex =>
    if hintIndex = hint.length then true
    else if hint[hintIndex]? ≠ some g then isHintInGroupLoop hint group hintIndex
    else isHintInGroupLoop hint group (hintIndex + 1)

/-- `isHintInGroup(hint, group)`. -/
def isHintInGroup (hint group : List ℤ) : Bool := isHintInGroupLoop (sortInts hint) (sortInts group) 0

/-- `extendTopologyManagerHint(s, requestedResources, mask)`: the best of the hints for regular
memory whose nodes hold the mask's, by `isHintInGroup`. -/
def extendTopologyManagerHint (s : State) (requestedResources : RequestedResources)
    (mask : BitMask) : Except Failure TopologyHint := do
  let hints ← calculateHints s requestedResources
  let filteredHints := ((hints.lookup .memory).getD []).filter fun hint =>
    isHintInGroup mask.getBits hint.numaNodeAffinity.getBits
  if filteredHints.length < 1 then
    throw (.error "[memorymanager] failed to find NUMA nodes to extend the current topology hint")
  return findBestHint filteredHints

/-! ## What `findBestHint` and `isHintInGroup` compute -/

/-- Past the first hint, the loop of `findBestHint` is `keepLower` for the order of hints. -/
theorem betterHint_toTopologyHint (bestHint hint : MergedHint) :
    betterHint bestHint.toTopologyHint hint =
      (Best.keepLower MergedHint.score bestHint hint).toTopologyHint := by
  simp only [betterHint, MergedHint.toTopologyHint, Best.keepLower, ← MergedHint.lt_iff_score,
    MergedHint.lt_iff_preferred]
  rcases hint with ⟨mask, _ | _⟩ <;> rcases bestHint with ⟨bestMask, _ | _⟩ <;>
    by_cases hn : mask.isNarrowerThan bestMask = true <;> simp [hn]

theorem findBestHint_cons (hint : MergedHint) (hints : List MergedHint) :
    findBestHint (hint :: hints) =
      (hints.foldl (Best.keepLower MergedHint.score) hint).toTopologyHint := by
  rw [findBestHint, List.foldl_cons]
  show hints.foldl betterHint hint.toTopologyHint = _
  induction hints generalizing hint with
  | nil => rfl
  | cons h hints ih => rw [List.foldl_cons, List.foldl_cons, betterHint_toTopologyHint, ih]

/-- **`findBestHint` returns the least hint**: preferred if any is, then of fewest nodes, then of
the lowest mask. -/
theorem findBestHint_isLeast {hints : List MergedHint} (h : hints ≠ []) :
    ∃ best ∈ hints, findBestHint hints = best.toTopologyHint ∧ ∀ hint ∈ hints, best ≤ hint := by
  obtain ⟨first, rest, rfl⟩ := List.exists_cons_of_ne_nil h
  refine ⟨rest.foldl (Best.keepLower MergedHint.score) first,
    Best.foldl_keepLower_mem _ first rest, findBestHint_cons first rest, fun hint hmem => ?_⟩
  exact MergedHint.le_iff_score.mpr (Best.foldl_keepLower_le _ first rest hint hmem)

theorem sortInts_perm (l : List ℤ) : (sortInts l).Perm l := List.perm_insertionSort _ l

theorem sortInts_eq_nil {l : List ℤ} : sortInts l = [] ↔ l = [] := by
  rw [← List.length_eq_zero_iff, (sortInts_perm l).length_eq, List.length_eq_zero_iff]

/-- The loop of `isHintInGroup` is `greedyMatch` on what is left of the hint. -/
theorem isHintInGroupLoop_eq (hint : List ℤ) :
    ∀ (group : List ℤ) (hintIndex : ℕ), hintIndex ≤ hint.length →
      isHintInGroupLoop hint group hintIndex = Best.greedyMatch (hint.drop hintIndex) group := by
  intro group
  induction group with
  | nil =>
    intro hintIndex _
    cases hint.drop hintIndex <;> rfl
  | cons g group ih =>
    intro hintIndex hk
    unfold isHintInGroupLoop
    by_cases hend : hintIndex = hint.length
    · subst hend
      simp [Best.greedyMatch]
    have hlt : hintIndex < hint.length := by omega
    rw [if_neg hend, List.drop_eq_getElem_cons hlt, List.getElem?_eq_getElem hlt, Best.greedyMatch]
    by_cases hg : g = hint[hintIndex]
    · rw [if_neg (by simp [hg]), if_pos hg, ih (hintIndex + 1) hlt]
    · rw [if_pos (by simp [Ne.symm hg]), if_neg hg, ih hintIndex hk, List.drop_eq_getElem_cons hlt]

/-- **What `isHintInGroup` decides**: that the sorted hint is a sublist of the sorted group
without its largest node. -/
theorem isHintInGroup_iff (hint group : List ℤ) :
    isHintInGroup hint group = true ↔
      group ≠ [] ∧ (sortInts hint).Sublist (sortInts group).dropLast := by
  rw [isHintInGroup, isHintInGroupLoop_eq _ _ 0 (Nat.zero_le _), List.drop_zero,
    Best.greedyMatch_iff, ne_eq, ne_eq, sortInts_eq_nil]

/-- So no group is in itself. -/
theorem isHintInGroup_self (group : List ℤ) : isHintInGroup group group = false := by
  rw [Bool.eq_false_iff, ne_eq, isHintInGroup_iff]
  rintro ⟨hne, h⟩
  have hle := h.length_le
  have hpos : 0 < (sortInts group).length := List.length_pos_iff.mpr (mt sortInts_eq_nil.mp hne)
  rw [List.length_dropLast] at hle
  omega

end Kubernetes.MemoryManager
