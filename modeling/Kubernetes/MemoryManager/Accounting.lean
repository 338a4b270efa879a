import Kubernetes.MemoryManager.PolicyStatic
import Kubernetes.Foundations.Reach

/-!
# What the static policy keeps, and what it loses, across calls

The kubelet calls `Allocate` and `RemoveContainer` on the static policy as containers come and
go, and `Start` (`validateState`) when it restarts.

* Every memory table stays balanced: its reserved and its free memory add up to what containers
  may take (`MemoryTable.Balanced`). The greedy steps `reserve` and `release` move memory from one
  counter to the other, and `Allocate`, `RemoveContainer` and `validateState` keep the balance of
  the whole machine state (`NUMANodeMap.Balanced`), so it holds in every state reached from one
  `Start` accepted (`reachable_balanced`), and no counter wraps.
* The split of the reserved memory between the nodes of a group is not kept: `RemoveContainer`
  gives a block back from the first nodes of its group, which may hold another container's memory,
  while the replay of `validateState` puts each remaining block back on the first nodes. After
  two containers share two nodes and the first one goes, `Start` refuses the state
  (`validateState_rejects_after_removeContainer`).
* `Allocate` refuses an affinity that some hint it offered contains, when the affinity holds the
  hint's largest node (`allocate_rejects_affinity_within_hint`): `isHintInGroup` is the test of
  containment, and it is not one (`isHintInGroup_iff`).
-/

namespace Kubernetes.MemoryManager

open TopologyManager

/-! ## Balanced tables -/

/-- A table whose reserved and free memory add up to what containers may take, a `uint64`. -/
def MemoryTable.Balanced (table : MemoryTable) : Prop :=
  table.reserved + table.free = table.allocatable ∧ table.allocatable < 2 ^ 64

/-- Every table of a memory map balanced. -/
def TablesBalanced (memoryMap : AList (fun _ : ResourceName => MemoryTable)) : Prop :=
  ∀ resourceName table, memoryMap.lookup resourceName = some table → table.Balanced

/-- Every table of a node balanced. -/
def NUMANodeState.Balanced (nodeState : NUMANodeState) : Prop := TablesBalanced nodeState.memoryMap

/-- Every table of every node balanced. -/
def NUMANodeMap.Balanced (machineState : NUMANodeMap) : Prop :=
  ∀ nodeID nodeState, machineState.lookup nodeID = some nodeState → nodeState.Balanced

theorem MemoryTable.Balanced.reserve {table : MemoryTable} (h : table.Balanced)
    (requestedSize : ℕ) : (reserve table requestedSize).1.Balanced := by
  obtain ⟨hsum, hlt⟩ := h
  unfold MemoryManager.reserve
  split_ifs with hfree henough
  · exact ⟨hsum, hlt⟩
  · -- the request fits in the free memory, so the reserved memory does not wrap
    refine ⟨?_, hlt⟩
    dsimp only
    rw [Go.toUnsigned_natCast_add (by omega)]
    omega
  · refine ⟨?_, hlt⟩
    dsimp only
    rw [Go.toUnsigned_natCast_add (by omega)]
    omega

theorem MemoryTable.Balanced.release {table : MemoryTable} (h : table.Balanced)
    (releasedSize : ℕ) : (release table releasedSize).1.Balanced := by
  obtain ⟨hsum, hlt⟩ := h
  unfold MemoryManager.release
  split_ifs with hzero hless
  · exact ⟨hsum, hlt⟩
  · refine ⟨?_, hlt⟩
    dsimp only
    rw [Go.toUnsigned_natCast_add (by omega)]
    omega
  · -- what is released was reserved, so the free memory does not wrap
    refine ⟨?_, hlt⟩
    dsimp only
    rw [Go.toUnsigned_natCast_add (by omega)]
    omega

theorem MemoryTable.initial_balanced {totalMemSize systemReserved allocatable : ℕ}
    (h : allocatable < 2 ^ 64) :
    (MemoryTable.initial totalMemSize systemReserved allocatable).Balanced :=
  ⟨Nat.zero_add _, h⟩

theorem TablesBalanced.insert {memoryMap : AList (fun _ : ResourceName => MemoryTable)}
    (h : TablesBalanced memoryMap) {table : MemoryTable} (ht : table.Balanced)
    (resourceName : ResourceName) : TablesBalanced (memoryMap.insert resourceName table) := by
  intro r t hl
  by_cases hr : r = resourceName
  · subst hr
    rw [AList.lookup_insert, Option.some.injEq] at hl
    exact hl ▸ ht
  · rw [AList.lookup_insert_ne hr] at hl
    exact h r t hl

theorem NUMANodeState.Balanced.setTable {nodeState : NUMANodeState} (h : nodeState.Balanced)
    {table : MemoryTable} (ht : table.Balanced) (resourceName : ResourceName) :
    (nodeState.setTable resourceName table).Balanced :=
  TablesBalanced.insert h ht resourceName

theorem NUMANodeMap.Balanced.insert {machineState : NUMANodeMap} (h : machineState.Balanced)
    {nodeState : NUMANodeState} (hn : nodeState.Balanced) (nodeID : ℤ) :
    NUMANodeMap.Balanced (machineState.insert nodeID nodeState) := by
  intro n ns hl
  by_cases hnode : n = nodeID
  · subst hnode
    rw [AList.lookup_insert, Option.some.injEq] at hl
    exact hl ▸ hn
  · rw [AList.lookup_insert_ne hnode] at hl
    exact h n ns hl

/-- Counting a block on a node, or forgetting its group, leaves the tables alone. -/
theorem NUMANodeState.Balanced.counts {nodeState : NUMANodeState} (h : nodeState.Balanced)
    (numberOfAssignments : ℤ) (cells : List ℤ) :
    ({ nodeState with numberOfAssignments, cells } : NUMANodeState).Balanced := h

/-! ## The loops keep the balance -/

section Loops

variable {machineState : NUMANodeMap}

theorem NUMANodeMap.Balanced.reserveOnNode {maskBits : List ℤ} {resourceName : ResourceName}
    {requestedSize : ℕ} {nodeID : ℤ} {acc : NUMANodeMap × ℕ} (h : machineState.Balanced)
    (hok : reserveOnNode maskBits resourceName (machineState, requestedSize) nodeID = .ok acc) :
    NUMANodeMap.Balanced acc.1 := by
  unfold MemoryManager.reserveOnNode at hok
  dsimp only at hok
  split at hok
  · cases hok
  rename_i nodeState hnode
  have hbal : nodeState.Balanced := h nodeID nodeState hnode
  split at hok
  · cases hok
    exact h.insert (hbal.counts _ _) nodeID
  split at hok
  · cases hok
  rename_i table htable
  cases hok
  exact h.insert ((hbal.counts _ _).setTable ((hbal resourceName table htable).reserve _) _) nodeID

theorem NUMANodeMap.Balanced.releaseOnNode {resourceName : ResourceName} {releasedSize : ℕ}
    {nodeID : ℤ} {acc : NUMANodeMap × ℕ} (h : machineState.Balanced)
    (hok : releaseOnNode resourceName (machineState, releasedSize) nodeID = .ok acc) :
    NUMANodeMap.Balanced acc.1 := by
  unfold MemoryManager.releaseOnNode at hok
  dsimp only at hok
  split at hok
  · cases hok
  rename_i nodeState hnode
  have hbal : nodeState.Balanced := h nodeID nodeState hnode
  split at hok
  · cases hok
    exact h.insert (hbal.counts _ _) nodeID
  split at hok
  · cases hok
  rename_i table htable
  cases hok
  exact h.insert ((hbal.counts _ _).setTable ((hbal resourceName table htable).release _) _) nodeID

theorem NUMANodeMap.Balanced.replayOnNode {pod containerName : String} {b : Block}
    {requestedSize : ℕ} {nodeID : ℤ} {acc : NUMANodeMap × ℕ} (h : machineState.Balanced)
    (hok : replayOnNode pod containerName b (machineState, requestedSize) nodeID = .ok acc) :
    NUMANodeMap.Balanced acc.1 := by
  unfold MemoryManager.replayOnNode at hok
  dsimp only at hok
  split at hok
  · cases hok
  rename_i nodeState hnode
  have hbal : nodeState.Balanced := h nodeID nodeState hnode
  split at hok
  · cases hok
  rename_i table htable
  split at hok
  · cases hok
    exact h.insert (hbal.counts _ _) nodeID
  cases hok
  exact h.insert ((hbal.counts _ _).setTable ((hbal b.type table htable).reserve _) _) nodeID

/-- A loop over a block's nodes keeps the balance when each of its calls does. -/
theorem NUMANodeMap.Balanced.foldlM_onNodes {step : NUMANodeMap × ℕ → ℤ → Except Failure (NUMANodeMap × ℕ)}
    (hstep : ∀ machineState size nodeID acc, machineState.Balanced →
      step (machineState, size) nodeID = .ok acc → NUMANodeMap.Balanced acc.1)
    {nodes : List ℤ} {size : ℕ} {acc : NUMANodeMap × ℕ} (h : machineState.Balanced)
    (hok : nodes.foldlM step (machineState, size) = .ok acc) : NUMANodeMap.Balanced acc.1 :=
  Reach.foldlM_invariant (fun acc : NUMANodeMap × ℕ => NUMANodeMap.Balanced acc.1)
    (fun acc nodeID acc' _ hb hacc => hstep acc.1 acc.2 nodeID acc' hb hacc) h hok

theorem NUMANodeMap.Balanced.reserveBlocks {maskBits : List ℤ}
    {requestedResources : RequestedResources} {machineState' : NUMANodeMap} {blocks : List Block}
    (h : machineState.Balanced)
    (hok : reserveBlocks maskBits requestedResources machineState = .ok (machineState', blocks)) :
    machineState'.Balanced := by
  refine Reach.foldlM_invariant (fun acc : NUMANodeMap × List Block => NUMANodeMap.Balanced acc.1)
    ?_ h hok
  rintro ⟨ms, containerBlocks⟩ e acc' - hb hstep
  obtain ⟨⟨ms₁, rest⟩, h₁, h₂⟩ := Reach.bind_eq_ok.mp hstep
  cases h₂
  exact hb.foldlM_onNodes (fun _ _ _ _ hb' hs => hb'.reserveOnNode hs) h₁

theorem NUMANodeMap.Balanced.releaseBlocks {blocks : List Block} {machineState' : NUMANodeMap}
    (h : machineState.Balanced) (hok : releaseBlocks blocks machineState = .ok machineState') :
    machineState'.Balanced := by
  refine Reach.foldlM_invariant NUMANodeMap.Balanced ?_ h hok
  rintro ms b ms' - hb hstep
  obtain ⟨⟨ms₁, rest⟩, h₁, h₂⟩ := Reach.bind_eq_ok.mp hstep
  cases h₂
  exact hb.foldlM_onNodes (fun _ _ _ _ hb' hs => hb'.releaseOnNode hs) h₁

theorem NUMANodeMap.Balanced.replayAssignments {memoryAssignments : ContainerMemoryAssignments}
    {machineState' : NUMANodeMap} (h : machineState.Balanced)
    (hok : replayAssignments memoryAssignments machineState = .ok machineState') :
    machineState'.Balanced := by
  -- three loops: over the pods, their containers, and the containers' blocks
  refine Reach.foldlM_invariant NUMANodeMap.Balanced ?_ h hok
  rintro ms pod ms' - hb hpod
  refine Reach.foldlM_invariant NUMANodeMap.Balanced ?_ hb hpod
  rintro ms container ms' - hb hcontainer
  refine Reach.foldlM_invariant NUMANodeMap.Balanced ?_ hb hcontainer
  rintro ms b ms' - hb hblock
  obtain ⟨⟨ms₁, rest⟩, h₁, h₂⟩ := Reach.bind_eq_ok.mp hblock
  cases h₂
  exact hb.foldlM_onNodes (fun _ _ _ _ hb' hs => hb'.replayOnNode hs) h₁

end Loops

/-! ## The default machine state -/

theorem foldl_addHugepages_balanced (systemReserved : SystemReservedMemory) (nodeID : ℤ) :
    ∀ (hugePages : List HugePagesInfo) (acc : AList (fun _ : ResourceName => MemoryTable) × Option ℕ),
      TablesBalanced acc.1 →
        TablesBalanced (hugePages.foldl (addHugepages systemReserved nodeID) acc).1 := by
  intro hugePages
  induction hugePages with
  | nil => exact fun _ h => h
  | cons hugepage hugePages ih =>
    intro acc h
    exact ih _ (h.insert (MemoryTable.initial_balanced (Go.toUnsigned_lt _ _)) _)

theorem defaultNodeState_balanced (systemReserved : SystemReservedMemory) (node : Node) :
    (defaultNodeState systemReserved node).Balanced := by
  unfold defaultNodeState
  rcases hf : node.hugePages.foldl (addHugepages systemReserved node.id) (∅, none) with
    ⟨memoryMap, nodeHugepages⟩
  have hmap : TablesBalanced memoryMap := by
    have := foldl_addHugepages_balanced systemReserved node.id node.hugePages (∅, none)
      (fun _ _ h => by simp at h)
    rwa [hf] at this
  -- what containers may take of regular memory is a `uint64`, with or without huge pages
  cases nodeHugepages <;> exact hmap.insert (MemoryTable.initial_balanced (Go.toUnsigned_lt _ _)) _

theorem getDefaultMachineState_balanced (topology : List Node)
    (systemReserved : SystemReservedMemory) :
    (getDefaultMachineState topology systemReserved).Balanced := by
  unfold getDefaultMachineState
  suffices h : ∀ (nodes : List Node) (machineState : NUMANodeMap), machineState.Balanced →
      NUMANodeMap.Balanced (nodes.foldl (fun machineState node =>
        machineState.insert node.id (defaultNodeState systemReserved node)) machineState) from
    h topology ∅ (fun _ _ hl => by simp at hl)
  intro nodes
  induction nodes with
  | nil => exact fun _ h => h
  | cons node nodes ih =>
    exact fun machineState h => ih _ (h.insert (defaultNodeState_balanced systemReserved node) _)

/-! ## The calls keep the balance -/

section Calls

variable {p : StaticPolicy} {s s' : State}

theorem NUMANodeMap.Balanced.allocate (h : s.machineState.Balanced) {pod : Pod}
    {container : Container} (hok : allocate p s pod container = .ok s') :
    s'.machineState.Balanced := by
  unfold MemoryManager.allocate at hok
  split at hok
  · cases hok
    exact h
  split at hok
  · cases hok
    exact h
  obtain ⟨requestedResources, -, hok⟩ := Reach.bind_eq_ok.mp hok
  obtain ⟨mask, -, hok⟩ := Reach.bind_eq_ok.mp hok
  obtain ⟨⟨machineState, containerBlocks⟩, hreserve, hok⟩ := Reach.bind_eq_ok.mp hok
  cases hok
  exact h.reserveBlocks hreserve

theorem NUMANodeMap.Balanced.removeContainer (h : s.machineState.Balanced)
    {podUID containerName : String} (hok : removeContainer s podUID containerName = .ok s') :
    s'.machineState.Balanced := by
  unfold MemoryManager.removeContainer at hok
  split at hok
  · cases hok
    exact h
  obtain ⟨machineState, hrelease, hok⟩ := Reach.bind_eq_ok.mp hok
  cases hok
  rw [State.delete_machineState] at hrelease
  exact h.releaseBlocks hrelease

/-- States that `areMachineStatesEqual` calls equal have the same tables, so the first is balanced
when the second is. -/
theorem NUMANodeMap.Balanced.of_areMachineStatesEqual {ms1 ms2 : NUMANodeMap}
    (heq : areMachineStatesEqual ms1 ms2 = true) (h : ms2.Balanced) : ms1.Balanced := by
  intro nodeID nodeState1 hnode resourceName table htable
  have hall := (Bool.and_eq_true_iff.mp heq).2
  have hentry := List.all_eq_true.mp hall ⟨nodeID, nodeState1⟩ (AList.mem_lookup_iff.mp hnode)
  dsimp only at hentry
  split at hentry
  · cases hentry
  rename_i nodeState2 hnode2
  have htables := (Bool.and_eq_true_iff.mp hentry).2
  have htable2 := List.all_eq_true.mp htables ⟨resourceName, table⟩ (AList.mem_lookup_iff.mp htable)
  exact h nodeID nodeState2 hnode2 resourceName table (beq_iff_eq.mp htable2)

/-- **`Start` accepts only balanced states**, and balances an empty one. -/
theorem NUMANodeMap.Balanced.validateState (hok : validateState p s = .ok s') :
    s'.machineState.Balanced := by
  unfold MemoryManager.validateState at hok
  dsimp only at hok
  split at hok
  · split at hok
    · cases hok
    cases hok
    exact getDefaultMachineState_balanced _ _
  obtain ⟨expected, hreplay, hok⟩ := Reach.bind_eq_ok.mp hok
  split at hok
  · cases hok
  rename_i hequal
  cases hok
  have hexp : expected.Balanced :=
    (getDefaultMachineState_balanced _ _).replayAssignments hreplay
  exact hexp.of_areMachineStatesEqual (by simpa using hequal)

end Calls

/-! ## Runs of the policy -/

/-- The calls of the policy that change its state, as the kubelet makes them. -/
inductive Call
  | allocate (pod : Pod) (container : Container)
  | removeContainer (podUID containerName : String)

/-- A call, on a state. -/
def Call.run (p : StaticPolicy) : Call → State → Except Failure State
  | .allocate pod container, s => MemoryManager.allocate p s pod container
  | .removeContainer podUID containerName, s => MemoryManager.removeContainer s podUID containerName

/-- A call that returns without error, and the state it leaves; one that fails changes nothing. -/
def Step (p : StaticPolicy) (call : Call) (s s' : State) : Prop := call.run p s = .ok s'

/-- The states of the policy after `Start` accepted one, and calls that returned. -/
def Reachable (p : StaticPolicy) : State → Prop :=
  Reach.Reachable (fun s => ∃ s₀, validateState p s₀ = .ok s) (Step p)

theorem invariant_balanced (p : StaticPolicy) :
    Reach.Invariant (fun s => ∃ s₀, validateState p s₀ = .ok s) (Step p)
      (fun s => s.machineState.Balanced) where
  init := fun _ ⟨_, h⟩ => NUMANodeMap.Balanced.validateState h
  step := by
    intro call s s' h hstep
    cases call with
    | allocate pod container => exact h.allocate hstep
    | removeContainer podUID containerName => exact h.removeContainer hstep

/-- **No memory counter wraps**: in every state the policy reaches, the reserved and the free
memory of every table add up to what containers may take, a `uint64`. -/
theorem reachable_balanced {p : StaticPolicy} {s : State} (hs : Reachable p s) :
    s.machineState.Balanced :=
  (invariant_balanced p).holds hs

/-! ## Two NUMA nodes -/

/-- A machine of two NUMA nodes of eleven bytes of regular memory. -/
def twoNodes : List Node := [⟨0, 11, []⟩, ⟨1, 11, []⟩]

/-- One byte of regular memory on each of the two nodes reserved for the system. -/
def oneByteReserved : SystemReservedMemory :=
  let oneByte : AList (fun _ : ResourceName => ℕ) :=
    (∅ : AList (fun _ : ResourceName => ℕ)).insert .memory 1
  ((∅ : SystemReservedMemory).insert 0 oneByte).insert 1 oneByte

/-- A container that requests `size` bytes of regular memory. -/
def memoryContainer (name : String) (size : ℤ) : Container :=
  ⟨name, (∅ : AList (fun _ : ResourceName => Option ℤ)).insert .memory (some size)⟩

/-- The topology manager gives the affinity `{1}`, which `calculateHints` offered as part of the
hint `{0, 1}`, the only group that holds the request; `Allocate` fails to extend it, since
`isHintInGroup` does not find `{1}` in `{0, 1}`. -/
theorem allocate_rejects_affinity_within_hint :
    isHintInGroup [1] [0, 1] = false ∧
    (do
      let p ← newPolicyStatic twoNodes oneByteReserved fun _ _ => ⟨some ⟨2, by norm_num⟩, true⟩
      let s ← validateState p ⟨∅, ∅⟩
      let requestedResources ← getRequestedResources (memoryContainer "container" 15)
      let hints ← calculateHints s requestedResources
      pure ((hints.lookup ResourceName.memory).map fun (hints : List MergedHint) =>
        hints.map fun (hint : MergedHint) => (hint.numaNodeAffinity.getBits, hint.preferred))) =
      .ok (some [([0, 1], true)]) ∧
    (do
      let p ← newPolicyStatic twoNodes oneByteReserved fun _ _ => ⟨some ⟨2, by norm_num⟩, true⟩
      let s ← validateState p ⟨∅, ∅⟩
      allocate p s ⟨"pod", .guaranteed⟩ (memoryContainer "container" 15)) =
      .error (.error "[memorymanager] failed to find NUMA nodes to extend the current topology hint") := by
  decide

/-- Two containers of five and ten bytes on the group `{0, 1}`: the state after both is accepted
by `Start`. Once the first goes, node `0` keeps five of the ten bytes reserved, where the replay
of the second container puts all ten, and `Start` refuses the state. -/
theorem validateState_rejects_after_removeContainer :
    (do
      let p ← newPolicyStatic twoNodes oneByteReserved fun _ _ => ⟨some ⟨3, by norm_num⟩, true⟩
      let s ← validateState p ⟨∅, ∅⟩
      let s ← allocate p s ⟨"a", .guaranteed⟩ (memoryContainer "container" 5)
      let s ← allocate p s ⟨"b", .guaranteed⟩ (memoryContainer "container" 10)
      validateState p s).toBool = true ∧
    (do
      let p ← newPolicyStatic twoNodes oneByteReserved fun _ _ => ⟨some ⟨3, by norm_num⟩, true⟩
      let s ← validateState p ⟨∅, ∅⟩
      let s ← allocate p s ⟨"a", .guaranteed⟩ (memoryContainer "container" 5)
      let s ← allocate p s ⟨"b", .guaranteed⟩ (memoryContainer "container" 10)
      let s ← removeContainer s "a" "container"
      let expected ← replayAssignments s.assignments p.getDefaultMachineState
      let stored ← memoryTable s.machineState 0 .memory
      let replayed ← memoryTable expected 0 .memory
      pure (stored.reserved, replayed.reserved)) = .ok (5, 10) ∧
    (do
      let p ← newPolicyStatic twoNodes oneByteReserved fun _ _ => ⟨some ⟨3, by norm_num⟩, true⟩
      let s ← validateState p ⟨∅, ∅⟩
      let s ← allocate p s ⟨"a", .guaranteed⟩ (memoryContainer "container" 5)
      let s ← allocate p s ⟨"b", .guaranteed⟩ (memoryContainer "container" 10)
      let s ← removeContainer s "a" "container"
      validateState p s) =
      .error (.error "[memorymanager] the expected machine state is different from the real one") := by
  decide

end Kubernetes.MemoryManager
