import Kubernetes.MemoryManager.Hints

/-!
# The static policy: `Allocate`, `RemoveContainer` and `validateState`

The three calls of the memory manager's static policy that change or check the state.

* `allocate` chooses the NUMA nodes of a Guaranteed container (`chooseMask`: the topology
  manager's affinity, or the default hint, extended when its nodes have too little free memory)
  and reserves each requested resource greedily on those nodes in increasing order
  (`reserveBlocks`), counting the block on each node and recording the group.
* `removeContainer` gives back each block greedily from the `Reserved` counters of its nodes, in
  the same order (`releaseBlocks`), whichever container's memory they hold.
* `validateState`, run by `Start` after a restart, replays the recorded blocks onto the default
  machine state in the order of the assignments and compares the result with the stored machine
  state.

`reserve` and `release` are the greedy step on one memory table. The code changes the machine
state through pointers into its maps; the model writes the changed entry back (`AList.insert`),
which Go's maps, whose order is not observed, cannot tell apart.
-/

namespace Kubernetes.MemoryManager

open TopologyManager

/-- `v1qos.GetPodQOS(pod)`. -/
inductive PodQOSClass
  | guaranteed
  | burstable
  | bestEffort
  deriving DecidableEq

/-- A pod, as the policy reads it: its UID and its QoS class, which `GetPodQOS` computes from the
requests and limits of all its containers. -/
structure Pod where
  uid : String
  qosClass : PodQOSClass

/-- A container, as the policy reads it: its name and its requests, each given by what
`Quantity.AsInt64()` returns (`none` when the quantity does not fit in an `int64`). -/
structure Container where
  name : String
  requests : AList (fun _ : ResourceName => Option ℤ)

/-- `getRequestedResources(container)`: the requests of memory and huge pages, as `uint64`s. -/
def getRequestedResources (container : Container) : Except Failure RequestedResources :=
  container.requests.entries.foldlM (fun requestedResources e =>
    if e.1 ≠ .memory ∧ !e.1.isHugePages then pure requestedResources
    else match e.2 with
      | none => throw (.error "[memorymanager] failed to represent quantity as int64")
      | some requestedSize => pure (requestedResources.insert e.1 (Go.toUnsigned 64 requestedSize)))
    ∅

/-- `staticPolicy`: the machine's NUMA nodes (`machineInfo.Topology`), the memory reserved for the
system, and the topology manager's store, read through `GetAffinity(podUID, containerName)`. -/
structure StaticPolicy where
  topology : List Node
  systemReserved : SystemReservedMemory
  affinity : String → String → TopologyHint

/-- `NewPolicyStatic(machineInfo, reserved, affinity)`: some regular memory must be reserved. -/
def newPolicyStatic (topology : List Node) (reserved : SystemReservedMemory)
    (affinity : String → String → TopologyHint) : Except Failure StaticPolicy :=
  let totalSystemReserved := reserved.entries.foldl (fun totalSystemReserved node =>
    match node.2.lookup .memory with
    | none => totalSystemReserved
    | some size => Go.toUnsigned 64 (totalSystemReserved + size)) 0
  if totalSystemReserved ≤ 0 then throw (.error "[memorymanager] you should specify the system reserved memory")
  else pure ⟨topology, reserved, affinity⟩

/-- `p.getDefaultMachineState()`. -/
def StaticPolicy.getDefaultMachineState (p : StaticPolicy) : NUMANodeMap :=
  MemoryManager.getDefaultMachineState p.topology p.systemReserved

/-! ## The greedy step on one memory table -/

/-- Take what is left of a request from a table's free memory: all of it when the table has
enough, otherwise all the table has; with what is still to take. -/
def reserve (table : MemoryTable) (requestedSize : ℕ) : MemoryTable × ℕ :=
  if table.free ≤ 0 then (table, requestedSize)
  else if table.free ≥ requestedSize then
    ({ table with
        reserved := Go.toUnsigned 64 (table.reserved + requestedSize)
        free := table.free - requestedSize }, 0)
  else
    ({ table with reserved := Go.toUnsigned 64 (table.reserved + table.free), free := 0 },
      requestedSize - table.free)

/-- Give back what is left of a released size from a table's reserved memory. -/
def release (table : MemoryTable) (releasedSize : ℕ) : MemoryTable × ℕ :=
  if table.reserved = 0 then (table, releasedSize)
  else if table.reserved < releasedSize then
    ({ table with free := Go.toUnsigned 64 (table.free + table.reserved), reserved := 0 },
      releasedSize - table.reserved)
  else
    ({ table with
        free := Go.toUnsigned 64 (table.free + releasedSize)
        reserved := table.reserved - releasedSize }, 0)

/-- A node's state with one of its tables replaced. -/
def NUMANodeState.setTable (nodeState : NUMANodeState) (resourceName : ResourceName)
    (table : MemoryTable) : NUMANodeState :=
  { nodeState with memoryMap := nodeState.memoryMap.insert resourceName table }

/-! ## `Allocate` -/

/-- One node of `Allocate`'s loop over a block's nodes: count the block, record the group, and
take what is left of the request from the node. -/
def reserveOnNode (maskBits : List ℤ) (resourceName : ResourceName)
    (acc : NUMANodeMap × ℕ) (nodeID : ℤ) : Except Failure (NUMANodeMap × ℕ) :=
  let (machineState, requestedSize) := acc
  match machineState.lookup nodeID with
  | none => throw .panic
  | some nodeState =>
    let nodeState :=
      { nodeState with numberOfAssignments := nodeState.numberOfAssignments + 1, cells := maskBits }
    -- every node of the mask is counted, also once the request is met
    if requestedSize = 0 then pure (machineState.insert nodeID nodeState, 0)
    else
      match nodeState.memoryMap.lookup resourceName with
      | none => throw .panic
      | some table =>
        let (table, requestedSize) := reserve table requestedSize
        pure (machineState.insert nodeID (nodeState.setTable resourceName table), requestedSize)

/-- `Allocate`'s loop over the requested resources: one block each, on the mask's nodes. -/
def reserveBlocks (maskBits : List ℤ) (requestedResources : RequestedResources)
    (machineState : NUMANodeMap) : Except Failure (NUMANodeMap × List Block) :=
  requestedResources.entries.foldlM (fun acc e => do
    let (machineState, containerBlocks) := acc
    let (machineState, _) ← maskBits.foldlM (reserveOnNode maskBits e.1) (machineState, e.2)
    pure (machineState, containerBlocks ++ [⟨maskBits, e.1, e.2⟩]))
    (machineState, [])

/-- A hint's mask, dereferenced. -/
def maskOf (hint : TopologyHint) : Except Failure BitMask :=
  match hint.numaNodeAffinity with
  | none => throw .panic
  | some mask => pure mask

/-- The nodes `Allocate` reserves on: the topology manager's affinity, or the default hint when
it has none, extended when its nodes have too little free memory. -/
def chooseMask (p : StaticPolicy) (s : State) (pod : Pod) (container : Container)
    (requestedResources : RequestedResources) : Except Failure BitMask := do
  let hint := p.affinity pod.uid container.name
  -- the topology manager returned no affinity: take the default one
  let bestHint ← match hint.numaNodeAffinity with
    | some _ => pure hint
    | none => do
      let defaultHint ← getDefaultHint s requestedResources
      if !defaultHint.preferred && hint.preferred then
        throw (.error "[memorymanager] failed to find the default preferred hint")
      pure defaultHint
  let mask ← maskOf bestHint
  -- the affinity does not hold the request: extend it
  if !(← isAffinitySatisfyRequest s.machineState mask requestedResources) then
    let extendedHint ← extendTopologyManagerHint s requestedResources mask
    if !extendedHint.preferred && bestHint.preferred then
      throw (.error "[memorymanager] failed to find the extended preferred hint")
    maskOf extendedHint
  else pure mask

/-- `Allocate(s, pod, container)`: only for a Guaranteed pod, and only once per container. -/
def allocate (p : StaticPolicy) (s : State) (pod : Pod) (container : Container) :
    Except Failure State := do
  if pod.qosClass ≠ .guaranteed then return s
  if (s.getMemoryBlocks pod.uid container.name).isSome then return s
  let requestedResources ← getRequestedResources container
  let mask ← chooseMask p s pod container requestedResources
  let (machineState, containerBlocks) ←
    reserveBlocks mask.getBits requestedResources s.machineState
  return (s.setMachineState machineState).setMemoryBlocks pod.uid container.name containerBlocks

/-! ## `RemoveContainer` -/

/-- One node of `RemoveContainer`'s loop over a block's nodes: uncount the block, forget the
group once the node holds no block, and give back what is left of the block from the node. -/
def releaseOnNode (resourceName : ResourceName) (acc : NUMANodeMap × ℕ) (nodeID : ℤ) :
    Except Failure (NUMANodeMap × ℕ) :=
  let (machineState, releasedSize) := acc
  match machineState.lookup nodeID with
  | none => throw .panic
  | some nodeState =>
    let numberOfAssignments := nodeState.numberOfAssignments - 1
    let nodeState := { nodeState with
      numberOfAssignments,
      cells := if numberOfAssignments = 0 then [nodeID] else nodeState.cells }
    if releasedSize = 0 then pure (machineState.insert nodeID nodeState, 0)
    else
      match nodeState.memoryMap.lookup resourceName with
      | none => throw .panic
      | some table =>
        let (table, releasedSize) := release table releasedSize
        pure (machineState.insert nodeID (nodeState.setTable resourceName table), releasedSize)

/-- `RemoveContainer`'s loop over the container's blocks. -/
def releaseBlocks (blocks : List Block) (machineState : NUMANodeMap) :
    Except Failure NUMANodeMap :=
  blocks.foldlM (fun machineState b => do
    let (machineState, _) ← b.numaAffinity.foldlM (releaseOnNode b.type) (machineState, b.size)
    pure machineState) machineState

/-- `RemoveContainer(s, podUID, containerName)`. It reads nothing of the policy. -/
def removeContainer (s : State) (podUID containerName : String) : Except Failure State :=
  match s.getMemoryBlocks podUID containerName with
  | none => pure s
  | some blocks => do
    let s := s.delete podUID containerName
    let machineState ← releaseBlocks blocks s.machineState
    return s.setMachineState machineState

/-! ## `validateState` -/

/-- One node of `validateState`'s replay of a block: as `Allocate` does, except that a missing
node or table is an error, and the table is looked up also once the request is met. -/
def replayOnNode (pod containerName : String) (b : Block) (acc : NUMANodeMap × ℕ) (nodeID : ℤ) :
    Except Failure (NUMANodeMap × ℕ) :=
  let (expectedMachineState, requestedSize) := acc
  match expectedMachineState.lookup nodeID with
  | none => throw (.error ("[memorymanager] (pod: " ++ pod ++ ", container: " ++ containerName ++
      ") the memory assignment uses the NUMA that does not exist"))
  | some nodeState =>
    let nodeState := { nodeState with
      numberOfAssignments := nodeState.numberOfAssignments + 1, cells := b.numaAffinity }
    match nodeState.memoryMap.lookup b.type with
    | none => throw (.error ("[memorymanager] (pod: " ++ pod ++ ", container: " ++ containerName ++
        ") the memory assignment uses memory resource that does not exist"))
    | some table =>
      if requestedSize = 0 then pure (expectedMachineState.insert nodeID nodeState, 0)
      else
        let (table, requestedSize) := reserve table requestedSize
        pure (expectedMachineState.insert nodeID (nodeState.setTable b.type table), requestedSize)

/-- `validateState`'s replay of every recorded block, in the order of the assignments. -/
def replayAssignments (memoryAssignments : ContainerMemoryAssignments)
    (expectedMachineState : NUMANodeMap) : Except Failure NUMANodeMap :=
  memoryAssignments.entries.foldlM (fun expectedMachineState pod =>
    pod.2.entries.foldlM (fun expectedMachineState container =>
      container.2.foldlM (fun expectedMachineState b => do
        let (expectedMachineState, _) ←
          b.numaAffinity.foldlM (replayOnNode pod.1 container.1 b) (expectedMachineState, b.size)
        pure expectedMachineState) expectedMachineState) expectedMachineState)
    expectedMachineState

/-- `areMachineStatesEqual(ms1, ms2)`: the same nodes, each with the same number of assignments,
the same group and the same tables. -/
def areMachineStatesEqual (ms1 ms2 : NUMANodeMap) : Bool :=
  ms1.entries.length == ms2.entries.length &&
    ms1.entries.all fun node =>
      match ms2.lookup node.1 with
      | none => false
      | some nodeState2 =>
        node.2.numberOfAssignments == nodeState2.numberOfAssignments &&
          areGroupsEqual node.2.cells nodeState2.cells &&
          node.2.memoryMap.entries.length == nodeState2.memoryMap.entries.length &&
          node.2.memoryMap.entries.all fun e => nodeState2.memoryMap.lookup e.1 == some e.2

/-- `validateState(s)`: an empty machine state is set to the default one, when no container has
memory; any other must be what replaying the containers' memory onto the default state gives. -/
def validateState (p : StaticPolicy) (s : State) : Except Failure State := do
  let machineState := s.machineState
  let memoryAssignments := s.assignments
  if machineState.entries.length = 0 then
    if memoryAssignments.entries.length ≠ 0 then
      throw (.error "[memorymanager] machine state can not be empty when it has memory assignments")
    return s.setMachineState p.getDefaultMachineState
  let expectedMachineState ← replayAssignments memoryAssignments p.getDefaultMachineState
  if !areMachineStatesEqual machineState expectedMachineState then
    throw (.error "[memorymanager] the expected machine state is different from the real one")
  return s

end Kubernetes.MemoryManager
