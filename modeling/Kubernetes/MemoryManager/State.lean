import Mathlib
import Kubernetes.Foundations.GoStd

/-!
# The memory manager's state

The kubelet memory manager (`pkg/kubelet/cm/memorymanager/state`) keeps, for each NUMA node, a
table of each memory resource (regular memory and each size of huge pages): its total size, what
the system reserves, what containers may take (`Allocatable`), what they took (`Reserved`) and
what is left (`Free`); how many container blocks use the node; and the group of nodes (`Cells`)
the node is allocated with. Beside it are the memory blocks of each container.

Go maps are `AList`s, in the order Go happens to range over them. The state's getters and setters
copy (`Clone`); the model's values are immutable, so a copy is the value itself. A `uint64` is a
`ℕ` below `2 ^ 64`; the one subtraction that may go below zero, in the default state, wraps as Go's
does (`Go.toUnsigned`).
-/

namespace Kubernetes.MemoryManager

/-- `v1.ResourceName`, as far as the memory manager tells names apart: regular memory, huge pages
of a page size in bytes (`HugePageResourceName` is injective in the size), and the others. -/
inductive ResourceName
  | memory
  | hugepages (pageSize : ℕ)
  | other (name : String)
  deriving DecidableEq

/-- `corehelper.IsHugePageResourceName`. -/
def ResourceName.isHugePages : ResourceName → Bool
  | .hugepages _ => true
  | _ => false

/-- `MemoryTable`. -/
structure MemoryTable where
  totalMemSize : ℕ
  systemReserved : ℕ
  allocatable : ℕ
  reserved : ℕ
  free : ℕ
  deriving DecidableEq

/-- `NUMANodeState`. -/
structure NUMANodeState where
  numberOfAssignments : ℤ
  memoryMap : AList (fun _ : ResourceName => MemoryTable)
  cells : List ℤ
  deriving DecidableEq

/-- `NUMANodeMap`: the state of each NUMA node. -/
abbrev NUMANodeMap := AList (fun _ : ℤ => NUMANodeState)

/-- `Block`: memory of one resource taken on a group of NUMA nodes. -/
structure Block where
  numaAffinity : List ℤ
  type : ResourceName
  size : ℕ
  deriving DecidableEq

/-- `ContainerMemoryAssignments`: the blocks of each container of each pod. -/
abbrev ContainerMemoryAssignments := AList (fun _ : String => AList (fun _ : String => List Block))

/-- `stateMemory`, without its lock. -/
structure State where
  machineState : NUMANodeMap
  assignments : ContainerMemoryAssignments
  deriving DecidableEq

namespace State

/-- `GetMemoryBlocks(podUID, containerName)`: `none` is a `nil` slice. -/
def getMemoryBlocks (s : State) (podUID containerName : String) : Option (List Block) :=
  (s.assignments.lookup podUID).bind (·.lookup containerName)

/-- `SetMemoryBlocks(podUID, containerName, blocks)`. -/
def setMemoryBlocks (s : State) (podUID containerName : String) (blocks : List Block) : State :=
  { s with assignments :=
      s.assignments.insert podUID (((s.assignments.lookup podUID).getD ∅).insert containerName blocks) }

/-- `Delete(podUID, containerName)`: a pod left with no container is deleted too. -/
def delete (s : State) (podUID containerName : String) : State :=
  match s.assignments.lookup podUID with
  | none => s
  | some containers =>
    let containers := containers.erase containerName
    if containers.entries.length = 0 then { s with assignments := s.assignments.erase podUID }
    else { s with assignments := s.assignments.insert podUID containers }

/-- `SetMachineState(memoryMap)`. -/
def setMachineState (s : State) (machineState : NUMANodeMap) : State := { s with machineState }

@[simp] theorem setMemoryBlocks_machineState (s : State) (podUID containerName : String)
    (blocks : List Block) : (s.setMemoryBlocks podUID containerName blocks).machineState =
      s.machineState := rfl

@[simp] theorem delete_machineState (s : State) (podUID containerName : String) :
    (s.delete podUID containerName).machineState = s.machineState := by
  unfold delete
  split
  · rfl
  · dsimp only
    split <;> rfl

@[simp] theorem setMachineState_machineState (s : State) (machineState : NUMANodeMap) :
    (s.setMachineState machineState).machineState = machineState := rfl

end State

/-! ## The machine -/

/-- `cadvisorapi.HugePagesInfo`: a page size in KiB and a number of pages. -/
structure HugePagesInfo where
  pageSize : ℕ
  numPages : ℕ

/-- A `cadvisorapi.Node` of the topology: its id, memory and huge pages. -/
structure Node where
  id : ℤ
  memory : ℕ
  hugePages : List HugePagesInfo

/-- `systemReservedMemory`: what the system reserves of each resource on each node. -/
abbrev SystemReservedMemory := AList (fun _ : ℤ => AList (fun _ : ResourceName => ℕ))

/-- `getResourceSystemReserved(nodeID, resourceName)`. -/
def getResourceSystemReserved (systemReserved : SystemReservedMemory) (nodeID : ℤ)
    (resourceName : ResourceName) : ℕ :=
  ((systemReserved.lookup nodeID).bind (·.lookup resourceName)).getD 0

/-- The table of a resource nothing is reserved from yet. -/
def MemoryTable.initial (totalMemSize systemReserved allocatable : ℕ) : MemoryTable :=
  ⟨totalMemSize, systemReserved, allocatable, 0, allocatable⟩

/-- The loop of `getDefaultMachineState` over a node's huge pages, on one page size: its table,
and the memory it takes, added to `nodeHugepages[node.Id]`. -/
def addHugepages (systemReserved : SystemReservedMemory) (nodeID : ℤ)
    (acc : AList (fun _ : ResourceName => MemoryTable) × Option ℕ) (hugepage : HugePagesInfo) :
    AList (fun _ : ResourceName => MemoryTable) × Option ℕ :=
  let resourceName := ResourceName.hugepages (hugepage.pageSize * 1024)
  let systemReserved := getResourceSystemReserved systemReserved nodeID resourceName
  let totalHugepagesSize := Go.toUnsigned 64 (hugepage.numPages * hugepage.pageSize * 1024)
  let allocatable := Go.toUnsigned 64 ((totalHugepagesSize : ℤ) - systemReserved)
  (acc.1.insert resourceName (.initial totalHugepagesSize systemReserved allocatable),
    some (Go.toUnsigned 64 (acc.2.getD 0 + totalHugepagesSize)))

/-- The loop body of `getDefaultMachineState` for one node: its huge pages first, each taking its
size from regular memory, then regular memory. -/
def defaultNodeState (systemReserved : SystemReservedMemory) (node : Node) : NUMANodeState :=
  let (memoryMap, nodeHugepages) := node.hugePages.foldl (addHugepages systemReserved node.id) (∅, none)
  let memorySystemReserved := getResourceSystemReserved systemReserved node.id .memory
  let allocatable := Go.toUnsigned 64 ((node.memory : ℤ) - memorySystemReserved)
  -- remove the memory the huge pages take
  let allocatable := match nodeHugepages with
    | some allocatedByHugepages => Go.toUnsigned 64 ((allocatable : ℤ) - allocatedByHugepages)
    | none => allocatable
  ⟨0, memoryMap.insert .memory (.initial node.memory memorySystemReserved allocatable), [node.id]⟩

/-- `getDefaultMachineState()`: every node of the topology with nothing reserved. -/
def getDefaultMachineState (topology : List Node) (systemReserved : SystemReservedMemory) :
    NUMANodeMap :=
  topology.foldl (fun machineState node =>
    machineState.insert node.id (defaultNodeState systemReserved node)) ∅

end Kubernetes.MemoryManager
