import Mathlib
import Kubernetes.TopologyManager.Policy
import Kubernetes.Foundations.GoStd

/-!
# The CPU manager's static policy

The kubelet CPU manager (`pkg/kubelet/cm/cpumanager`) gives the containers of Guaranteed pods
that ask for whole CPUs exclusive CPUs. Its state (`state.stateMemory`) is a shared pool, the
default CPU set, and the CPU set of each container of each pod; the static policy
(`policy_static.go`) keeps beside it the set of CPUs reserved for the system, never handed out,
and `cpusToReuse`: the CPUs of a pod's init containers, which its app containers may take again.

* `allocate` (`Allocate`) takes the CPUs of a new container from the pool minus the reserved
  CPUs, plus the pod's reusable CPUs (`allocateCPUs`): first as many as it can on the NUMA nodes
  of the topology manager's hint, then the rest anywhere, each time with `takeByTopology`.
* `removeContainer` (`RemoveContainer`) gives a container's CPUs back to the pool; `removePod`
  does so for every container of a pod, as `removeStaleState` does for a pod no longer active.
* `validateState`, run by `Start`, checks a state read back from the checkpoint, and fills an
  empty one with all the CPUs.

`takeByTopology` (`cpu_assignment.go`) is the topology-aware best fit over sockets, cores and
threads; the model takes it as a parameter with its contract, that what it returns is taken from
the CPUs it is given (`TakeByTopology`), so every result here holds whichever CPUs it picks.

A `cpuset.CPUSet` is a `Finset ℕ`; Go maps are `AList`s, in the order Go happens to range over
them. A method that changes the state returns the new state beside its error, so that what an
error leaves behind is the code's, not the model's choice.
-/

namespace Kubernetes.CPUManager

open TopologyManager

/-! ## CPU sets and the state -/

/-- The ranges of consecutive CPUs of a sorted list, as `CPUSet.String` builds them: each element
extends the last range when it follows its end, and starts a new one otherwise. -/
def cpuRanges (elems : List ℕ) : List (ℕ × ℕ) :=
  (elems.foldl (fun ranges e =>
    match ranges with
    | (start, last) :: rest =>
      if e = last + 1 then (start, e) :: rest else (e, e) :: (start, last) :: rest
    | [] => [(e, e)]) []).reverse

/-- `CPUSet.String()`: the Linux CPU list format, such as `"0-2,4"`. -/
def cpuSetString (s : Finset ℕ) : String :=
  ",".intercalate ((cpuRanges (s.sort (· ≤ ·))).map fun r =>
    if r.1 = r.2 then toString r.1 else toString r.1 ++ "-" ++ toString r.2)

/-- `ContainerCPUAssignments`: the CPU set of each container of each pod. -/
abbrev ContainerCPUAssignments := AList (fun _ : String => AList (fun _ : String => Finset ℕ))

/-- `stateMemory`, without its lock. -/
structure State where
  assignments : ContainerCPUAssignments
  defaultCPUSet : Finset ℕ

namespace State

/-- `GetCPUSet(podUID, containerName)`. -/
def getCPUSet (s : State) (podUID containerName : String) : Option (Finset ℕ) :=
  (s.assignments.lookup podUID).bind (·.lookup containerName)

/-- `SetCPUSet(podUID, containerName, cset)`. -/
def setCPUSet (s : State) (podUID containerName : String) (cset : Finset ℕ) : State :=
  { s with assignments :=
      s.assignments.insert podUID (((s.assignments.lookup podUID).getD ∅).insert containerName cset) }

/-- `SetDefaultCPUSet(cset)`. -/
def setDefaultCPUSet (s : State) (cset : Finset ℕ) : State := { s with defaultCPUSet := cset }

/-- `Delete(podUID, containerName)`: a pod left with no container is deleted too. -/
def delete (s : State) (podUID containerName : String) : State :=
  match s.assignments.lookup podUID with
  | none => s
  | some containers =>
    let containers := containers.erase containerName
    if containers.entries.length = 0 then { s with assignments := s.assignments.erase podUID }
    else { s with assignments := s.assignments.insert podUID containers }

@[simp] theorem setCPUSet_defaultCPUSet (s : State) (podUID containerName : String)
    (cset : Finset ℕ) : (s.setCPUSet podUID containerName cset).defaultCPUSet = s.defaultCPUSet :=
  rfl

@[simp] theorem setDefaultCPUSet_defaultCPUSet (s : State) (cset : Finset ℕ) :
    (s.setDefaultCPUSet cset).defaultCPUSet = cset := rfl

@[simp] theorem getCPUSet_setDefaultCPUSet (s : State) (cset : Finset ℕ) :
    (s.setDefaultCPUSet cset).getCPUSet = s.getCPUSet := rfl

@[simp] theorem delete_defaultCPUSet (s : State) (podUID containerName : String) :
    (s.delete podUID containerName).defaultCPUSet = s.defaultCPUSet := by
  unfold delete
  split
  · rfl
  · dsimp only
    split <;> rfl

theorem getCPUSet_setCPUSet (s : State) (podUID containerName : String) (cset : Finset ℕ)
    (pod container : String) :
    (s.setCPUSet podUID containerName cset).getCPUSet pod container =
      if pod = podUID ∧ container = containerName then some cset else s.getCPUSet pod container := by
  unfold getCPUSet setCPUSet
  by_cases hpod : pod = podUID
  · subst hpod
    by_cases hc : container = containerName
    · subst hc
      simp only [AList.lookup_insert, Option.bind_some, and_self, if_true]
    · simp only [AList.lookup_insert, Option.bind_some, AList.lookup_insert_ne hc, hc, and_false,
        if_false]
      cases s.assignments.lookup pod <;> simp
  · simp [hpod, AList.lookup_insert_ne hpod]

theorem getCPUSet_delete (s : State) (podUID containerName pod container : String) :
    (s.delete podUID containerName).getCPUSet pod container =
      if pod = podUID ∧ container = containerName then none else s.getCPUSet pod container := by
  unfold delete
  split
  · rename_i hnone
    by_cases h : pod = podUID ∧ container = containerName
    · obtain ⟨rfl, rfl⟩ := h
      simp [getCPUSet, hnone]
    · rw [if_neg h]
  · rename_i containers hsome
    dsimp only
    by_cases hpod : pod = podUID
    · subst hpod
      have herase : (containers.erase containerName).lookup container =
          if container = containerName then none else containers.lookup container := by
        split
        · subst_vars
          exact AList.lookup_erase _ _
        · exact AList.lookup_erase_ne ‹_›
      split
      · rename_i hempty
        have hnone : (containers.erase containerName).lookup container = none := by
          rw [AList.lookup_eq_none, AList.mem_keys, AList.keys, List.keys,
            List.eq_nil_of_length_eq_zero hempty]
          exact List.not_mem_nil
        rw [herase] at hnone
        simp only [getCPUSet, AList.lookup_erase, hsome, Option.bind_none, Option.bind_some,
          true_and]
        split_ifs at hnone ⊢
        · rfl
        · exact hnone.symm
      · simp [getCPUSet, hsome, herase]
    · split <;> simp [getCPUSet, hpod, AList.lookup_erase_ne hpod, AList.lookup_insert_ne hpod]

end State

/-! ## The policy -/

/-- `topology.CPUTopology`, as the policy reads it: its CPUs (`CPUDetails.CPUs()`) and the NUMA
node of each. -/
structure CPUTopology where
  cpus : Finset ℕ
  numaNodeID : ℕ → ℤ

/-- `CPUDetails.CPUsInNUMANodes(numaNodeID)`. -/
def CPUTopology.cpusInNUMANodes (topology : CPUTopology) (numaNodeID : ℤ) : Finset ℕ :=
  topology.cpus.filter fun cpu => topology.numaNodeID cpu = numaNodeID

/-- `takeByTopology(topo, availableCPUs, numCPUs)`, by its contract: it fails, or returns CPUs
taken from `availableCPUs` (its accumulator only ever takes CPUs of `details`, the topology
restricted to `availableCPUs`). -/
structure TakeByTopology where
  take : CPUTopology → Finset ℕ → ℕ → Except String (Finset ℕ)
  take_subset : ∀ {topology availableCPUs numCPUs result},
    take topology availableCPUs numCPUs = .ok result → result ⊆ availableCPUs

/-- A container, as the policy reads it: its name and its CPU request in millicores
(`Resources.Requests[v1.ResourceCPU]`), `none` when it requests none. -/
structure Container where
  name : String
  cpuRequest : Option ℕ

/-- A pod, as the policy reads it: its UID, whether `v1qos.GetPodQOS` puts it in the Guaranteed
class (computed from the requests and limits of all its containers), and its containers. -/
structure Pod where
  uid : String
  guaranteed : Bool
  initContainers : List Container
  containers : List Container

/-- `staticPolicy`: the topology, the reserved CPUs, the topology manager's store read through
`GetAffinity(podUID, containerName)`, and the reusable CPUs of a pod. -/
structure StaticPolicy where
  topology : CPUTopology
  reserved : Finset ℕ
  affinity : String → String → TopologyHint
  cpusToReuse : AList (fun _ : String => Finset ℕ)

section TakeByTopology

variable (takeByTopology : TakeByTopology)

/-- The reserved CPUs `NewStaticPolicy` settles on: those given, or else the `numReservedCPUs`
that `takeByTopology` picks from all the CPUs (its error is dropped, leaving an empty set). -/
def reservedOf (topology : CPUTopology) (numReservedCPUs : ℕ) (reservedCPUs : Finset ℕ) :
    Finset ℕ :=
  let allCPUs := topology.cpus
  if reservedCPUs.card > 0 then reservedCPUs
  else match takeByTopology.take topology allCPUs numReservedCPUs with
    | .ok reserved => reserved
    | .error _ => ∅

/-- `NewStaticPolicy(topology, numReservedCPUs, reservedCPUs, affinity)`: there must be
`numReservedCPUs` reserved CPUs. -/
def newStaticPolicy (topology : CPUTopology) (numReservedCPUs : ℕ) (reservedCPUs : Finset ℕ)
    (affinity : String → String → TopologyHint) : Except String StaticPolicy :=
  let reserved := reservedOf takeByTopology topology numReservedCPUs reservedCPUs
  if reserved.card ≠ numReservedCPUs then
    .error ("[cpumanager] unable to reserve the required amount of CPUs (size of " ++
      cpuSetString reserved ++ " did not equal " ++ toString numReservedCPUs ++ ")")
  else .ok ⟨topology, reserved, affinity, ∅⟩

namespace StaticPolicy

/-- The pods' container sets, as `validateState`'s nested loops visit them: pods in the order of
the map, and each pod's containers in the order of its own. -/
def assignmentList (assignments : ContainerCPUAssignments) : List (String × String × Finset ℕ) :=
  assignments.entries.flatMap fun pod => pod.2.entries.map fun c => (pod.1, c.1, c.2)

/-- `CPUSet.UnionAll(s2)`. -/
def unionAll (s : Finset ℕ) (s2 : List (Finset ℕ)) : Finset ℕ := s2.foldl (· ∪ ·) s

/-- `validateState(s)`. An empty default set is only valid with no assignments, and is then
filled with all the CPUs. Otherwise the reserved CPUs must be in the default set, no container's
set may meet it, and together they must be the topology's CPUs. -/
def validateState (p : StaticPolicy) (s : State) : State × Except String Unit :=
  let tmpAssignments := s.assignments
  let tmpDefaultCPUset := s.defaultCPUSet
  if tmpDefaultCPUset = ∅ then
    if tmpAssignments.entries.length ≠ 0 then (s, .error "default cpuset cannot be empty")
    -- state is empty initialize
    else (s.setDefaultCPUSet p.topology.cpus, .ok ())
  else if p.reserved ∩ tmpDefaultCPUset ≠ p.reserved then
    (s, .error ("not all reserved cpus: \"" ++ cpuSetString p.reserved ++
      "\" are present in defaultCpuSet: \"" ++ cpuSetString tmpDefaultCPUset ++ "\""))
  else
    match (assignmentList tmpAssignments).find? (fun a => tmpDefaultCPUset ∩ a.2.2 ≠ ∅) with
    | some (pod, container, cset) =>
      (s, .error ("pod: " ++ pod ++ ", container: " ++ container ++ " cpuset: \"" ++
        cpuSetString cset ++ "\" overlaps with default cpuset \"" ++
        cpuSetString tmpDefaultCPUset ++ "\""))
    | none =>
      let totalKnownCPUs :=
        unionAll tmpDefaultCPUset ((assignmentList tmpAssignments).map (·.2.2))
      if totalKnownCPUs ≠ p.topology.cpus then
        (s, .error ("current set of available CPUs \"" ++ cpuSetString p.topology.cpus ++
          "\" doesn't match with CPUs in state \"" ++ cpuSetString totalKnownCPUs ++ "\""))
      else (s, .ok ())

/-- `GetAllocatableCPUs(s)`: the unassigned CPUs minus the reserved ones. -/
def getAllocatableCPUs (p : StaticPolicy) (s : State) : Finset ℕ := s.defaultCPUSet \ p.reserved

/-- `updateCPUsToReuse(pod, container, cset)`: the entries of other pods go; an init container's
CPUs are added to its pod's reusable CPUs, an app container's are removed from them. -/
def updateCPUsToReuse (p : StaticPolicy) (pod : Pod) (container : Container) (cset : Finset ℕ) :
    StaticPolicy :=
  let cpusToReuse := p.cpusToReuse.keys.foldl
    (fun cpusToReuse podUID => if podUID != pod.uid then cpusToReuse.erase podUID else cpusToReuse)
    p.cpusToReuse
  let reusable := (cpusToReuse.lookup pod.uid).getD ∅
  if pod.initContainers.any (·.name == container.name) then
    { p with cpusToReuse := cpusToReuse.insert pod.uid (reusable ∪ cset) }
  else { p with cpusToReuse := cpusToReuse.insert pod.uid (reusable \ cset) }

/-- The CPUs of `allocatableCPUs` on the NUMA nodes of a mask, as the loop over
`numaAffinity.GetBits()` gathers them. -/
def alignedCPUs (p : StaticPolicy) (allocatableCPUs : Finset ℕ) (numaAffinity : BitMask) :
    Finset ℕ :=
  numaAffinity.getBits.foldl (fun alignedCPUs numaNodeID =>
    alignedCPUs ∪ (allocatableCPUs ∩ p.topology.cpusInNUMANodes numaNodeID)) ∅

/-- The first take of `allocateCPUs`: with a hint, as many CPUs aligned with it as there are, up
to `numCPUs`; without one, none. -/
def takeAligned (p : StaticPolicy) (allocatableCPUs : Finset ℕ) (numCPUs : ℕ)
    (numaAffinity : Option BitMask) : Except String (Finset ℕ) :=
  match numaAffinity with
  | none => .ok ∅
  | some numaAffinity =>
    let alignedCPUs := p.alignedCPUs allocatableCPUs numaAffinity
    let numAlignedToAlloc := if numCPUs < alignedCPUs.card then numCPUs else alignedCPUs.card
    takeByTopology.take p.topology alignedCPUs numAlignedToAlloc

/-- `allocateCPUs(s, numCPUs, numaAffinity, reusableCPUs)`: the CPUs aligned with the hint first,
as many as there are up to `numCPUs`, then the rest from what is left; the pool loses them only
once both were found. -/
def allocateCPUs (p : StaticPolicy) (s : State) (numCPUs : ℕ) (numaAffinity : Option BitMask)
    (reusableCPUs : Finset ℕ) : State × Except String (Finset ℕ) :=
  let allocatableCPUs := p.getAllocatableCPUs s ∪ reusableCPUs
  match p.takeAligned takeByTopology allocatableCPUs numCPUs numaAffinity with
  | .error err => (s, .error err)
  | .ok result =>
    match takeByTopology.take p.topology (allocatableCPUs \ result) (numCPUs - result.card) with
    | .error err => (s, .error err)
    | .ok remainingCPUs =>
      let result := result ∪ remainingCPUs
      (s.setDefaultCPUSet (s.defaultCPUSet \ result), .ok result)

end StaticPolicy

/-- `guaranteedCPUs(pod, container)`: a container of a Guaranteed pod whose CPU request is a whole
number of CPUs gets that many; every other container none. `Quantity.Value()` rounds up. -/
def guaranteedCPUs (pod : Pod) (container : Container) : ℕ :=
  if !pod.guaranteed then 0
  else
    let milliValue := container.cpuRequest.getD 0
    let value := (milliValue + 999) / 1000
    if value * 1000 ≠ milliValue then 0 else value

namespace StaticPolicy

/-- `Allocate(s, pod, container)`: a container that needs no exclusive CPUs, or already has its
set, leaves the state as it is; otherwise it gets the CPUs `allocateCPUs` finds. -/
def allocate (p : StaticPolicy) (s : State) (pod : Pod) (container : Container) :
    StaticPolicy × State × Except String Unit :=
  let numCPUs := guaranteedCPUs pod container
  if numCPUs = 0 then (p, s, .ok ())
  else
    match s.getCPUSet pod.uid container.name with
    | some cpuset => (p.updateCPUsToReuse pod container cpuset, s, .ok ())
    | none =>
      let hint := p.affinity pod.uid container.name
      match p.allocateCPUs takeByTopology s numCPUs hint.numaNodeAffinity
          ((p.cpusToReuse.lookup pod.uid).getD ∅) with
      | (s, .error err) => (p, s, .error err)
      | (s, .ok cpuset) =>
        (p.updateCPUsToReuse pod container cpuset, s.setCPUSet pod.uid container.name cpuset, .ok ())

end StaticPolicy

end TakeByTopology

/-- `RemoveContainer(s, podUID, containerName)`: the container's CPUs go back to the pool. It
never fails. -/
def removeContainer (s : State) (podUID containerName : String) : State :=
  match s.getCPUSet podUID containerName with
  | some toRelease =>
    let s := s.delete podUID containerName
    s.setDefaultCPUSet (s.defaultCPUSet ∪ toRelease)
  | none => s

/-- `RemoveContainer` on every container the state records for a pod, in the order of the map, as
`removeStaleState` does for a pod that is no longer active. -/
def removePod (s : State) (podUID : String) : State :=
  (((s.assignments.lookup podUID).map (·.keys)).getD []).foldl
    (fun s containerName => removeContainer s podUID containerName) s

/-! ## Runs -/

/-- What happens to the policy: an `Allocate` call, or the removal of a whole pod. -/
inductive Event
  | allocate (pod : Pod) (container : Container)
  | removePod (podUID : String)

section Run

variable (takeByTopology : TakeByTopology)

/-- One event: the policy and the state after it; the error of a failed `Allocate` is dropped. -/
def step (ps : StaticPolicy × State) : Event → StaticPolicy × State
  | .allocate pod container =>
    let result := ps.1.allocate takeByTopology ps.2 pod container
    (result.1, result.2.1)
  | .removePod podUID => (ps.1, removePod ps.2 podUID)

/-- The events one after the other. -/
def run (ps : StaticPolicy × State) (events : List Event) : StaticPolicy × State :=
  events.foldl (step takeByTopology) ps

end Run

end Kubernetes.CPUManager
