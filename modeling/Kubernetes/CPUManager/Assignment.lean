import Mathlib
import Kubernetes.Foundations.GoRange
import Kubernetes.CPUManager.PolicyStatic

/-!
# Topology-aware CPU assignment

`takeByTopology` (`cpu_assignment.go`) picks `numCPUs` CPUs of a set of available ones, best fit
over the machine's topology: whole sockets first while the request needs at least a socket's
worth, then whole cores while it needs at least a core's worth, then single CPUs. A
`cpuAccumulator` carries the CPUs taken, the available ones left (`details`) and the count still
needed; each phase ranges over a list of sockets, cores or CPUs computed before its loop.

The topology (`topology.CPUTopology`) gives each CPU its NUMA node, socket and core
(`CPUDetails`). `CPUSet.ToSliceNoSort` ranges over a Go map and `sort.Slice` is Go's; what either
leaves to the runtime is a parameter (`GoRuntime`).
-/

namespace Kubernetes.CPUManager

/-- `CPUSet.ToSlice()`: the elements in increasing order. -/
def toSlice {α : Type*} [LinearOrder α] (s : Finset α) : List α :=
  Quot.liftOn s.val (fun l => l.insertionSort (· ≤ ·)) fun _ _ h =>
    (((List.perm_insertionSort _ _).trans h).trans (List.perm_insertionSort _ _).symm).eq_of_pairwise'
      (List.pairwise_insertionSort _ _) (List.pairwise_insertionSort _ _)

theorem toSlice_eq_sort {α : Type*} [LinearOrder α] (s : Finset α) :
    toSlice s = s.sort (· ≤ ·) := by
  rcases s with ⟨⟨l⟩, hl⟩
  refine List.Perm.eq_of_pairwise' (List.pairwise_insertionSort _ _) (Finset.pairwise_sort _ _) ?_
  rw [← Multiset.coe_eq_coe, Finset.sort_eq]
  exact Multiset.coe_eq_coe.mpr (List.perm_insertionSort _ l)

@[simp] theorem mem_toSlice {α : Type*} [LinearOrder α] {s : Finset α} {a : α} :
    a ∈ toSlice s ↔ a ∈ s := by
  rw [toSlice_eq_sort, Finset.mem_sort]

theorem toSlice_nodup {α : Type*} [LinearOrder α] (s : Finset α) : (toSlice s).Nodup := by
  rw [toSlice_eq_sort]
  exact Finset.sort_nodup _ _

namespace Topology

/-- `CPUInfo`: the NUMA node, socket and core of a CPU. -/
structure CPUInfo where
  numaNodeID : ℤ
  socketID : ℤ
  coreID : ℤ
  deriving DecidableEq

/-- `CPUDetails`, a map from CPU ID to `CPUInfo`: its CPUs, and the info of each. -/
structure CPUDetails where
  cpus : Finset ℕ
  info : ℕ → CPUInfo

namespace CPUDetails

/-- `d[cpu]`: a CPU not in the map reads as the zero `CPUInfo`. -/
def get (d : CPUDetails) (cpu : ℕ) : CPUInfo := if cpu ∈ d.cpus then d.info cpu else ⟨0, 0, 0⟩

/-- `KeepOnly(cpus)`. -/
def keepOnly (d : CPUDetails) (cpus : Finset ℕ) : CPUDetails := ⟨d.cpus.filter (· ∈ cpus), d.info⟩

/-- The CPUs whose socket, core or NUMA node (`key`) is `id`: `CPUsInSockets(id)`,
`CPUsInCores(id)` and `CPUsInNUMANodes(id)` are its three instances. -/
def cpusWith (key : CPUInfo → ℤ) (d : CPUDetails) (id : ℤ) : Finset ℕ :=
  d.cpus.filter fun cpu => key (d.info cpu) = id

/-- `CPUsInSockets(id)`. -/
def cpusInSockets (d : CPUDetails) (id : ℤ) : Finset ℕ := d.cpusWith CPUInfo.socketID id

/-- `CPUsInCores(id)`. -/
def cpusInCores (d : CPUDetails) (id : ℤ) : Finset ℕ := d.cpusWith CPUInfo.coreID id

/-- `Sockets()`. -/
def sockets (d : CPUDetails) : Finset ℤ := d.cpus.image fun cpu => (d.info cpu).socketID

/-- `Cores()`. -/
def cores (d : CPUDetails) : Finset ℤ := d.cpus.image fun cpu => (d.info cpu).coreID

/-- `CoresInSockets(id)`. -/
def coresInSockets (d : CPUDetails) (id : ℤ) : Finset ℤ :=
  (d.cpusInSockets id).image fun cpu => (d.info cpu).coreID

end CPUDetails

/-- `CPUTopology`. -/
structure CPUTopology where
  numCPUs : ℕ
  numCores : ℕ
  numSockets : ℕ
  cpuDetails : CPUDetails

namespace CPUTopology

/-- `CPUsPerCore()`. -/
def cpusPerCore (topo : CPUTopology) : ℕ :=
  if topo.numCores = 0 then 0 else topo.numCPUs / topo.numCores

/-- `CPUsPerSocket()`. -/
def cpusPerSocket (topo : CPUTopology) : ℕ :=
  if topo.numSockets = 0 then 0 else topo.numCPUs / topo.numSockets

/-- The topology as the static policy reads it: its CPUs and the NUMA node of each. -/
def toPolicy (topo : CPUTopology) : CPUManager.CPUTopology :=
  ⟨topo.cpuDetails.cpus, fun cpu => (topo.cpuDetails.info cpu).numaNodeID⟩

/-- `CPUDetails[CPUsInCores(core).ToSlice()[0]].SocketID`, as `freeCPUs` finds the socket of a
core. The cores it asks about have CPUs, so Go never indexes past the end. -/
def socketOfCore (topo : CPUTopology) (core : ℤ) : ℤ :=
  match toSlice (topo.cpuDetails.cpusInCores core) with
  | cpu :: _ => (topo.cpuDetails.get cpu).socketID
  | [] => 0

end CPUTopology

end Topology

open Kubernetes.CPUManager.Topology

/-- What the Go runtime leaves open to `takeByTopology`: the order in which
`CPUSet.ToSliceNoSort` ranges over a set, and `sort.Slice`. -/
structure GoRuntime where
  toSliceNoSort : Go.MapOrder ℤ
  sortSlice : Go.SortSlice ℤ

/-- `cpuAccumulator`. -/
structure CPUAccumulator where
  topo : Topology.CPUTopology
  details : CPUDetails
  numCPUsNeeded : ℤ
  result : Finset ℕ

/-- `newCPUAccumulator(topo, availableCPUs, numCPUs)`. -/
def newCPUAccumulator (topo : Topology.CPUTopology) (availableCPUs : Finset ℕ) (numCPUs : ℤ) :
    CPUAccumulator :=
  ⟨topo, topo.cpuDetails.keepOnly availableCPUs, numCPUs, ∅⟩

namespace CPUAccumulator

/-- `take(cpus)`. -/
def take (a : CPUAccumulator) (cpus : Finset ℕ) : CPUAccumulator :=
  let result := a.result ∪ cpus
  { a with
    result := result
    details := a.details.keepOnly (a.details.cpus \ result)
    numCPUsNeeded := a.numCPUsNeeded - cpus.card }

/-- `isSocketFree(socketID)`. -/
def isSocketFree (a : CPUAccumulator) (socketID : ℤ) : Bool :=
  (a.details.cpusInSockets socketID).card = a.topo.cpusPerSocket

/-- `isCoreFree(coreID)`. -/
def isCoreFree (a : CPUAccumulator) (coreID : ℤ) : Bool :=
  (a.details.cpusInCores coreID).card = a.topo.cpusPerCore

/-- `freeSockets()`. -/
def freeSockets (a : CPUAccumulator) : List ℤ :=
  toSlice (a.details.sockets.filter fun s => a.isSocketFree s)

/-- The free cores of a socket, `CoresInSockets(s).Filter(isCoreFree)`. -/
def freeCoresInSocket (a : CPUAccumulator) (s : ℤ) : Finset ℤ :=
  (a.details.coresInSockets s).filter fun c => a.isCoreFree c

/-- `freeCores()`: the sockets in the order `ToSliceNoSort` gives, sorted by `sort.Slice` with the
code's `less`, and the free cores of each in increasing order. -/
def freeCores (rt : GoRuntime) (a : CPUAccumulator) : List ℤ :=
  let socketIDs := rt.toSliceNoSort.toList a.details.sockets
  let socketIDs := rt.sortSlice.sort (fun i j =>
    decide ((a.freeCoresInSocket i).card < (a.freeCoresInSocket j).card) || decide (i < j))
    socketIDs
  socketIDs.flatMap fun s => toSlice (a.freeCoresInSocket s)

/-- The `less` of `freeCPUs` on two cores. -/
def freeCPUsLess (a : CPUAccumulator) (iCore jCore : ℤ) : Bool :=
  let iSocket := a.topo.socketOfCore iCore
  let jSocket := a.topo.socketOfCore jCore
  let iSocketColoScore := (a.topo.cpuDetails.cpusInSockets iSocket ∩ a.result).card
  let jSocketColoScore := (a.topo.cpuDetails.cpusInSockets jSocket ∩ a.result).card
  let iSocketFreeScore := (a.details.cpusInSockets iSocket).card
  let jSocketFreeScore := (a.details.cpusInSockets jSocket).card
  let iCoreFreeScore := (a.details.cpusInCores iCore).card
  let jCoreFreeScore := (a.details.cpusInCores jCore).card
  decide (iSocketColoScore > jSocketColoScore) || decide (iSocketFreeScore < jSocketFreeScore) ||
    decide (iCoreFreeScore < jCoreFreeScore) || decide (iSocket < jSocket) || decide (iCore < jCore)

/-- `freeCPUs()`: the cores in increasing order, sorted by `sort.Slice` with `freeCPUsLess`, and
the available CPUs of each in increasing order. -/
def freeCPUs (rt : GoRuntime) (a : CPUAccumulator) : List ℕ :=
  let cores := rt.sortSlice.sort a.freeCPUsLess (toSlice a.details.cores)
  cores.flatMap fun core => toSlice (a.details.cpusInCores core)

/-- `needs(n)`. -/
def needs (a : CPUAccumulator) (n : ℤ) : Bool := n ≤ a.numCPUsNeeded

/-- `isSatisfied()`. -/
def isSatisfied (a : CPUAccumulator) : Bool := a.numCPUsNeeded < 1

/-- `isFailed()`. -/
def isFailed (a : CPUAccumulator) : Bool := (a.details.cpus.card : ℤ) < a.numCPUsNeeded

/-! ## The three phases -/

/-- The body of the loops over free sockets and free cores: take the available CPUs of the socket
or core (`key` picks which), return once the request is met, break once it needs fewer than `n`
more. -/
def claimWhole (key : CPUInfo → ℤ) (n : ℤ) (a : CPUAccumulator) (id : ℤ) :
    Go.Next CPUAccumulator (Finset ℕ) :=
  let a := a.take (a.details.cpusWith key id)
  if a.isSatisfied then .ret a.result
  else if !a.needs n then .brk a
  else .cont a

/-- The first two phases: when the request needs at least `n` more CPUs, the loop of
`claimWhole` over the sockets or cores `ids`. -/
def takeWhole (key : CPUInfo → ℤ) (n : ℤ) (a : CPUAccumulator) (ids : List ℤ) :
    Finset ℕ ⊕ CPUAccumulator :=
  if a.needs n then Go.forRange (claimWhole key n) a ids else .inr a

theorem takeWhole_of_needs_eq_false {key : CPUInfo → ℤ} {n : ℤ} {a : CPUAccumulator}
    {ids : List ℤ} (h : a.needs n = false) : a.takeWhole key n ids = .inr a := by
  rw [takeWhole, h]
  rfl

/-- The body of the loop over free CPUs: take the CPU while one is needed, return once the
request is met. -/
def claimCPU (a : CPUAccumulator) (cpu : ℕ) : Go.Next CPUAccumulator (Finset ℕ) :=
  let a := if a.needs 1 then a.take {cpu} else a
  if a.isSatisfied then .ret a.result else .cont a

/-- 3. Single CPUs. -/
def takeThreads (rt : GoRuntime) (a : CPUAccumulator) : Except String (Finset ℕ) :=
  match Go.forRange claimCPU a (a.freeCPUs rt) with
  | .inl result => .ok result
  | .inr _ => .error "failed to allocate cpus"

/-- 2. Whole cores, then single CPUs. -/
def takeCores (rt : GoRuntime) (a : CPUAccumulator) : Except String (Finset ℕ) :=
  match a.takeWhole CPUInfo.coreID a.topo.cpusPerCore (a.freeCores rt) with
  | .inl result => .ok result
  | .inr a => a.takeThreads rt

/-- 1. Whole sockets, then the other two phases. -/
def takeSockets (rt : GoRuntime) (a : CPUAccumulator) : Except String (Finset ℕ) :=
  match a.takeWhole CPUInfo.socketID a.topo.cpusPerSocket a.freeSockets with
  | .inl result => .ok result
  | .inr a => a.takeCores rt

end CPUAccumulator

/-- `takeByTopology(topo, availableCPUs, numCPUs)`. -/
def takeByTopology (rt : GoRuntime) (topo : Topology.CPUTopology) (availableCPUs : Finset ℕ)
    (numCPUs : ℤ) : Except String (Finset ℕ) :=
  let acc := newCPUAccumulator topo availableCPUs numCPUs
  if acc.isSatisfied then .ok acc.result
  else if acc.isFailed then .error "not enough cpus available to satisfy request"
  else acc.takeSockets rt

/-! ## What a take does -/

namespace Topology.CPUDetails

@[simp] theorem keepOnly_cpus (d : CPUDetails) (cpus : Finset ℕ) :
    (d.keepOnly cpus).cpus = d.cpus ∩ cpus := Finset.filter_mem_eq_inter

@[simp] theorem keepOnly_info (d : CPUDetails) (cpus : Finset ℕ) :
    (d.keepOnly cpus).info = d.info := rfl

@[simp] theorem mem_cpusWith {key : CPUInfo → ℤ} {d : CPUDetails} {id : ℤ} {cpu : ℕ} :
    cpu ∈ d.cpusWith key id ↔ cpu ∈ d.cpus ∧ key (d.info cpu) = id :=
  Finset.mem_filter

theorem cpusWith_subset (key : CPUInfo → ℤ) (d : CPUDetails) (id : ℤ) : d.cpusWith key id ⊆ d.cpus :=
  Finset.filter_subset _ _

/-- Details with fewer CPUs and the same info have fewer CPUs of each socket, core or node. -/
theorem cpusWith_mono {key : CPUInfo → ℤ} {d d' : CPUDetails} (hcpus : d'.cpus ⊆ d.cpus)
    (hinfo : d'.info = d.info) (id : ℤ) : d'.cpusWith key id ⊆ d.cpusWith key id := by
  intro cpu
  simp only [mem_cpusWith, hinfo]
  exact fun h => ⟨hcpus h.1, h.2⟩

end Topology.CPUDetails

namespace CPUAccumulator

@[simp] theorem take_topo (a : CPUAccumulator) (cpus : Finset ℕ) : (a.take cpus).topo = a.topo :=
  rfl

@[simp] theorem take_result (a : CPUAccumulator) (cpus : Finset ℕ) :
    (a.take cpus).result = a.result ∪ cpus := rfl

@[simp] theorem take_info (a : CPUAccumulator) (cpus : Finset ℕ) :
    (a.take cpus).details.info = a.details.info := rfl

@[simp] theorem take_numCPUsNeeded (a : CPUAccumulator) (cpus : Finset ℕ) :
    (a.take cpus).numCPUsNeeded = a.numCPUsNeeded - cpus.card := rfl

@[simp] theorem take_cpus (a : CPUAccumulator) (cpus : Finset ℕ) :
    (a.take cpus).details.cpus = a.details.cpus \ (a.result ∪ cpus) := by
  simp [take, Finset.inter_eq_right.mpr Finset.sdiff_subset]

end CPUAccumulator

/-! ## The accounting invariant -/

/-- What the accumulator of `takeByTopology topo availableCPUs numCPUs` keeps: the CPUs taken are
available CPUs of the topology, `details` holds the others with the topology's info, and the
count still needed is down by as many as were taken. -/
structure Accounts (topo : Topology.CPUTopology) (availableCPUs : Finset ℕ) (numCPUs : ℤ)
    (a : CPUAccumulator) : Prop where
  topo_eq : a.topo = topo
  info_eq : a.details.info = topo.cpuDetails.info
  result_subset : a.result ⊆ topo.cpuDetails.cpus ∩ availableCPUs
  details_cpus : a.details.cpus = (topo.cpuDetails.cpus ∩ availableCPUs) \ a.result
  needed : a.numCPUsNeeded + a.result.card = numCPUs

section Accounts

variable {topo : Topology.CPUTopology} {availableCPUs : Finset ℕ} {numCPUs : ℤ}
  {a : CPUAccumulator}

theorem accounts_new (topo : Topology.CPUTopology) (availableCPUs : Finset ℕ) (numCPUs : ℤ) :
    Accounts topo availableCPUs numCPUs (newCPUAccumulator topo availableCPUs numCPUs) :=
  ⟨rfl, rfl, Finset.empty_subset _, by simp [newCPUAccumulator], by simp [newCPUAccumulator]⟩

/-- Taking available CPUs keeps the accounts. -/
theorem Accounts.take (h : Accounts topo availableCPUs numCPUs a) {cpus : Finset ℕ}
    (hcpus : cpus ⊆ a.details.cpus) : Accounts topo availableCPUs numCPUs (a.take cpus) := by
  have hdisj : Disjoint a.result cpus := by
    rw [h.details_cpus] at hcpus
    exact Finset.disjoint_of_subset_right hcpus Finset.disjoint_sdiff
  refine ⟨h.topo_eq, h.info_eq, ?_, ?_, ?_⟩
  · rw [CPUAccumulator.take_result]
    exact Finset.union_subset h.result_subset
      (hcpus.trans (h.details_cpus ▸ Finset.sdiff_subset))
  · rw [CPUAccumulator.take_cpus, CPUAccumulator.take_result, h.details_cpus]
    ext cpu
    simp only [Finset.mem_sdiff, Finset.mem_inter, Finset.mem_union]
    tauto
  · rw [CPUAccumulator.take_numCPUsNeeded, CPUAccumulator.take_result,
      Finset.card_union_of_disjoint hdisj, Nat.cast_add, ← h.needed]
    ring

/-- The CPUs of a socket, core or node left in `details` are the topology's, less those taken. -/
theorem Accounts.cpusWith (h : Accounts topo availableCPUs numCPUs a) (key : CPUInfo → ℤ)
    (id : ℤ) : a.details.cpusWith key id = a.details.cpus ∩ topo.cpuDetails.cpusWith key id := by
  ext cpu
  simp only [CPUDetails.mem_cpusWith, Finset.mem_inter, h.info_eq, h.details_cpus,
    Finset.mem_sdiff]
  tauto

/-- With at most as many CPUs requested as there are, no more are needed than are left. -/
theorem Accounts.needed_le (h : Accounts topo availableCPUs numCPUs a)
    (hn : numCPUs ≤ (topo.cpuDetails.cpus ∩ availableCPUs).card) :
    a.numCPUsNeeded ≤ a.details.cpus.card := by
  have hcard : (a.details.cpus.card : ℤ) + a.result.card =
      (topo.cpuDetails.cpus ∩ availableCPUs).card := by
    rw [h.details_cpus, ← Nat.cast_add, Finset.card_sdiff_add_card_eq_card h.result_subset]
  linarith [h.needed]

end Accounts

/-! ## The lists the phases range over -/

namespace CPUAccumulator

variable (rt : GoRuntime) (a : CPUAccumulator)

theorem mem_freeSockets {s : ℤ} :
    s ∈ a.freeSockets ↔ s ∈ a.details.sockets ∧ a.isSocketFree s = true := by
  simp [freeSockets]

theorem mem_freeCores {c : ℤ} :
    c ∈ a.freeCores rt ↔ c ∈ a.details.cores ∧ a.isCoreFree c = true := by
  simp only [freeCores, List.mem_flatMap, Go.SortSlice.mem_sort, Go.MapOrder.mem, mem_toSlice,
    freeCoresInSocket, Finset.mem_filter, CPUDetails.coresInSockets, CPUDetails.cores,
    CPUDetails.sockets, CPUDetails.cpusInSockets, Finset.mem_image, CPUDetails.mem_cpusWith]
  constructor
  · rintro ⟨-, -, ⟨cpu, ⟨hcpu, -⟩, rfl⟩, hfree⟩
    exact ⟨⟨cpu, hcpu, rfl⟩, hfree⟩
  · rintro ⟨⟨cpu, hcpu, rfl⟩, hfree⟩
    exact ⟨_, ⟨cpu, hcpu, rfl⟩, ⟨cpu, ⟨hcpu, rfl⟩, rfl⟩, hfree⟩

theorem mem_freeCPUs {cpu : ℕ} : cpu ∈ a.freeCPUs rt ↔ cpu ∈ a.details.cpus := by
  simp only [freeCPUs, List.mem_flatMap, Go.SortSlice.mem_sort, mem_toSlice, CPUDetails.cores,
    CPUDetails.cpusInCores, Finset.mem_image, CPUDetails.mem_cpusWith]
  constructor
  · rintro ⟨-, -, hcpu, -⟩
    exact hcpu
  · intro hcpu
    exact ⟨_, ⟨cpu, hcpu, rfl⟩, hcpu, rfl⟩

/-- Each available CPU is listed once: the cores are, and no CPU is on two cores. -/
theorem freeCPUs_nodup : (a.freeCPUs rt).Nodup := by
  refine List.nodup_flatMap.mpr ⟨fun _ _ => toSlice_nodup _, ?_⟩
  refine ((Go.SortSlice.nodup_sort _ _).mpr (toSlice_nodup _)).pairwise_of_forall_ne ?_
  intro i _ j _ hij
  refine List.disjoint_left.mpr fun {cpu} hi hj => hij ?_
  simp only [mem_toSlice, CPUDetails.cpusInCores, CPUDetails.mem_cpusWith] at hi hj
  rw [← hi.2, ← hj.2]

/-- A free socket has a socket's worth of CPUs left. -/
theorem card_cpusWith_of_mem_freeSockets {id : ℤ} (hid : id ∈ a.freeSockets) :
    ((a.details.cpusWith CPUInfo.socketID id).card : ℤ) = a.topo.cpusPerSocket := by
  rw [← CPUDetails.cpusInSockets, (decide_eq_true_iff.mp (a.mem_freeSockets.mp hid).2)]

/-- A free core has a core's worth of CPUs left. -/
theorem card_cpusWith_of_mem_freeCores {id : ℤ} (hid : id ∈ a.freeCores rt) :
    ((a.details.cpusWith CPUInfo.coreID id).card : ℤ) = a.topo.cpusPerCore := by
  rw [← CPUDetails.cpusInCores, (decide_eq_true_iff.mp ((a.mem_freeCores rt).mp hid).2)]

theorem length_freeCPUs : (a.freeCPUs rt).length = a.details.cpus.card := by
  rw [← List.toFinset_card_of_nodup (a.freeCPUs_nodup rt)]
  congr 1
  ext cpu
  simp [mem_freeCPUs]

end CPUAccumulator

/-- A runtime that ranges over a set in increasing order and sorts every slice as Go sorts one of
at most twelve elements. -/
def GoRuntime.inOrder : GoRuntime :=
  ⟨⟨toSlice, toSlice_nodup, fun _ _ => mem_toSlice⟩, Go.SortSlice.ofSmall⟩

/-- `topoDualSocketHT` of the package's tests: CPU `i` is on core `i % 6`, and on socket and NUMA
node `i % 2`. -/
def topoDualSocketHT : Topology.CPUTopology where
  numCPUs := 12
  numCores := 6
  numSockets := 2
  cpuDetails := ⟨Finset.range 12, fun cpu => ⟨cpu % 2, cpu % 2, cpu % 6⟩⟩

/-- **The orders of `freeCores` and `freeCPUs` are not the documented ones.** Their `less`
functions or their keys together instead of comparing them in turn, so what `sort.Slice` makes
of them depends on the order it compares in. With CPU 1 taken, socket 1 has two free cores and
socket 0 three; `freeCores` should list socket 1's first, and does only when the map of sockets
is ranged over as `[0, 1]`. With CPUs `0, 1, 3, 6, 9` available, `freeCPUs` should start with
core 0, alone free on socket 0, but starts with core 1, which has fewer free CPUs though its
socket has more; and `takeByTopology` takes CPU 1 for one CPU. -/
theorem freeCores_freeCPUs_not_lexicographic (rt : GoRuntime) :
    (newCPUAccumulator topoDualSocketHT {0, 2, 3, 4, 5, 6, 7, 8, 9, 10, 11} 0).freeCores rt =
        (if rt.toSliceNoSort.toList {0, 1} = [1, 0] then [0, 2, 4, 3, 5] else [3, 5, 0, 2, 4]) ∧
      (newCPUAccumulator topoDualSocketHT {0, 1, 3, 6, 9} 0).freeCPUs rt = [1, 0, 6, 3, 9] ∧
      takeByTopology rt topoDualSocketHT {0, 1, 3, 6, 9} 1 = .ok {1} := by
  have hsockets : (newCPUAccumulator topoDualSocketHT {0, 2, 3, 4, 5, 6, 7, 8, 9, 10, 11} 0).details.sockets =
      {0, 1} := by decide
  have hcpus : (newCPUAccumulator topoDualSocketHT {0, 1, 3, 6, 9} 1).freeCPUs rt = [1, 0, 6, 3, 9] := by
    unfold CPUAccumulator.freeCPUs
    rw [rt.sortSlice.small _ _ (by decide)]
    decide
  refine ⟨?_, ?_, ?_⟩
  · unfold CPUAccumulator.freeCores
    rw [hsockets]
    rcases rt.toSliceNoSort.toList_pair (a := 0) (b := 1) (by decide) with h | h <;>
      rw [h] <;> dsimp only <;> rw [rt.sortSlice.small _ _ (by decide)] <;> decide
  · unfold CPUAccumulator.freeCPUs
    rw [rt.sortSlice.small _ _ (by decide)]
    decide
  · -- one CPU needs neither a socket's nor a core's worth: the third phase takes the first CPU
    unfold takeByTopology
    dsimp only
    rw [if_neg (by decide), if_neg (by decide), CPUAccumulator.takeSockets,
      CPUAccumulator.takeWhole_of_needs_eq_false (by decide)]
    dsimp only
    rw [CPUAccumulator.takeCores, CPUAccumulator.takeWhole_of_needs_eq_false (by decide)]
    dsimp only
    rw [CPUAccumulator.takeThreads, hcpus]
    decide

/-! ## The phases -/

namespace CPUAccumulator

section Phases

variable {topo : Topology.CPUTopology} {availableCPUs : Finset ℕ} {numCPUs : ℤ}

variable (topo availableCPUs numCPUs) in
/-- How a phase that returned ends: with the result of an accumulator that took just enough. -/
def Returned (P : CPUAccumulator → Prop) (result : Finset ℕ) : Prop :=
  ∃ a, P a ∧ Accounts topo availableCPUs numCPUs a ∧ a.numCPUsNeeded = 0 ∧ a.result = result

theorem isSatisfied_eq_true {a : CPUAccumulator} : a.isSatisfied = true ↔ a.numCPUsNeeded < 1 := by
  simp [isSatisfied]

theorem isSatisfied_eq_false {a : CPUAccumulator} : a.isSatisfied = false ↔ 1 ≤ a.numCPUsNeeded := by
  simp [isSatisfied]

theorem needs_eq_true {a : CPUAccumulator} {n : ℤ} : a.needs n = true ↔ n ≤ a.numCPUsNeeded := by
  simp [needs]

theorem isCoreFree_eq_true {a : CPUAccumulator} {c : ℤ} :
    a.isCoreFree c = true ↔ (a.details.cpusInCores c).card = a.topo.cpusPerCore :=
  decide_eq_true_iff

theorem isSocketFree_eq_true {a : CPUAccumulator} {s : ℤ} :
    a.isSocketFree s = true ↔ (a.details.cpusInSockets s).card = a.topo.cpusPerSocket :=
  decide_eq_true_iff

theorem needs_eq_false {a : CPUAccumulator} {n : ℤ} : a.needs n = false ↔ a.numCPUsNeeded < n := by
  simp [needs]

/-- **The loop of the first two phases.** `P rest a` is the caller's invariant over the sockets
or cores `rest` still to visit, kept by each take; the loop returns with it, or ends with it and
more CPUs needed, having visited them all or needing fewer than `n`. -/
theorem takeWhole_spec {key : CPUInfo → ℤ} {n : ℤ} {P : List ℤ → CPUAccumulator → Prop}
    (hP : ∀ id rest a, P (id :: rest) a → Accounts topo availableCPUs numCPUs a → n ≤ a.numCPUsNeeded →
      P rest (a.take (a.details.cpusWith key id)))
    {a : CPUAccumulator} {ids : List ℤ} (ha : Accounts topo availableCPUs numCPUs a) (hneed : 1 ≤ a.numCPUsNeeded)
    (hcard : ∀ id ∈ ids, ((a.details.cpusWith key id).card : ℤ) ≤ n) (hPa : P ids a) :
    (a.takeWhole key n ids).elim (fun r => ∃ rest, Returned topo availableCPUs numCPUs (P rest) r)
      (fun a' => ∃ rest, P rest a' ∧ Accounts topo availableCPUs numCPUs a' ∧ 1 ≤ a'.numCPUsNeeded ∧
        (rest = [] ∨ a'.numCPUsNeeded < n)) := by
  unfold takeWhole
  split
  · rename_i hn
    -- the invariant: the caller's, the accounts, and each socket or core left has at most `n`
    let I : List ℤ → CPUAccumulator → Prop := fun rest a => P rest a ∧ Accounts topo availableCPUs numCPUs a ∧
      1 ≤ a.numCPUsNeeded ∧ n ≤ a.numCPUsNeeded ∧
      ∀ id ∈ rest, ((a.details.cpusWith key id).card : ℤ) ≤ n
    refine Go.forRange_rule (I := I) ?_ (fun a' h => ⟨[], h.1, h.2.1, h.2.2.1, .inl rfl⟩) ids a
      ⟨hPa, ha, hneed, needs_eq_true.mp hn, hcard⟩
    rintro id rest a ⟨hP', ha', -, hn', hcard'⟩
    have hsub := CPUDetails.cpusWith_subset key a.details id
    have hle := hcard' id List.mem_cons_self
    have ha'' := ha'.take hsub
    have hP'' := hP id rest a hP' ha' hn'
    unfold claimWhole
    dsimp only
    split_ifs with hsat hbrk
    · refine ⟨rest, _, hP'', ha'', ?_, rfl⟩
      rw [isSatisfied_eq_true, take_numCPUsNeeded] at hsat
      rw [take_numCPUsNeeded]
      omega
    · rw [Bool.not_eq_true, isSatisfied_eq_false] at hsat
      rw [Bool.not_eq_true', needs_eq_false] at hbrk
      exact ⟨rest, hP'', ha'', hsat, .inr hbrk⟩
    · rw [Bool.not_eq_true, isSatisfied_eq_false] at hsat
      rw [Bool.not_eq_true', Bool.not_eq_false, needs_eq_true] at hbrk
      refine ⟨hP'', ha'', hsat, hbrk, fun id' hid' => le_trans ?_ (hcard' id' (.tail _ hid'))⟩
      refine Nat.cast_le.mpr (Finset.card_le_card (CPUDetails.cpusWith_mono ?_ (take_info a _) id'))
      rw [take_cpus]
      exact Finset.sdiff_subset
  · rename_i hn
    rw [Bool.not_eq_true, needs_eq_false] at hn
    exact ⟨ids, hPa, ha, hneed, .inr hn⟩

/-- **The loop of the third phase** returns once it has taken as many CPUs as are needed, given
that many distinct available ones to visit. `P` is kept by each take. -/
theorem forRange_claimCPU {P : CPUAccumulator → Prop}
    (hP : ∀ a cpu, P a → Accounts topo availableCPUs numCPUs a → cpu ∈ a.details.cpus → P (a.take {cpu}))
    {a : CPUAccumulator} {cpus : List ℕ} (ha : Accounts topo availableCPUs numCPUs a) (hneed : 1 ≤ a.numCPUsNeeded) (hPa : P a)
    (hnodup : cpus.Nodup) (hcpus : ∀ cpu ∈ cpus, cpu ∈ a.details.cpus)
    (hlen : a.numCPUsNeeded ≤ cpus.length) :
    ∃ r, Returned topo availableCPUs numCPUs P r ∧ Go.forRange claimCPU a cpus = .inl r := by
  -- the invariant: distinct CPUs still available, at least as many as are needed
  let I : List ℕ → CPUAccumulator → Prop := fun rest a => P a ∧ Accounts topo availableCPUs numCPUs a ∧
    1 ≤ a.numCPUsNeeded ∧ rest.Nodup ∧ (∀ cpu ∈ rest, cpu ∈ a.details.cpus) ∧
    a.numCPUsNeeded ≤ rest.length
  have hrule : (Go.forRange claimCPU a cpus).elim (Returned topo availableCPUs numCPUs P)
      fun _ => False :=
    Go.forRange_rule (I := I) ?_ (fun a' h => by have := h.2.2.2.2.2; simp at this; omega) cpus a
      ⟨hPa, ha, hneed, hnodup, hcpus, hlen⟩
  · cases hfor : Go.forRange claimCPU a cpus with
    | inl r => exact ⟨r, by simpa [hfor] using hrule, rfl⟩
    | inr a' => simp [hfor] at hrule
  · rintro cpu rest a ⟨hP', ha', hneed', hnodup', hcpus', hlen'⟩
    have hmem := hcpus' cpu List.mem_cons_self
    have hsub : {cpu} ⊆ a.details.cpus := Finset.singleton_subset_iff.mpr hmem
    unfold claimCPU
    have hneeds : a.needs 1 = true := needs_eq_true.mpr hneed'
    simp only [hneeds, if_true]
    split_ifs with hsat
    · refine ⟨_, hP a cpu hP' ha' hmem, ha'.take hsub, ?_, rfl⟩
      rw [isSatisfied_eq_true, take_numCPUsNeeded, Finset.card_singleton] at hsat
      rw [take_numCPUsNeeded, Finset.card_singleton]
      omega
    · rw [Bool.not_eq_true, isSatisfied_eq_false] at hsat
      obtain ⟨hnot, hrest⟩ := List.nodup_cons.mp hnodup'
      refine ⟨hP a cpu hP' ha' hmem, ha'.take hsub, hsat, hrest, fun c hc => ?_, ?_⟩
      · rw [take_cpus, ha'.details_cpus]
        have hc' := hcpus' c (List.mem_cons_of_mem _ hc)
        rw [ha'.details_cpus] at hc'
        have hne : c ≠ cpu := fun h => hnot (h ▸ hc)
        simp only [Finset.mem_sdiff, Finset.mem_union, Finset.mem_singleton] at hc' ⊢
        tauto
      · simp only [take_numCPUsNeeded, Finset.card_singleton, List.length_cons] at hlen' ⊢
        omega

variable (topo availableCPUs numCPUs) in
/-- A property of accumulators that every take of available CPUs keeps. -/
def Stable (P : CPUAccumulator → Prop) : Prop :=
  ∀ a cpus, P a → Accounts topo availableCPUs numCPUs a → cpus ⊆ a.details.cpus → P (a.take cpus)

/-- 3. With as many CPUs available as are needed, the single CPUs taken meet the request. -/
theorem takeThreads_spec {P : CPUAccumulator → Prop} (hP : Stable topo availableCPUs numCPUs P)
    (rt : GoRuntime) {a : CPUAccumulator} (ha : Accounts topo availableCPUs numCPUs a)
    (hneed : 1 ≤ a.numCPUsNeeded) (hlen : a.numCPUsNeeded ≤ a.details.cpus.card) (hPa : P a) :
    ∃ r, Returned topo availableCPUs numCPUs P r ∧ a.takeThreads rt = .ok r := by
  obtain ⟨r, hr, hfor⟩ := forRange_claimCPU
    (fun a cpu hPa ha hcpu => hP a {cpu} hPa ha (Finset.singleton_subset_iff.mpr hcpu))
    ha hneed hPa (a.freeCPUs_nodup rt) (fun cpu h => (a.mem_freeCPUs rt).mp h)
    (by rw [length_freeCPUs]; exact hlen)
  exact ⟨r, hr, by rw [takeThreads, hfor]⟩

/-- 2. With as many CPUs available as are requested, whole cores and then single CPUs meet the
request. -/
theorem takeCores_spec {P : CPUAccumulator → Prop} (hP : Stable topo availableCPUs numCPUs P)
    (rt : GoRuntime) (hn : numCPUs ≤ (topo.cpuDetails.cpus ∩ availableCPUs).card)
    {a : CPUAccumulator} (ha : Accounts topo availableCPUs numCPUs a)
    (hneed : 1 ≤ a.numCPUsNeeded) (hPa : P a) :
    ∃ r, Returned topo availableCPUs numCPUs P r ∧ a.takeCores rt = .ok r := by
  have hwhole := takeWhole_spec (P := fun _ a => P a)
    (fun id _ a hPa ha _ => hP a _ hPa ha (CPUDetails.cpusWith_subset _ _ id)) ha hneed
    (fun _ hid => (a.card_cpusWith_of_mem_freeCores rt hid).le) hPa
  unfold takeCores
  cases hw : a.takeWhole CPUInfo.coreID a.topo.cpusPerCore (a.freeCores rt) with
  | inl r =>
    rw [hw] at hwhole
    obtain ⟨_, hr⟩ := hwhole
    exact ⟨r, hr, rfl⟩
  | inr a' =>
    rw [hw] at hwhole
    obtain ⟨_, hPa', ha', hneed', -⟩ := hwhole
    exact takeThreads_spec hP rt ha' hneed' (ha'.needed_le hn) hPa'

/-- 1. With as many CPUs available as are requested, whole sockets, whole cores and then single
CPUs meet the request. -/
theorem takeSockets_spec {P : CPUAccumulator → Prop} (hP : Stable topo availableCPUs numCPUs P)
    (rt : GoRuntime) (hn : numCPUs ≤ (topo.cpuDetails.cpus ∩ availableCPUs).card)
    {a : CPUAccumulator} (ha : Accounts topo availableCPUs numCPUs a)
    (hneed : 1 ≤ a.numCPUsNeeded) (hPa : P a) :
    ∃ r, Returned topo availableCPUs numCPUs P r ∧ a.takeSockets rt = .ok r := by
  have hwhole := takeWhole_spec (P := fun _ a => P a)
    (fun id _ a hPa ha _ => hP a _ hPa ha (CPUDetails.cpusWith_subset _ _ id)) ha hneed
    (fun _ hid => (a.card_cpusWith_of_mem_freeSockets hid).le) hPa
  unfold takeSockets
  cases hw : a.takeWhole CPUInfo.socketID a.topo.cpusPerSocket a.freeSockets with
  | inl r =>
    rw [hw] at hwhole
    obtain ⟨_, hr⟩ := hwhole
    exact ⟨r, hr, rfl⟩
  | inr a' =>
    rw [hw] at hwhole
    obtain ⟨_, hPa', ha', hneed', -⟩ := hwhole
    exact takeCores_spec hP rt hn ha' hneed' hPa'

end Phases

end CPUAccumulator

/-! ## `takeByTopology` -/

section TakeByTopology

variable (rt : GoRuntime) (topo : Topology.CPUTopology) (availableCPUs : Finset ℕ) (numCPUs : ℤ)

/-- `takeByTopology` returns at once for no CPUs, fails for more than are available, and runs its
three phases otherwise. -/
theorem takeByTopology_eq : takeByTopology rt topo availableCPUs numCPUs =
    if numCPUs < 1 then .ok ∅
    else if ((topo.cpuDetails.cpus ∩ availableCPUs).card : ℤ) < numCPUs then
      .error "not enough cpus available to satisfy request"
    else (newCPUAccumulator topo availableCPUs numCPUs).takeSockets rt := by
  have hsat : (newCPUAccumulator topo availableCPUs numCPUs).isSatisfied = true ↔ numCPUs < 1 :=
    CPUAccumulator.isSatisfied_eq_true
  have hfail : (newCPUAccumulator topo availableCPUs numCPUs).isFailed = true ↔
      ((topo.cpuDetails.cpus ∩ availableCPUs).card : ℤ) < numCPUs := by
    simp [CPUAccumulator.isFailed, newCPUAccumulator]
  unfold takeByTopology
  simp only [hsat, hfail]
  rfl

/-- With as many CPUs available as are requested, `takeByTopology` returns the CPUs of an
accumulator that took just enough, and with it any property every take keeps. -/
theorem takeByTopology_returned {P : CPUAccumulator → Prop}
    (hP : CPUAccumulator.Stable topo availableCPUs numCPUs P)
    (hP0 : P (newCPUAccumulator topo availableCPUs numCPUs)) (hpos : 1 ≤ numCPUs)
    (hn : numCPUs ≤ (topo.cpuDetails.cpus ∩ availableCPUs).card) :
    ∃ r, CPUAccumulator.Returned topo availableCPUs numCPUs P r ∧
      takeByTopology rt topo availableCPUs numCPUs = .ok r := by
  rw [takeByTopology_eq, if_neg (by omega), if_neg (by omega)]
  exact CPUAccumulator.takeSockets_spec hP rt hn (accounts_new _ _ _) hpos hP0

theorem takeByTopology_ok_iff (h0 : 0 ≤ numCPUs) :
    (∃ result, takeByTopology rt topo availableCPUs numCPUs = .ok result) ↔
      numCPUs ≤ (topo.cpuDetails.cpus ∩ availableCPUs).card := by
  constructor
  · rintro ⟨result, hr⟩
    rw [takeByTopology_eq] at hr
    split_ifs at hr with hpos hfail
    · exact le_trans (by omega) (Nat.cast_nonneg _)
    · exact not_lt.mp hfail
  · intro hn
    by_cases hpos : numCPUs < 1
    · exact ⟨∅, by rw [takeByTopology_eq, if_pos hpos]⟩
    obtain ⟨r, -, hr⟩ := takeByTopology_returned rt topo availableCPUs numCPUs (P := fun _ => True)
      (fun _ _ _ _ _ => trivial) trivial (by omega) hn
    exact ⟨r, hr⟩

/-- What `takeByTopology` returns is `numCPUs` available CPUs of the topology. -/
theorem takeByTopology_eq_ok {result : Finset ℕ} (h0 : 0 ≤ numCPUs)
    (h : takeByTopology rt topo availableCPUs numCPUs = .ok result) :
    result ⊆ topo.cpuDetails.cpus ∩ availableCPUs ∧ (result.card : ℤ) = numCPUs := by
  have hn := (takeByTopology_ok_iff rt topo availableCPUs numCPUs h0).mp ⟨result, h⟩
  by_cases hpos : numCPUs < 1
  · rw [takeByTopology_eq, if_pos hpos, Except.ok.injEq] at h
    subst h
    exact ⟨Finset.empty_subset _, by simp; omega⟩
  obtain ⟨r, ⟨a, -, ha, hdone, rfl⟩, hr⟩ := takeByTopology_returned rt topo availableCPUs numCPUs
    (P := fun _ => True) (fun _ _ _ _ _ => trivial) trivial (by omega) hn
  rw [hr, Except.ok.injEq] at h
  subst h
  exact ⟨ha.result_subset, by linarith [ha.needed]⟩

end TakeByTopology

end Kubernetes.CPUManager
