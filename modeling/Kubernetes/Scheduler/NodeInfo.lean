import Mathlib
import Kubernetes.Foundations.GoStd

/-!
# `framework.NodeInfo`: what `AddPod` and `RemovePod` add up

`pkg/scheduler/framework/types.go`. A `NodeInfo` keeps, beside its pods, what they request
together (`Requested`, and `NonZeroRequested` where a container without a CPU or memory request
counts a default one), the pods with affinity terms, and the host ports in use (`UsedPorts`).
`AddPod` adds a pod's share to each, `RemovePod` subtracts it; `NewNodeInfo(pods...)` adds every
pod to an empty `NodeInfo`.

* `aggregates_run`: along any run of `AddPod` and `RemovePod` calls, each removal of a pod that is
  present, every aggregate is what `NewNodeInfo` builds from the pods present, provided the pods
  present have distinct keys and no two of them hold one host port (`Aggregates`). `AddPod` then
  `RemovePod` of one pod gives back the resources requested (`requested_removePod_addPod`).
* `UsedPorts` is a set, not a count: `RemovePod` deletes a host port the removed pod holds even
  when another pod holds it too (`removePod_drops_shared_host_port`).

The scheduler cache's model (`SchedulerCache.NodeInfo`) keeps of a `NodeInfo` only its pods and
node; this module keeps what `AddPod` and `RemovePod` read and write. A `v1.ResourceList` holds
each quantity in thousandths (`MilliValue`); `Value` rounds it up. `ScalarResources` is read by
name with `0` for a missing one, so it is a function here. The global generation counter is given
to each call.
-/

namespace Kubernetes.Framework

/-- What the scheduler runs with: the feature gates `LocalStorageCapacityIsolation` and
`PodOverhead`, and `schedutil.IsScalarResourceName`. -/
structure Config where
  localStorageCapacityIsolation : Bool
  podOverhead : Bool
  isScalarResourceName : String → Bool

/-- `v1.ResourceList`: a quantity in thousandths for each resource name. -/
abbrev ResourceList := AList fun _ : String => ℤ

/-- `Quantity.Value()`: the quantity rounded up to a whole number. -/
def quantityValue (milli : ℤ) : ℤ := -(-milli / 1000)

/-- `framework.Resource`. -/
@[ext]
structure Resource where
  milliCPU : ℤ
  memory : ℤ
  ephemeralStorage : ℤ
  allowedPodNumber : ℤ
  scalarResources : String → ℤ

namespace Resource

/-- `&Resource{}`. -/
def zero : Resource := ⟨0, 0, 0, 0, fun _ => 0⟩

variable (cfg : Config)

/-- The body of `Add(rl)`'s loop, for one resource. -/
def addEntry (r : Resource) (name : String) (q : ℤ) : Resource :=
  if name = "cpu" then { r with milliCPU := r.milliCPU + q }
  else if name = "memory" then { r with memory := r.memory + quantityValue q }
  else if name = "pods" then { r with allowedPodNumber := r.allowedPodNumber + quantityValue q }
  else if name = "ephemeral-storage" then
    if cfg.localStorageCapacityIsolation then
      { r with ephemeralStorage := r.ephemeralStorage + quantityValue q }
    else r
  else if cfg.isScalarResourceName name then
    { r with scalarResources :=
        Function.update r.scalarResources name (r.scalarResources name + quantityValue q) }
  else r

/-- `Add(rl)`. -/
def add (r : Resource) (rl : ResourceList) : Resource :=
  rl.entries.foldl (fun r e => r.addEntry cfg e.1 e.2) r

/-- The body of `SetMaxResource(rl)`'s loop, for one resource. -/
def setMaxEntry (r : Resource) (name : String) (q : ℤ) : Resource :=
  if name = "memory" then { r with memory := max r.memory (quantityValue q) }
  else if name = "cpu" then { r with milliCPU := max r.milliCPU q }
  else if name = "ephemeral-storage" then
    if cfg.localStorageCapacityIsolation then
      { r with ephemeralStorage := max r.ephemeralStorage (quantityValue q) }
    else r
  else if cfg.isScalarResourceName name then
    { r with scalarResources :=
        Function.update r.scalarResources name (max (r.scalarResources name) (quantityValue q)) }
  else r

/-- `SetMaxResource(rl)`. -/
def setMaxResource (r : Resource) (rl : ResourceList) : Resource :=
  rl.entries.foldl (fun r e => r.setMaxEntry cfg e.1 e.2) r

/-- The lines of `AddPodInfo` that add a pod's resources to `Requested`: CPU, memory, ephemeral
storage and the scalar resources, not the pod count. -/
def addRequested (r res : Resource) : Resource :=
  { r with
    milliCPU := r.milliCPU + res.milliCPU
    memory := r.memory + res.memory
    ephemeralStorage := r.ephemeralStorage + res.ephemeralStorage
    scalarResources := fun name => r.scalarResources name + res.scalarResources name }

/-- The lines of `RemovePod` that subtract them. -/
def subRequested (r res : Resource) : Resource :=
  { r with
    milliCPU := r.milliCPU - res.milliCPU
    memory := r.memory - res.memory
    ephemeralStorage := r.ephemeralStorage - res.ephemeralStorage
    scalarResources := fun name => r.scalarResources name - res.scalarResources name }

/-- The lines that add the CPU and memory a pod counts to `NonZeroRequested`. -/
def addNonZero (r : Resource) (cpu mem : ℤ) : Resource :=
  { r with milliCPU := r.milliCPU + cpu, memory := r.memory + mem }

end Resource

/-- `schedutil.DefaultMilliCPURequest`. -/
def defaultMilliCPURequest : ℤ := 100

/-- `schedutil.DefaultMemoryRequest`: 200 MiB. -/
def defaultMemoryRequest : ℤ := 200 * 1024 * 1024

/-- `schedutil.GetNonzeroRequests(&requests)`: the CPU request in thousandths and the memory
request, each its default when missing (an explicit zero stays zero). -/
def getNonzeroRequests (requests : ResourceList) : ℤ × ℤ :=
  ((requests.lookup "cpu").getD defaultMilliCPURequest,
    ((requests.lookup "memory").map quantityValue).getD defaultMemoryRequest)

/-- `v1.ContainerPort`, as `updateUsedPorts` reads it. -/
structure ContainerPort where
  hostIP : String
  protocol : String
  hostPort : ℤ
  deriving DecidableEq

/-- `v1.Container`: its requests and ports. -/
structure Container where
  requests : ResourceList
  ports : List ContainerPort
  deriving DecidableEq

/-- A pod, as `NodeInfo` reads it: its UID, name, containers, init containers, `Spec.Overhead`
(`none` for a `nil` map), and whether its affinity has pod affinity or anti-affinity terms
(`podWithAffinity`) and required anti-affinity terms (`podWithRequiredAntiAffinity`). -/
structure Pod where
  uid : String
  name : String
  containers : List Container
  initContainers : List Container
  overhead : Option ResourceList
  withAffinity : Bool
  withRequiredAntiAffinity : Bool
  deriving DecidableEq

/-- `GetPodKey(pod)`. -/
def getPodKey (pod : Pod) : Except String String :=
  if pod.uid.length = 0 then .error "Cannot get cache key for pod with empty UID" else .ok pod.uid

/-- `calculateResource(pod)`: the sum of the containers' requests, raised to each init container's
(`SetMaxResource`), plus the overhead when `PodOverhead` is on; and likewise the CPU and memory
counted with defaults. -/
def calculateResource (cfg : Config) (pod : Pod) : Resource × ℤ × ℤ :=
  let (res, non0CPU, non0Mem) := pod.containers.foldl (fun acc c =>
    let (cpu, mem) := getNonzeroRequests c.requests
    (acc.1.add cfg c.requests, acc.2.1 + cpu, acc.2.2 + mem)) (Resource.zero, 0, 0)
  let (res, non0CPU, non0Mem) := pod.initContainers.foldl (fun acc ic =>
    let (cpu, mem) := getNonzeroRequests ic.requests
    (acc.1.setMaxResource cfg ic.requests, max acc.2.1 cpu, max acc.2.2 mem))
    (res, non0CPU, non0Mem)
  match pod.overhead with
  | some overhead =>
    if cfg.podOverhead then
      (res.add cfg overhead, non0CPU + (overhead.lookup "cpu").getD 0,
        non0Mem + ((overhead.lookup "memory").map quantityValue).getD 0)
    else (res, non0CPU, non0Mem)
  | none => (res, non0CPU, non0Mem)

/-- `ProtocolPort`. -/
structure ProtocolPort where
  protocol : String
  port : ℤ
  deriving DecidableEq

/-- `HostPortInfo`: the host ports in use, each an IP with a protocol and port. -/
abbrev HostPortInfo := Finset (String × ProtocolPort)

/-- `sanitize` and `NewProtocolPort`: an empty IP is `0.0.0.0`, an empty protocol `TCP`. -/
def hostPortEntry (ip protocol : String) (port : ℤ) : String × ProtocolPort :=
  (if ip.length = 0 then "0.0.0.0" else ip, ⟨if protocol.length = 0 then "TCP" else protocol, port⟩)

/-- `HostPortInfo.Add(ip, protocol, port)`; a port of `0` or less is none. -/
def HostPortInfo.add (h : HostPortInfo) (ip protocol : String) (port : ℤ) : HostPortInfo :=
  if port ≤ 0 then h else insert (hostPortEntry ip protocol port) h

/-- `HostPortInfo.Remove(ip, protocol, port)`. -/
def HostPortInfo.remove (h : HostPortInfo) (ip protocol : String) (port : ℤ) : HostPortInfo :=
  if port ≤ 0 then h else h.erase (hostPortEntry ip protocol port)

/-- `updateUsedPorts(pod, add)`: each port of each container of the pod added or removed. -/
def updateUsedPorts (usedPorts : HostPortInfo) (pod : Pod) (add : Bool) : HostPortInfo :=
  pod.containers.foldl (fun h c => c.ports.foldl (fun h p =>
    if add then h.add p.hostIP p.protocol p.hostPort else h.remove p.hostIP p.protocol p.hostPort)
    h) usedPorts

/-- `framework.NodeInfo`, what `AddPod` and `RemovePod` read and write: the node's name (`none`
for a `nil` node), the pods, the pods with affinity terms, the host ports in use, the requested
resources and the generation. -/
structure NodeInfo where
  node : Option String
  pods : List Pod
  podsWithAffinity : List Pod
  podsWithRequiredAntiAffinity : List Pod
  usedPorts : HostPortInfo
  requested : Resource
  nonZeroRequested : Resource
  generation : ℕ

/-- `removeFromSlice(s, k)`: the first pod with key `k`, overwritten by the last one. A pod whose
key is an error has an empty UID, which `k` is not. -/
def removeFromSlice (s : List Pod) (k : String) : List Pod := Go.swapDelete (·.uid == k) s

namespace NodeInfo

variable (cfg : Config)

/-- `NewNodeInfo()`. -/
def empty (generation : ℕ) : NodeInfo :=
  ⟨none, [], [], [], ∅, Resource.zero, Resource.zero, generation⟩

/-- `AddPodInfo(NewPodInfo(pod))`, with the generation it takes. -/
def addPod (n : NodeInfo) (pod : Pod) (generation : ℕ) : NodeInfo :=
  let (res, non0CPU, non0Mem) := calculateResource cfg pod
  { n with
    requested := n.requested.addRequested res
    nonZeroRequested := n.nonZeroRequested.addNonZero non0CPU non0Mem
    pods := n.pods ++ [pod]
    podsWithAffinity :=
      if pod.withAffinity then n.podsWithAffinity ++ [pod] else n.podsWithAffinity
    podsWithRequiredAntiAffinity :=
      if pod.withRequiredAntiAffinity then n.podsWithRequiredAntiAffinity ++ [pod]
      else n.podsWithRequiredAntiAffinity
    usedPorts := updateUsedPorts n.usedPorts pod true
    generation }

/-- `RemovePod(pod)`, with the generation it takes when it finds the pod: the lists of pods with
affinity terms lose the pod first, so they have changed also when it is not found; the resources
subtracted are those of the argument. The error names the node, and panics (`none`) on a `nil`
one. -/
def removePod (n : NodeInfo) (pod : Pod) (generation : ℕ) :
    Option (NodeInfo × Except String Unit) :=
  match getPodKey pod with
  | .error err => some (n, .error err)
  | .ok k =>
    let n := if pod.withAffinity then
      { n with podsWithAffinity := removeFromSlice n.podsWithAffinity k } else n
    let n := if pod.withRequiredAntiAffinity then
      { n with podsWithRequiredAntiAffinity := removeFromSlice n.podsWithRequiredAntiAffinity k }
      else n
    if n.pods.any (·.uid == k) then
      let (res, non0CPU, non0Mem) := calculateResource cfg pod
      some ({ n with
        pods := removeFromSlice n.pods k
        requested := n.requested.subRequested res
        nonZeroRequested := n.nonZeroRequested.addNonZero (-non0CPU) (-non0Mem)
        usedPorts := updateUsedPorts n.usedPorts pod false
        generation }, .ok ())
    else
      match n.node with
      | some node => some (n, .error ("no corresponding pod " ++ pod.name ++ " in pods of node " ++
          node))
      | none => none

end NodeInfo

/-- `NewNodeInfo(pods...)`: every pod added to an empty `NodeInfo`, each call given `generation`. -/
def newNodeInfo (cfg : Config) (pods : List Pod) (generation : ℕ) : NodeInfo :=
  pods.foldl (fun n pod => n.addPod cfg pod generation) (NodeInfo.empty generation)

/-- The host ports a pod holds: each port of each of its containers, but a port of `0` or less. -/
def hostPorts (pod : Pod) : HostPortInfo :=
  (((pod.containers.flatMap (·.ports)).filter (0 < ·.hostPort)).map fun p =>
    hostPortEntry p.hostIP p.protocol p.hostPort).toFinset

/-- A call on a `NodeInfo`, with the generation it takes. -/
inductive Op
  | addPod (pod : Pod) (generation : ℕ)
  | removePod (pod : Pod) (generation : ℕ)

/-- One call; `none` where `RemovePod` panics. -/
def step (cfg : Config) (n : NodeInfo) : Op → Option NodeInfo
  | .addPod pod generation => some (n.addPod cfg pod generation)
  | .removePod pod generation => (n.removePod cfg pod generation).map Prod.fst

/-- A run of calls. -/
def run (cfg : Config) (n : NodeInfo) : List Op → Option NodeInfo
  | [] => some n
  | op :: ops => (step cfg n op).bind fun n => run cfg n ops

/-! ## Resources -/

namespace Resource

theorem subRequested_addRequested (r res : Resource) : (r.addRequested res).subRequested res = r := by
  ext <;> simp [addRequested, subRequested]

theorem addRequested_right_comm (r a b : Resource) :
    (r.addRequested a).addRequested b = (r.addRequested b).addRequested a := by
  ext <;> simp only [addRequested] <;> ring

theorem addNonZero_neg (r : Resource) (cpu mem : ℤ) :
    (r.addNonZero cpu mem).addNonZero (-cpu) (-mem) = r := by
  ext <;> simp [addNonZero]

theorem addNonZero_right_comm (r : Resource) (cpu mem cpu' mem' : ℤ) :
    (r.addNonZero cpu mem).addNonZero cpu' mem' = (r.addNonZero cpu' mem').addNonZero cpu mem := by
  ext <;> simp only [addNonZero] <;> ring

end Resource

/-! ## Host ports -/

theorem foldl_add_hostPorts (ports : List ContainerPort) (h : HostPortInfo) :
    ports.foldl (fun h p => h.add p.hostIP p.protocol p.hostPort) h =
      h ∪ ((ports.filter (0 < ·.hostPort)).map fun p =>
        hostPortEntry p.hostIP p.protocol p.hostPort).toFinset := by
  induction ports generalizing h with
  | nil => simp
  | cons p ports ih =>
    rw [List.foldl_cons, ih, HostPortInfo.add]
    by_cases hp : p.hostPort ≤ 0
    · simp [hp]
    · rw [if_neg hp, List.filter_cons_of_pos (by simpa using hp), List.map_cons,
        List.toFinset_cons, Finset.insert_eq, Finset.insert_eq, Finset.union_left_comm,
        Finset.union_assoc]

theorem foldl_remove_hostPorts (ports : List ContainerPort) (h : HostPortInfo) :
    ports.foldl (fun h p => h.remove p.hostIP p.protocol p.hostPort) h =
      h \ ((ports.filter (0 < ·.hostPort)).map fun p =>
        hostPortEntry p.hostIP p.protocol p.hostPort).toFinset := by
  induction ports generalizing h with
  | nil => simp
  | cons p ports ih =>
    rw [List.foldl_cons, ih, HostPortInfo.remove]
    by_cases hp : p.hostPort ≤ 0
    · simp [hp]
    · rw [if_neg hp, List.filter_cons_of_pos (by simpa using hp), List.map_cons,
        List.toFinset_cons, Finset.erase_sdiff_comm, Finset.sdiff_insert]

/-- Adding a pod's ports adds the host ports it holds. -/
theorem updateUsedPorts_true (h : HostPortInfo) (pod : Pod) :
    updateUsedPorts h pod true = h ∪ hostPorts pod := by
  unfold updateUsedPorts hostPorts
  simp only [if_true]
  induction pod.containers generalizing h with
  | nil => simp
  | cons c cs ih =>
    rw [List.foldl_cons, ih, foldl_add_hostPorts, List.flatMap_cons, List.filter_append,
      List.map_append, List.toFinset_append, Finset.union_assoc]

/-- Removing them takes out every host port it holds. -/
theorem updateUsedPorts_false (h : HostPortInfo) (pod : Pod) :
    updateUsedPorts h pod false = h \ hostPorts pod := by
  unfold updateUsedPorts hostPorts
  simp only [Bool.false_eq_true, if_false]
  induction pod.containers generalizing h with
  | nil => simp
  | cons c cs ih =>
    rw [List.foldl_cons, ih, foldl_remove_hostPorts, List.flatMap_cons, List.filter_append,
      List.map_append, List.toFinset_append, sdiff_sdiff_left, Finset.sup_eq_union]

/-! ## What `AddPod` adds, and `NewNodeInfo` adds up -/

namespace NodeInfo

variable {cfg : Config} {g : ℕ}

@[simp] theorem addPod_pods (n : NodeInfo) (pod : Pod) : (n.addPod cfg pod g).pods = n.pods ++ [pod] :=
  rfl

@[simp] theorem addPod_requested (n : NodeInfo) (pod : Pod) :
    (n.addPod cfg pod g).requested = n.requested.addRequested (calculateResource cfg pod).1 := rfl

@[simp] theorem addPod_nonZeroRequested (n : NodeInfo) (pod : Pod) :
    (n.addPod cfg pod g).nonZeroRequested = n.nonZeroRequested.addNonZero
      (calculateResource cfg pod).2.1 (calculateResource cfg pod).2.2 := rfl

@[simp] theorem addPod_podsWithAffinity (n : NodeInfo) (pod : Pod) :
    (n.addPod cfg pod g).podsWithAffinity = n.podsWithAffinity ++ [pod].filter (·.withAffinity) := by
  by_cases h : pod.withAffinity <;> simp [addPod, h]

@[simp] theorem addPod_podsWithRequiredAntiAffinity (n : NodeInfo) (pod : Pod) :
    (n.addPod cfg pod g).podsWithRequiredAntiAffinity =
      n.podsWithRequiredAntiAffinity ++ [pod].filter (·.withRequiredAntiAffinity) := by
  by_cases h : pod.withRequiredAntiAffinity <;> simp [addPod, h]

@[simp] theorem addPod_usedPorts (n : NodeInfo) (pod : Pod) :
    (n.addPod cfg pod g).usedPorts = n.usedPorts ∪ hostPorts pod :=
  updateUsedPorts_true _ _

end NodeInfo

section NewNodeInfo

variable {cfg : Config} {g : ℕ}

theorem newNodeInfo_append (pods : List Pod) (pod : Pod) :
    newNodeInfo cfg (pods ++ [pod]) g = (newNodeInfo cfg pods g).addPod cfg pod g := by
  rw [newNodeInfo, List.foldl_append, List.foldl_cons, List.foldl_nil]
  rfl

/-- The fields of `NewNodeInfo(pods...)`, each the fold of what `AddPod` adds. -/
theorem newNodeInfo_fields (pods : List Pod) :
    (newNodeInfo cfg pods g).pods = pods ∧
      (newNodeInfo cfg pods g).requested =
        pods.foldl (fun r pod => r.addRequested (calculateResource cfg pod).1) Resource.zero ∧
      (newNodeInfo cfg pods g).nonZeroRequested = pods.foldl (fun r pod =>
        r.addNonZero (calculateResource cfg pod).2.1 (calculateResource cfg pod).2.2) Resource.zero ∧
      (newNodeInfo cfg pods g).podsWithAffinity = pods.filter (·.withAffinity) ∧
      (newNodeInfo cfg pods g).podsWithRequiredAntiAffinity =
        pods.filter (·.withRequiredAntiAffinity) ∧
      (newNodeInfo cfg pods g).usedPorts = pods.foldl (fun h pod => h ∪ hostPorts pod) ∅ := by
  induction pods using List.reverseRecOn with
  | nil => exact ⟨rfl, rfl, rfl, rfl, rfl, rfl⟩
  | append_singleton pods pod ih =>
    obtain ⟨hpods, hreq, hnon, haff, hanti, hports⟩ := ih
    simp only [newNodeInfo_append, NodeInfo.addPod_pods, NodeInfo.addPod_requested,
      NodeInfo.addPod_nonZeroRequested, NodeInfo.addPod_podsWithAffinity,
      NodeInfo.addPod_podsWithRequiredAntiAffinity, NodeInfo.addPod_usedPorts, List.foldl_append,
      List.foldl_cons, List.foldl_nil, List.filter_append, hpods, hreq, hnon, haff, hanti, hports,
      and_self]

/-- What `NewNodeInfo` adds up does not depend on the order of the pods. -/
theorem newNodeInfo_perm {pods pods' : List Pod} (h : pods.Perm pods') :
    (newNodeInfo cfg pods g).requested = (newNodeInfo cfg pods' g).requested ∧
      (newNodeInfo cfg pods g).nonZeroRequested = (newNodeInfo cfg pods' g).nonZeroRequested ∧
      (newNodeInfo cfg pods g).podsWithAffinity.Perm (newNodeInfo cfg pods' g).podsWithAffinity ∧
      (newNodeInfo cfg pods g).podsWithRequiredAntiAffinity.Perm
        (newNodeInfo cfg pods' g).podsWithRequiredAntiAffinity ∧
      (newNodeInfo cfg pods g).usedPorts = (newNodeInfo cfg pods' g).usedPorts := by
  obtain ⟨-, hreq, hnon, haff, hanti, hports⟩ := @newNodeInfo_fields cfg g pods
  obtain ⟨-, hreq', hnon', haff', hanti', hports'⟩ := @newNodeInfo_fields cfg g pods'
  rw [hreq, hnon, haff, hanti, hports, hreq', hnon', haff', hanti', hports']
  refine ⟨h.foldl_eq' (fun _ _ _ _ r => Resource.addRequested_right_comm _ _ _) _,
    h.foldl_eq' (fun _ _ _ _ r => Resource.addNonZero_right_comm _ _ _ _ _) _,
    h.filter _, h.filter _, h.foldl_eq' (fun _ _ _ _ s => Finset.union_right_comm _ _ _) _⟩

end NewNodeInfo

/-! ## Removing a pod by its key -/

theorem getPodKey_eq_ok {pod : Pod} {k : String} :
    getPodKey pod = .ok k ↔ pod.uid.length ≠ 0 ∧ pod.uid = k := by
  unfold getPodKey
  split_ifs with h <;> simp [h]

/-- Among pods of distinct keys, the first with a pod's key is that pod. -/
theorem eraseP_uid_eq_erase {l : List Pod} (hkeys : l.Pairwise fun p q => p.uid ≠ q.uid)
    {pod : Pod} (hp : pod ∈ l) : l.eraseP (·.uid == pod.uid) = l.erase pod := by
  induction l with
  | nil => cases hp
  | cons q l ih =>
    rw [List.pairwise_cons] at hkeys
    by_cases hq : q = pod
    · subst hq
      simp
    · have hp' : pod ∈ l := (List.mem_cons.mp hp).resolve_left (Ne.symm hq)
      rw [List.eraseP_cons_of_neg (by simpa using hkeys.1 pod hp'), List.erase_cons_tail
        (by simpa using hq), ih hkeys.2 hp']

theorem removeFromSlice_perm_erase {l : List Pod} (hkeys : l.Pairwise fun p q => p.uid ≠ q.uid)
    {pod : Pod} (hp : pod ∈ l) : (removeFromSlice l pod.uid).Perm (l.erase pod) :=
  eraseP_uid_eq_erase hkeys hp ▸ Go.swapDelete_perm _ l

/-- `RemovePod` on a list of pods with an affinity term `f`, a permutation of those of `l`: the
list keeps its pods with the term but the removed one. -/
theorem perm_filter_removeFromSlice (f : Pod → Bool) {l s : List Pod}
    (hkeys : l.Pairwise fun p q => p.uid ≠ q.uid) {pod : Pod} (hp : pod ∈ l)
    (hs : s.Perm (l.filter f)) :
    (if f pod then removeFromSlice s pod.uid else s).Perm ((l.erase pod).filter f) := by
  rw [← List.erase_filter]
  split
  · rename_i hf
    have hkeys' : s.Pairwise fun p q => p.uid ≠ q.uid :=
      (hs.pairwise_iff fun h => h.symm).mpr (hkeys.filter f)
    have hps : pod ∈ s := hs.symm.subset (List.mem_filter.mpr ⟨hp, hf⟩)
    exact (removeFromSlice_perm_erase hkeys' hps).trans (hs.erase pod)
  · rename_i hf
    rw [List.erase_of_not_mem fun h => hf (List.mem_filter.mp h).2]
    exact hs

/-! ## The aggregates of the pods present -/

/-- The aggregates of a `NodeInfo` are what `NewNodeInfo` builds from its pods (the pod lists up to
order), and its pods have distinct keys and hold disjoint host ports. -/
structure Aggregates (cfg : Config) (n : NodeInfo) : Prop where
  requested : n.requested = (newNodeInfo cfg n.pods 0).requested
  nonZeroRequested : n.nonZeroRequested = (newNodeInfo cfg n.pods 0).nonZeroRequested
  podsWithAffinity : n.podsWithAffinity.Perm (newNodeInfo cfg n.pods 0).podsWithAffinity
  podsWithRequiredAntiAffinity :
    n.podsWithRequiredAntiAffinity.Perm (newNodeInfo cfg n.pods 0).podsWithRequiredAntiAffinity
  usedPorts : n.usedPorts = (newNodeInfo cfg n.pods 0).usedPorts
  keys : n.pods.Pairwise fun p q => p.uid ≠ q.uid
  disjointPorts : n.pods.Pairwise fun p q => Disjoint (hostPorts p) (hostPorts q)

/-- The calls that keep `Aggregates`, in the state they are made in: a pod added has a key no pod
present has, and holds no host port one of them holds; a pod removed is present. -/
def Allowed (n : NodeInfo) : Op → Prop
  | .addPod pod _ => ∀ q ∈ n.pods, q.uid ≠ pod.uid ∧ Disjoint (hostPorts q) (hostPorts pod)
  | .removePod pod _ => pod ∈ n.pods

instance (n : NodeInfo) : DecidablePred (Allowed n)
  | .addPod _ _ => inferInstanceAs (Decidable (∀ q ∈ n.pods, _))
  | .removePod pod _ => inferInstanceAs (Decidable (pod ∈ n.pods))

/-- A run of allowed calls. -/
def AllowedRun (cfg : Config) : NodeInfo → List Op → Prop
  | _, [] => True
  | n, op :: ops => Allowed n op ∧ ∀ n', step cfg n op = some n' → AllowedRun cfg n' ops

variable {cfg : Config} {n : NodeInfo}

theorem aggregates_empty (g : ℕ) : Aggregates cfg (NodeInfo.empty g) :=
  ⟨rfl, rfl, .refl _, .refl _, rfl, .nil, .nil⟩

theorem Aggregates.addPod (h : Aggregates cfg n) {pod : Pod}
    (hnew : ∀ q ∈ n.pods, q.uid ≠ pod.uid ∧ Disjoint (hostPorts q) (hostPorts pod)) (g : ℕ) :
    Aggregates cfg (n.addPod cfg pod g) := by
  have happend : newNodeInfo cfg (n.pods ++ [pod]) 0 = (newNodeInfo cfg n.pods 0).addPod cfg pod 0 :=
    newNodeInfo_append n.pods pod
  refine ⟨?_, ?_, ?_, ?_, ?_, ?_, ?_⟩
  · rw [NodeInfo.addPod_pods, happend, NodeInfo.addPod_requested, NodeInfo.addPod_requested,
      h.requested]
  · rw [NodeInfo.addPod_pods, happend, NodeInfo.addPod_nonZeroRequested,
      NodeInfo.addPod_nonZeroRequested, h.nonZeroRequested]
  · rw [NodeInfo.addPod_pods, happend, NodeInfo.addPod_podsWithAffinity,
      NodeInfo.addPod_podsWithAffinity]
    exact h.podsWithAffinity.append_right _
  · rw [NodeInfo.addPod_pods, happend, NodeInfo.addPod_podsWithRequiredAntiAffinity,
      NodeInfo.addPod_podsWithRequiredAntiAffinity]
    exact h.podsWithRequiredAntiAffinity.append_right _
  · rw [NodeInfo.addPod_pods, happend, NodeInfo.addPod_usedPorts, NodeInfo.addPod_usedPorts,
      h.usedPorts]
  · rw [NodeInfo.addPod_pods, List.pairwise_append]
    exact ⟨h.keys, List.pairwise_singleton _ _, fun q hq p hp =>
      List.mem_singleton.mp hp ▸ (hnew q hq).1⟩
  · rw [NodeInfo.addPod_pods, List.pairwise_append]
    exact ⟨h.disjointPorts, List.pairwise_singleton _ _, fun q hq p hp =>
      List.mem_singleton.mp hp ▸ (hnew q hq).2⟩

/-- `RemovePod` of a pod with a key that a pod present has. -/
theorem NodeInfo.removePod_of_found {pod : Pod} {k : String} (hkey : getPodKey pod = .ok k)
    (hfound : n.pods.any (·.uid == k)) (g : ℕ) :
    n.removePod cfg pod g = some ({ n with
      pods := removeFromSlice n.pods k
      podsWithAffinity :=
        if pod.withAffinity then removeFromSlice n.podsWithAffinity k else n.podsWithAffinity
      podsWithRequiredAntiAffinity := if pod.withRequiredAntiAffinity then
        removeFromSlice n.podsWithRequiredAntiAffinity k else n.podsWithRequiredAntiAffinity
      requested := n.requested.subRequested (calculateResource cfg pod).1
      nonZeroRequested := n.nonZeroRequested.addNonZero (-(calculateResource cfg pod).2.1)
        (-(calculateResource cfg pod).2.2)
      usedPorts := updateUsedPorts n.usedPorts pod false
      generation := g }, .ok ()) := by
  rw [NodeInfo.removePod, hkey]
  cases pod.withAffinity <;> cases pod.withRequiredAntiAffinity <;> simp [hfound]

/-- What `NewNodeInfo` adds up over the pods, split into the rest and one pod present. -/
theorem newNodeInfo_erase {pods : List Pod} {pod : Pod} (hp : pod ∈ pods) :
    (newNodeInfo cfg pods 0).requested =
        (newNodeInfo cfg (pods.erase pod) 0).requested.addRequested (calculateResource cfg pod).1 ∧
      (newNodeInfo cfg pods 0).nonZeroRequested =
        (newNodeInfo cfg (pods.erase pod) 0).nonZeroRequested.addNonZero
          (calculateResource cfg pod).2.1 (calculateResource cfg pod).2.2 ∧
      (newNodeInfo cfg pods 0).usedPorts =
        (newNodeInfo cfg (pods.erase pod) 0).usedPorts ∪ hostPorts pod := by
  have hperm : pods.Perm (pods.erase pod ++ [pod]) :=
    (List.perm_cons_erase hp).trans (List.perm_append_singleton _ _).symm
  obtain ⟨hreq, hnon, -, -, hports⟩ := @newNodeInfo_perm cfg 0 _ _ hperm
  rw [hreq, hnon, hports, newNodeInfo_append]
  exact ⟨rfl, rfl, NodeInfo.addPod_usedPorts _ _⟩

theorem Aggregates.removePod (h : Aggregates cfg n) {pod : Pod} (hp : pod ∈ n.pods) (g : ℕ) :
    Aggregates cfg { n with
      pods := removeFromSlice n.pods pod.uid
      podsWithAffinity := if pod.withAffinity then removeFromSlice n.podsWithAffinity pod.uid
        else n.podsWithAffinity
      podsWithRequiredAntiAffinity := if pod.withRequiredAntiAffinity then
        removeFromSlice n.podsWithRequiredAntiAffinity pod.uid else n.podsWithRequiredAntiAffinity
      requested := n.requested.subRequested (calculateResource cfg pod).1
      nonZeroRequested := n.nonZeroRequested.addNonZero (-(calculateResource cfg pod).2.1)
        (-(calculateResource cfg pod).2.2)
      usedPorts := updateUsedPorts n.usedPorts pod false
      generation := g } := by
  have hperm : (removeFromSlice n.pods pod.uid).Perm (n.pods.erase pod) :=
    removeFromSlice_perm_erase h.keys hp
  obtain ⟨hreq, hnon, haff, hanti, hports⟩ := @newNodeInfo_perm cfg 0 _ _ hperm
  obtain ⟨hreq', hnon', hports'⟩ := @newNodeInfo_erase cfg _ _ hp
  have hfields := @newNodeInfo_fields cfg 0
  have hsplit : n.pods.Perm (n.pods.erase pod ++ [pod]) :=
    (List.perm_cons_erase hp).trans (List.perm_append_singleton _ _).symm
  refine ⟨?_, ?_, ?_, ?_, ?_, ?_, ?_⟩
  · rw [hreq, h.requested, hreq', Resource.subRequested_addRequested]
  · rw [hnon, h.nonZeroRequested, hnon', Resource.addNonZero_neg]
  · have hs : n.podsWithAffinity.Perm (n.pods.filter (·.withAffinity)) :=
      (hfields n.pods).2.2.2.1 ▸ h.podsWithAffinity
    refine (perm_filter_removeFromSlice _ h.keys hp hs).trans ?_
    rw [← (hfields _).2.2.2.1]
    exact haff.symm
  · have hs : n.podsWithRequiredAntiAffinity.Perm (n.pods.filter (·.withRequiredAntiAffinity)) :=
      (hfields n.pods).2.2.2.2.1 ▸ h.podsWithRequiredAntiAffinity
    refine (perm_filter_removeFromSlice _ h.keys hp hs).trans ?_
    rw [← (hfields _).2.2.2.2.1]
    exact hanti.symm
  · -- no other pod holds a host port of the removed one, so none of the others' is taken out
    have hothers : ∀ q ∈ n.pods.erase pod, Disjoint (hostPorts q) (hostPorts pod) := by
      have hpair := (hsplit.pairwise_iff fun h => Disjoint.symm h).mp h.disjointPorts
      exact fun q hq => (List.pairwise_append.mp hpair).2.2 q hq pod (List.mem_singleton_self _)
    have hdisj : Disjoint (newNodeInfo cfg (n.pods.erase pod) 0).usedPorts (hostPorts pod) := by
      rw [Finset.disjoint_left, (hfields _).2.2.2.2.2]
      intro x hx
      rw [Go.mem_foldl_union hostPorts] at hx
      obtain ⟨q, hq, hxq⟩ := hx.resolve_left (Finset.notMem_empty x)
      exact Finset.disjoint_left.mp (hothers q hq) hxq
    rw [updateUsedPorts_false, h.usedPorts, hports', hports, Finset.union_sdiff_right,
      Finset.sdiff_eq_self_of_disjoint hdisj]
  · exact (hperm.pairwise_iff fun h => Ne.symm h).mpr (h.keys.sublist List.erase_sublist)
  · exact (hperm.pairwise_iff fun h => Disjoint.symm h).mpr
      (h.disjointPorts.sublist List.erase_sublist)

/-- An allowed call keeps `Aggregates`, and `RemovePod` does not panic. -/
theorem aggregates_step (h : Aggregates cfg n) {op : Op} (hop : Allowed n op) :
    ∃ n', step cfg n op = some n' ∧ Aggregates cfg n' := by
  cases op with
  | addPod pod g => exact ⟨_, rfl, h.addPod hop g⟩
  | removePod pod g =>
    cases hkey : getPodKey pod with
    | error err =>
      exact ⟨n, by rw [step, NodeInfo.removePod, hkey]; rfl, h⟩
    | ok k =>
      obtain ⟨-, rfl⟩ := getPodKey_eq_ok.mp hkey
      have hfound : n.pods.any (·.uid == pod.uid) := List.any_eq_true.mpr ⟨pod, hop, by simp⟩
      exact ⟨_, by rw [step, NodeInfo.removePod_of_found hkey hfound]; rfl, h.removePod hop g⟩

/-- **Along any run of allowed calls, the aggregates are what `NewNodeInfo` builds** from the pods
present: the resources requested, with and without defaults, and the host ports in use are equal,
and the lists of pods with affinity terms hold the same pods. -/
theorem aggregates_run (h : Aggregates cfg n) (ops : List Op) (hops : AllowedRun cfg n ops) :
    ∃ n', run cfg n ops = some n' ∧ Aggregates cfg n' := by
  induction ops generalizing n with
  | nil => exact ⟨n, rfl, h⟩
  | cons op ops ih =>
    obtain ⟨hop, hrest⟩ := hops
    obtain ⟨n₁, hstep, h₁⟩ := aggregates_step h hop
    obtain ⟨n', hrun, h'⟩ := ih h₁ (hrest n₁ hstep)
    exact ⟨n', by rw [run, hstep, Option.bind_some, hrun], h'⟩

/-- `AddPod` then `RemovePod` of one pod gives back the resources requested. -/
theorem requested_removePod_addPod (n : NodeInfo) {pod : Pod} (hkey : pod.uid.length ≠ 0)
    (g g' : ℕ) : ∃ n', (n.addPod cfg pod g).removePod cfg pod g' = some (n', .ok ()) ∧
      n'.requested = n.requested ∧ n'.nonZeroRequested = n.nonZeroRequested := by
  have hfound : (n.addPod cfg pod g).pods.any (·.uid == pod.uid) := by simp
  rw [NodeInfo.removePod_of_found (getPodKey_eq_ok.mpr ⟨hkey, rfl⟩) hfound]
  exact ⟨_, rfl, Resource.subRequested_addRequested _ _, Resource.addNonZero_neg _ _ _⟩

/-! ## Two pods on one host port -/

/-- The scheduler's configuration with its feature gates on. -/
def defaultConfig : Config := ⟨true, true, fun _ => false⟩

/-- A pod keyed `uid` whose one container holds the host port `port` over TCP on every IP. -/
def hostPortPod (uid : String) (port : ℤ) : Pod :=
  ⟨uid, uid, [⟨∅, [⟨"", "TCP", port⟩]⟩], [], none, false, false⟩

theorem aggregates_run_hostPortPods : ∃ n', run defaultConfig (NodeInfo.empty 0)
      [.addPod (hostPortPod "a" 8080) 1, .addPod (hostPortPod "b" 9090) 2,
        .removePod (hostPortPod "a" 8080) 3] = some n' ∧ Aggregates defaultConfig n' :=
  aggregates_run (aggregates_empty 0) _
    ⟨fun _ hq => absurd hq List.not_mem_nil, fun n₁ h₁ => by
      cases h₁
      exact ⟨by decide, fun n₂ h₂ => by
        cases h₂
        exact ⟨by simp [Allowed], fun _ _ => trivial⟩⟩⟩

/-- **`RemovePod` frees a host port another pod still holds**: after two pods holding one host
port are added and the first removed, `UsedPorts` is empty, while the pod left holds the port and
`NewNodeInfo` of it has the port in use. -/
theorem removePod_drops_shared_host_port :
    (run defaultConfig (NodeInfo.empty 0) [.addPod (hostPortPod "a" 8080) 1,
        .addPod (hostPortPod "b" 8080) 2, .removePod (hostPortPod "a" 8080) 3]).map
        (fun n => (n.pods.map (·.uid), n.usedPorts)) = some (["b"], ∅) ∧
      hostPorts (hostPortPod "b" 8080) = {("0.0.0.0", ⟨"TCP", 8080⟩)} ∧
      (newNodeInfo defaultConfig [hostPortPod "b" 8080] 0).usedPorts =
        {("0.0.0.0", ⟨"TCP", 8080⟩)} := by
  decide

end Kubernetes.Framework
