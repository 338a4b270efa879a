import Mathlib
import Kubernetes.Foundations.GoStd

/-!
# The scheduler's cache

The scheduler's cache (`pkg/scheduler/internal/cache`) keeps what the scheduler knows of the
cluster between two scheduling cycles: for every node a `NodeInfo`, the node with the pods placed
on it, and for every pod its state (`podState`): assumed by the scheduler and not yet confirmed,
or added by an event of the API server. It is fed by two kinds of calls.

* The pod calls `AssumePod`, `finishBinding`, `ForgetPod`, `AddPod`, `UpdatePod`, `RemovePod`
  and the periodic `cleanupAssumedPods` move a pod along the state machine of `interface.go`,
  adding it to and removing it from the `NodeInfo` of its node (`addPod`, `removePod`).
* The node calls `AddNode`, `UpdateNode` and `RemoveNode` set or clear the node of a `NodeInfo`
  and keep the zones of the nodes in the node tree (`nodeTree`). A removed node whose pods have
  not all been removed stays as a ghost, with no node, until its last pod goes.

Every change to a `NodeInfo` takes a new generation from a global counter (`nextGeneration`), and
moves the `NodeInfo` to the head of a doubly linked list (`moveNodeInfoToHead`), which so stays in
decreasing order of generations. `UpdateSnapshot` uses that order to copy into a `Snapshot` only
the `NodeInfo`s changed since the snapshot's generation, and rebuilds the snapshot's lists when
nodes came or went.

The model keeps of a pod its UID (`GetPodKey`), name, node and whether it declares affinity or
required anti-affinity terms; of a node its name and labels; of a `NodeInfo` its node, its pods,
its two lists of pods with affinity terms and its generation. Requested resources, ports, image
states and transient volume information are left out: no call here decides on them. The linked
list is the list of names of its items from `headNode` along `next`; the snapshot's map and lists
hold addresses of `NodeInfo` objects, so that an update in place (`*existing = *clone`) is seen
through the lists as it is in Go. Time is a number of nanoseconds. The exported methods keep Go's
capitalized names, since the helpers they call have the same words in lower case. A method
returns the cache it leaves beside its error; `klog.Fatal`, which ends the process, is `none`.
-/

namespace Kubernetes.SchedulerCache

/-! ## Pods, nodes and `NodeInfo` -/

/-- A pod, as the cache reads it: its UID, name, `Spec.NodeName`, and whether its affinity has
pod affinity or anti-affinity terms (`podWithAffinity`) and required anti-affinity terms
(`podWithRequiredAntiAffinity`). -/
structure Pod where
  uid : String
  name : String
  nodeName : String
  withAffinity : Bool
  withRequiredAntiAffinity : Bool
  deriving DecidableEq

/-- `GetPodKey(pod)`: the pod's UID, which must not be empty. -/
def getPodKey (pod : Pod) : Except String String :=
  if pod.uid.length = 0 then .error "Cannot get cache key for pod with empty UID" else .ok pod.uid

/-- A node, as the cache reads it: its name and labels. -/
structure Node where
  name : String
  labels : AList (fun _ : String => String)
  deriving DecidableEq

/-- `GetZoneKey(node)`: region and zone, from the deprecated labels if set and otherwise the
current ones, joined by a NUL byte between colons; empty when both are. -/
def getZoneKey (node : Node) : String :=
  let labels := node.labels
  let zone := match labels.lookup "failure-domain.beta.kubernetes.io/zone" with
    | some zone => zone
    | none => (labels.lookup "topology.kubernetes.io/zone").getD ""
  let region := match labels.lookup "failure-domain.beta.kubernetes.io/region" with
    | some region => region
    | none => (labels.lookup "topology.kubernetes.io/region").getD ""
  if region = "" ∧ zone = "" then "" else region ++ ":\x00:" ++ zone

/-- `framework.NodeInfo`, as far as the cache reads it. -/
structure NodeInfo where
  node : Option Node
  pods : List Pod
  podsWithAffinity : List Pod
  podsWithRequiredAntiAffinity : List Pod
  generation : ℕ
  deriving DecidableEq

/-- `removeFromSlice(s, k)`: the first pod with key `k` is overwritten by the last pod, and the
slice loses its last element. The loop skips a pod whose key is an error, whose UID is empty; `k`
is a key, so comparing UIDs skips it too. -/
def removeFromSlice (s : List Pod) (k : String) : List Pod :=
  match s.findIdx? (·.uid == k), s.getLast? with
  | some i, some last => (s.set i last).dropLast
  | _, _ => s

namespace NodeInfo

/-- `&framework.NodeInfo{}`. -/
def empty : NodeInfo := ⟨none, [], [], [], 0⟩

/-- `NewNodeInfo()`, with the generation it takes. -/
def new (generation : ℕ) : NodeInfo := { empty with generation }

/-- `AddPod(pod)`, with the generation it takes. -/
def addPod (n : NodeInfo) (pod : Pod) (generation : ℕ) : NodeInfo :=
  { n with
    pods := n.pods ++ [pod]
    podsWithAffinity :=
      if pod.withAffinity then n.podsWithAffinity ++ [pod] else n.podsWithAffinity
    podsWithRequiredAntiAffinity :=
      if pod.withRequiredAntiAffinity then n.podsWithRequiredAntiAffinity ++ [pod]
      else n.podsWithRequiredAntiAffinity
    generation }

/-- `RemovePod(pod)`, with the generation it takes when it finds the pod. The lists of pods with
affinity terms lose the pod, by what the argument declares, before the pod is looked for, so they
have changed also when it is not found. Go's message then reads the name of the `NodeInfo`'s node,
which panics when there is none; the model writes an empty name. -/
def removePod (n : NodeInfo) (pod : Pod) (generation : ℕ) : NodeInfo × Except String Unit :=
  match getPodKey pod with
  | .error err => (n, .error err)
  | .ok k =>
    let n := if pod.withAffinity then
      { n with podsWithAffinity := removeFromSlice n.podsWithAffinity k } else n
    let n := if pod.withRequiredAntiAffinity then
      { n with podsWithRequiredAntiAffinity := removeFromSlice n.podsWithRequiredAntiAffinity k }
      else n
    if n.pods.any (·.uid == k) then ({ n with pods := removeFromSlice n.pods k, generation }, .ok ())
    else (n, .error ("no corresponding pod " ++ pod.name ++ " in pods of node " ++
      (n.node.map (·.name)).getD ""))

/-- `SetNode(node)`, with the generation it takes. -/
def setNode (n : NodeInfo) (node : Node) (generation : ℕ) : NodeInfo :=
  { n with node := some node, generation }

/-- `RemoveNode()`, with the generation it takes. -/
def removeNode (n : NodeInfo) (generation : ℕ) : NodeInfo := { n with node := none, generation }

end NodeInfo

/-! ## The node tree -/

/-- `nodeTree`: the names of the nodes of each zone, the zones in the order they came, and the
number of nodes. -/
structure NodeTree where
  tree : AList (fun _ : String => List String)
  zones : List String
  numNodes : ℕ

namespace NodeTree

/-- `addNode(n)`: a node already in its zone is not added again. -/
def addNode (nt : NodeTree) (n : Node) : NodeTree :=
  let zone := getZoneKey n
  match nt.tree.lookup zone with
  | some na =>
    if n.name ∈ na then nt
    else { nt with tree := nt.tree.insert zone (na ++ [n.name]), numNodes := nt.numNodes + 1 }
  | none =>
    { nt with zones := nt.zones ++ [zone], tree := nt.tree.insert zone [n.name],
              numNodes := nt.numNodes + 1 }

/-- `removeZone(zone)`. -/
def removeZone (nt : NodeTree) (zone : String) : NodeTree :=
  { nt with tree := nt.tree.erase zone, zones := nt.zones.erase zone }

/-- `removeNode(n)`: the node is looked for in the zone its labels give. -/
def removeNode (nt : NodeTree) (n : Node) : Except String NodeTree :=
  let zone := getZoneKey n
  match nt.tree.lookup zone with
  | some na =>
    if n.name ∈ na then
      let na := na.erase n.name
      let nt := { nt with tree := nt.tree.insert zone na }
      let nt := if na.length = 0 then nt.removeZone zone else nt
      .ok { nt with numNodes := nt.numNodes - 1 }
    else .error ("node " ++ Go.quote n.name ++ " in group " ++ Go.quote zone ++ " was not found")
  | none => .error ("node " ++ Go.quote n.name ++ " in group " ++ Go.quote zone ++ " was not found")

/-- `updateNode(old, new)`: a node whose zone changed is removed from the old one, whether or not
it is there, and added to the new one. -/
def updateNode (nt : NodeTree) (old new : Node) : NodeTree :=
  if getZoneKey old = getZoneKey new then nt
  else
    let nt := match nt.removeNode old with
      | .ok nt => nt
      | .error _ => nt
    nt.addNode new

/-- One pass of `list`'s loop over the zones at `nodeIndex`: the names it appends, one from each
zone that still has a node at that index, and the number of zones exhausted at that index. -/
def listPass (nt : NodeTree) (nodeIndex : ℕ) : List String × ℕ :=
  nt.zones.foldl (fun acc zone =>
    let na := (nt.tree.lookup zone).getD []
    match na[nodeIndex]? with
    | some name => (acc.1 ++ [name], acc.2)
    | none => (acc.1, if nodeIndex = na.length then acc.2 + 1 else acc.2)) ([], 0)

/-- The outer loop of `list`, with the fuel it needs: each pass that does not stop takes another
name, or finds another zone exhausted, so it stops within `numNodes + zones.length + 1` passes. -/
def listLoop (nt : NodeTree) : ℕ → List String → ℕ → ℕ → List String × Option String
  | 0, nodesList, _, _ =>
    (nodesList, some "all zones exhausted before reaching count of nodes expected")
  | fuel + 1, nodesList, numExhaustedZones, nodeIndex =>
    if nodesList.length < nt.numNodes then
      if numExhaustedZones ≥ nt.zones.length then
        (nodesList, some "all zones exhausted before reaching count of nodes expected")
      else
        let pass := nt.listPass nodeIndex
        nt.listLoop fuel (nodesList ++ pass.1) (numExhaustedZones + pass.2) (nodeIndex + 1)
    else (nodesList, none)

/-- `list()`: the names of the nodes, a round robin over the zones, and an error when the zones
run out before `numNodes` names. -/
def list (nt : NodeTree) : List String × Option String :=
  if nt.zones.length = 0 then ([], none)
  else nt.listLoop (nt.numNodes + nt.zones.length + 1) [] 0 0

end NodeTree

/-! ## The cache -/

/-- `podState`: the pod, the deadline of an assumed pod, and whether its binding finished. -/
structure PodState where
  pod : Pod
  deadline : Option ℕ
  bindingFinished : Bool

/-- `schedulerCache`, with the package's generation counter. `headNode` is the linked list of the
`NodeInfo`s, by the names of its items from the head along `next`. -/
structure Cache where
  ttl : ℕ
  assumedPods : List String
  podStates : AList (fun _ : String => PodState)
  nodes : AList (fun _ : String => NodeInfo)
  headNode : List String
  nodeTree : NodeTree
  generation : ℕ

namespace Cache

/-- `newSchedulerCache(ttl, ...)`. -/
def new (ttl : ℕ) : Cache := ⟨ttl, [], ∅, ∅, [], ⟨∅, [], 0⟩, 0⟩

/-- `nextGeneration()`: the counter goes up by one, and its new value is the generation taken. -/
def nextGeneration (c : Cache) : Cache := { c with generation := c.generation + 1 }

/-- `moveNodeInfoToHead(name)`. -/
def moveNodeInfoToHead (c : Cache) (name : String) : Cache :=
  if (c.nodes.lookup name).isNone then c
  else if c.headNode.head? = some name then c
  else { c with headNode := name :: c.headNode.erase name }

/-- `removeNodeInfoFromList(name)`: out of the list and out of `nodes`. -/
def removeNodeInfoFromList (c : Cache) (name : String) : Cache :=
  if (c.nodes.lookup name).isNone then c
  else { c with headNode := c.headNode.erase name, nodes := c.nodes.erase name }

/-- `cache.nodes[name]`, created by `NewNodeInfo()` when there is none. -/
def getOrCreate (c : Cache) (name : String) : Cache × NodeInfo :=
  match c.nodes.lookup name with
  | some n => (c, n)
  | none =>
    let c := c.nextGeneration
    ({ c with nodes := c.nodes.insert name (.new c.generation) }, .new c.generation)

/-- `addPod(pod)`: the pod goes to the `NodeInfo` of its node, created if need be. -/
def addPod (c : Cache) (pod : Pod) : Cache :=
  let (c, n) := c.getOrCreate pod.nodeName
  let c := c.nextGeneration
  let c := { c with nodes := c.nodes.insert pod.nodeName (n.addPod pod c.generation) }
  c.moveNodeInfoToHead pod.nodeName

/-- `removePod(pod)`: the pod leaves the `NodeInfo` of its node, which goes too when it has no
pods and no node; a missing `NodeInfo` is only logged. -/
def removePod (c : Cache) (pod : Pod) : Cache × Except String Unit :=
  match c.nodes.lookup pod.nodeName with
  | none => (c, .ok ())
  | some n =>
    match n.removePod pod (c.generation + 1) with
    | (n, .error err) => ({ c with nodes := c.nodes.insert pod.nodeName n }, .error err)
    | (n, .ok ()) =>
      let c := { c.nextGeneration with nodes := c.nodes.insert pod.nodeName n }
      if n.pods.length = 0 ∧ n.node = none then (c.removeNodeInfoFromList pod.nodeName, .ok ())
      else (c.moveNodeInfoToHead pod.nodeName, .ok ())

/-- `updatePod(oldPod, newPod)`. -/
def updatePod (c : Cache) (oldPod newPod : Pod) : Cache × Except String Unit :=
  match c.removePod oldPod with
  | (c, .error err) => (c, .error err)
  | (c, .ok ()) => (c.addPod newPod, .ok ())

/-- `AssumePod(pod)`: a pod the cache does not hold is added to its node as assumed. -/
def AssumePod (c : Cache) (pod : Pod) : Cache × Except String Unit :=
  match getPodKey pod with
  | .error err => (c, .error err)
  | .ok key =>
    if (c.podStates.lookup key).isSome then
      (c, .error ("pod " ++ key ++ " is in the cache, so can't be assumed"))
    else
      let c := c.addPod pod
      ({ c with podStates := c.podStates.insert key ⟨pod, none, false⟩,
                assumedPods := c.assumedPods.insert key }, .ok ())

/-- `finishBinding(pod, now)`: an assumed pod may expire `ttl` after `now`. -/
def finishBinding (c : Cache) (pod : Pod) (now : ℕ) : Cache × Except String Unit :=
  match getPodKey pod with
  | .error err => (c, .error err)
  | .ok key =>
    match c.podStates.lookup key with
    | some currState =>
      if key ∈ c.assumedPods then
        let currState := { currState with bindingFinished := true, deadline := some (now + c.ttl) }
        ({ c with podStates := c.podStates.insert key currState }, .ok ())
      else (c, .ok ())
    | none => (c, .ok ())

/-- `ForgetPod(pod)`: an assumed pod, on the node it was assumed on, leaves the cache. -/
def ForgetPod (c : Cache) (pod : Pod) : Cache × Except String Unit :=
  match getPodKey pod with
  | .error err => (c, .error err)
  | .ok key =>
    match c.podStates.lookup key with
    | some currState =>
      if currState.pod.nodeName ≠ pod.nodeName then
        (c, .error ("pod " ++ key ++ " was assumed on " ++ pod.nodeName ++ " but assigned to " ++
          currState.pod.nodeName))
      else if key ∈ c.assumedPods then
        match c.removePod pod with
        | (c, .error err) => (c, .error err)
        | (c, .ok ()) =>
          ({ c with assumedPods := c.assumedPods.erase key, podStates := c.podStates.erase key },
            .ok ())
      else (c, .error ("pod " ++ key ++ " wasn't assumed so cannot be forgotten"))
    | none => (c, .error ("pod " ++ key ++ " wasn't assumed so cannot be forgotten"))

/-- `AddPod(pod)`: an assumed pod is confirmed, moved first when it was added to another node
(an error of that removal is only logged); a pod the cache does not hold (it expired) is added
back. -/
def AddPod (c : Cache) (pod : Pod) : Cache × Except String Unit :=
  match getPodKey pod with
  | .error err => (c, .error err)
  | .ok key =>
    match c.podStates.lookup key with
    | some currState =>
      if key ∈ c.assumedPods then
        let c := if currState.pod.nodeName ≠ pod.nodeName then
            (c.removePod currState.pod).1.addPod pod
          else c
        ({ c with assumedPods := c.assumedPods.erase key,
                  podStates := c.podStates.insert key { currState with deadline := none, pod } },
          .ok ())
      else (c, .error ("pod " ++ key ++ " was already in added state"))
    | none =>
      let c := c.addPod pod
      ({ c with podStates := c.podStates.insert key ⟨pod, none, false⟩ }, .ok ())

/-- `UpdatePod(oldPod, newPod)`: an added pod is replaced; a new pod on another node is fatal. -/
def UpdatePod (c : Cache) (oldPod newPod : Pod) : Option (Cache × Except String Unit) :=
  match getPodKey oldPod with
  | .error err => some (c, .error err)
  | .ok key =>
    match c.podStates.lookup key with
    | some currState =>
      if key ∉ c.assumedPods then
        if currState.pod.nodeName ≠ newPod.nodeName then none
        else
          match c.updatePod oldPod newPod with
          | (c, .error err) => some (c, .error err)
          | (c, .ok ()) =>
            some ({ c with podStates := c.podStates.insert key { currState with pod := newPod } },
              .ok ())
      else some (c, .error ("pod " ++ key ++
        " is not added to scheduler cache, so cannot be updated"))
    | none => some (c, .error ("pod " ++ key ++
        " is not added to scheduler cache, so cannot be updated"))

/-- `RemovePod(pod)`: an added pod leaves the cache; one on another node is fatal. -/
def RemovePod (c : Cache) (pod : Pod) : Option (Cache × Except String Unit) :=
  match getPodKey pod with
  | .error err => some (c, .error err)
  | .ok key =>
    match c.podStates.lookup key with
    | some currState =>
      if key ∉ c.assumedPods then
        if currState.pod.nodeName ≠ pod.nodeName then none
        else
          match c.removePod currState.pod with
          | (c, .error err) => some (c, .error err)
          | (c, .ok ()) => some ({ c with podStates := c.podStates.erase key }, .ok ())
      else some (c, .error ("pod " ++ key ++
        " is not found in scheduler cache, so cannot be removed from it"))
    | none => some (c, .error ("pod " ++ key ++
        " is not found in scheduler cache, so cannot be removed from it"))

/-- `AddNode(node)`: the `NodeInfo`, created if need be, goes to the head and gets the node. -/
def AddNode (c : Cache) (node : Node) : Cache × Except String Unit :=
  let (c, n) := c.getOrCreate node.name
  let c := c.moveNodeInfoToHead node.name
  let c := { c with nodeTree := c.nodeTree.addNode node }
  let c := c.nextGeneration
  ({ c with nodes := c.nodes.insert node.name (n.setNode node c.generation) }, .ok ())

/-- `UpdateNode(oldNode, newNode)`: as `AddNode`, and the node moves between zones. -/
def UpdateNode (c : Cache) (oldNode newNode : Node) : Cache × Except String Unit :=
  let c := match c.nodes.lookup newNode.name with
    | some _ => c
    | none => { c with nodeTree := c.nodeTree.addNode newNode }
  let (c, n) := c.getOrCreate newNode.name
  let c := c.moveNodeInfoToHead newNode.name
  let c := { c with nodeTree := c.nodeTree.updateNode oldNode newNode }
  let c := c.nextGeneration
  ({ c with nodes := c.nodes.insert newNode.name (n.setNode newNode c.generation) }, .ok ())

/-- `RemoveNode(node)`: the `NodeInfo` loses its node, and goes too when it has no pods; then the
node leaves the tree, whose error is returned with the `NodeInfo` already changed. -/
def RemoveNode (c : Cache) (node : Node) : Cache × Except String Unit :=
  match c.nodes.lookup node.name with
  | none => (c, .error ("node " ++ node.name ++ " is not found"))
  | some n =>
    let c := c.nextGeneration
    let n := n.removeNode c.generation
    let c := { c with nodes := c.nodes.insert node.name n }
    let c := if n.pods.length = 0 then c.removeNodeInfoFromList node.name
      else c.moveNodeInfoToHead node.name
    match c.nodeTree.removeNode node with
    | .error err => (c, .error err)
    | .ok nodeTree => ({ c with nodeTree }, .ok ())

/-- `expirePod(key, ps)`. -/
def expirePod (c : Cache) (key : String) (ps : PodState) : Cache × Except String Unit :=
  match c.removePod ps.pod with
  | (c, .error err) => (c, .error err)
  | (c, .ok ()) =>
    ({ c with assumedPods := c.assumedPods.erase key, podStates := c.podStates.erase key }, .ok ())

/-- The body of the loop of `cleanupAssumedPods(now)` at the assumed key `key`: the pod expires
when its binding finished and its deadline is past (an error is only logged). A key with no state
is fatal, and so is a finished binding with no deadline, which Go dereferences. -/
def cleanupAssumedPod (now : ℕ) (c : Cache) (key : String) : Option Cache :=
  match c.podStates.lookup key with
  | none => none
  | some ps =>
    if !ps.bindingFinished then some c
    else match ps.deadline with
      | none => none
      | some deadline => if now > deadline then some (c.expirePod key ps).1 else some c

/-- `cleanupAssumedPods(now)`: the loop over the assumed keys, which Go visits in the order of a
map, here the order of the list. -/
def cleanupAssumedPods (c : Cache) (now : ℕ) : Option Cache :=
  c.assumedPods.foldlM (cleanupAssumedPod now) c

/-- `PodCount()`: the pods of all `NodeInfo`s, those whose node was deleted included. -/
def PodCount (c : Cache) : ℕ :=
  (c.nodes.entries.map fun e => e.2.pods.length).sum

/-- `IsAssumedPod(pod)`. -/
def IsAssumedPod (c : Cache) (pod : Pod) : Except String Bool :=
  match getPodKey pod with
  | .error err => .error err
  | .ok key => .ok (decide (key ∈ c.assumedPods))

/-- `GetPod(pod)`: the cache's own copy of the pod, which may be on a deleted node. -/
def GetPod (c : Cache) (pod : Pod) : Except String Pod :=
  match getPodKey pod with
  | .error err => .error err
  | .ok key =>
    match c.podStates.lookup key with
    | some ps => .ok ps.pod
    | none => .error ("pod " ++ key ++ " does not exist in scheduler cache")

end Cache

/-! ## Runs -/

/-- A call to the cache. -/
inductive Event
  | assumePod (pod : Pod)
  | finishBinding (pod : Pod) (now : ℕ)
  | forgetPod (pod : Pod)
  | addPod (pod : Pod)
  | updatePod (oldPod newPod : Pod)
  | removePod (pod : Pod)
  | cleanupAssumedPods (now : ℕ)
  | addNode (node : Node)
  | updateNode (oldNode newNode : Node)
  | removeNode (node : Node)

/-- One call: the cache it leaves and its error, or `none` when it ends the process. -/
def Cache.step (c : Cache) : Event → Option (Cache × Except String Unit)
  | .assumePod pod => some (c.AssumePod pod)
  | .finishBinding pod now => some (c.finishBinding pod now)
  | .forgetPod pod => some (c.ForgetPod pod)
  | .addPod pod => some (c.AddPod pod)
  | .updatePod oldPod newPod => c.UpdatePod oldPod newPod
  | .removePod pod => c.RemovePod pod
  | .cleanupAssumedPods now => (c.cleanupAssumedPods now).map fun c => (c, .ok ())
  | .addNode node => some (c.AddNode node)
  | .updateNode oldNode newNode => some (c.UpdateNode oldNode newNode)
  | .removeNode node => some (c.RemoveNode node)

/-! ## The snapshot -/

/-- `Snapshot`: the map from node names to `NodeInfo` objects, given by their addresses, the
objects (`nodeInfos`, of which the first `allocated` are in use), the three lists of addresses and
the generation. -/
structure Snapshot where
  nodeInfoMap : AList (fun _ : String => ℕ)
  nodeInfos : ℕ → NodeInfo
  allocated : ℕ
  nodeInfoList : List ℕ
  havePodsWithAffinityNodeInfoList : List ℕ
  havePodsWithRequiredAntiAffinityNodeInfoList : List ℕ
  generation : ℕ

/-- `NewEmptySnapshot()`. -/
def Snapshot.empty : Snapshot := ⟨∅, fun _ => .empty, 0, [], [], [], 0⟩

/-- What `UpdateSnapshot`'s loop carries: the snapshot and its three flags. -/
structure SnapshotUpdate where
  snapshot : Snapshot
  updateAllLists : Bool
  updateNodesHavePodsWithAffinity : Bool
  updateNodesHavePodsWithRequiredAntiAffinity : Bool

/-- The body of `UpdateSnapshot`'s loop for a `NodeInfo` with a node: the snapshot's object for
the node, created if need be (and then the lists are to be rebuilt), takes a copy of it; the flags
note a change of whether it has pods with affinity terms. -/
def SnapshotUpdate.copy (u : SnapshotUpdate) (name : String) (info : NodeInfo) :
    SnapshotUpdate :=
  let s := u.snapshot
  let (s, existing, updateAllLists) := match s.nodeInfoMap.lookup name with
    | some existing => (s, existing, u.updateAllLists)
    | none =>
      ({ s with nodeInfoMap := s.nodeInfoMap.insert name s.allocated,
                nodeInfos := Function.update s.nodeInfos s.allocated .empty,
                allocated := s.allocated + 1 }, s.allocated, true)
  let old := s.nodeInfos existing
  { snapshot := { s with nodeInfos := Function.update s.nodeInfos existing info }
    updateAllLists
    updateNodesHavePodsWithAffinity := u.updateNodesHavePodsWithAffinity ||
      ((0 < old.podsWithAffinity.length) != (0 < info.podsWithAffinity.length))
    updateNodesHavePodsWithRequiredAntiAffinity := u.updateNodesHavePodsWithRequiredAntiAffinity ||
      ((0 < old.podsWithRequiredAntiAffinity.length) !=
        (0 < info.podsWithRequiredAntiAffinity.length)) }

namespace Cache

/-- `UpdateSnapshot`'s loop over the list from the head: it stops at the first `NodeInfo` not newer
than the snapshot, and copies those with a node. -/
def updateSnapshotLoop (c : Cache) (snapshotGeneration : ℕ) :
    List String → SnapshotUpdate → SnapshotUpdate
  | [], u => u
  | name :: rest, u =>
    match c.nodes.lookup name with
    | none => c.updateSnapshotLoop snapshotGeneration rest u
    | some info =>
      if info.generation ≤ snapshotGeneration then u
      else
        let u := match info.node with
          | some np => u.copy np.name info
          | none => u
        c.updateSnapshotLoop snapshotGeneration rest u

/-- `removeDeletedNodesFromSnapshot(snapshot)`: as many entries as the map has beyond the tree's
nodes, of nodes the cache has not or keeps as ghosts, in the order of the map. -/
def removeDeletedNodesFromSnapshot (c : Cache) (s : Snapshot) : Snapshot :=
  let toDelete := s.nodeInfoMap.entries.length - c.nodeTree.numNodes
  let deleted := s.nodeInfoMap.keys.foldl (fun acc name =>
    if acc.2 = 0 then acc
    else match c.nodes.lookup name with
      | some n => if n.node.isNone then (acc.1.erase name, acc.2 - 1) else acc
      | none => (acc.1.erase name, acc.2 - 1)) (s.nodeInfoMap, toDelete)
  { s with nodeInfoMap := deleted.1 }

/-- `updateNodeInfoSnapshotList(snapshot, updateAll)`: the two lists of nodes with pods with
affinity terms, from the node list, which is first rebuilt in the tree's order when asked. -/
def updateNodeInfoSnapshotList (c : Cache) (s : Snapshot) (updateAll : Bool) : Snapshot :=
  let withAffinity := fun r => 0 < (s.nodeInfos r).podsWithAffinity.length
  let withRequiredAntiAffinity := fun r => 0 < (s.nodeInfos r).podsWithRequiredAntiAffinity.length
  let nodeInfoList :=
    if updateAll then c.nodeTree.list.1.filterMap (s.nodeInfoMap.lookup ·) else s.nodeInfoList
  { s with
    nodeInfoList
    havePodsWithAffinityNodeInfoList := nodeInfoList.filter withAffinity
    havePodsWithRequiredAntiAffinityNodeInfoList := nodeInfoList.filter withRequiredAntiAffinity }

/-- `UpdateSnapshot(nodeSnapshot)`. -/
def UpdateSnapshot (c : Cache) (s : Snapshot) : Snapshot × Except String Unit :=
  let u := c.updateSnapshotLoop s.generation c.headNode ⟨s, false, false, false⟩
  let s := u.snapshot
  let s := match c.headNode.head? with
    | some head => match c.nodes.lookup head with
      | some info => { s with generation := info.generation }
      | none => s
    | none => s
  let (s, updateAllLists) :=
    if c.nodeTree.numNodes < s.nodeInfoMap.entries.length then
      (c.removeDeletedNodesFromSnapshot s, true)
    else (s, u.updateAllLists)
  let s :=
    if updateAllLists || u.updateNodesHavePodsWithAffinity ||
        u.updateNodesHavePodsWithRequiredAntiAffinity then
      c.updateNodeInfoSnapshotList s updateAllLists
    else s
  if s.nodeInfoList.length ≠ c.nodeTree.numNodes then
    (c.updateNodeInfoSnapshotList s true,
      .error ("snapshot state is not consistent, length of NodeInfoList=" ++
        toString s.nodeInfoList.length ++ " not equal to length of nodes in tree=" ++
        toString c.nodeTree.numNodes ++ " , length of NodeInfoMap=" ++
        toString s.nodeInfoMap.entries.length ++ ", length of nodes in cache=" ++
        toString c.nodes.entries.length ++ ", trying to recover"))
  else (s, .ok ())

end Cache

end Kubernetes.SchedulerCache
