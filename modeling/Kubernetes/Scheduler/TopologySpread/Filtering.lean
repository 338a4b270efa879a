import Mathlib

/-!
# Pod topology spread: `PreFilter`, its `AddPod` and `RemovePod` extensions, and `Filter`

`pkg/scheduler/framework/plugins/podtopologyspread/filtering.go` and `common.go`.
`calPreFilterState` counts, for each hard constraint of the incoming pod, the matching pods of each
topology value. It makes a counter for the values of the nodes that pass the pod's required node
affinity and carry every topology key, and adds to it the pods of every node with that value. For
each topology key `criticalPaths` keeps two values, the first with the least count. `AddPod` and
`RemovePod` (`updateWithPod`) change the counters of the node a pod is added to or removed from,
on a copy of the state, and `Filter` compares a node's count with the least one.

The nodes of the snapshot are present (`NodeInfo.Node()` is never nil), the incoming pod's hard
constraints are given with their selectors, and its required node affinity is a predicate on
nodes. The map `TpPairToMatchNum` holds pointers: a missing entry is a nil pointer, and
`updateWithPod` returns `none` where it would dereference one. Go ranges over a map in any order;
the model ranges over the pairs in the order they were made, and nothing the plugin decides reads
more of `criticalPaths` than the count of its first slot, which does not depend on the order.

* `updateWithPod_panics_outside_node_affinity`: a pod added to a node that the incoming pod's
  required node affinity excludes, in a zone no other node is in, dereferences a nil counter.

`TopologySpread.CriticalPaths` gives the invariants of `criticalPaths.update`, and
`TopologySpread.Refinement` proves that on a node the affinity admits, `AddPod` and `RemovePod`
agree with `calPreFilterState` on the changed snapshot.
-/

namespace Kubernetes.PodTopologySpread

/-- Labels: the first pair of a key gives its value. -/
abbrev Labels := List (String × String)

/-- `node.Labels[key]`: the value, `""` for a key the labels lack. -/
def labelValue (labels : Labels) (key : String) : String := (labels.lookup key).getD ""

/-- What the plugin reads of a `v1.Node`. -/
structure Node where
  name : String
  labels : Labels
  deriving DecidableEq

/-- What the plugin reads of a `v1.Pod`; `terminating` is `DeletionTimestamp != nil`. -/
structure Pod where
  ns : String
  labels : Labels
  terminating : Bool
  deriving DecidableEq

/-- A node of the snapshot and the pods on it. -/
structure NodeInfo where
  node : Node
  pods : List Pod

/-- `topologySpreadConstraint`: a hard constraint, its selector as `labels.Selector.Matches`. -/
structure TopologySpreadConstraint where
  maxSkew : ℤ
  topologyKey : String
  selector : Labels → Bool

/-- `topologyPair`. -/
structure TopologyPair where
  key : String
  value : String
  deriving DecidableEq

/-- A slot of `criticalPaths`. -/
structure CriticalPath where
  topologyValue : String
  matchNum : ℤ
  deriving DecidableEq

/-- `criticalPaths`: two slots, the first with the least count. -/
structure CriticalPaths where
  first : CriticalPath
  second : CriticalPath
  deriving DecidableEq

/-- `math.MaxInt32`. -/
def maxInt32 : ℤ := 2 ^ 31 - 1

/-- `newCriticalPaths()`. -/
def newCriticalPaths : CriticalPaths := ⟨⟨"", maxInt32⟩, ⟨"", maxInt32⟩⟩

/-- The slots in the order of their counts: `p[0], p[1] = p[1], p[0]` when the first is larger. -/
def CriticalPaths.sort (p : CriticalPaths) : CriticalPaths :=
  if p.first.matchNum > p.second.matchNum then ⟨p.second, p.first⟩ else p

/-- `criticalPaths.update(tpVal, num)`: a value in a slot gets the count, and the slots are
sorted again; another value takes the first slot, pushing its value to the second, or the second,
if its count is less. -/
def CriticalPaths.update (p : CriticalPaths) (tpVal : String) (num : ℤ) : CriticalPaths :=
  if tpVal = p.first.topologyValue then
    CriticalPaths.sort ⟨⟨p.first.topologyValue, num⟩, p.second⟩
  else if tpVal = p.second.topologyValue then
    CriticalPaths.sort ⟨p.first, ⟨p.second.topologyValue, num⟩⟩
  else if num < p.first.matchNum then ⟨⟨tpVal, num⟩, p.first⟩
  else if num < p.second.matchNum then ⟨p.first, ⟨tpVal, num⟩⟩
  else p

/-- `preFilterState`: the hard constraints, the critical paths of each topology key, and the
counter of each topology pair (`none` is a nil pointer). -/
structure PreFilterState where
  constraints : List TopologySpreadConstraint
  tpKeyToCriticalPaths : String → Option CriticalPaths
  tpPairToMatchNum : TopologyPair → Option ℤ

/-- The state `PreFilter` writes when the pod has no hard constraint, `preFilterState{}`. -/
def PreFilterState.empty : PreFilterState := ⟨[], fun _ => none, fun _ => none⟩

/-- `nodeLabelsMatchSpreadConstraints(nodeLabels, constraints)`: the node carries every topology
key. -/
def nodeLabelsMatchSpreadConstraints (nodeLabels : Labels) (constraints : List TopologySpreadConstraint) :
    Bool :=
  constraints.all fun c => (nodeLabels.lookup c.topologyKey).isSome

/-- `countPodsMatchSelector(podInfos, selector, ns)`: the pods of the namespace that are not
terminating and match. -/
def countPodsMatchSelector (pods : List Pod) (selector : Labels → Bool) (ns : String) : ℕ :=
  (pods.filter fun p => !p.terminating && p.ns = ns && selector p.labels).length

/-- `topologyPair{key: c.TopologyKey, value: node.Labels[c.TopologyKey]}`: the pair a constraint
counts a node's pods in. -/
def topologyPairOf (constraint : TopologySpreadConstraint) (node : Node) : TopologyPair :=
  ⟨constraint.topologyKey, labelValue node.labels constraint.topologyKey⟩

/-- One constraint of `updateWithPod`'s loop: the counter of the node's pair changes by `delta`
and the key's critical paths learn its new count, where the constraint's selector matches the pod.
A missing counter or critical paths are a nil pointer. -/
def updateConstraint (updatedPod : Pod) (node : Node) (delta : ℤ) (s : PreFilterState)
    (constraint : TopologySpreadConstraint) : Option PreFilterState :=
  if !constraint.selector updatedPod.labels then some s
  else
    let pair := topologyPairOf constraint node
    match s.tpPairToMatchNum pair, s.tpKeyToCriticalPaths pair.key with
    | some count, some paths =>
      some { s with
        tpPairToMatchNum := Function.update s.tpPairToMatchNum pair (some (count + delta))
        tpKeyToCriticalPaths := Function.update s.tpKeyToCriticalPaths pair.key
          (some (paths.update pair.value (count + delta))) }
    | _, _ => none

/-- `updateWithPod(updatedPod, preemptorPod, node, delta)`; `none` where it dereferences a nil
pointer. -/
def updateWithPod (s : PreFilterState) (updatedPod preemptorPod : Pod) (node : Node) (delta : ℤ) :
    Option PreFilterState :=
  if updatedPod.ns ≠ preemptorPod.ns then some s
  else if !nodeLabelsMatchSpreadConstraints node.labels s.constraints then some s
  else s.constraints.foldlM (updateConstraint updatedPod node delta) s

/-- `AddPod`, for the pod to schedule and a pod added to a node. -/
def addPod (s : PreFilterState) (podToSchedule podToAdd : Pod) (node : Node) : Option PreFilterState :=
  updateWithPod s podToAdd podToSchedule node 1

/-- `RemovePod`, for the pod to schedule and a pod removed from a node. -/
def removePod (s : PreFilterState) (podToSchedule podToRemove : Pod) (node : Node) :
    Option PreFilterState :=
  updateWithPod s podToRemove podToSchedule node (-1)

/-- The pairs `calPreFilterState` makes a counter for: each constraint's key with its value on
each node that passes the pod's required node affinity and carries every key. -/
def eligiblePairs (requiredNodeAffinity : Node → Bool) (constraints : List TopologySpreadConstraint)
    (allNodes : List NodeInfo) : List TopologyPair :=
  allNodes.flatMap fun n =>
    if requiredNodeAffinity n.node && nodeLabelsMatchSpreadConstraints n.node.labels constraints then
      constraints.map fun c => topologyPairOf c n.node
    else []

/-- One constraint of `processNode`: the node's matching pods are added to the counter of its
pair, where the pair has one. -/
def processNodeStep (ns : String) (n : NodeInfo) (tpPairToMatchNum : TopologyPair → Option ℤ)
    (constraint : TopologySpreadConstraint) : TopologyPair → Option ℤ :=
  let pair := topologyPairOf constraint n.node
  match tpPairToMatchNum pair with
  | some count =>
    Function.update tpPairToMatchNum pair (some (count + countPodsMatchSelector n.pods constraint.selector ns))
  | none => tpPairToMatchNum

/-- `processNode`: the node's matching pods added to the counters of its pairs. -/
def processNode (ns : String) (constraints : List TopologySpreadConstraint)
    (tpPairToMatchNum : TopologyPair → Option ℤ) (n : NodeInfo) : TopologyPair → Option ℤ :=
  constraints.foldl (processNodeStep ns n) tpPairToMatchNum

/-- One pair of the loop that fills the critical paths: its key's paths learn its count. -/
def criticalPathsStep (tpPairToMatchNum : TopologyPair → Option ℤ) (paths : String → Option CriticalPaths)
    (pair : TopologyPair) : String → Option CriticalPaths :=
  match paths pair.key, tpPairToMatchNum pair with
  | some p, some num => Function.update paths pair.key (some (p.update pair.value num))
  | _, _ => paths

/-- The critical paths of each key, from the counters: new paths for each key of the constraints,
then each pair of the map given to its key's `update`. -/
def criticalPathsOf (constraints : List TopologySpreadConstraint) (pairs : List TopologyPair)
    (tpPairToMatchNum : TopologyPair → Option ℤ) : String → Option CriticalPaths :=
  pairs.foldl (criticalPathsStep tpPairToMatchNum)
    fun key => if key ∈ constraints.map TopologySpreadConstraint.topologyKey then some newCriticalPaths else none

/-- `calPreFilterState(pod)`, for the pod's hard constraints and required node affinity, on the
snapshot's nodes. -/
def calPreFilterState (requiredNodeAffinity : Node → Bool) (pod : Pod)
    (constraints : List TopologySpreadConstraint) (allNodes : List NodeInfo) : PreFilterState :=
  if constraints = [] then PreFilterState.empty
  else
    let pairs := (eligiblePairs requiredNodeAffinity constraints allNodes).dedup
    let tpPairToMatchNum := allNodes.foldl (processNode pod.ns constraints)
      fun pair => if pair ∈ pairs then some 0 else none
    ⟨constraints, criticalPathsOf constraints pairs tpPairToMatchNum, tpPairToMatchNum⟩

/-- `ErrReasonConstraintsNotMatch`. -/
def errReasonConstraintsNotMatch : String := "node(s) didn't match pod topology spread constraints"

/-- `ErrReasonNodeLabelNotMatch`. -/
def errReasonNodeLabelNotMatch : String := errReasonConstraintsNotMatch ++ " (missing required label)"

/-- What `Filter` returns. -/
inductive FilterStatus
  | success
  | unschedulable (reason : String)
  | unschedulableAndUnresolvable (reason : String)
  deriving DecidableEq

/-- `Filter`'s loop over the constraints: a node without a key is refused for good, and one whose
count, with the pod itself where it matches, exceeds the least count by more than `MaxSkew` is
refused. -/
def filterConstraints (s : PreFilterState) (podLabels : Labels) (node : Node) :
    List TopologySpreadConstraint → FilterStatus
  | [] => .success
  | c :: cs =>
    match node.labels.lookup c.topologyKey with
    | none => .unschedulableAndUnresolvable errReasonNodeLabelNotMatch
    | some tpVal =>
      let selfMatchNum : ℤ := if c.selector podLabels then 1 else 0
      match s.tpKeyToCriticalPaths c.topologyKey with
      | none => filterConstraints s podLabels node cs
      | some paths =>
        let minMatchNum := paths.first.matchNum
        let matchNum := (s.tpPairToMatchNum ⟨c.topologyKey, tpVal⟩).getD 0
        if matchNum + selfMatchNum - minMatchNum > c.maxSkew then
          .unschedulable errReasonConstraintsNotMatch
        else filterConstraints s podLabels node cs

/-- `Filter(pod, nodeInfo)`. -/
def filter (s : PreFilterState) (pod : Pod) (node : Node) : FilterStatus :=
  if s.constraints = [] then .success else filterConstraints s pod.labels node s.constraints

/-! ## A nil counter -/

/-- A node in zone `zone`. -/
def zoneNode (name zone : String) : Node := ⟨name, [("zone", zone)]⟩

/-- A pod of app `web`. -/
def webPod : Pod := ⟨"default", [("app", "web")], false⟩

/-- Spread the pods of app `web` over zones, one apart at most. -/
def webSpread : TopologySpreadConstraint :=
  ⟨1, "zone", fun labels => labels.lookup "app" = some "web"⟩

/-- **`AddPod` dereferences a nil counter.** The incoming pod spreads over zones and requires zone
`z1`; node `a` in zone `z1` has one of its pods, node `n` is alone in zone `z2`. From scratch, only
zone `z1` gets a counter; a nominated pod added to node `n` finds none for `z2`. -/
theorem updateWithPod_panics_outside_node_affinity :
    let allNodes : List NodeInfo := [⟨zoneNode "a" "z1", [webPod]⟩, ⟨zoneNode "n" "z2", []⟩]
    let s := calPreFilterState (fun node => node.labels.lookup "zone" = some "z1") webPod [webSpread] allNodes
    (s.tpPairToMatchNum ⟨"zone", "z1"⟩ = some 1 ∧ s.tpPairToMatchNum ⟨"zone", "z2"⟩ = none) ∧
      addPod s webPod webPod (zoneNode "n" "z2") = none := by
  decide

end Kubernetes.PodTopologySpread
