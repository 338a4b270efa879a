import Mathlib

/-!
# One sync of a StatefulSet's pods

`updateStatefulSet` (`pkg/controller/statefulset/stateful_set_control.go`) brings a StatefulSet's
pods towards `replicas` Running and Ready pods of ordinals `0 .. replicas - 1`. One call goes
through three loops and returns early in many places:

* over the replicas, in increasing ordinal (`replicasLoop`): a failed pod is deleted and created
  again, a missing one created, an out-of-date identity or storage updated; under `OrderedReady`
  management the step returns after a creation, and at the first pod terminating or not Running
  and Ready;
* over the condemned pods, of ordinal `replicas` or more, in decreasing ordinal
  (`condemnedLoop`): each is deleted, under `OrderedReady` one per step, and only when Running and
  Ready or the first unhealthy pod;
* under `RollingUpdate`, over the replicas from the top down to the partition (`updateLoop`): the
  first pod not at the update revision is deleted, to be created again at it.

The result of a step is the list of calls to the pod API it makes, in order; `succeeds` says
which of them the API server accepts (after a failed call the step returns). A pod is what the
step reads of it: its ordinal (`-1` when its name does not parse), phase, Ready condition,
deletion timestamp, revision label, and whether its identity and storage match the set's.
-/

namespace Kubernetes.StatefulSetController

/-- `v1.PodPhase`; `unset` is the empty phase of a pod not created yet. -/
inductive PodPhase
  | unset
  | pending
  | running
  | succeeded
  | failed
  | unknown
  deriving DecidableEq

/-- A pod, as `updateStatefulSet` reads it. -/
structure Pod where
  ordinal : ℤ
  phase : PodPhase
  ready : Bool
  terminating : Bool
  revision : String
  identityMatches : Bool
  storageMatches : Bool
  deriving DecidableEq

/-- `apps.PodManagementPolicyType`. -/
inductive PodManagementPolicy
  | orderedReady
  | parallel
  deriving DecidableEq

/-- `apps.StatefulSetUpdateStrategyType`. -/
inductive UpdateStrategyType
  | rollingUpdate
  | onDelete
  deriving DecidableEq

/-- A StatefulSet, as `updateStatefulSet` reads it: `spec.replicas`, the pod management policy,
the update strategy with its `rollingUpdate.partition` when `rollingUpdate` is set,
`status.currentReplicas`, and whether it is being deleted. Validation makes `replicas` and the
partition non-negative. -/
structure StatefulSet where
  replicas : ℕ
  podManagementPolicy : PodManagementPolicy
  updateStrategyType : UpdateStrategyType
  rollingUpdate : Option ℕ
  currentReplicas : ℤ
  deleting : Bool

/-- A call to the pod API (`podControl`). -/
inductive Call
  | createStatefulPod (pod : Pod)
  | updateStatefulPod (pod : Pod)
  | deleteStatefulPod (pod : Pod)
  deriving DecidableEq

/-- `isRunningAndReady(pod)`. -/
def isRunningAndReady (pod : Pod) : Bool := pod.phase == .running && pod.ready

/-- `isCreated(pod)`: the phase is set. -/
def isCreated (pod : Pod) : Bool := pod.phase != .unset

/-- `isFailed(pod)`. -/
def isFailed (pod : Pod) : Bool := pod.phase == .failed

/-- `isTerminating(pod)`: the deletion timestamp is set. -/
def isTerminating (pod : Pod) : Bool := pod.terminating

/-- `isHealthy(pod)`. -/
def isHealthy (pod : Pod) : Bool := isRunningAndReady pod && !isTerminating pod

/-- `allowsBurst(set)`. -/
def allowsBurst (set : StatefulSet) : Bool := set.podManagementPolicy == .parallel

/-- `newVersionedStatefulSetPod(currentSet, updateSet, currentRevision, updateRevision,
ordinal)`: a pod not created yet, of the given ordinal, at the current revision below the
partition (or, with no `rollingUpdate`, below `status.currentReplicas`) and at the update revision
otherwise. The source's `&&` binds tighter than its `||`, so the partition is compared whatever
the strategy's type. -/
def newVersionedStatefulSetPod (set : StatefulSet) (currentRevision updateRevision : String)
    (ordinal : ℕ) : Pod :=
  let revision :=
    if (set.updateStrategyType = .rollingUpdate ∧ set.rollingUpdate = none ∧
          (ordinal : ℤ) < set.currentReplicas) ∨
        (set.rollingUpdate.isSome ∧ ordinal < set.rollingUpdate.getD 0) then currentRevision
    else updateRevision
  ⟨ordinal, .unset, false, false, revision, true, true⟩

/-- `replicas[ord]` once filled: the last listed pod of ordinal `ord`, or a new one. -/
def replicaAt (set : StatefulSet) (currentRevision updateRevision : String) (pods : List Pod)
    (ord : ℕ) : Pod :=
  ((pods.filter fun pod => pod.ordinal = (ord : ℤ)).getLast?).getD
    (newVersionedStatefulSetPod set currentRevision updateRevision ord)

/-- The slice `replicas` once filled, ordinals `0 .. spec.replicas - 1`. -/
def replicasOf (set : StatefulSet) (currentRevision updateRevision : String) (pods : List Pod) :
    List Pod :=
  (List.range set.replicas).map (replicaAt set currentRevision updateRevision pods)

/-- `sort.Sort(ascendingOrdinal(condemned))`. -/
def sortAscendingOrdinal (pods : List Pod) : List Pod :=
  pods.insertionSort fun a b => a.ordinal ≤ b.ordinal

/-- The loop over the replicas from ordinal `i` on: the calls it makes, and the replicas as it
leaves them, or `none` when the step returns in the loop. -/
def replicasLoop (set : StatefulSet) (currentRevision updateRevision : String)
    (succeeds : Call → Bool) (monotonic : Bool) : ℕ → List Pod → List Call × Option (List Pod)
  | _, [] => ([], some [])
  | i, pod :: rest =>
    -- delete and recreate failed pods
    if isFailed pod ∧ !succeeds (.deleteStatefulPod pod) then ([.deleteStatefulPod pod], none)
    else
      let deleted := if isFailed pod then [Call.deleteStatefulPod pod] else []
      let pod :=
        if isFailed pod then newVersionedStatefulSetPod set currentRevision updateRevision i else pod
      let next := replicasLoop set currentRevision updateRevision succeeds monotonic (i + 1) rest
      if !isCreated pod then
        if !succeeds (.createStatefulPod pod) then (deleted ++ [.createStatefulPod pod], none)
        -- if the set does not allow bursting, return immediately
        else if monotonic then (deleted ++ [.createStatefulPod pod], none)
        else (deleted ++ .createStatefulPod pod :: next.1, next.2.map (pod :: ·))
      -- wait for a terminating pod, and for a pod to be Running and Ready
      else if isTerminating pod ∧ monotonic then (deleted, none)
      else if !isRunningAndReady pod ∧ monotonic then (deleted, none)
      else if pod.identityMatches ∧ pod.storageMatches then (deleted ++ next.1, next.2.map (pod :: ·))
      else if !succeeds (.updateStatefulPod pod) then (deleted ++ [.updateStatefulPod pod], none)
      else (deleted ++ .updateStatefulPod pod :: next.1, next.2.map (pod :: ·))

/-- The loop over the condemned pods, highest ordinal first: the calls it makes, and whether the
step returns in the loop. -/
def condemnedLoop (monotonic : Bool) (firstUnhealthyPod : Option Pod) (succeeds : Call → Bool) :
    List Pod → List Call × Bool
  | [] => ([], false)
  | pod :: rest =>
    -- wait for terminating pods to expire
    if isTerminating pod then
      if monotonic then ([], true) else condemnedLoop monotonic firstUnhealthyPod succeeds rest
    -- in monotonic mode only the first unhealthy pod goes before it is Running and Ready
    else if !isRunningAndReady pod ∧ monotonic ∧ some pod ≠ firstUnhealthyPod then ([], true)
    else if !succeeds (.deleteStatefulPod pod) then ([.deleteStatefulPod pod], true)
    else if monotonic then ([.deleteStatefulPod pod], true)
    else
      let next := condemnedLoop monotonic firstUnhealthyPod succeeds rest
      (.deleteStatefulPod pod :: next.1, next.2)

/-- The loop of a rolling update, over the replicas from the top down to the partition: the pod
with the largest ordinal not at the update revision is deleted, unless an unhealthy pod comes
first. The step returns after the deletion, whether it succeeds or not. -/
def updateLoop (updateRevision : String) : List Pod → List Call
  | [] => []
  | pod :: rest =>
    if pod.revision ≠ updateRevision ∧ !isTerminating pod then [.deleteStatefulPod pod]
    -- wait for unhealthy pods on update
    else if !isHealthy pod then []
    else updateLoop updateRevision rest

/-- `updateStatefulSet(set, currentRevision, updateRevision, collisionCount, pods)`: the calls of
one step. -/
def updateStatefulSet (set : StatefulSet) (currentRevision updateRevision : String)
    (succeeds : Call → Bool) (pods : List Pod) : List Call :=
  let replicas := replicasOf set currentRevision updateRevision pods
  let condemned := sortAscendingOrdinal (pods.filter fun pod => pod.ordinal ≥ set.replicas)
  let firstUnhealthyPod := (replicas ++ condemned).find? fun pod => !isHealthy pod
  -- a StatefulSet being deleted only has its status updated
  if set.deleting then []
  else
    let monotonic := !allowsBurst set
    let (replicaCalls, replicas) :=
      replicasLoop set currentRevision updateRevision succeeds monotonic 0 replicas
    match replicas with
    | none => replicaCalls
    | some replicas =>
      let (condemnedCalls, returned) :=
        condemnedLoop monotonic firstUnhealthyPod succeeds condemned.reverse
      if returned then replicaCalls ++ condemnedCalls
      -- for the OnDelete strategy pods are updated when they are deleted by hand
      else if set.updateStrategyType = .onDelete then replicaCalls ++ condemnedCalls
      else
        let updateMin := set.rollingUpdate.getD 0
        replicaCalls ++ condemnedCalls ++ updateLoop updateRevision (replicas.drop updateMin).reverse

end Kubernetes.StatefulSetController
