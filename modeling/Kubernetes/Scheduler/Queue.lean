import Kubernetes.Scheduler.Heap
import Kubernetes.Scheduler.Nominator

/-!
# The scheduling queue

`PriorityQueue` (`pkg/scheduler/internal/queue`) holds the pods waiting to be scheduled in three
places: `activeQ`, a heap in the order of the scheduler's sort plugin, from which `Pop` takes the
next pod; `podBackoffQ`, a heap in the order of the end of each pod's backoff, which
`flushBackoffQCompleted` drains into `activeQ`; and `unschedulableQ`, a map of the pods found
unschedulable, which the move events (`MoveAllToActiveOrBackoffQueue`, `AssignedPodAdded`,
`AssignedPodUpdated`, `flushUnschedulableQLeftover`) send back to one of the heaps.
`schedulingCycle` counts the pops, and a move records it in `moveRequestCycle`: a pod returned
by `AddUnschedulableIfNotPresent` with a cycle no later than that goes to `podBackoffQ`, since a
move may have come after it was popped, and otherwise to `unschedulableQ`. The queue also owns
the pod nominator.

The model is state passing: each method takes the queue and returns the new one, with what it
returns. The lock and the condition variable are left out: every method runs alone, and a `Pop`
on an empty open queue, which waits in Go, is `none` here. The clock is the `now` argument of the
methods that read it, in nanoseconds. Go ranges over a map in no fixed order; the methods that do
take the order of the keys as an argument. The metric recorders and the log lines are left out.

Pods are of any type `P`. `Config.key` is the pod's namespace and name: the heaps key pods by
`cache.MetaNamespaceKeyFunc` and `unschedulableQ` by `util.GetPodFullName`, and both are
injective functions of it for valid names, so both are `key` here.
-/

namespace Kubernetes.Scheduler

open Heap

/-- `framework.QueuedPodInfo`: a pod with the queue's bookkeeping. -/
structure QueuedPodInfo (P : Type*) where
  pod : P
  timestamp : ℤ
  attempts : ℕ
  initialAttemptTimestamp : ℤ
  unschedulablePlugins : List String
  deriving Inhabited

/-- `framework.ClusterEvent`: a resource and a bit mask of actions on it. -/
structure ClusterEvent where
  resource : String
  actionType : ℕ
  deriving DecidableEq

namespace ActionType

/-- `framework.Add`. -/
def add : ℕ := 1
/-- `framework.Delete`. -/
def delete : ℕ := 2
/-- `framework.UpdateNodeAllocatable`. -/
def updateNodeAllocatable : ℕ := 4
/-- `framework.UpdateNodeLabel`. -/
def updateNodeLabel : ℕ := 8
/-- `framework.UpdateNodeTaint`. -/
def updateNodeTaint : ℕ := 16
/-- `framework.UpdateNodeCondition`. -/
def updateNodeCondition : ℕ := 32
/-- `framework.All`. -/
def all : ℕ := 63
/-- `framework.Update`. -/
def update : ℕ := updateNodeAllocatable ||| updateNodeLabel ||| updateNodeTaint ||| updateNodeCondition

end ActionType

/-- `framework.WildCardEvent`: every action on every resource. -/
def wildCardEvent : ClusterEvent := ⟨"*", ActionType.all⟩

/-- `clusterEventReg`: the cluster event of each event name the queue is told about. -/
def clusterEventReg : String → Option ClusterEvent
  | "AssignedPodAdd" => some ⟨"Pod", ActionType.add⟩
  | "AssignedPodUpdate" => some ⟨"Pod", ActionType.update⟩
  | "AssignedPodDelete" => some ⟨"Pod", ActionType.delete⟩
  | "NodeAdd" => some ⟨"Node", ActionType.add⟩
  | "NodeSpecUnschedulableChange" => some ⟨"Node", ActionType.updateNodeTaint⟩
  | "NodeAllocatableChange" => some ⟨"Node", ActionType.updateNodeAllocatable⟩
  | "NodeLabelChange" => some ⟨"Node", ActionType.updateNodeLabel⟩
  | "NodeTaintChange" => some ⟨"Node", ActionType.updateNodeTaint⟩
  | "NodeConditionChange" => some ⟨"Node", ActionType.updateNodeCondition⟩
  | "PvAdd" => some ⟨"PersistentVolume", ActionType.add⟩
  | "PvUpdate" => some ⟨"PersistentVolume", ActionType.update⟩
  | "PvcAdd" => some ⟨"PersistentVolumeClaim", ActionType.add⟩
  | "PvcUpdate" => some ⟨"PersistentVolumeClaim", ActionType.update⟩
  | "StorageClassAdd" => some ⟨"storage.k8s.io/StorageClass", ActionType.add⟩
  | "CSINodeAdd" => some ⟨"storage.k8s.io/CSINode", ActionType.add⟩
  | "CSINodeUpdate" => some ⟨"storage.k8s.io/CSINode", ActionType.update⟩
  | "ServiceAdd" => some ⟨"Service", ActionType.add⟩
  | "ServiceUpdate" => some ⟨"Service", ActionType.update⟩
  | "ServiceDelete" => some ⟨"Service", ActionType.delete⟩
  | "UnschedulableTimeout" => some wildCardEvent
  | _ => none

/-- The event of `flushUnschedulableQLeftover`. -/
def unschedulableTimeout : String := "UnschedulableTimeout"
/-- The event of `AssignedPodAdded`. -/
def assignedPodAdd : String := "AssignedPodAdd"
/-- The event of `AssignedPodUpdated`. -/
def assignedPodUpdate : String := "AssignedPodUpdate"

/-- `unschedulableQTimeInterval`: 60 s. -/
def unschedulableQTimeInterval : ℤ := 60 * 10 ^ 9

/-- `DefaultPodInitialBackoffDuration`: 1 s. -/
def defaultPodInitialBackoffDuration : ℤ := 10 ^ 9

/-- `DefaultPodMaxBackoffDuration`: 10 s. -/
def defaultPodMaxBackoffDuration : ℤ := 10 * 10 ^ 9

/-- What a queue is built with and never changes: how to read a pod, the sort function of the
active queue, the backoff durations and the events each plugin registered for. `isPodUpdated`
says whether two versions of a pod differ beyond their resource version, generation and status. -/
structure Config (P κ υ : Type*) where
  key : P → κ
  uid : P → υ
  nominatedNodeName : P → String
  isPodUpdated : P → P → Bool
  lessFn : QueuedPodInfo P → QueuedPodInfo P → Bool
  podInitialBackoffDuration : ℤ
  podMaxBackoffDuration : ℤ
  clusterEventMap : List (ClusterEvent × List String)

/-- `UnschedulablePodsMap`, without its metric recorder; its key function is the pod's key. -/
structure UnschedulablePodsMap (P κ : Type*) where
  podInfoMap : κ → Option (QueuedPodInfo P)

/-- The errors the queue returns. -/
inductive QueueError (P : Type*)
  /-- "Pod %v is already present in unschedulable queue". -/
  | alreadyInUnschedulableQ (pod : P)
  /-- "Pod %v is already present in the active queue". -/
  | alreadyInActiveQ (pod : P)
  /-- "Pod %v is already present in the backoff queue". -/
  | alreadyInBackoffQ (pod : P)
  /-- An error of a heap. -/
  | heap (msg : String)
  /-- `queueClosed`: "scheduling queue is closed". -/
  | closed

/-- `PriorityQueue`, without its lock, condition variable, stop channel and namespace lister. -/
structure PriorityQueue (P κ υ : Type*) where
  nominator : NominatedPodMap P υ
  activeQ : Heap.Data κ (QueuedPodInfo P)
  podBackoffQ : Heap.Data κ (QueuedPodInfo P)
  unschedulableQ : UnschedulablePodsMap P κ
  schedulingCycle : ℤ
  moveRequestCycle : ℤ
  closed : Bool

variable {P κ υ : Type*}

namespace Config

variable (c : Config P κ υ)

/-- `podInfoKeyFunc`: the key of a queued pod. -/
def podInfoKeyFunc (pInfo : QueuedPodInfo P) : κ := c.key pInfo.pod

/-- The loop of `calculateBackoffDuration`: double the duration `n` more times, stopping at the
maximum once it is passed. The doubling is `time.Duration`'s, in `int64`, and wraps. -/
def backoffLoop : ℕ → ℤ → ℤ
  | 0, duration => duration
  | n + 1, duration =>
    let duration := Go.toInt64 (duration * 2)
    if duration > c.podMaxBackoffDuration then c.podMaxBackoffDuration
    else backoffLoop n duration

/-- `calculateBackoffDuration`: the initial duration doubled once for each attempt after the
first, at most the maximum. -/
def calculateBackoffDuration (pInfo : QueuedPodInfo P) : ℤ :=
  c.backoffLoop (pInfo.attempts - 1) c.podInitialBackoffDuration

/-- With a maximum below `2 ^ 62` no doubling wraps, and the loop from a positive duration at
most the maximum is `min (duration * 2 ^ n) max`. -/
theorem backoffLoop_eq_min (hmax : c.podMaxBackoffDuration < 2 ^ 62) :
    ∀ (n : ℕ) (duration : ℤ), 0 < duration → duration ≤ c.podMaxBackoffDuration →
      c.backoffLoop n duration = min (duration * 2 ^ n) c.podMaxBackoffDuration
  | 0, duration, _, hle => by simp [backoffLoop, hle]
  | n + 1, duration, hpos, hle => by
    have hwrap : Go.toInt64 (duration * 2) = duration * 2 :=
      Go.toInt64_of_lt (by omega) (by omega)
    have hgrow : duration * 2 ≤ duration * 2 ^ (n + 1) := by
      have h2 : (2 : ℤ) ≤ 2 ^ (n + 1) :=
        calc (2 : ℤ) = 2 ^ 1 := by norm_num
          _ ≤ 2 ^ (n + 1) := pow_le_pow_right₀ (by norm_num) (by omega)
      exact mul_le_mul_of_nonneg_left h2 hpos.le
    simp only [backoffLoop, hwrap]
    split
    · -- the doubled duration passed the maximum, and so does every later one
      rename_i hgt
      exact (min_eq_right (by omega)).symm
    · rename_i hle'
      rw [backoffLoop_eq_min hmax n (duration * 2) (by omega) (by omega), pow_succ,
        mul_comm ((2 : ℤ) ^ n) 2, mul_assoc]

/-- **Backoff without overflow.** A validated pair of durations with the maximum below `2 ^ 62`
gives `min (initial * 2 ^ (attempts - 1)) max`. -/
theorem calculateBackoffDuration_eq_min (hpos : 0 < c.podInitialBackoffDuration)
    (hle : c.podInitialBackoffDuration ≤ c.podMaxBackoffDuration)
    (hmax : c.podMaxBackoffDuration < 2 ^ 62) (pInfo : QueuedPodInfo P) :
    c.calculateBackoffDuration pInfo =
      min (c.podInitialBackoffDuration * 2 ^ (pInfo.attempts - 1)) c.podMaxBackoffDuration :=
  c.backoffLoop_eq_min hmax _ _ hpos hle

/-- `getBackoffTime`: when the pod's backoff ends. -/
def getBackoffTime (pInfo : QueuedPodInfo P) : ℤ :=
  pInfo.timestamp + c.calculateBackoffDuration pInfo

/-- `isPodBackingoff`: the pod's backoff ends after `now`. -/
def isPodBackingoff (pInfo : QueuedPodInfo P) (now : ℤ) : Bool :=
  decide (c.getBackoffTime pInfo > now)

/-- `podsCompareBackoffCompleted`, the order of `podBackoffQ`. -/
def podsCompareBackoffCompleted (pInfo1 pInfo2 : QueuedPodInfo P) : Bool :=
  decide (c.getBackoffTime pInfo1 < c.getBackoffTime pInfo2)

/-- `intersect(x, y)`: the two sets share an element. -/
def intersect (x y : List String) : Bool :=
  if x.length > y.length then y.any (x.contains ·) else x.any (y.contains ·)

/-- `podMatchesEvent`: whether the event may make the pod schedulable, by the events the plugins
that failed it registered for. -/
def podMatchesEvent (podInfo : QueuedPodInfo P) (event : String) : Bool :=
  match clusterEventReg event with
  | none => false
  | some clusterEvent =>
    if clusterEvent = wildCardEvent then true
    else c.clusterEventMap.any fun (evt, nameSet) =>
      (evt = wildCardEvent ||
        (evt.resource = clusterEvent.resource && evt.actionType &&& clusterEvent.actionType != 0)) &&
      intersect nameSet podInfo.unschedulablePlugins

end Config

/-- `newQueuedPodInfo(pod)`: a pod first seen at `now`. -/
def newQueuedPodInfo (pod : P) (now : ℤ) : QueuedPodInfo P := ⟨pod, now, 0, now, []⟩

/-- `newQueuedPodInfoForLookup(pod)`: a queued pod used only for its key. -/
def newQueuedPodInfoForLookup (pod : P) : QueuedPodInfo P := ⟨pod, 0, 0, 0, []⟩

/-- `updatePod(oldPodInfo, newPod)`: the queued pod with the new version of the pod. -/
def updatePod (oldPodInfo : QueuedPodInfo P) (newPod : P) : QueuedPodInfo P :=
  { oldPodInfo with pod := newPod }

namespace UnschedulablePodsMap

variable [DecidableEq κ] (c : Config P κ υ)

/-- `u.addOrUpdate(pInfo)`. -/
def addOrUpdate (u : UnschedulablePodsMap P κ) (pInfo : QueuedPodInfo P) :
    UnschedulablePodsMap P κ :=
  ⟨Function.update u.podInfoMap (c.key pInfo.pod) (some pInfo)⟩

/-- `u.delete(pod)`. -/
def delete (u : UnschedulablePodsMap P κ) (pod : P) : UnschedulablePodsMap P κ :=
  ⟨Function.update u.podInfoMap (c.key pod) none⟩

/-- `u.get(pod)`. -/
def get (u : UnschedulablePodsMap P κ) (pod : P) : Option (QueuedPodInfo P) :=
  u.podInfoMap (c.key pod)

end UnschedulablePodsMap

namespace PriorityQueue

/-- `NewPriorityQueue`: empty queues, no pop yet and no move request. -/
def new : PriorityQueue P κ υ :=
  ⟨NominatedPodMap.empty, Heap.Data.empty, Heap.Data.empty, ⟨fun _ => none⟩, 0, -1, false⟩

variable [DecidableEq κ] [DecidableEq υ] (c : Config P κ υ)

/-- `Add(pod)`: a new pod goes to `activeQ`, and out of the other two if it was there. -/
def add (q : PriorityQueue P κ υ) (pod : P) (now : ℤ) : PriorityQueue P κ υ :=
  let pInfo := newQueuedPodInfo pod now
  let activeQ := Heap.add c.podInfoKeyFunc c.lessFn q.activeQ pInfo
  -- Go looks the pod up first, only to log that it was there
  let unschedulableQ := q.unschedulableQ.delete c pod
  let podBackoffQ :=
    Heap.deleteIfPresent c.podInfoKeyFunc c.podsCompareBackoffCompleted q.podBackoffQ pInfo
  { q with activeQ, unschedulableQ, podBackoffQ,
           nominator := q.nominator.add c.uid c.nominatedNodeName pInfo.pod "" }

/-- `AddUnschedulableIfNotPresent(pInfo, podSchedulingCycle)`: a pod that failed goes to
`podBackoffQ` if a move request came in its cycle or later, and to `unschedulableQ` otherwise,
unless it is already queued. -/
def addUnschedulableIfNotPresent (q : PriorityQueue P κ υ) (pInfo : QueuedPodInfo P)
    (podSchedulingCycle now : ℤ) : Except (QueueError P) (PriorityQueue P κ υ) :=
  let pod := pInfo.pod
  if (q.unschedulableQ.get c pod).isSome then .error (.alreadyInUnschedulableQ pod)
  else if (Heap.get c.podInfoKeyFunc q.activeQ pInfo).isSome then .error (.alreadyInActiveQ pod)
  else if (Heap.get c.podInfoKeyFunc q.podBackoffQ pInfo).isSome then
    .error (.alreadyInBackoffQ pod)
  else
    -- the timestamp is refreshed, since the pod is re-added
    let pInfo := { pInfo with timestamp := now }
    let q :=
      if q.moveRequestCycle ≥ podSchedulingCycle then
        { q with podBackoffQ :=
            Heap.add c.podInfoKeyFunc c.podsCompareBackoffCompleted q.podBackoffQ pInfo }
      else { q with unschedulableQ := q.unschedulableQ.addOrUpdate c pInfo }
    .ok { q with nominator := q.nominator.add c.uid c.nominatedNodeName pInfo.pod "" }

/-- The loop of `flushBackoffQCompleted`, for at most `n` more pods. -/
def flushBackoffQCompletedLoop (now : ℤ) : ℕ → PriorityQueue P κ υ → PriorityQueue P κ υ
  | 0, q => q
  | n + 1, q =>
    match Heap.peek q.podBackoffQ with
    | none => q
    | some rawPodInfo =>
      if c.getBackoffTime rawPodInfo > now then q
      else
        match Heap.pop c.podsCompareBackoffCompleted q.podBackoffQ with
        | (.error _, podBackoffQ) => { q with podBackoffQ }
        | (.ok _, podBackoffQ) =>
          flushBackoffQCompletedLoop now n
            { q with podBackoffQ,
                     activeQ := Heap.add c.podInfoKeyFunc c.lessFn q.activeQ rawPodInfo }

/-- `flushBackoffQCompleted`: move the pods whose backoff has ended to `activeQ`. Each turn of the
loop pops a pod, so it turns at most `Len()` times. -/
def flushBackoffQCompleted (q : PriorityQueue P κ υ) (now : ℤ) : PriorityQueue P κ υ :=
  flushBackoffQCompletedLoop c now (Heap.len q.podBackoffQ) q

/-- The loop of `movePodsToActiveOrBackoffQueue`. -/
def movePodsLoop (event : String) (now : ℤ) :
    List (QueuedPodInfo P) → PriorityQueue P κ υ → PriorityQueue P κ υ
  | [], q => q
  | pInfo :: podInfoList, q =>
    -- a pod failed by plugins the event does not concern stays
    if pInfo.unschedulablePlugins.length ≠ 0 ∧ c.podMatchesEvent pInfo event = false then
      movePodsLoop event now podInfoList q
    else if c.isPodBackingoff pInfo now then
      movePodsLoop event now podInfoList
        { q with podBackoffQ :=
                   Heap.add c.podInfoKeyFunc c.podsCompareBackoffCompleted q.podBackoffQ pInfo,
                 unschedulableQ := q.unschedulableQ.delete c pInfo.pod }
    else
      movePodsLoop event now podInfoList
        { q with activeQ := Heap.add c.podInfoKeyFunc c.lessFn q.activeQ pInfo,
                 unschedulableQ := q.unschedulableQ.delete c pInfo.pod }

/-- `movePodsToActiveOrBackoffQueue(podInfoList, event)`: send the pods the event concerns to
`podBackoffQ` or `activeQ`, and record the move request. -/
def movePodsToActiveOrBackoffQueue (q : PriorityQueue P κ υ) (podInfoList : List (QueuedPodInfo P))
    (event : String) (now : ℤ) : PriorityQueue P κ υ :=
  { movePodsLoop c event now podInfoList q with moveRequestCycle := q.schedulingCycle }

/-- The pods of `unschedulableQ` that pass a test, in the order `order` ranges over its keys. -/
def unschedulablePodsWhere (q : PriorityQueue P κ υ) (order : List κ)
    (test : QueuedPodInfo P → Bool) : List (QueuedPodInfo P) :=
  order.filterMap fun k => (q.unschedulableQ.podInfoMap k).filter test

/-- `flushUnschedulableQLeftover`: move the pods that have been in `unschedulableQ` for more than
`unschedulableQTimeInterval`, if there are any. -/
def flushUnschedulableQLeftover (q : PriorityQueue P κ υ) (order : List κ) (now : ℤ) :
    PriorityQueue P κ υ :=
  let podsToMove := q.unschedulablePodsWhere order fun pInfo =>
    decide (now - pInfo.timestamp > unschedulableQTimeInterval)
  if podsToMove.length > 0 then
    q.movePodsToActiveOrBackoffQueue c podsToMove unschedulableTimeout now
  else q

/-- `Pop()`: take the first pod of `activeQ` and count a scheduling cycle. On an empty queue Go
waits until a pod is added or the queue is closed; the model returns `none` while it would wait. -/
def pop (q : PriorityQueue P κ υ) :
    Option (Except (QueueError P) (QueuedPodInfo P) × PriorityQueue P κ υ) :=
  if Heap.len q.activeQ = 0 then
    if q.closed then some (.error .closed, q) else none
  else
    match Heap.pop c.lessFn q.activeQ with
    | (.error e, activeQ) => some (.error (.heap e), { q with activeQ })
    | (.ok pInfo, activeQ) =>
      some (.ok { pInfo with attempts := pInfo.attempts + 1 },
        { q with activeQ, schedulingCycle := q.schedulingCycle + 1 })

/-- `Update(oldPod, newPod)` for a non-nil `oldPod`: update the pod where it is queued; a pod
in `unschedulableQ` whose update may make it schedulable moves to `podBackoffQ` or `activeQ`; a
pod queued nowhere goes to `activeQ`. -/
def update (q : PriorityQueue P κ υ) (oldPod newPod : P) (now : ℤ) : PriorityQueue P κ υ :=
  let oldPodInfo := newQueuedPodInfoForLookup oldPod
  match Heap.get c.podInfoKeyFunc q.activeQ oldPodInfo with
  | some oldPodInfo =>
    let pInfo := updatePod oldPodInfo newPod
    { q with nominator := q.nominator.updateNominatedPod c.uid c.nominatedNodeName oldPod pInfo.pod,
             activeQ := Heap.update c.podInfoKeyFunc c.lessFn q.activeQ pInfo }
  | none =>
  match Heap.get c.podInfoKeyFunc q.podBackoffQ oldPodInfo with
  | some oldPodInfo =>
    let pInfo := updatePod oldPodInfo newPod
    { q with nominator := q.nominator.updateNominatedPod c.uid c.nominatedNodeName oldPod pInfo.pod,
             podBackoffQ :=
               Heap.update c.podInfoKeyFunc c.podsCompareBackoffCompleted q.podBackoffQ pInfo }
  | none =>
  match q.unschedulableQ.get c newPod with
  | some usPodInfo =>
    let pInfo := updatePod usPodInfo newPod
    let q := { q with nominator :=
      q.nominator.updateNominatedPod c.uid c.nominatedNodeName oldPod pInfo.pod }
    if c.isPodUpdated oldPod newPod then
      if c.isPodBackingoff usPodInfo now then
        { q with podBackoffQ :=
                   Heap.add c.podInfoKeyFunc c.podsCompareBackoffCompleted q.podBackoffQ pInfo,
                 unschedulableQ := q.unschedulableQ.delete c pInfo.pod }
      else
        { q with activeQ := Heap.add c.podInfoKeyFunc c.lessFn q.activeQ pInfo,
                 unschedulableQ := q.unschedulableQ.delete c pInfo.pod }
    else
      -- the update did not make the pod schedulable: it stays in `unschedulableQ`
      { q with unschedulableQ := q.unschedulableQ.addOrUpdate c pInfo }
  | none =>
    let pInfo := newQueuedPodInfo newPod now
    { q with activeQ := Heap.add c.podInfoKeyFunc c.lessFn q.activeQ pInfo,
             nominator := q.nominator.add c.uid c.nominatedNodeName pInfo.pod "" }

/-- `Delete(pod)`: forget the pod's nomination and take it out of its queue. -/
def delete (q : PriorityQueue P κ υ) (pod : P) : PriorityQueue P κ υ :=
  let q := { q with nominator := q.nominator.delete c.uid pod }
  match Heap.delete c.podInfoKeyFunc c.lessFn q.activeQ (newQueuedPodInfoForLookup pod) with
  | .ok activeQ => { q with activeQ }
  | .error _ =>
    { q with podBackoffQ := Heap.deleteIfPresent c.podInfoKeyFunc c.podsCompareBackoffCompleted
               q.podBackoffQ (newQueuedPodInfoForLookup pod),
             unschedulableQ := q.unschedulableQ.delete c pod }

/-- `MoveAllToActiveOrBackoffQueue(event)`: move every pod of `unschedulableQ` the event
concerns. -/
def moveAllToActiveOrBackoffQueue (q : PriorityQueue P κ υ) (event : String) (order : List κ)
    (now : ℤ) : PriorityQueue P κ υ :=
  q.movePodsToActiveOrBackoffQueue c (q.unschedulablePodsWhere order fun _ => true) event now

/-- `getUnschedulablePodsWithMatchingAffinityTerm(pod)`: the pods of `unschedulableQ` with a
required affinity term that matches the assigned pod, as `termMatches` says with the namespace
labels of the moment. -/
def getUnschedulablePodsWithMatchingAffinityTerm (q : PriorityQueue P κ υ) (order : List κ)
    (termMatches : QueuedPodInfo P → Bool) : List (QueuedPodInfo P) :=
  q.unschedulablePodsWhere order termMatches

/-- `AssignedPodAdded(pod)`. -/
def assignedPodAdded (q : PriorityQueue P κ υ) (order : List κ)
    (termMatches : QueuedPodInfo P → Bool) (now : ℤ) : PriorityQueue P κ υ :=
  q.movePodsToActiveOrBackoffQueue c (q.getUnschedulablePodsWithMatchingAffinityTerm order
    termMatches) assignedPodAdd now

/-- `AssignedPodUpdated(pod)`. -/
def assignedPodUpdated (q : PriorityQueue P κ υ) (order : List κ)
    (termMatches : QueuedPodInfo P → Bool) (now : ℤ) : PriorityQueue P κ υ :=
  q.movePodsToActiveOrBackoffQueue c (q.getUnschedulablePodsWithMatchingAffinityTerm order
    termMatches) assignedPodUpdate now

/-- `Close()`. -/
def close (q : PriorityQueue P κ υ) : PriorityQueue P κ υ := { q with closed := true }

end PriorityQueue

/-! ## A maximum above `2 ^ 62` -/

/-- A queue of pods that are their own keys, built from `podInitialBackoffSeconds` 4611686019 and
`podMaxBackoffSeconds` 9223372036, which validation accepts and which fit in a `time.Duration`. -/
def largeBackoffConfig : Config ℕ ℕ ℕ :=
  ⟨id, id, fun _ => "", fun a b => a != b, fun a b => decide (a.pod < b.pod),
    4611686019 * 10 ^ 9, 9223372036 * 10 ^ 9, []⟩

theorem calculateBackoffDuration_wraps_negative :
    0 < largeBackoffConfig.podInitialBackoffDuration ∧
      largeBackoffConfig.podInitialBackoffDuration ≤ largeBackoffConfig.podMaxBackoffDuration ∧
      largeBackoffConfig.podMaxBackoffDuration < 2 ^ 63 ∧
      largeBackoffConfig.calculateBackoffDuration ⟨0, 0, 1, 0, []⟩ = 4611686019 * 10 ^ 9 ∧
      largeBackoffConfig.calculateBackoffDuration ⟨0, 0, 2, 0, []⟩ =
        2 * 4611686019 * 10 ^ 9 - 2 ^ 64 ∧
      2 * 4611686019 * 10 ^ 9 - 2 ^ 64 < (0 : ℤ) := by
  decide

end Kubernetes.Scheduler
