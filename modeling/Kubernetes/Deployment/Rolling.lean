import Mathlib
import Kubernetes.Foundations.GoStd

/-!
# One step of a rolling update

`rolloutRolling` (`pkg/controller/deployment/rolling.go`) moves a Deployment's pods from its old
ReplicaSets to the new one, one step per sync: it scales the new ReplicaSet up as far as the
surge allows (`reconcileNewReplicaSet`), and only when that changes nothing, scales the old ones
down, first their unhealthy replicas (`cleanupUnhealthyReplicas`), then as far as the
unavailability budget allows (`scaleDownOldReplicaSetsForRollingUpdate`). A step's result is the
list of scale requests it sends, each a ReplicaSet's name and its new `spec.replicas`.

Replica counts are Go `int32`s and their sums wrap (`Int32`). The percentages of `maxSurge` and
`maxUnavailable` are scaled with an exact ceiling and floor, where the code goes through
`float64`.
A Deployment reaches this code with a rolling-update strategy whose two fields are set (the API
server defaults them), so the model has no strategy type and no `nil` fields.
-/

namespace Kubernetes.DeploymentController

/-- `intstr.IntOrString`, as validation accepts it: an integer, or a string `"<value>%"`. -/
inductive IntOrString
  | int (intVal : Int32)
  | percent (value : ℤ)

/-- `GetScaledValueFromIntOrPercent(intOrPercent, total, roundUp)`: a percentage of `total`,
`math.Ceil` or `math.Floor` of `value * total / 100` taken exactly (`/` on `ℤ` rounds down). -/
def getScaledValueFromIntOrPercent (intOrPercent : IntOrString) (total : ℤ) (roundUp : Bool) : ℤ :=
  match intOrPercent with
  | .int intVal => intVal.toInt
  | .percent value => if roundUp then -(-(value * total) / 100) else value * total / 100

/-- A Deployment, as a rolling update reads it. -/
structure Deployment where
  replicas : Int32
  maxSurge : IntOrString
  maxUnavailable : IntOrString

/-- A ReplicaSet: its name, when it was created, `spec.replicas` and `status.availableReplicas`. -/
structure ReplicaSet where
  name : String
  creationTimestamp : ℕ
  replicas : Int32
  availableReplicas : Int32

/-- A scale request: the ReplicaSet's name and its new `spec.replicas`. -/
structure Scale where
  name : String
  newScale : Int32
  deriving DecidableEq

/-- `integer.IntMin` on two `int32`s. -/
def intMin (a b : Int32) : Int32 := if a < b then a else b

/-- `ResolveFenceposts(maxSurge, maxUnavailable, desired)`: both budgets, at least one of them
nonzero. -/
def resolveFenceposts (maxSurge maxUnavailable : IntOrString) (desired : Int32) : Int32 × Int32 :=
  let surge := getScaledValueFromIntOrPercent maxSurge desired.toInt true
  let unavailable := getScaledValueFromIntOrPercent maxUnavailable desired.toInt false
  -- rounding down may leave both at zero: then one pod may be unavailable
  let unavailable := if surge = 0 ∧ unavailable = 0 then 1 else unavailable
  (Int32.ofInt surge, Int32.ofInt unavailable)

/-- `MaxUnavailable(deployment)`, at most the number of replicas. -/
def maxUnavailable (d : Deployment) : Int32 :=
  if d.replicas = 0 then 0
  else
    let maxUnavailable := (resolveFenceposts d.maxSurge d.maxUnavailable d.replicas).2
    if maxUnavailable > d.replicas then d.replicas else maxUnavailable

/-- `MinAvailable(deployment)`. -/
def minAvailable (d : Deployment) : Int32 := d.replicas - maxUnavailable d

/-- `MaxSurge(deployment)`. -/
def maxSurge (d : Deployment) : Int32 := (resolveFenceposts d.maxSurge d.maxUnavailable d.replicas).1

/-- `GetReplicaCountForReplicaSets(replicaSets)`. -/
def getReplicaCountForReplicaSets (replicaSets : List ReplicaSet) : Int32 :=
  replicaSets.foldl (fun totalReplicas rs => totalReplicas + rs.replicas) 0

/-- `GetAvailableReplicaCountForReplicaSets(replicaSets)`. -/
def getAvailableReplicaCountForReplicaSets (replicaSets : List ReplicaSet) : Int32 :=
  replicaSets.foldl (fun totalAvailableReplicas rs => totalAvailableReplicas + rs.availableReplicas) 0

/-- `FilterActiveReplicaSets(replicaSets)`: those with some replicas. -/
def filterActiveReplicaSets (replicaSets : List ReplicaSet) : List ReplicaSet :=
  replicaSets.filter fun rs => rs.replicas > 0

/-- `sort.Sort(controller.ReplicaSetsByCreationTimestamp(replicaSets))`: oldest first, then by
name. -/
def sortByCreationTimestamp (replicaSets : List ReplicaSet) : List ReplicaSet :=
  replicaSets.insertionSort fun a b =>
    if a.creationTimestamp = b.creationTimestamp then a.name < b.name
    else a.creationTimestamp < b.creationTimestamp

/-- `scaleReplicaSetAndRecordEvent(rs, newScale, deployment)`: a request when the size changes. -/
def scaleReplicaSetAndRecordEvent (rs : ReplicaSet) (newScale : Int32) : List Scale :=
  if rs.replicas = newScale then [] else [⟨rs.name, newScale⟩]

/-! ## Scaling the new ReplicaSet up -/

/-- `NewRSNewReplicas(deployment, allRSs, newRS)` for a rolling update: the new ReplicaSet grown
until all the ReplicaSets hold `replicas + maxSurge`, and at most to `replicas`. -/
def newRSNewReplicas (d : Deployment) (allRSs : List ReplicaSet) (newRS : ReplicaSet) : Int32 :=
  let maxSurge := getScaledValueFromIntOrPercent d.maxSurge d.replicas.toInt true
  let currentPodCount := getReplicaCountForReplicaSets allRSs
  let maxTotalPods := d.replicas + Int32.ofInt maxSurge
  if currentPodCount ≥ maxTotalPods then newRS.replicas
  else
    let scaleUpCount := maxTotalPods - currentPodCount
    -- do not exceed the number of desired replicas
    let scaleUpCount := intMin scaleUpCount (d.replicas - newRS.replicas)
    newRS.replicas + scaleUpCount

/-- `reconcileNewReplicaSet(allRSs, newRS, deployment)`. -/
def reconcileNewReplicaSet (allRSs : List ReplicaSet) (newRS : ReplicaSet) (d : Deployment) :
    List Scale :=
  if newRS.replicas = d.replicas then []
  else if newRS.replicas > d.replicas then scaleReplicaSetAndRecordEvent newRS d.replicas
  else scaleReplicaSetAndRecordEvent newRS (newRSNewReplicas d allRSs newRS)

/-! ## Scaling the old ReplicaSets down -/

/-- The loop of `cleanupUnhealthyReplicas` from one old ReplicaSet on, with what it has scaled
down so far: the requests, and the old ReplicaSets as they are after them with the total scaled
down, or `none` when the loop returns its error. -/
def cleanupLoop (maxCleanupCount : Int32) :
    Int32 → List ReplicaSet → List Scale × Option (List ReplicaSet × Int32)
  | totalScaledDown, [] => ([], some ([], totalScaledDown))
  | totalScaledDown, targetRS :: rest =>
    if totalScaledDown ≥ maxCleanupCount then ([], some (targetRS :: rest, totalScaledDown))
    else
      let skip := cleanupLoop maxCleanupCount totalScaledDown rest
      -- this ReplicaSet cannot be scaled down, or has no unhealthy replicas
      if targetRS.replicas = 0 then (skip.1, skip.2.map fun r => (targetRS :: r.1, r.2))
      else if targetRS.replicas = targetRS.availableReplicas then
        (skip.1, skip.2.map fun r => (targetRS :: r.1, r.2))
      else
        let scaledDownCount := intMin (maxCleanupCount - totalScaledDown)
          (targetRS.replicas - targetRS.availableReplicas)
        let newReplicasCount := targetRS.replicas - scaledDownCount
        if newReplicasCount > targetRS.replicas then ([], none)
        else
          let next := cleanupLoop maxCleanupCount (totalScaledDown + scaledDownCount) rest
          (scaleReplicaSetAndRecordEvent targetRS newReplicasCount ++ next.1,
            next.2.map fun r => ({ targetRS with replicas := newReplicasCount } :: r.1, r.2))

/-- `cleanupUnhealthyReplicas(oldRSs, deployment, maxCleanupCount)`: the unhealthy replicas of
the old ReplicaSets, oldest first, at most `maxCleanupCount` of them. -/
def cleanupUnhealthyReplicas (oldRSs : List ReplicaSet) (maxCleanupCount : Int32) :
    List Scale × Option (List ReplicaSet × Int32) :=
  cleanupLoop maxCleanupCount 0 (sortByCreationTimestamp oldRSs)

/-- The loop of `scaleDownOldReplicaSetsForRollingUpdate` from one old ReplicaSet on, with what it
has scaled down so far. -/
def scaleDownLoop (totalScaleDownCount : Int32) : Int32 → List ReplicaSet → List Scale
  | _, [] => []
  | totalScaledDown, targetRS :: rest =>
    if totalScaledDown ≥ totalScaleDownCount then []
    else if targetRS.replicas = 0 then scaleDownLoop totalScaleDownCount totalScaledDown rest
    else
      let scaleDownCount := intMin targetRS.replicas (totalScaleDownCount - totalScaledDown)
      let newReplicasCount := targetRS.replicas - scaleDownCount
      if newReplicasCount > targetRS.replicas then []
      else
        scaleReplicaSetAndRecordEvent targetRS newReplicasCount ++
          scaleDownLoop totalScaleDownCount (totalScaledDown + scaleDownCount) rest

/-- `scaleDownOldReplicaSetsForRollingUpdate(allRSs, oldRSs, deployment)`: as many old replicas,
oldest first, as there are available pods beyond `replicas - maxUnavailable`. -/
def scaleDownOldReplicaSetsForRollingUpdate (allRSs oldRSs : List ReplicaSet) (d : Deployment) :
    List Scale :=
  let minAvailable := d.replicas - maxUnavailable d
  let availablePodCount := getAvailableReplicaCountForReplicaSets allRSs
  if availablePodCount ≤ minAvailable then []
  else scaleDownLoop (availablePodCount - minAvailable) 0 (sortByCreationTimestamp oldRSs)

/-- `reconcileOldReplicaSets(allRSs, oldRSs, newRS, deployment)`, with `oldRSs` the active ones. -/
def reconcileOldReplicaSets (allRSs oldRSs : List ReplicaSet) (newRS : ReplicaSet)
    (d : Deployment) : List Scale :=
  let oldPodsCount := getReplicaCountForReplicaSets oldRSs
  if oldPodsCount = 0 then []
  else
    let allPodsCount := getReplicaCountForReplicaSets allRSs
    let minAvailable := d.replicas - maxUnavailable d
    let newRSUnavailablePodCount := newRS.replicas - newRS.availableReplicas
    let maxScaledDown := allPodsCount - minAvailable - newRSUnavailablePodCount
    if maxScaledDown ≤ 0 then []
    else
      let (cleanupScales, cleaned) := cleanupUnhealthyReplicas oldRSs maxScaledDown
      match cleaned with
      | none => cleanupScales
      | some (oldRSs, _) =>
        cleanupScales ++ scaleDownOldReplicaSetsForRollingUpdate (oldRSs ++ [newRS]) oldRSs d

/-- `rolloutRolling(deployment, rsList)`, with the new ReplicaSet and the old ones found: the scale
requests of one step. -/
def rolloutRolling (d : Deployment) (newRS : ReplicaSet) (oldRSs : List ReplicaSet) : List Scale :=
  let allRSs := oldRSs ++ [newRS]
  let scaledUp := reconcileNewReplicaSet allRSs newRS d
  if scaledUp ≠ [] then scaledUp
  else reconcileOldReplicaSets allRSs (filterActiveReplicaSets oldRSs) newRS d

end Kubernetes.DeploymentController
