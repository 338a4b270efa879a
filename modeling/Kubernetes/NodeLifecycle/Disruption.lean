import Mathlib
import Kubernetes.Foundations.GoRange

/-!
# Zone disruption in the node lifecycle controller

`pkg/controller/nodelifecycle/node_lifecycle_controller.go`, `handleDisruption`. On every pass
over the nodes the controller computes each zone's state from the Ready conditions of its nodes,
and sets the rate of the zone's eviction (or tainting) queue: normal, reduced in a partially
disrupted zone, and stopped in every zone while all zones are fully disrupted.

* `handleDisruption_zoneStates`: after a call, each zone of the call has the state
  `ComputeZoneState` gives it, or full disruption where every zone is fully disrupted, in every
  order Go ranges over the maps.
* `handleDisruption_stale_limiter_and_zone`: the queue's rate is set on a change of state only, so
  a zone that shrinks without leaving partial disruption keeps the rate of its old size; and the
  loop that drops vanished zones stops at the first zone not fully disrupted, so a vanished zone
  visited after it stays, with the zero state.

A zone's queue is the tainting queue with the taint manager and the eviction queue without it;
both are set the same way, so the model keeps one rate per zone, `evictionLimiterQPS` until the
first call sets it, as `addPodEvictorForNewZone` creates it. A Ready condition is `none` where the
node has none, and otherwise whether its status is `True`.
-/

namespace Kubernetes.NodeLifecycle

/-- `ZoneState`, with `zero` the zero value `""` that the map of new states gives for a zone it
does not hold. -/
inductive ZoneState where
  | zero
  | initial
  | normal
  | fullDisruption
  | partialDisruption
  deriving DecidableEq

/-- The parameters `handleDisruption` reads, with `Q` the type of a queue's rate and
`unhealthyZoneThreshold` the fraction `thresholdNum / thresholdDen`. -/
structure DisruptionConfig (Q : Type*) where
  evictionLimiterQPS : Q
  enterPartialDisruptionFunc : ℕ → Q
  enterFullDisruptionFunc : ℕ → Q
  thresholdNum : ℕ
  thresholdDen : ℕ

/-- What `handleDisruption` changes: the state of each zone it has seen and the rate of each
zone's queue. -/
structure Controller (Q : Type*) where
  zoneStates : String → Option ZoneState
  zoneLimiter : String → Q

variable {Q : Type*} [Zero Q] (cfg : DisruptionConfig Q)

/-- `ComputeZoneState`: the number of nodes not Ready, and the zone's state. The share of nodes
not Ready is compared with the threshold exactly, without the rounding of `float32`. -/
def computeZoneState (nodeReadyConditions : List (Option Bool)) : ℕ × ZoneState :=
  let (readyNodes, notReadyNodes) := nodeReadyConditions.foldl (fun acc condition =>
    if condition = some true then (acc.1 + 1, acc.2) else (acc.1, acc.2 + 1)) (0, 0)
  if readyNodes = 0 ∧ 0 < notReadyNodes then (notReadyNodes, .fullDisruption)
  else if 2 < notReadyNodes ∧
      cfg.thresholdNum * (notReadyNodes + readyNodes) ≤ cfg.thresholdDen * notReadyNodes then
    (notReadyNodes, .partialDisruption)
  else (notReadyNodes, .normal)

/-- `setLimiterInZone`, on the zone's current rate. -/
def setLimiterInZone (limiter : Q) (zoneSize : ℕ) : ZoneState → Q
  | .normal => cfg.evictionLimiterQPS
  | .partialDisruption => cfg.enterPartialDisruptionFunc zoneSize
  | .fullDisruption => cfg.enterFullDisruptionFunc zoneSize
  | _ => limiter

/-- `newZoneStates[k]`. -/
def newZoneState (zoneToNodeConditions : List (String × List (Option Bool))) (zone : String) :
    ZoneState :=
  match zoneToNodeConditions.lookup zone with
  | some conditions => (computeZoneState cfg conditions).2
  | none => .zero

/-- `len(zoneToNodeConditions[k])`. -/
def zoneSize (zoneToNodeConditions : List (String × List (Option Bool))) (zone : String) : ℕ :=
  ((zoneToNodeConditions.lookup zone).getD []).length

/-- One turn of the loop over `nc.zoneStates` that drops the zones of no node: it stops at the
first zone left that is not fully disrupted, with `allWasFullyDisrupted` false. -/
def pruneZone (zoneToNodeConditions : List (String × List (Option Bool)))
    (acc : (String → Option ZoneState) × Bool) (zone : String) :
    Go.Next ((String → Option ZoneState) × Bool) Empty :=
  if (zoneToNodeConditions.lookup zone).isNone then
    .cont (Function.update acc.1 zone none, acc.2)
  else if acc.1 zone ≠ some .fullDisruption then .brk (acc.1, false)
  else .cont acc

/-- `handleDisruption`, with `zoneOrder` the order in which its second loop ranges over
`nc.zoneStates`; the other loops treat each zone alone. -/
def handleDisruption (zoneToNodeConditions : List (String × List (Option Bool)))
    (zoneOrder : List String) (nc : Controller Q) : Controller Q :=
  let allAreFullyDisrupted := zoneToNodeConditions.all fun zc =>
    (computeZoneState cfg zc.2).2 = .fullDisruption
  -- the first loop gives each unseen zone the initial state
  let zoneStates : String → Option ZoneState := fun zone =>
    if (zoneToNodeConditions.lookup zone).isSome ∧ nc.zoneStates zone = none then some .initial
    else nc.zoneStates zone
  let (zoneStates, allWasFullyDisrupted) :=
    match Go.forRange (pruneZone zoneToNodeConditions) (zoneStates, true) zoneOrder with
    | .inr acc => acc
    | .inl e => e.elim
  if !allAreFullyDisrupted || !allWasFullyDisrupted then
    if allAreFullyDisrupted then
      { zoneStates := fun zone => (zoneStates zone).map fun _ => .fullDisruption
        zoneLimiter := fun zone => if (zoneStates zone).isSome then 0 else nc.zoneLimiter zone }
    else if allWasFullyDisrupted then
      { zoneStates := fun zone =>
          (zoneStates zone).map fun _ => newZoneState cfg zoneToNodeConditions zone
        zoneLimiter := fun zone => if (zoneStates zone).isSome then
            setLimiterInZone cfg (nc.zoneLimiter zone) (zoneSize zoneToNodeConditions zone)
              (newZoneState cfg zoneToNodeConditions zone)
          else nc.zoneLimiter zone }
    else
      { zoneStates := fun zone =>
          (zoneStates zone).map fun _ => newZoneState cfg zoneToNodeConditions zone
        zoneLimiter := fun zone =>
          match zoneStates zone with
          | some state =>
            if state = newZoneState cfg zoneToNodeConditions zone then nc.zoneLimiter zone
            else setLimiterInZone cfg (nc.zoneLimiter zone) (zoneSize zoneToNodeConditions zone)
              (newZoneState cfg zoneToNodeConditions zone)
          | none => nc.zoneLimiter zone }
  else { zoneStates := zoneStates, zoneLimiter := nc.zoneLimiter }

/-! ## The states after a call -/

/-- What the loop that drops vanished zones keeps: the zones of the call keep their state, and
where it ends with `allWasFullyDisrupted`, every zone of the call it visited was fully
disrupted. -/
theorem forRange_pruneZone (zoneToNodeConditions : List (String × List (Option Bool)))
    (zoneStates : String → Option ZoneState) (zoneOrder : List String) :
    (Go.forRange (pruneZone zoneToNodeConditions) (zoneStates, true) zoneOrder).elim
      (fun _ => False) fun acc =>
        (∀ zone, (zoneToNodeConditions.lookup zone).isSome → acc.1 zone = zoneStates zone) ∧
        (acc.2 = true → ∀ zone ∈ zoneOrder, (zoneToNodeConditions.lookup zone).isSome →
          zoneStates zone = some .fullDisruption) := by
  refine Go.forRange_rule (I := fun rest acc =>
      (∀ zone, (zoneToNodeConditions.lookup zone).isSome → acc.1 zone = zoneStates zone) ∧
      (acc.2 = true → ∀ zone ∈ zoneOrder, zone ∉ rest → (zoneToNodeConditions.lookup zone).isSome →
        zoneStates zone = some .fullDisruption)) ?_ ?_ zoneOrder (zoneStates, true)
    ⟨fun _ _ => rfl, fun _ zone hzone hrest => absurd hzone hrest⟩
  · rintro zone rest ⟨current, allWas⟩ ⟨hkeep, hvisited⟩
    unfold pruneZone
    split_ifs with hgone hnotFull
    · -- a vanished zone is dropped
      have hnone : zoneToNodeConditions.lookup zone = none := Option.isNone_iff_eq_none.mp hgone
      refine ⟨fun k hk => ?_, fun hall k hk hnot hcall => ?_⟩
      · have hne : k ≠ zone := by
          rintro rfl
          simp [hnone] at hk
        simpa [Function.update_of_ne hne] using hkeep k hk
      · have hne : k ≠ zone := by
          rintro rfl
          simp [hnone] at hcall
        exact hvisited hall k hk (by simpa [hne] using hnot) hcall
    · exact ⟨hkeep, fun h => absurd h Bool.false_ne_true⟩
    · refine ⟨hkeep, fun hall k hk hnot hcall => ?_⟩
      by_cases hkz : k = zone
      · subst hkz
        rw [← hkeep k hcall]
        simpa using hnotFull
      · exact hvisited hall k hk (by simpa [hkz] using hnot) hcall
  · rintro acc ⟨hkeep, hvisited⟩
    exact ⟨hkeep, fun hall zone hzone => hvisited hall zone hzone List.not_mem_nil⟩

/-- **The state of each zone of a call**: what `ComputeZoneState` gives it, or full disruption
where every zone of the call is fully disrupted, whatever the order of the maps, where the loop
over `nc.zoneStates` visits every zone of the call. -/
theorem handleDisruption_zoneStates (zoneToNodeConditions : List (String × List (Option Bool)))
    (zoneOrder : List String) (nc : Controller Q)
    (hvisits : ∀ zc ∈ zoneToNodeConditions, zc.1 ∈ zoneOrder) {zone : String}
    {conditions : List (Option Bool)} (hzone : zoneToNodeConditions.lookup zone = some conditions) :
    (handleDisruption cfg zoneToNodeConditions zoneOrder nc).zoneStates zone =
      some (if zoneToNodeConditions.all (fun zc => (computeZoneState cfg zc.2).2 = .fullDisruption)
        then .fullDisruption else (computeZoneState cfg conditions).2) := by
  have hcall : (zoneToNodeConditions.lookup zone).isSome := by simp [hzone]
  have hmem : zone ∈ zoneOrder := by
    obtain ⟨l₁, l₂, hsplit, -⟩ := List.lookup_eq_some_iff.mp hzone
    exact hvisits (zone, conditions) (by simp [hsplit])
  have hnew : newZoneState cfg zoneToNodeConditions zone = (computeZoneState cfg conditions).2 := by
    simp [newZoneState, hzone]
  set zoneStates : String → Option ZoneState := fun zone =>
    if (zoneToNodeConditions.lookup zone).isSome ∧ nc.zoneStates zone = none then some .initial
    else nc.zoneStates zone with hzoneStates
  have hseen : (zoneStates zone).isSome := by
    cases hnc : nc.zoneStates zone <;> simp [hzoneStates, hcall, hnc]
  have hprune := forRange_pruneZone zoneToNodeConditions zoneStates zoneOrder
  unfold handleDisruption
  dsimp only
  rw [← hzoneStates]
  generalize Go.forRange (pruneZone zoneToNodeConditions) (zoneStates, true) zoneOrder = r at hprune ⊢
  rcases r with e | ⟨pruned, allWas⟩
  · exact e.elim
  obtain ⟨hkeep, hvisited⟩ := hprune
  have hpruned : pruned zone = zoneStates zone := hkeep zone hcall
  obtain ⟨state, hstate⟩ := Option.isSome_iff_exists.mp hseen
  rw [hstate] at hpruned
  by_cases hall : zoneToNodeConditions.all fun zc => (computeZoneState cfg zc.2).2 = .fullDisruption
  · by_cases hwas : allWas
    · -- nothing changes: every zone was and is fully disrupted
      have hfull := hvisited hwas zone hmem hcall
      simp only [hall, hwas, Bool.not_true, Bool.or_self, Bool.false_eq_true, if_false, if_true]
      rw [hpruned, ← hstate, hfull]
    · simp [hall, hwas, hpruned]
  · by_cases hwas : allWas <;> simp [hall, hwas, hpruned, hnew]

/-! ## Rates that lag and zones that stay -/

/-- The default rates in thousandths of a query per second: `0.1` normally, `ReducedQPSFunc` in
a partially disrupted zone (`0.01` above 50 nodes, `0` below), `HealthyQPSFunc` in a fully
disrupted one; the threshold `0.55`. -/
def defaultRates : DisruptionConfig ℕ :=
  ⟨100, fun zoneSize => if 50 < zoneSize then 10 else 0, fun _ => 100, 55, 100⟩

/-- The controller before its first call: no zone state, every queue at `evictionLimiterQPS`. -/
def startController : Controller ℕ := ⟨fun _ => none, fun _ => 100⟩

/-- A zone's Ready conditions: `notReady` nodes not Ready and `ready` Ready. -/
def zoneConditions (ready notReady : ℕ) : List (Option Bool) :=
  List.replicate notReady (some false) ++ List.replicate ready (some true)

/-- Zone `z` is partially disrupted with 60 nodes, then with 40: its queue keeps the rate for 60
nodes, not `ReducedQPSFunc 40`. Zones `a` and `b` are normal, then `b` has no node: visited after
`a`, it keeps a state, the zero one. -/
theorem handleDisruption_stale_limiter_and_zone :
    (handleDisruption defaultRates [("z", zoneConditions 1 39)] ["z"]
        (handleDisruption defaultRates [("z", zoneConditions 1 59)] ["z"] startController)).zoneStates
      "z" = some .partialDisruption ∧
    (handleDisruption defaultRates [("z", zoneConditions 1 39)] ["z"]
        (handleDisruption defaultRates [("z", zoneConditions 1 59)] ["z"] startController)).zoneLimiter
      "z" = 10 ∧
    defaultRates.enterPartialDisruptionFunc 40 = 0 ∧
    (handleDisruption defaultRates [("a", zoneConditions 1 0)] ["a", "b"]
        (handleDisruption defaultRates [("a", zoneConditions 1 0), ("b", zoneConditions 1 0)]
          ["a", "b"] startController)).zoneStates "b" = some .zero := by
  decide

end Kubernetes.NodeLifecycle
