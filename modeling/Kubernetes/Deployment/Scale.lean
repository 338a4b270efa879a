import Mathlib
import Kubernetes.Deployment.Rolling

/-!
# Proportional scaling

`DeploymentController.scale` (`pkg/controller/deployment/sync.go`) resizes a Deployment's
ReplicaSets when the Deployment is scaled or paused. With one active ReplicaSet it gives it
`replicas`; when the new ReplicaSet is saturated it scales the old ones to zero; otherwise it
spreads `replicas + MaxSurge` over the active ReplicaSets in proportion to their sizes. Each
ReplicaSet's share is `replicas * (replicas + MaxSurge) / max-replicas`, its `max-replicas`
annotation being the allowed size of the scale that sized it (`getReplicaSetFraction`), rounded
and capped so that no more is added than there is to add (`GetProportion`); the leftover goes to
the largest ReplicaSet, not below zero.

* `sum_proportionalScale`: the sizes add up, in `int32` arithmetic, to the allowed size, unless
  the clamp at zero lifts the largest ReplicaSet. With two active ReplicaSets or more and the new
  one not saturated, `scale` is this branch (`scale_of_two_le_active`).
* Rounding every small ReplicaSet's share up can leave more than the largest one holds to take
  back: four ReplicaSets of one replica each, scaled from four to two, end at `0, 1, 1, 1`, three
  replicas for an allowed size of two (`proportionalScale_exceeds_allowed_size`).

`RoundToInt32` of a `float64` quotient is taken exactly; where Go converts a value `int32` cannot
hold (a division by zero, or a result out of range), which the Go specification leaves to the
implementation, the model gives `none`. A ReplicaSet's annotations are read as
`getIntFromAnnotation` reads them, `none` for a missing or unreadable one. The model's `scale`
returns, for each ReplicaSet it resizes, the size it leaves it at; `scaleReplicaSet` sends an
update when that size or an annotation changes.
-/

namespace Kubernetes.DeploymentController

/-- A ReplicaSet with its `deployment.kubernetes.io/desired-replicas` and `max-replicas`
annotations. -/
structure AnnotatedReplicaSet extends ReplicaSet where
  desiredReplicas : Option Int32
  maxReplicas : Option Int32

/-- `integer.Int32Max`. -/
def int32Max (a b : Int32) : Int32 := if b > a then b else a

/-- `integer.Int32Min`. -/
def int32Min (a b : Int32) : Int32 := if b < a then b else a

/-- `integer.RoundToInt32(float64(p) / float64(q))`: the quotient rounded half away from zero. -/
def roundQuotient (p q : ℤ) : Option Int32 :=
  if q = 0 then none
  else
    let (p, q) := if q < 0 then (-p, -q) else (p, q)
    -- `int32(a + 0.5)` truncates towards zero, and so does `int32(a - 0.5)` for a negative `a`
    let r := if p < 0 then -((-2 * p + q) / (2 * q)) else (2 * p + q) / (2 * q)
    if -2 ^ 31 ≤ r ∧ r < 2 ^ 31 then some (Int32.ofInt r) else none

/-- `getReplicaSetFraction(rs, d)`, with `d.Status.Replicas` as `statusReplicas`: what takes `rs`
to its share of `replicas + MaxSurge`, in proportion to its `max-replicas` annotation. -/
def getReplicaSetFraction (rs : AnnotatedReplicaSet) (d : Deployment) (statusReplicas : Int32) :
    Option Int32 :=
  if d.replicas = 0 then some (-rs.replicas)
  else
    let deploymentReplicas := d.replicas + maxSurge d
    -- a missing annotation falls back to the Deployment's current size
    let annotatedReplicas := rs.maxReplicas.getD statusReplicas
    (roundQuotient (rs.replicas * deploymentReplicas).toInt annotatedReplicas.toInt).map
      (· - rs.replicas)

/-- `GetProportion(rs, d, deploymentReplicasToAdd, deploymentReplicasAdded)`: the share, capped
by what is left to add or remove. -/
def getProportion (rs : AnnotatedReplicaSet) (d : Deployment) (statusReplicas : Int32)
    (deploymentReplicasToAdd deploymentReplicasAdded : Int32) : Option Int32 :=
  if rs.replicas = 0 ∨ deploymentReplicasToAdd = 0 ∨
      deploymentReplicasToAdd = deploymentReplicasAdded then some 0
  else
    (getReplicaSetFraction rs d statusReplicas).map fun rsFraction =>
      let allowed := deploymentReplicasToAdd - deploymentReplicasAdded
      if deploymentReplicasToAdd > 0 then int32Min rsFraction allowed
      else int32Max rsFraction allowed

/-- `controller.ReplicaSetsByCreationTimestamp`'s order: older first, then by name. -/
def createdBefore (a b : AnnotatedReplicaSet) : Prop :=
  if a.creationTimestamp = b.creationTimestamp then a.name < b.name
  else a.creationTimestamp < b.creationTimestamp

instance : DecidableRel createdBefore := fun a b =>
  inferInstanceAs (Decidable (if a.creationTimestamp = b.creationTimestamp then a.name < b.name
    else a.creationTimestamp < b.creationTimestamp))

/-- `sort.Sort(sort.Reverse(controller.ReplicaSetsByCreationTimestamp(rss)))`: newest first. -/
def sortNewestFirst (rss : List AnnotatedReplicaSet) : List AnnotatedReplicaSet :=
  rss.insertionSort fun a b => createdBefore b a

/-- `sort.Sort(controller.ReplicaSetsBySizeNewer(rss))`: largest first, then newest first. -/
def sortBySizeNewer (rss : List AnnotatedReplicaSet) : List AnnotatedReplicaSet :=
  rss.insertionSort fun a b =>
    if a.replicas = b.replicas then createdBefore b a else a.replicas > b.replicas

/-- `sort.Sort(controller.ReplicaSetsBySizeOlder(rss))`: largest first, then oldest first. -/
def sortBySizeOlder (rss : List AnnotatedReplicaSet) : List AnnotatedReplicaSet :=
  rss.insertionSort fun a b =>
    if a.replicas = b.replicas then createdBefore a b else a.replicas > b.replicas

/-- `FindActiveOrLatest(newRS, oldRSs)`, the old ReplicaSets newest first: the one active
ReplicaSet, or with none active the new one, else the newest old one. -/
def findActiveOrLatest (newRS : Option AnnotatedReplicaSet) (oldRSs : List AnnotatedReplicaSet) :
    Option AnnotatedReplicaSet :=
  if newRS.isNone ∧ oldRSs = [] then none
  else
    match (oldRSs ++ newRS.toList).filter (·.replicas > 0) with
    | [] => newRS.or oldRSs.head?
    | [rs] => some rs
    | _ => none

/-- `IsSaturated(deployment, rs)`: the new ReplicaSet holds `replicas`, all of them available,
and its `desired-replicas` annotation says so. -/
def isSaturated (d : Deployment) : Option AnnotatedReplicaSet → Bool
  | none => false
  | some rs =>
    match rs.desiredReplicas with
    | none => false
    | some desired =>
      rs.replicas = d.replicas ∧ desired = d.replicas ∧ rs.availableReplicas = d.replicas

/-- The size `scale` spreads over the active ReplicaSets: `replicas + MaxSurge`, or none. -/
def allowedSize (d : Deployment) : Int32 := if d.replicas > 0 then d.replicas + maxSurge d else 0

/-- The first loop of the proportional branch from one ReplicaSet on: each one's new size written
into `nameToSize`, and `deploymentReplicasAdded`. -/
def estimateProportions (d : Deployment) (statusReplicas deploymentReplicasToAdd : Int32) :
    (String → Int32) → Int32 → List AnnotatedReplicaSet → Option ((String → Int32) × Int32)
  | nameToSize, added, [] => some (nameToSize, added)
  | nameToSize, added, rs :: rest =>
    if deploymentReplicasToAdd ≠ 0 then
      (getProportion rs d statusReplicas deploymentReplicasToAdd added).bind fun proportion =>
        estimateProportions d statusReplicas deploymentReplicasToAdd
          (Function.update nameToSize rs.name (rs.replicas + proportion)) (added + proportion) rest
    else
      estimateProportions d statusReplicas deploymentReplicasToAdd
        (Function.update nameToSize rs.name rs.replicas) added rest

/-- The size the leftover gives the first, largest ReplicaSet, before the clamp at zero. -/
def leftoverSize (deploymentReplicasToAdd added : Int32) (nameToSize : String → Int32)
    (first : AnnotatedReplicaSet) : Int32 :=
  nameToSize first.name + (deploymentReplicasToAdd - added)

/-- The second loop: the leftover added to the first ReplicaSet, not below zero, then each
ReplicaSet resized to its entry of `nameToSize`. -/
def updateAll (deploymentReplicasToAdd added : Int32) (nameToSize : String → Int32) :
    List AnnotatedReplicaSet → List Scale
  | [] => []
  | first :: rest =>
    let size := leftoverSize deploymentReplicasToAdd added nameToSize first
    let nameToSize := if deploymentReplicasToAdd ≠ 0 then
      Function.update nameToSize first.name (if size < 0 then 0 else size) else nameToSize
    (first :: rest).map fun rs => ⟨rs.name, nameToSize rs.name⟩

/-- The proportional branch of `scale` over the active ReplicaSets `allRSs`. -/
def proportionalScale (d : Deployment) (statusReplicas : Int32)
    (allRSs : List AnnotatedReplicaSet) : Option (List Scale) :=
  let allRSsReplicas := getReplicaCountForReplicaSets (allRSs.map (·.toReplicaSet))
  let deploymentReplicasToAdd := allowedSize d - allRSsReplicas
  -- scaling up grows newer ReplicaSets of one size first, scaling down shrinks older ones first
  let allRSs := if deploymentReplicasToAdd > 0 then sortBySizeNewer allRSs
    else if deploymentReplicasToAdd < 0 then sortBySizeOlder allRSs else allRSs
  (estimateProportions d statusReplicas deploymentReplicasToAdd (fun _ => 0) 0 allRSs).map
    fun r => updateAll deploymentReplicasToAdd r.2 r.1 allRSs

/-- `scale(deployment, newRS, oldRSs)` for a rolling update, with `d.Status.Replicas` as
`statusReplicas`: the ReplicaSets it resizes, each with the size it leaves it at. -/
def scale (d : Deployment) (statusReplicas : Int32) (newRS : Option AnnotatedReplicaSet)
    (oldRSs : List AnnotatedReplicaSet) : Option (List Scale) :=
  -- `FindActiveOrLatest` sorts the caller's old ReplicaSets in place
  let oldRSs := sortNewestFirst oldRSs
  match findActiveOrLatest newRS oldRSs with
  | some activeOrLatest =>
    some (scaleReplicaSetAndRecordEvent activeOrLatest.toReplicaSet d.replicas)
  | none =>
    if isSaturated d newRS then
      some ((oldRSs.filter (·.replicas > 0)).flatMap fun old =>
        scaleReplicaSetAndRecordEvent old.toReplicaSet 0)
    else proportionalScale d statusReplicas ((oldRSs ++ newRS.toList).filter (·.replicas > 0))

/-- With two active ReplicaSets or more and the new one not saturated, `scale` takes the
proportional branch. -/
theorem scale_of_two_le_active {d : Deployment} {statusReplicas : Int32}
    {newRS : Option AnnotatedReplicaSet} {oldRSs : List AnnotatedReplicaSet}
    (hactive : 2 ≤ ((sortNewestFirst oldRSs ++ newRS.toList).filter (·.replicas > 0)).length)
    (hsat : isSaturated d newRS = false) :
    scale d statusReplicas newRS oldRSs = proportionalScale d statusReplicas
      ((sortNewestFirst oldRSs ++ newRS.toList).filter (·.replicas > 0)) := by
  have hnone : findActiveOrLatest newRS (sortNewestFirst oldRSs) = none := by
    unfold findActiveOrLatest
    split
    · rfl
    · -- neither none nor one of them is active
      split
      · rename_i hfilter
        rw [hfilter] at hactive
        simp at hactive
      · rename_i hfilter
        rw [hfilter] at hactive
        simp at hactive
      · rfl
  rw [scale, hnone]
  dsimp only
  rw [hsat]
  rfl

/-! ## What the sizes add up to -/

section Sum

variable {d : Deployment} {statusReplicas : Int32}

/-- The sizes of the ReplicaSets the proportional branch goes through, in any of its orders. -/
theorem sortBySize_perm (toAdd : Int32) (rss : List AnnotatedReplicaSet) :
    (if toAdd > 0 then sortBySizeNewer rss else if toAdd < 0 then sortBySizeOlder rss
      else rss).Perm rss := by
  split
  · exact List.perm_insertionSort _ rss
  split
  · exact List.perm_insertionSort _ rss
  · exact List.Perm.refl rss

/-- The first loop writes each ReplicaSet's new size and no other entry, and the new sizes add
up to the old ones and what it adds; with nothing to add it adds nothing. -/
theorem estimateProportions_spec {toAdd : Int32} (l : List AnnotatedReplicaSet)
    (hnodup : (l.map (·.name)).Nodup) {m m' : String → Int32} {added added' : Int32}
    (h : estimateProportions d statusReplicas toAdd m added l = some (m', added')) :
    (∀ x ∉ l.map (·.name), m' x = m x) ∧
      l.foldl (fun t rs => t + m' rs.name) 0 =
        l.foldl (fun t rs => t + rs.replicas) 0 + (added' - added) ∧
      (toAdd = 0 → added' = added) := by
  induction l generalizing m added with
  | nil =>
    cases h
    exact ⟨fun _ _ => rfl, by simp, fun _ => rfl⟩
  | cons rs rest ih =>
    rw [List.map_cons, List.nodup_cons] at hnodup
    rw [estimateProportions] at h
    obtain ⟨proportion, h, hzero⟩ : ∃ proportion, estimateProportions d statusReplicas toAdd
        (Function.update m rs.name (rs.replicas + proportion)) (added + proportion) rest =
          some (m', added') ∧ (toAdd = 0 → proportion = 0) := by
      split at h
      · obtain ⟨proportion, -, h⟩ := Option.bind_eq_some_iff.mp h
        exact ⟨proportion, h, fun h0 => absurd h0 ‹_›⟩
      · exact ⟨0, by rwa [Int32.add_zero, Int32.add_zero], fun _ => rfl⟩
    obtain ⟨hframe, hsum, hadded⟩ := ih hnodup.2 h
    have hfirst : m' rs.name = rs.replicas + proportion := by
      rw [hframe _ hnodup.1, Function.update_self]
    refine ⟨fun x hx => ?_, ?_, fun h0 => ?_⟩
    · rw [hframe x fun h' => hx (List.mem_cons_of_mem _ h'),
        Function.update_of_ne fun h' => hx (by rw [h']; exact List.mem_cons_self)]
    · rw [List.foldl_cons, List.foldl_cons,
        Go.int32_foldl_add (fun rs : AnnotatedReplicaSet => m' rs.name),
        Go.int32_foldl_add (fun rs : AnnotatedReplicaSet => rs.replicas), hsum, hfirst]
      grind
    · rw [hadded h0, hzero h0, Int32.add_zero]

/-- **The sizes add up to the allowed size**, in `int32` arithmetic, unless the clamp at zero
lifts the largest ReplicaSet: over active ReplicaSets with distinct names, either the new sizes
add up to `replicas + MaxSurge` (zero for no replicas), or the first, largest ReplicaSet ends at
zero. -/
theorem sum_proportionalScale {allRSs : List AnnotatedReplicaSet}
    (hnodup : (allRSs.map (·.name)).Nodup) (hne : allRSs ≠ []) {plan : List Scale}
    (hplan : proportionalScale d statusReplicas allRSs = some plan) :
    plan.foldl (fun total s => total + s.newScale) 0 = allowedSize d ∨
      plan.head?.map (·.newScale) = some 0 := by
  unfold proportionalScale at hplan
  dsimp only at hplan
  generalize htoAdd : allowedSize d -
    getReplicaCountForReplicaSets (allRSs.map (·.toReplicaSet)) = toAdd at hplan
  have hperm := sortBySize_perm toAdd allRSs
  generalize (if toAdd > 0 then sortBySizeNewer allRSs else if toAdd < 0 then sortBySizeOlder allRSs
    else allRSs) = sorted at hplan hperm
  obtain ⟨⟨m, added⟩, hest, rfl⟩ := Option.map_eq_some_iff.mp hplan
  have hnodup' : (sorted.map (·.name)).Nodup := (hperm.map _).nodup_iff.mpr hnodup
  obtain ⟨hframe, hsum, hzero⟩ := estimateProportions_spec sorted hnodup' hest
  have hcount : sorted.foldl (fun t rs => t + rs.replicas) 0 =
      getReplicaCountForReplicaSets (allRSs.map (·.toReplicaSet)) := by
    rw [Go.int32_foldl_add_perm (fun rs : AnnotatedReplicaSet => rs.replicas) hperm,
      getReplicaCountForReplicaSets, List.foldl_map]
  have hne' : sorted ≠ [] := by
    rintro rfl
    exact hne (List.perm_nil.mp hperm.symm)
  obtain ⟨first, rest, rfl⟩ := List.exists_cons_of_ne_nil hne'
  have hrest : first.name ∉ rest.map (·.name) := (List.nodup_cons.mp hnodup').1
  unfold updateAll
  dsimp only
  by_cases h0 : toAdd = 0
  · -- nothing to add: each ReplicaSet keeps its size
    left
    rw [if_neg (not_not.mpr h0), List.foldl_map, hsum, hzero h0, hcount]
    grind
  rw [if_pos h0]
  by_cases hneg : leftoverSize toAdd added m first < 0
  · right
    simp [hneg]
  · left
    have hothers : rest.foldl (fun t rs => t + Function.update m first.name
        (leftoverSize toAdd added m first) rs.name) 0 = rest.foldl (fun t rs => t + m rs.name) 0 := by
      refine List.foldl_ext _ _ _ fun t rs hrs => ?_
      rw [Function.update_of_ne fun h => hrest (by rw [← h]; exact List.mem_map_of_mem hrs)]
    rw [if_neg hneg, List.foldl_map, List.foldl_cons, Go.int32_foldl_add, hothers,
      Function.update_self]
    rw [List.foldl_cons, Go.int32_foldl_add (fun rs : AnnotatedReplicaSet => m rs.name),
      hcount] at hsum
    unfold leftoverSize
    grind

end Sum

/-! ## Four ReplicaSets of one replica -/

/-- A Deployment scaled from four replicas to two, with no surge and one pod allowed to be
unavailable. -/
def halvedDeployment : Deployment := ⟨2, .int 0, .int 1⟩

/-- A ReplicaSet `name` created at `t`, with one replica, available, sized by a scale of the
Deployment to four replicas. -/
def singleReplicaSet (name : String) (t : ℕ) : AnnotatedReplicaSet := ⟨⟨name, t, 1, 1⟩, some 4, some 4⟩

/-- **The sizes can exceed the allowed size**: four ReplicaSets of one replica, annotated with the
allowed size `4` of the Deployment at four replicas, are scaled to the allowed size `2` as
`0, 1, 1, 1`. Each one's share `1 * 2 / 4` rounds up to its whole replica, and the leftover `-2`
takes the first only to zero. -/
theorem proportionalScale_exceeds_allowed_size :
    allowedSize ⟨4, .int 0, .int 1⟩ = 4 ∧ allowedSize halvedDeployment = 2 ∧
      scale halvedDeployment 4 (some (singleReplicaSet "d" 3))
        [singleReplicaSet "a" 0, singleReplicaSet "b" 1, singleReplicaSet "c" 2] =
        some [⟨"a", 0⟩, ⟨"b", 1⟩, ⟨"c", 1⟩, ⟨"d", 1⟩] := by
  decide

/-! ## A large ReplicaSet -/

/-- A Deployment of `65536` replicas, with no surge and one pod allowed to be unavailable. -/
def largeDeployment : Deployment := ⟨65536, .int 0, .int 1⟩

/-- A ReplicaSet of `65536` replicas, sized by a scale of `largeDeployment`. -/
def largeReplicaSet : AnnotatedReplicaSet := ⟨⟨"large", 0, 65536, 65536⟩, some 65536, some 65536⟩

/-- **The product wraps**: `65536 * 65536` is `2 ^ 32`, which is `0` as an `int32`, so the
ReplicaSet's share is taken as `0` and its fraction as `-65536`, where the exact quotient leaves
it at its size. -/
theorem getReplicaSetFraction_product_wraps :
    maxSurge largeDeployment = 0 ∧
      roundQuotient (largeReplicaSet.replicas.toInt *
        (largeDeployment.replicas.toInt + (maxSurge largeDeployment).toInt)) 65536 = some 65536 ∧
      getReplicaSetFraction largeReplicaSet largeDeployment 65536 = some (-65536) := by
  decide

end Kubernetes.DeploymentController
