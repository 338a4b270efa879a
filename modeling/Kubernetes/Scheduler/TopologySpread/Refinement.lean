import Kubernetes.Scheduler.TopologySpread.CriticalPaths

/-!
# `AddPod` and `RemovePod` against a from-scratch `PreFilter`

`addNominatedPods` and preemption do not compute the `PreFilter` state again for a snapshot whose
node N has gained or lost pods: they change a copy of it with `AddPod` and `RemovePod`. This module
says when the two agree.

* `calPreFilterState_tpPairToMatchNum`: from scratch, the counter of a pair is the number of
  matching pods on its nodes (`matchNum`), for the pairs of the eligible nodes only. Each key's
  critical paths are `Sorted` (`calPreFilterState_sorted`).
* `updateWithPod_tracking`: on a node that carries every key and whose pairs all have counters,
  `updateWithPod` changes the node's counters by `delta` for each constraint that selects the pod.
  Each key's critical paths keep `Tracking` the node's value.
* `filter_calPreFilterState_eq_success_iff`: after `PreFilter`, `Filter` admits a node exactly
  when, for each constraint, the node carries the key and its count with the pod itself exceeds the
  key's least count by at most `maxSkew`.
* `Agrees.step`, `Agrees.run`: a state that agrees with a snapshot keeps agreeing, change after
  change, with the snapshot changed the same way.
* `podChanges_refine_calPreFilterState`: take a node N that passes the incoming pod's required node
  affinity and carries every topology key, and changes by pods that are not terminating (a removed
  pod being on N). No call fails, and the counters equal the from-scratch counters of the changed
  snapshot. Each key's least count agrees, and `Filter` gives every node the same verdict.

The conditions are needed. On a node the affinity excludes, `AddPod` can dereference a nil counter
(`updateWithPod_panics_outside_node_affinity`). From scratch a terminating pod is not counted,
while `updateWithPod` counts it.
-/

namespace Kubernetes.PodTopologySpread

open CriticalPaths

/-! ## Equations of the loops -/

theorem topologyPairOf_key (c : TopologySpreadConstraint) (node : Node) :
    (topologyPairOf c node).key = c.topologyKey := rfl

theorem topologyPairOf_eq_topologyPairOf {c c' : TopologySpreadConstraint} {node : Node} :
    topologyPairOf c node = topologyPairOf c' node ↔ c.topologyKey = c'.topologyKey := by
  constructor
  · intro h
    simpa [topologyPairOf_key] using congrArg TopologyPair.key h
  · intro h
    simp [topologyPairOf, h]

theorem processNodeStep_apply (ns : String) (n : NodeInfo) (m : TopologyPair → Option ℤ)
    (c : TopologySpreadConstraint) (pair : TopologyPair) :
    processNodeStep ns n m c pair = (m pair).map
      (· + if topologyPairOf c n.node = pair then (countPodsMatchSelector n.pods c.selector ns : ℤ) else 0) := by
  unfold processNodeStep
  by_cases hpair : topologyPairOf c n.node = pair
  · subst hpair
    cases hm : m (topologyPairOf c n.node) <;> simp [hm]
  · cases m (topologyPairOf c n.node) <;> simp [Function.update_of_ne (Ne.symm hpair), hpair]

theorem criticalPathsStep_of_some {m : TopologyPair → Option ℤ} {paths : String → Option CriticalPaths}
    {pair : TopologyPair} {p : CriticalPaths} {num : ℤ} (hp : paths pair.key = some p)
    (hm : m pair = some num) :
    criticalPathsStep m paths pair = Function.update paths pair.key (some (p.update pair.value num)) := by
  simp [criticalPathsStep, hp, hm]

theorem criticalPathsStep_of_paths_none {m : TopologyPair → Option ℤ}
    {paths : String → Option CriticalPaths} {pair : TopologyPair} (hp : paths pair.key = none) :
    criticalPathsStep m paths pair = paths := by
  simp [criticalPathsStep, hp]

theorem criticalPathsStep_of_count_none {m : TopologyPair → Option ℤ}
    {paths : String → Option CriticalPaths} {pair : TopologyPair} (hm : m pair = none) :
    criticalPathsStep m paths pair = paths := by
  unfold criticalPathsStep
  cases paths pair.key <;> simp [hm]

/-! ## Counting from scratch -/

/-- The pods of node `n` that the constraints count in `pair`: for each constraint whose pair on
`n` is `pair`, its matching pods. -/
def nodeMatchNum (ns : String) (constraints : List TopologySpreadConstraint) (n : NodeInfo)
    (pair : TopologyPair) : ℤ :=
  (constraints.map fun c =>
    if topologyPairOf c n.node = pair then (countPodsMatchSelector n.pods c.selector ns : ℤ) else 0).sum

/-- The pods of the nodes that the constraints count in `pair`. -/
def matchNum (ns : String) (constraints : List TopologySpreadConstraint) (nodes : List NodeInfo)
    (pair : TopologyPair) : ℤ :=
  (nodes.map fun n => nodeMatchNum ns constraints n pair).sum

theorem processNode_apply (ns : String) (constraints : List TopologySpreadConstraint)
    (m : TopologyPair → Option ℤ) (n : NodeInfo) (pair : TopologyPair) :
    processNode ns constraints m n pair = (m pair).map (· + nodeMatchNum ns constraints n pair) := by
  induction constraints generalizing m with
  | nil => simp [processNode, nodeMatchNum]
  | cons c cs ih =>
    rw [processNode, List.foldl_cons, ← processNode, ih, processNodeStep_apply, Option.map_map]
    congr 1
    funext x
    simp only [Function.comp_apply, nodeMatchNum, List.map_cons, List.sum_cons, add_assoc]

/-- **The counters of the loop over nodes**: every counter gains the matching pods of every node. -/
theorem foldl_processNode_apply (ns : String) (constraints : List TopologySpreadConstraint)
    (nodes : List NodeInfo) (m : TopologyPair → Option ℤ) (pair : TopologyPair) :
    nodes.foldl (processNode ns constraints) m pair = (m pair).map (· + matchNum ns constraints nodes pair) := by
  induction nodes generalizing m with
  | nil => simp [matchNum]
  | cons n nodes ih =>
    rw [List.foldl_cons, ih, processNode_apply, Option.map_map]
    congr 1
    funext x
    simp only [Function.comp_apply, matchNum, List.map_cons, List.sum_cons, add_assoc]

section FromScratch

variable {requiredNodeAffinity : Node → Bool} {pod : Pod} {constraints : List TopologySpreadConstraint}
  {nodes : List NodeInfo}

theorem calPreFilterState_constraints (hcs : constraints ≠ []) :
    (calPreFilterState requiredNodeAffinity pod constraints nodes).constraints = constraints := by
  simp [calPreFilterState, hcs]

/-- **The counters from scratch**: a pair of an eligible node counts the matching pods of its
nodes; no other pair has a counter. -/
theorem calPreFilterState_tpPairToMatchNum (hcs : constraints ≠ []) (pair : TopologyPair) :
    (calPreFilterState requiredNodeAffinity pod constraints nodes).tpPairToMatchNum pair =
      if pair ∈ eligiblePairs requiredNodeAffinity constraints nodes then
        some (matchNum pod.ns constraints nodes pair) else none := by
  simp only [calPreFilterState, hcs, ↓reduceIte]
  rw [foldl_processNode_apply]
  by_cases h : pair ∈ eligiblePairs requiredNodeAffinity constraints nodes <;> simp [h]

theorem calPreFilterState_tpKeyToCriticalPaths_of_not_mem (hcs : constraints ≠ []) {key : String}
    (hkey : key ∉ constraints.map TopologySpreadConstraint.topologyKey) :
    (calPreFilterState requiredNodeAffinity pod constraints nodes).tpKeyToCriticalPaths key = none := by
  simp only [calPreFilterState, hcs, ↓reduceIte, criticalPathsOf]
  generalize (eligiblePairs requiredNodeAffinity constraints nodes).dedup = pairs
  generalize nodes.foldl _ _ = m
  suffices ∀ (paths : String → Option CriticalPaths), paths key = none →
      pairs.foldl (criticalPathsStep m) paths key = none from this _ (by simp [hkey])
  induction pairs with
  | nil => exact fun _ h => h
  | cons pair pairs ih =>
    intro paths hpaths
    rw [List.foldl_cons]
    apply ih
    cases hp : paths pair.key with
    | none => rwa [criticalPathsStep_of_paths_none hp]
    | some p =>
      have hne : key ≠ pair.key := fun h => by simp [h, hp] at hpaths
      cases hm : m pair with
      | none => rwa [criticalPathsStep_of_count_none hm]
      | some num => rwa [criticalPathsStep_of_some hp hm, Function.update_of_ne hne]

/-- The loop that fills the critical paths gives each key the values of its pairs in turn. -/
theorem foldl_criticalPathsStep_apply {m : TopologyPair → Option ℤ} {g : TopologyPair → ℤ}
    (pairs : List TopologyPair) (hm : ∀ pair ∈ pairs, m pair = some (g pair))
    (paths : String → Option CriticalPaths) (key : String) :
    pairs.foldl (criticalPathsStep m) paths key = (paths key).map fun p =>
      ((pairs.filter (·.key = key)).map (·.value)).foldl (fun p v => p.update v (g ⟨key, v⟩)) p := by
  induction pairs generalizing paths with
  | nil => simp
  | cons pair pairs ih =>
    rw [List.foldl_cons, ih fun q hq => hm q (List.mem_cons_of_mem _ hq)]
    have hpair := hm pair List.mem_cons_self
    by_cases hkey : pair.key = key
    · -- the step updates this key's paths with the pair's value
      subst hkey
      simp only [List.filter_cons, decide_true, ↓reduceIte, List.map_cons, List.foldl_cons]
      cases hp : paths pair.key with
      | none => rw [criticalPathsStep_of_paths_none hp, hp]; rfl
      | some p =>
        rw [criticalPathsStep_of_some hp hpair]
        simp
    · simp only [List.filter_cons, hkey, decide_false, Bool.false_eq_true, ↓reduceIte]
      cases hp : paths pair.key with
      | none => rw [criticalPathsStep_of_paths_none hp]
      | some p => rw [criticalPathsStep_of_some hp hpair, Function.update_of_ne (Ne.symm hkey)]

/-- **The critical paths from scratch** of a constraint's key are `Sorted` over the values of the
key's pairs, with their counts. -/
theorem calPreFilterState_sorted (requiredNodeAffinity : Node → Bool) (hcs : constraints ≠ [])
    (hlt : ∀ pair, matchNum pod.ns constraints nodes pair < maxInt32) {key : String}
    (hkey : key ∈ constraints.map TopologySpreadConstraint.topologyKey) :
    ∃ p, (calPreFilterState requiredNodeAffinity pod constraints nodes).tpKeyToCriticalPaths key = some p ∧
      Sorted (fun v => matchNum pod.ns constraints nodes ⟨key, v⟩)
        {v | ⟨key, v⟩ ∈ eligiblePairs requiredNodeAffinity constraints nodes} p := by
  simp only [calPreFilterState, hcs, ↓reduceIte, criticalPathsOf]
  set pairs := (eligiblePairs requiredNodeAffinity constraints nodes).dedup with hpairs
  have hm : ∀ pair ∈ pairs, nodes.foldl (processNode pod.ns constraints)
      (fun pair => if pair ∈ pairs then some 0 else none) pair = some (matchNum pod.ns constraints nodes pair) := by
    intro pair hpair
    simp [foldl_processNode_apply, hpair]
  rw [foldl_criticalPathsStep_apply pairs hm]
  set values := (pairs.filter (·.key = key)).map (·.value) with hvalues
  refine ⟨values.foldl (fun p v => p.update v (matchNum pod.ns constraints nodes ⟨key, v⟩)) newCriticalPaths,
    by simp [hkey], ?_⟩
  have hnd : values.Nodup := by
    refine ((List.nodup_dedup _).filter _).map_on ?_
    intro q hq q' hq' hv
    simp only [List.mem_filter, decide_eq_true_eq] at hq hq'
    cases q
    cases q'
    simp_all
  have hsorted := Sorted.empty.foldl_update (f := fun v => matchNum pod.ns constraints nodes ⟨key, v⟩) hnd
    (fun _ _ h => h) (fun v _ => hlt _)
  convert hsorted using 1
  ext v
  simp only [hvalues, hpairs, Set.empty_union, Set.mem_ofPred_eq, List.mem_map, List.mem_filter,
    List.mem_dedup, decide_eq_true_eq]
  constructor
  · intro h
    exact ⟨_, ⟨h, rfl⟩, rfl⟩
  · rintro ⟨⟨k, v⟩, ⟨h, rfl⟩, rfl⟩
    exact h

end FromScratch

/-! ## One node's pods changed -/

/-- The constraints that select pod `p` and count it in `pair` on `node`. -/
def selectedNum (node : Node) (p : Pod) (constraints : List TopologySpreadConstraint) (pair : TopologyPair) :
    ℤ :=
  (constraints.map fun c => if topologyPairOf c node = pair ∧ c.selector p.labels = true then 1 else 0).sum

theorem selectedNum_cons (node : Node) (p : Pod) (c : TopologySpreadConstraint)
    (constraints : List TopologySpreadConstraint) (pair : TopologyPair) :
    selectedNum node p (c :: constraints) pair =
      (if topologyPairOf c node = pair ∧ c.selector p.labels = true then 1 else 0) +
        selectedNum node p constraints pair := by
  simp [selectedNum]

theorem selectedNum_nonneg (node : Node) (p : Pod) (constraints : List TopologySpreadConstraint)
    (pair : TopologyPair) : 0 ≤ selectedNum node p constraints pair := by
  induction constraints with
  | nil => simp [selectedNum]
  | cons c cs ih =>
    rw [selectedNum_cons]
    split_ifs <;> omega

/-- A change to the pods of one node: a nominated pod added (`AddPod`) or a victim removed
(`RemovePod`). -/
inductive PodChange
  | add (p : Pod)
  | remove (p : Pod)

namespace PodChange

/-- The pod added or removed. -/
def pod : PodChange → Pod
  | add p => p
  | remove p => p

/-- The `delta` that `AddPod` and `RemovePod` give `updateWithPod`. -/
def delta : PodChange → ℤ
  | add _ => 1
  | remove _ => -1

/-- The change to the copied state, for the pod to schedule. -/
def updateState (podToSchedule : Pod) (node : Node) (s : PreFilterState) : PodChange → Option PreFilterState
  | add p => addPod s podToSchedule p node
  | remove p => removePod s podToSchedule p node

/-- The change to the node's pods: `NodeInfo.AddPod` appends the pod, `RemovePod` takes it out. -/
def updatePods (pods : List Pod) : PodChange → List Pod
  | add p => pods ++ [p]
  | remove p => pods.erase p

/-- A change of a pod that is not terminating; a removed pod is on the node. -/
def valid (pods : List Pod) : PodChange → Bool
  | add p => !p.terminating
  | remove p => !p.terminating && pods.contains p

theorem updateState_eq (podToSchedule : Pod) (node : Node) (s : PreFilterState) (change : PodChange) :
    change.updateState podToSchedule node s =
      updateWithPod s change.pod podToSchedule node change.delta := by
  cases change <;> rfl

theorem delta_eq (change : PodChange) : change.delta = 1 ∨ change.delta = -1 := by
  cases change
  · exact .inl rfl
  · exact .inr rfl

theorem length_updatePods_le (pods : List Pod) (change : PodChange) :
    (change.updatePods pods).length ≤ pods.length + 1 := by
  cases change with
  | add p => simp [updatePods]
  | remove p => exact (List.length_erase_le ..).trans (Nat.le_succ _)

theorem length_foldl_updatePods_le (pods : List Pod) (changes : List PodChange) :
    (changes.foldl updatePods pods).length ≤ pods.length + changes.length := by
  induction changes generalizing pods with
  | nil => simp
  | cons change changes ih =>
    have hstep := change.length_updatePods_le pods
    have hrest := ih (change.updatePods pods)
    rw [List.foldl_cons, List.length_cons]
    omega

end PodChange

/-- Every change of a run is valid on the node's pods before it. -/
def validChanges : List Pod → List PodChange → Bool
  | _, [] => true
  | pods, change :: changes => change.valid pods && validChanges (change.updatePods pods) changes

/-- A valid change counts its pod once more, or once less, for each selector that matches it in its
namespace. -/
theorem countPodsMatchSelector_updatePods {pods : List Pod} {change : PodChange}
    (hvalid : change.valid pods = true) (selector : Labels → Bool) (ns : String) :
    (countPodsMatchSelector (change.updatePods pods) selector ns : ℤ) =
      countPodsMatchSelector pods selector ns +
        if change.pod.ns = ns ∧ selector change.pod.labels = true then change.delta else 0 := by
  simp only [countPodsMatchSelector, ← List.countP_eq_length_filter]
  cases change with
  | add p =>
    have hterm : p.terminating = false := by simpa [PodChange.valid] using hvalid
    simp only [PodChange.updatePods, List.countP_append, List.countP_singleton, PodChange.pod,
      PodChange.delta, hterm]
    by_cases hns : p.ns = ns <;> by_cases hsel : selector p.labels = true <;> simp [hns, hsel]
  | remove p =>
    obtain ⟨hterm, hmem⟩ : p.terminating = false ∧ p ∈ pods := by simpa [PodChange.valid] using hvalid
    have hcount := (List.perm_cons_erase hmem).countP_eq
      fun q => !q.terminating && decide (q.ns = ns) && selector q.labels
    simp only [PodChange.updatePods, PodChange.pod, PodChange.delta, hcount, List.countP_cons, hterm]
    by_cases hns : p.ns = ns <;> by_cases hsel : selector p.labels = true <;> simp [hns, hsel]

theorem nodeMatchNum_updatePods {pods : List Pod} {change : PodChange} (hvalid : change.valid pods = true)
    (ns : String) (constraints : List TopologySpreadConstraint) (node : Node) (pair : TopologyPair) :
    nodeMatchNum ns constraints ⟨node, change.updatePods pods⟩ pair =
      nodeMatchNum ns constraints ⟨node, pods⟩ pair +
        if change.pod.ns = ns then change.delta * selectedNum node change.pod constraints pair else 0 := by
  induction constraints with
  | nil => simp [nodeMatchNum, selectedNum]
  | cons c cs ih =>
    simp only [nodeMatchNum, List.map_cons, List.sum_cons] at ih ⊢
    rw [ih, countPodsMatchSelector_updatePods hvalid, selectedNum_cons]
    by_cases hns : change.pod.ns = ns <;> by_cases hpair : topologyPairOf c node = pair <;>
      by_cases hsel : c.selector change.pod.labels = true <;> simp [hns, hpair, hsel] <;> ring

/-- The node adds nothing to a pair of its keys with another value. -/
theorem nodeMatchNum_of_ne (ns : String) (constraints : List TopologySpreadConstraint) (n : NodeInfo)
    {key value : String} (hvalue : value ≠ labelValue n.node.labels key) :
    nodeMatchNum ns constraints n ⟨key, value⟩ = 0 := by
  apply List.sum_eq_zero
  simp only [List.mem_map]
  rintro _ ⟨c, -, rfl⟩
  rw [if_neg]
  intro h
  simp only [topologyPairOf, TopologyPair.mk.injEq] at h
  exact hvalue (h.1 ▸ h.2.symm)

theorem matchNum_append_cons (ns : String) (constraints : List TopologySpreadConstraint)
    (before after : List NodeInfo) (n : NodeInfo) (pair : TopologyPair) :
    matchNum ns constraints (before ++ n :: after) pair =
      matchNum ns constraints before pair + nodeMatchNum ns constraints n pair + matchNum ns constraints after pair := by
  simp [matchNum, add_assoc]

theorem eligiblePairs_append_cons (requiredNodeAffinity : Node → Bool)
    (constraints : List TopologySpreadConstraint) (before after : List NodeInfo) (node : Node)
    (pods pods' : List Pod) :
    eligiblePairs requiredNodeAffinity constraints (before ++ ⟨node, pods⟩ :: after) =
      eligiblePairs requiredNodeAffinity constraints (before ++ ⟨node, pods'⟩ :: after) := by
  simp [eligiblePairs]

theorem topologyPairOf_mem_eligiblePairs {requiredNodeAffinity : Node → Bool}
    {constraints : List TopologySpreadConstraint} {nodes : List NodeInfo} {n : NodeInfo} (hn : n ∈ nodes)
    (heligible : requiredNodeAffinity n.node = true ∧
      nodeLabelsMatchSpreadConstraints n.node.labels constraints = true)
    {c : TopologySpreadConstraint} (hc : c ∈ constraints) :
    topologyPairOf c n.node ∈ eligiblePairs requiredNodeAffinity constraints nodes := by
  simp only [eligiblePairs, List.mem_flatMap]
  exact ⟨n, hn, by simp [heligible.1, heligible.2]; exact ⟨c, hc, rfl⟩⟩

/-! ## `updateWithPod` on a node with counters -/

section Update

variable {constraints : List TopologySpreadConstraint} {node : Node} {rest : String → ℤ}

/-- What `updateWithPod` keeps for a node: every pair of the node has a counter, the critical paths
of each constraint's key track the node's value, with `rest` the least count of the key's other
values, and no other key has critical paths. -/
structure Tracking (constraints : List TopologySpreadConstraint) (node : Node) (rest : String → ℤ)
    (s : PreFilterState) : Prop where
  counted : ∀ c ∈ constraints, ∃ count, s.tpPairToMatchNum (topologyPairOf c node) = some count
  tracks : ∀ c ∈ constraints, ∃ paths, s.tpKeyToCriticalPaths c.topologyKey = some paths ∧
    Tracks (topologyPairOf c node).value (rest c.topologyKey)
      ((s.tpPairToMatchNum (topologyPairOf c node)).getD 0) paths
  others : ∀ key ∉ constraints.map TopologySpreadConstraint.topologyKey, s.tpKeyToCriticalPaths key = none

theorem updateConstraint_of_not_selected {s : PreFilterState} {p : Pod} {delta : ℤ}
    {c : TopologySpreadConstraint} (hsel : c.selector p.labels = false) :
    updateConstraint p node delta s c = some s := by
  simp [updateConstraint, hsel]

theorem updateConstraint_of_selected {s : PreFilterState} {p : Pod} {delta : ℤ}
    {c : TopologySpreadConstraint} {count : ℤ} {paths : CriticalPaths} (hsel : c.selector p.labels = true)
    (hcount : s.tpPairToMatchNum (topologyPairOf c node) = some count)
    (hpaths : s.tpKeyToCriticalPaths c.topologyKey = some paths) :
    updateConstraint p node delta s c = some { s with
      tpPairToMatchNum := Function.update s.tpPairToMatchNum (topologyPairOf c node) (some (count + delta))
      tpKeyToCriticalPaths := Function.update s.tpKeyToCriticalPaths c.topologyKey
        (some (paths.update (topologyPairOf c node).value (count + delta))) } := by
  simp [updateConstraint, hsel, hcount, topologyPairOf_key, hpaths]

/-- **One constraint keeps the node tracked**: its pair's counter and its key's paths change
together, by `delta` where its selector matches the pod. -/
theorem updateConstraint_tracking {s : PreFilterState} {p : Pod} {delta : ℤ} {c : TopologySpreadConstraint}
    (hs : Tracking constraints node rest s) (hc : c ∈ constraints)
    (hlt : ∀ count, s.tpPairToMatchNum (topologyPairOf c node) = some count → c.selector p.labels = true →
      count + delta < maxInt32) :
    ∃ s', updateConstraint p node delta s c = some s' ∧ s'.constraints = s.constraints ∧
      (∀ pair, s'.tpPairToMatchNum pair = (s.tpPairToMatchNum pair).map
        (· + delta * if topologyPairOf c node = pair ∧ c.selector p.labels = true then 1 else 0)) ∧
      Tracking constraints node rest s' := by
  cases hsel : c.selector p.labels with
  | false => exact ⟨s, updateConstraint_of_not_selected hsel, rfl, fun pair => by simp, hs⟩
  | true =>
    obtain ⟨count, hcount⟩ := hs.counted c hc
    obtain ⟨paths, hpaths, htracks⟩ := hs.tracks c hc
    refine ⟨_, updateConstraint_of_selected hsel hcount hpaths, rfl, fun pair => ?_, ⟨?_, ?_, ?_⟩⟩
    · by_cases hpair : topologyPairOf c node = pair
      · subst hpair
        simp [hcount]
      · simp [Function.update_of_ne (Ne.symm hpair), hpair]
    · intro c' hc'
      by_cases hkey : c'.topologyKey = c.topologyKey
      · simp [topologyPairOf_eq_topologyPairOf.2 hkey]
      · simpa [Function.update_of_ne (mt topologyPairOf_eq_topologyPairOf.1 hkey)] using hs.counted c' hc'
    · -- a constraint of `c`'s key tracks the updated paths; another keeps its own
      intro c' hc'
      by_cases hkey : c'.topologyKey = c.topologyKey
      · rw [topologyPairOf_eq_topologyPairOf.2 hkey, hkey]
        rw [hcount, Option.getD_some] at htracks
        refine ⟨_, Function.update_self .., ?_⟩
        simpa using htracks.update (hlt count hcount hsel)
      · obtain ⟨paths', hpaths', htracks'⟩ := hs.tracks c' hc'
        refine ⟨paths', by simpa [Function.update_of_ne hkey] using hpaths', ?_⟩
        simpa only [Function.update_of_ne (mt topologyPairOf_eq_topologyPairOf.1 hkey)] using htracks'
    · intro key hkey
      have hne : key ≠ c.topologyKey := fun h => hkey (h ▸ List.mem_map_of_mem hc)
      simpa [Function.update_of_ne hne] using hs.others key hkey

/-- **The loop over constraints keeps the node tracked**, each counter of the node gaining `delta`
for each constraint that selects the pod there. The counts stay below `maxInt32` on the way, since
they move one way from the first to the last. -/
theorem foldlM_updateConstraint_tracking {s : PreFilterState} {p : Pod} {delta : ℤ}
    {l : List TopologySpreadConstraint} (hs : Tracking constraints node rest s)
    (hdelta : delta = 1 ∨ delta = -1) (hl : ∀ c ∈ l, c ∈ constraints)
    (hbound : ∀ c ∈ constraints, ∀ count, s.tpPairToMatchNum (topologyPairOf c node) = some count →
      count < maxInt32 ∧ count + delta * selectedNum node p l (topologyPairOf c node) < maxInt32) :
    ∃ s', l.foldlM (updateConstraint p node delta) s = some s' ∧ s'.constraints = s.constraints ∧
      (∀ pair, s'.tpPairToMatchNum pair = (s.tpPairToMatchNum pair).map (· + delta * selectedNum node p l pair)) ∧
      Tracking constraints node rest s' := by
  induction l generalizing s with
  | nil => exact ⟨s, rfl, rfl, fun pair => by simp [selectedNum], hs⟩
  | cons c l ih =>
    have hc := hl c List.mem_cons_self
    have hstep : ∀ count, s.tpPairToMatchNum (topologyPairOf c node) = some count →
        c.selector p.labels = true → count + delta < maxInt32 := by
      intro count hcount hsel
      obtain ⟨hlt, hlt'⟩ := hbound c hc count hcount
      have hnn := selectedNum_nonneg node p l (topologyPairOf c node)
      rw [selectedNum_cons, if_pos ⟨rfl, hsel⟩] at hlt'
      rcases hdelta with rfl | rfl <;> omega
    obtain ⟨s₁, hs₁, hcs₁, htp₁, htr₁⟩ := updateConstraint_tracking hs hc hstep
    have hbound₁ : ∀ c' ∈ constraints, ∀ count, s₁.tpPairToMatchNum (topologyPairOf c' node) = some count →
        count < maxInt32 ∧ count + delta * selectedNum node p l (topologyPairOf c' node) < maxInt32 := by
      intro c' hc' count₁ hcount₁
      rw [htp₁] at hcount₁
      obtain ⟨count, hcount, rfl⟩ := Option.map_eq_some_iff.1 hcount₁
      obtain ⟨hlt, hlt'⟩ := hbound c' hc' count hcount
      have hnn := selectedNum_nonneg node p l (topologyPairOf c' node)
      rw [selectedNum_cons] at hlt'
      split_ifs at hlt' ⊢ <;> rcases hdelta with rfl | rfl <;> omega
    obtain ⟨s', hs', hcs', htp', htr'⟩ := ih htr₁ (fun c' hc' => hl c' (List.mem_cons_of_mem c hc')) hbound₁
    refine ⟨s', by simp [List.foldlM_cons, hs₁, hs'], hcs'.trans hcs₁, fun pair => ?_, htr'⟩
    rw [htp', htp₁, Option.map_map, selectedNum_cons]
    congr 1
    funext x
    simp only [Function.comp_apply]
    ring

/-- **`updateWithPod` keeps the node tracked**: on a node that carries every key, each counter of
the node gains `delta` for each constraint that selects the pod, when the pod is in the namespace
of the pod to schedule. -/
theorem updateWithPod_tracking {s : PreFilterState} {updatedPod preemptorPod : Pod} {delta : ℤ}
    (hs : Tracking constraints node rest s) (hdelta : delta = 1 ∨ delta = -1)
    (hcs : s.constraints = constraints)
    (hlabels : nodeLabelsMatchSpreadConstraints node.labels constraints = true)
    (hbound : ∀ c ∈ constraints, ∀ count, s.tpPairToMatchNum (topologyPairOf c node) = some count →
      count < maxInt32 ∧ count + (if updatedPod.ns = preemptorPod.ns then
        delta * selectedNum node updatedPod constraints (topologyPairOf c node) else 0) < maxInt32) :
    ∃ s', updateWithPod s updatedPod preemptorPod node delta = some s' ∧ s'.constraints = constraints ∧
      (∀ pair, s'.tpPairToMatchNum pair = (s.tpPairToMatchNum pair).map
        (· + if updatedPod.ns = preemptorPod.ns then delta * selectedNum node updatedPod constraints pair else 0)) ∧
      Tracking constraints node rest s' := by
  by_cases hns : updatedPod.ns = preemptorPod.ns
  · simp only [hns, ↓reduceIte] at hbound ⊢
    obtain ⟨s', hs', hcs', htp', htr'⟩ := foldlM_updateConstraint_tracking hs hdelta (fun c hc => hc) hbound
    refine ⟨s', ?_, hcs'.trans hcs, htp', htr'⟩
    simp [updateWithPod, hns, hcs, hlabels, hs']
  · exact ⟨s, by simp [updateWithPod, hns], hcs, fun pair => by simp [hns], hs⟩

end Update

/-! ## `Filter` reads the counters and the least counts -/

/-- `Filter` gives the same verdict on two states with the same counters and least counts. -/
theorem filterConstraints_congr {s s' : PreFilterState} (htp : s.tpPairToMatchNum = s'.tpPairToMatchNum)
    (hpaths : ∀ key, (s.tpKeyToCriticalPaths key).map (·.first.matchNum) =
      (s'.tpKeyToCriticalPaths key).map (·.first.matchNum))
    (podLabels : Labels) (node : Node) (constraints : List TopologySpreadConstraint) :
    filterConstraints s podLabels node constraints = filterConstraints s' podLabels node constraints := by
  induction constraints with
  | nil => rfl
  | cons c cs ih =>
    simp only [filterConstraints]
    cases node.labels.lookup c.topologyKey with
    | none => rfl
    | some tpVal =>
      have hkey := hpaths c.topologyKey
      cases hp : s.tpKeyToCriticalPaths c.topologyKey <;> cases hp' : s'.tpKeyToCriticalPaths c.topologyKey <;>
        simp only [hp, hp', Option.map_none, Option.map_some, reduceCtorEq, Option.some.injEq] at hkey
      · exact ih
      · simp only [hkey, htp, ih]

theorem filter_congr {s s' : PreFilterState} (hcs : s.constraints = s'.constraints)
    (htp : s.tpPairToMatchNum = s'.tpPairToMatchNum)
    (hpaths : ∀ key, (s.tpKeyToCriticalPaths key).map (·.first.matchNum) =
      (s'.tpKeyToCriticalPaths key).map (·.first.matchNum))
    (pod : Pod) (node : Node) : filter s pod node = filter s' pod node := by
  simp only [filter, hcs, filterConstraints_congr htp hpaths]

/-- `Filter`'s loop admits the node exactly when the node carries each constraint's key and its
count there, with the pod itself where it matches, exceeds the key's least count by at most
`maxSkew`. -/
theorem filterConstraints_eq_success_iff (s : PreFilterState) (podLabels : Labels) (node : Node)
    (constraints : List TopologySpreadConstraint) :
    filterConstraints s podLabels node constraints = .success ↔
      ∀ c ∈ constraints, ∃ tpVal, node.labels.lookup c.topologyKey = some tpVal ∧
        ∀ paths, s.tpKeyToCriticalPaths c.topologyKey = some paths →
          (s.tpPairToMatchNum ⟨c.topologyKey, tpVal⟩).getD 0 + (if c.selector podLabels then 1 else 0) -
            paths.first.matchNum ≤ c.maxSkew := by
  induction constraints with
  | nil => simp [filterConstraints]
  | cons c cs ih =>
    simp only [filterConstraints, List.mem_cons, forall_eq_or_imp]
    cases hlookup : node.labels.lookup c.topologyKey with
    | none => simp
    | some tpVal =>
      cases hpaths : s.tpKeyToCriticalPaths c.topologyKey with
      | none => simp [ih]
      | some paths =>
        simp only [Option.some.injEq, exists_eq_left', forall_eq']
        by_cases hskew : (s.tpPairToMatchNum ⟨c.topologyKey, tpVal⟩).getD 0 +
            (if c.selector podLabels then 1 else 0) - paths.first.matchNum > c.maxSkew
        · -- the first constraint over its skew decides
          rw [if_pos hskew]
          simp only [reduceCtorEq, false_iff, not_and]
          exact fun hle => absurd hle (not_le.2 hskew)
        · rw [if_neg hskew, ih]
          exact ⟨fun h => ⟨not_lt.1 hskew, h⟩, And.right⟩

/-- **What `Filter` admits after `PreFilter`.** A node is admitted when it carries each
constraint's key and its count at that value exceeds the key's least count by at most `maxSkew`,
counting the pod itself where it matches. Counts are taken only for values of eligible nodes, and
another value counts `0`. The least count is over the eligible values, with `maxInt32` for none. -/
theorem filter_calPreFilterState_eq_success_iff {requiredNodeAffinity : Node → Bool} {pod : Pod}
    {constraints : List TopologySpreadConstraint} {nodes : List NodeInfo} (hcs : constraints ≠ [])
    (hlt : ∀ pair, matchNum pod.ns constraints nodes pair < maxInt32) (p : Pod) (node : Node) :
    filter (calPreFilterState requiredNodeAffinity pod constraints nodes) p node = .success ↔
      ∀ c ∈ constraints, ∃ tpVal, node.labels.lookup c.topologyKey = some tpVal ∧
        ∃ least, IsLeast (insert maxInt32 ((fun v => matchNum pod.ns constraints nodes ⟨c.topologyKey, v⟩) ''
            {v | ⟨c.topologyKey, v⟩ ∈ eligiblePairs requiredNodeAffinity constraints nodes})) least ∧
          (if (⟨c.topologyKey, tpVal⟩ : TopologyPair) ∈ eligiblePairs requiredNodeAffinity constraints nodes then
            matchNum pod.ns constraints nodes ⟨c.topologyKey, tpVal⟩ else 0) +
            (if c.selector p.labels then 1 else 0) - least ≤ c.maxSkew := by
  rw [filter, calPreFilterState_constraints hcs, if_neg hcs, filterConstraints_eq_success_iff]
  refine forall₂_congr fun c hc => exists_congr fun tpVal => and_congr_right fun _ => ?_
  obtain ⟨P, hP, hsorted⟩ := calPreFilterState_sorted requiredNodeAffinity hcs hlt (List.mem_map_of_mem hc)
  have hleast := hsorted.first_isLeast fun _ _ => hlt _
  have hcount : ((calPreFilterState requiredNodeAffinity pod constraints nodes).tpPairToMatchNum
      ⟨c.topologyKey, tpVal⟩).getD 0 =
      if (⟨c.topologyKey, tpVal⟩ : TopologyPair) ∈ eligiblePairs requiredNodeAffinity constraints nodes then
        matchNum pod.ns constraints nodes ⟨c.topologyKey, tpVal⟩ else 0 := by
    rw [calPreFilterState_tpPairToMatchNum hcs]
    split_ifs <;> rfl
  rw [hP, hcount]
  constructor
  · intro h
    exact ⟨_, hleast, h P rfl⟩
  · rintro ⟨least, hleast', hle⟩ paths hpaths
    cases hpaths
    rwa [hleast.unique hleast']

/-! ## A run of changes on one node -/

/-- The pods of the nodes. -/
def podCount (nodes : List NodeInfo) : ℕ := (nodes.map fun n => n.pods.length).sum

theorem podCount_append_cons (before after : List NodeInfo) (n : NodeInfo) :
    podCount (before ++ n :: after) = podCount before + n.pods.length + podCount after := by
  simp [podCount, add_assoc]

theorem nodeMatchNum_le (ns : String) (constraints : List TopologySpreadConstraint) (n : NodeInfo)
    (pair : TopologyPair) : nodeMatchNum ns constraints n pair ≤ constraints.length * n.pods.length := by
  induction constraints with
  | nil => simp [nodeMatchNum]
  | cons c cs ih =>
    simp only [nodeMatchNum, List.map_cons, List.sum_cons, List.length_cons] at ih ⊢
    have hc : (if topologyPairOf c n.node = pair then (countPodsMatchSelector n.pods c.selector ns : ℤ) else 0)
        ≤ n.pods.length := by
      split_ifs
      · exact_mod_cast List.length_filter_le _ _
      · positivity
    push_cast
    linarith

/-- No counter exceeds the pods of the snapshot, once for each constraint. -/
theorem matchNum_le (ns : String) (constraints : List TopologySpreadConstraint) (nodes : List NodeInfo)
    (pair : TopologyPair) : matchNum ns constraints nodes pair ≤ constraints.length * podCount nodes := by
  induction nodes with
  | nil => simp [matchNum, podCount]
  | cons n nodes ih =>
    simp only [matchNum, podCount, List.map_cons, List.sum_cons] at ih ⊢
    have hn := nodeMatchNum_le ns constraints n pair
    rw [Nat.cast_add, mul_add]
    linarith

section Run

variable {requiredNodeAffinity : Node → Bool} {pod : Pod} {constraints : List TopologySpreadConstraint}
  {before after : List NodeInfo} {node : Node} {rest : String → ℤ}

/-- A state of the run that agrees with the snapshot whose node holds `pods`: the constraints and
the counters of `calPreFilterState` on it, and critical paths that track the node's values. -/
structure Agrees (requiredNodeAffinity : Node → Bool) (pod : Pod) (constraints : List TopologySpreadConstraint)
    (before after : List NodeInfo) (node : Node) (rest : String → ℤ) (pods : List Pod) (s : PreFilterState) :
    Prop where
  constraints_eq : s.constraints = constraints
  counters : s.tpPairToMatchNum =
    (calPreFilterState requiredNodeAffinity pod constraints (before ++ ⟨node, pods⟩ :: after)).tpPairToMatchNum
  tracking : Tracking constraints node rest s

/-- The counts of a key's values other than the node's, and `maxInt32`: the least of them is the
`rest` a key's critical paths track. -/
def otherCounts (requiredNodeAffinity : Node → Bool) (pod : Pod) (constraints : List TopologySpreadConstraint)
    (nodes : List NodeInfo) (node : Node) (key : String) : Set ℤ :=
  insert maxInt32 ((fun v => matchNum pod.ns constraints nodes ⟨key, v⟩) ''
    ({v | ⟨key, v⟩ ∈ eligiblePairs requiredNodeAffinity constraints nodes} \ {labelValue node.labels key}))

/-- The node's pods do not count for the other values. -/
theorem otherCounts_append_cons (pods pods' : List Pod) (key : String) :
    otherCounts requiredNodeAffinity pod constraints (before ++ ⟨node, pods⟩ :: after) node key =
      otherCounts requiredNodeAffinity pod constraints (before ++ ⟨node, pods'⟩ :: after) node key := by
  unfold otherCounts
  rw [eligiblePairs_append_cons requiredNodeAffinity constraints before after node pods pods']
  congr 1
  refine Set.image_congr fun v hv => ?_
  rw [matchNum_append_cons, matchNum_append_cons, nodeMatchNum_of_ne pod.ns constraints ⟨node, pods⟩ hv.2,
    nodeMatchNum_of_ne pod.ns constraints ⟨node, pods'⟩ hv.2]

theorem topologyPairOf_mem_eligiblePairs_append_cons
    (heligible : requiredNodeAffinity node = true ∧ nodeLabelsMatchSpreadConstraints node.labels constraints = true)
    (pods : List Pod) {c : TopologySpreadConstraint} (hc : c ∈ constraints) :
    topologyPairOf c node ∈ eligiblePairs requiredNodeAffinity constraints (before ++ ⟨node, pods⟩ :: after) :=
  topologyPairOf_mem_eligiblePairs (n := ⟨node, pods⟩) (by simp) heligible hc

/-- From scratch, an eligible node's pairs count the snapshot's matching pods. -/
theorem calPreFilterState_tpPairToMatchNum_topologyPairOf (hcs : constraints ≠ [])
    (heligible : requiredNodeAffinity node = true ∧ nodeLabelsMatchSpreadConstraints node.labels constraints = true)
    (pods : List Pod) {c : TopologySpreadConstraint} (hc : c ∈ constraints) :
    (calPreFilterState requiredNodeAffinity pod constraints (before ++ ⟨node, pods⟩ :: after)).tpPairToMatchNum
        (topologyPairOf c node) =
      some (matchNum pod.ns constraints (before ++ ⟨node, pods⟩ :: after) (topologyPairOf c node)) := by
  rw [calPreFilterState_tpPairToMatchNum hcs, if_pos (topologyPairOf_mem_eligiblePairs_append_cons heligible pods hc)]

/-- The snapshot's counters after a valid change of the node's pods. -/
theorem matchNum_updatePods {pods : List Pod} {change : PodChange} (hvalid : change.valid pods = true)
    (ns : String) (pair : TopologyPair) :
    matchNum ns constraints (before ++ ⟨node, change.updatePods pods⟩ :: after) pair =
      matchNum ns constraints (before ++ ⟨node, pods⟩ :: after) pair +
        if change.pod.ns = ns then change.delta * selectedNum node change.pod constraints pair else 0 := by
  rw [matchNum_append_cons, matchNum_append_cons, nodeMatchNum_updatePods hvalid]
  ring

/-- The counts of a snapshot whose node holds at most `k` pods more stay below `maxInt32`, when
each constraint counting `k` more pods would. -/
theorem matchNum_lt_maxInt32 {pods pods' : List Pod} {k : ℕ} (hlen : pods'.length ≤ pods.length + k)
    (hbound : (constraints.length * (podCount (before ++ ⟨node, pods⟩ :: after) + k) : ℤ) < maxInt32)
    (ns : String) (pair : TopologyPair) :
    matchNum ns constraints (before ++ ⟨node, pods'⟩ :: after) pair < maxInt32 := by
  have hle := matchNum_le ns constraints (before ++ ⟨node, pods'⟩ :: after) pair
  have hmul : constraints.length * podCount (before ++ ⟨node, pods'⟩ :: after) ≤
      constraints.length * (podCount (before ++ ⟨node, pods⟩ :: after) + k) := by
    apply Nat.mul_le_mul_left
    simp only [podCount_append_cons]
    omega
  have hmul' : (constraints.length * podCount (before ++ ⟨node, pods'⟩ :: after) : ℤ) ≤
      constraints.length * (podCount (before ++ ⟨node, pods⟩ :: after) + k) := by
    exact_mod_cast hmul
  exact lt_of_le_of_lt (hle.trans hmul') hbound

section Snapshot

variable (hcs : constraints ≠ [])
  (heligible : requiredNodeAffinity node = true ∧ nodeLabelsMatchSpreadConstraints node.labels constraints = true)
include hcs heligible

/-- Each key's other values have a least count, in a snapshot whose counts stay below `maxInt32`. -/
theorem exists_isLeast_otherCounts {pods : List Pod}
    (hlt : ∀ pair, matchNum pod.ns constraints (before ++ ⟨node, pods⟩ :: after) pair < maxInt32) :
    ∃ rest : String → ℤ, ∀ key ∈ constraints.map TopologySpreadConstraint.topologyKey,
      IsLeast (otherCounts requiredNodeAffinity pod constraints (before ++ ⟨node, pods⟩ :: after) node key)
        (rest key) := by
  have h : ∀ key, ∃ r, key ∈ constraints.map TopologySpreadConstraint.topologyKey →
      IsLeast (otherCounts requiredNodeAffinity pod constraints (before ++ ⟨node, pods⟩ :: after) node key) r := by
    intro key
    by_cases hkey : key ∈ constraints.map TopologySpreadConstraint.topologyKey
    · obtain ⟨c, hc, rfl⟩ := List.mem_map.1 hkey
      obtain ⟨P, -, hsorted⟩ := calPreFilterState_sorted requiredNodeAffinity hcs hlt hkey
      obtain ⟨r, hr, -⟩ :=
        hsorted.tracks (topologyPairOf_mem_eligiblePairs_append_cons heligible pods hc) fun _ _ => hlt _
      exact ⟨r, fun _ => hr⟩
    · exact ⟨0, fun h => absurd h hkey⟩
  choose rest hrest using h
  exact ⟨rest, hrest⟩

/-- **The state from scratch agrees** with its snapshot, its critical paths tracking the node's
values with the least counts of the others. -/
theorem agrees_calPreFilterState {pods : List Pod}
    (hlt : ∀ pair, matchNum pod.ns constraints (before ++ ⟨node, pods⟩ :: after) pair < maxInt32)
    (hrest : ∀ key ∈ constraints.map TopologySpreadConstraint.topologyKey,
      IsLeast (otherCounts requiredNodeAffinity pod constraints (before ++ ⟨node, pods⟩ :: after) node key)
        (rest key)) :
    Agrees requiredNodeAffinity pod constraints before after node rest pods
      (calPreFilterState requiredNodeAffinity pod constraints (before ++ ⟨node, pods⟩ :: after)) := by
  refine ⟨calPreFilterState_constraints hcs, rfl, ⟨fun c hc => ?_, fun c hc => ?_, fun key hkey => ?_⟩⟩
  · exact ⟨_, calPreFilterState_tpPairToMatchNum_topologyPairOf hcs heligible pods hc⟩
  · obtain ⟨P, hP, hsorted⟩ := calPreFilterState_sorted requiredNodeAffinity hcs hlt (List.mem_map_of_mem hc)
    obtain ⟨r, hr, htracks⟩ :=
      hsorted.tracks (topologyPairOf_mem_eligiblePairs_append_cons heligible pods hc) fun _ _ => hlt _
    obtain rfl := hr.unique (hrest c.topologyKey (List.mem_map_of_mem hc))
    refine ⟨P, hP, ?_⟩
    rw [calPreFilterState_tpPairToMatchNum_topologyPairOf hcs heligible pods hc, Option.getD_some]
    exact htracks
  · exact calPreFilterState_tpKeyToCriticalPaths_of_not_mem hcs hkey

/-- **An agreeing state has the least counts from scratch**: the first slot of each key's critical
paths holds the count that `calPreFilterState` finds on the snapshot. -/
theorem Agrees.first_matchNum_eq {pods : List Pod} {s : PreFilterState}
    (hs : Agrees requiredNodeAffinity pod constraints before after node rest pods s)
    (hlt : ∀ pair, matchNum pod.ns constraints (before ++ ⟨node, pods⟩ :: after) pair < maxInt32)
    (hrest : ∀ key ∈ constraints.map TopologySpreadConstraint.topologyKey,
      IsLeast (otherCounts requiredNodeAffinity pod constraints (before ++ ⟨node, pods⟩ :: after) node key)
        (rest key))
    (key : String) :
    (s.tpKeyToCriticalPaths key).map (·.first.matchNum) =
      ((calPreFilterState requiredNodeAffinity pod constraints (before ++ ⟨node, pods⟩ :: after)).tpKeyToCriticalPaths
        key).map (·.first.matchNum) := by
  by_cases hkey : key ∈ constraints.map TopologySpreadConstraint.topologyKey
  · obtain ⟨c, hc, rfl⟩ := List.mem_map.1 hkey
    obtain ⟨P, hP, htracks⟩ := hs.tracking.tracks c hc
    obtain ⟨P₁, hP₁, hsorted⟩ := calPreFilterState_sorted requiredNodeAffinity hcs hlt hkey
    rw [hs.counters, calPreFilterState_tpPairToMatchNum_topologyPairOf hcs heligible pods hc, Option.getD_some]
      at htracks
    have hleast := isLeast_of_tracks (topologyPairOf_mem_eligiblePairs_append_cons heligible pods hc)
      (hrest c.topologyKey hkey) fun _ _ _ => rfl
    rw [hP, hP₁, Option.map_some, Option.map_some, htracks.first_matchNum]
    exact congrArg some (hleast.unique (hsorted.first_isLeast fun _ _ => hlt _))
  · rw [hs.tracking.others key hkey, calPreFilterState_tpKeyToCriticalPaths_of_not_mem hcs hkey]

/-- **One change keeps the run in agreement** with the changed snapshot, while the counts of both
snapshots stay below `maxInt32`. -/
theorem Agrees.step {pods : List Pod} {s : PreFilterState} {change : PodChange}
    (hs : Agrees requiredNodeAffinity pod constraints before after node rest pods s)
    (hvalid : change.valid pods = true)
    (hlt : ∀ pair, matchNum pod.ns constraints (before ++ ⟨node, pods⟩ :: after) pair < maxInt32 ∧
      matchNum pod.ns constraints (before ++ ⟨node, change.updatePods pods⟩ :: after) pair < maxInt32) :
    ∃ s', change.updateState pod node s = some s' ∧
      Agrees requiredNodeAffinity pod constraints before after node rest (change.updatePods pods) s' := by
  have hbound : ∀ c ∈ constraints, ∀ count, s.tpPairToMatchNum (topologyPairOf c node) = some count →
      count < maxInt32 ∧ count + (if change.pod.ns = pod.ns then
        change.delta * selectedNum node change.pod constraints (topologyPairOf c node) else 0) < maxInt32 := by
    intro c hc count hcount
    rw [hs.counters, calPreFilterState_tpPairToMatchNum_topologyPairOf hcs heligible pods hc,
      Option.some.injEq] at hcount
    subst hcount
    rw [← matchNum_updatePods hvalid]
    exact hlt _
  rw [PodChange.updateState_eq]
  obtain ⟨s', hs', hcs', htp', htr'⟩ :=
    updateWithPod_tracking hs.tracking change.delta_eq hs.constraints_eq heligible.2 hbound
  refine ⟨s', hs', ⟨hcs', ?_, htr'⟩⟩
  funext pair
  rw [htp', hs.counters, calPreFilterState_tpPairToMatchNum hcs, calPreFilterState_tpPairToMatchNum hcs,
    eligiblePairs_append_cons requiredNodeAffinity constraints before after node (change.updatePods pods) pods,
    matchNum_updatePods hvalid]
  split_ifs <;> simp

/-- **A run of changes keeps agreeing** with the snapshot changed the same way, for runs of valid
changes whose snapshots stay within `maxInt32` counts. -/
theorem Agrees.run {pods : List Pod} {s : PreFilterState} {changes : List PodChange}
    (hs : Agrees requiredNodeAffinity pod constraints before after node rest pods s)
    (hvalid : validChanges pods changes = true)
    (hbound : (constraints.length * (podCount (before ++ ⟨node, pods⟩ :: after) + changes.length) : ℤ) <
      maxInt32) :
    ∃ s', changes.foldlM (PodChange.updateState pod node) s = some s' ∧
      Agrees requiredNodeAffinity pod constraints before after node rest
        (changes.foldl PodChange.updatePods pods) s' := by
  induction changes generalizing pods s with
  | nil => exact ⟨s, rfl, hs⟩
  | cons change changes ih =>
    simp only [validChanges, Bool.and_eq_true] at hvalid
    have hlen := change.length_updatePods_le pods
    obtain ⟨s₁, hs₁, hagree₁⟩ := hs.step hcs heligible hvalid.1 fun pair =>
      ⟨matchNum_lt_maxInt32 (by simp) hbound _ pair, matchNum_lt_maxInt32 (by simp; omega) hbound _ pair⟩
    have hbound₁ : (constraints.length *
        (podCount (before ++ ⟨node, change.updatePods pods⟩ :: after) + changes.length) : ℤ) < maxInt32 := by
      refine lt_of_le_of_lt ?_ hbound
      have hmul : constraints.length *
          (podCount (before ++ ⟨node, change.updatePods pods⟩ :: after) + changes.length) ≤
          constraints.length * (podCount (before ++ ⟨node, pods⟩ :: after) + (change :: changes).length) := by
        apply Nat.mul_le_mul_left
        simp only [podCount_append_cons, List.length_cons]
        omega
      exact_mod_cast hmul
    obtain ⟨s', hs', hagree'⟩ := ih hagree₁ hvalid.2 hbound₁
    exact ⟨s', by simp [List.foldlM_cons, hs₁, hs'], hagree'⟩

end Snapshot

/-- **`AddPod` and `RemovePod` refine `PreFilter`.** Take a node that passes the incoming pod's
required node affinity and carries every topology key. Change it by pods that are not terminating,
a removed pod being on it, while the counts stay within `int32`. Then no call fails and the counters
equal those of `calPreFilterState` on the changed snapshot. Each key's least count agrees too, so
`Filter` gives every pod and node the same verdict on both states. -/
theorem podChanges_refine_calPreFilterState (requiredNodeAffinity : Node → Bool) (pod : Pod)
    (constraints : List TopologySpreadConstraint) (hcs : constraints ≠ []) (before after : List NodeInfo)
    (node : Node) (pods : List Pod) (changes : List PodChange)
    (heligible : requiredNodeAffinity node = true ∧ nodeLabelsMatchSpreadConstraints node.labels constraints = true)
    (hvalid : validChanges pods changes = true)
    (hbound : (constraints.length * (podCount (before ++ ⟨node, pods⟩ :: after) + changes.length) : ℤ) <
      maxInt32) :
    ∃ s, changes.foldlM (PodChange.updateState pod node)
        (calPreFilterState requiredNodeAffinity pod constraints (before ++ ⟨node, pods⟩ :: after)) = some s ∧
      s.tpPairToMatchNum = (calPreFilterState requiredNodeAffinity pod constraints
        (before ++ ⟨node, changes.foldl PodChange.updatePods pods⟩ :: after)).tpPairToMatchNum ∧
      (∀ key, (s.tpKeyToCriticalPaths key).map (·.first.matchNum) =
        ((calPreFilterState requiredNodeAffinity pod constraints
          (before ++ ⟨node, changes.foldl PodChange.updatePods pods⟩ :: after)).tpKeyToCriticalPaths key).map
            (·.first.matchNum)) ∧
      ∀ p n, filter s p n = filter (calPreFilterState requiredNodeAffinity pod constraints
        (before ++ ⟨node, changes.foldl PodChange.updatePods pods⟩ :: after)) p n := by
  have hlt₀ : ∀ pair, matchNum pod.ns constraints (before ++ ⟨node, pods⟩ :: after) pair < maxInt32 :=
    matchNum_lt_maxInt32 (by simp) hbound pod.ns
  have hlt₁ := matchNum_lt_maxInt32 (PodChange.length_foldl_updatePods_le pods changes) hbound pod.ns
  -- the least counts of the other values are fixed at the start; the node's pods do not move them
  obtain ⟨rest, hrest⟩ := exists_isLeast_otherCounts hcs heligible hlt₀
  obtain ⟨s, hrun, hagree⟩ := (agrees_calPreFilterState hcs heligible hlt₀ hrest).run hcs heligible hvalid hbound
  have hpaths := hagree.first_matchNum_eq hcs heligible hlt₁ fun key hkey => by
    rw [← otherCounts_append_cons pods]
    exact hrest key hkey
  exact ⟨s, hrun, hagree.counters, hpaths,
    filter_congr (hagree.constraints_eq.trans (calPreFilterState_constraints hcs).symm) hagree.counters hpaths⟩

/-- The snapshot of `updateWithPod_panics_outside_node_affinity`, with no required node affinity:
node `n` is eligible, and a nominated pod added to it is counted as from scratch. -/
example := podChanges_refine_calPreFilterState (fun _ => true) webPod [webSpread] (by decide)
  [⟨zoneNode "a" "z1", [webPod]⟩] [] (zoneNode "n" "z2") [] [.add webPod] (by decide) (by decide) (by decide)

end Run

end Kubernetes.PodTopologySpread
