import Mathlib
import Kubernetes.Foundations.GoSlice

/-!
# The victims of preemption on one node

`pkg/scheduler/framework/plugins/defaultpreemption/default_preemption.go`, `selectVictimsOnNode`.
To make room on a node for a pod, the scheduler removes every pod of lower priority from the node
and checks that the pod fits. It then adds back as many of them as it can, the pods whose
`PodDisruptionBudget` their eviction would violate first, each group from the most important pod
on, and keeps as victims those it could not add back.

* `removeLowerPriorityPods_spec`: the first loop ranges over `nodeInfo.Pods` while `RemovePod`
  moves the last pod into the place of the removed one; it still removes every pod of lower
  priority once, in the order of the node's pods (`Go.RangeDeleteInv`).
* `ReprieveRun.foldlM_violating`, `ReprieveRun.foldlM_nonViolating`: each group's loop keeps the
  pod fitting, and each victim one that did not fit with the pods added back before it.
* `filterPodsWithPDBViolation_split`: the two groups split the pods, each keeping their order.
* `selectVictimsOnNode_spec`: with a filter that removing pods of lower priority never makes fail,
  the victims are enough and each of them is needed, the violating ones first.

A filter run (`RunFilterPluginsWithNominatedPods`, with the `PreFilter` extensions it reads) is a
function of the pods on the node, `none` where it succeeds and the status message where it
fails: the `AddPod` and `RemovePod` extensions are taken to agree with a run from scratch. A
pod's start time is `now` where it has not started.
-/

namespace Kubernetes.DefaultPreemption

/-- A `v1.Pod`, what preemption reads of it. -/
structure Pod where
  uid : String
  name : String
  podNamespace : String
  labels : List (String × String)
  priority : Option ℤ
  startTime : Option ℤ
  deriving DecidableEq

/-- `corev1helpers.PodPriority`: `Spec.Priority`, `0` where it is not set. -/
def podPriority (pod : Pod) : ℤ := pod.priority.getD 0

/-- `util.GetPodStartTime`: `Status.StartTime`, the current time where it is not set. -/
def getPodStartTime (now : ℤ) (pod : Pod) : ℤ := pod.startTime.getD now

/-- `util.MoreImportantPod`: the higher priority, then the earlier start. -/
def moreImportantPod (now : ℤ) (pod1 pod2 : Pod) : Bool :=
  if podPriority pod1 ≠ podPriority pod2 then podPriority pod2 < podPriority pod1
  else getPodStartTime now pod1 < getPodStartTime now pod2

/-- `framework.GetPodKey`. -/
def getPodKey (pod : Pod) : Except String String :=
  if pod.uid = "" then .error "Cannot get cache key for pod with empty UID" else .ok pod.uid

/-- The test of `RemovePod`'s loop: a pod whose key is `k`; a pod without a key is passed over. -/
def keyMatches (k : String) (pod : Pod) : Bool :=
  match getPodKey pod with
  | .ok k2 => k == k2
  | .error _ => false

/-! ## `NodeInfo.Pods` -/

/-- A node as the scheduler's cache holds it: its pods each have a key, and no two share one. -/
structure NodeInfo where
  name : String
  pods : List Pod
  keys_nodup : (pods.map Pod.uid).Nodup
  keys_ne : ∀ p ∈ pods, p.uid ≠ ""

/-- `NodeInfo.RemovePod`, on the node's pods. -/
def removePod (nodeName : String) (pods : Go.Slice Pod) (pod : Pod) : Except String (Go.Slice Pod) :=
  match getPodKey pod with
  | .error err => .error err
  | .ok k =>
    match pods.swapDelete (keyMatches k) with
    | some pods => .ok pods
    | none => .error ("no corresponding pod " ++ pod.name ++ " in pods of node " ++ nodeName)

/-- `NodeInfo.AddPodInfo`, on the node's pods. -/
def addPodInfo (pods : Go.Slice Pod) (pod : Pod) : Go.Slice Pod := pods.push pod

/-! ## `PodDisruptionBudget`s -/

/-- A `policy.PodDisruptionBudget`: its selector is its `MatchLabels`, and `disruptedPods` the
names in `Status.DisruptedPods`. -/
structure PodDisruptionBudget where
  pdbNamespace : String
  matchLabels : List (String × String)
  disruptedPods : List String
  disruptionsAllowed : ℤ

/-- `selector.Matches`, where a selector without requirements matches nothing. -/
def selectorMatches (matchLabels labels : List (String × String)) : Bool :=
  !matchLabels.isEmpty && matchLabels.all fun kv => labels.lookup kv.1 == some kv.2

/-- A budget that evicting `pod` draws on: of its namespace, selecting it, and not already
disrupting it. -/
def drawsOn (pdb : PodDisruptionBudget) (pod : Pod) : Bool :=
  pdb.pdbNamespace == pod.podNamespace && selectorMatches pdb.matchLabels pod.labels &&
    !pdb.disruptedPods.contains pod.name

/-- The inner loop of `filterPodsWithPDBViolation` for one pod: each budget it draws on is
decremented, and the pod violates one that falls below zero. -/
def decrementAllowed (pod : Pod) : List PodDisruptionBudget → List ℤ → List ℤ × Bool
  | pdb :: pdbs, allowed :: rest =>
    let (rest, violated) := decrementAllowed pod pdbs rest
    if drawsOn pdb pod then ((allowed - 1) :: rest, violated || decide (allowed - 1 < 0))
    else (allowed :: rest, violated)
  | _, rest => (rest, false)

/-- One pod of `filterPodsWithPDBViolation`; a pod without labels matches no budget. -/
def pdbViolationStep (pdbs : List PodDisruptionBudget) (acc : List ℤ × List Pod × List Pod)
    (pod : Pod) : List ℤ × List Pod × List Pod :=
  let (allowed, violated) :=
    if pod.labels.isEmpty then (acc.1, false) else decrementAllowed pod pdbs acc.1
  if violated then (allowed, acc.2.1 ++ [pod], acc.2.2) else (allowed, acc.2.1, acc.2.2 ++ [pod])

/-- `filterPodsWithPDBViolation`: the pods whose eviction violates a budget, and the others. -/
def filterPodsWithPDBViolation (pods : List Pod) (pdbs : List PodDisruptionBudget) :
    List Pod × List Pod :=
  let (_, violating, nonViolating) :=
    pods.foldl (pdbViolationStep pdbs) (pdbs.map (·.disruptionsAllowed), [], [])
  (violating, nonViolating)

/-! ## `selectVictimsOnNode` -/

/-- One turn of the first loop, `for _, pi := range nodeInfo.Pods`, at index `j`: it reads the
backing array the loop started with, and removes a pod of lower priority than `podPriority`. -/
def removeLowerPriorityStep (nodeName : String) (preemptorPriority : ℤ)
    (acc : Go.Slice Pod × List Pod) (j : ℕ) : Except String (Go.Slice Pod × List Pod) :=
  match acc.1.array[j]? with
  | some pi =>
    if podPriority pi < preemptorPriority then
      match removePod nodeName acc.1 pi with
      | .ok pods => .ok (pods, acc.2 ++ [pi])
      | .error err => .error err
    else .ok acc
  | none => .ok acc

/-- The first loop: the node's pods, and the potential victims. -/
def removeLowerPriorityPods (nodeName : String) (preemptorPriority : ℤ) (pods : Go.Slice Pod) :
    Except String (Go.Slice Pod × List Pod) :=
  (List.range pods.len).foldlM (removeLowerPriorityStep nodeName preemptorPriority) (pods, [])

/-- `reprievePod`: add the pod back and run the filters; where the pod does not fit any more, it
is removed again and is a victim. -/
def reprievePod (runFilter : List Pod → Option String) (nodeName : String) (pods : Go.Slice Pod)
    (victims : List Pod) (pi : Pod) : Except String (Go.Slice Pod × List Pod × Bool) :=
  let pods := addPodInfo pods pi
  match runFilter pods.toList with
  | none => .ok (pods, victims, true)
  | some _ =>
    match removePod nodeName pods pi with
    | .ok pods => .ok (pods, victims ++ [pi], false)
    | .error err => .error err

/-- The loop over the violating pods, which counts the victims among them. -/
def reprieveViolating (runFilter : List Pod → Option String) (nodeName : String)
    (acc : Go.Slice Pod × List Pod × ℕ) (pi : Pod) : Except String (Go.Slice Pod × List Pod × ℕ) :=
  match reprievePod runFilter nodeName acc.1 acc.2.1 pi with
  | .ok (pods, victims, fits) => .ok (pods, victims, if fits then acc.2.2 else acc.2.2 + 1)
  | .error err => .error err

/-- The loop over the non-violating pods. -/
def reprieveNonViolating (runFilter : List Pod → Option String) (nodeName : String)
    (acc : Go.Slice Pod × List Pod) (pi : Pod) : Except String (Go.Slice Pod × List Pod) :=
  match reprievePod runFilter nodeName acc.1 acc.2 pi with
  | .ok (pods, victims, _) => .ok (pods, victims)
  | .error err => .error err

/-- The order `sort.Slice` leaves the potential victims in: no pod after a more important one. -/
def importanceOrder (now : ℤ) (a b : Pod) : Bool := !moreImportantPod now b a

/-- `selectVictimsOnNode`: the victims and how many of them violate a budget, or the status of
the node. The node's pods are a copy, which the function changes. -/
def selectVictimsOnNode (runFilter : List Pod → Option String) (now : ℤ) (pod : Pod)
    (nodeInfo : NodeInfo) (pdbs : List PodDisruptionBudget) : Except String (List Pod × ℕ) :=
  match removeLowerPriorityPods nodeInfo.name (podPriority pod) (Go.Slice.ofList nodeInfo.pods) with
  | .error err => .error err
  | .ok (pods, potentialVictims) =>
    if potentialVictims.isEmpty then
      .error ("No victims found on node " ++ nodeInfo.name ++ " for preemptor pod " ++ pod.name)
    else
      match runFilter pods.toList with
      | some status => .error status
      | none =>
        let sorted := potentialVictims.insertionSort fun a b => importanceOrder now a b
        let (violatingVictims, nonViolatingVictims) := filterPodsWithPDBViolation sorted pdbs
        match violatingVictims.foldlM (reprieveViolating runFilter nodeInfo.name) (pods, [], 0) with
        | .error err => .error err
        | .ok (pods, victims, numViolatingVictim) =>
          match nonViolatingVictims.foldlM (reprieveNonViolating runFilter nodeInfo.name)
              (pods, victims) with
          | .error err => .error err
          | .ok (_, victims) => .ok (victims, numViolatingVictim)

/-! ## The order of the victims -/

theorem importanceOrder_total (now : ℤ) (a b : Pod) :
    importanceOrder now a b = true ∨ importanceOrder now b a = true := by
  simp only [importanceOrder, moreImportantPod]
  split_ifs <;> simp <;> omega

theorem importanceOrder_trans (now : ℤ) {a b c : Pod} (hab : importanceOrder now a b = true)
    (hbc : importanceOrder now b c = true) : importanceOrder now a c = true := by
  simp only [importanceOrder, moreImportantPod] at hab hbc ⊢
  split_ifs at hab hbc ⊢ <;> simp_all <;> omega

/-- `sort.Slice` leaves no pod after a more important one. -/
theorem pairwise_importanceOrder_insertionSort (now : ℤ) (pods : List Pod) :
    (pods.insertionSort fun a b => importanceOrder now a b).Pairwise
      fun a b => importanceOrder now a b := by
  have : Std.Total fun a b : Pod => importanceOrder now a b = true :=
    ⟨importanceOrder_total now⟩
  have : IsTrans Pod fun a b => importanceOrder now a b = true :=
    ⟨fun _ _ _ => importanceOrder_trans now⟩
  exact List.pairwise_insertionSort _ _

/-! ## The two groups of `filterPodsWithPDBViolation` -/

theorem foldl_pdbViolationStep (pdbs : List PodDisruptionBudget) (pods : List Pod) :
    ∀ acc : List ℤ × List Pod × List Pod, ∃ violating nonViolating,
      (pods.foldl (pdbViolationStep pdbs) acc).2 = (acc.2.1 ++ violating, acc.2.2 ++ nonViolating) ∧
      violating.Sublist pods ∧ nonViolating.Sublist pods ∧ (violating ++ nonViolating).Perm pods := by
  induction pods with
  | nil => exact fun acc => ⟨[], [], by simp⟩
  | cons pod pods ih =>
    intro acc
    obtain ⟨violating, nonViolating, heq, hv, hn, hperm⟩ := ih (pdbViolationStep pdbs acc pod)
    rw [List.foldl_cons, heq]
    unfold pdbViolationStep
    split
    rename_i allowed violated _
    split_ifs
    · exact ⟨pod :: violating, nonViolating, by simp, hv.cons_cons pod, hn.cons pod, by simpa using hperm.cons pod⟩
    · refine ⟨violating, pod :: nonViolating, by simp, hv.cons pod, hn.cons_cons pod, ?_⟩
      exact (List.perm_middle).trans (hperm.cons pod)

/-- The violating and the other pods split the pods, each group in the order of the pods. -/
theorem filterPodsWithPDBViolation_split (pods : List Pod) (pdbs : List PodDisruptionBudget) :
    (filterPodsWithPDBViolation pods pdbs).1.Sublist pods ∧
    (filterPodsWithPDBViolation pods pdbs).2.Sublist pods ∧
    ((filterPodsWithPDBViolation pods pdbs).1 ++ (filterPodsWithPDBViolation pods pdbs).2).Perm pods := by
  obtain ⟨violating, nonViolating, heq, hv, hn, hperm⟩ :=
    foldl_pdbViolationStep pdbs pods (pdbs.map (·.disruptionsAllowed), [], [])
  unfold filterPodsWithPDBViolation
  generalize pods.foldl (pdbViolationStep pdbs) (pdbs.map (·.disruptionsAllowed), [], []) = r at heq ⊢
  obtain ⟨_, v, n⟩ := r
  simp only [List.nil_append, Prod.mk.injEq] at heq
  obtain ⟨rfl, rfl⟩ := heq
  exact ⟨hv, hn, hperm⟩

/-! ## Keys -/

/-- Pods with keys, no two of them the same. -/
def Keyed (pods : List Pod) : Prop := (pods.map Pod.uid).Nodup ∧ ∀ p ∈ pods, p.uid ≠ ""

theorem Keyed.of_subperm {pods pods' : List Pod} (h : Keyed pods') (hsub : pods.Subperm pods') :
    Keyed pods := by
  obtain ⟨l, hperm, hsub⟩ := hsub
  exact ⟨(hperm.map Pod.uid).nodup_iff.mp (h.1.sublist (hsub.map Pod.uid)),
    fun p hp => h.2 p (hsub.subset (hperm.symm.subset hp))⟩

theorem Keyed.nodup {pods : List Pod} (h : Keyed pods) : pods.Nodup := h.1.of_map _

theorem getPodKey_of_keyed {pods : List Pod} (h : Keyed pods) {p : Pod} (hp : p ∈ pods) :
    getPodKey p = .ok p.uid := by
  simp [getPodKey, h.2 p hp]

/-- Among keyed pods, `RemovePod`'s test holds of the pod removed alone. -/
theorem keyMatches_iff {pods : List Pod} (h : Keyed pods) {p q : Pod} (hp : p ∈ pods)
    (hq : q ∈ pods) : keyMatches p.uid q = true ↔ q = p := by
  rw [keyMatches, getPodKey_of_keyed h hq, beq_iff_eq]
  constructor
  · intro huid
    exact List.inj_on_of_nodup_map h.1 hq hp huid.symm
  · rintro rfl
    rfl

theorem NodeInfo.keyed (nodeInfo : NodeInfo) : Keyed nodeInfo.pods :=
  ⟨nodeInfo.keys_nodup, nodeInfo.keys_ne⟩

/-! ## The first loop -/

theorem removePod_swapDelete {nodeName : String} {pods pods' : Go.Slice Pod} {p : Pod}
    (hkey : p.uid ≠ "") (h : removePod nodeName pods p = .ok pods') :
    pods.swapDelete (keyMatches p.uid) = some pods' := by
  unfold removePod at h
  rw [show getPodKey p = .ok p.uid by simp [getPodKey, hkey]] at h
  dsimp only at h
  split at h
  · rename_i pods'' hsd
    cases h
    exact hsd
  · cases h

/-- `RemovePod` of a pod among keyed pods takes it out. -/
theorem removePod_perm {l : List Pod} (hkeyed : Keyed l) {nodeName : String}
    {pods pods' : Go.Slice Pod} (hsub : pods.toList.Subperm l) {p : Pod} (hp : p ∈ l)
    (h : removePod nodeName pods p = .ok pods') : pods'.toList.Perm (pods.toList.erase p) :=
  Go.Slice.toList_swapDelete_perm_erase (removePod_swapDelete (hkeyed.2 p hp) h)
    fun _ hb => keyMatches_iff hkeyed hp (hsub.subset hb)

/-- What the first loop has done after `j` turns: the pods of lower priority among the first `j`
are the potential victims and are off the node, which holds the other pods. -/
structure FirstLoopInv (nodePods : List Pod) (preemptorPriority : ℤ) (j : ℕ)
    (acc : Go.Slice Pod × List Pod) : Prop where
  range : Go.RangeDeleteInv nodePods j acc.1
  victims : acc.2 = (nodePods.take j).filter fun q => podPriority q < preemptorPriority
  pods : acc.1.toList.Perm
    ((nodePods.take j).filter (fun q => ¬podPriority q < preemptorPriority) ++ nodePods.drop j)

theorem FirstLoopInv.step {nodePods : List Pod} (hkeyed : Keyed nodePods) {nodeName : String}
    {preemptorPriority : ℤ} {j : ℕ} (hj : j < nodePods.length) {acc acc' : Go.Slice Pod × List Pod}
    (h : FirstLoopInv nodePods preemptorPriority j acc)
    (hstep : removeLowerPriorityStep nodeName preemptorPriority acc j = .ok acc') :
    FirstLoopInv nodePods preemptorPriority (j + 1) acc' := by
  set x := nodePods[j]
  have hx : nodePods[j]? = some x := List.getElem?_eq_getElem hj
  have hxmem : x ∈ nodePods := List.getElem_mem hj
  have htake : nodePods.take (j + 1) = nodePods.take j ++ [x] := by
    rw [List.take_add_one, hx, Option.toList_some]
  have hdrop : nodePods.drop j = x :: nodePods.drop (j + 1) := List.drop_eq_getElem_cons hj
  unfold removeLowerPriorityStep at hstep
  rw [h.range.read, hx] at hstep
  dsimp only at hstep
  split_ifs at hstep with hlow
  · -- the pod read is of lower priority: it is removed from the node
    cases hrm : removePod nodeName acc.1 x with
    | error err => rw [hrm] at hstep; cases hstep
    | ok pods =>
      rw [hrm] at hstep
      cases hstep
      have hxF : x ∉ (nodePods.take j).filter fun q => ¬podPriority q < preemptorPriority := by
        intro hmem
        have hnd := hkeyed.nodup
        rw [← List.take_append_drop j nodePods, hdrop, List.nodup_append] at hnd
        exact hnd.2.2 x (List.mem_of_mem_filter hmem) x List.mem_cons_self rfl
      refine ⟨h.range.delete Pod.uid hkeyed.1 hx (fun y hy hmatch => ?_)
          (removePod_swapDelete (hkeyed.2 x hxmem) hrm), ?_, ?_⟩
      · rw [(keyMatches_iff hkeyed hxmem hy).mp hmatch]
      · rw [h.victims, htake, List.filter_append]
        simp [hlow]
      · have hperm := (removePod_perm hkeyed h.range.subperm hxmem hrm).trans (h.pods.erase x)
        rw [hdrop, List.erase_append_right _ hxF, List.erase_cons_head] at hperm
        rw [htake, List.filter_append]
        simpa [hlow] using hperm
  · cases hstep
    refine ⟨h.range.skip, ?_, ?_⟩
    · rw [h.victims, htake, List.filter_append]
      simp [hlow]
    · rw [htake, List.filter_append]
      simpa [List.filter_singleton, not_lt.mp hlow, hdrop] using h.pods

/-- The first loop removes every pod of lower priority than the preemptor once, in the order of
the node's pods, and leaves the others on the node. -/
theorem removeLowerPriorityPods_spec (nodeInfo : NodeInfo) (preemptorPriority : ℤ)
    {pods : Go.Slice Pod} {potentialVictims : List Pod}
    (h : removeLowerPriorityPods nodeInfo.name preemptorPriority (Go.Slice.ofList nodeInfo.pods) =
      .ok (pods, potentialVictims)) :
    potentialVictims = nodeInfo.pods.filter (fun q => podPriority q < preemptorPriority) ∧
    pods.toList.Perm (nodeInfo.pods.filter fun q => ¬podPriority q < preemptorPriority) := by
  have hinv := Go.foldlM_except_inv
    (fun done acc => FirstLoopInv nodeInfo.pods preemptorPriority done.length acc) _
    (fun done a acc acc' hpre hacc hstep => by
      obtain ⟨rfl, hlt⟩ := Go.eq_length_of_prefix_range hpre
      simpa using hacc.step nodeInfo.keyed hlt hstep)
    ⟨Go.RangeDeleteInv.init _, by simp, by simp⟩ h
  simp only [List.length_range, Go.Slice.ofList] at hinv
  obtain ⟨-, hvictims, hpods⟩ := hinv
  rw [List.take_length, List.drop_length, List.append_nil] at hpods
  rw [List.take_length] at hvictims
  exact ⟨hvictims, hpods⟩

/-! ## Adding the pods back -/

/-- A filter run that removing pods of priority below `priority`, the others kept, never turns
from a pass into a failure; it then depends only on which pods are on the node, not on their
order. -/
def RemovalKeepsFit (priority : ℤ) (runFilter : List Pod → Option String) : Prop :=
  ∀ l l' : List Pod, l.Subperm l' → (∀ q ∈ l', ¬podPriority q < priority → q ∈ l) →
    runFilter l' = none → runFilter l = none

theorem RemovalKeepsFit.perm {priority : ℤ} {runFilter : List Pod → Option String}
    (hmono : RemovalKeepsFit priority runFilter) {l l' : List Pod} (hperm : l.Perm l')
    (h : runFilter l' = none) : runFilter l = none :=
  hmono l l' hperm.subperm (fun _ hq _ => hperm.mem_iff.mpr hq) h

/-- While the pods are added back, with `H` the pods of higher priority: the node holds `H` and
the pods added back `R`, the preemptor fits, and each victim of `V` did not fit with `H`, some of
the pods the node holds and itself. -/
structure ReprieveInv (runFilter : List Pod → Option String) (H : List Pod) (pods : Go.Slice Pod)
    (R V : List Pod) : Prop where
  pods_perm : pods.toList.Perm (H ++ R)
  fits : runFilter pods.toList = none
  victims_fail : ∀ v ∈ V, ∃ l, l.Subperm (H ++ R ++ [v]) ∧ (∀ q ∈ H, q ∈ l) ∧ (runFilter l).isSome

/-- One pod added back: it stays, or it is a victim. -/
theorem ReprieveInv.reprieve {priority : ℤ} {runFilter : List Pod → Option String}
    (hmono : RemovalKeepsFit priority runFilter) {H R V : List Pod} {pods : Go.Slice Pod}
    (h : ReprieveInv runFilter H pods R V) {pi : Pod} (hpi : pi ∉ H ++ R)
    (hkeyed : Keyed (H ++ R ++ [pi])) {nodeName : String} {victims victims' : List Pod}
    {pods' : Go.Slice Pod} {fits : Bool}
    (hstep : reprievePod runFilter nodeName pods victims pi = .ok (pods', victims', fits)) :
    (fits = true ∧ victims' = victims ∧ ReprieveInv runFilter H pods' (R ++ [pi]) V) ∨
    (fits = false ∧ victims' = victims ++ [pi] ∧ ReprieveInv runFilter H pods' R (V ++ [pi])) := by
  have hpush : (addPodInfo pods pi).toList = pods.toList ++ [pi] := Go.Slice.toList_push pods pi
  have hadded : (addPodInfo pods pi).toList.Perm (H ++ R ++ [pi]) := by
    rw [hpush]
    exact h.pods_perm.append_right [pi]
  unfold reprievePod at hstep
  dsimp only at hstep
  cases hf : runFilter (addPodInfo pods pi).toList with
  | none =>
    rw [hf] at hstep
    cases hstep
    refine .inl ⟨rfl, rfl, by simpa using hadded, hf, fun v hv => ?_⟩
    obtain ⟨l, hsub, hH, hsome⟩ := h.victims_fail v hv
    refine ⟨l, hsub.trans ?_, hH, hsome⟩
    simpa using ((List.sublist_append_left (H ++ R) [pi]).append_right [v]).subperm
  | some status =>
    rw [hf] at hstep
    cases hrm : removePod nodeName (addPodInfo pods pi) pi with
    | error err => rw [hrm] at hstep; cases hstep
    | ok removed =>
      rw [hrm] at hstep
      cases hstep
      have hnot : pi ∉ pods.toList := fun hmem => hpi (h.pods_perm.subset hmem)
      have hremoved : pods'.toList.Perm pods.toList := by
        have := removePod_perm hkeyed hadded.subperm (by simp) hrm
        rwa [hpush, List.erase_append_right _ hnot, List.erase_cons_head, List.append_nil] at this
      refine .inr ⟨rfl, rfl, hremoved.trans h.pods_perm, hmono.perm hremoved h.fits, ?_⟩
      intro v hv
      rcases List.mem_append.mp hv with hv | hv
      · exact h.victims_fail v hv
      · rw [List.mem_singleton.mp hv]
        exact ⟨_, hadded.subperm,
          fun q hq => hadded.mem_iff.mpr (List.mem_append_left _ (List.mem_append_left _ hq)),
          by rw [hf]; rfl⟩

/-- A loop adding back the pods of `L` from `H`, `R` and `V`, after the pods `done`: the pods of
`done` are split into those that stayed and the victims, which follow `V` in the order of
`done`. -/
def ReprieveRun (runFilter : List Pod → Option String) (H R V done : List Pod)
    (pods : Go.Slice Pod) (victims : List Pod) : Prop :=
  ∃ RL VL, victims = V ++ VL ∧ ReprieveInv runFilter H pods (R ++ RL) (V ++ VL) ∧
    (RL ++ VL).Perm done ∧ VL.Sublist done

theorem ReprieveRun.step {priority : ℤ} {runFilter : List Pod → Option String}
    (hmono : RemovalKeepsFit priority runFilter) {H R V L done : List Pod} (hkeyed : Keyed (H ++ R ++ L))
    {a : Pod} (hpre : done ++ [a] <+: L) {pods pods' : Go.Slice Pod} {victims victims' : List Pod}
    (hrun : ReprieveRun runFilter H R V done pods victims) {nodeName : String} {fits : Bool}
    (hstep : reprievePod runFilter nodeName pods victims a = .ok (pods', victims', fits)) :
    ReprieveRun runFilter H R V (done ++ [a]) pods' victims' ∧
      victims'.length = victims.length + if fits then 0 else 1 := by
  obtain ⟨RL, VL, rfl, hinv, hperm, hsub⟩ := hrun
  have hdone : (done ++ [a]).Subperm L := hpre.sublist.subperm
  have hRL : (RL ++ [a]).Subperm L :=
    ((List.subperm_append_right [a]).mpr
      ((List.sublist_append_left RL VL).subperm.trans hperm.subperm)).trans hdone
  have hkeyed' : Keyed (H ++ (R ++ RL) ++ [a]) :=
    hkeyed.of_subperm (by simpa using (List.subperm_append_left (H ++ R)).mpr hRL)
  have hnodup := hkeyed'.nodup
  have hpi : a ∉ H ++ (R ++ RL) := by
    rw [List.nodup_append] at hnodup
    exact fun hmem => hnodup.2.2 a hmem a (List.mem_singleton_self a) rfl
  rcases hinv.reprieve hmono hpi hkeyed' hstep with ⟨rfl, rfl, hinv'⟩ | ⟨rfl, rfl, hinv'⟩
  · refine ⟨⟨RL ++ [a], VL, rfl, by simpa using hinv', ?_, hsub.trans (List.sublist_append_left _ _)⟩,
      by simp⟩
    have hswap : (RL ++ [a] ++ VL).Perm (RL ++ VL ++ [a]) := by
      simpa using List.Perm.append_left RL (@List.perm_append_comm _ [a] VL)
    exact hswap.trans (hperm.append_right [a])
  · refine ⟨⟨RL, VL ++ [a], by simp, by simpa using hinv', ?_, hsub.append_right [a]⟩, ?_⟩
    · simpa using hperm.append_right [a]
    · simp only [List.length_append, List.length_singleton, Bool.false_eq_true, if_false]

theorem ReprieveRun.init {runFilter : List Pod → Option String} {H R V : List Pod}
    {pods : Go.Slice Pod} (h : ReprieveInv runFilter H pods R V) :
    ReprieveRun runFilter H R V [] pods V :=
  ⟨[], [], by simp, by simpa using h, by simp, by simp⟩

theorem reprieveViolating_ok {runFilter : List Pod → Option String} {nodeName : String}
    {acc acc' : Go.Slice Pod × List Pod × ℕ} {pi : Pod}
    (h : reprieveViolating runFilter nodeName acc pi = .ok acc') :
    ∃ fits, reprievePod runFilter nodeName acc.1 acc.2.1 pi = .ok (acc'.1, acc'.2.1, fits) ∧
      acc'.2.2 = if fits then acc.2.2 else acc.2.2 + 1 := by
  unfold reprieveViolating at h
  split at h
  · cases h
    exact ⟨_, ‹_›, rfl⟩
  · cases h

theorem reprieveNonViolating_ok {runFilter : List Pod → Option String} {nodeName : String}
    {acc acc' : Go.Slice Pod × List Pod} {pi : Pod}
    (h : reprieveNonViolating runFilter nodeName acc pi = .ok acc') :
    ∃ fits, reprievePod runFilter nodeName acc.1 acc.2 pi = .ok (acc'.1, acc'.2, fits) := by
  unfold reprieveNonViolating at h
  split at h
  · cases h
    exact ⟨_, ‹_›⟩
  · cases h

section Loops

variable {priority : ℤ} {runFilter : List Pod → Option String}
  (hmono : RemovalKeepsFit priority runFilter)
  {H R V L : List Pod} (hkeyed : Keyed (H ++ R ++ L)) {nodeName : String}
  {pods pods' : Go.Slice Pod} {victims' : List Pod}
include hmono hkeyed

/-- The loop over the violating pods: its count is the number of victims it adds. -/
theorem ReprieveRun.foldlM_violating {c c' : ℕ} (hinv : ReprieveInv runFilter H pods R V)
    (h : L.foldlM (reprieveViolating runFilter nodeName) (pods, V, c) = .ok (pods', victims', c')) :
    ReprieveRun runFilter H R V L pods' victims' ∧ c' + V.length = c + victims'.length := by
  refine Go.foldlM_except_inv
    (fun done acc => ReprieveRun runFilter H R V done acc.1 acc.2.1 ∧
      acc.2.2 + V.length = c + acc.2.1.length) L ?_ ⟨ReprieveRun.init hinv, rfl⟩ h
  rintro done a ⟨pods, victims, n⟩ ⟨pods', victims', n'⟩ hpre ⟨hrun, hcount⟩ hstep
  obtain ⟨fits, hrep, hn'⟩ := reprieveViolating_ok hstep
  obtain ⟨hrun', hlen⟩ := hrun.step hmono hkeyed hpre hrep
  refine ⟨hrun', ?_⟩
  dsimp only at hcount hn' hlen ⊢
  cases fits <;> simp only [hn', hlen, Bool.false_eq_true, if_false, if_true] <;> omega

/-- The loop over the other pods. -/
theorem ReprieveRun.foldlM_nonViolating (hinv : ReprieveInv runFilter H pods R V)
    (h : L.foldlM (reprieveNonViolating runFilter nodeName) (pods, V) = .ok (pods', victims')) :
    ReprieveRun runFilter H R V L pods' victims' := by
  refine Go.foldlM_except_inv (fun done acc => ReprieveRun runFilter H R V done acc.1 acc.2) L ?_
    (ReprieveRun.init hinv) h
  rintro done a ⟨pods, victims⟩ ⟨pods', victims'⟩ hpre hrun hstep
  obtain ⟨fits, hrep⟩ := reprieveNonViolating_ok hstep
  exact (hrun.step hmono hkeyed hpre hrep).1

end Loops

/-! ## The victims of a node -/

/-- Of pods split into `A` and `B`, those not in `B` are `A`. -/
theorem filter_not_mem_perm {α : Type*} [DecidableEq α] {l A B : List α} (hl : l.Nodup)
    (hperm : l.Perm (A ++ B)) : (l.filter fun q => q ∉ B).Perm A := by
  have hdisj := (List.nodup_append.mp (hperm.nodup_iff.mp hl)).2.2
  have hA : A.filter (fun q => q ∉ B) = A :=
    List.filter_eq_self.mpr fun a ha => by simpa using fun hb => hdisj a ha a hb rfl
  have hB : B.filter (fun q => q ∉ B) = [] := List.filter_eq_nil_iff.mpr fun a ha => by simpa using ha
  have hfilter := hperm.filter fun q => q ∉ B
  rwa [List.filter_append, hA, hB, List.append_nil] at hfilter

/-- Of pods split into `A` and `B`, those not in `B` but `v` are `A` and `v`. -/
theorem filter_not_mem_erase_perm {α : Type*} [DecidableEq α] {l A B : List α} (hl : l.Nodup)
    (hperm : l.Perm (A ++ B)) {v : α} (hv : v ∈ B) :
    (l.filter fun q => q ∉ B.erase v).Perm (A ++ [v]) := by
  refine filter_not_mem_perm hl (hperm.trans ?_)
  simpa using (List.perm_cons_erase hv).append_left A

theorem RemovalKeepsFit.isSome_of_subperm {priority : ℤ} {runFilter : List Pod → Option String}
    (hmono : RemovalKeepsFit priority runFilter) {l l' : List Pod} (hsub : l.Subperm l')
    (hhigh : ∀ q ∈ l', ¬podPriority q < priority → q ∈ l)
    (h : (runFilter l).isSome) : (runFilter l').isSome := by
  cases hl' : runFilter l' with
  | none => simp [hmono l l' hsub hhigh hl'] at h
  | some _ => rfl

/-- What a run of `selectVictimsOnNode` that succeeds has gone through. -/
theorem selectVictimsOnNode_ok {runFilter : List Pod → Option String} {now : ℤ} {pod : Pod}
    {nodeInfo : NodeInfo} {pdbs : List PodDisruptionBudget} {victims : List Pod} {k : ℕ}
    (h : selectVictimsOnNode runFilter now pod nodeInfo pdbs = .ok (victims, k)) :
    ∃ pods potentialVictims pods1 victims1 pods2,
      removeLowerPriorityPods nodeInfo.name (podPriority pod) (Go.Slice.ofList nodeInfo.pods) =
        .ok (pods, potentialVictims) ∧
      runFilter pods.toList = none ∧
      (filterPodsWithPDBViolation (potentialVictims.insertionSort fun a b => importanceOrder now a b)
        pdbs).1.foldlM (reprieveViolating runFilter nodeInfo.name) (pods, [], 0) =
          .ok (pods1, victims1, k) ∧
      (filterPodsWithPDBViolation (potentialVictims.insertionSort fun a b => importanceOrder now a b)
        pdbs).2.foldlM (reprieveNonViolating runFilter nodeInfo.name) (pods1, victims1) =
          .ok (pods2, victims) := by
  unfold selectVictimsOnNode at h
  split at h
  · cases h
  rename_i pods potentialVictims hfirst
  split_ifs at h
  split at h
  · cases h
  rename_i hfits
  dsimp only at h
  refine ⟨pods, potentialVictims, ?_⟩
  generalize filterPodsWithPDBViolation
    (potentialVictims.insertionSort fun a b => importanceOrder now a b) pdbs = groups at h ⊢
  obtain ⟨violatingVictims, nonViolatingVictims⟩ := groups
  dsimp only at h ⊢
  split at h
  · cases h
  rename_i pods1 victims1 n hloop1
  split at h
  · cases h
  rename_i pods2 victims2 hloop2
  cases h
  exact ⟨pods1, victims1, pods2, hfirst, hfits, hloop1, hloop2⟩

/-- `selectVictimsOnNode`, where it succeeds, with a filter that removing pods of lower priority than
the preemptor never makes fail:
the victims are pods of the node of lower priority than the preemptor, the first loop takes each
such pod once, the preemptor fits with the victims removed and with all but any one of them
removed it does not, and the victims are those of the violating group, counted, then the others,
each group in the order of `MoreImportantPod`. -/
theorem selectVictimsOnNode_spec {runFilter : List Pod → Option String} {pod : Pod}
    (hmono : RemovalKeepsFit (podPriority pod) runFilter) (now : ℤ) (nodeInfo : NodeInfo)
    (pdbs : List PodDisruptionBudget) {victims : List Pod} {numViolatingVictim : ℕ}
    (h : selectVictimsOnNode runFilter now pod nodeInfo pdbs = .ok (victims, numViolatingVictim)) :
    (∀ v ∈ victims, v ∈ nodeInfo.pods ∧ podPriority v < podPriority pod) ∧
    (∃ pods, removeLowerPriorityPods nodeInfo.name (podPriority pod) (Go.Slice.ofList nodeInfo.pods) =
        .ok (pods, nodeInfo.pods.filter fun q => podPriority q < podPriority pod) ∧
      pods.toList.Perm (nodeInfo.pods.filter fun q => ¬podPriority q < podPriority pod)) ∧
    runFilter (nodeInfo.pods.filter fun q => q ∉ victims) = none ∧
    (∀ v ∈ victims, (runFilter (nodeInfo.pods.filter fun q => q ∉ victims.erase v)).isSome) ∧
    ∃ violatingVictims nonViolatingVictims, victims = violatingVictims ++ nonViolatingVictims ∧
      numViolatingVictim = violatingVictims.length ∧
      violatingVictims.Sublist (filterPodsWithPDBViolation
        ((nodeInfo.pods.filter fun q => podPriority q < podPriority pod).insertionSort
          fun a b => importanceOrder now a b) pdbs).1 ∧
      nonViolatingVictims.Sublist (filterPodsWithPDBViolation
        ((nodeInfo.pods.filter fun q => podPriority q < podPriority pod).insertionSort
          fun a b => importanceOrder now a b) pdbs).2 ∧
      violatingVictims.Pairwise (fun a b => importanceOrder now a b) ∧
      nonViolatingVictims.Pairwise (fun a b => importanceOrder now a b) := by
  obtain ⟨pods, potentialVictims, pods1, victims1, pods2, hfirst, hfits, hloop1, hloop2⟩ :=
    selectVictimsOnNode_ok h
  obtain ⟨rfl, hpods⟩ := removeLowerPriorityPods_spec nodeInfo _ hfirst
  set low := nodeInfo.pods.filter fun q => podPriority q < podPriority pod
  set H := nodeInfo.pods.filter fun q => ¬podPriority q < podPriority pod
  set sorted := low.insertionSort fun a b => importanceOrder now a b
  obtain ⟨hG1, hG2, hG⟩ := filterPodsWithPDBViolation_split sorted pdbs
  set G1 := (filterPodsWithPDBViolation sorted pdbs).1
  set G2 := (filterPodsWithPDBViolation sorted pdbs).2
  have hnode : (H ++ (G1 ++ G2)).Perm nodeInfo.pods := by
    have hlow : (G1 ++ G2).Perm low := hG.trans (List.perm_insertionSort _ _)
    refine (hlow.append_left H).trans (List.perm_append_comm.trans ?_)
    simp only [low, H, decide_not]
    exact List.filter_append_perm _ _
  have hkeyed : Keyed (H ++ (G1 ++ G2)) := nodeInfo.keyed.of_subperm hnode.subperm
  have hkeyed1 : Keyed (H ++ [] ++ G1) :=
    hkeyed.of_subperm (by simpa using (List.subperm_append_left H).mpr (List.sublist_append_left G1 G2).subperm)
  have hinv0 : ReprieveInv runFilter H pods [] [] := ⟨by simpa using hpods, hfits, by simp⟩
  obtain ⟨⟨RL1, VL1, hvictims1, hinv1, hperm1, hsub1⟩, hcount⟩ :=
    ReprieveRun.foldlM_violating hmono hkeyed1 hinv0 hloop1
  subst victims1
  simp only [List.nil_append, List.length_nil, Nat.add_zero, Nat.zero_add] at hinv1 hcount hloop2
  have hkeyed2 : Keyed (H ++ RL1 ++ G2) := by
    refine hkeyed.of_subperm ?_
    have hRL1 : RL1.Subperm G1 := (List.sublist_append_left RL1 VL1).subperm.trans hperm1.subperm
    simpa using (List.subperm_append_left H).mpr ((List.subperm_append_right G2).mpr hRL1)
  obtain ⟨RL2, VL2, hvictims, hinv2, hperm2, hsub2⟩ :=
    ReprieveRun.foldlM_nonViolating hmono hkeyed2 hinv1 hloop2
  subst victims
  have hall : nodeInfo.pods.Perm (H ++ (RL1 ++ RL2) ++ (VL1 ++ VL2)) := by
    refine hnode.symm.trans ?_
    have hshuffle : (RL1 ++ RL2 ++ (VL1 ++ VL2)).Perm (RL1 ++ VL1 ++ (RL2 ++ VL2)) := by
      simpa using (List.perm_append_comm_assoc RL2 VL1 VL2).append_left RL1
    simpa using ((hperm1.append hperm2).symm.trans hshuffle.symm).append_left H
  have hnodup := nodeInfo.keyed.nodup
  have hsorted := pairwise_importanceOrder_insertionSort now low
  -- the pods of the two groups, added back or victims, are of lower priority than the preemptor
  have hgroups : ∀ q ∈ G1 ++ G2, q ∈ low := by
    intro q hq
    rcases List.mem_append.mp hq with hq | hq
    · exact (List.perm_insertionSort _ _).subset (hG1.subset hq)
    · exact (List.perm_insertionSort _ _).subset (hG2.subset hq)
  have hvictims : ∀ v ∈ VL1 ++ VL2, v ∈ G1 ++ G2 := by
    intro v hv
    rcases List.mem_append.mp hv with hv | hv
    · exact List.mem_append_left _ (hsub1.subset hv)
    · exact List.mem_append_right _ (hsub2.subset hv)
  have hadded : ∀ q ∈ RL1 ++ RL2, q ∈ G1 ++ G2 := by
    intro q hq
    rcases List.mem_append.mp hq with hq | hq
    · exact List.mem_append_left _ (hperm1.subset (List.mem_append_left _ hq))
    · exact List.mem_append_right _ (hperm2.subset (List.mem_append_left _ hq))
  refine ⟨fun v hv => by simpa [low] using hgroups v (hvictims v hv), ⟨pods, hfirst, hpods⟩, ?_,
    fun v hv => ?_, VL1, VL2, rfl, by omega, hsub1, hsub2, hsorted.sublist (hsub1.trans hG1),
    hsorted.sublist (hsub2.trans hG2)⟩
  · exact hmono.perm ((filter_not_mem_perm hnodup hall).trans hinv2.pods_perm.symm) hinv2.fits
  · obtain ⟨l, hl, hH, hsome⟩ := hinv2.victims_fail v hv
    have hrest := filter_not_mem_erase_perm hnodup hall hv
    refine hmono.isSome_of_subperm (hl.trans hrest.symm.subperm) (fun q hq hhigh => hH q ?_) hsome
    have hlow : q ∈ G1 ++ G2 → False := fun hq =>
      hhigh (of_decide_eq_true (List.mem_filter.mp (hgroups q hq)).2)
    rcases List.mem_append.mp (hrest.subset hq) with hq | hq
    · rcases List.mem_append.mp hq with hq | hq
      · exact hq
      · exact (hlow (hadded q hq)).elim
    · exact (hlow (List.mem_singleton.mp hq ▸ hvictims v hv)).elim

/-- A pod of the node `crowdedNode`, started at time 0. -/
def nodePod (name : String) (labels : List (String × String)) (priority : ℤ) : Pod :=
  ⟨name, name, "default", labels, some priority, some 0⟩

/-- A node with a pod of priority 20, and pods of priorities 1 to 3, the first two labelled
`app=x`. -/
def crowdedNode : NodeInfo :=
  ⟨"node", [nodePod "h" [] 20, nodePod "a" [("app", "x")] 1, nodePod "b" [("app", "x")] 2,
    nodePod "c" [] 3], by decide, by decide⟩

/-- The budget of the pods labelled `app=x`, which allows no disruption. -/
def noDisruptionBudget : PodDisruptionBudget := ⟨"default", [("app", "x")], [], 0⟩

/-- The filter of a node with room for two pods. -/
def fitsTwo (pods : List Pod) : Option String :=
  if pods.length ≤ 2 then none else some "Too many pods"

theorem fitsTwo_removalKeepsFit (priority : ℤ) : RemovalKeepsFit priority fitsTwo := by
  intro l l' hsub _ h
  have hle := hsub.length_le
  unfold fitsTwo at h ⊢
  split_ifs at h with hfits
  exact if_pos (hle.trans hfits)

/-- A pod of priority 10 preempts `crowdedNode` under `noDisruptionBudget`. The pods `b` and `a`
violate the budget and go back first, then `c`: `b` fits back, `a` and `c` do not. -/
theorem selectVictimsOnNode_spec_twoVictims :
    RemovalKeepsFit 10 fitsTwo ∧
    selectVictimsOnNode fitsTwo 0 ⟨"p", "p", "default", [], some 10, none⟩ crowdedNode
        [noDisruptionBudget] = .ok ([nodePod "a" [("app", "x")] 1, nodePod "c" [] 3], 1) ∧
    fitsTwo (crowdedNode.pods.filter fun q =>
      q ∉ [nodePod "a" [("app", "x")] 1, nodePod "c" [] 3]) = none ∧
    (∀ v ∈ [nodePod "a" [("app", "x")] 1, nodePod "c" [] 3], (fitsTwo (crowdedNode.pods.filter
      fun q => q ∉ [nodePod "a" [("app", "x")] 1, nodePod "c" [] 3].erase v)).isSome) := by
  have hrun : selectVictimsOnNode fitsTwo 0 ⟨"p", "p", "default", [], some 10, none⟩ crowdedNode
      [noDisruptionBudget] = .ok ([nodePod "a" [("app", "x")] 1, nodePod "c" [] 3], 1) := by
    decide
  obtain ⟨-, -, hfits, hneeded, -⟩ :=
    selectVictimsOnNode_spec (fitsTwo_removalKeepsFit _) 0 crowdedNode [noDisruptionBudget] hrun
  exact ⟨fitsTwo_removalKeepsFit 10, hrun, hfits, hneeded⟩

end Kubernetes.DefaultPreemption
