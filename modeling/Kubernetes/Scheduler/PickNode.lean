import Mathlib
import Kubernetes.Foundations.Best
import Kubernetes.Scheduler.Victims

/-!
# Choosing the node to preempt on

`pkg/scheduler/framework/plugins/defaultpreemption/default_preemption.go`, `SelectCandidate` and
`pickOneNodeForPreemption`. Of the nodes where preemption would make room, the scheduler keeps
those with the fewest `PodDisruptionBudget` violations, then the lowest highest victim priority,
the lowest sum of priorities and the fewest victims, each pass a `Best.keepMinimal` loop, and
among what is left the node whose earliest start of a highest-priority victim is latest.

* `pickOneNodeForPreemption_passes`: the second to fourth passes write into two scratch slices
  reused at tracked lengths; their fronts hold the nodes of `Best.keepMinimal`.
* `selectCandidate_ignores_higher_victim`: the second pass reads the highest victim priority as
  `Victims.Pods[0]`, while `selectVictimsOnNode` lists the victims that violate a budget first,
  so a node with a higher victim behind a violating one can win.

The nodes of the map are passed in the order `range` visits them, which Go leaves open. A pod's
start time is `now` where it has not started.
-/

namespace Kubernetes.DefaultPreemption

/-- `extenderv1.Victims`. -/
structure Victims where
  pods : List Pod
  numPDBViolations : ℤ
  deriving DecidableEq

/-- A preemption `Candidate`: a node and its victims. -/
structure Candidate where
  name : String
  victims : Victims
  deriving DecidableEq

/-- `math.MaxInt32`. -/
def maxInt32 : ℤ := 2147483647

/-- `math.MaxInt64`. -/
def maxInt64 : ℤ := 9223372036854775807

/-- `candidatesToVictimsMap`: a later candidate of a node replaces an earlier one. -/
def candidatesToVictimsMap (candidates : List Candidate) : String → Option Victims :=
  candidates.foldl (fun m c node => if node = c.name then some c.victims else m node)
    fun _ => none

/-- The nodes of a map in the order `range` visits them: each of its keys once. -/
structure RangeOrder (nodesToVictims : String → Option Victims) (nodes : List String) : Prop where
  nodup : nodes.Nodup
  mem_iff : ∀ node, node ∈ nodes ↔ (nodesToVictims node).isSome

/-- `nodesToVictims[node]`, for a node of the map. -/
def victimsOf (nodesToVictims : String → Option Victims) (node : String) : Victims :=
  (nodesToVictims node).getD ⟨[], 0⟩

/-- `PodPriority(victims.Pods[0])`, which the second pass takes for the highest priority. -/
def firstVictimPriority (victims : Victims) : ℤ :=
  match victims.pods with
  | [] => 0
  | pod :: _ => podPriority pod

/-- The third pass's sum, `PodPriority + MaxInt32 + 1` over the victims. -/
def sumPriorities (victims : Victims) : ℤ :=
  victims.pods.foldl (fun sum pod => sum + (podPriority pod + (maxInt32 + 1))) 0

/-- `len(victims.Pods)`. -/
def numPods (victims : Victims) : ℤ := victims.pods.length

/-- One turn of `GetEarliestPodStartTime`'s loop, on the earliest start and the highest priority
so far. -/
def earliestStep (now : ℤ) (acc : ℤ × ℤ) (pod : Pod) : ℤ × ℤ :=
  if podPriority pod = acc.2 then
    if getPodStartTime now pod < acc.1 then (getPodStartTime now pod, acc.2) else acc
  else if acc.2 < podPriority pod then (getPodStartTime now pod, podPriority pod)
  else acc

/-- `util.GetEarliestPodStartTime`: the earliest start among the victims of the highest
priority, `nil` without victims. -/
def getEarliestPodStartTime (now : ℤ) (victims : Victims) : Option ℤ :=
  match victims.pods with
  | [] => none
  | first :: _ =>
    some (victims.pods.foldl (earliestStep now) (getPodStartTime now first, podPriority first)).1

/-- One turn of the last pass: a node whose earliest start is after the latest so far. -/
def latestStartStep (now : ℤ) (nodesToVictims : String → Option Victims) (acc : ℤ × String)
    (node : String) : ℤ × String :=
  match getEarliestPodStartTime now (victimsOf nodesToVictims node) with
  | none => acc
  | some t => if acc.1 < t then (t, node) else acc

/-- `minNodes[0]`, which panics on an empty slice. -/
def firstNode (nodes : List String) : Except String String :=
  match nodes[0]? with
  | some node => .ok node
  | none => .error "index out of range"

/-- `pickOneNodeForPreemption`, the map given as a function and the order `range` visits it;
a panic is an error. -/
def pickOneNodeForPreemption (now : ℤ) (nodesToVictims : String → Option Victims)
    (nodes : List String) : Except String String :=
  if nodes.isEmpty then .ok "" else
  let minNodes1 :=
    Best.keepMinimal (fun node => (victimsOf nodesToVictims node).numPDBViolations) maxInt32 nodes
  let lenNodes1 := minNodes1.length
  if lenNodes1 = 1 then firstNode minNodes1 else
  if (minNodes1.take lenNodes1).any fun node => (victimsOf nodesToVictims node).pods.isEmpty then
    .error "index out of range"
  else
  let (_, minNodes2, lenNodes2) := (minNodes1.take lenNodes1).foldl
    (Best.minStepAt fun node => firstVictimPriority (victimsOf nodesToVictims node))
    (maxInt32, List.replicate lenNodes1 "", 0)
  if lenNodes2 = 1 then firstNode minNodes2 else
  let (_, minNodes1, lenNodes1) := (minNodes2.take lenNodes2).foldl
    (Best.minStepAt fun node => sumPriorities (victimsOf nodesToVictims node))
    (maxInt64, minNodes1, 0)
  if lenNodes1 = 1 then firstNode minNodes1 else
  let (_, minNodes2, lenNodes2) := (minNodes1.take lenNodes1).foldl
    (Best.minStepAt fun node => numPods (victimsOf nodesToVictims node))
    (maxInt32, minNodes2, 0)
  if lenNodes2 = 1 then firstNode minNodes2 else
  match minNodes2[0]? with
  | none => .error "index out of range"
  | some first =>
    match getEarliestPodStartTime now (victimsOf nodesToVictims first) with
    | none => .ok first
    | some t =>
      .ok (((minNodes2.take lenNodes2).drop 1).foldl (latestStartStep now nodesToVictims)
        (t, first)).2

/-- `SelectCandidate`, with `nodes` the order in which `range` visits the map of victims. -/
def selectCandidate (now : ℤ) (nodes : List String) (candidates : List Candidate) :
    Except String (Option Candidate) :=
  match candidates with
  | [] => .ok none
  | [candidate] => .ok (some candidate)
  | first :: _ =>
    match pickOneNodeForPreemption now (candidatesToVictimsMap candidates) nodes with
    | .error err => .error err
    | .ok candidateNode =>
      match candidatesToVictimsMap candidates candidateNode with
      | some victims => .ok (some ⟨candidateNode, victims⟩)
      | none => .ok (some first)

/-! ## The passes -/

/-- The victims of a node, within the Go types the passes compare them in. -/
structure WithinGoTypes (victims : Victims) : Prop where
  numPDBViolations_le : victims.numPDBViolations ≤ maxInt32
  firstVictimPriority_le : firstVictimPriority victims ≤ maxInt32
  sumPriorities_le : sumPriorities victims ≤ maxInt64
  numPods_le : numPods victims ≤ maxInt32

/-- `pickOneNodeForPreemption` with the nodes of each pass a list of their own. -/
def pickByPasses (now : ℤ) (nodesToVictims : String → Option Victims) (nodes : List String) :
    Except String String :=
  if nodes.isEmpty then .ok "" else
  let minNodes1 :=
    Best.keepMinimal (fun node => (victimsOf nodesToVictims node).numPDBViolations) maxInt32 nodes
  if minNodes1.length = 1 then firstNode minNodes1 else
  if minNodes1.any fun node => (victimsOf nodesToVictims node).pods.isEmpty then
    .error "index out of range"
  else
  let minNodes2 := Best.keepMinimal (fun node => firstVictimPriority (victimsOf nodesToVictims node))
    maxInt32 minNodes1
  if minNodes2.length = 1 then firstNode minNodes2 else
  let minNodes3 := Best.keepMinimal (fun node => sumPriorities (victimsOf nodesToVictims node))
    maxInt64 minNodes2
  if minNodes3.length = 1 then firstNode minNodes3 else
  let minNodes4 := Best.keepMinimal (fun node => numPods (victimsOf nodesToVictims node))
    maxInt32 minNodes3
  if minNodes4.length = 1 then firstNode minNodes4 else
  match minNodes4 with
  | [] => .error "index out of range"
  | first :: rest =>
    match getEarliestPodStartTime now (victimsOf nodesToVictims first) with
    | none => .ok first
    | some t => .ok (rest.foldl (latestStartStep now nodesToVictims) (t, first)).2

theorem firstNode_take {nodes : List String} {n : ℕ} (hn : 0 < n) :
    firstNode (nodes.take n) = firstNode nodes := by
  simp [firstNode, hn]

/-- **The scratch slices hold each pass's nodes**: where the victims fit the Go types, the passes
of `pickOneNodeForPreemption` are those of `pickByPasses`. -/
theorem pickOneNodeForPreemption_passes (now : ℤ) (nodesToVictims : String → Option Victims)
    (nodes : List String) (hbounds : ∀ node ∈ nodes, WithinGoTypes (victimsOf nodesToVictims node)) :
    pickOneNodeForPreemption now nodesToVictims nodes = pickByPasses now nodesToVictims nodes := by
  unfold pickOneNodeForPreemption pickByPasses
  dsimp only
  simp only [List.take_length]
  by_cases hnil : nodes.isEmpty
  · simp only [if_pos hnil]
  rw [if_neg hnil, if_neg hnil]
  set S1 := Best.keepMinimal (fun node => (victimsOf nodesToVictims node).numPDBViolations)
    maxInt32 nodes with hS1
  by_cases h1 : S1.length = 1
  · rw [if_pos h1, if_pos h1]
  rw [if_neg h1, if_neg h1]
  by_cases hany : S1.any fun node => (victimsOf nodesToVictims node).pods.isEmpty
  · rw [if_pos hany, if_pos hany]
  rw [if_neg hany, if_neg hany]
  have hsub1 : S1.Sublist nodes := Best.keepMinimal_sublist _ _
  have hne1 : S1 ≠ [] := Best.keepMinimal_ne_nil (by simpa using hnil)
    fun node hnode => (hbounds node hnode).numPDBViolations_le
  obtain ⟨k2, arr2, hr2, htake2, hlen2⟩ := Best.foldl_minStepAt
    (fun node => firstVictimPriority (victimsOf nodesToVictims node)) maxInt32
    (show S1.length ≤ (List.replicate S1.length "").length by simp)
  set S2 := Best.keepMinimal (fun node => firstVictimPriority (victimsOf nodesToVictims node))
    maxInt32 S1 with hS2
  have hsub2 : S2.Sublist S1 := Best.keepMinimal_sublist _ _
  have hne2 : S2 ≠ [] := Best.keepMinimal_ne_nil hne1
    fun node hnode => (hbounds node (hsub1.subset hnode)).firstVictimPriority_le
  rw [hr2]
  dsimp only
  rw [htake2]
  by_cases h2 : S2.length = 1
  · rw [if_pos h2, if_pos h2, ← htake2, firstNode_take (List.length_pos_of_ne_nil hne2)]
  rw [if_neg h2, if_neg h2]
  obtain ⟨k3, arr3, hr3, htake3, hlen3⟩ := Best.foldl_minStepAt
    (fun node => sumPriorities (victimsOf nodesToVictims node)) maxInt64 hsub2.length_le
  set S3 := Best.keepMinimal (fun node => sumPriorities (victimsOf nodesToVictims node))
    maxInt64 S2 with hS3
  have hsub3 : S3.Sublist S2 := Best.keepMinimal_sublist _ _
  have hne3 : S3 ≠ [] := Best.keepMinimal_ne_nil hne2
    fun node hnode => (hbounds node (hsub1.subset (hsub2.subset hnode))).sumPriorities_le
  rw [hr3]
  dsimp only
  rw [htake3]
  by_cases h3 : S3.length = 1
  · rw [if_pos h3, if_pos h3, ← htake3, firstNode_take (List.length_pos_of_ne_nil hne3)]
  rw [if_neg h3, if_neg h3]
  obtain ⟨k4, arr4, hr4, htake4, hlen4⟩ := Best.foldl_minStepAt
    (fun node => numPods (victimsOf nodesToVictims node)) maxInt32
    (show S3.length ≤ arr2.length by
      rw [hlen2, List.length_replicate]
      exact hsub3.length_le.trans hsub2.length_le)
  set S4 := Best.keepMinimal (fun node => numPods (victimsOf nodesToVictims node))
    maxInt32 S3 with hS4
  have hne4 : S4 ≠ [] := Best.keepMinimal_ne_nil hne3 fun node hnode =>
    (hbounds node (hsub1.subset (hsub2.subset (hsub3.subset hnode)))).numPods_le
  rw [hr4]
  dsimp only
  by_cases h4 : S4.length = 1
  · rw [if_pos h4, if_pos h4, ← htake4, firstNode_take (List.length_pos_of_ne_nil hne4)]
  rw [if_neg h4, if_neg h4, htake4]
  obtain ⟨first, rest, hfirst⟩ := List.exists_cons_of_ne_nil hne4
  have harr4 : arr4[0]? = some first := by
    rw [← List.getElem?_take_of_lt (List.length_pos_of_ne_nil hne4), htake4, hfirst]
    rfl
  rw [harr4, hfirst]
  rfl

/-! ## The highest priority read as the first victim's -/

/-- The highest priority among a node's victims, which the second pass is to compare. -/
def highestVictimPriority (victims : Victims) : ℤ := ((victims.pods.map podPriority).max?).getD 0

/-- A filter that lets the preemptor onto an empty node only. -/
def fitsOnEmptyNode (pods : List Pod) : Option String :=
  if pods.isEmpty then none else some "Insufficient cpu"

/-- A budget of the pods labelled `app=a` that allows no disruption. -/
def appBudget : PodDisruptionBudget := ⟨"default", [("app", "a")], [], 0⟩

/-- The preemptor, of priority 10. -/
def preemptor : Pod := ⟨"p", "p", "default", [], some 10, none⟩

/-- On node `a`: `v` of priority 1 under the budget, and `w` of priority 5 outside it. -/
def podV : Pod := ⟨"v", "v", "default", [("app", "a")], some 1, some 0⟩
def podW : Pod := ⟨"w", "w", "default", [], some 5, some 0⟩

/-- On node `b`: `x` of priority 3 under the budget. -/
def podX : Pod := ⟨"x", "x", "default", [("app", "a")], some 3, some 0⟩

def nodeA : NodeInfo := ⟨"a", [podV, podW], by decide, by decide⟩
def nodeB : NodeInfo := ⟨"b", [podX], by decide, by decide⟩

/-- The candidates `selectVictimsOnNode` gives on the two nodes. -/
def preemptionCandidates : List Candidate :=
  [⟨"a", ⟨[podV, podW], 1⟩⟩, ⟨"b", ⟨[podX], 1⟩⟩]

/-- Both nodes' victims violate the budget once, and those of `b` have the lower highest
priority; yet in either order of the map the second pass reads `v` for `a` and `x` for `b`, so
`SelectCandidate` picks `a`. -/
theorem selectCandidate_ignores_higher_victim :
    selectVictimsOnNode fitsOnEmptyNode 0 preemptor nodeA [appBudget] = .ok ([podV, podW], 1) ∧
    selectVictimsOnNode fitsOnEmptyNode 0 preemptor nodeB [appBudget] = .ok ([podX], 1) ∧
    (∀ nodes, RangeOrder (candidatesToVictimsMap preemptionCandidates) nodes →
      selectCandidate 0 nodes preemptionCandidates = .ok (some ⟨"a", ⟨[podV, podW], 1⟩⟩)) ∧
    highestVictimPriority ⟨[podX], 1⟩ < highestVictimPriority ⟨[podV, podW], 1⟩ := by
  refine ⟨by decide, by decide, fun nodes horder => ?_, by decide⟩
  have hkeys : ∀ node, (candidatesToVictimsMap preemptionCandidates node).isSome ↔
      node ∈ ["a", "b"] := by
    intro node
    simp only [candidatesToVictimsMap, preemptionCandidates, List.foldl_cons, List.foldl_nil]
    by_cases ha : node = "a" <;> by_cases hb : node = "b" <;> simp [ha, hb]
  have hperm : nodes.Perm ["a", "b"] :=
    (List.perm_ext_iff_of_nodup horder.nodup (by decide)).mpr
      fun node => (horder.mem_iff node).trans (hkeys node)
  obtain ⟨x, y, rfl⟩ := List.length_eq_two.mp hperm.length_eq
  have hx : x = "a" ∨ x = "b" := by simpa using hperm.subset List.mem_cons_self
  have hy : y = "a" ∨ y = "b" := by
    simpa using hperm.subset (List.mem_cons_of_mem x List.mem_cons_self)
  have hxy : x ≠ y := by simpa using horder.nodup
  rcases hx with rfl | rfl <;> rcases hy with rfl | rfl
  · exact absurd rfl hxy
  · decide
  · decide
  · exact absurd rfl hxy

end Kubernetes.DefaultPreemption
