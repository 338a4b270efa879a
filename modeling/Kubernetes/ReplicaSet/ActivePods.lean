import Mathlib
import Kubernetes.Foundations.GoHeap
import Kubernetes.Job.Indexed

/-!
# The order of pods to delete

`pkg/controller/controller_utils.go`, `ActivePods.Less` and `ActivePodsWithRanks.Less`, and
`getPodsToDelete` in `pkg/controller/replicaset/replica_set.go`. A controller that scales down
sorts its pods by these comparators and deletes a prefix. Each applies a chain of rules, each
deciding where the pods differ: assignment, phase, readiness, deletion cost (behind the
`PodDeletionCost` gate), rank, ready time, restarts, creation time. Under the
`LogarithmicScaleDown` gate the two rules on times compare the times' base-2 logarithmic ranks
from `Now`, and two different times of one rank are ordered by UID.

* `activePodsWithRanksLess_iff_key`, `isStrictWeakOrder_activePodsWithRanksLess`: without
  `LogarithmicScaleDown`, `ActivePodsWithRanks.Less` is `<` on a lexicographic key, so it is a
  strict weak order, for every `Now` and every setting of `PodDeletionCost`.
* `isStrictWeakOrder_activePodsLess`: so is `ActivePods.Less`, which is the same comparator
  without the gates on pods of one rank (`activePodsLess_eq_withRanks`).
* `activePodsWithRanksLess_not_transitive`: with the gate, two pods created at one time and a
  third created at another time of the same rank are each ordered by UID against the third and
  not against each other, which breaks transitivity.

`ActivePods.Less` is `JobController.activePodsLess`, on the pods as the Job controller reads them.
A pod's deletion cost is the value `GetDeletionCostFromPodAnnotations` reads from its annotation,
`0` where it has none or cannot read it. `math.Log2` of the `float64` of a duration is taken
exactly, as `Nat.log 2`.
-/

namespace Kubernetes.ReplicaSetController

open JobController

/-- A pod of `ActivePodsWithRanks`, with its UID, its deletion cost and its entry of `Rank`. -/
structure RankedPod where
  pod : Pod
  uid : String
  deletionCost : ℤ
  rank : ℤ
  deriving DecidableEq

/-- The feature gates the comparator reads. -/
structure FeatureGates where
  podDeletionCost : Bool
  logarithmicScaleDown : Bool
  deriving DecidableEq

/-- `podReadyTime`: the Ready condition's last transition for a ready pod, the zero time
otherwise. -/
def podReadyTime (p : Pod) : Option ℤ := if p.ready then p.readyTime else none

/-- `logarithmicRankDiff(t1, t2, now)`: the difference of the base-2 logarithms of the two ages,
`-1` for an age that is not positive. -/
def logarithmicRankDiff (t1 t2 now : ℤ) : ℤ :=
  let d1 := now - t1
  let d2 := now - t2
  let r1 : ℤ := if d1 > 0 then Nat.log 2 d1.toNat else -1
  let r2 : ℤ := if d2 > 0 then Nat.log 2 d2.toNat else -1
  r1 - r2

/-- The comparison of two different times that rules 6 and 8 share: `afterOrZero`, or under
`LogarithmicScaleDown`, with `Now` and both times set, the lower logarithmic rank first and the
lower UID first within a rank. -/
def compareTimes (gates : FeatureGates) (now : Option ℤ) (uid1 uid2 : String)
    (t1 t2 : Option ℤ) : Bool :=
  if !gates.logarithmicScaleDown then afterOrZero t1 t2
  else
    match now, t1, t2 with
    | some now, some t1, some t2 =>
      let rankDiff := logarithmicRankDiff t1 t2 now
      if rankDiff = 0 then uid1 < uid2 else rankDiff < 0
    | _, _, _ => afterOrZero t1 t2

/-- `ActivePodsWithRanks.Less`, with `now` the list's `Now`. -/
def activePodsWithRanksLess (gates : FeatureGates) (now : Option ℤ) (a b : RankedPod) : Bool :=
  let p := a.pod
  let q := b.pod
  if p.nodeName ≠ q.nodeName ∧ (p.nodeName = "" ∨ q.nodeName = "") then p.nodeName = ""
  else if podPhaseToOrdinal p.phase ≠ podPhaseToOrdinal q.phase then
    podPhaseToOrdinal p.phase < podPhaseToOrdinal q.phase
  else if p.ready ≠ q.ready then !p.ready
  else if gates.podDeletionCost ∧ a.deletionCost ≠ b.deletionCost then
    a.deletionCost < b.deletionCost
  else if a.rank ≠ b.rank then a.rank > b.rank
  else if p.ready ∧ q.ready ∧ podReadyTime p ≠ podReadyTime q then
    compareTimes gates now a.uid b.uid (podReadyTime p) (podReadyTime q)
  else if p.restarts ≠ q.restarts then q.restarts < p.restarts
  else if p.creationTimestamp ≠ q.creationTimestamp then
    compareTimes gates now a.uid b.uid p.creationTimestamp q.creationTimestamp
  else false

/-- One level of a lexicographic key: the first components decide where they differ. -/
theorem toLex_lt_iff_ite {α β : Type*} [Preorder α] [DecidableEq α] [LT β] (a b : α) (x y : β) :
    toLex (a, x) < toLex (b, y) ↔ if a = b then x < y else a < b := by
  rw [Prod.Lex.toLex_lt_toLex]
  by_cases h : a = b
  · subst h
    simp
  · simp [h]

/-- A time as the rules on times order it: the zero time first, then the later first. -/
def timeKey : Option ℤ → WithBot ℤ
  | none => ⊥
  | some t => ((-t : ℤ) : WithBot ℤ)

theorem timeKey_injective : Function.Injective timeKey := by
  intro t1 t2 h
  cases t1 <;> cases t2 <;> simp_all [timeKey]

theorem afterOrZero_iff {t1 t2 : Option ℤ} (h : t1 ≠ t2) :
    afterOrZero t1 t2 = true ↔ timeKey t1 < timeKey t2 := by
  cases t1 <;> cases t2 <;> simp_all [afterOrZero, timeKey]

/-- Whether a pod is assigned to a node; rule 1 orders the unassigned first. -/
def assigned (p : Pod) : Bool := p.nodeName ≠ ""

theorem rule_assigned (p q : Pod) :
    (p.nodeName ≠ q.nodeName ∧ (p.nodeName = "" ∨ q.nodeName = "")) ↔ assigned p ≠ assigned q := by
  unfold assigned
  by_cases hp : p.nodeName = "" <;> by_cases hq : q.nodeName = ""
  · simp [hp, hq]
  · simp [hp, hq, Ne.symm hq]
  · simp [hp, hq]
  · simp [hp, hq]

theorem nodeName_empty_iff {p q : Pod} (h : assigned p ≠ assigned q) :
    decide (p.nodeName = "") = true ↔ assigned p < assigned q := by
  unfold assigned at h ⊢
  by_cases hp : p.nodeName = "" <;> by_cases hq : q.nodeName = "" <;> simp_all

theorem not_ready_iff {p q : Pod} (h : p.ready ≠ q.ready) : (!p.ready) = true ↔ p.ready < q.ready := by
  cases hp : p.ready <;> cases hq : q.ready <;> simp_all

/-- The ready time decides for two pods of one readiness exactly where both are ready and their
ready times differ. -/
theorem rule_readyTime {p q : Pod} (hready : p.ready = q.ready) :
    (p.ready ∧ q.ready ∧ podReadyTime p ≠ podReadyTime q) ↔ podReadyTime p ≠ podReadyTime q := by
  unfold podReadyTime
  cases hp : p.ready <;> cases hq : q.ready <;> simp_all

theorem restarts_lt_iff (p q : Pod) :
    decide (q.restarts < p.restarts) = true ↔ -(p.restarts : ℤ) < -(q.restarts : ℤ) := by
  simp

theorem compareTimes_of_not_logarithmic {gates : FeatureGates}
    (hlog : gates.logarithmicScaleDown = false) (now : Option ℤ) (uid1 uid2 : String)
    (t1 t2 : Option ℤ) : compareTimes gates now uid1 uid2 t1 t2 = afterOrZero t1 t2 := by
  simp [compareTimes, hlog]

/-- The deletion cost as rule 4 reads it: only behind `PodDeletionCost`. -/
def costKey (gates : FeatureGates) (a : RankedPod) : ℤ :=
  if gates.podDeletionCost then a.deletionCost else 0

theorem rule_cost (gates : FeatureGates) (a b : RankedPod) :
    (gates.podDeletionCost ∧ a.deletionCost ≠ b.deletionCost) ↔ costKey gates a ≠ costKey gates b := by
  unfold costKey
  cases gates.podDeletionCost <;> simp

theorem cost_lt_iff {gates : FeatureGates} {a b : RankedPod}
    (h : gates.podDeletionCost ∧ a.deletionCost ≠ b.deletionCost) :
    decide (a.deletionCost < b.deletionCost) = true ↔ costKey gates a < costKey gates b := by
  simp [costKey, h.1]

/-- The key of `ActivePodsWithRanks.Less` without `LogarithmicScaleDown`: assignment, phase,
readiness, deletion cost, rank (higher first), ready time of a ready pod, restarts (more first),
creation time. -/
def rankedKey (gates : FeatureGates) (a : RankedPod) :
    Lex (Bool × Lex (ℕ × Lex (Bool × Lex (ℤ × Lex (ℤ × Lex (WithBot ℤ ×
      Lex (ℤ × WithBot ℤ))))))) :=
  toLex (assigned a.pod, toLex (podPhaseToOrdinal a.pod.phase, toLex (a.pod.ready,
    toLex (costKey gates a, toLex (-a.rank, toLex (timeKey (podReadyTime a.pod),
      toLex (-(a.pod.restarts : ℤ), timeKey a.pod.creationTimestamp)))))))

theorem activePodsWithRanksLess_iff_key {gates : FeatureGates}
    (hlog : gates.logarithmicScaleDown = false) (now : Option ℤ) (a b : RankedPod) :
    activePodsWithRanksLess gates now a b = true ↔ rankedKey gates a < rankedKey gates b := by
  simp only [rankedKey, toLex_lt_iff_ite]
  unfold activePodsWithRanksLess
  simp only [compareTimes_of_not_logarithmic hlog]
  by_cases h1 : assigned a.pod = assigned b.pod
  swap
  · rw [if_pos ((rule_assigned a.pod b.pod).mpr h1), if_neg h1, nodeName_empty_iff h1]
  rw [if_neg (mt (rule_assigned a.pod b.pod).mp (not_not.mpr h1)), if_pos h1]
  by_cases h2 : podPhaseToOrdinal a.pod.phase = podPhaseToOrdinal b.pod.phase
  swap
  · rw [if_pos h2, if_neg h2, decide_eq_true_iff]
  rw [if_neg (not_not.mpr h2), if_pos h2]
  by_cases h3 : a.pod.ready = b.pod.ready
  swap
  · rw [if_pos h3, if_neg h3, not_ready_iff h3]
  rw [if_neg (not_not.mpr h3), if_pos h3]
  by_cases h4 : costKey gates a = costKey gates b
  swap
  · have h4' := (rule_cost gates a b).mpr h4
    rw [if_pos h4', if_neg h4, cost_lt_iff h4']
  rw [if_neg (mt (rule_cost gates a b).mp (not_not.mpr h4)), if_pos h4]
  by_cases h5 : a.rank = b.rank
  swap
  · rw [if_pos h5, if_neg (show ¬-a.rank = -b.rank by omega)]
    simp only [decide_eq_true_eq, gt_iff_lt, neg_lt_neg_iff]
  rw [if_neg (not_not.mpr h5), if_pos (show -a.rank = -b.rank by rw [h5])]
  by_cases h6 : podReadyTime a.pod = podReadyTime b.pod
  swap
  · rw [if_pos ((rule_readyTime h3).mpr h6), if_neg (timeKey_injective.ne h6), afterOrZero_iff h6]
  rw [if_neg (mt (rule_readyTime h3).mp (not_not.mpr h6)), if_pos (congrArg timeKey h6)]
  by_cases h7 : a.pod.restarts = b.pod.restarts
  swap
  · rw [if_pos h7, if_neg (show ¬-(a.pod.restarts : ℤ) = -(b.pod.restarts : ℤ) by omega),
      restarts_lt_iff]
  rw [if_neg (not_not.mpr h7),
    if_pos (show -(a.pod.restarts : ℤ) = -(b.pod.restarts : ℤ) by rw [h7])]
  by_cases h8 : a.pod.creationTimestamp = b.pod.creationTimestamp
  · rw [if_neg (not_not.mpr h8), h8]
    simp
  · rw [if_pos h8, afterOrZero_iff h8]

/-- **Without `LogarithmicScaleDown`, `ActivePodsWithRanks.Less` is a strict weak order**, for
every `Now` and every setting of `PodDeletionCost`. -/
theorem isStrictWeakOrder_activePodsWithRanksLess {gates : FeatureGates}
    (hlog : gates.logarithmicScaleDown = false) (now : Option ℤ) :
    IsStrictWeakOrder RankedPod (fun a b => activePodsWithRanksLess gates now a b = true) := by
  have hkey := GoHeap.isStrictWeakOrder_key (rankedKey gates)
  simp only [decide_eq_true_eq] at hkey
  simp only [activePodsWithRanksLess_iff_key hlog]
  exact hkey

/-- `ActivePods.Less` is `ActivePodsWithRanks.Less` without the gates, on pods of one rank. -/
theorem activePodsLess_eq_withRanks (p q : Pod) :
    activePodsLess p q = activePodsWithRanksLess ⟨false, false⟩ none ⟨p, "", 0, 0⟩ ⟨q, "", 0, 0⟩ := by
  unfold activePodsLess activePodsWithRanksLess
  simp only [@compareTimes_of_not_logarithmic ⟨false, false⟩ rfl]
  -- only rule 6 reads the pods differently: the ready times of two ready pods
  by_cases hready : p.ready = true ∧ q.ready = true
  · simp [podReadyTime, hready.1, hready.2]
  · have hrule : ¬(p.ready = true ∧ q.ready = true ∧ p.readyTime ≠ q.readyTime) :=
      fun h => hready ⟨h.1, h.2.1⟩
    have hrule' : ¬(p.ready = true ∧ q.ready = true ∧ podReadyTime p ≠ podReadyTime q) :=
      fun h => hready ⟨h.1, h.2.1⟩
    simp only [hrule, hrule', if_false]
    simp

/-- **`ActivePods.Less` is a strict weak order.** -/
theorem isStrictWeakOrder_activePodsLess :
    IsStrictWeakOrder Pod (fun p q => activePodsLess p q = true) := by
  have hkey := GoHeap.isStrictWeakOrder_key fun p : Pod => rankedKey ⟨false, false⟩ ⟨p, "", 0, 0⟩
  simp only [decide_eq_true_eq] at hkey
  simp only [activePodsLess_eq_withRanks, @activePodsWithRanksLess_iff_key ⟨false, false⟩ rfl]
  exact hkey

/-! ## Under `LogarithmicScaleDown` -/

/-- A running, unready pod on `node-1` with UID `uid`, created at `created`. -/
def createdAt (uid : String) (created : ℤ) : RankedPod :=
  ⟨⟨uid, .running, false, none, "node-1", false, none, 0, some created⟩, uid, 0, 0⟩

/-- **Not transitive.** Under `LogarithmicScaleDown`, at `Now` 10000 ns: `a` and `c` are created
at 9000 ns and `b` at 9400 ns, ages 1000 and 600 ns of one base-2 rank. `a` and `b` are ordered by
UID, and so are `b` and `c`, but `a` and `c`, created at the same time, are not ordered. -/
theorem activePodsWithRanksLess_not_transitive :
    activePodsWithRanksLess ⟨true, true⟩ (some 10000) (createdAt "a" 9000) (createdAt "b" 9400) = true ∧
      activePodsWithRanksLess ⟨true, true⟩ (some 10000) (createdAt "b" 9400)
        (createdAt "c" 9000) = true ∧
      activePodsWithRanksLess ⟨true, true⟩ (some 10000) (createdAt "a" 9000)
        (createdAt "c" 9000) = false ∧
      ¬IsStrictWeakOrder RankedPod
        (fun a b => activePodsWithRanksLess ⟨true, true⟩ (some 10000) a b = true) := by
  have hab : activePodsWithRanksLess ⟨true, true⟩ (some 10000) (createdAt "a" 9000)
      (createdAt "b" 9400) = true := by decide
  have hbc : activePodsWithRanksLess ⟨true, true⟩ (some 10000) (createdAt "b" 9400)
      (createdAt "c" 9000) = true := by decide
  have hac : activePodsWithRanksLess ⟨true, true⟩ (some 10000) (createdAt "a" 9000)
      (createdAt "c" 9000) = false := by decide
  refine ⟨hab, hbc, hac, fun hswo => ?_⟩
  have := hswo.trans _ _ _ hab hbc
  rw [hac] at this
  exact Bool.false_ne_true this

end Kubernetes.ReplicaSetController
