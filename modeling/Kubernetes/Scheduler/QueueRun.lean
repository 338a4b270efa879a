import Kubernetes.Scheduler.QueueInv
import Kubernetes.Foundations.Reach

/-!
# Runs of the scheduling queue

The queue as a labelled transition system: a `Call` is one method call on the queue, `Step` what
it does, and `Reachable` the queues a run of calls builds from `NewPriorityQueue`. The calls run
one at a time under the queue's lock, at any clock times.

`reachable_inv_pop_min`: every reachable queue satisfies `PriorityQueue.Inv` (three places that
share no key, two lawful heaps, a consistent nominator, `moveRequestCycle ≤ schedulingCycle`),
and `Pop` returns at once while `activeQ` is not empty, a pod of `activeQ` before which no other
pod of `activeQ` comes.

`addUnschedulableIfNotPresent_after_pop`: the counters `schedulingCycle` and `moveRequestCycle`
decide where a pod returned after a failed attempt goes. Every move request since its `Pop`
sends it to `podBackoffQ`, and without one it goes to `unschedulableQ`. A move request is a
call of one of the three move events, whatever pods it moves, or a
`flushUnschedulableQLeftover` that finds pods to move; one that finds none records nothing.
-/

namespace Kubernetes.Scheduler

open Heap

namespace PriorityQueue

variable {P κ υ : Type*}

/-- The calls the scheduler and its event handlers make on the queue, with the clock and, for the
calls that range over `unschedulableQ`, the order Go ranges over it in. -/
inductive Call (P κ : Type*)
  | add (pod : P) (now : ℤ)
  | addUnschedulableIfNotPresent (pInfo : QueuedPodInfo P) (podSchedulingCycle now : ℤ)
  | pop
  | update (oldPod newPod : P) (now : ℤ)
  | delete (pod : P)
  | moveAllToActiveOrBackoffQueue (event : String) (order : List κ) (now : ℤ)
  | assignedPodAdded (order : List κ) (termMatches : QueuedPodInfo P → Bool) (now : ℤ)
  | assignedPodUpdated (order : List κ) (termMatches : QueuedPodInfo P → Bool) (now : ℤ)
  | flushBackoffQCompleted (now : ℤ)
  | flushUnschedulableQLeftover (order : List κ) (now : ℤ)
  | close
  | nominate (call : NominatedPodMap.Call P)

/-- `order` is an order Go may range over `unschedulableQ` in: each of its keys once. -/
def IterationOrder (q : PriorityQueue P κ υ) (order : List κ) : Prop :=
  order.Nodup ∧ ∀ k, k ∈ order ↔ (q.unschedulableQ.podInfoMap k).isSome

/-- Whether a call records a move request in `moveRequestCycle`: the three move events always
do, and `flushUnschedulableQLeftover` when it finds pods to move. -/
def Call.requestsMove (q : PriorityQueue P κ υ) : Call P κ → Bool
  | .moveAllToActiveOrBackoffQueue .. => true
  | .assignedPodAdded .. => true
  | .assignedPodUpdated .. => true
  | .flushUnschedulableQLeftover order now =>
    decide ((q.unschedulablePodsWhere order fun pInfo =>
      decide (now - pInfo.timestamp > unschedulableQTimeInterval)).length > 0)
  | _ => false

variable [DecidableEq κ] [DecidableEq υ] [Inhabited P] (c : Config P κ υ)

/-- One call on the queue. A call that returns an error leaves the queue as it was and a `Pop`
on an empty open queue waits, so neither is a step. The informer calls `Update` with two versions
of one pod, so with one key. -/
inductive Step : Call P κ → PriorityQueue P κ υ → PriorityQueue P κ υ → Prop
  | add (q : PriorityQueue P κ υ) (pod : P) (now : ℤ) : Step (.add pod now) q (q.add c pod now)
  | addUnschedulableIfNotPresent {q q' : PriorityQueue P κ υ} {pInfo : QueuedPodInfo P}
      {podSchedulingCycle now : ℤ}
      (h : q.addUnschedulableIfNotPresent c pInfo podSchedulingCycle now = .ok q') :
      Step (.addUnschedulableIfNotPresent pInfo podSchedulingCycle now) q q'
  | pop {q q' : PriorityQueue P κ υ} {r : Except (QueueError P) (QueuedPodInfo P)}
      (h : q.pop c = some (r, q')) : Step .pop q q'
  | update (q : PriorityQueue P κ υ) {oldPod newPod : P} (now : ℤ)
      (hkey : c.key oldPod = c.key newPod) :
      Step (.update oldPod newPod now) q (q.update c oldPod newPod now)
  | delete (q : PriorityQueue P κ υ) (pod : P) : Step (.delete pod) q (q.delete c pod)
  | moveAllToActiveOrBackoffQueue (q : PriorityQueue P κ υ) (event : String) {order : List κ}
      (now : ℤ) (ho : q.IterationOrder order) :
      Step (.moveAllToActiveOrBackoffQueue event order now) q
        (q.moveAllToActiveOrBackoffQueue c event order now)
  | assignedPodAdded (q : PriorityQueue P κ υ) {order : List κ}
      (termMatches : QueuedPodInfo P → Bool) (now : ℤ) (ho : q.IterationOrder order) :
      Step (.assignedPodAdded order termMatches now) q (q.assignedPodAdded c order termMatches now)
  | assignedPodUpdated (q : PriorityQueue P κ υ) {order : List κ}
      (termMatches : QueuedPodInfo P → Bool) (now : ℤ) (ho : q.IterationOrder order) :
      Step (.assignedPodUpdated order termMatches now) q
        (q.assignedPodUpdated c order termMatches now)
  | flushBackoffQCompleted (q : PriorityQueue P κ υ) (now : ℤ) :
      Step (.flushBackoffQCompleted now) q (q.flushBackoffQCompleted c now)
  | flushUnschedulableQLeftover (q : PriorityQueue P κ υ) {order : List κ} (now : ℤ)
      (ho : q.IterationOrder order) :
      Step (.flushUnschedulableQLeftover order now) q (q.flushUnschedulableQLeftover c order now)
  | close (q : PriorityQueue P κ υ) : Step .close q q.close
  | nominate (q : PriorityQueue P κ υ) (call : NominatedPodMap.Call P) :
      Step (.nominate call) q
        { q with nominator := q.nominator.perform c.uid c.nominatedNodeName call }

/-- The queues a run of calls builds from `NewPriorityQueue`. -/
def Reachable (q : PriorityQueue P κ υ) : Prop :=
  Reach.Reachable (fun q => q = new) (Step c) q

/-- A step that records no move request. -/
def QuietStep (a : Call P κ) (q q' : PriorityQueue P κ υ) : Prop :=
  Step c a q q' ∧ a.requestsMove q = false

/-! ## The invariant along every run -/

variable {c} {q q' : PriorityQueue P κ υ} {a : Call P κ}

section Order

variable (hw : IsStrictWeakOrder (QueuedPodInfo P) (fun a b => c.lessFn a b = true))
include hw

/-- **Every call keeps the invariant.** -/
theorem Inv.step (hi : Inv c q) (h : Step c a q q') : Inv c q' := by
  cases h with
  | add _ pod now => exact hi.add hw pod now
  | addUnschedulableIfNotPresent h => exact hi.addUnschedulableIfNotPresent hw h
  | pop h => exact hi.pop hw h
  | update _ now hkey => exact hi.update hw hkey now
  | delete _ pod => exact hi.delete hw pod
  | moveAllToActiveOrBackoffQueue _ event now ho =>
    exact hi.moveAllToActiveOrBackoffQueue hw event ho.1 now
  | assignedPodAdded _ termMatches now ho => exact hi.assignedPodAdded hw ho.1 termMatches now
  | assignedPodUpdated _ termMatches now ho => exact hi.assignedPodUpdated hw ho.1 termMatches now
  | flushBackoffQCompleted _ now => exact hi.flushBackoffQCompleted hw now
  | flushUnschedulableQLeftover _ now ho => exact hi.flushUnschedulableQLeftover hw ho.1 now
  | close => exact hi.close
  | nominate _ call => exact hi.nominate call

omit [DecidableEq υ] in
/-- `Pop` on a queue whose `activeQ` is not empty does not wait: it returns the first pod of
`activeQ` and counts a cycle. -/
theorem Inv.pop_ok (hi : Inv c q) (hpos : 0 < q.activeQ.queue.length) :
    ∃ v, q.pop c = some (.ok { v with attempts := v.attempts + 1 },
        { q with activeQ := (Heap.pop c.lessFn q.activeQ).2,
                 schedulingCycle := q.schedulingCycle + 1 }) ∧
      getByKey q.activeQ (c.podInfoKeyFunc v) = some v := by
  obtain ⟨v, hv, -, -, hget, -, -⟩ := hi.activeQ.pop_spec hw hpos
  refine ⟨v, ?_, hget⟩
  have hpair : Heap.pop c.lessFn q.activeQ = (.ok v, (Heap.pop c.lessFn q.activeQ).2) :=
    Prod.ext hv rfl
  have hlen : Heap.len q.activeQ ≠ 0 := Nat.pos_iff_ne_zero.mp hpos
  unfold PriorityQueue.pop
  rw [if_neg hlen, hpair]

theorem invariant_inv : Reach.Invariant (fun q => q = new) (Step c) (Inv c) :=
  ⟨by rintro _ rfl; exact inv_new c, fun _ _ _ hi h => hi.step hw h⟩

theorem Reachable.inv (hq : Reachable c q) : Inv c q := (invariant_inv hw).holds hq

/-- Every reachable queue satisfies the invariant, its `Pop` returns at once while `activeQ` is
not empty, and what it returns is a pod of `activeQ` before which no pod of `activeQ` comes. -/
theorem reachable_inv_pop_min (hq : Reachable c q) :
    Inv c q ∧ (0 < q.activeQ.queue.length → ∃ pInfo q', q.pop c = some (.ok pInfo, q')) ∧
      ∀ pInfo q', q.pop c = some (.ok pInfo, q') →
      ∃ v, getByKey q.activeQ (c.podInfoKeyFunc v) = some v ∧
        pInfo = { v with attempts := v.attempts + 1 } ∧
        ∀ k w, getByKey q.activeQ k = some w → c.lessFn w v = false := by
  have hi := hq.inv hw
  refine ⟨hi, fun hpos => ?_, fun pInfo q' h => ?_⟩
  · obtain ⟨v, hpop, -⟩ := hi.pop_ok hw hpos
    exact ⟨_, _, hpop⟩
  · rcases hi.pop_spec hw h with ⟨hr, -⟩ | ⟨v, hr, hget, hmin, -⟩
    · cases hr
    · exact ⟨v, hget, Except.ok.inj hr, hmin⟩

/-- `Add` queues the pod in `activeQ` under its key. -/
theorem Inv.getByKey_add_activeQ (hi : Inv c q) (pod : P) (now : ℤ) :
    getByKey (q.add c pod now).activeQ =
      Function.update (getByKey q.activeQ) (c.key pod) (some (newQueuedPodInfo pod now)) :=
  (hi.activeQ.add_spec hw (newQueuedPodInfo pod now)).2

end Order

/-- A queue of pods that are their own keys and UIDs, sorted by number, with the default
backoff. -/
def natConfig : Config ℕ ℕ ℕ :=
  ⟨id, id, fun _ => "", fun a b => a != b, fun a b => decide (a.pod < b.pod),
    defaultPodInitialBackoffDuration, defaultPodMaxBackoffDuration, []⟩

theorem natConfig_lessFn_order :
    IsStrictWeakOrder (QueuedPodInfo ℕ) (fun a b => natConfig.lessFn a b = true) :=
  GoHeap.isStrictWeakOrder_key QueuedPodInfo.pod

/-- The queue after `Add` of pod 0 at time 0. -/
def addZero : PriorityQueue ℕ ℕ ℕ := new.add natConfig 0 0

theorem reachable_addZero : Reachable natConfig addZero :=
  .step (.add 0 0) (.init rfl) (.add _ 0 0)

/-- The queue after `Add` of pods 2, 0 and 1, in that order, at time 0. -/
def addThree : PriorityQueue ℕ ℕ ℕ := ((new.add natConfig 2 0).add natConfig 0 0).add natConfig 1 0

theorem reachable_addThree : Reachable natConfig addThree :=
  .step (.add 1 0) (.step (.add 0 0) (.step (.add 2 0) (.init rfl) (.add _ 2 0)) (.add _ 0 0))
    (.add _ 1 0)

/-- `activeQ` of `addThree` holds pods 2, 0 and 1 as `Add` queued them. -/
theorem getByKey_addThree : getByKey addThree.activeQ =
    Function.update (Function.update (Function.update (getByKey Heap.Data.empty) 2
      (some ⟨2, 0, 0, 0, []⟩)) 0 (some ⟨0, 0, 0, 0, []⟩)) 1 (some ⟨1, 0, 0, 0, []⟩) := by
  have h₀ := inv_new (κ := ℕ) (υ := ℕ) natConfig
  have h₁ := h₀.add natConfig_lessFn_order 2 0
  have h₂ := h₁.add natConfig_lessFn_order 0 0
  rw [addThree, Inv.getByKey_add_activeQ natConfig_lessFn_order h₂,
    Inv.getByKey_add_activeQ natConfig_lessFn_order h₁,
    Inv.getByKey_add_activeQ natConfig_lessFn_order h₀]
  rfl

theorem length_pos_addThree : 0 < addThree.activeQ.queue.length := by
  have hi := Reachable.inv natConfig_lessFn_order reachable_addThree
  have hmem : 0 ∈ addThree.activeQ.queue := by
    rw [← hi.activeQ.getByKey_eq_none.not_left, getByKey_addThree]
    simp
  exact List.length_pos_of_mem hmem

/-- The pod of `addThree`'s `activeQ` before which no other comes is pod 0. -/
theorem least_addThree {v : QueuedPodInfo ℕ}
    (hv : getByKey addThree.activeQ (natConfig.podInfoKeyFunc v) = some v)
    (hleast : ∀ k w, getByKey addThree.activeQ k = some w → natConfig.lessFn w v = false) :
    v = ⟨0, 0, 0, 0, []⟩ := by
  have h0 := hleast 0 ⟨0, 0, 0, 0, []⟩ (by simp [getByKey_addThree])
  have hpod : v.pod = 0 := by
    simpa [natConfig] using h0
  have hkey : natConfig.podInfoKeyFunc v = 0 := hpod
  rw [hkey, getByKey_addThree] at hv
  simpa [Function.update_apply] using hv.symm

/-- On `addThree`, `Pop` returns pod 0, the least of the three. -/
theorem reachable_inv_pop_min_addThree :
    Inv natConfig addThree ∧ ∃ q', addThree.pop natConfig = some (.ok ⟨0, 0, 1, 0, []⟩, q') := by
  obtain ⟨hi, hok, hmin⟩ := reachable_inv_pop_min natConfig_lessFn_order reachable_addThree
  obtain ⟨pInfo, q', hpop⟩ := hok length_pos_addThree
  obtain ⟨v, hv, rfl, hleast⟩ := hmin pInfo q' hpop
  rw [least_addThree hv hleast] at hpop
  exact ⟨hi, q', hpop⟩

/-- `Pop` on `addThree` returns pod 0 with its first attempt counted. -/
theorem pop_addThree : ∃ q', addThree.pop natConfig = some (.ok ⟨0, 0, 1, 0, []⟩, q') := by
  have hi := Reachable.inv natConfig_lessFn_order reachable_addThree
  obtain ⟨v, hpop, -⟩ := hi.pop_ok natConfig_lessFn_order length_pos_addThree
  rcases hi.pop_spec natConfig_lessFn_order hpop with ⟨h, -⟩ | ⟨w, hr, hw, hleast, -⟩
  · cases h
  · rw [hr, least_addThree hw hleast] at hpop
    exact ⟨_, hpop⟩

/-- The queue `Pop` leaves on `addZero`. -/
def popZero : PriorityQueue ℕ ℕ ℕ :=
  { addZero with activeQ := (Heap.pop natConfig.lessFn addZero.activeQ).2, schedulingCycle := 1 }

/-- `Pop` on `addZero` returns pod 0 with its first attempt counted. -/
theorem pop_addZero : addZero.pop natConfig = some (.ok ⟨0, 0, 1, 0, []⟩, popZero) := by
  have hi := Reachable.inv natConfig_lessFn_order reachable_addZero
  have hget : getByKey addZero.activeQ = Function.update (getByKey Heap.Data.empty) 0
      (some ⟨0, 0, 0, 0, []⟩) :=
    ((inv_empty _ _).add_spec natConfig_lessFn_order (newQueuedPodInfo 0 0)).2
  have hmem : 0 ∈ addZero.activeQ.queue := by
    rw [← hi.activeQ.getByKey_eq_none.not_left, hget, Function.update_self]
    exact Option.some_ne_none _
  obtain ⟨v, hpop, hv⟩ := hi.pop_ok natConfig_lessFn_order (List.length_pos_of_mem hmem)
  have hkey : natConfig.podInfoKeyFunc v = 0 := by
    by_contra hne
    rw [hget, Function.update_of_ne hne] at hv
    cases hv
  rw [hget, hkey, Function.update_self, Option.some.injEq] at hv
  rw [hpop, ← hv]
  rfl

/-! ## The two counters along a run -/

section Cycles

omit [Inhabited P] in
theorem addUnschedulableIfNotPresent_cycles {pInfo : QueuedPodInfo P} {cycle now : ℤ}
    (h : q.addUnschedulableIfNotPresent c pInfo cycle now = .ok q') :
    q'.schedulingCycle = q.schedulingCycle ∧ q'.moveRequestCycle = q.moveRequestCycle := by
  unfold PriorityQueue.addUnschedulableIfNotPresent at h
  dsimp only at h
  split_ifs at h <;> cases h <;> exact ⟨rfl, rfl⟩

omit [DecidableEq υ] [Inhabited P] in
/-- `Pop` counts a cycle when it returns a pod, and no other. -/
theorem pop_cycles {r : Except (QueueError P) (QueuedPodInfo P)} (h : q.pop c = some (r, q')) :
    q'.moveRequestCycle = q.moveRequestCycle ∧ q.schedulingCycle ≤ q'.schedulingCycle ∧
      ∀ pInfo, r = .ok pInfo → q'.schedulingCycle = q.schedulingCycle + 1 := by
  unfold PriorityQueue.pop at h
  split at h
  · split at h
    · cases h
      exact ⟨rfl, le_rfl, fun _ h => by cases h⟩
    · cases h
  · split at h <;> cases h
    · exact ⟨rfl, le_rfl, fun _ h => by cases h⟩
    · exact ⟨rfl, Int.le_add_one le_rfl, fun _ _ => rfl⟩

omit [Inhabited P] in
theorem update_cycles (oldPod newPod : P) (now : ℤ) :
    (q.update c oldPod newPod now).schedulingCycle = q.schedulingCycle ∧
      (q.update c oldPod newPod now).moveRequestCycle = q.moveRequestCycle := by
  unfold PriorityQueue.update
  dsimp only
  split
  · exact ⟨rfl, rfl⟩
  split
  · exact ⟨rfl, rfl⟩
  split
  · split_ifs <;> exact ⟨rfl, rfl⟩
  · exact ⟨rfl, rfl⟩

omit [Inhabited P] in
theorem delete_cycles (pod : P) :
    (q.delete c pod).schedulingCycle = q.schedulingCycle ∧
      (q.delete c pod).moveRequestCycle = q.moveRequestCycle := by
  unfold PriorityQueue.delete
  dsimp only
  split <;> exact ⟨rfl, rfl⟩

omit [DecidableEq υ] [Inhabited P] in
theorem flushBackoffQCompletedLoop_cycles (now : ℤ) :
    ∀ (n : ℕ) (q : PriorityQueue P κ υ),
      (flushBackoffQCompletedLoop c now n q).schedulingCycle = q.schedulingCycle ∧
        (flushBackoffQCompletedLoop c now n q).moveRequestCycle = q.moveRequestCycle
  | 0, _ => ⟨rfl, rfl⟩
  | n + 1, q => by
    unfold PriorityQueue.flushBackoffQCompletedLoop
    split
    · exact ⟨rfl, rfl⟩
    split
    · exact ⟨rfl, rfl⟩
    split
    · exact ⟨rfl, rfl⟩
    · exact flushBackoffQCompletedLoop_cycles now n _

/-- A move sets `moveRequestCycle` to `schedulingCycle`, which it leaves as it is. -/
theorem movePodsToActiveOrBackoffQueue_cycles (podInfoList : List (QueuedPodInfo P))
    (event : String) (now : ℤ) :
    (q.movePodsToActiveOrBackoffQueue c podInfoList event now).schedulingCycle =
        q.schedulingCycle ∧
      (q.movePodsToActiveOrBackoffQueue c podInfoList event now).moveRequestCycle =
        q.schedulingCycle :=
  ⟨(movePodsLoop_cycles event now podInfoList q).1, rfl⟩

/-- **What one step does to the counters**: `schedulingCycle` never decreases, and
`moveRequestCycle` changes only on a move request, to the `schedulingCycle` of the moment. -/
theorem Step.cycles (h : Step c a q q') :
    q.schedulingCycle ≤ q'.schedulingCycle ∧
      q'.moveRequestCycle = if a.requestsMove q then q.schedulingCycle else q.moveRequestCycle := by
  have same : q'.schedulingCycle = q.schedulingCycle → q'.moveRequestCycle = q.moveRequestCycle →
      a.requestsMove q = false →
      q.schedulingCycle ≤ q'.schedulingCycle ∧
        q'.moveRequestCycle = if a.requestsMove q then q.schedulingCycle else q.moveRequestCycle := by
    intro h₁ h₂ h₃
    rw [h₁, h₂, h₃]
    exact ⟨le_rfl, rfl⟩
  cases h with
  | add => exact same rfl rfl rfl
  | addUnschedulableIfNotPresent h =>
    exact same (addUnschedulableIfNotPresent_cycles h).1 (addUnschedulableIfNotPresent_cycles h).2 rfl
  | pop h =>
    obtain ⟨h₁, h₂, -⟩ := pop_cycles h
    exact ⟨h₂, h₁⟩
  | update _ now => exact same (update_cycles _ _ now).1 (update_cycles _ _ now).2 rfl
  | delete _ pod => exact same (delete_cycles pod).1 (delete_cycles pod).2 rfl
  | moveAllToActiveOrBackoffQueue _ event now =>
    obtain ⟨h₁, h₂⟩ := movePodsToActiveOrBackoffQueue_cycles (q := q) (c := c)
      (q.unschedulablePodsWhere _ fun _ => true) event now
    exact ⟨h₁.ge, h₂⟩
  | assignedPodAdded _ termMatches now =>
    obtain ⟨h₁, h₂⟩ := movePodsToActiveOrBackoffQueue_cycles (q := q) (c := c)
      (q.getUnschedulablePodsWithMatchingAffinityTerm _ termMatches) assignedPodAdd now
    exact ⟨h₁.ge, h₂⟩
  | assignedPodUpdated _ termMatches now =>
    obtain ⟨h₁, h₂⟩ := movePodsToActiveOrBackoffQueue_cycles (q := q) (c := c)
      (q.getUnschedulablePodsWithMatchingAffinityTerm _ termMatches) assignedPodUpdate now
    exact ⟨h₁.ge, h₂⟩
  | flushBackoffQCompleted _ now =>
    obtain ⟨h₁, h₂⟩ := flushBackoffQCompletedLoop_cycles (c := c) now (Heap.len q.podBackoffQ) q
    exact same h₁ h₂ rfl
  | @flushUnschedulableQLeftover _ order now =>
    by_cases hmove : (q.unschedulablePodsWhere order fun pInfo =>
      decide (now - pInfo.timestamp > unschedulableQTimeInterval)).length > 0
    · have hreq : (Call.flushUnschedulableQLeftover order now).requestsMove q = true :=
        decide_eq_true hmove
      have hflush : q.flushUnschedulableQLeftover c order now =
          q.movePodsToActiveOrBackoffQueue c _ unschedulableTimeout now := if_pos hmove
      rw [hreq, if_pos rfl, hflush]
      obtain ⟨h₁, h₂⟩ := movePodsToActiveOrBackoffQueue_cycles (q := q) (c := c) _
        unschedulableTimeout now
      exact ⟨h₁.ge, h₂⟩
    · have hflush : q.flushUnschedulableQLeftover c order now = q := if_neg hmove
      exact same (by rw [hflush]) (by rw [hflush]) (decide_eq_false hmove)
  | close => exact same rfl rfl rfl
  | nominate => exact same rfl rfl rfl

/-- **No move request is ever ahead of the pops.** -/
theorem invariant_cycles :
    Reach.Invariant (fun q => q = new) (Step c)
      (fun q : PriorityQueue P κ υ => q.moveRequestCycle ≤ q.schedulingCycle) := by
  refine ⟨by rintro _ rfl; exact (inv_new c).moveRequestCycle_le, fun a q q' hle h => ?_⟩
  obtain ⟨hsc, hmrc⟩ := h.cycles
  rw [hmrc]
  split <;> omega

variable {as : List (Call P κ)}

theorem Run.schedulingCycle_le (hr : Reach.Run (Step c) q as q') :
    q.schedulingCycle ≤ q'.schedulingCycle := by
  induction hr with
  | nil => exact le_rfl
  | cons hst _ ih => exact le_trans hst.cycles.1 ih

/-- Once both counters reach `x`, they stay there. -/
theorem Run.le_cycles {x : ℤ} (hr : Reach.Run (Step c) q as q') (hsc : x ≤ q.schedulingCycle)
    (hmrc : x ≤ q.moveRequestCycle) : x ≤ q'.schedulingCycle ∧ x ≤ q'.moveRequestCycle := by
  refine hr.preserves (I := fun s => x ≤ s.schedulingCycle ∧ x ≤ s.moveRequestCycle)
    (fun a t t' _ ht hst => ?_) ⟨hsc, hmrc⟩
  obtain ⟨hsc', hmrc'⟩ := hst.cycles
  rw [hmrc']
  refine ⟨le_trans ht.1 hsc', ?_⟩
  split
  · exact ht.1
  · exact ht.2

/-- A run with no move request leaves `moveRequestCycle` as it is. -/
theorem Run.moveRequestCycle_quiet (hr : Reach.Run (QuietStep c) q as q') :
    q'.moveRequestCycle = q.moveRequestCycle := by
  induction hr with
  | nil => rfl
  | cons hst _ ih =>
    obtain ⟨hstep, hquiet⟩ := hst
    rw [ih, hstep.cycles.2, hquiet]
    rfl

omit [Inhabited P] in
theorem Run.of_quiet (hr : Reach.Run (QuietStep c) q as q') : Reach.Run (Step c) q as q' := by
  induction hr with
  | nil => exact .nil _
  | cons hst _ ih => exact .cons hst.1 ih

end Cycles

/-! ## Where a returned pod goes -/

/-- Where `AddUnschedulableIfNotPresent` puts a pod: in `podBackoffQ` if a move request came in
its cycle or later, and in `unschedulableQ` otherwise. -/
theorem Inv.addUnschedulableIfNotPresent_place (hi : Inv c q) {pInfo : QueuedPodInfo P}
    {cycle now : ℤ} (h : q.addUnschedulableIfNotPresent c pInfo cycle now = .ok q') :
    if cycle ≤ q.moveRequestCycle then
      getByKey q'.podBackoffQ (c.podInfoKeyFunc pInfo) = some { pInfo with timestamp := now } ∧
        q'.unschedulableQ.podInfoMap (c.podInfoKeyFunc pInfo) = none
    else
      q'.unschedulableQ.podInfoMap (c.podInfoKeyFunc pInfo) = some { pInfo with timestamp := now } ∧
        getByKey q'.podBackoffQ (c.podInfoKeyFunc pInfo) = none := by
  have hk : c.podInfoKeyFunc { pInfo with timestamp := now } = c.podInfoKeyFunc pInfo := rfl
  unfold PriorityQueue.addUnschedulableIfNotPresent at h
  dsimp only at h
  split_ifs at h with hu ha hb hmove <;> cases h
  · rw [if_pos hmove]
    obtain ⟨-, hgetb⟩ := hi.podBackoffQ.add_spec c.backoffOrder { pInfo with timestamp := now }
    dsimp only
    rw [hgetb, hk, Function.update_self]
    exact ⟨rfl, by simpa [UnschedulablePodsMap.get, Config.podInfoKeyFunc] using hu⟩
  · rw [if_neg hmove]
    dsimp only
    rw [podInfoMap_addOrUpdate, hk, Function.update_self]
    exact ⟨rfl, by simpa [Heap.get] using hb⟩

omit [Inhabited P] in
/-- `AddUnschedulableIfNotPresent` succeeds on a pod queued nowhere. -/
theorem addUnschedulableIfNotPresent_of_none {pInfo : QueuedPodInfo P} {cycle now : ℤ}
    (hu : q.unschedulableQ.podInfoMap (c.podInfoKeyFunc pInfo) = none)
    (ha : getByKey q.activeQ (c.podInfoKeyFunc pInfo) = none)
    (hb : getByKey q.podBackoffQ (c.podInfoKeyFunc pInfo) = none) :
    ∃ q', q.addUnschedulableIfNotPresent c pInfo cycle now = .ok q' := by
  have hu' : (q.unschedulableQ.get c pInfo.pod).isSome = false := by
    simpa [UnschedulablePodsMap.get, Config.podInfoKeyFunc] using hu
  have ha' : (Heap.get c.podInfoKeyFunc q.activeQ pInfo).isSome = false := by
    simpa [Heap.get] using ha
  have hb' : (Heap.get c.podInfoKeyFunc q.podBackoffQ pInfo).isSome = false := by
    simpa [Heap.get] using hb
  unfold PriorityQueue.addUnschedulableIfNotPresent
  simp only [hu', ha', hb', Bool.false_eq_true, if_false]
  exact ⟨_, rfl⟩

section Return

variable (hw : IsStrictWeakOrder (QueuedPodInfo P) (fun a b => c.lessFn a b = true))
include hw

theorem addUnschedulableIfNotPresent_after_pop {p : QueuedPodInfo P} {q₁ : PriorityQueue P κ υ}
    (hq : Reachable c q) (hpop : q.pop c = some (.ok p, q₁)) :
    (∀ (as : List (Call P κ)) (q₂ q₃ : PriorityQueue P κ υ) (pInfo : QueuedPodInfo P) (now : ℤ),
      Reach.Run (QuietStep c) q₁ as q₂ →
      q₂.addUnschedulableIfNotPresent c pInfo q₁.schedulingCycle now = .ok q₃ →
      q₃.unschedulableQ.podInfoMap (c.podInfoKeyFunc pInfo) = some { pInfo with timestamp := now } ∧
        getByKey q₃.podBackoffQ (c.podInfoKeyFunc pInfo) = none) ∧
    (∀ (as₁ : List (Call P κ)) (a : Call P κ) (as₂ : List (Call P κ))
      (s₁ s₂ q₂ q₃ : PriorityQueue P κ υ) (pInfo : QueuedPodInfo P) (now : ℤ),
      Reach.Run (Step c) q₁ as₁ s₁ → Step c a s₁ s₂ → a.requestsMove s₁ = true →
      Reach.Run (Step c) s₂ as₂ q₂ →
      q₂.addUnschedulableIfNotPresent c pInfo q₁.schedulingCycle now = .ok q₃ →
      getByKey q₃.podBackoffQ (c.podInfoKeyFunc pInfo) = some { pInfo with timestamp := now } ∧
        q₃.unschedulableQ.podInfoMap (c.podInfoKeyFunc pInfo) = none) := by
  have hq₁ : Reachable c q₁ := .step .pop hq (.pop hpop)
  -- right after the `Pop`, `moveRequestCycle` is behind the pod's cycle
  have hbehind : q₁.moveRequestCycle < q₁.schedulingCycle := by
    obtain ⟨hmrc, -, hsc⟩ := pop_cycles hpop
    have := (invariant_cycles (c := c)).holds hq
    rw [hmrc, hsc p rfl]
    omega
  constructor
  · intro as q₂ q₃ pInfo now hr h
    have hi₂ : Inv c q₂ := Reachable.inv hw ((Run.of_quiet hr).reachable hq₁)
    have hplace := hi₂.addUnschedulableIfNotPresent_place h
    rw [if_neg (by rw [Run.moveRequestCycle_quiet hr]; omega)] at hplace
    exact hplace
  · intro as₁ a as₂ s₁ s₂ q₂ q₃ pInfo now hr₁ hst hmove hr₂ h
    have hi₂ : Inv c q₂ := Reachable.inv hw (hr₂.reachable (.step a (hr₁.reachable hq₁) hst))
    -- the move records a cycle no earlier than the pod's, and later moves only raise it
    have hs₁ := Run.schedulingCycle_le hr₁
    obtain ⟨hsc₂, hmrc₂⟩ := hst.cycles
    rw [hmove, if_pos rfl] at hmrc₂
    obtain ⟨-, hmrc⟩ := Run.le_cycles hr₂ (x := q₁.schedulingCycle) (by omega) (by omega)
    have hplace := hi₂.addUnschedulableIfNotPresent_place h
    rw [if_pos hmrc] at hplace
    exact hplace

end Return

/-- The pod `Pop` takes from `addThree` goes to `unschedulableQ` when it returns with no move
request since, and to `podBackoffQ` after one. -/
theorem addUnschedulableIfNotPresent_after_pop_addThree :
    ∃ q₁, addThree.pop natConfig = some (.ok ⟨0, 0, 1, 0, []⟩, q₁) ∧
    (∀ (as : List (Call ℕ ℕ)) (q₂ q₃ : PriorityQueue ℕ ℕ ℕ) (pInfo : QueuedPodInfo ℕ) (now : ℤ),
      Reach.Run (QuietStep natConfig) q₁ as q₂ →
      q₂.addUnschedulableIfNotPresent natConfig pInfo q₁.schedulingCycle now = .ok q₃ →
      q₃.unschedulableQ.podInfoMap (natConfig.podInfoKeyFunc pInfo) =
          some { pInfo with timestamp := now } ∧
        getByKey q₃.podBackoffQ (natConfig.podInfoKeyFunc pInfo) = none) ∧
    (∀ (as₁ : List (Call ℕ ℕ)) (a : Call ℕ ℕ) (as₂ : List (Call ℕ ℕ))
      (s₁ s₂ q₂ q₃ : PriorityQueue ℕ ℕ ℕ) (pInfo : QueuedPodInfo ℕ) (now : ℤ),
      Reach.Run (Step natConfig) q₁ as₁ s₁ → Step natConfig a s₁ s₂ →
      a.requestsMove s₁ = true → Reach.Run (Step natConfig) s₂ as₂ q₂ →
      q₂.addUnschedulableIfNotPresent natConfig pInfo q₁.schedulingCycle now = .ok q₃ →
      getByKey q₃.podBackoffQ (natConfig.podInfoKeyFunc pInfo) =
          some { pInfo with timestamp := now } ∧
        q₃.unschedulableQ.podInfoMap (natConfig.podInfoKeyFunc pInfo) = none) := by
  obtain ⟨q₁, hpop⟩ := pop_addThree
  exact ⟨q₁, hpop,
    addUnschedulableIfNotPresent_after_pop natConfig_lessFn_order reachable_addThree hpop⟩

/-- A move event that concerns every pod can come between a pod's `Pop` and its return and still
leave it in `unschedulableQ`: pod 0 is popped, `flushUnschedulableQLeftover`, whose event every
pod matches, finds nothing to move and records no move request, and the pod, returned in its
cycle, goes to `unschedulableQ`. -/
theorem flushUnschedulableQLeftover_after_pop_unschedulable :
    addZero.pop natConfig = some (.ok ⟨0, 0, 1, 0, []⟩, popZero) ∧
      natConfig.podMatchesEvent ⟨0, 0, 1, 0, []⟩ unschedulableTimeout = true ∧
      Step natConfig (.flushUnschedulableQLeftover [] 0) popZero popZero ∧
      ∃ q₃, popZero.addUnschedulableIfNotPresent natConfig ⟨0, 0, 1, 0, []⟩
          popZero.schedulingCycle 0 = .ok q₃ ∧
        q₃.unschedulableQ.podInfoMap 0 = some ⟨0, 0, 1, 0, []⟩ := by
  have hi₀ := Reachable.inv natConfig_lessFn_order reachable_addZero
  have hi := Reachable.inv natConfig_lessFn_order
    (.step .pop reachable_addZero (.pop pop_addZero) : Reachable natConfig popZero)
  have hu : ∀ k, popZero.unschedulableQ.podInfoMap k = none := fun k => by
    simp [popZero, addZero, PriorityQueue.add, new, Function.update_apply]
  have ha : getByKey popZero.activeQ 0 = none := by
    rcases hi₀.pop_spec natConfig_lessFn_order pop_addZero with ⟨h, -⟩ | ⟨v, hv, -, -, -, hget, -⟩
    · cases h
    · have hv0 : natConfig.podInfoKeyFunc v = 0 :=
        (congrArg QueuedPodInfo.pod (Except.ok.inj hv)).symm
      rw [hget, hv0, Function.update_self]
  have hb : getByKey popZero.podBackoffQ 0 = none := by
    simp [popZero, addZero, PriorityQueue.add, new, Heap.deleteIfPresent, Heap.delete,
      Heap.Data.empty, getByKey]
  obtain ⟨q₃, h₃⟩ : ∃ q₃, popZero.addUnschedulableIfNotPresent natConfig ⟨0, 0, 1, 0, []⟩
      popZero.schedulingCycle 0 = .ok q₃ :=
    addUnschedulableIfNotPresent_of_none (hu 0) ha hb
  have hplace := hi.addUnschedulableIfNotPresent_place h₃
  rw [if_neg (by decide)] at hplace
  refine ⟨pop_addZero, rfl, .flushUnschedulableQLeftover popZero 0 ⟨List.nodup_nil, fun k => ?_⟩,
    q₃, h₃, hplace.1⟩
  simp [hu k]

end PriorityQueue

end Kubernetes.Scheduler
