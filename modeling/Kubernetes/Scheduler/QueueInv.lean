import Mathlib
import Kubernetes.Scheduler.Queue

/-!
# The scheduling queue's invariant

`Separate` says that no key is in two of three maps. The queue's `Inv` asks it of the objects of
`activeQ`, those of `podBackoffQ` and `unschedulableQ`, together with the heap invariant of both
heaps (`Heap.Inv`: representation and heap order), every pod of `unschedulableQ` stored under its
own key, the nominator's invariant, and `moveRequestCycle ≤ schedulingCycle`.

Every method keeps `Inv` (`Inv.add`, `Inv.addUnschedulableIfNotPresent`, `Inv.pop`, `Inv.update`,
`Inv.delete`, `Inv.movePodsToActiveOrBackoffQueue`, `Inv.flushBackoffQCompleted`, ...); each
puts a pod in one place after taking it out of the others, or only takes it out. `Step` is one
call of a method, at any time and in any order of map iteration, and `Reachable` the queues a run
of calls leads to from `NewPriorityQueue`.

The active queue's sort function is a strict weak order, as the scheduler's `PrioritySort` is; the
backoff queue's order compares times, so it is one.
-/

set_option linter.unusedSectionVars false

namespace Kubernetes.Scheduler

open Heap GoHeap

/-! ## Three maps with separate keys -/

section Separate

variable {κ α β γ : Type*} [DecidableEq κ]

/-- No key is in two of the three maps. -/
structure Separate (a : κ → Option α) (b : κ → Option β) (u : κ → Option γ) : Prop where
  ab : ∀ k, a k = none ∨ b k = none
  au : ∀ k, a k = none ∨ u k = none
  bu : ∀ k, b k = none ∨ u k = none

theorem or_update_left {f : κ → Option α} {g : κ → Option β} (h : ∀ j, f j = none ∨ g j = none)
    {k : κ} {x : Option α} (hk : x = none ∨ g k = none) :
    ∀ j, Function.update f k x j = none ∨ g j = none := by
  intro j
  rcases eq_or_ne j k with rfl | hj
  · rw [Function.update_self]
    exact hk
  · rw [Function.update_of_ne hj]
    exact h j

theorem or_update_right {f : κ → Option α} {g : κ → Option β} (h : ∀ j, f j = none ∨ g j = none)
    {k : κ} {x : Option β} (hk : x = none ∨ f k = none) :
    ∀ j, f j = none ∨ Function.update g k x j = none := by
  intro j
  rcases eq_or_ne j k with rfl | hj
  · rw [Function.update_self]
    exact hk.symm
  · rw [Function.update_of_ne hj]
    exact h j

variable {a : κ → Option α} {b : κ → Option β} {u : κ → Option γ} {k : κ}

namespace Separate

theorem put_a (hs : Separate a b u) (hb : b k = none) (hu : u k = none) (x : α) :
    Separate (Function.update a k (some x)) b u :=
  ⟨or_update_left hs.ab (.inr hb), or_update_left hs.au (.inr hu), hs.bu⟩

theorem put_b (hs : Separate a b u) (ha : a k = none) (hu : u k = none) (x : β) :
    Separate a (Function.update b k (some x)) u :=
  ⟨or_update_right hs.ab (.inr ha), hs.au, or_update_left hs.bu (.inr hu)⟩

theorem put_u (hs : Separate a b u) (ha : a k = none) (hb : b k = none) (x : γ) :
    Separate a b (Function.update u k (some x)) :=
  ⟨hs.ab, or_update_right hs.au (.inr ha), or_update_right hs.bu (.inr hb)⟩

theorem erase_a (hs : Separate a b u) (k : κ) : Separate (Function.update a k none) b u :=
  ⟨or_update_left hs.ab (.inl rfl), or_update_left hs.au (.inl rfl), hs.bu⟩

theorem erase_b (hs : Separate a b u) (k : κ) : Separate a (Function.update b k none) u :=
  ⟨or_update_right hs.ab (.inl rfl), hs.au, or_update_left hs.bu (.inl rfl)⟩

theorem erase_u (hs : Separate a b u) (k : κ) : Separate a b (Function.update u k none) :=
  ⟨hs.ab, or_update_right hs.au (.inl rfl), or_update_right hs.bu (.inl rfl)⟩

theorem b_of_a (hs : Separate a b u) {x : α} (h : a k = some x) : b k = none :=
  (hs.ab k).resolve_left (by rw [h]; exact Option.some_ne_none x)

theorem u_of_a (hs : Separate a b u) {x : α} (h : a k = some x) : u k = none :=
  (hs.au k).resolve_left (by rw [h]; exact Option.some_ne_none x)

theorem a_of_b (hs : Separate a b u) {x : β} (h : b k = some x) : a k = none :=
  (hs.ab k).resolve_right (by rw [h]; exact Option.some_ne_none x)

theorem u_of_b (hs : Separate a b u) {x : β} (h : b k = some x) : u k = none :=
  (hs.bu k).resolve_left (by rw [h]; exact Option.some_ne_none x)

theorem a_of_u (hs : Separate a b u) {x : γ} (h : u k = some x) : a k = none :=
  (hs.au k).resolve_right (by rw [h]; exact Option.some_ne_none x)

theorem b_of_u (hs : Separate a b u) {x : γ} (h : u k = some x) : b k = none :=
  (hs.bu k).resolve_right (by rw [h]; exact Option.some_ne_none x)

end Separate

end Separate

/-! ## The invariant -/

variable {P κ υ : Type*} [DecidableEq κ] [DecidableEq υ] [Inhabited P] (c : Config P κ υ)

/-- The order of `podBackoffQ` compares the ends of the backoffs. -/
theorem Config.backoffOrder :
    IsStrictWeakOrder (QueuedPodInfo P) (fun a b => c.podsCompareBackoffCompleted a b = true) :=
  isStrictWeakOrder_key c.getBackoffTime

/-- The queue's invariant. -/
structure PriorityQueue.Inv (q : PriorityQueue P κ υ) : Prop where
  activeQ : Heap.Inv c.podInfoKeyFunc c.lessFn q.activeQ
  podBackoffQ : Heap.Inv c.podInfoKeyFunc c.podsCompareBackoffCompleted q.podBackoffQ
  unschedulableQ : ∀ k pInfo, q.unschedulableQ.podInfoMap k = some pInfo → c.podInfoKeyFunc pInfo = k
  separate : Separate (getByKey q.activeQ) (getByKey q.podBackoffQ) q.unschedulableQ.podInfoMap
  nominator : q.nominator.Inv c.uid
  moveRequestCycle_le : q.moveRequestCycle ≤ q.schedulingCycle

namespace PriorityQueue

@[simp] theorem podInfoMap_delete (u : UnschedulablePodsMap P κ) (pod : P) :
    (u.delete c pod).podInfoMap = Function.update u.podInfoMap (c.key pod) none := rfl

@[simp] theorem podInfoMap_addOrUpdate (u : UnschedulablePodsMap P κ) (pInfo : QueuedPodInfo P) :
    (u.addOrUpdate c pInfo).podInfoMap =
      Function.update u.podInfoMap (c.podInfoKeyFunc pInfo) (some pInfo) := rfl

theorem inv_new : Inv c (new : PriorityQueue P κ υ) :=
  ⟨inv_empty _ _, inv_empty _ _, fun _ _ h => by simp [new] at h,
    ⟨fun _ => .inl (by simp [new, getByKey, Heap.Data.empty]),
      fun _ => .inl (by simp [new, getByKey, Heap.Data.empty]),
      fun _ => .inl (by simp [new, getByKey, Heap.Data.empty])⟩,
    NominatedPodMap.inv_empty _, by simp [new]⟩

variable {c} {q : PriorityQueue P κ υ}
variable (hw : IsStrictWeakOrder (QueuedPodInfo P) (fun a b => c.lessFn a b = true))
include hw

/-- **`Add` keeps the invariant**: the pod goes to `activeQ` and out of the other two. -/
theorem Inv.add (hi : Inv c q) (pod : P) (now : ℤ) : Inv c (q.add c pod now) := by
  obtain ⟨ha, hgeta⟩ := hi.activeQ.add_spec hw (newQueuedPodInfo pod now)
  obtain ⟨hb, hgetb⟩ :=
    hi.podBackoffQ.deleteIfPresent_spec c.backoffOrder (newQueuedPodInfo pod now)
  have hk : c.podInfoKeyFunc (newQueuedPodInfo pod now) = c.key pod := rfl
  unfold PriorityQueue.add
  dsimp only
  refine ⟨ha, hb, keyed_erase c.podInfoKeyFunc hi.unschedulableQ, ?_,
    hi.nominator.add _ _ _, hi.moveRequestCycle_le⟩
  rw [hgeta, hgetb, hk, podInfoMap_delete]
  exact ((hi.separate.erase_b _).erase_u _).put_a (Function.update_self ..)
    (Function.update_self ..) _

/-- **`AddUnschedulableIfNotPresent` keeps the invariant**: a pod queued nowhere goes to one
place. -/
theorem Inv.addUnschedulableIfNotPresent (hi : Inv c q) {pInfo : QueuedPodInfo P} {cycle now : ℤ}
    {q' : PriorityQueue P κ υ} (h : q.addUnschedulableIfNotPresent c pInfo cycle now = .ok q') :
    Inv c q' := by
  unfold PriorityQueue.addUnschedulableIfNotPresent at h
  dsimp only at h
  split_ifs at h with hu ha hb hmove <;> cases h
  all_goals have hk : c.podInfoKeyFunc { pInfo with timestamp := now } = c.key pInfo.pod := rfl
  · -- a move request came in the pod's cycle or later: `podBackoffQ`
    obtain ⟨hb', hgetb⟩ := hi.podBackoffQ.add_spec c.backoffOrder { pInfo with timestamp := now }
    refine ⟨hi.activeQ, hb', hi.unschedulableQ, ?_, hi.nominator.add _ _ _, hi.moveRequestCycle_le⟩
    rw [hgetb, hk]
    exact hi.separate.put_b (by simpa [Heap.get, Config.podInfoKeyFunc] using ha)
      (by simpa [UnschedulablePodsMap.get] using hu) _
  · refine ⟨hi.activeQ, hi.podBackoffQ, keyed_update c.podInfoKeyFunc hi.unschedulableQ, ?_,
      hi.nominator.add _ _ _, hi.moveRequestCycle_le⟩
    rw [podInfoMap_addOrUpdate, hk]
    exact hi.separate.put_u (by simpa [Heap.get, Config.podInfoKeyFunc] using ha) (by simpa [Heap.get, Config.podInfoKeyFunc] using hb) _

/-- What `Pop` does: it takes the first pod of `activeQ`, before which no pod of `activeQ` is,
and counts a cycle. -/
theorem Inv.pop_spec (hi : Inv c q) {r : Except (QueueError P) (QueuedPodInfo P)}
    {q' : PriorityQueue P κ υ} (h : q.pop c = some (r, q')) :
    (r = .error .closed ∧ q' = q) ∨
      ∃ v, r = .ok { v with attempts := v.attempts + 1 } ∧
        getByKey q.activeQ (c.podInfoKeyFunc v) = some v ∧
        (∀ k w, getByKey q.activeQ k = some w → c.lessFn w v = false) ∧
        Heap.Inv c.podInfoKeyFunc c.lessFn q'.activeQ ∧
        getByKey q'.activeQ = Function.update (getByKey q.activeQ) (c.podInfoKeyFunc v) none ∧
        q' = { q with activeQ := q'.activeQ, schedulingCycle := q.schedulingCycle + 1 } := by
  unfold PriorityQueue.pop at h
  split at h
  · split at h
    · cases h
      exact .inl ⟨rfl, rfl⟩
    · cases h
  · rename_i hlen
    obtain ⟨v, hv, -, hinv, hget, hgetv, hmin⟩ := hi.activeQ.pop_spec hw (by
      change q.activeQ.queue.length ≠ 0 at hlen
      omega)
    have hpair : Heap.pop c.lessFn q.activeQ = (.ok v, (Heap.pop c.lessFn q.activeQ).2) :=
      Prod.ext hv rfl
    rw [hpair] at h
    cases h
    exact .inr ⟨v, rfl, hget, hmin, hinv, hgetv, rfl⟩

/-- **`Pop` keeps the invariant.** -/
theorem Inv.pop (hi : Inv c q) {r : Except (QueueError P) (QueuedPodInfo P)}
    {q' : PriorityQueue P κ υ} (h : q.pop c = some (r, q')) : Inv c q' := by
  rcases hi.pop_spec hw h with ⟨-, rfl⟩ | ⟨v, -, -, -, hinv, hget, hq'⟩
  · exact hi
  · rw [hq']
    refine ⟨hinv, hi.podBackoffQ, hi.unschedulableQ, ?_, hi.nominator, ?_⟩
    · dsimp only
      rw [hget]
      exact hi.separate.erase_a _
    · have := hi.moveRequestCycle_le
      dsimp only
      omega

/-- **`Update` keeps the invariant**, for two versions of one pod. -/
theorem Inv.update (hi : Inv c q) {oldPod newPod : P} (hkey : c.key oldPod = c.key newPod)
    (now : ℤ) : Inv c (q.update c oldPod newPod now) := by
  have hnom := hi.nominator.updateNominatedPod c.nominatedNodeName oldPod
  unfold PriorityQueue.update
  dsimp only
  cases hga : Heap.get c.podInfoKeyFunc q.activeQ (newQueuedPodInfoForLookup oldPod) with
  | some oldPodInfo =>
    have hka : getByKey q.activeQ (c.key newPod) = some oldPodInfo := by
      rw [← hkey]
      exact hga
    obtain ⟨ha, hgeta⟩ := hi.activeQ.add_spec hw (updatePod oldPodInfo newPod)
    refine ⟨ha, hi.podBackoffQ, hi.unschedulableQ, ?_, hnom _, hi.moveRequestCycle_le⟩
    dsimp only
    rw [Heap.update, hgeta]
    exact hi.separate.put_a (hi.separate.b_of_a hka) (hi.separate.u_of_a hka) _
  | none =>
  have hna : getByKey q.activeQ (c.key newPod) = none := by
    rw [← hkey]
    exact hga
  cases hgb : Heap.get c.podInfoKeyFunc q.podBackoffQ (newQueuedPodInfoForLookup oldPod) with
  | some oldPodInfo =>
    have hkb : getByKey q.podBackoffQ (c.key newPod) = some oldPodInfo := by
      rw [← hkey]
      exact hgb
    obtain ⟨hb, hgetb⟩ := hi.podBackoffQ.add_spec c.backoffOrder (updatePod oldPodInfo newPod)
    refine ⟨hi.activeQ, hb, hi.unschedulableQ, ?_, hnom _, hi.moveRequestCycle_le⟩
    dsimp only
    rw [Heap.update, hgetb]
    exact hi.separate.put_b hna (hi.separate.u_of_b hkb) _
  | none =>
  have hnb : getByKey q.podBackoffQ (c.key newPod) = none := by
    rw [← hkey]
    exact hgb
  cases hgu : q.unschedulableQ.get c newPod with
  | some usPodInfo =>
    have hku : q.unschedulableQ.podInfoMap (c.key newPod) = some usPodInfo := hgu
    dsimp only
    split_ifs
    · obtain ⟨hb, hgetb⟩ := hi.podBackoffQ.add_spec c.backoffOrder (updatePod usPodInfo newPod)
      refine ⟨hi.activeQ, hb, keyed_erase c.podInfoKeyFunc hi.unschedulableQ, ?_, hnom _,
        hi.moveRequestCycle_le⟩
      dsimp only
      rw [hgetb, podInfoMap_delete]
      exact (hi.separate.erase_u _).put_b hna (Function.update_self ..) _
    · obtain ⟨ha, hgeta⟩ := hi.activeQ.add_spec hw (updatePod usPodInfo newPod)
      refine ⟨ha, hi.podBackoffQ, keyed_erase c.podInfoKeyFunc hi.unschedulableQ, ?_, hnom _,
        hi.moveRequestCycle_le⟩
      dsimp only
      rw [hgeta, podInfoMap_delete]
      exact (hi.separate.erase_u _).put_a hnb (Function.update_self ..) _
    · refine ⟨hi.activeQ, hi.podBackoffQ, keyed_update c.podInfoKeyFunc hi.unschedulableQ, ?_,
        hnom _, hi.moveRequestCycle_le⟩
      dsimp only
      rw [podInfoMap_addOrUpdate]
      exact hi.separate.put_u hna hnb _
  | none =>
    have hnu : q.unschedulableQ.podInfoMap (c.key newPod) = none := hgu
    obtain ⟨ha, hgeta⟩ := hi.activeQ.add_spec hw (newQueuedPodInfo newPod now)
    refine ⟨ha, hi.podBackoffQ, hi.unschedulableQ, ?_, hi.nominator.add _ _ _,
      hi.moveRequestCycle_le⟩
    dsimp only
    rw [hgeta]
    exact hi.separate.put_a hnb hnu _

/-- **`Delete` keeps the invariant**: the pod leaves its queue. -/
theorem Inv.delete (hi : Inv c q) (pod : P) : Inv c (q.delete c pod) := by
  have hnom := (hi.nominator.delete pod).1
  have hdel := hi.activeQ.delete_spec hw (newQueuedPodInfoForLookup pod)
  unfold PriorityQueue.delete
  dsimp only
  split
  · rename_i activeQ hok
    rw [hok] at hdel
    obtain ⟨ha, -, hgeta⟩ := hdel
    refine ⟨ha, hi.podBackoffQ, hi.unschedulableQ, ?_, hnom, hi.moveRequestCycle_le⟩
    rw [hgeta]
    exact hi.separate.erase_a _
  · obtain ⟨hb, hgetb⟩ :=
      hi.podBackoffQ.deleteIfPresent_spec c.backoffOrder (newQueuedPodInfoForLookup pod)
    refine ⟨hi.activeQ, hb, keyed_erase c.podInfoKeyFunc hi.unschedulableQ, ?_, hnom,
      hi.moveRequestCycle_le⟩
    dsimp only
    rw [hgetb, podInfoMap_delete]
    exact (hi.separate.erase_b _).erase_u _

/-! ### The move events -/

omit hw in
theorem movePodsLoop_cycles (event : String) (now : ℤ) :
    ∀ (podInfoList : List (QueuedPodInfo P)) (q : PriorityQueue P κ υ),
      (movePodsLoop c event now podInfoList q).schedulingCycle = q.schedulingCycle ∧
        (movePodsLoop c event now podInfoList q).nominator = q.nominator
  | [], _ => ⟨rfl, rfl⟩
  | pInfo :: podInfoList, q => by
    unfold movePodsLoop
    split_ifs <;> exact movePodsLoop_cycles event now podInfoList _

/-- The loop of the moves keeps the invariant while the pods it has left are in `unschedulableQ`
under distinct keys: each goes to one heap and out of `unschedulableQ`, or stays. -/
theorem Inv.movePodsLoop (event : String) (now : ℤ) :
    ∀ (podInfoList : List (QueuedPodInfo P)) (q : PriorityQueue P κ υ), Inv c q →
      (∀ pInfo ∈ podInfoList, q.unschedulableQ.podInfoMap (c.podInfoKeyFunc pInfo) = some pInfo) →
      (podInfoList.map c.podInfoKeyFunc).Nodup →
      Inv c (movePodsLoop c event now podInfoList q)
  | [], _, hi, _, _ => hi
  | pInfo :: podInfoList, q, hi, hmem, hnd => by
    have hu : q.unschedulableQ.podInfoMap (c.podInfoKeyFunc pInfo) = some pInfo :=
      hmem pInfo List.mem_cons_self
    rw [List.map_cons, List.nodup_cons] at hnd
    have hrest : ∀ p ∈ podInfoList,
        (q.unschedulableQ.delete c pInfo.pod).podInfoMap (c.podInfoKeyFunc p) = some p := by
      intro p hp
      have hne : c.podInfoKeyFunc p ≠ c.key pInfo.pod := fun he =>
        hnd.1 (List.mem_map.mpr ⟨p, hp, he⟩)
      rw [podInfoMap_delete, Function.update_of_ne hne]
      exact hmem p (List.mem_cons_of_mem _ hp)
    unfold PriorityQueue.movePodsLoop
    split_ifs
    · exact Inv.movePodsLoop event now podInfoList q hi
        (fun p hp => hmem p (List.mem_cons_of_mem _ hp)) hnd.2
    · obtain ⟨hb, hgetb⟩ := hi.podBackoffQ.add_spec c.backoffOrder pInfo
      refine Inv.movePodsLoop event now podInfoList _ ⟨hi.activeQ, hb,
        keyed_erase c.podInfoKeyFunc hi.unschedulableQ, ?_, hi.nominator,
        hi.moveRequestCycle_le⟩ hrest hnd.2
      dsimp only
      rw [hgetb, podInfoMap_delete]
      exact (hi.separate.erase_u _).put_b (hi.separate.a_of_u hu) (Function.update_self ..) _
    · obtain ⟨ha, hgeta⟩ := hi.activeQ.add_spec hw pInfo
      refine Inv.movePodsLoop event now podInfoList _ ⟨ha, hi.podBackoffQ,
        keyed_erase c.podInfoKeyFunc hi.unschedulableQ, ?_, hi.nominator,
        hi.moveRequestCycle_le⟩ hrest hnd.2
      dsimp only
      rw [hgeta, podInfoMap_delete]
      exact (hi.separate.erase_u _).put_a (hi.separate.b_of_u hu) (Function.update_self ..) _

omit hw in
/-- The pods of `unschedulableQ` that pass a test, in an order that visits each key once, are
in `unschedulableQ` under distinct keys. -/
theorem unschedulablePodsWhere_spec
    (hkeyed : ∀ k pInfo, q.unschedulableQ.podInfoMap k = some pInfo → c.podInfoKeyFunc pInfo = k)
    (test : QueuedPodInfo P → Bool) :
    ∀ order : List κ,
      (∀ pInfo ∈ q.unschedulablePodsWhere order test,
        q.unschedulableQ.podInfoMap (c.podInfoKeyFunc pInfo) = some pInfo ∧
          c.podInfoKeyFunc pInfo ∈ order) ∧
      (order.Nodup → ((q.unschedulablePodsWhere order test).map c.podInfoKeyFunc).Nodup)
  | [] => ⟨by simp [unschedulablePodsWhere], fun _ => by simp [unschedulablePodsWhere]⟩
  | k :: order => by
    obtain ⟨ih₁, ih₂⟩ := unschedulablePodsWhere_spec hkeyed test order
    unfold unschedulablePodsWhere at ih₁ ih₂ ⊢
    rw [List.filterMap_cons]
    cases hk : (q.unschedulableQ.podInfoMap k).filter test with
    | none =>
      refine ⟨fun p hp => ?_, fun hnd => ih₂ (List.nodup_cons.mp hnd).2⟩
      obtain ⟨h₁, h₂⟩ := ih₁ p hp
      exact ⟨h₁, List.mem_cons_of_mem _ h₂⟩
    | some pInfo =>
      have hpk : q.unschedulableQ.podInfoMap k = some pInfo := Option.eq_some_of_filter_eq_some hk
      have hkey := hkeyed k pInfo hpk
      refine ⟨fun p hp => ?_, fun hnd => ?_⟩
      · rcases List.mem_cons.mp hp with rfl | hp
        · rw [hkey]
          exact ⟨hpk, List.mem_cons_self⟩
        · obtain ⟨h₁, h₂⟩ := ih₁ p hp
          exact ⟨h₁, List.mem_cons_of_mem _ h₂⟩
      · obtain ⟨hk, hnd⟩ := List.nodup_cons.mp hnd
        rw [List.map_cons, List.nodup_cons, hkey]
        refine ⟨fun hm => ?_, ih₂ hnd⟩
        obtain ⟨p, hp, hpk'⟩ := List.mem_map.mp hm
        exact hk (hpk' ▸ (ih₁ p hp).2)

/-- **A move keeps the invariant** when its pods come from `unschedulableQ` in an order that
visits each key once, and records the move request. -/
theorem Inv.movePodsWhere (hi : Inv c q) (order : List κ) (hnd : order.Nodup)
    (test : QueuedPodInfo P → Bool) (event : String) (now : ℤ) :
    Inv c (q.movePodsToActiveOrBackoffQueue c (q.unschedulablePodsWhere order test) event now) := by
  obtain ⟨hmem, hnodup⟩ := unschedulablePodsWhere_spec hi.unschedulableQ test order
  have hloop := hi.movePodsLoop hw event now _ q (fun p hp => (hmem p hp).1) (hnodup hnd)
  obtain ⟨hcycle, -⟩ := movePodsLoop_cycles event now (q.unschedulablePodsWhere order test) q
  refine ⟨hloop.activeQ, hloop.podBackoffQ, hloop.unschedulableQ, hloop.separate, hloop.nominator,
    ?_⟩
  show q.schedulingCycle ≤ (PriorityQueue.movePodsLoop c event now _ q).schedulingCycle
  rw [hcycle]

theorem Inv.moveAllToActiveOrBackoffQueue (hi : Inv c q) (event : String) {order : List κ}
    (hnd : order.Nodup) (now : ℤ) : Inv c (q.moveAllToActiveOrBackoffQueue c event order now) :=
  hi.movePodsWhere hw order hnd _ event now

theorem Inv.assignedPodAdded (hi : Inv c q) {order : List κ} (hnd : order.Nodup)
    (termMatches : QueuedPodInfo P → Bool) (now : ℤ) :
    Inv c (q.assignedPodAdded c order termMatches now) :=
  hi.movePodsWhere hw order hnd termMatches _ now

theorem Inv.assignedPodUpdated (hi : Inv c q) {order : List κ} (hnd : order.Nodup)
    (termMatches : QueuedPodInfo P → Bool) (now : ℤ) :
    Inv c (q.assignedPodUpdated c order termMatches now) :=
  hi.movePodsWhere hw order hnd termMatches _ now

theorem Inv.flushUnschedulableQLeftover (hi : Inv c q) {order : List κ} (hnd : order.Nodup)
    (now : ℤ) : Inv c (q.flushUnschedulableQLeftover c order now) := by
  unfold PriorityQueue.flushUnschedulableQLeftover
  dsimp only
  split
  · exact hi.movePodsWhere hw order hnd _ _ now
  · exact hi

/-- The loop of `flushBackoffQCompleted` keeps the invariant: each pod it pops from
`podBackoffQ` goes to `activeQ`. -/
theorem Inv.flushBackoffQCompletedLoop (now : ℤ) :
    ∀ (n : ℕ) (q : PriorityQueue P κ υ), Inv c q → Inv c (flushBackoffQCompletedLoop c now n q)
  | 0, _, hi => hi
  | n + 1, q, hi => by
    unfold PriorityQueue.flushBackoffQCompletedLoop
    split
    · exact hi
    · rename_i rawPodInfo hpeek
      split
      · exact hi
      · have hpos : 0 < q.podBackoffQ.queue.length := by
          by_contra h0
          rw [hi.podBackoffQ.peek_spec, if_neg h0] at hpeek
          cases hpeek
        obtain ⟨v, hv, hpeekv, hb, hgetv, hgetb, -⟩ :=
          hi.podBackoffQ.pop_spec c.backoffOrder hpos
        -- the pod `Peek` shows is the pod `Pop` takes
        rw [hpeek, Option.some.injEq] at hpeekv
        subst hpeekv
        have hpair : Heap.pop c.podsCompareBackoffCompleted q.podBackoffQ =
            (.ok rawPodInfo, (Heap.pop c.podsCompareBackoffCompleted q.podBackoffQ).2) :=
          Prod.ext hv rfl
        rw [hpair]
        dsimp only
        obtain ⟨ha, hgeta⟩ := hi.activeQ.add_spec hw rawPodInfo
        refine Inv.flushBackoffQCompletedLoop now n _ ⟨ha, hb, hi.unschedulableQ, ?_,
          hi.nominator, hi.moveRequestCycle_le⟩
        dsimp only
        rw [hgeta, hgetb]
        exact (hi.separate.erase_b _).put_a (Function.update_self ..) (hi.separate.u_of_b hgetv) _

theorem Inv.flushBackoffQCompleted (hi : Inv c q) (now : ℤ) :
    Inv c (q.flushBackoffQCompleted c now) :=
  hi.flushBackoffQCompletedLoop hw now _ q

omit hw in
theorem Inv.close (hi : Inv c q) : Inv c q.close :=
  ⟨hi.activeQ, hi.podBackoffQ, hi.unschedulableQ, hi.separate, hi.nominator, hi.moveRequestCycle_le⟩

omit hw in
/-- A call on the nominator from outside the queue (the scheduler nominates pods when it
preempts) keeps the invariant. -/
theorem Inv.nominate (hi : Inv c q) (call : NominatedPodMap.Call P) :
    Inv c { q with nominator := q.nominator.perform c.uid c.nominatedNodeName call } :=
  ⟨hi.activeQ, hi.podBackoffQ, hi.unschedulableQ, hi.separate,
    hi.nominator.perform c.nominatedNodeName call, hi.moveRequestCycle_le⟩

end PriorityQueue

end Kubernetes.Scheduler
